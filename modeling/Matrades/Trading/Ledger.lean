import Matrades.Broker.Mt5Bridge
import Matrades.Trading.Execution
import Matrades.Worker.Execution

/-!
# The three gates of an idempotency key

`ExecutionLedger.put` of `modules/trading/execution.py`, and the run of submissions to it, to
`persist_command` and to the bridge's `enqueue`. The bridge is sent an execution command as its
client translates it.
-/

namespace Matrades

open Base

/-- The entry of the ledger's outbox. -/
structure CreatedEvent where
  commandId : Uuid
  accountId : Uuid
  idempotencyKey : String

structure ExecutionLedger where
  commands : Dict Uuid ExecutionCommand
  byIdempotency : Dict String Uuid
  outbox : List CreatedEvent
  /-- A key leads to a command. -/
  bound : ∀ key id, byIdempotency.get? key = some id → (commands.get? id).isSome = true

namespace ExecutionLedger

def empty : ExecutionLedger := ⟨.empty, .empty, [], nofun⟩

/-- The command under the key. -/
def existing? (ledger : ExecutionLedger) (key : String) : Option ExecutionCommand :=
  (ledger.byIdempotency.get? key).bind ledger.commands.get?

/-- The ledger with a command under a new key. -/
def record (ledger : ExecutionLedger) (command : ExecutionCommand) : ExecutionLedger where
  commands := ledger.commands.set command.id command
  byIdempotency := ledger.byIdempotency.set command.idempotencyKey command.id
  outbox := ledger.outbox ++ [⟨command.id, command.accountId, command.idempotencyKey⟩]
  bound key id hid := by
    rw [Dict.get?_set] at hid ⊢
    split
    · rfl
    · rename_i hother
      split at hid
      · exact absurd (Option.some.inj hid).symm hother
      · exact ledger.bound key id hid

def put (ledger : ExecutionLedger) (command : ExecutionCommand) :
    Except TaskError (ExecutionLedger × ExecutionCommand) :=
  match ledger.existing? command.idempotencyKey with
  | some existing =>
    if Json.eqvDict existing.requestedPostcondition command.requestedPostcondition = false then
      .error (.valueError "idempotency key is bound to a different command payload")
    else .ok (ledger, existing)
  | none => .ok (ledger.record command, command)

end ExecutionLedger

/-! ## Submissions -/

structure Gates where
  ledger : ExecutionLedger
  db : Database
  queue : BridgeCommandQueue
  /-- What the pending commands of the bridge were translated from. -/
  sent : Dict Uuid (ExecutionCommand × ExecutionAuthorization)

namespace Gates

def start : Gates := ⟨.empty, .empty, .empty, .empty⟩

inductive Label
  | put (command : ExecutionCommand)
  | persist (env : Env) (ownerId : Uuid) (command : ExecutionCommand)
  | enqueue (command : ExecutionCommand) (authorization : ExecutionAuthorization)

/-- A key at a gate. -/
inductive Place
  | ledger (key : String)
  | database (ownerId : Uuid) (key : String)
  | bridge (key : String)
  deriving DecidableEq

def Label.command : Label → ExecutionCommand
  | put command => command
  | persist _ _ command => command
  | enqueue command _ => command

/-- Where the label presents its key. -/
def Label.place : Label → Place
  | put command => .ledger command.idempotencyKey
  | persist _ ownerId command => .database ownerId command.idempotencyKey
  | enqueue command _ => .bridge command.idempotencyKey

/-- The command stored under the key. -/
def stored (s : Gates) : Place → Option ExecutionCommand
  | .ledger key => s.ledger.existing? key
  | .database ownerId key => ((listedCommands s.db ownerId).find? fun item =>
      item.data.command.idempotencyKey = key).map (·.data.command)
  | .bridge key => (s.sent.values.find? fun p => p.1.idempotencyKey = key).map Prod.fst

/-- Does the gate accept the command? -/
def accepts (s : Gates) : Label → Bool
  | .put command => (s.ledger.put command).isOk
  | .persist env ownerId command =>
    (Tx.unitOfWork (persistCommand env ownerId command) s.db).result.isOk
  | .enqueue command authorization => (s.queue.enqueue (bridgeCommand command authorization)).isOk

def step (s : Gates) : Label → Gates
  | .put command =>
    match s.ledger.put command with
    | .ok (ledger, _) => { s with ledger }
    | .error _ => s
  | .persist env ownerId command =>
    { s with db := (Tx.unitOfWork (persistCommand env ownerId command) s.db).state }
  | .enqueue command authorization =>
    match s.queue.enqueue (bridgeCommand command authorization) with
    | .ok (queue, _) =>
      { s with
        queue
        sent := match s.stored (.bridge command.idempotencyKey) with
          | some _ => s.sent
          | none => s.sent.set command.id (command, authorization) }
    | .error _ => s

end Gates

end Matrades

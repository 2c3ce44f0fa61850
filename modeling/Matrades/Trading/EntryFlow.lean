import Matrades.Base.Run
import Matrades.Broker.Mt5Bridge
import Matrades.Routes.TradeManagement
import Matrades.Worker.Execution

/-!
# An entry on its way, and the snapshots taken of it

The parties between a stored command and the conclusion drawn from a snapshot: the backend's database,
the bridge's queue, the advisor with the commands in its hand, the broker with the live orders, and
the snapshots taken at the broker, which may be ingested later and in any order. The labels hold what
the environment decides. A capture remembers what the bridge held and what had been sent when the
snapshot was taken.
-/

namespace Matrades

open Base

/-- Is this a queued or leased command with the id? -/
def BridgeCommand.waitsAs (c : BridgeCommand) (commandId : Uuid) : Bool :=
  c.commandId = commandId && (c.state = "QUEUED" || c.state = "LEASED")

/-- Does the queue hold the command for a poll, now or after its lease? -/
def BridgeCommandQueue.waiting (q : BridgeCommandQueue) (commandId : Uuid) : Bool :=
  q.pending.values.any (·.waitsAs commandId)

structure Capture where
  snapshot : BrokerSnapshot
  queue : BridgeCommandQueue
  sent : List Uuid

structure EntryFlow where
  db : Database
  queue : BridgeCommandQueue
  /-- The commands the adapter was called for. -/
  sent : List Uuid
  /-- The commands the advisor has polled and not yet executed. -/
  inHand : List Uuid
  /-- The commands the advisor has executed. -/
  processed : List Uuid
  /-- The commands whose order or position is live at the broker. -/
  live : List Uuid
  captures : List Capture

namespace EntryFlow

/-- No command stored, nothing on its way. -/
def start (db : Database) : EntryFlow where
  db := { db with commands := [] }
  queue := .empty
  sent := []
  inHand := []
  processed := []
  live := []
  captures := []

inductive Label
  | persist (env : Env) (ownerId : Uuid) (command : ExecutionCommand)
  | lease (env : TaskEnv) (ownerId commandId : Uuid)
  /-- `delivered`: does the adapter's request reach the bridge? -/
  | dispatch (env : TaskEnv) (answer : AdapterAnswer) (delivered : Bool) (ownerId commandId : Uuid)
  /-- `delivered`: does the bridge's answer reach the advisor? -/
  | poll (now : Time) (accountId : Uuid) (limit : Int) (delivered : Bool)
  /-- The advisor takes up a command; `placed`: does the broker place its order? -/
  | execute (commandId : Uuid) (placed : Bool)
  | receipt (r : BridgeReceipt)
  /-- An order or position ends. -/
  | close (commandId : Uuid)
  | capture (snapshot : BrokerSnapshot)
  | ingest (env : Env) (ownerId : Uuid) (index : Nat)

/-- The bridge's queue after a call of the adapter. -/
def deliver (queue : BridgeCommandQueue) (call : BrokerCall) : BridgeCommandQueue :=
  match dispatchCommand call.command call.authorization with
  | .error _ => queue
  | .ok command =>
    match enqueueCommand queue command with
    | .ok (queue, _) => queue
    | .error _ => queue

/-- The states of the receipts the advisor posts. -/
def receiptStates : List String := ["ACKNOWLEDGED", "REJECTED", "OUTCOME_UNKNOWN"]

def execute (s : EntryFlow) (commandId : Uuid) (placed : Bool) : EntryFlow :=
  if commandId ∈ s.inHand then
    { s with
      inHand := s.inHand.erase commandId
      processed := commandId :: s.processed
      live := if placed ∧ commandId ∉ s.processed then commandId :: s.live else s.live }
  else s

def dispatch (s : EntryFlow) (env : TaskEnv) (answer : AdapterAnswer) (delivered : Bool)
    (ownerId commandId : Uuid) : EntryFlow :=
  let o := dispatchTask env answer ownerId commandId s.db
  let queue := if delivered then o.emitted.foldl deliver s.queue else s.queue
  { s with db := o.state, queue, sent := s.sent ++ o.emitted.map (·.command.id) }

def poll (s : EntryFlow) (now : Time) (accountId : Uuid) (limit : Int) (delivered : Bool) :
    EntryFlow :=
  let polled := s.queue.poll now accountId limit
  let taken := if delivered then polled.2.map (·.commandId) else []
  { s with queue := polled.1, inHand := s.inHand ++ taken }

def receipt (s : EntryFlow) (r : BridgeReceipt) : EntryFlow :=
  if r.state ∈ receiptStates then { s with queue := (s.queue.receipt r).1 } else s

def ingest (s : EntryFlow) (env : Env) (ownerId : Uuid) (index : Nat) : EntryFlow :=
  match s.captures[index]? with
  | some k => { s with db := (ingestBrokerSnapshot env ownerId k.snapshot s.db).state }
  | none => s

def step (s : EntryFlow) : Label → EntryFlow
  | .persist env ownerId command =>
    { s with db := (Tx.unitOfWork (persistCommand env ownerId command) s.db).state }
  | .lease env ownerId commandId => { s with db := (leaseTask env ownerId commandId s.db).state }
  | .dispatch env answer delivered ownerId commandId => s.dispatch env answer delivered ownerId commandId
  | .poll now accountId limit delivered => s.poll now accountId limit delivered
  | .execute commandId placed => s.execute commandId placed
  | .receipt r => s.receipt r
  | .close commandId => { s with live := s.live.filter (· ≠ commandId) }
  | .capture snapshot => { s with captures := s.captures ++ [⟨snapshot, s.queue, s.sent⟩] }
  | .ingest env ownerId index => s.ingest env ownerId index

/-! ## What a conclusion has to mean -/

/-- No continuation makes an order of the command live. -/
def NeverLive (s : EntryFlow) (commandId : Uuid) : Prop := ∀ ls, commandId ∉ (run step s ls).live

/-- The ingestion moves this pending entry to "no effect". -/
structure Concludes (s : EntryFlow) (env : Env) (ownerId : Uuid) (index : Nat) (k : Capture)
    (row : Row Uuid CommandState CommandData) : Prop where
  captured : s.captures[index]? = some k
  listed : row ∈ s.db.commands
  pending : isPending k.snapshot row = true
  entry : row.data.command.action = .placeOrder
  moved : ∃ row' ∈ (s.step (.ingest env ownerId index)).db.commands,
    row'.id = row.id ∧ row'.state = .noEffectConfirmed

/-- Every conclusion of the step is sound in time: the order is not live and never will be, and the
snapshot was taken after the command was sent, and not while the bridge held it. -/
def Sound (s : EntryFlow) : Label → Prop
  | .ingest env ownerId index => ∀ k row, s.Concludes env ownerId index k row →
      (s.step (.ingest env ownerId index)).NeverLive row.id ∧
        row.id ∈ k.sent ∧ k.queue.waiting row.id = false
  | _ => True

/-- Does the position fit the command? -/
def fits (sequence : Int) (command : ExecutionCommand) (item : BrokerPosition) : Bool :=
  match typedPosition sequence item with
  | .ok typed => (positionFits command.requestedPostcondition typed).toOption = some true
  | .error _ => false

/-- The snapshot shows an order of the command, or a position that fits it. -/
def shown (snapshot : BrokerSnapshot) (command : ExecutionCommand) : Bool :=
  !(relevantOrders command snapshot).isEmpty ||
    snapshot.positions.any (fits snapshot.sequence command)

/-- Is the snapshot new, and newer than the account's last one? -/
def takesUp (db : Database) (ownerId : Uuid) (snapshot : BrokerSnapshot) : Bool :=
  let existing := accountSnapshots db ownerId snapshot.accountId
  !(existing.any fun r => r.data.messageId = snapshot.messageId) && !outOfOrder snapshot existing

/-- Every pending entry that a snapshot taken up by an ingestion does not show was sent, and out of
the bridge's queue, when the snapshot was taken; and by now its order is not live, and the advisor has
executed it or will not get it. -/
def Settled (s : EntryFlow) : Label → Prop
  | .ingest _ ownerId index => ∀ k ∈ s.captures[index]?, takesUp s.db ownerId k.snapshot = true →
      ∀ row ∈ s.db.commands, row.ownerId = ownerId → isPending k.snapshot row = true →
      row.data.command.action = .placeOrder → shown k.snapshot row.data.command = false →
      (row.id ∈ k.sent ∧ k.queue.waiting row.id = false) ∧ row.id ∉ s.live ∧
        (row.id ∈ s.processed ∨ (row.id ∉ s.inHand ∧ s.queue.waiting row.id = false))
  | _ => True

instance (s : EntryFlow) : ∀ l, Decidable (Settled s l)
  | .ingest _ ownerId index => inferInstanceAs (Decidable (∀ k ∈ s.captures[index]?,
      takesUp s.db ownerId k.snapshot = true →
      ∀ row ∈ s.db.commands, row.ownerId = ownerId → isPending k.snapshot row = true →
      row.data.command.action = .placeOrder → shown k.snapshot row.data.command = false →
      (row.id ∈ k.sent ∧ k.queue.waiting row.id = false) ∧ row.id ∉ s.live ∧
        (row.id ∈ s.processed ∨ (row.id ∉ s.inHand ∧ s.queue.waiting row.id = false))))
  | .persist .. | .lease .. | .dispatch .. | .poll .. | .execute .. | .receipt _ | .close _
  | .capture _ => .isTrue trivial

end EntryFlow

end Matrades

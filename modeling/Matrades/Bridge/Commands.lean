import Matrades.Base.Json
import Matrades.Shared.DomainTypes

/-!
# The bridge's command queue

`bridges/mt5/commands.py`, and the three command routes of `bridges/mt5/app.py`. A command is queued
once per idempotency key, leased by a poll, polled again once the lease has run out, and settled by
its first receipt. A poll answers with one flat object per leased command: the command's own fields,
updated with the entries of its payload.
-/

namespace Matrades

open Base

structure BridgeCommand where
  commandId : Uuid
  accountId : Uuid
  action : String
  idempotencyKey : String
  payload : Dict String Json
  authorizationId : Option Uuid
  authorizationDigest : Option String
  expectedBrokerVersion : Option String
  state : String := "QUEUED"
  leaseExpiresAt : Option Time := none

structure BridgeReceipt where
  commandId : Uuid
  accountId : Uuid
  idempotencyKey : String
  state : String
  outcomeCertainty : String
  brokerOrderId : Option String
  errorCode : Option String

structure BridgeCommandQueue where
  pending : Dict Uuid BridgeCommand
  receipts : Dict Uuid BridgeReceipt
  leaseSeconds : Nat := 30

namespace BridgeCommandQueue

def empty : BridgeCommandQueue := { pending := .empty, receipts := .empty }

/-- The pending command with the idempotency key, the first one queued. -/
def withKey (q : BridgeCommandQueue) (key : String) : Option BridgeCommand :=
  q.pending.values.find? fun existing => existing.idempotencyKey = key

def enqueue (q : BridgeCommandQueue) (command : BridgeCommand) :
    Except String (BridgeCommandQueue × BridgeCommand) :=
  match q.withKey command.idempotencyKey with
  | some existing =>
    if Json.eqvDict existing.payload command.payload = false ∨ existing.action ≠ command.action then
      .error "idempotency key is bound to a different command"
    else .ok (q, existing)
  | none => .ok ({ q with pending := q.pending.set command.commandId command }, command)

/-- May a poll of the account at `now` take the command? -/
def available (now : Time) (accountId : Uuid) (c : BridgeCommand) : Bool :=
  c.accountId = accountId && (c.state = "QUEUED" || c.state = "LEASED") &&
    !(c.state = "LEASED" && c.leaseExpiresAt.any (now < ·))

/-- The end of a lease taken at `now`: whole seconds. -/
def leaseEnd (q : BridgeCommandQueue) (now : Time) : Time :=
  now / second * second + max 5 q.leaseSeconds * second

def leased (deadline : Time) (c : BridgeCommand) : BridgeCommand :=
  { c with state := "LEASED", leaseExpiresAt := some deadline }

/-- The loop of `poll` over the pending commands, `taken` of them leased so far: the commands after
it, and those it takes, as they were queued. -/
def pollEntries (now deadline : Time) (accountId : Uuid) (limit : Int) (taken : Nat) :
    List (Uuid × BridgeCommand) → List (Uuid × BridgeCommand) × List BridgeCommand
  | [] => ([], [])
  | (id, c) :: es =>
    if available now accountId c then
      if limit ≤ taken + 1 then ((id, leased deadline c) :: es, [c])
      else
        let rest := pollEntries now deadline accountId limit (taken + 1) es
        ((id, leased deadline c) :: rest.1, c :: rest.2)
    else
      let rest := pollEntries now deadline accountId limit taken es
      ((id, c) :: rest.1, rest.2)

theorem pollEntries_keys (now deadline : Time) (accountId : Uuid) (limit : Int) (taken : Nat)
    (es : List (Uuid × BridgeCommand)) :
    (pollEntries now deadline accountId limit taken es).1.map Prod.fst = es.map Prod.fst := by
  induction es generalizing taken with
  | nil => rfl
  | cons e es ih =>
    obtain ⟨id, c⟩ := e
    unfold pollEntries
    split
    · split
      · rfl
      · simp [ih]
    · simp [ih]

/-- The commands a poll takes, as they were queued. -/
def selected (q : BridgeCommandQueue) (now : Time) (accountId : Uuid) (limit : Int) :
    List BridgeCommand :=
  (pollEntries now (q.leaseEnd now) accountId limit 0 q.pending.entries).2

def poll (q : BridgeCommandQueue) (now : Time) (accountId : Uuid) (limit : Int) :
    BridgeCommandQueue × List BridgeCommand :=
  let polled := pollEntries now (q.leaseEnd now) accountId limit 0 q.pending.entries
  ({ q with pending := ⟨polled.1, by rw [pollEntries_keys]; exact q.pending.nodup⟩ },
    polled.2.map (leased (q.leaseEnd now)))

def receipt (q : BridgeCommandQueue) (r : BridgeReceipt) : BridgeCommandQueue × BridgeReceipt :=
  match q.receipts.get? r.commandId with
  | some existing => (q, existing)
  | none =>
    ({ q with
        receipts := q.receipts.set r.commandId r
        pending := q.pending.modify r.commandId fun c =>
          { c with state := r.state, leaseExpiresAt := none } }, r)

/-- `_load` of what `_persist` wrote: the commands and the receipts, keyed by their ids again. -/
def reload (q : BridgeCommandQueue) : BridgeCommandQueue :=
  { q with
    pending := .ofList (q.pending.values.map fun c => (c.commandId, c))
    receipts := .ofList (q.receipts.values.map fun r => (r.commandId, r)) }

end BridgeCommandQueue

/-! ## The routes -/

/-- The error of a refused request. -/
structure HttpError where
  status : Nat
  detail : String
  deriving DecidableEq, Repr

def optionJson (value : Option String) : Json := value.elim .null .str

/-- A command as an object, without its payload. -/
def envelope (c : BridgeCommand) : Dict String Json :=
  .ofList [
    ("command_id", .str c.commandId.str),
    ("account_id", .str c.accountId.str),
    ("action", .str c.action),
    ("idempotency_key", .str c.idempotencyKey),
    ("authorization_id", optionJson (c.authorizationId.map Uuid.str)),
    ("authorization_digest", optionJson c.authorizationDigest),
    ("expected_broker_version", optionJson c.expectedBrokerVersion),
    ("state", .str c.state),
    ("lease_expires_at", optionJson (c.leaseExpiresAt.map fun t => String.ofList (isoTime t)))]

/-- The object of a polled command: `data.update(payload)`. -/
def flatten (c : BridgeCommand) : Dict String Json := (envelope c).update c.payload

/-- `GET /commands/poll`. -/
def pollCommands (q : BridgeCommandQueue) (now : Time) (accountId : Uuid) (limit : Int) :
    BridgeCommandQueue × List (Dict String Json) :=
  let polled := q.poll now accountId (min limit 50)
  (polled.1, polled.2.map flatten)

/-- Does the command carry a server authorization? -/
def BridgeCommand.isAuthorized (c : BridgeCommand) : Bool :=
  c.authorizationId.isSome && c.authorizationDigest.any (· ≠ "")

/-- `POST /commands`. -/
def enqueueCommand (q : BridgeCommandQueue) (c : BridgeCommand) :
    Except HttpError (BridgeCommandQueue × BridgeCommand) :=
  if c.isAuthorized = false then .error ⟨403, "server authorization is required"⟩
  else match q.enqueue c with
    | .ok answer => .ok answer
    | .error message => .error ⟨500, message⟩

end Matrades

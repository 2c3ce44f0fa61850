import Matrades.Store.Database

/-!
# Commands: creation, lifecycle and dispatch

`modules/trading/execution.py`: the lifecycle table of commands, `create_command`, and
`ExecutionService.dispatch`. The adapter's answer is data of the environment: it responds, or the
call raises, or the worker dies in the call.
-/

namespace Matrades

open Base

/-! ## The lifecycle -/

/-- `_TRANSITIONS`. -/
def CommandState.targets : CommandState → List CommandState
  | created => [validating, authorized, blocked]
  | validating => [authorized, blocked]
  | authorized => [queued, expired, blocked]
  | queued => [dispatching, expired]
  | dispatching => [acknowledged, rejected, outcomeUnknown, reconciling]
  | reconciling => [acknowledged, applied, noEffectConfirmed, blockedAmbiguous]
  | acknowledged => [partiallyApplied, applied, reconciling, rejected]
  | partiallyApplied => [applied, reconciling]
  | outcomeUnknown => [reconciling]
  | _ => []

/-- `transition` of a command. -/
def transition (command : ExecutionCommand) (target : CommandState) :
    Except TaskError ExecutionCommand :=
  if target = command.state then .ok command
  else if target ∈ command.state.targets then
    .ok { command with state := target, version := command.version + 1 }
  else .error (.transitionError "unsafe or out-of-order lifecycle transition")

/-! ## Creation -/

def decimalText (q : ℚ) : String := String.ofList (decText q)

/-- The postcondition of an entry. -/
def entryPostcondition (plan : TradePlan) : Dict String Json :=
  let construction := plan.construction
  .ofList [
    ("instrument", .str construction.instrument),
    ("direction", .str construction.direction.value),
    ("quantity", .str (decimalText construction.approvedSize)),
    ("quantity_unit", .str construction.quantityUnit.value),
    ("entry", .str (decimalText construction.entry)),
    ("stop_loss", .str (decimalText construction.stopLoss)),
    ("targets", .arr ((construction.target :: construction.laterTargets).map
      fun target => .str (decimalText target))),
    ("take_profit", .str (decimalText construction.target)),
    ("max_loss_account_currency", if plan.ticket.isSome then
      .str (decimalText plan.risk.snapshot.candidateTradeRisk) else .null),
    ("venue_instrument_id", .str construction.venueInstrumentId.str),
    ("specification_version_id", .str construction.specificationVersionId.str)]

/-- `create_command`; the id is new. -/
def createCommand (now : Time) (id : Uuid) (plan : TradePlan)
    (authorization : ExecutionAuthorization) (idempotencyKey : String) :
    Except TaskError ExecutionCommand :=
  if authorization.accountId ≠ plan.accountId then
    .error (.valueError "authorization account does not match trade plan")
  else if authorization.expiresAt ≤ now then
    .error (.valueError "execution authorization has expired")
  else if idempotencyKey.length < 8 then
    .error (.valueError "idempotency_key: String should have at least 8 characters")
  else .ok {
    id
    accountId := plan.accountId
    action := authorization.action
    tradePlanId := some plan.id
    authorizationId := some authorization.id
    idempotencyKey
    requestedPostcondition := entryPostcondition plan }

/-! ## Dispatch -/

/-- The truth values `dispatch` reads from the adapter's response. -/
structure AdapterResponse where
  confirmed : Bool := false
  rejected : Bool := false
  brokerOrderId : Option String := none

inductive AdapterAnswer
  | responds (response : AdapterResponse)
  | raises (exception : String)
  /-- The worker is killed in the call: nothing catches it. -/
  | dies

/-- `dispatch` up to the adapter call: the command as it is, or the one to send. -/
def beginDispatch (command : ExecutionCommand) :
    Except TaskError (ExecutionCommand ⊕ ExecutionCommand) :=
  if command.state ∈ [.applied, .rejected, .blockedAmbiguous] then .ok (.inl command)
  else if command.state ∈ [.outcomeUnknown, .reconciling] then
    .error (.transitionError "uncertain command must reconcile before retry")
  else do
    let command ← if command.state = .created then transition command .authorized else pure command
    let command ← if command.state = .authorized then transition command .queued else pure command
    if command.state = .queued ∨ command.state = .dispatching then do
      let command ← transition command .dispatching
      let attempt : ExecutionAttempt := { attempt := command.attempts.length + 1, state := .dispatching }
      return .inr { command with attempts := command.attempts ++ [attempt] }
    else .error (.transitionError "command cannot dispatch")

/-- Change the last attempt. -/
def amendLastAttempt (attempts : List ExecutionAttempt) (f : ExecutionAttempt → ExecutionAttempt) :
    List ExecutionAttempt :=
  match attempts.getLast? with
  | some last => attempts.dropLast ++ [f last]
  | none => []

/-- `dispatch` after the adapter call responded or raised. -/
def afterResponse (command : ExecutionCommand) (response : AdapterResponse) : ExecutionCommand :=
  let acknowledged : ExecutionCommand :=
    { command with
      state := .acknowledged
      version := command.version + 1
      attempts := amendLastAttempt command.attempts fun a => { a with state := .acknowledged }
      outcomeCertainty := if response.confirmed then .confirmed else .uncertain
      brokerOrderId := response.brokerOrderId.filter (· ≠ "") }
  if response.rejected then
    { acknowledged with state := .rejected, version := acknowledged.version + 1 }
  else acknowledged

def afterException (command : ExecutionCommand) (exception : String) : ExecutionCommand :=
  { command with
    state := .outcomeUnknown
    version := command.version + 1
    attempts := amendLastAttempt command.attempts fun a =>
      { a with state := .outcomeUnknown, errorCode := some exception }
    outcomeCertainty := .uncertain }

/-- What `dispatch` makes of the adapter's answer. -/
def finishDispatch (command : ExecutionCommand) : AdapterAnswer → Except TaskError ExecutionCommand
  | .responds response => .ok (afterResponse command response)
  | .raises exception => .ok (afterException command exception)
  | .dies => .error .infrastructure

/-- `ExecutionService.dispatch`. -/
def dispatch (answer : AdapterAnswer) (command : ExecutionCommand)
    (authorization : ExecutionAuthorization) : Session ExecutionCommand := do
  match ← Tx.lift (beginDispatch command) with
  | .inl command => return command
  | .inr command =>
    Tx.emit ⟨command, authorization⟩
    Tx.lift (finishDispatch command answer)

end Matrades

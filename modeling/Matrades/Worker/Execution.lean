import Matrades.Base.Result
import Matrades.Risk.Reservations
import Matrades.Trading.Authority

/-!
# The execution tasks

`apps/worker/app/tasks/execution.py`: `_lease` and `_dispatch`, with `persist_command` and
`lease_command` of `modules/trading/execution_store.py`. Each task is one transaction. A dispatch reads and checks,
leases the command, calls the adapter, and then records the outcome in the command, the plan's
reservation and the plan.

`faults` are the points at which the infrastructure fails the task (a write that raises, a commit
that is refused, a client that does not close, a worker that dies there).
-/

namespace Matrades

open Base

inductive FaultPoint
  | lease | close | persist | reservation | plan | commit
  deriving DecidableEq, Repr

/-- What the environment decides about one task. -/
structure TaskEnv where
  now : Time
  workerId : String
  faults : List FaultPoint := []

/-- Fail here, if the infrastructure does. -/
def TaskEnv.pass (env : TaskEnv) (point : FaultPoint) : Session Unit :=
  Tx.require (point ∉ env.faults) .infrastructure

/-! ## Storing a command -/

/-- The row of a new command. -/
def commandRow (env : Env) (ownerId : Uuid) (command : ExecutionCommand) :
    Row Uuid CommandState CommandData :=
  ⟨command.id, ownerId, command.state, 1, { command }, env.now⟩

def Database.addCommand (db : Database) (env : Env) (ownerId : Uuid) (command : ExecutionCommand) :
    Database :=
  { db with commands := db.commands ++ [commandRow env ownerId command] }.audit ownerId
    "execution.command.queued" command.id

/-- `persist_command`. -/
def persistCommand (env : Env) (ownerId : Uuid) (command : ExecutionCommand) : Session Unit := do
  let db ← Tx.get
  match Table.get? db.commands command.id ownerId with
  | some existing =>
    Tx.require (existing.data.command.idempotencyKey = command.idempotencyKey)
      (.valueError "command id is bound to a different idempotency identity")
  | none =>
    match (listedCommands db ownerId).find? fun item =>
        item.data.command.idempotencyKey = command.idempotencyKey with
    | some item =>
      Tx.require (Json.eqvDict item.data.command.requestedPostcondition
          command.requestedPostcondition = true)
        (.valueError "idempotency key is bound to a different command payload")
    | none =>
      -- the id is the primary key of the table
      Tx.require (∀ row ∈ db.commands, row.id ≠ command.id) .infrastructure
      Tx.modify fun db => db.addCommand env ownerId command

/-! ## Leasing -/

/-- The states from which a command may be leased. -/
def leasableStates : List CommandState := [.queued, .authorized]

def leaseSeconds : Nat := 30

/-- The data of a leased command. -/
def leasedData (env : TaskEnv) (data : CommandData) : CommandData where
  command := { data.command with state := .dispatching }
  lease := some ⟨env.workerId, env.now + max 5 leaseSeconds * second⟩
  attemptCount := data.attemptCount + 1

def leasedRow (env : TaskEnv) (row : Row Uuid CommandState CommandData) :
    Row Uuid CommandState CommandData :=
  Table.revised row (leasedData env row.data) .dispatching env.now

/-- The write of `lease_command`. -/
def Database.leaseRow (db : Database) (env : TaskEnv) (row : Row Uuid CommandState CommandData) :
    Database :=
  db.updateCommand row (leasedData env row.data) .dispatching "execution.command.leased" env.now

/-- `lease_command`. -/
def leaseCommand (env : TaskEnv) (ownerId commandId : Uuid) :
    Session (Option (Row Uuid CommandState CommandData)) := do
  let db ← Tx.get
  match Table.get? db.commands commandId ownerId with
  | none => return none
  | some row =>
    if row.state ∈ leasableStates then
      env.pass .lease
      Tx.modify fun db => db.leaseRow env row
      return some (leasedRow env row)
    else return none

/-- `_lease`: was the command leased? -/
def leaseTask (env : TaskEnv) (ownerId commandId : Uuid) : Session Bool :=
  Tx.unitOfWork do
    let record ← leaseCommand env ownerId commandId
    env.pass .commit
    return record.isSome

/-! ## Dispatching -/

inductive DispatchResult
  | replayed (state : CommandState)
  | notLeased (state : CommandState)
  | dispatched (state : CommandState)
  deriving DecidableEq, Repr

/-- The states in which a dispatch returns at once. -/
def replayedStates : List CommandState := [.acknowledged, .applied, .rejected, .blockedAmbiguous]

/-- The plan and the authorization of a command that may be sent. -/
def dispatchPlan (now : Time) (db : Database) (ownerId : Uuid) (command : ExecutionCommand) :
    Except TaskError (Row Uuid TradePlanState TradePlan × ExecutionAuthorization) := do
  let planId ← orError command.tradePlanId (.runtimeError "execution command has no Trade Plan")
  let plan ← orError (Table.get? db.tradePlans planId ownerId)
    (.runtimeError "execution command Trade Plan not found")
  let authorization ← orError plan.data.authorization
    (.runtimeError "execution authorization is unavailable")
  let _ ← currentBrokerSnapshot now db ownerId command.accountId
  currentAuthority now db ownerId command authorization plan.data
  return (plan, authorization)

/-- A leased command with what its dispatch needs. -/
structure Ready where
  row : Row Uuid CommandState CommandData
  plan : Row Uuid TradePlanState TradePlan
  authorization : ExecutionAuthorization

/-- `_dispatch` from the lease to the adapter call. -/
def leaseReady (env : TaskEnv) (ownerId commandId : Uuid) (state : CommandState)
    (plan : Row Uuid TradePlanState TradePlan) (authorization : ExecutionAuthorization) :
    Session (DispatchResult ⊕ Ready) := do
  match ← leaseCommand env ownerId commandId with
  | none => return .inl (.notLeased state)
  | some leased =>
    let db ← Tx.get
    let _ ← Tx.lift (bridgeConnection db ownerId)
    return .inr ⟨leased, plan, authorization⟩

/-- `_dispatch` up to the adapter call. -/
def prepareDispatch (env : TaskEnv) (ownerId commandId : Uuid) :
    Session (DispatchResult ⊕ Ready) := do
  let db ← Tx.get
  let row ← Tx.orRaise (Table.get? db.commands commandId ownerId)
    (.runtimeError "execution command not found")
  if row.state ∈ replayedStates then return .inl (.replayed row.state)
  else
    let found ← Tx.lift (dispatchPlan env.now db ownerId row.data.command)
    leaseReady env ownerId commandId row.state found.1 found.2

/-- The transition of the plan's reservation for an outcome: its target and its values. -/
def reservationMove (outcome : ExecutionCommand) : Option (ReservationState × TransitionFields) :=
  match outcome.state with
  | .rejected => some (.released, { reason := some "broker rejected command" })
  | .acknowledged => some (.orderWorking, { brokerOrderId := outcome.brokerOrderId })
  | _ => none

def settleReservation (env : TaskEnv) (ownerId : Uuid) (plan : TradePlan)
    (outcome : ExecutionCommand) : Session Unit :=
  match plan.reservationId, reservationMove outcome with
  | some reservationId, some (target, fields) => do
    env.pass .reservation
    let _ ← transitionReservation env.now reservationId ownerId target fields
  | _, _ => return ()

def Database.executePlan (db : Database) (env : TaskEnv) (plan : Row Uuid TradePlanState TradePlan) :
    Database :=
  db.updatePlan plan { plan.data with state := .executing, version := plan.data.version + 1 }
    "trade_plan.executing" env.now

/-- A pending plan is executing once its command is acknowledged. -/
def settlePlan (env : TaskEnv) (plan : Row Uuid TradePlanState TradePlan)
    (outcome : ExecutionCommand) : Session Unit :=
  if outcome.state = .acknowledged ∧ plan.data.state = .executionPending then do
    env.pass .plan
    Tx.modify fun db => db.executePlan env plan
  else return ()

/-- The write of the outcome; the data is the command's and the lease. -/
def Database.recordOutcome (db : Database) (env : TaskEnv) (row : Row Uuid CommandState CommandData)
    (outcome : ExecutionCommand) : Database :=
  db.updateCommand row { command := outcome, lease := row.data.lease } outcome.state
    ("execution.command." ++ outcome.state.value.toLower) env.now

/-- `_dispatch` after the adapter call. -/
def settleDispatch (env : TaskEnv) (ownerId : Uuid) (ready : Ready) (outcome : ExecutionCommand) :
    Session DispatchResult := do
  env.pass .close
  env.pass .persist
  Tx.modify fun db => db.recordOutcome env ready.row outcome
  settleReservation env ownerId ready.plan.data outcome
  settlePlan env ready.plan outcome
  env.pass .commit
  return .dispatched outcome.state

/-- `_dispatch` from the adapter call on. -/
def sendReady (env : TaskEnv) (answer : AdapterAnswer) (ownerId : Uuid) :
    DispatchResult ⊕ Ready → Session DispatchResult
  | .inl result => return result
  | .inr ready => do
    let outcome ← dispatch answer ready.row.data.command ready.authorization
    settleDispatch env ownerId ready outcome

/-- `_dispatch`. -/
def dispatchTask (env : TaskEnv) (answer : AdapterAnswer) (ownerId commandId : Uuid) :
    Session DispatchResult :=
  Tx.unitOfWork (prepareDispatch env ownerId commandId >>= sendReady env answer ownerId)

end Matrades

import Matrades.Trading.Candidates
import Matrades.Worker.Execution

/-!
# Queueing commands

`authorize_and_queue_entry` and `authorize_and_queue_management` of `modules/trading/coordinator.py`,
with `build_trade_ticket`, `authorize_action`, `create_action_command` and `transition_trade_plan`; the
task `_queue_plan` and the route `queue_management_action`, one transaction each. An entry is evaluated
again, reserved, authorized and stored; a management command is authorized and stored. The plan keeps
its last authorization only.
-/

namespace Matrades

open Base

/-- What a queueing takes from outside: the clock, the new ids, the digest of its authorization, and
the answer of `load_live_trade_terms` (`none` where it raises). -/
structure QueueEnv extends Env where
  authorizationId : Uuid
  commandId : Uuid
  authorizationDigest : String
  loaded : Option LiveTradeTerms

/-! ## The ticket -/

def TradeConstruction.targets (construction : TradeConstruction) : List ℚ :=
  construction.target :: construction.laterTargets

/-- Is the price on the losing side of the entry? -/
def TradeConstruction.losesAt (construction : TradeConstruction) (price : ℚ) : Bool :=
  match construction.direction with
  | .buy => price < construction.entry
  | .sell => construction.entry < price

/-- Is the price on the profitable side of the entry? -/
def TradeConstruction.winsAt (construction : TradeConstruction) (price : ℚ) : Bool :=
  match construction.direction with
  | .buy => construction.entry < price
  | .sell => price < construction.entry

/-- The scenario of one price: the loss or profit per unit there. -/
def priceScenario (terms : LiveTradeTerms) (construction : TradeConstruction) (price : ℚ) :
    Except TaskError ℚ :=
  (typeAwareLossPerUnit construction.instrumentType construction.entry price
    terms.contractMultiplier (some terms.tickSize) terms.tickValue).mapError RiskError.raised

/-- The scenario of a target, whose price is positive. -/
def targetScenario (terms : LiveTradeTerms) (construction : TradeConstruction) (price : ℚ) :
    Except TaskError ℚ := do
  let profit ← priceScenario terms construction price
  let _ ← positive (notPositive "price") price
  return profit

/-- `build_trade_ticket`, without its texts and amounts. -/
def buildTradeTicket (terms : LiveTradeTerms) (construction : TradeConstruction)
    (fractions : List (Option ℚ)) (riskLimit : ℚ) (risk : RiskResult) :
    Except TaskError TradeTicket :=
  if risk.decision = .hardBlock ∨ risk.approvedSize ≤ 0 then
    .error (.valueError "blocked trade cannot have an executable ticket")
  else do
    terms.validateSize risk.approvedSize
    if construction.losesAt construction.stopLoss = false then
      .error (.valueError "stop loss must be on the loss side of the entry")
    else if construction.targets.length ≠ fractions.length then
      .error (.valueError "strategy targets and allocation references are incomplete")
    else if construction.targets.all construction.winsAt = false then
      .error (.valueError "take-profit price must be on the profitable side of entry")
    else if ∃ fraction ∈ fractions.reduceOption, fraction ≤ 0 ∨ 1 < fraction then
      .error (.valueError "research target fractions must be within (0, 1]")
    else do
      let _ ← priceScenario terms construction construction.stopLoss
      let _ ← construction.targets.mapM (targetScenario terms construction)
      let _ ← positive (notPositive "requested_risk_limit") riskLimit
      return ⟨terms.accountCurrency, fractions⟩

/-! ## Authorizing -/

/-- The plan states in which the action may be authorized. -/
def eligiblePlanStates : ExecutionAction → List TradePlanState
  | .placeOrder => [.ready, .authorized]
  | _ => [.active, .authorized, .executionPending]

/-- An authorization lives for sixty seconds. -/
def authorizationTtl : Time := 60 * second

/-- The authorization of the action under the current permissions and kill switches. -/
def newAuthorization (env : QueueEnv) (plan : TradePlan) (action : ExecutionAction)
    (permissions : ExecutionPermissionProfile) (platformKill accountKill : KillSwitchState) :
    ExecutionAuthorization where
  id := env.authorizationId
  accountId := plan.accountId
  action := action
  permissionVersion := permissions.version
  platformSafetyEpoch := platformKill.safetyEpoch
  accountSafetyEpoch := accountKill.safetyEpoch
  authorizationDigest := env.authorizationDigest
  expiresAt := env.now + authorizationTtl

/-- The plan with an authorization of the action. -/
def TradePlan.authorize (plan : TradePlan) (authorization : ExecutionAuthorization) : TradePlan :=
  { plan with
    authorization := some authorization
    state := if authorization.action = .placeOrder then .authorized else plan.state }

/-- `authorize_action`. -/
def authorizeAction (env : QueueEnv) (plan : TradePlan) (action : ExecutionAction)
    (permissions : ExecutionPermissionProfile) (platformKill accountKill : KillSwitchState) :
    Except TaskError ExecutionAuthorization :=
  if plan.state ∉ eligiblePlanStates action then
    .error (.valueError "trade plan is not eligible for the requested action")
  else if action = .placeOrder ∧ plan.expiresAt ≤ env.now then
    .error (.valueError "trade plan has expired")
  else if plan.risk.decision = .hardBlock then
    .error (.valueError "hard-blocked trade plans cannot be authorized")
  else if permissions.allows action = false then
    .error (.permissionError (action.value ++ " permission is disabled"))
  else if platformKill.active = true ∨ accountKill.active = true then
    .error (.permissionError "platform or account kill switch is active")
  else .ok (newAuthorization env plan action permissions platformKill accountKill)

/-- The authorization of the action as the database is. -/
def currentAuthorization (env : QueueEnv) (db : Database) (ownerId : Uuid) (plan : TradePlan)
    (action : ExecutionAction) : Except TaskError ExecutionAuthorization :=
  let kills := currentKillSwitches db ownerId plan.accountId
  authorizeAction env plan action (currentPermissions db ownerId plan.accountId) kills.1 kills.2

/-- What a management command is asked to do. -/
structure ManagementRequest where
  action : ExecutionAction
  postcondition : Dict String Json
  idempotencyKey : String
  managementActionId : Uuid
  targetOrderId : Option String := none
  targetPositionId : Option String := none
  expectedBrokerVersion : Option String := none

/-- `create_action_command`; the id is new. -/
def createActionCommand (now : Time) (id : Uuid) (plan : TradePlan)
    (authorization : ExecutionAuthorization) (request : ManagementRequest) :
    Except TaskError ExecutionCommand :=
  if authorization.accountId ≠ plan.accountId then
    .error (.valueError "authorization account does not match trade plan")
  else if authorization.expiresAt ≤ now then
    .error (.valueError "execution authorization has expired")
  else if request.idempotencyKey.length < 8 then
    .error (.valueError "idempotency_key: String should have at least 8 characters")
  else .ok {
    id
    accountId := plan.accountId
    action := authorization.action
    tradePlanId := some plan.id
    managementActionId := some request.managementActionId
    authorizationId := some authorization.id
    idempotencyKey := request.idempotencyKey
    requestedPostcondition := request.postcondition
    expectedBrokerVersion := request.expectedBrokerVersion
    targetOrderId := request.targetOrderId
    targetPositionId := request.targetPositionId }

/-- A created command, authorized and queued. -/
def queuedCommand (command : ExecutionCommand) : Except TaskError ExecutionCommand := do
  let command ← transition command .authorized
  transition command .queued

/-! ## The plan's lifecycle -/

def TradePlanState.value : TradePlanState → String
  | constructed => "CONSTRUCTED"
  | validating => "VALIDATING"
  | blocked => "BLOCKED"
  | ready => "READY"
  | authorized => "AUTHORIZED"
  | executionPending => "EXECUTION_PENDING"
  | executing => "EXECUTING"
  | active => "ACTIVE"
  | expired => "EXPIRED"
  | cancelled => "CANCELLED"
  | revalidationRequired => "REVALIDATION_REQUIRED"

/-- `_PLAN_TRANSITIONS`. -/
def TradePlanState.targets : TradePlanState → List TradePlanState
  | constructed => [validating, blocked]
  | validating => [ready, blocked]
  | ready => [authorized, expired, blocked]
  | authorized => [executionPending, revalidationRequired]
  | executionPending => [executing, revalidationRequired]
  | executing => [active, revalidationRequired]
  | active => [expired, cancelled]
  | _ => []

def transitionTradePlan (plan : TradePlan) (target : TradePlanState) : Except TaskError TradePlan :=
  if target = plan.state then .ok plan
  else if target ∈ plan.state.targets then
    .ok { plan with state := target, version := plan.version + 1 }
  else .error (.valueError
    ("cannot transition Trade Plan " ++ plan.state.value ++ " to " ++ target.value))

/-! ## Storing a plan -/

/-- The row of a new plan. -/
def planRow (env : Env) (plan : TradePlan) : Row Uuid TradePlanState TradePlan :=
  ⟨plan.id, plan.ownerId, plan.state, 1, plan, env.now⟩

def Database.addPlan (db : Database) (env : Env) (plan : TradePlan) : Database :=
  { db with tradePlans := db.tradePlans ++ [planRow env plan] }.audit plan.ownerId
    (if plan.state = TradePlanState.blocked then "trade_plan.blocked" else "trade_plan.created")
    plan.id

/-- `persist_trade_plan`. -/
def persistTradePlan (env : Env) (plan : TradePlan) : Session (Row Uuid TradePlanState TradePlan) := do
  let db ← Tx.get
  match Table.get? db.tradePlans plan.id plan.ownerId with
  | some row => return row
  | none =>
    Tx.require (∀ row ∈ db.tradePlans, row.id ≠ plan.id) .infrastructure
    Tx.modify fun db => db.addPlan env plan
    return planRow env plan

/-- Is a new entry of the plan stopped at once? -/
def TradePlan.stopped (plan : TradePlan) : Prop :=
  plan.state = .blocked ∨ plan.risk.decision = .hardBlock

instance (plan : TradePlan) : Decidable plan.stopped :=
  inferInstanceAs (Decidable (plan.state = .blocked ∨ plan.risk.decision = .hardBlock))

/-- The record that `persist_command` returns: the one with the command's id, else with its key. -/
def persistedRecord (db : Database) (ownerId : Uuid) (command : ExecutionCommand) :
    Option (Row Uuid CommandState CommandData) :=
  (Table.get? db.commands command.id ownerId).or
    ((listedCommands db ownerId).find? fun item =>
      item.data.command.idempotencyKey = command.idempotencyKey)

/-- `persist_command` with the record it returns. -/
def persistedCommand (env : Env) (ownerId : Uuid) (command : ExecutionCommand) :
    Session (Option (Row Uuid CommandState CommandData)) := do
  persistCommand env ownerId command
  let db ← Tx.get
  return persistedRecord db ownerId command

/-! ## Queueing an entry -/

/-- What the reads of an entry lead to. -/
inductive EntryDecision
  /-- The plan was blocked before. -/
  | stopped
  | block (plan : TradePlan)
  | queue (plan : TradePlan)

/-- A construction with the approved size; an evaluation that does not block approves one. -/
def TradeConstruction.resize (construction : TradeConstruction) (size : ℚ) : TradeConstruction :=
  if h : 0 < size then { construction with approvedSize := size, approvedSize_pos := h }
  else construction

/-- The plan with the result of its evaluation. -/
def TradePlan.sized (plan : TradePlan) (risk : RiskResult) : TradePlan :=
  { plan with risk, construction := plan.construction.resize risk.approvedSize }

/-- The limit of a ticket. -/
def ticketLimit (context : RiskContext) : ℚ :=
  ((strictestApplicable context.constraints .maxRiskPerTrade).map (·.value)).getD 0

/-- The evaluated plan with a new ticket, if it had one. -/
def ticketedPlan (plan : TradePlan) (approval : Approval) (terms : Option LiveTradeTerms) :
    Except TaskError TradePlan :=
  let sized := plan.sized approval.result
  match terms, plan.ticket with
  | some terms, some ticket => do
    let ticket ← buildTradeTicket terms sized.construction ticket.researchFractions
      (ticketLimit approval.context) approval.result
    return { sized with ticket := some ticket }
  | _, _ => .ok sized

/-- The decision for a plan with the live terms of its ticket, if it has one. -/
def evaluateEntry (env : QueueEnv) (db : Database) (plan : TradePlan)
    (terms : Option LiveTradeTerms) : Except TaskError EntryDecision := do
  let approval ← evaluatedPlan env.now db plan terms
  if approval.result.decision = .hardBlock then return .block { plan with risk := approval.result }
  else
    match ticketedPlan plan approval terms with
    | .error _ => return .block (plan.sized approval.result)
    | .ok plan => return .queue plan

/-- `authorize_and_queue_entry` up to its first write. -/
def decideEntry (env : QueueEnv) (db : Database) (plan : TradePlan) :
    Except TaskError EntryDecision :=
  if plan.stopped then .ok .stopped
  else do
    let _ ← currentBrokerSnapshot env.now db plan.ownerId plan.accountId
    match plan.ticket with
    | none => evaluateEntry env db plan none
    | some ticket =>
      match env.loaded.filter (termsFit plan ticket) with
      | none => return .block plan
      | some terms => evaluateEntry env db plan (some terms)

/-- The command of an entry that is authorized. -/
def authorizedEntryCommand (env : QueueEnv) (plan : TradePlan)
    (authorization : ExecutionAuthorization) (idempotencyKey : String) :
    Except TaskError ExecutionCommand := do
  let command ← createCommand env.now env.commandId (plan.authorize authorization) authorization
    idempotencyKey
  queuedCommand command

/-- The plan of an entry that is authorized, with its command. -/
def authorizedEntryPlan (plan : TradePlan) (authorization : ExecutionAuthorization)
    (commandId : Uuid) : Except TaskError TradePlan := do
  let plan ← transitionTradePlan (plan.authorize authorization) .executionPending
  return { plan with executionCommandId := some commandId }

/-- The records that `authorize_and_queue_entry` returns. -/
abbrev EntryRecords : Type :=
  Row Uuid TradePlanState TradePlan × Option (Row Uuid CommandState CommandData)

def TradePlan.blocked (plan : TradePlan) : TradePlan := { plan with state := .blocked }

def blockPlan (env : QueueEnv) (row : Row Uuid TradePlanState TradePlan) (plan : TradePlan) :
    Session EntryRecords := do
  Tx.modify fun db => db.updatePlan row plan.blocked "trade_plan.blocked" env.now
  return (Table.revised row plan.blocked .blocked env.now, none)

/-- The plan with its reservation. -/
def TradePlan.reserved (plan : TradePlan) (reservation : Reservation) : TradePlan :=
  { plan with reservationId := some reservation.id }

/-- A reserved entry: authorize it, and store its plan and its command. -/
def queueReserved (env : QueueEnv) (row : Row Uuid TradePlanState TradePlan) (plan : TradePlan)
    (reservationId : Uuid) (idempotencyKey : String) : Session EntryRecords := do
  let db ← Tx.get
  let authorization ← Tx.lift (currentAuthorization env db plan.ownerId plan .placeOrder)
  let command ← Tx.lift (authorizedEntryCommand env plan authorization idempotencyKey)
  let _ ← transitionReservation env.now reservationId plan.ownerId .commandPending
    { commandId := some command.id }
  let queued ← Tx.lift (authorizedEntryPlan plan authorization command.id)
  Tx.modify fun db => db.updatePlan row queued "trade_plan.execution_queued" env.now
  let record ← persistedCommand env.toEnv plan.ownerId command
  return (Table.revised row queued queued.state env.now, record)

/-- An evaluated entry: reserve, authorize and store. -/
def queueEntry (env : QueueEnv) (row : Row Uuid TradePlanState TradePlan) (plan : TradePlan)
    (idempotencyKey : String) : Session EntryRecords := do
  let reservation ← reserve env.toEnv plan.ownerId plan.accountId plan.id
    plan.risk.snapshot.candidateTradeRisk plan.risk.snapshot.remainingPortfolioRiskCapacity
  queueReserved env row (plan.reserved reservation) reservation.id idempotencyKey

/-- `authorize_and_queue_entry` from its first write on. -/
def performEntry (env : QueueEnv) (row : Row Uuid TradePlanState TradePlan)
    (idempotencyKey : String) : EntryDecision → Session EntryRecords
  | .stopped => return (row, none)
  | .block plan => blockPlan env row plan
  | .queue plan => queueEntry env row plan idempotencyKey

/-- `f"entry:{plan.id}"`. -/
def entryKey (planId : Uuid) : String := "entry:" ++ planId.str

/-- `authorize_and_queue_entry`. -/
def authorizeAndQueueEntry (env : QueueEnv) (plan : TradePlan) (idempotencyKey : Option String) :
    Session EntryRecords := do
  let row ← persistTradePlan env.toEnv plan
  let db ← Tx.get
  let decision ← Tx.lift (decideEntry env db plan)
  performEntry env row ((idempotencyKey.filter (· ≠ "")).getD (entryKey plan.id)) decision

structure QueueResult where
  tradePlanId : Uuid
  state : TradePlanState
  commandId : Option Uuid
  deriving DecidableEq

/-- `_queue_plan`. -/
def queuePlan (env : QueueEnv) (ownerId planId : Uuid) : Session QueueResult :=
  Tx.unitOfWork do
    let db ← Tx.get
    let record ← Tx.orRaise (Table.get? db.tradePlans planId ownerId)
      (.runtimeError "trade plan not found")
    let queued ← authorizeAndQueueEntry env record.data none
    return ⟨queued.1.id, queued.1.state, queued.2.map (·.id)⟩

/-! ## Queueing a management command -/

/-- The plan with a management authorization. -/
def TradePlan.manage (plan : TradePlan) (authorization : ExecutionAuthorization) : TradePlan :=
  { plan.authorize authorization with version := plan.version + 1 }

/-- `authorize_and_queue_management`. -/
def authorizeAndQueueManagement (env : QueueEnv) (ownerId : Uuid) (plan : TradePlan)
    (request : ManagementRequest) : Session (Option (Row Uuid CommandState CommandData)) := do
  let db ← Tx.get
  let _ ← Tx.lift (currentBrokerSnapshot env.now db ownerId plan.accountId)
  let authorization ← Tx.lift (currentAuthorization env db ownerId plan request.action)
  let row ← Tx.orRaise (Table.get? db.tradePlans plan.id ownerId)
    (.lookupError "management action Trade Plan is not persisted")
  Tx.modify fun db =>
    db.updatePlan row (plan.manage authorization) "trade_plan.management_authorized" env.now
  let command ← Tx.lift
    (createActionCommand env.now env.commandId (plan.manage authorization) authorization request)
  let command ← Tx.lift (queuedCommand command)
  persistedCommand env.toEnv ownerId command

/-- A route that manages a stored plan: `queue_management_action`, and `create_recommendation` for an
active trade. -/
def manageTask (env : QueueEnv) (ownerId planId : Uuid) (request : ManagementRequest) :
    Session (Option (Row Uuid CommandState CommandData)) :=
  Tx.unitOfWork do
    Tx.require (request.action ≠ .placeOrder) (.httpError 422 "entry uses Trade Plans")
    let db ← Tx.get
    let record ← Tx.orRaise (Table.get? db.tradePlans planId ownerId)
      (.httpError 404 "Trade Plan not found")
    authorizeAndQueueManagement env ownerId record.data request

end Matrades

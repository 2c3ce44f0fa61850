import Matrades.Base.Result
import Matrades.Risk.Reservations
import Matrades.Trading.Authority
import Matrades.Trading.Reconciliation

/-!
# Ingesting a broker snapshot

`ingest_broker_snapshot` of `apps/api/app/routes/trade_management.py`, one transaction. A snapshot
that is new and in order is stored; then every pending command of its account is reconciled with it,
the last updated first. A match updates the command, the broker's orders and fills, the active trade,
the plan and its reservation.
-/

namespace Matrades

open Base

/-! ## Typed facts -/

def typedPosition (sequence : Int) (item : BrokerPosition) : Except TaskError TypedPosition :=
  if item.entryPrice ≤ 0 then
    .error (.valueError "average_price: Input should be greater than 0")
  else if sequence < 1 then
    .error (.valueError "version: Input should be greater than or equal to 1")
  else .ok {
    accountId := item.accountId
    brokerPositionId := item.positionId
    instrument := item.symbol
    direction := some item.direction
    quantity := item.volume
    averagePrice := item.entryPrice
    version := sequence.toNat
    observedAt := item.observedAt
    venueInstrumentId := item.venueInstrumentId
    specificationVersionId := item.specificationVersionId }

def typedOrder (command : ExecutionCommand) (item : BrokerOrder) : Except TaskError TypedOrder :=
  if item.requestedVolume ≤ 0 then
    .error (.valueError "quantity: Input should be greater than 0")
  else .ok {
    accountId := item.accountId
    commandId := command.id
    brokerOrderId := item.orderId
    instrument := item.symbol
    direction := some item.direction
    state := item.state
    quantity := item.requestedVolume
    filledQuantity := item.filledVolume
    version := item.version
    observedAt := item.observedAt
    instrumentType := item.instrumentType
    venueInstrumentId := item.venueInstrumentId
    futuresContractId := item.futuresContractId
    specificationVersionId := item.specificationVersionId
    quantityUnit := item.quantityUnit }

def typedFill (item : BrokerFill) : TypedFill where
  accountId := item.accountId
  brokerOrderId := item.orderId
  brokerFillId := item.fillId
  quantity := item.quantity
  price := item.price
  revision := item.revision
  observedAt := item.observedAt

/-- The orders of the snapshot that belong to the command. -/
def relevantOrders (command : ExecutionCommand) (snapshot : BrokerSnapshot) : List BrokerOrder :=
  snapshot.orders.filter fun item =>
    item.commandId = some command.id || command.brokerOrderId = some item.orderId

/-- `validate_executable_reference` of the fields of a record. -/
def validateExecutableReference (instrumentType : Option InstrumentType)
    (venueInstrumentId specificationVersionId futuresContractId : Option Uuid)
    (quantityUnit : Option QuantityUnit) : Except TaskError Unit :=
  if instrumentType = none then .ok ()
  else if venueInstrumentId = none ∨ specificationVersionId = none ∨ quantityUnit = none then
    .error (.valueError "typed executable reference missing")
  else if instrumentType = some .futures ∧ futuresContractId = none then
    .error (.valueError "futures executable reference requires a dated futures contract")
  else .ok ()

/-! ## Writes -/

namespace Database

def addSnapshot (db : Database) (env : Env) (ownerId : Uuid) (snapshot : BrokerSnapshot) : Database :=
  let row := newRow env db.brokerSnapshots ownerId .active snapshot
  { db with brokerSnapshots := db.brokerSnapshots ++ [row] }.audit ownerId "broker.account_changed"
    row.id

/-- The event of a reconciliation. -/
def reconciliationEvent : ReconciliationState → String
  | .matched => "reconciliation.confirmed"
  | .ambiguous => "reconciliation.ambiguous"
  | _ => "reconciliation.no_effect_confirmed"

def addReconciliation (db : Database) (env : Env) (ownerId : Uuid) (result : ReconciliationRecord) :
    Database :=
  let row := newRow env db.reconciliations ownerId result.state result
  { db with reconciliations := db.reconciliations ++ [row] }.audit ownerId
    (reconciliationEvent result.state) row.id

def addOrder (db : Database) (env : Env) (ownerId : Uuid) (order : TypedOrder) : Database :=
  let row := newRow env db.brokerOrders ownerId order.state order
  { db with brokerOrders := db.brokerOrders ++ [row] }.audit ownerId "broker.order_reconciled" row.id

def addFill (db : Database) (env : Env) (ownerId : Uuid) (fill : TypedFill) : Database :=
  let row := newRow env db.brokerFills ownerId .active fill
  { db with brokerFills := db.brokerFills ++ [row] }.audit ownerId "broker.fill_reconciled" row.id

def addActiveTrade (db : Database) (env : Env) (ownerId : Uuid) (active : ActiveTrade) : Database :=
  let row := newRow env db.activeTrades ownerId .active active
  { db with activeTrades := db.activeTrades ++ [row] }.audit ownerId "trade.position_activated" row.id

def reviseActiveTrade (db : Database) (now : Time) (row : Row Uuid ResourceState ActiveTrade)
    (active : ActiveTrade) : Database :=
  { db with activeTrades := Table.revise db.activeTrades row.id active .active now }.audit row.ownerId
    "trade.position_revised" row.id

/-- The active trade of a position, new or revised. -/
def putActiveTrade (db : Database) (env : Env) (ownerId : Uuid) (active : ActiveTrade) :
    Option (Row Uuid ResourceState ActiveTrade) → Database
  | none => db.addActiveTrade env ownerId active
  | some row => db.reviseActiveTrade env.now row active

def addNotification (db : Database) (event : ConfirmedEvent) : Database :=
  if event ∈ db.notifications then db
  else { db with notifications := db.notifications ++ [event] }

end Database

/-- Set a command's state and certainty: the write of an ingestion. -/
def settleCommand (env : Env) (row : Row Uuid CommandState CommandData) (command : ExecutionCommand)
    (eventType : String) : Session Unit :=
  Tx.modify fun db => db.updateCommand row { command } command.state eventType env.now

/-! ## A match -/

/-- The only order of a match. -/
def matchedOrder : List TypedOrder → Option TypedOrder
  | [order] => some order
  | _ => none

def recordOrders (env : Env) (ownerId : Uuid) : List TypedOrder → Session Unit
  | [] => return ()
  | order :: orders => do
    let db ← Tx.get
    let existing := (Table.listed db.brokerOrders ownerId fun state => state ≠ "DELETED").any fun r =>
      r.data.brokerOrderId = order.brokerOrderId && r.data.version = order.version
    if existing then recordOrders env ownerId orders
    else
      Tx.lift (validateExecutableReference order.instrumentType order.venueInstrumentId
        order.specificationVersionId order.futuresContractId order.quantityUnit)
      Tx.modify fun db => db.addOrder env ownerId order
      recordOrders env ownerId orders

def recordFills (env : Env) (ownerId : Uuid) : List TypedFill → Session Unit
  | [] => return ()
  | fill :: fills => do
    let db ← Tx.get
    let existing := (Table.listed db.brokerFills ownerId ResourceState.kept).any fun r =>
      r.data.brokerFillId = fill.brokerFillId && r.data.revision = fill.revision
    if existing then recordFills env ownerId fills
    else
      Tx.modify fun db => db.addFill env ownerId fill
      recordFills env ownerId fills

/-- The quantity the command asks for; none is 0. -/
def commandQuantity (command : ExecutionCommand) : Except TaskError Dec :=
  match command.requestedPostcondition.get? "quantity" with
  | none => .ok (.fin 0)
  | some value => orError value.decimal? (.valueError "decimal.ConversionSyntax")

def filledQuantity (order : Option TypedOrder) (position : Option BrokerPosition) : ℚ :=
  match order, position with
  | some order, _ => order.filledQuantity
  | none, some position => |position.volume|
  | none, none => 0

/-- An order comparison; one with NaN raises. -/
def below (a b : Dec) : Except TaskError Bool :=
  orError (Dec.lt a b) (.valueError "decimal.InvalidOperation")

/-- The state of a command that matched with the filled quantity. -/
def matchedState (filled : ℚ) (requested : Dec) : Except TaskError CommandState :=
  if filled ≤ 0 then .ok .acknowledged
  else do
    let short ← below (.fin filled) requested
    return if short then .partiallyApplied else .applied

/-- `a * filled / requested`. -/
def filledShare (a filled : ℚ) : Dec → ℚ
  | .fin requested => a * filled / requested
  | _ => 0

/-- Is the entry filled in part? -/
def partlyFilled (filled : ℚ) (requested : Dec) : Except TaskError Bool := do
  let positive ← below (.fin 0) requested
  if positive then below (.fin filled) requested else return false

/-- The plan's reservation after its position was found. -/
def settleEntryReservation (env : Env) (ownerId reservationId : Uuid) (plan : TradePlan)
    (positionId : String) (filled : ℚ) (requested : Dec) : Session Unit := do
  let reservedRisk := plan.risk.snapshot.candidateTradeRisk
  if ← Tx.lift (partlyFilled filled requested) then
    let filledRisk := filledShare reservedRisk filled requested
    let _ ← splitPartialFill env reservationId ownerId filledRisk positionId (reservedRisk - filledRisk)
  else
    let _ ← transitionReservation env.now reservationId ownerId .openPosition
      { brokerPositionId := some positionId }

/-- The active trade of a matched entry. Its record pins no listing and no specification of its own,
so a typed construction does not pass the reference check. -/
def activateTrade (env : Env) (ownerId : Uuid) (command : ExecutionCommand) (plan : TradePlan)
    (position : BrokerPosition) : Session Unit := do
  let construction := plan.construction
  Tx.lift (validateExecutableReference (some construction.instrumentType) none none none
    (some construction.quantityUnit))
  let db ← Tx.get
  let active : ActiveTrade := ⟨ownerId, some plan.id, some command.id, position⟩
  let known := (Table.listed db.activeTrades ownerId ResourceState.kept).find? fun r =>
    r.data.brokerPosition.positionId = position.positionId
  Tx.modify fun db => db.putActiveTrade env ownerId active known

/-- An executing plan is active once its position is found. -/
def activatePlan (env : Env) (row : Row Uuid TradePlanState TradePlan) : Session Unit :=
  if row.data.state = .executing then
    Tx.modify fun db => db.updatePlan row
      { row.data with state := .active, version := row.data.version + 1 } "trade_plan.active" env.now
  else return ()

/-- What an entry's position adds to a match. -/
def settleEntry (env : Env) (ownerId : Uuid) (command : ExecutionCommand)
    (plan : Row Uuid TradePlanState TradePlan) (position : BrokerPosition) (filled : ℚ)
    (requested : Dec) : Session Unit := do
  activateTrade env ownerId command plan.data position
  activatePlan env plan
  match plan.data.reservationId with
  | none => return ()
  | some reservationId =>
    settleEntryReservation env ownerId reservationId plan.data position.positionId filled requested

/-- The kind of a confirmed broker event. -/
def confirmedKind : CommandState → String
  | .applied => "trade_entry_complete"
  | .partiallyApplied => "trade_entry_partial"
  | _ => "order_accepted"

/-- The event of a matched order. -/
def confirmedEvent (ownerId : Uuid) (command : ExecutionCommand) (order : TypedOrder)
    (fills : List TypedFill) : ConfirmedEvent where
  ownerId := ownerId
  commandId := command.id
  eventKind := confirmedKind command.state
  revision := (fills.map (·.revision)).foldl max order.version

/-- A matched command in its new state. -/
def matchedCommand (command : ExecutionCommand) (state : CommandState) (order : Option TypedOrder) :
    ExecutionCommand :=
  { command with
    state
    outcomeCertainty := .confirmed
    brokerOrderId := match order with
      | some order => some order.brokerOrderId
      | none => command.brokerOrderId
    version := command.version + 1 }

/-- The fills of the matched order. -/
def matchedFills (snapshot : BrokerSnapshot) (order : Option TypedOrder) : List TypedFill :=
  (snapshot.fills.filter fun item => order.any fun o => item.orderId = o.brokerOrderId).map typedFill

/-- The position a reconciliation names. -/
def matchedPosition (snapshot : BrokerSnapshot) (result : ReconciliationRecord) :
    Option BrokerPosition :=
  snapshot.positions.find? fun item => result.brokerPositionId = some item.positionId

/-- The part of a match that only an entry with a position has. -/
def settlePosition (env : Env) (ownerId : Uuid) (command : ExecutionCommand)
    (plan : Row Uuid TradePlanState TradePlan) (position : Option BrokerPosition) (filled : ℚ)
    (requested : Dec) : Session Unit :=
  match command.action, position with
  | .placeOrder, some position => settleEntry env ownerId command plan position filled requested
  | _, _ => return ()

/-- The notification of a matched order. -/
def notifyOrder (ownerId : Uuid) (command : ExecutionCommand) (order : Option TypedOrder)
    (fills : List TypedFill) : Session Unit :=
  match order with
  | none => return ()
  | some order => Tx.modify fun db => db.addNotification (confirmedEvent ownerId command order fills)

/-- The loop's body for a match, once the plan is found. -/
def applyMatch (env : Env) (ownerId : Uuid) (snapshot : BrokerSnapshot)
    (row : Row Uuid CommandState CommandData) (plan : Row Uuid TradePlanState TradePlan)
    (orders : List TypedOrder) (result : ReconciliationRecord) : Session Unit := do
  let order := matchedOrder orders
  let position := matchedPosition snapshot result
  let fills := matchedFills snapshot order
  recordOrders env ownerId orders
  recordFills env ownerId fills
  let requested ← Tx.lift (commandQuantity row.data.command)
  let filled := filledQuantity order position
  let state ← Tx.lift (matchedState filled requested)
  let command := matchedCommand row.data.command state order
  settleCommand env row command ("execution.command." ++ state.value.toLower)
  settlePosition env ownerId command plan position filled requested
  notifyOrder ownerId command order fills

/-! ## The route -/

/-- The states of a command whose outcome a snapshot may settle. -/
def pendingStates : List CommandState :=
  [.dispatching, .acknowledged, .partiallyApplied, .outcomeUnknown, .reconciling]

/-- A command that a reconciliation leaves in this state and certainty. -/
def concluded (command : ExecutionCommand) (state : CommandState) (certainty : OutcomeCertainty) :
    ExecutionCommand :=
  { command with state, outcomeCertainty := certainty, version := command.version + 1 }

/-- What follows from a reconciliation. -/
def applyReconciliation (env : Env) (ownerId : Uuid) (snapshot : BrokerSnapshot)
    (row : Row Uuid CommandState CommandData) (orders : List TypedOrder)
    (result : ReconciliationRecord) : Session Unit :=
  match result.state with
  | .ambiguous => settleCommand env row (concluded row.data.command .blockedAmbiguous .uncertain)
      "execution.command.blocked_ambiguous"
  | .noEffectConfirmed => settleCommand env row
      (concluded row.data.command .noEffectConfirmed .confirmed)
      "execution.command.no_effect_confirmed"
  | _ => do
    let db ← Tx.get
    match row.data.command.tradePlanId.bind (Table.get? db.tradePlans · ownerId) with
    | none => return ()
    | some plan => applyMatch env ownerId snapshot row plan orders result

/-- Does the ingestion of the snapshot reconcile this row? -/
def isPending (snapshot : BrokerSnapshot) (row : Row Uuid CommandState CommandData) : Bool :=
  row.state ∈ pendingStates && row.data.command.accountId = snapshot.accountId

/-- The orders and the answer for one command. -/
def reconcileRow (snapshot : BrokerSnapshot) (positions : List TypedPosition)
    (command : ExecutionCommand) : Except TaskError (List TypedOrder × ReconciliationRecord) := do
  let orders ← (relevantOrders command snapshot).mapM (typedOrder command)
  let result ← reconcileCommand command orders positions true
  return (orders, result)

/-- The loop over the commands: the reconciliations made. -/
def reconcileRows (env : Env) (ownerId : Uuid) (snapshot : BrokerSnapshot)
    (positions : List TypedPosition) :
    List (Row Uuid CommandState CommandData) → Session (List ReconciliationRecord)
  | [] => return []
  | row :: rows => do
    if isPending snapshot row then
      let found ← Tx.lift (reconcileRow snapshot positions row.data.command)
      Tx.modify fun db => db.addReconciliation env ownerId found.2
      applyReconciliation env ownerId snapshot row found.1 found.2
      let results ← reconcileRows env ownerId snapshot positions rows
      return found.2 :: results
    else reconcileRows env ownerId snapshot positions rows

structure IngestResult where
  sequence : Int
  reconciliations : List ReconciliationRecord
  duplicate : Bool := false

/-- A snapshot that is new and in order. -/
def ingestNew (env : Env) (ownerId : Uuid) (snapshot : BrokerSnapshot) : Session IngestResult := do
  Tx.modify fun db => db.addSnapshot env ownerId snapshot
  let positions ← Tx.lift (snapshot.positions.mapM (typedPosition snapshot.sequence))
  let db ← Tx.get
  let results ← reconcileRows env ownerId snapshot positions (listedCommands db ownerId)
  return ⟨snapshot.sequence, results, false⟩

/-- Is the snapshot no newer than the last one stored? -/
def outOfOrder (snapshot : BrokerSnapshot) : List (Row Uuid ResourceState BrokerSnapshot) → Bool
  | [] => false
  | last :: _ => snapshot.sequence ≤ last.data.sequence

/-- `ingest_broker_snapshot`. -/
def ingestBrokerSnapshot (env : Env) (ownerId : Uuid) (snapshot : BrokerSnapshot) :
    Session IngestResult :=
  Tx.unitOfWork do
    let db ← Tx.get
    let existing := accountSnapshots db ownerId snapshot.accountId
    if existing.any fun r => r.data.messageId = snapshot.messageId then
      return ⟨snapshot.sequence, [], true⟩
    else
      Tx.require (outOfOrder snapshot existing = false)
        (.httpError 409 "out-of-order or replayed broker snapshot")
      ingestNew env ownerId snapshot

end Matrades

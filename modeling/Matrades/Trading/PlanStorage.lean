import Matrades.Base.Run
import Matrades.Shared.Texts
import Matrades.Strategies.Storage
import Matrades.Trading.Coordinator

/-!
# Stored trade plans

`TradePlan` of `modules/trading/models.py` in full, with its construction, risk result, ticket and
authorization, as it is stored (`model_dump(mode="json")`) and read back (`model_validate`);
`build_trade_plan`, and the changes that the coordinator, the worker and the routes make to a plan.
A construction is checked where it is built and where it is read; `model_copy` checks nothing.
-/

namespace Matrades.PlanSchema

open Base

def texts : Codec (List String) := .list .text

def maybeUuid : Codec (Option Uuid) := .optional Uuid.codec (fun _ h => by cases h)

def maybeDecimal : Codec (Option Written) := .optional .decimal (fun _ h => by cases h)

theorem assetClass_ne_null (a : AssetClass) : Schema.assetClass.dump a ≠ .null := nofun

theorem instrumentType_ne_null (a : InstrumentType) : Schema.instrumentType.dump a ≠ .null := nofun

theorem quantityUnit_ne_null (a : QuantityUnit) : Schema.quantityUnit.dump a ≠ .null := nofun

def maybeAssetClass : Codec (Option AssetClass) := .optional Schema.assetClass assetClass_ne_null

def maybeInstrumentType : Codec (Option InstrumentType) :=
  .optional Schema.instrumentType instrumentType_ne_null

def maybeQuantityUnit : Codec (Option QuantityUnit) := .optional Schema.quantityUnit quantityUnit_ne_null

def direction : Codec Direction := .named [.buy, .sell] Direction.value (by intro a; cases a <;> decide)

def action : Codec ExecutionAction :=
  .named [.placeOrder, .cancelOrder, .setOrChangeStopLoss, .setOrChangeTakeProfit, .partialClose,
    .fullExit] ExecutionAction.value (by intro a; cases a <;> decide)

def planState : Codec TradePlanState :=
  .named [.constructed, .validating, .blocked, .ready, .authorized, .executionPending, .executing,
    .active, .expired, .cancelled, .revalidationRequired] TradePlanState.value
    (by intro a; cases a <;> decide)

def decisionText : RiskDecision → String
  | .pass => "PASS"
  | .reduceSize => "REDUCE_SIZE"
  | .hardBlock => "HARD_BLOCK"

def decision : Codec RiskDecision :=
  .named [.pass, .reduceSize, .hardBlock] decisionText (by intro a; cases a <;> decide)

instance : texts.Exact := inferInstanceAs (Codec.list _).Exact
instance : maybeUuid.Exact := inferInstanceAs (Codec.optional _ _).Exact
instance : maybeDecimal.Exact := inferInstanceAs (Codec.optional _ _).Exact
instance : maybeAssetClass.Exact := inferInstanceAs (Codec.optional _ _).Exact
instance : maybeInstrumentType.Exact := inferInstanceAs (Codec.optional _ _).Exact
instance : maybeQuantityUnit.Exact := inferInstanceAs (Codec.optional _ _).Exact
instance : direction.Exact := inferInstanceAs (Codec.named _ _ _).Exact
instance : action.Exact := inferInstanceAs (Codec.named _ _ _).Exact
instance : planState.Exact := inferInstanceAs (Codec.named _ _ _).Exact
instance : decision.Exact := inferInstanceAs (Codec.named _ _ _).Exact

/-! ## Constructions -/

structure TradeConstruction where
  instrument : String
  direction : Direction
  entry : Written
  stopLoss : Written
  targets : List Written
  invalidation : String
  approvedSize : Written
  quantityUnit : QuantityUnit
  assetClass : AssetClass
  instrumentType : InstrumentType
  venueInstrumentId : Uuid
  specificationVersionId : Uuid
  futuresContractId : Option Uuid := none

/-- The constraints of the fields. -/
def TradeConstruction.accepted (c : TradeConstruction) : Bool :=
  0 < c.entry.value && 0 < c.stopLoss.value && 1 ≤ c.targets.length && 0 < c.approvedSize.value

def TradeConstruction.record : Record TradeConstruction :=
  ((Record.field "instrument" .text).both <|
    (Record.field "direction" PlanSchema.direction).both <|
    (Record.field "entry" .decimal).both <|
    (Record.field "stop_loss" .decimal).both <|
    (Record.field "targets" (.list .decimal)).both <|
    (Record.field "invalidation" .text).both <|
    (Record.field "approved_size" .decimal).both <|
    (Record.field "quantity_unit" Schema.quantityUnit).both <|
    (Record.field "asset_class" Schema.assetClass).both <|
    (Record.field "instrument_type" Schema.instrumentType).both <|
    (Record.field "venue_instrument_id" Uuid.codec).both <|
    (Record.field "specification_version_id" Uuid.codec).both <|
    Record.field "futures_contract_id" maybeUuid (some none)).as
  { toFun := fun (instrument, direction, entry, stopLoss, targets, invalidation, approvedSize,
        quantityUnit, assetClass, instrumentType, venueInstrumentId, specificationVersionId,
        futuresContractId) =>
      { instrument, direction, entry, stopLoss, targets, invalidation, approvedSize, quantityUnit,
        assetClass, instrumentType, venueInstrumentId, specificationVersionId, futuresContractId }
    invFun := fun c => (c.instrument, c.direction, c.entry, c.stopLoss, c.targets, c.invalidation,
      c.approvedSize, c.quantityUnit, c.assetClass, c.instrumentType, c.venueInstrumentId,
      c.specificationVersionId, c.futuresContractId)
    left_inv := fun _ => rfl
    right_inv := fun _ => rfl }

def TradeConstruction.codec : Codec TradeConstruction := TradeConstruction.record.object (by decide)

instance : TradeConstruction.record.Exact := by
  unfold TradeConstruction.record
  infer_instance

instance : TradeConstruction.codec.Exact := inferInstanceAs (Record.object _ _).Exact

/-! ## Risk results -/

structure RiskSnapshot where
  accountId : Uuid
  accountEquity : Written
  currentBalance : Written
  startingAccount : Written
  floatingPnl : Written
  realizedDailyPnl : Written
  currentDrawdown : Written
  dailyDrawdown : Written
  maximumAllowedDrawdown : Written
  propFirmDrawdownLimit : Option Written := none
  internalDrawdownLimit : Option Written := none
  remainingDrawdown : Written
  dailyLossUsed : Written
  dailyLossRemaining : Written
  existingOpenRisk : Written
  existingCorrelatedExposure : Dict String Written := Dict.empty
  candidateTradeRisk : Written
  portfolioRiskAfterTrade : Written
  remainingTotalLossCapacity : Written
  remainingPortfolioRiskCapacity : Written
  openTrades : ℤ
  maxConcurrentTrades : ℤ
  additionalTradeCapacity : ℤ
  observedAt : String
  source : String
  sourceVersion : String
  constraintVersions : List String := []
  assetClass : Option AssetClass := none
  instrumentType : Option InstrumentType := none
  venueInstrumentId : Option Uuid := none
  futuresContractId : Option Uuid := none
  specificationVersionId : Option Uuid := none
  quantityUnit : Option QuantityUnit := none
  notionalExposure : Written := ⟨false, 0, 0⟩
  marginRequired : Written := ⟨false, 0, 0⟩
  financingCost : Written := ⟨false, 0, 0⟩

def RiskSnapshot.record : Record RiskSnapshot :=
  ((Record.field "account_id" Uuid.codec).both <|
    (Record.field "account_equity" .decimal).both <|
    (Record.field "current_balance" .decimal).both <|
    (Record.field "starting_account" .decimal).both <|
    (Record.field "floating_pnl" .decimal).both <|
    (Record.field "realized_daily_pnl" .decimal).both <|
    (Record.field "current_drawdown" .decimal).both <|
    (Record.field "daily_drawdown" .decimal).both <|
    (Record.field "maximum_allowed_drawdown" .decimal).both <|
    (Record.field "prop_firm_drawdown_limit" maybeDecimal (some none)).both <|
    (Record.field "internal_drawdown_limit" maybeDecimal (some none)).both <|
    (Record.field "remaining_drawdown" .decimal).both <|
    (Record.field "daily_loss_used" .decimal).both <|
    (Record.field "daily_loss_remaining" .decimal).both <|
    (Record.field "existing_open_risk" .decimal).both <|
    (Record.field "existing_correlated_exposure" (.dict .decimal) (some Dict.empty)).both <|
    (Record.field "candidate_trade_risk" .decimal).both <|
    (Record.field "portfolio_risk_after_trade" .decimal).both <|
    (Record.field "remaining_total_loss_capacity" .decimal).both <|
    (Record.field "remaining_portfolio_risk_capacity" .decimal).both <|
    (Record.field "open_trades" .int).both <|
    (Record.field "max_concurrent_trades" .int).both <|
    (Record.field "additional_trade_capacity" .int).both <|
    (Record.field "observed_at" .text).both <|
    (Record.field "source" .text).both <|
    (Record.field "source_version" .text).both <|
    (Record.field "constraint_versions" texts (some [])).both <|
    (Record.field "asset_class" maybeAssetClass (some none)).both <|
    (Record.field "instrument_type" maybeInstrumentType (some none)).both <|
    (Record.field "venue_instrument_id" maybeUuid (some none)).both <|
    (Record.field "futures_contract_id" maybeUuid (some none)).both <|
    (Record.field "specification_version_id" maybeUuid (some none)).both <|
    (Record.field "quantity_unit" maybeQuantityUnit (some none)).both <|
    (Record.field "notional_exposure" .decimal (some ⟨false, 0, 0⟩)).both <|
    (Record.field "margin_required" .decimal (some ⟨false, 0, 0⟩)).both <|
    Record.field "financing_cost" .decimal (some ⟨false, 0, 0⟩)).as
  { toFun := fun (accountId, accountEquity, currentBalance, startingAccount, floatingPnl,
        realizedDailyPnl, currentDrawdown, dailyDrawdown, maximumAllowedDrawdown, propFirmDrawdownLimit,
        internalDrawdownLimit, remainingDrawdown, dailyLossUsed, dailyLossRemaining, existingOpenRisk,
        existingCorrelatedExposure, candidateTradeRisk, portfolioRiskAfterTrade,
        remainingTotalLossCapacity, remainingPortfolioRiskCapacity, openTrades, maxConcurrentTrades,
        additionalTradeCapacity, observedAt, source, sourceVersion, constraintVersions, assetClass,
        instrumentType, venueInstrumentId, futuresContractId, specificationVersionId, quantityUnit,
        notionalExposure, marginRequired, financingCost) =>
      { accountId, accountEquity, currentBalance, startingAccount, floatingPnl, realizedDailyPnl,
        currentDrawdown, dailyDrawdown, maximumAllowedDrawdown, propFirmDrawdownLimit,
        internalDrawdownLimit, remainingDrawdown, dailyLossUsed, dailyLossRemaining, existingOpenRisk,
        existingCorrelatedExposure, candidateTradeRisk, portfolioRiskAfterTrade,
        remainingTotalLossCapacity, remainingPortfolioRiskCapacity, openTrades, maxConcurrentTrades,
        additionalTradeCapacity, observedAt, source, sourceVersion, constraintVersions, assetClass,
        instrumentType, venueInstrumentId, futuresContractId, specificationVersionId, quantityUnit,
        notionalExposure, marginRequired, financingCost }
    invFun := fun s => (s.accountId, s.accountEquity, s.currentBalance, s.startingAccount, s.floatingPnl,
      s.realizedDailyPnl, s.currentDrawdown, s.dailyDrawdown, s.maximumAllowedDrawdown,
      s.propFirmDrawdownLimit, s.internalDrawdownLimit, s.remainingDrawdown, s.dailyLossUsed,
      s.dailyLossRemaining, s.existingOpenRisk, s.existingCorrelatedExposure, s.candidateTradeRisk,
      s.portfolioRiskAfterTrade, s.remainingTotalLossCapacity, s.remainingPortfolioRiskCapacity,
      s.openTrades, s.maxConcurrentTrades, s.additionalTradeCapacity, s.observedAt, s.source,
      s.sourceVersion, s.constraintVersions, s.assetClass, s.instrumentType, s.venueInstrumentId,
      s.futuresContractId, s.specificationVersionId, s.quantityUnit, s.notionalExposure,
      s.marginRequired, s.financingCost)
    left_inv := fun _ => rfl
    right_inv := fun _ => rfl }

def RiskSnapshot.codec : Codec RiskSnapshot := RiskSnapshot.record.object (by decide)

instance : RiskSnapshot.record.Exact := by
  unfold RiskSnapshot.record
  infer_instance

instance : RiskSnapshot.codec.Exact := inferInstanceAs (Record.object _ _).Exact

structure RiskResult where
  decision : RiskDecision
  approvedSize : Written
  reasons : List String
  limitingConstraints : List String
  snapshot : RiskSnapshot

def RiskResult.record : Record RiskResult :=
  ((Record.field "decision" PlanSchema.decision).both <|
    (Record.field "approved_size" .decimal).both <|
    (Record.field "reasons" texts).both <|
    (Record.field "limiting_constraints" texts).both <|
    Record.field "snapshot" RiskSnapshot.codec).as
  { toFun := fun (decision, approvedSize, reasons, limitingConstraints, snapshot) =>
      { decision, approvedSize, reasons, limitingConstraints, snapshot }
    invFun := fun r => (r.decision, r.approvedSize, r.reasons, r.limitingConstraints, r.snapshot)
    left_inv := fun _ => rfl
    right_inv := fun _ => rfl }

def RiskResult.codec : Codec RiskResult := RiskResult.record.object (by decide)

instance : RiskResult.record.Exact := by
  unfold RiskResult.record
  infer_instance

instance : RiskResult.codec.Exact := inferInstanceAs (Record.object _ _).Exact

/-! ## Tickets -/

structure TargetScenarioFields where
  price : Written
  profitBeforeCosts : Written
  researchFraction : Option Written := none
  brokerHardTakeProfit : Bool := false

def TargetScenarioFields.accepted (t : TargetScenarioFields) : Bool :=
  0 < t.price.value && 0 ≤ t.profitBeforeCosts.value

def TargetScenarioFields.record : Record TargetScenarioFields :=
  ((Record.field "price" .decimal).both <|
    (Record.field "profit_before_costs" .decimal).both <|
    (Record.field "research_fraction" maybeDecimal (some none)).both <|
    Record.field "broker_hard_take_profit" .bool (some false)).as
  { toFun := fun (price, profitBeforeCosts, researchFraction, brokerHardTakeProfit) =>
      { price, profitBeforeCosts, researchFraction, brokerHardTakeProfit }
    invFun := fun t => (t.price, t.profitBeforeCosts, t.researchFraction, t.brokerHardTakeProfit)
    left_inv := fun _ => rfl
    right_inv := fun _ => rfl }

instance : TargetScenarioFields.record.Exact := by
  unfold TargetScenarioFields.record
  infer_instance

def TargetScenarioFields.codec : Codec TargetScenarioFields :=
  TargetScenarioFields.record.object (by decide)

instance : TargetScenarioFields.codec.Exact := inferInstanceAs (Record.object _ _).Exact

/-- A scenario that the model accepts. -/
abbrev TargetScenario := {t : TargetScenarioFields // t.accepted = true}

def TargetScenario.codec : Codec TargetScenario :=
  TargetScenarioFields.codec.restricted TargetScenarioFields.accepted

instance : TargetScenario.codec.Exact := inferInstanceAs (Codec.restricted _ _).Exact

/-- The note of a ticket. -/
def scenarioNote : String :=
  "Each profit scenario assumes the full approved size exits at that target. " ++
  "These are indicative scenarios, not guaranteed fills or expected returns. " ++
  "The broker order uses the first target as its hard take-profit; " ++
  "later targets and research fractions are informational only."

structure TradeTicketFields where
  accountCurrency : String
  entryBasis : String := "LATEST_CLOSED_CANDLE_INDICATIVE"
  requestedRiskLimit : Written
  potentialLossBeforeCosts : Written
  targets : List TargetScenario
  costsExcluded : List String := ["spread", "slippage", "commission", "financing"]
  partialTargetsExecutable : Bool := false
  note : String := scenarioNote

def TradeTicketFields.accepted (t : TradeTicketFields) : Bool :=
  0 < t.requestedRiskLimit.value && 0 ≤ t.potentialLossBeforeCosts.value

def TradeTicketFields.record : Record TradeTicketFields :=
  ((Record.field "account_currency" .text).both <|
    (Record.field "entry_basis" .text (some "LATEST_CLOSED_CANDLE_INDICATIVE")).both <|
    (Record.field "requested_risk_limit" .decimal).both <|
    (Record.field "potential_loss_before_costs" .decimal).both <|
    (Record.field "targets" (.list TargetScenario.codec)).both <|
    (Record.field "costs_excluded" texts (some ["spread", "slippage", "commission", "financing"])).both <|
    (Record.field "partial_targets_executable" .bool (some false)).both <|
    Record.field "note" .text (some scenarioNote)).as
  { toFun := fun (accountCurrency, entryBasis, requestedRiskLimit, potentialLossBeforeCosts, targets,
        costsExcluded, partialTargetsExecutable, note) =>
      { accountCurrency, entryBasis, requestedRiskLimit, potentialLossBeforeCosts, targets,
        costsExcluded, partialTargetsExecutable, note }
    invFun := fun t => (t.accountCurrency, t.entryBasis, t.requestedRiskLimit,
      t.potentialLossBeforeCosts, t.targets, t.costsExcluded, t.partialTargetsExecutable, t.note)
    left_inv := fun _ => rfl
    right_inv := fun _ => rfl }

instance : TradeTicketFields.record.Exact := by
  unfold TradeTicketFields.record
  infer_instance

def TradeTicketFields.codec : Codec TradeTicketFields := TradeTicketFields.record.object (by decide)

instance : TradeTicketFields.codec.Exact := inferInstanceAs (Record.object _ _).Exact

/-- A ticket that the model accepts. -/
abbrev TradeTicket := {t : TradeTicketFields // t.accepted = true}

def TradeTicket.codec : Codec TradeTicket := TradeTicketFields.codec.restricted TradeTicketFields.accepted

instance : TradeTicket.codec.Exact := inferInstanceAs (Codec.restricted _ _).Exact

/-! ## Authorizations -/

structure ExecutionAuthorizationFields where
  id : Uuid
  accountId : Uuid
  action : ExecutionAction
  permissionVersion : ℤ
  platformSafetyEpoch : ℤ
  accountSafetyEpoch : ℤ
  authorizationDigest : String
  issuedAt : Instant
  expiresAt : Instant

def ExecutionAuthorizationFields.accepted (a : ExecutionAuthorizationFields) : Bool :=
  1 ≤ a.permissionVersion && 0 ≤ a.platformSafetyEpoch && 0 ≤ a.accountSafetyEpoch

def ExecutionAuthorizationFields.record : Record ExecutionAuthorizationFields :=
  ((Record.field "id" Uuid.codec).both <|
    (Record.field "account_id" Uuid.codec).both <|
    (Record.field "action" PlanSchema.action).both <|
    (Record.field "permission_version" .int).both <|
    (Record.field "platform_safety_epoch" .int).both <|
    (Record.field "account_safety_epoch" .int).both <|
    (Record.field "authorization_digest" .text).both <|
    (Record.field "issued_at" Instant.codec).both <|
    Record.field "expires_at" Instant.codec).as
  { toFun := fun (id, accountId, action, permissionVersion, platformSafetyEpoch, accountSafetyEpoch,
        authorizationDigest, issuedAt, expiresAt) =>
      { id, accountId, action, permissionVersion, platformSafetyEpoch, accountSafetyEpoch,
        authorizationDigest, issuedAt, expiresAt }
    invFun := fun a => (a.id, a.accountId, a.action, a.permissionVersion, a.platformSafetyEpoch,
      a.accountSafetyEpoch, a.authorizationDigest, a.issuedAt, a.expiresAt)
    left_inv := fun _ => rfl
    right_inv := fun _ => rfl }

instance : ExecutionAuthorizationFields.record.Exact := by
  unfold ExecutionAuthorizationFields.record
  infer_instance

def ExecutionAuthorizationFields.codec : Codec ExecutionAuthorizationFields :=
  ExecutionAuthorizationFields.record.object (by decide)

instance : ExecutionAuthorizationFields.codec.Exact := inferInstanceAs (Record.object _ _).Exact

/-- An authorization that the model accepts. -/
abbrev ExecutionAuthorization := {a : ExecutionAuthorizationFields // a.accepted = true}

def ExecutionAuthorization.codec : Codec ExecutionAuthorization :=
  ExecutionAuthorizationFields.codec.restricted ExecutionAuthorizationFields.accepted

instance : ExecutionAuthorization.codec.Exact := inferInstanceAs (Codec.restricted _ _).Exact

/-! ## Plans -/

/-- The fields of a plan, as it is held: changes of them are not checked. -/
structure TradePlan where
  id : Uuid
  ownerId : Uuid
  accountId : Uuid
  state : TradePlanState := .constructed
  construction : TradeConstruction
  strategyVersionId : Uuid
  marketFingerprintId : Uuid
  risk : RiskResult
  ticket : Option TradeTicket := none
  policyStatus : String := "PASS"
  guardrailStatus : String := "PASS"
  criticStatus : String := "PASS"
  evidenceRefs : List String := []
  reservationId : Option Uuid := none
  authorization : Option ExecutionAuthorization := none
  executionCommandId : Option Uuid := none
  expiresAt : Instant
  version : ℤ := 1

def maybeTicket : Codec (Option TradeTicket) := .optional TradeTicket.codec (fun _ h => by cases h)

def maybeAuthorization : Codec (Option ExecutionAuthorization) :=
  .optional ExecutionAuthorization.codec (fun _ h => by cases h)

instance : maybeTicket.Exact := inferInstanceAs (Codec.optional _ _).Exact
instance : maybeAuthorization.Exact := inferInstanceAs (Codec.optional _ _).Exact

namespace TradePlan

/-- The constraints of the plan and of its construction. -/
def accepted (p : TradePlan) : Bool := p.construction.accepted && 1 ≤ p.version

def record : Record TradePlan :=
  ((Record.field "id" Uuid.codec).both <|
    (Record.field "owner_id" Uuid.codec).both <|
    (Record.field "account_id" Uuid.codec).both <|
    (Record.field "state" planState (some .constructed)).both <|
    (Record.field "construction" TradeConstruction.codec).both <|
    (Record.field "strategy_version_id" Uuid.codec).both <|
    (Record.field "market_fingerprint_id" Uuid.codec).both <|
    (Record.field "risk" RiskResult.codec).both <|
    (Record.field "ticket" maybeTicket (some none)).both <|
    (Record.field "policy_status" .text (some "PASS")).both <|
    (Record.field "guardrail_status" .text (some "PASS")).both <|
    (Record.field "critic_status" .text (some "PASS")).both <|
    (Record.field "evidence_refs" texts (some [])).both <|
    (Record.field "reservation_id" maybeUuid (some none)).both <|
    (Record.field "authorization" maybeAuthorization (some none)).both <|
    (Record.field "execution_command_id" maybeUuid (some none)).both <|
    (Record.field "expires_at" Instant.codec).both <|
    Record.field "version" .int (some 1)).as
  { toFun := fun (id, ownerId, accountId, state, construction, strategyVersionId, marketFingerprintId,
        risk, ticket, policyStatus, guardrailStatus, criticStatus, evidenceRefs, reservationId,
        authorization, executionCommandId, expiresAt, version) =>
      { id, ownerId, accountId, state, construction, strategyVersionId, marketFingerprintId, risk,
        ticket, policyStatus, guardrailStatus, criticStatus, evidenceRefs, reservationId,
        authorization, executionCommandId, expiresAt, version }
    invFun := fun p => (p.id, p.ownerId, p.accountId, p.state, p.construction, p.strategyVersionId,
      p.marketFingerprintId, p.risk, p.ticket, p.policyStatus, p.guardrailStatus, p.criticStatus,
      p.evidenceRefs, p.reservationId, p.authorization, p.executionCommandId, p.expiresAt, p.version)
    left_inv := fun _ => rfl
    right_inv := fun _ => rfl }

instance : record.Exact := by
  unfold record
  infer_instance

def codec : Codec TradePlan := record.object (by decide)

instance : codec.Exact := inferInstanceAs (Record.object _ _).Exact

/-- `model_dump(mode="json")` -/
def modelDump (p : TradePlan) : Json := codec.dump p

/-- `TradePlan.model_validate` -/
def modelValidate (document : Json) : Option TradePlan := (codec.load document).filter accepted

/-- Is the plan read back from its document? -/
def RoundTrips (p : TradePlan) : Prop := modelValidate p.modelDump = some p

/-- A plan is read back exactly where it meets the constraints. -/
theorem roundTrips_iff {p : TradePlan} : p.RoundTrips ↔ p.accepted = true := by
  unfold RoundTrips modelValidate modelDump
  rw [Codec.Exact.load_dump, Option.filter_some]
  split
  · rename_i h
    exact iff_of_true rfl h
  · rename_i h
    exact iff_of_false nofun h

end TradePlan

/-! ## The in-memory book of reservations -/

structure RiskReservation where
  id : Uuid
  accountId : Uuid
  proposalId : Uuid
  amount : ℚ
  expiresAt : Time
  state : ReservationState := .active

structure ReservationBook where
  items : List RiskReservation := []

namespace ReservationBook

/-- `expire` -/
def expire (book : ReservationBook) (now : Time) : ReservationBook :=
  ⟨book.items.map fun item =>
    if item.state = .active ∧ item.expiresAt ≤ now then { item with state := .expired } else item⟩

/-- What the account has reserved. -/
def already (book : ReservationBook) (accountId : Uuid) : ℚ :=
  ((book.items.filter fun item => item.accountId = accountId ∧ item.state = .active).map (·.amount)).sum

/-- `reserve` -/
def reserve (book : ReservationBook) (now : Time) (id accountId proposalId : Uuid)
    (amount available : ℚ) : Except String (RiskReservation × ReservationBook) :=
  let book := book.expire now
  if amount ≤ 0 ∨ available < book.already accountId + amount then
    .error "insufficient unreserved risk capacity"
  else
    let item : RiskReservation := { id, accountId, proposalId, amount, expiresAt := now + 10 * minute }
    .ok (item, ⟨book.items ++ [item]⟩)

end ReservationBook

/-! ## Building a plan -/

/-- The arguments of `build_trade_plan`, each built and so checked by its model. -/
structure PlanArguments where
  ownerId : Uuid
  accountId : Uuid
  construction : {c : TradeConstruction // c.accepted = true}
  strategyVersionId : Uuid
  marketFingerprintId : Uuid
  risk : RiskResult
  ticket : Option TradeTicket := none
  evidenceRefs : List String
  expiresAt : Instant

/-- The clock and the new ids of a building. -/
structure BuildEnv where
  now : Time
  planId : Uuid
  reservationId : Uuid

/-- The construction with the size that the risk result approves; `model_copy` does not check it. -/
def TradeConstruction.approvedBy (c : TradeConstruction) (risk : RiskResult) : TradeConstruction :=
  if c.approvedSize.value ≠ risk.approvedSize.value then { c with approvedSize := risk.approvedSize }
  else c

/-- The plan before its reservation. -/
def PlanArguments.plan (a : PlanArguments) (env : BuildEnv) : TradePlan where
  id := env.planId
  ownerId := a.ownerId
  accountId := a.accountId
  state := if a.risk.decision = .hardBlock then .blocked else .ready
  construction := a.construction.1.approvedBy a.risk
  strategyVersionId := a.strategyVersionId
  marketFingerprintId := a.marketFingerprintId
  risk := a.risk
  ticket := a.ticket
  evidenceRefs := a.evidenceRefs
  expiresAt := a.expiresAt

/-- `build_trade_plan`, with the book as it leaves it. -/
def buildTradePlan (env : BuildEnv) (a : PlanArguments) (reservations : Option ReservationBook) :
    Except String (TradePlan × Option ReservationBook) :=
  match reservations with
  | none => .ok (a.plan env, none)
  | some book =>
    if a.risk.decision = .hardBlock then .ok (a.plan env, some book)
    else do
      let (reservation, book) ← book.reserve env.now env.reservationId a.accountId (a.plan env).id
        a.risk.snapshot.candidateTradeRisk.value a.risk.snapshot.remainingPortfolioRiskCapacity.value
      return ({ a.plan env with reservationId := some reservation.id }, some book)

/-! ## Changing a plan -/

/-- `transition_trade_plan` -/
def transitionTradePlan (p : TradePlan) (target : TradePlanState) : Except String TradePlan :=
  if target = p.state then .ok p
  else if target ∈ p.state.targets then .ok { p with state := target, version := p.version + 1 }
  else .error ("cannot transition Trade Plan " ++ p.state.value ++ " to " ++ target.value)

/-- The changes of a plan: copies and assigned fields, none of them checked. -/
inductive PlanChange
  /-- A plan without live terms or without a ticket is blocked. -/
  | block
  /-- An evaluation that blocks is stored. -/
  | blockWith (risk : RiskResult)
  /-- An evaluation that does not block is stored, and its size. -/
  | size (risk : RiskResult)
  | ticket (ticket : TradeTicket)
  | reserve (reservationId : Uuid)
  | authorize (authorization : ExecutionAuthorization)
  | transition (target : TradePlanState)
  | command (commandId : Uuid)
  /-- A management command is authorized. -/
  | manage
  /-- The entry was acknowledged. -/
  | execute

/-- The plan after a change; one that raises leaves it as it is. -/
def TradePlan.change (p : TradePlan) : PlanChange → TradePlan
  | .block => { p with state := .blocked }
  | .blockWith risk => { p with state := .blocked, risk }
  | .size risk =>
    { p with risk, construction := { p.construction with approvedSize := risk.approvedSize } }
  | .ticket ticket => { p with ticket := some ticket }
  | .reserve reservationId => { p with reservationId := some reservationId }
  | .authorize authorization =>
    { p with
      authorization := some authorization
      state := if authorization.1.action = .placeOrder then .authorized else p.state }
  | .transition target => (transitionTradePlan p target).toOption.getD p
  | .command commandId => { p with executionCommandId := some commandId }
  | .manage => { p with version := p.version + 1 }
  | .execute => { p with state := .executing, version := p.version + 1 }

/-- The decision and the size are those of an evaluation. -/
def RiskResult.Evaluated (risk : RiskResult) : Prop :=
  ∃ context c result, evaluate context c = .ok result ∧ risk.decision = result.decision ∧
    risk.approvedSize.value = result.approvedSize

/-- What the coordinator sizes a plan by: an evaluation that does not block. -/
def PlanChange.Sound : PlanChange → Prop
  | .size risk => risk.Evaluated ∧ risk.decision ≠ .hardBlock
  | _ => True

end Matrades.PlanSchema

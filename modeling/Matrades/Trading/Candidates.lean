import Matrades.Risk.Authority

/-!
# Candidate builders

The two paths that build a candidate and have it evaluated: `_typed_candidate` with the risk part of
`authorize_and_queue_entry` (`modules/trading/coordinator.py`), and the trade plan route of
`apps/api/app/routes/strategies.py` up to its ticket. Both take the live terms that
`load_live_trade_terms` answers. Each names the candidate's market category in its own way.
-/

namespace Matrades

open Base

/-! ## Live terms -/

/-- `LiveTradeTerms`, from a specification with valid terms. -/
structure LiveTradeTerms where
  accountCurrency : String
  quantityUnit : QuantityUnit
  contractMultiplier : ℚ
  tickSize : ℚ
  tickValue : Option ℚ
  quantityMinimum : ℚ
  quantityMaximum : ℚ
  quantityStep : ℚ
  contractMultiplier_pos : 0 < contractMultiplier
  tickSize_pos : 0 < tickSize
  quantityMinimum_pos : 0 < quantityMinimum
  quantityStep_pos : 0 < quantityStep

def LiveTradeTerms.validateSize (terms : LiveTradeTerms) (size : ℚ) : Except TaskError Unit :=
  if size < terms.quantityMinimum ∨ terms.quantityMaximum < size then
    .error (.valueError "approved volume is outside broker minimum/maximum")
  else if floorTo size terms.quantityStep ≠ size then
    .error (.valueError "approved volume does not match broker lot step")
  else .ok ()

def LiveTradeTerms.maximumSteppedSize (terms : LiveTradeTerms) : Except TaskError ℚ := do
  let size := floorTo terms.quantityMaximum terms.quantityStep
  terms.validateSize size
  return size

/-! ## Field checks -/

/-- A number above 0, or the error. -/
def positive (e : TaskError) (q : ℚ) : Except TaskError { q : ℚ // 0 < q } :=
  if h : 0 < q then .ok ⟨q, h⟩ else .error e

/-- A number not below 0, or the error. -/
def nonnegative (e : TaskError) (q : ℚ) : Except TaskError { q : ℚ // 0 ≤ q } :=
  if h : 0 ≤ q then .ok ⟨q, h⟩ else .error e

/-- The validation error of a field that must be above 0. -/
def notPositive (field : String) : TaskError :=
  .valueError (field ++ ": Input should be greater than 0")

def notNonnegative (field : String) : TaskError :=
  .valueError (field ++ ": Input should be greater than or equal to 0")

/-! ## Approvals -/

/-- An evaluated candidate. -/
structure Approval where
  candidate : CandidateTrade
  context : RiskContext
  result : RiskResult

/-- What the engine raises, as the callers see it. -/
def RiskError.raised : RiskError → TaskError
  | valueError message => .valueError message
  | validationError field => .valueError (field ++ ": Input should be a finite number")
  | invalidOperation => .invalidOperation

/-- Evaluate the candidate in the authoritative context. -/
def evaluated (now : Time) (db : Database) (ownerId accountId : Uuid) (c : CandidateTrade) :
    Except TaskError Approval := do
  let context ← authoritativeRiskContext now db ownerId accountId c
  let result ← (evaluate context c).mapError RiskError.raised
  return ⟨c, context, result⟩

/-- Is a hard and positive MAX_RISK_PER_TRADE in force? -/
def perTradeAuthority (context : RiskContext) : Bool :=
  (strictestApplicable context.constraints .maxRiskPerTrade).any fun limit =>
    limit.enforcement = .hard && 0 < limit.value

/-! ## The coordinator -/

/-- The stored specification of the plan, if it is fresh. -/
def planSpecification (db : Database) (plan : TradePlan) : Option SpecificationData :=
  (((Table.listed db.typedInstruments plan.ownerId ResourceState.kept).find? fun row =>
    row.data.specificationId = some plan.construction.specificationVersionId.str).map (·.data)).filter
      fun data => data.freshness = some "VALID"

/-- The risk per unit the plan's last evaluation left. -/
def planRiskPerUnit (plan : TradePlan) : ℚ :=
  if 0 < plan.risk.snapshot.candidateTradeRisk then
    plan.risk.snapshot.candidateTradeRisk / plan.construction.approvedSize
  else |plan.construction.entry - plan.construction.stopLoss|

/-- The candidate with the live terms. -/
def CandidateTrade.withTerms (c : CandidateTrade) (terms : LiveTradeTerms) : CandidateTrade :=
  { c with
    sizeIncrement := terms.quantityStep
    contractMultiplier := terms.contractMultiplier
    tickSize := some terms.tickSize
    tickValue := terms.tickValue
    sizeIncrement_pos := terms.quantityStep_pos }

/-- `_typed_candidate`. -/
def typedCandidate (db : Database) (plan : TradePlan) (terms : Option LiveTradeTerms) :
    Except TaskError CandidateTrade := do
  let specification ← orError (planSpecification db plan)
    (.permissionError "fresh effective instrument specification is required")
  let perUnit ← positive (.permissionError "bounded positive Stop Loss risk is required")
    (planRiskPerUnit plan)
  let increment ← positive (notPositive "size_increment") (specification.quantityStep.getD (1 / 100))
  let margin ← nonnegative (notNonnegative "margin_required") (specification.marginRequired.getD 0)
  let financing ← nonnegative (notNonnegative "financing_cost") (specification.financingCost.getD 0)
  let candidate : CandidateTrade := {
    instrument := plan.construction.instrument
    direction := plan.construction.direction
    marketCategory := plan.construction.assetClass.value
    requestedSize := plan.construction.approvedSize
    entryPrice := plan.construction.entry
    stopLoss := plan.construction.stopLoss
    riskPerUnit := perUnit
    sizeIncrement := increment
    currencyExposures := .empty
    assetClass := some plan.construction.assetClass
    instrumentType := some plan.construction.instrumentType
    venueInstrumentId := some plan.construction.venueInstrumentId
    futuresContractId := plan.construction.futuresContractId
    specificationVersionId := some plan.construction.specificationVersionId
    quantityUnit := some plan.construction.quantityUnit
    contractMultiplier := specification.contractMultiplier.getD 1
    tickSize := some (specification.tickSize.getD (1 / 100000))
    tickValue := specification.tickValue
    marginRequired := margin
    financingCost := financing
    underlyingId := none
    requestedSize_pos := plan.construction.approvedSize_pos
    entryPrice_pos := plan.construction.entry_pos
    stopLoss_pos := plan.construction.stopLoss_pos
    riskPerUnit_pos := perUnit.2
    sizeIncrement_pos := increment.2
    marginRequired_nonneg := margin.2
    financingCost_nonneg := financing.2 }
  return match terms with
    | some terms => candidate.withTerms terms
    | none => candidate

/-- The result as a block for the reason. -/
def RiskResult.block (result : RiskResult) (reason : String) : RiskResult :=
  { result with decision := .hardBlock, approvedSize := 0, reasons := [reason] }

/-- The result of a plan with a ticket: blocked where the currency or the limit per trade is gone. -/
def RiskResult.withTermAuthority (result : RiskResult) (context : RiskContext) : RiskResult :=
  let result := if context.accountCurrencyVerified then result
    else result.block "fresh MT5 broker account currency is unavailable"
  if perTradeAuthority context then result
  else result.block "MAX_RISK_PER_TRADE authority is no longer configured"

/-- The evaluation of a plan, with the live terms of its ticket. -/
def evaluatedPlan (now : Time) (db : Database) (plan : TradePlan) (terms : Option LiveTradeTerms) :
    Except TaskError Approval := do
  let candidate ← typedCandidate db plan terms
  let approval ← evaluated now db plan.ownerId plan.accountId candidate
  return match terms with
    | some _ => { approval with result := approval.result.withTermAuthority approval.context }
    | none => approval

/-- Do the loaded terms fit the plan's ticket? -/
def termsFit (plan : TradePlan) (ticket : TradeTicket) (terms : LiveTradeTerms) : Bool :=
  ticket.accountCurrency = terms.accountCurrency &&
    (terms.validateSize plan.construction.approvedSize).isOk

/-- `authorize_and_queue_entry` up to the evaluation's decision; `none` where the plan is blocked
before. `loaded` is the answer of `load_live_trade_terms`, `none` where it raises. -/
def authorizeEntry (now : Time) (db : Database) (plan : TradePlan) (loaded : Option LiveTradeTerms) :
    Except TaskError (Option Approval) := do
  if plan.state = .blocked ∨ plan.risk.decision = .hardBlock then .ok none
  else
    let _ ← currentBrokerSnapshot now db plan.ownerId plan.accountId
    match plan.ticket with
    | none => some <$> evaluatedPlan now db plan none
    | some ticket =>
      match loaded.filter (termsFit plan ticket) with
      | none => .ok none
      | some terms => some <$> evaluatedPlan now db plan (some terms)

/-! ## The strategies route -/

inductive MarketCategory
  | forex | metal | crypto
  deriving DecidableEq, Repr

def MarketCategory.value : MarketCategory → String
  | forex => "FOREX"
  | metal => "METAL"
  | crypto => "CRYPTO"

/-- What the route reads of the strategy, its signal and its research basis. -/
structure StrategySetup where
  accountId : Uuid
  category : MarketCategory
  instrument : String
  direction : Direction
  entry : ℚ
  stopLoss : ℚ
  assetClass : AssetClass
  instrumentType : InstrumentType
  quantityUnit : QuantityUnit
  listingId : Uuid
  specificationId : Uuid

/-- Is the stop on the losing side of the entry? -/
def StrategySetup.stopFits (setup : StrategySetup) : Bool :=
  match setup.direction with
  | .buy => setup.stopLoss < setup.entry
  | .sell => setup.entry < setup.stopLoss

/-- `str(category).lower()`. -/
def lowered (text : String) : String := String.ofList (text.toList.map Char.toLower)

/-- The candidate of the route. -/
def strategyCandidate (setup : StrategySetup) (terms : LiveTradeTerms) :
    Except TaskError CandidateTrade := do
  let requested ← terms.maximumSteppedSize
  let size ← positive (notPositive "requested_size") requested
  let entry ← positive (notPositive "entry_price") setup.entry
  let stop ← positive (notPositive "stop_loss") setup.stopLoss
  let perUnit ← positive (notPositive "risk_per_unit")
    (|setup.entry - setup.stopLoss| * terms.contractMultiplier)
  return {
    instrument := setup.instrument
    direction := setup.direction
    marketCategory := lowered setup.category.value
    requestedSize := size
    entryPrice := entry
    stopLoss := stop
    riskPerUnit := perUnit
    sizeIncrement := terms.quantityStep
    currencyExposures := .empty
    assetClass := some setup.assetClass
    instrumentType := some setup.instrumentType
    venueInstrumentId := some setup.listingId
    futuresContractId := none
    specificationVersionId := some setup.specificationId
    quantityUnit := some terms.quantityUnit
    contractMultiplier := terms.contractMultiplier
    tickSize := some terms.tickSize
    tickValue := terms.tickValue
    marginRequired := 0
    financingCost := 0
    underlyingId := none
    requestedSize_pos := size.2
    entryPrice_pos := entry.2
    stopLoss_pos := stop.2
    riskPerUnit_pos := perUnit.2
    sizeIncrement_pos := terms.quantityStep_pos
    marginRequired_nonneg := Rat.le_refl
    financingCost_nonneg := Rat.le_refl }

/-- The evaluation of the route's candidate, and the size check of its ticket. -/
def evaluatedStrategy (now : Time) (db : Database) (ownerId : Uuid) (setup : StrategySetup)
    (terms : LiveTradeTerms) : Except TaskError Approval := do
  let candidate ← strategyCandidate setup terms
  let approval ← evaluated now db ownerId setup.accountId candidate
  if approval.context.accountCurrencyVerified = false then
    .error (.valueError "fresh MT5 broker account currency is required for live sizing")
  else if perTradeAuthority approval.context = false then
    .error (.valueError ("configure a positive MAX_RISK_PER_TRADE limit in account currency " ++
      "before live Trade Plans"))
  else if 0 < approval.result.approvedSize then do
    terms.validateSize approval.result.approvedSize
    return approval
  else .ok approval

/-- The errors the route answers with a conflict. -/
def TaskError.asConflict : TaskError → TaskError
  | valueError message => .httpError 409 message
  | lookupError message => .httpError 409 message
  | runtimeError message => .httpError 409 message
  | e => e

/-- The trade plan route from the levels to the ticket. -/
def strategyPlan (now : Time) (db : Database) (ownerId : Uuid) (setup : StrategySetup)
    (terms : LiveTradeTerms) : Except TaskError Approval :=
  if |setup.entry - setup.stopLoss| ≤ 0 then
    .error (.httpError 422 "entry and stop loss must differ")
  else if setup.stopFits = false then
    .error (.httpError 422 "stop loss is on the wrong side of entry")
  else if terms.quantityUnit ≠ setup.quantityUnit then
    .error (.httpError 409 "strategy quantity unit differs from broker lot unit")
  else (evaluatedStrategy now db ownerId setup terms).mapError TaskError.asConflict

end Matrades

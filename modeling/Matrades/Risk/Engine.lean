import Matrades.Risk.Exposure

/-!
# The risk engine

`RiskEngine.evaluate` of `modules/risk/engine.py` and the functions it calls: drawdown, reserved
risk, loss per unit, sizing and trade capacity. Fixed costs consume capacity before the size is
rounded down to the increment.

`evaluate` raises where a called function raises, and where the snapshot it reports would hold a
decimal that is not finite. Amounts are exact; of the decimal context, only the limit on the digits
of an integer quotient is kept.
-/

namespace Matrades

open Base

/-! ## The functions under the engine -/

def totalDrawdown (startingBalance currentEquity : ℚ) : ℚ := max 0 (startingBalance - currentEquity)

def dailyLoss (realizedDailyPnl floatingPnl : ℚ) : ℚ :=
  max 0 (-(realizedDailyPnl + min floatingPnl 0))

/-- One position's step of `reserved_risk`. -/
def reserveStep (includeUnrealizedProfit : Bool) (total : ℚ) (p : OpenPositionRisk) :
    Except String ℚ :=
  match p.remainingLossToStop with
  | none => .error ("unbounded risk for " ++ p.instrument)
  | some loss =>
    let total := total + max 0 loss
    .ok (if includeUnrealizedProfit then max 0 (total - max p.unrealizedPnl 0) else total)

/-- `reserved_risk`; the error is the text of its `ValueError`. -/
def reservedRisk (positions : List OpenPositionRisk) (includeUnrealizedProfit : Bool) :
    Except String ℚ :=
  positions.foldlM (reserveStep includeUnrealizedProfit) 0

/-- `type_aware_loss_per_unit`, without currency conversion. -/
def typeAwareLossPerUnit (instrumentType : InstrumentType) (entry stop contractMultiplier : ℚ)
    (tickSize tickValue : Option ℚ) : Except RiskError ℚ :=
  if contractMultiplier ≤ 0 then
    .error (.valueError "conversion and contract multiplier must be positive")
  else
    let distance := |entry - stop|
    if distance ≤ 0 then .error (.valueError "entry and stop must differ")
    else match instrumentType with
      | .futures =>
        match tickSize, tickValue with
        | some size, some value =>
          if size ≤ 0 ∨ value ≤ 0 then
            .error (.valueError "futures require positive tick size and tick value")
          else .ok (|distance / size| * value)
        | _, _ => .error (.valueError "futures require positive tick size and tick value")
      | _ => .ok (distance * contractMultiplier)

def notionalExposure (price quantity contractMultiplier : ℚ) : Except RiskError ℚ :=
  if min (min price quantity) contractMultiplier ≤ 0 then
    .error (.valueError "price, quantity, and multiplier must be positive")
  else .ok (price * quantity * contractMultiplier)

/-- The notional exposure of an approved size; nothing is computed for size 0. -/
def approvedNotional (c : CandidateTrade) (size : ℚ) : Except RiskError ℚ :=
  if 0 < size then notionalExposure c.entryPrice size c.contractMultiplier else .ok 0

def sizeForRisk (riskBudget perUnitLoss increment : ℚ) : Except RiskError ℚ :=
  if riskBudget ≤ 0 ∨ perUnitLoss ≤ 0 then .ok 0
  else match roundDown (riskBudget / perUnitLoss) increment with
    | .ok size => .ok size
    | .error message => .error (.valueError message)

/-- `min` of a nonempty list. -/
def leastOf (capacity : ℚ) (capacities : List ℚ) : ℚ := capacities.foldl min capacity

def compliantSize (requestedSize riskPerUnit : ℚ) (remainingCapacities : List ℚ) (increment : ℚ) :
    Except RiskError ℚ :=
  match remainingCapacities with
  | [] => .ok requestedSize
  | c :: cs => do
    let budget := max 0 (leastOf c cs)
    return min requestedSize (← sizeForRisk budget riskPerUnit increment)

/-- The digits of the decimal context. -/
def decimalDigits : Nat := 28

/-- `int(a // b)` of a nonnegative and a positive amount: the quotient has to fit the digits of the
context. -/
def integerQuotient (a b : ℚ) : Except RiskError Nat :=
  let quotient := ⌊a / b⌋.toNat
  if 10 ^ decimalDigits ≤ quotient then .error .invalidOperation else .ok quotient

def additionalTradeCapacity (staticMax openTrades : Nat) (remainingPortfolioRisk candidateRisk : ℚ) :
    Except RiskError Nat :=
  let slots := staticMax - openTrades
  if slots = 0 ∨ candidateRisk ≤ 0 then .ok 0
  else do
    let riskSlots ← integerQuotient (max 0 remainingPortfolioRisk) candidateRisk
    return min slots riskSlots

/-! ## Authority checks -/

def validateTypedCandidate (c : CandidateTrade) : Option String :=
  match c.instrumentType with
  | none => none
  | some instrumentType =>
    if c.venueInstrumentId = none then some "missing_venue_instrument_id"
    else if c.specificationVersionId = none then some "missing_specification_version_id"
    else if c.quantityUnit = none then some "missing_quantity_unit"
    else if instrumentType = .futures then
      if c.futuresContractId = none then some "missing_dated_futures_contract_id"
      else if c.tickSize = none ∨ c.tickValue = none then some "missing_futures_tick_terms"
      else none
    else none

/-- `str` of a specification's value. -/
def SpecValue.str : SpecValue → String
  | dec q => String.ofList (decText q)
  | text s => s

/-- Is the value true in a condition? -/
def SpecValue.truthy : SpecValue → Bool
  | dec q => q ≠ 0
  | text s => s ≠ ""

/-- Does the value equal the text? -/
def SpecValue.isText : SpecValue → String → Bool
  | dec _, _ => false
  | text s, t => s = t

def validateSpecificationAuthority (context : RiskContext) (c : CandidateTrade) : Option String :=
  match c.specificationVersionId with
  | none => some "missing_specification_version_id"
  | some id =>
    match context.instrumentSpecifications.get? id.str with
    | none => some "missing_effective_specification"
    | some specification =>
      if ((specification.get? "freshness").map SpecValue.str).getD "" ≠ "VALID" then
        some "stale_instrument_specification"
      else
        match context.currentSourceCutId, specification.get? "source_cut_id" with
        | some cut, some sourceCut =>
          if cut ≠ "" ∧ sourceCut.truthy = true ∧ sourceCut.isText cut = false then
            some "specification_source_cut_mismatch"
          else none
        | _, _ => none

/-- What `evaluate` checks before it looks at a limit. -/
def authorityError (context : RiskContext) (c : CandidateTrade) : Option String :=
  match validateTypedCandidate c with
  | some error => some error
  | none => if c.instrumentType = none then none else validateSpecificationAuthority context c

/-- The risk per unit `evaluate` works with: an untyped candidate's own, else the typed one. -/
def usedRiskPerUnit (c : CandidateTrade) : Except RiskError ℚ :=
  match c.instrumentType with
  | none => .ok c.riskPerUnit
  | some instrumentType =>
    typeAwareLossPerUnit instrumentType c.entryPrice c.stopLoss c.contractMultiplier c.tickSize
      c.tickValue

/-- The required kinds, in the order of their texts. -/
def requiredKinds : List ConstraintKind := [.maxDailyLoss, .maxPortfolioRisk, .maxTotalDrawdown]

def missingKinds (context : RiskContext) : List String :=
  (requiredKinds.filter fun k => (strictestApplicable context.constraints k).isNone).map
    ConstraintKind.value

/-- `needle in text`. -/
def hasFragment (needle text : String) : Bool :=
  text.toList.tails.any fun t => needle.toList.isPrefixOf t

def limitFromSource (context : RiskContext) (fragment : String) : Option ℚ :=
  match (context.constraints.filter fun c =>
    c.kind = .maxTotalDrawdown && hasFragment fragment c.source.toLower).map (·.value) with
  | [] => none
  | v :: vs => some (leastOf v vs)

/-! ## Blocked results -/

/-- Decimal fields of a snapshot are finite. -/
def finite (field : String) : Exposure → Except RiskError ℚ
  | some q => .ok q
  | none => .error (.validationError field)

def finiteExposures (exposures : Dict String Exposure) : Except RiskError (List (String × ℚ)) :=
  exposures.entries.mapM fun e => do
    return (e.1, ← finite "existing_correlated_exposure" e.2)

/-- The versions of the given constraints, sorted. -/
def constraintVersions (constraints : List EffectiveConstraint) : List String :=
  (constraints.map fun c => c.source ++ ":" ++ c.sourceVersion).mergeSort fun a b => a ≤ b

def blocked (context : RiskContext) (drawdown allowedDd remainingDd usedDaily remainingDaily : ℚ)
    (existing : Exposure) (reason : String) : Except RiskError RiskResult := do
  let exposures ← aggregateExposure context.positions none
  let existingOpenRisk ← finite "existing_open_risk" existing
  let existingCorrelatedExposure ← finiteExposures exposures
  return {
    decision := .hardBlock
    approvedSize := 0
    reasons := [reason]
    limitingConstraints := ["unbounded_open_position"]
    snapshot := {
      account := context.account
      currentDrawdown := drawdown
      dailyDrawdown := usedDaily
      maximumAllowedDrawdown := allowedDd
      propFirmDrawdownLimit := limitFromSource context "prop"
      internalDrawdownLimit := limitFromSource context "internal"
      remainingDrawdown := remainingDd
      dailyLossUsed := usedDaily
      dailyLossRemaining := remainingDaily
      existingOpenRisk
      existingCorrelatedExposure
      candidateTradeRisk := 0
      portfolioRiskAfterTrade := existingOpenRisk
      remainingTotalLossCapacity := remainingDd
      remainingPortfolioRiskCapacity := 0
      openTrades := context.positions.length
      maxConcurrentTrades := context.staticMaxConcurrentTrades
      additionalTradeCapacity := 0
      constraintVersions := constraintVersions context.constraints } }

def missingAuthority (context : RiskContext) (missing : List String) :
    Except RiskError RiskResult := do
  let drawdown := totalDrawdown context.account.startingBalance context.account.currentEquity
  let usedDaily := dailyLoss context.account.realizedDailyPnl context.account.floatingPnl
  let result ← blocked context drawdown 0 0 usedDaily 0 (0 : ℚ)
    ("required risk authority unavailable: " ++ String.intercalate ", " missing)
  return { result with limitingConstraints := missing }

/-! ## Evaluation -/

/-- `max(0, cap - exposure)`. -/
def remainingCap (cap : ℚ) : Exposure → ℚ
  | some exposure => max 0 (cap - exposure)
  | none => 0

/-- What is left of the cap of each correlated group, without the candidate. -/
def correlationRemaining (context : RiskContext) (held : Dict String Exposure) : List ℚ :=
  context.correlationCaps.entries.map fun e => remainingCap e.2 (held.total e.1)

/-- The groups whose cap the requested trade would exceed. -/
def violations (context : RiskContext) (exposures : Dict String Exposure) : List String :=
  (context.correlationCaps.entries.filter fun e => (e.2 : Exposure) < exposures.total e.1).map
    Prod.fst

/-- The effective limits `evaluate` requires. -/
structure RequiredLimits where
  drawdown : EffectiveConstraint
  daily : EffectiveConstraint
  portfolio : EffectiveConstraint

def requiredLimits (context : RiskContext) : Option RequiredLimits :=
  let limits := strictestApplicable context.constraints
  match limits .maxTotalDrawdown, limits .maxDailyLoss, limits .maxPortfolioRisk with
  | some drawdown, some daily, some portfolio => some ⟨drawdown, daily, portfolio⟩
  | _, _, _ => none

def remainingDrawdown (context : RiskContext) (limits : RequiredLimits) : ℚ :=
  max 0 (limits.drawdown.value -
    totalDrawdown context.account.startingBalance context.account.currentEquity)

def remainingDaily (context : RiskContext) (limits : RequiredLimits) : ℚ :=
  max 0 (limits.daily.value -
    dailyLoss context.account.realizedDailyPnl context.account.floatingPnl)

/-- The reserved risk of the positions and the active reservations. -/
def existingRisk (context : RiskContext) : Except String ℚ := do
  return (← reservedRisk context.positions context.includeUnrealizedProfit) +
    context.activeReservations.sum

/-- The sources of the limits that bind, and the groups in violation. -/
def limitingConstraints (context : RiskContext) (limits : RequiredLimits) (violated : List String) :
    List String :=
  let binding := [limits.drawdown.value, limits.daily.value, limits.portfolio.value]
  let sources := (limitValues context.constraints).filter (fun c => c.value ∈ binding)
  ((sources.map (·.source) ++ violated).eraseDups).mergeSort fun a b => a ≤ b

/-- A decision, the size it leaves, and its reason. -/
structure SizeDecision where
  decision : RiskDecision
  size : ℚ
  reason : String

/-- The decision about a compliant size. -/
def sizeDecision (context : RiskContext) (c : CandidateTrade) (size : ℚ) : SizeDecision :=
  if size ≤ 0 ∨ context.staticMaxConcurrentTrades ≤ context.positions.length then
    ⟨.hardBlock, 0, "candidate would breach an applicable hard limit"⟩
  else if size < c.requestedSize then
    ⟨.reduceSize, size, "requested size reduced to the strictest remaining capacity"⟩
  else ⟨.pass, size, "candidate fits all current hard limits"⟩

/-- `evaluate` once the authority and the required limits are there. -/
def assess (context : RiskContext) (c : CandidateTrade) (perUnit : ℚ) (limits : RequiredLimits) :
    Except RiskError RiskResult :=
  let drawdown := totalDrawdown context.account.startingBalance context.account.currentEquity
  let usedDaily := dailyLoss context.account.realizedDailyPnl context.account.floatingPnl
  let remainingDd := remainingDrawdown context limits
  let dailyRemaining := remainingDaily context limits
  match existingRisk context with
  | .error reason =>
    blocked context drawdown limits.drawdown.value remainingDd usedDaily dailyRemaining ⊤ reason
  | .ok existing => do
    let remainingPortfolio := max 0 (limits.portfolio.value - existing)
    let requestedRisk := c.requestedSize * perUnit + c.financingCost
    let exposures ← aggregateExposure context.positions (some (c, requestedRisk))
    let held ← aggregateExposure context.positions none
    let perTrade := (strictestApplicable context.constraints .maxRiskPerTrade).toList
    let others := dailyRemaining :: remainingPortfolio :: (perTrade.map (·.value) ++
      correlationRemaining context held)
    let netCapacities := (remainingDd :: others).map fun cap => max 0 (cap - c.financingCost)
    let rawSize ← compliantSize c.requestedSize perUnit netCapacities c.sizeIncrement
    -- the risk is that of the size before the trade-count check, as in the source
    let approvedRisk := rawSize * perUnit + (if 0 < rawSize then c.financingCost else 0)
    let capacity ← additionalTradeCapacity context.staticMaxConcurrentTrades
      context.positions.length (leastOf remainingDd others) (max approvedRisk requestedRisk)
    let decided := sizeDecision context c rawSize
    let notional ← approvedNotional c decided.size
    let existingCorrelatedExposure ← finiteExposures held
    return {
      decision := decided.decision
      approvedSize := decided.size
      reasons := [decided.reason]
      limitingConstraints := limitingConstraints context limits (violations context exposures)
      snapshot := {
        account := context.account
        currentDrawdown := drawdown
        dailyDrawdown := usedDaily
        maximumAllowedDrawdown := limits.drawdown.value
        propFirmDrawdownLimit := limitFromSource context "prop"
        internalDrawdownLimit := limitFromSource context "internal"
        remainingDrawdown := remainingDd
        dailyLossUsed := usedDaily
        dailyLossRemaining := dailyRemaining
        existingOpenRisk := existing
        existingCorrelatedExposure
        candidateTradeRisk := approvedRisk
        portfolioRiskAfterTrade := existing + approvedRisk
        remainingTotalLossCapacity := remainingDd
        remainingPortfolioRiskCapacity := remainingPortfolio
        openTrades := context.positions.length
        maxConcurrentTrades := context.staticMaxConcurrentTrades
        additionalTradeCapacity := capacity
        constraintVersions := constraintVersions (limitValues context.constraints)
        assetClass := c.assetClass
        instrumentType := c.instrumentType
        venueInstrumentId := c.venueInstrumentId
        futuresContractId := c.futuresContractId
        specificationVersionId := c.specificationVersionId
        quantityUnit := c.quantityUnit
        notionalExposure := notional
        marginRequired := c.marginRequired
        financingCost := c.financingCost } }

/-- `RiskEngine.evaluate`. -/
def evaluate (context : RiskContext) (c : CandidateTrade) : Except RiskError RiskResult :=
  match authorityError context c with
  | some error => missingAuthority context [error]
  | none => do
    let perUnit ← usedRiskPerUnit c
    match requiredLimits context with
    | none => missingAuthority context (missingKinds context)
    | some limits => assess context c perUnit limits

end Matrades

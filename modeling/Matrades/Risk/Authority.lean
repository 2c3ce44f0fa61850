import Matrades.Base.Result
import Matrades.Risk.Engine
import Matrades.Risk.Reservations
import Matrades.Trading.Authority

/-!
# The authoritative risk context

`authoritative_risk_context` of `modules/risk/authority.py`: the context in which a candidate is
evaluated, from the stored account, its last broker snapshot, the active policies, the specifications
and the active reservations. The positions get their category from their symbol; the caps get the
groups of the candidate. Letters are those of ASCII.
-/

namespace Matrades

open Base

/-! ## Positions -/

/-- `symbol.upper().replace("-", "")`. -/
def normalizedSymbol (symbol : String) : List Char :=
  (symbol.toList.map Char.toUpper).filter (· ≠ '-')

/-- Does the text start with one of the prefixes? -/
def startsWithAny (text : List Char) (prefixes : List String) : Bool :=
  prefixes.any fun p => p.toList.isPrefixOf text

/-- `_category`. -/
def category (symbol : String) : String :=
  let normalized := normalizedSymbol symbol
  if startsWithAny normalized ["BTC", "ETH", "SOL", "XRP"] then "crypto"
  else if startsWithAny normalized ["XAU", "XAG", "XPT", "XPD"] then "metals"
  else "forex"

/-- `_currency_exposures`. -/
def currencyExposures (symbol : String) : Dict String ℚ :=
  let normalized := normalizedSymbol symbol
  if 6 ≤ normalized.length ∧ (normalized.take 6).all Char.isAlpha = true then
    .ofList [(String.ofList (normalized.take 3), 1),
      (String.ofList ((normalized.drop 3).take 3), -1)]
  else .empty

/-- The loss to the stop, of a position that has one. -/
def BrokerPosition.remainingLoss (p : BrokerPosition) : Option ℚ :=
  if p.stopLoss.any (0 < ·) then p.lossToStopAccountCurrency else none

def positionRisk (p : BrokerPosition) : OpenPositionRisk where
  instrument := p.symbol
  marketCategory := category p.symbol
  currencyExposures := currencyExposures p.symbol
  remainingLossToStop := p.remainingLoss
  unrealizedPnl := p.pnl

/-! ## Policies -/

def PolicyKind.sourcePrefix : PolicyKind → String
  | propRuleset => "prop"
  | guardrail => "internal"

/-- The constraints of one policy. -/
def policyConstraints (row : Row Uuid ResourceState PolicyData) : List EffectiveConstraint :=
  row.data.rules.map fun rule => {
    kind := rule.kind
    value := rule.value
    source := row.data.kind.sourcePrefix ++ ":" ++ row.data.name.getD row.id.str
    sourceVersion := toString row.version
    enforcement := rule.enforcement }

/-- The constraints of the active policies for the account, prop rulesets first. -/
def activeConstraints (db : Database) (ownerId accountId : Uuid) : List EffectiveConstraint :=
  [PolicyKind.propRuleset, .guardrail].flatMap fun kind =>
    ((Table.listed db.policies ownerId ResourceState.kept).filter fun row =>
      row.data.kind = kind ∧ row.state = .active ∧
        (row.data.accountId = none ∨ row.data.accountId = some accountId)).flatMap policyConstraints

/-- The values of the constraints of a kind, hard and soft. -/
def valuesOf (constraints : List EffectiveConstraint) (kind : ConstraintKind) : List ℚ :=
  (constraints.filter (·.kind = kind)).map (·.value)

/-- `int(value)`. -/
def truncated (value : ℚ) : ℤ := value.num.tdiv value.den

def maxConcurrent (constraints : List EffectiveConstraint) : ℤ :=
  match (valuesOf constraints .maxConcurrentTrades).map truncated with
  | [] => 3
  | v :: vs => vs.foldl min v

/-- The least MAX_CORRELATED_RISK value. -/
def correlatedLimit (constraints : List EffectiveConstraint) : Option ℚ :=
  match valuesOf constraints .maxCorrelatedRisk with
  | [] => none
  | v :: vs => some (leastOf v vs)

/-- The groups of the candidate that are capped. -/
def exposureGroups (c : CandidateTrade) : List String :=
  categoryGroup c.marketCategory :: c.currencyExposures.keys.map currencyGroup

def correlationCaps (c : CandidateTrade) (limit : Option ℚ) : Dict String ℚ :=
  match limit with
  | some limit => .ofList ((exposureGroups c).map fun group => (group, limit))
  | none => .empty

/-! ## Specifications -/

/-- The stored specifications of the candidate's listing. -/
def candidateSpecifications (db : Database) (ownerId : Uuid) (c : CandidateTrade) :
    List (Row Uuid ResourceState SpecificationData) :=
  (Table.listed db.instrumentSpecifications ownerId ResourceState.kept ++
    Table.listed db.typedInstruments ownerId ResourceState.kept).filter fun row =>
      row.data.specificationId.isSome ∧
        strOption row.data.venueInstrumentId = strOption c.venueInstrumentId

def SpecificationData.sourceCut (data : SpecificationData) : String :=
  (orText data.sourceCutId data.provenanceSourceCutId).getD ""

/-- The values of a specification that the engine reads. -/
def specificationTerms (data : SpecificationData) : Dict String SpecValue :=
  .ofList [
    ("freshness", .text (data.freshness.getD "INVALID")),
    ("source_cut_id", .text data.sourceCut),
    ("contract_multiplier", .dec (data.contractMultiplier.getD 1)),
    ("tick_size", .dec (data.tickSize.getD 0)),
    ("tick_value", .dec (data.tickValue.getD 0))]

def specificationsById (rows : List (Row Uuid ResourceState SpecificationData)) :
    Dict String (Dict String SpecValue) :=
  .ofList (rows.map fun row => (row.data.specificationId.getD "", specificationTerms row.data))

/-- The last updated source cut and its time, after one more specification. -/
def latestSourceCut (latest : Option (String × Time))
    (row : Row Uuid ResourceState SpecificationData) : Option (String × Time) :=
  if row.data.sourceCut ≠ "" ∧ latest.all (·.2 < row.updatedAt) = true then
    some (row.data.sourceCut, row.updatedAt)
  else latest

def currentSourceCut (rows : List (Row Uuid ResourceState SpecificationData)) : Option String :=
  (rows.foldl latestSourceCut none).map (·.1)

/-! ## The context -/

/-- The account as the snapshot shows it. -/
def accountSnapshot (account : AccountData) (broker : BrokerSnapshot) : AccountSnapshot where
  accountId := broker.accountId
  startingBalance := account.startingBalance
  currentBalance := broker.balance
  currentEquity := broker.equity
  floatingPnl := broker.equity - broker.balance
  realizedDailyPnl := broker.realizedDailyPnl
  observedAt := broker.observedAt
  source := "MT5_READ_ONLY_BRIDGE"
  sourceVersion := "sequence:" ++ toString broker.sequence
  consistentEquity := by simp

/-- Is the currency the broker reports, if any, another one than the account's? -/
def currencyDiffers (account : AccountData) (broker : BrokerSnapshot) : Bool :=
  broker.accountCurrency.any fun currency =>
    currency ≠ "" && currency.toUpper ≠ account.currency.toUpper

/-- What an account and its last snapshot have to meet. -/
def validateAccount (now : Time) (account : AccountData) (broker : BrokerSnapshot) :
    Except TaskError Unit :=
  if currencyDiffers account broker then
    .error (.httpError 409
      "broker account currency differs from configured trading account currency")
  else match validateSnapshot now broker with
    | .error (.valueError message) => .error (.httpError 409 message)
    | r => r

/-- The active account. -/
def activeAccount (db : Database) (ownerId accountId : Uuid) :
    Option (Row Uuid ResourceState AccountData) :=
  db.accounts.find? fun r => r.id = accountId ∧ r.ownerId = ownerId ∧ r.state = .active

/-- The account and its last snapshot. -/
def accountAuthority (now : Time) (db : Database) (ownerId accountId : Uuid) :
    Except TaskError (AccountData × BrokerSnapshot) := do
  let account ← orError (activeAccount db ownerId accountId)
    (.httpError 404 "active account not found")
  let last ← orError (accountSnapshots db ownerId accountId).head?
    (.httpError 409 "fresh broker equity snapshot required before risk evaluation")
  validateAccount now account.data last.data
  return (account.data, last.data)

/-- The context over the account's constraints. -/
def riskContext (db : Database) (ownerId accountId : Uuid) (account : AccountData)
    (broker : BrokerSnapshot) (c : CandidateTrade) : RiskContext :=
  let constraints := activeConstraints db ownerId accountId
  let specifications := candidateSpecifications db ownerId c
  { account := accountSnapshot account broker
    constraints
    positions := broker.positions.map positionRisk
    correlationCaps := correlationCaps c (correlatedLimit constraints)
    staticMaxConcurrentTrades := (maxConcurrent constraints).toNat
    includeUnrealizedProfit := false
    instrumentSpecifications := specificationsById specifications
    currentSourceCutId := currentSourceCut specifications
    activeReservations := db.activeAmounts ownerId accountId
    accountCurrencyVerified := broker.accountCurrency.any (· ≠ "") }

/-- The check of the context's field `static_max_concurrent_trades`. -/
def validateCount (count : ℤ) : Except TaskError Unit :=
  if count < 0 then
    .error (.valueError "static_max_concurrent_trades: Input should be greater than or equal to 0")
  else .ok ()

/-- `authoritative_risk_context`. -/
def authoritativeRiskContext (now : Time) (db : Database) (ownerId accountId : Uuid)
    (c : CandidateTrade) : Except TaskError RiskContext := do
  let (account, broker) ← accountAuthority now db ownerId accountId
  validateCount (maxConcurrent (activeConstraints db ownerId accountId))
  return riskContext db ownerId accountId account broker c

end Matrades

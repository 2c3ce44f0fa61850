import Matrades.Trading.Coordinator

/-!
# Live terms and tickets

`load_live_trade_terms` of `modules/risk/live_terms.py`, over the instrument records it lists, and
`build_trade_ticket` of `modules/trading/ticket.py` with its amounts. The coordinator keeps the
summary of a ticket only (`priceTicket_summary`).
-/

namespace Matrades

open Base

/-! ## Live terms -/

/-- `InstrumentSpecificationVersion`, as far as live terms read it, with its `valid_terms`. -/
structure BrokerSpecification where
  venueInstrumentId : Uuid
  priceCurrency : String
  quantityUnit : QuantityUnit
  contractMultiplier : ℚ := 1
  tickSize : ℚ := 1 / 100000
  tickValue : Option ℚ := none
  quantityMinimum : ℚ := 1 / 100
  quantityMaximum : Option ℚ := none
  quantityStep : ℚ := 1 / 100
  /-- `provenance["execution_authority"]` -/
  executionAuthority : Option String := none
  freshness : String := "VALID"
  contractMultiplier_pos : 0 < contractMultiplier
  tickSize_pos : 0 < tickSize
  quantityMinimum_pos : 0 < quantityMinimum
  quantityStep_pos : 0 < quantityStep

/-- A `typed_instrument` record, as far as live terms read it. -/
structure InstrumentRecord where
  state : ResourceState
  accountId : Option String
  specificationVersionId : Option String
  quantityUnit : Option String
  executable : Bool
  /-- Missing where it is no object, an error where it does not validate. -/
  specification : Option (Except String BrokerSpecification)

/-- The record of the account's specification. -/
def InstrumentRecord.isFor (record : InstrumentRecord) (accountId specificationVersionId : Uuid) :
    Bool :=
  record.state ≠ .deleted && record.accountId = some accountId.str &&
    record.specificationVersionId = some specificationVersionId.str && record.specification.isSome

/-- The terms of a specification, for an account in the currency. -/
def BrokerSpecification.terms (specification : BrokerSpecification)
    (accountCurrency : String) (quantityMaximum : ℚ) : LiveTradeTerms where
  accountCurrency := accountCurrency
  quantityUnit := specification.quantityUnit
  contractMultiplier := specification.contractMultiplier
  tickSize := specification.tickSize
  tickValue := specification.tickValue
  quantityMinimum := specification.quantityMinimum
  quantityMaximum := quantityMaximum
  quantityStep := specification.quantityStep
  contractMultiplier_pos := specification.contractMultiplier_pos
  tickSize_pos := specification.tickSize_pos
  quantityMinimum_pos := specification.quantityMinimum_pos
  quantityStep_pos := specification.quantityStep_pos

/-- The checks of a record's specification. -/
def InstrumentRecord.terms (record : InstrumentRecord)
    (specification : BrokerSpecification) (accountCurrency : String)
    (venueInstrumentId : Uuid) (instrumentType : InstrumentType) : Except TaskError LiveTradeTerms :=
  if specification.venueInstrumentId ≠ venueInstrumentId ∨
      some specification.quantityUnit.value ≠ record.quantityUnit ∨
      record.executable = false ∨ specification.freshness ≠ "VALID" then
    .error (.valueError "current executable broker specification is required")
  else if instrumentType = .cfd ∧ specification.executionAuthority ≠ some "MT5_BROKER" then
    .error (.valueError
      "broker-native CFD terms are required; research proxies cannot size trades")
  else if specification.priceCurrency.toUpper ≠ accountCurrency then
    .error (.valueError
      "verified account-currency conversion is unavailable for this instrument")
  else
    match specification.quantityMaximum with
    | none => .error (.valueError "broker maximum volume is required")
    | some maximum =>
      if maximum < specification.quantityMinimum then
        .error (.valueError "invalid broker volume bounds")
      else .ok (specification.terms accountCurrency maximum)

/-- The account's currency, verified. -/
def accountCurrency (db : Database) (ownerId accountId : Uuid) : Except TaskError String :=
  match (Table.get? db.accounts accountId ownerId).filter fun row => row.state = .active with
  | none => .error (.valueError "active trading account is required")
  | some row =>
    let currency := row.data.currency.toUpper
    if currency.length ≠ 3 ∨ currency.toList.all Char.isAlpha = false then
      .error (.valueError "verified three-letter account currency is required")
    else .ok currency

/-- `load_live_trade_terms`: the first record of the account's specification decides. -/
def loadLiveTradeTerms (db : Database) (records : List InstrumentRecord)
    (ownerId accountId venueInstrumentId specificationVersionId : Uuid)
    (instrumentType : InstrumentType) : Except TaskError LiveTradeTerms := do
  let currency ← accountCurrency db ownerId accountId
  match records.find? fun record => record.isFor accountId specificationVersionId with
  | none => .error (.valueError "current account-scoped broker specification is required")
  | some record =>
    match record.specification with
    | some (.ok specification) =>
      record.terms specification currency venueInstrumentId instrumentType
    | some (.error message) => .error (.valueError message)
    | none => .error .infrastructure

/-- A specification with its record and its maximum, from which the terms come. -/
structure TermsOf (records : List InstrumentRecord) (terms : LiveTradeTerms)
    (specification : BrokerSpecification) : Prop where
  listed : ∃ record ∈ records, record.specification = some (.ok specification)
  current : specification.freshness = "VALID"
  currency : specification.priceCurrency.toUpper = terms.accountCurrency
  maximum : specification.quantityMaximum = some terms.quantityMaximum
  same : terms = specification.terms terms.accountCurrency terms.quantityMaximum

/-- **Live terms are those of a listed specification.** -/
theorem loadLiveTradeTerms_ok {db : Database} {records : List InstrumentRecord}
    {ownerId accountId venueInstrumentId specificationVersionId : Uuid}
    {instrumentType : InstrumentType} {terms : LiveTradeTerms}
    (h : loadLiveTradeTerms db records ownerId accountId venueInstrumentId specificationVersionId
      instrumentType = .ok terms) : ∃ specification, TermsOf records terms specification := by
  obtain ⟨currency, _, h⟩ := ok_of_bind h
  split at h
  · cases h
  rename_i record hfind
  have hmem : record ∈ records := List.mem_of_find?_eq_some hfind
  split at h
  · rename_i specification hspecification
    unfold InstrumentRecord.terms at h
    obtain ⟨hcurrent, h⟩ := ok_of_guard h
    obtain ⟨_, h⟩ := ok_of_guard h
    obtain ⟨hcurrency, h⟩ := ok_of_guard h
    split at h
    · cases h
    rename_i maximum hmaximum
    obtain ⟨_, h⟩ := ok_of_guard h
    cases h
    simp only [not_or, not_not] at hcurrent hcurrency
    exact ⟨specification, ⟨record, hmem, hspecification⟩, hcurrent.2.2.2, hcurrency, hmaximum, rfl⟩
  · cases h
  · cases h

/-! ## Tickets -/

structure TargetScenario where
  price : ℚ
  profitBeforeCosts : ℚ
  researchFraction : Option ℚ
  brokerHardTakeProfit : Bool

/-- A `TradeTicket` with its amounts. -/
structure PricedTicket where
  accountCurrency : String
  requestedRiskLimit : ℚ
  potentialLossBeforeCosts : ℚ
  targets : List TargetScenario

/-- What the coordinator keeps of a ticket. -/
def PricedTicket.summary (ticket : PricedTicket) : TradeTicket :=
  ⟨ticket.accountCurrency, ticket.targets.map (·.researchFraction)⟩

/-- The scenarios of the targets for the size; the first target is the broker's. -/
def targetScenarios (size : ℚ) (targets profits : List ℚ) (fractions : List (Option ℚ)) :
    List TargetScenario :=
  (targets.zip (profits.zip fractions)).mapIdx fun index (price, profit, fraction) =>
    ⟨price, size * profit, fraction, index = 0⟩

/-- `build_trade_ticket`. -/
def priceTicket (terms : LiveTradeTerms) (construction : TradeConstruction)
    (fractions : List (Option ℚ)) (riskLimit : ℚ) (risk : RiskResult) :
    Except TaskError PricedTicket := do
  let ticket ← buildTradeTicket terms construction fractions riskLimit risk
  let loss ← priceScenario terms construction construction.stopLoss
  let profits ← construction.targets.mapM (targetScenario terms construction)
  return {
    accountCurrency := ticket.accountCurrency
    requestedRiskLimit := riskLimit
    potentialLossBeforeCosts := risk.approvedSize * loss
    targets := targetScenarios risk.approvedSize construction.targets profits fractions }

section
variable {terms : LiveTradeTerms} {construction : TradeConstruction} {fractions : List (Option ℚ)}
  {riskLimit : ℚ} {risk : RiskResult} {ticket : TradeTicket}

/-- What a ticket has been checked for. -/
structure Ticketed (terms : LiveTradeTerms) (construction : TradeConstruction)
    (fractions : List (Option ℚ)) (risk : RiskResult) (ticket : TradeTicket) : Prop where
  size : terms.validateSize risk.approvedSize = .ok ()
  stop : construction.losesAt construction.stopLoss = true
  lengths : construction.targets.length = fractions.length
  targets : ∀ target ∈ construction.targets, construction.winsAt target = true
  loss : Returns (priceScenario terms construction construction.stopLoss)
  profits : Returns (construction.targets.mapM (targetScenario terms construction))
  summary : ticket = ⟨terms.accountCurrency, fractions⟩

theorem buildTradeTicket_ok
    (h : buildTradeTicket terms construction fractions riskLimit risk = .ok ticket) :
    Ticketed terms construction fractions risk ticket := by
  unfold buildTradeTicket at h
  obtain ⟨_, h⟩ := ok_of_guard h
  obtain ⟨_, hsize, h⟩ := ok_of_bind h
  obtain ⟨hstop, h⟩ := ok_of_guard h
  obtain ⟨hlengths, h⟩ := ok_of_guard h
  obtain ⟨htargets, h⟩ := ok_of_guard h
  obtain ⟨_, h⟩ := ok_of_guard h
  obtain ⟨loss, hloss, h⟩ := ok_of_bind h
  obtain ⟨profits, hprofits, h⟩ := ok_of_bind h
  obtain ⟨_, _, h⟩ := ok_of_bind h
  cases h
  refine ⟨hsize, by simpa using hstop, not_not.1 hlengths, ?_, ⟨loss, hloss⟩, ⟨profits, hprofits⟩, rfl⟩
  simpa using htargets

theorem targetScenarios_fractions {size : ℚ} {targets profits : List ℚ}
    (hprofits : profits.length = targets.length) (hfractions : targets.length = fractions.length) :
    (targetScenarios size targets profits fractions).map (·.researchFraction) = fractions := by
  apply List.ext_getElem
  · simp [targetScenarios, hprofits, hfractions]
  · intro n hn hn'
    simp [targetScenarios]

/-- **The ticket the coordinator keeps is the summary of the priced one.** -/
theorem priceTicket_summary
    (h : buildTradeTicket terms construction fractions riskLimit risk = .ok ticket) :
    ∃ priced loss, priceTicket terms construction fractions riskLimit risk = .ok priced ∧
      priced.summary = ticket ∧ priceScenario terms construction construction.stopLoss = .ok loss ∧
      priced.potentialLossBeforeCosts = risk.approvedSize * loss := by
  have hticketed := buildTradeTicket_ok h
  obtain ⟨loss, hloss⟩ := hticketed.loss
  obtain ⟨profits, hprofits⟩ := hticketed.profits
  have hlength : profits.length = construction.targets.length :=
    (ok_of_mapM hprofits).length_eq.symm
  refine ⟨⟨ticket.accountCurrency, riskLimit, risk.approvedSize * loss,
    targetScenarios risk.approvedSize construction.targets profits fractions⟩, loss, ?_, ?_, hloss, rfl⟩
  · exact (bind_ok_eq h _).trans ((bind_ok_eq hloss _).trans (bind_ok_eq hprofits _))
  · rw [hticketed.summary]
    unfold PricedTicket.summary
    dsimp only
    rw [targetScenarios_fractions hlength hticketed.lengths]

end

end Matrades

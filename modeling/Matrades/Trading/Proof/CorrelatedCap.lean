import Matrades.Risk.Proof.Approval
import Matrades.Trading.Candidates
import Matrades.Worker.Proof.Management

/-!
# The cap on correlated risk

The context groups positions by `_category` of their symbols, and caps the group of the candidate's
own market category. The cap bounds the positions in the candidate's market only where both names
agree, and that is so for the forex and crypto candidates of the strategies route alone. Everywhere
else an approval may exceed the cap by the whole loss of the positions in its market
(`correlated_cap_iff`), unless the book has none, or has a position without a positive remaining loss:
that one counts as infinite, and nothing is approved beside it.
-/

namespace Matrades

open Base

/-- The builders, with what decides the market of their candidates. -/
inductive CandidatePath
  | coordinator (assetClass : AssetClass)
  | strategies (category : MarketCategory)
  deriving DecidableEq

namespace CandidatePath

/-- The category of the positions in the market of the path's candidates; stocks have none. -/
def positionCategory : CandidatePath → Option String
  | coordinator .forex => some "forex"
  | coordinator .metals => some "metals"
  | coordinator .cryptocurrency => some "crypto"
  | coordinator .stocks => none
  | strategies .forex => some "forex"
  | strategies .metal => some "metals"
  | strategies .crypto => some "crypto"

/-- The market category of the path's candidates. -/
def group : CandidatePath → String
  | coordinator assetClass => assetClass.value
  | strategies category => lowered category.value

def inMarket (path : CandidatePath) (p : BrokerPosition) : Bool :=
  path.positionCategory = some (category p.symbol)

/-- The remaining loss of the positions in the market. -/
def marketLoss (path : CandidatePath) (book : List BrokerPosition) : ℚ :=
  ((book.filter path.inMarket).map fun p => p.remainingLoss.getD 0).sum

/-- The path evaluates a plan of the account with this approval. -/
def Evaluates (path : CandidatePath) (now : Time) (db : Database) (ownerId accountId : Uuid)
    (a : Approval) : Prop :=
  match path with
  | coordinator assetClass => ∃ plan loaded, plan.ownerId = ownerId ∧ plan.accountId = accountId ∧
      plan.construction.assetClass = assetClass ∧ authorizeEntry now db plan loaded = .ok (some a)
  | strategies category => ∃ setup terms, setup.accountId = accountId ∧ setup.category = category ∧
      strategyPlan now db ownerId setup terms = .ok a

/-- Beside this book, whatever the path approves keeps the market within the cap. -/
def Capped (path : CandidatePath) (book : List BrokerPosition) : Prop :=
  ∀ now db ownerId accountId a limit,
    (accountSnapshots db ownerId accountId).head?.map (·.data.positions) = some book →
    correlatedLimit (activeConstraints db ownerId accountId) = some limit →
    path.Evaluates now db ownerId accountId a → a.result.decision ≠ .hardBlock →
    path.marketLoss book + a.result.snapshot.candidateTradeRisk ≤ limit

end CandidatePath

/-! ## Categories -/

theorem category_cases (symbol : String) :
    category symbol = "crypto" ∨ category symbol = "metals" ∨ category symbol = "forex" := by
  unfold category
  dsimp only
  split
  · exact .inl rfl
  split
  · exact .inr (.inl rfl)
  · exact .inr (.inr rfl)

/-- The names of the market agree for two paths only; of the others, the group is no position's. -/
theorem group_agrees (path : CandidatePath) :
    ((path = .strategies .forex ∨ path = .strategies .crypto) ∧
        path.positionCategory = some path.group) ∨
      (¬(path = .strategies .forex ∨ path = .strategies .crypto) ∧
        ∀ symbol, category symbol ≠ path.group) := by
  have hother : path.group ≠ "crypto" → path.group ≠ "metals" → path.group ≠ "forex" →
      ∀ symbol, category symbol ≠ path.group := by
    intro hcrypto hmetals hforex symbol h
    rcases category_cases symbol with hc | hc | hc <;> rw [hc] at h
    · exact hcrypto h.symm
    · exact hmetals h.symm
    · exact hforex h.symm
  rcases path with assetClass | category
  · refine .inr ⟨by simp, ?_⟩
    cases assetClass <;> exact hother (by decide) (by decide) (by decide)
  · cases category
    · exact .inl ⟨.inl rfl, by decide⟩
    · exact .inr ⟨by simp, hother (by decide) (by decide) (by decide)⟩
    · exact .inl ⟨.inr rfl, by decide⟩

/-! ## Risk of positions -/

/-- A position without a positive remaining loss counts as infinite. -/
theorem positionRisk_eq_top (p : BrokerPosition) :
    (positionRisk p).risk = ⊤ ↔ p.remainingLoss = none ∨ p.remainingLoss = some 0 := by
  cases hloss : p.remainingLoss with
  | none => simp [OpenPositionRisk.risk, positionRisk, hloss]
  | some loss => simp [OpenPositionRisk.risk, positionRisk, hloss]

theorem remainingLoss_nonneg (p : BrokerPosition) : 0 ≤ p.remainingLoss.getD 0 := by
  unfold BrokerPosition.remainingLoss
  split
  · cases hloss : p.lossToStopAccountCurrency with
    | none => exact le_refl 0
    | some loss => exact p.loss_nonneg loss hloss
  · exact le_refl 0

/-- The losses of a category's positions, where its risk is finite. -/
theorem losses_of_categoryRisk {book : List BrokerPosition} {c : String} {x : ℚ}
    (h : categoryRisk (book.map positionRisk) c = (x : Exposure)) :
    ((book.filter fun p => category p.symbol = c).map fun p => p.remainingLoss.getD 0).sum = x := by
  induction book generalizing x with
  | nil => exact WithTop.coe_injective h
  | cons p book ih =>
    by_cases hc : category p.symbol = c
    · have hsum : (positionRisk p).risk + categoryRisk (book.map positionRisk) c = (x : Exposure) := by
        rw [← h]
        simp [categoryRisk, positionRisk, hc]
      obtain ⟨own, rest, hown, hrest, hadd⟩ := WithTop.add_eq_coe.1 hsum
      have hloss : p.remainingLoss.getD 0 = own := by
        cases hl : p.remainingLoss with
        | none => simp [OpenPositionRisk.risk, positionRisk, hl] at hown
        | some loss =>
          by_cases hzero : loss = 0
          · simp [OpenPositionRisk.risk, positionRisk, hl, hzero] at hown
          · simp [OpenPositionRisk.risk, positionRisk, hl, hzero] at hown
            exact hown.symm
      rw [List.filter_cons_of_pos (by simpa using hc), List.map_cons, List.sum_cons, hloss,
        ih hrest.symm, hadd]
    · have hsame : categoryRisk (book.map positionRisk) c = (x : Exposure) := by
        rw [← h]
        simp [categoryRisk, positionRisk, hc]
      rw [List.filter_cons_of_neg (by simpa using hc), ih hsame]

/-! ## What an approval was measured against -/

/-- The approval of a candidate, in the context of the account's last snapshot. -/
structure Measured (db : Database) (ownerId accountId : Uuid) (group : String) (a : Approval) :
    Prop where
  context : ∃ account broker, (accountSnapshots db ownerId accountId).head?.map (·.data) = some broker ∧
    a.context = riskContext db ownerId accountId account broker a.candidate
  grouped : a.candidate.marketCategory = group
  evaluated : ∃ result, evaluate a.context a.candidate = .ok result ∧
    (a.result.decision ≠ .hardBlock → a.result = result)

theorem evaluated_measured {now : Time} {db : Database} {ownerId accountId : Uuid}
    {c : CandidateTrade} {a : Approval} (h : evaluated now db ownerId accountId c = .ok a) :
    Measured db ownerId accountId c.marketCategory a ∧ a.candidate = c := by
  obtain ⟨context, hcontext, h⟩ := ok_of_bind h
  obtain ⟨result, hresult, h⟩ := ok_of_bind h
  cases h
  obtain ⟨⟨account, broker⟩, hauthority, hcontext⟩ := ok_of_bind hcontext
  obtain ⟨_, _, hcontext⟩ := ok_of_bind hcontext
  cases hcontext
  obtain ⟨row, _, hauthority⟩ := ok_of_bind hauthority
  obtain ⟨last, hlast, hauthority⟩ := ok_of_bind hauthority
  obtain ⟨_, _, hauthority⟩ := ok_of_bind hauthority
  cases hauthority
  have hbroker : (accountSnapshots db ownerId accountId).head?.map (·.data) = some last.data := by
    rw [orError_eq_ok.1 hlast]
    rfl
  refine ⟨⟨⟨row.data, last.data, hbroker, rfl⟩, rfl, result, ?_, fun _ => rfl⟩, rfl⟩
  cases hrun : evaluate (riskContext db ownerId accountId row.data last.data c) c with
  | error e =>
    rw [hrun] at hresult
    cases hresult
  | ok r =>
    rw [hrun] at hresult
    cases hresult
    rfl

theorem withTermAuthority_eq {result : RiskResult} {context : RiskContext}
    (h : (result.withTermAuthority context).decision ≠ .hardBlock) :
    result.withTermAuthority context = result := by
  unfold RiskResult.withTermAuthority at h ⊢
  dsimp only at h ⊢
  split at h <;> split at h
  · rw [if_pos ‹_›, if_pos ‹_›]
  · exact absurd rfl h
  · exact absurd rfl h
  · exact absurd rfl h

theorem typedCandidate_category {db : Database} {plan : TradePlan} {terms : Option LiveTradeTerms}
    {c : CandidateTrade} (h : typedCandidate db plan terms = .ok c) :
    c.marketCategory = plan.construction.assetClass.value := by
  obtain ⟨specification, _, h⟩ := ok_of_bind h
  obtain ⟨perUnit, _, h⟩ := ok_of_bind h
  obtain ⟨increment, _, h⟩ := ok_of_bind h
  obtain ⟨margin, _, h⟩ := ok_of_bind h
  obtain ⟨financing, _, h⟩ := ok_of_bind h
  cases terms <;> cases h <;> rfl

theorem evaluatedPlan_measured {now : Time} {db : Database} {plan : TradePlan}
    {terms : Option LiveTradeTerms} {a : Approval} (h : evaluatedPlan now db plan terms = .ok a) :
    Measured db plan.ownerId plan.accountId plan.construction.assetClass.value a := by
  obtain ⟨c, hc, h⟩ := ok_of_bind h
  obtain ⟨approval, happroval, h⟩ := ok_of_bind h
  obtain ⟨hmeasured, _⟩ := evaluated_measured happroval
  rw [typedCandidate_category hc] at hmeasured
  cases terms with
  | none =>
    cases h
    exact hmeasured
  | some terms =>
    cases h
    obtain ⟨result, hresult, hsame⟩ := hmeasured.evaluated
    refine ⟨hmeasured.context, hmeasured.grouped, result, hresult, fun hdecision => ?_⟩
    have hkept := withTermAuthority_eq hdecision
    rw [hkept] at hdecision ⊢
    exact hsame hdecision

theorem authorizeEntry_measured {now : Time} {db : Database} {plan : TradePlan}
    {loaded : Option LiveTradeTerms} {a : Approval}
    (h : authorizeEntry now db plan loaded = .ok (some a)) :
    Measured db plan.ownerId plan.accountId plan.construction.assetClass.value a := by
  have hsome : ∀ {terms : Option LiveTradeTerms},
      (some <$> evaluatedPlan now db plan terms) = .ok (some a) →
      Measured db plan.ownerId plan.accountId plan.construction.assetClass.value a := by
    intro terms hterms
    cases hrun : evaluatedPlan now db plan terms with
    | error e =>
      rw [hrun] at hterms
      cases hterms
    | ok approval =>
      rw [hrun] at hterms
      cases hterms
      exact evaluatedPlan_measured hrun
  unfold authorizeEntry at h
  split at h
  · cases h
  obtain ⟨_, _, h⟩ := ok_of_bind h
  split at h
  · exact hsome h
  · split at h
    · cases h
    · exact hsome h

theorem evaluatedStrategy_measured {now : Time} {db : Database} {ownerId : Uuid}
    {setup : StrategySetup} {terms : LiveTradeTerms} {a : Approval}
    (h : evaluatedStrategy now db ownerId setup terms = .ok a) :
    Measured db ownerId setup.accountId (lowered setup.category.value) a := by
  obtain ⟨c, hc, h⟩ := ok_of_bind h
  obtain ⟨approval, happroval, h⟩ := ok_of_bind h
  have hcategory : c.marketCategory = lowered setup.category.value := by
    obtain ⟨requested, _, hc⟩ := ok_of_bind hc
    obtain ⟨size, _, hc⟩ := ok_of_bind hc
    obtain ⟨entry, _, hc⟩ := ok_of_bind hc
    obtain ⟨stop, _, hc⟩ := ok_of_bind hc
    obtain ⟨perUnit, _, hc⟩ := ok_of_bind hc
    cases hc
    rfl
  obtain ⟨hmeasured, _⟩ := evaluated_measured happroval
  rw [hcategory] at hmeasured
  obtain rfl : approval = a := by
    split at h
    · cases h
    split at h
    · cases h
    split at h
    · obtain ⟨_, _, h⟩ := ok_of_bind h
      exact Except.ok.inj h
    · exact Except.ok.inj h
  exact hmeasured

theorem CandidatePath.Evaluates.measured {path : CandidatePath} {now : Time} {db : Database}
    {ownerId accountId : Uuid} {a : Approval} (h : path.Evaluates now db ownerId accountId a) :
    Measured db ownerId accountId path.group a := by
  cases path with
  | coordinator assetClass =>
    obtain ⟨plan, loaded, rfl, rfl, rfl, h⟩ := h
    exact authorizeEntry_measured h
  | strategies category =>
    obtain ⟨setup, terms, rfl, rfl, h⟩ := h
    unfold strategyPlan at h
    split at h
    · cases h
    split at h
    · cases h
    split at h
    · cases h
    cases hrun : evaluatedStrategy now db ownerId setup terms with
    | error e =>
      rw [hrun] at h
      cases h
    | ok approval =>
      rw [hrun] at h
      cases h
      exact evaluatedStrategy_measured hrun

/-! ## What an approval guarantees -/

/-- An approval was measured against the cap of its group, over bounded positions only. -/
theorem Measured.capped {db : Database} {ownerId accountId : Uuid} {group : String} {a : Approval}
    {book : List BrokerPosition} {limit : ℚ} (h : Measured db ownerId accountId group a)
    (hbook : (accountSnapshots db ownerId accountId).head?.map (·.data.positions) = some book)
    (hlimit : correlatedLimit (activeConstraints db ownerId accountId) = some limit)
    (hdecision : a.result.decision ≠ .hardBlock) :
    (∀ p ∈ book, (positionRisk p).risk ≠ ⊤) ∧
      ∃ held : ℚ, categoryRisk (book.map positionRisk) group = held ∧
        a.result.snapshot.candidateTradeRisk ≤ limit - held := by
  obtain ⟨account, broker, hbroker, hcontext⟩ := h.context
  obtain ⟨result, hresult, hsame⟩ := h.evaluated
  rw [← hsame hdecision] at hresult
  obtain ⟨limits, existing, held, happroved⟩ := evaluate_approved hresult hdecision
  have hpositions : a.context.positions = book.map positionRisk := by
    rw [hcontext]
    cases hhead : (accountSnapshots db ownerId accountId).head? with
    | none =>
      rw [hhead] at hbook
      cases hbook
    | some row =>
      rw [hhead] at hbook hbroker
      cases hbook
      cases hbroker
      rfl
  have haggregated := happroved.aggregated
  rw [hpositions] at haggregated
  refine ⟨fun p hp => ?_, ?_⟩
  · exact risk_ne_top_of_finite haggregated happroved.bounded _ (List.mem_map_of_mem hp)
  · have hcap : remainingCap limit (held.total (categoryGroup group)) ∈
        capacities a.context limits existing held := by
      have hcaps : a.context.correlationCaps = correlationCaps a.candidate (some limit) := by
        rw [hcontext, ← hlimit]
        rfl
      refine List.mem_cons_of_mem _ (List.mem_cons_of_mem _ (List.mem_cons_of_mem _
        (List.mem_append_right _ ?_)))
      unfold correlationRemaining
      rw [hcaps]
      refine List.mem_map.2 ⟨(categoryGroup group, limit), Dict.mem_of_lookup ?_, rfl⟩
      exact Dict.get?_ofList_const limit (by simp [exposureGroups, h.grouped])
    obtain ⟨x, hx, hle⟩ := le_of_le_remainingCap happroved.risk_pos (happroved.fits _ hcap)
    exact ⟨x, by rw [← total_category haggregated, hx], hle⟩

/-! ## An account for every book -/

def bookLoss (book : List BrokerPosition) : ℚ := (book.map fun p => p.remainingLoss.getD 0).sum

/-- Limits of a tenth, and of a tenth beyond the book's risk. -/
def bookRules (book : List BrokerPosition) : List PolicyRule :=
  [{ kind := .maxTotalDrawdown, value := 1 / 10 }, { kind := .maxDailyLoss, value := 1 / 10 },
    { kind := .maxRiskPerTrade, value := 1 / 10 }, { kind := .maxCorrelatedRisk, value := 1 / 10 },
    { kind := .maxPortfolioRisk, value := bookLoss book + 1 / 10 },
    { kind := .maxConcurrentTrades, value := (book.length + 1 : ℕ) }]

def bookAccount : AccountData := ⟨"USD", 1000⟩

def bookSnapshot (book : List BrokerPosition) : BrokerSnapshot :=
  ⟨.ofNat 61, .ofNat 1, 1, 100 * second, 1000, 1000, 0, some "USD", book, [], []⟩

def bookSpecification : SpecificationData where
  specificationId := some (Uuid.ofNat 51).str
  venueInstrumentId := some (.ofNat 50)
  freshness := some "VALID"

/-- An active account with the book, the rules and one fresh specification. -/
def bookDatabase (book : List BrokerPosition) : Database :=
  { Database.empty with
    accounts := [⟨.ofNat 1, .ofNat 9, .active, 1, bookAccount, 0⟩]
    policies := [⟨.ofNat 70, .ofNat 9, .active, 1, ⟨.guardrail, none, some "g", bookRules book⟩, 0⟩]
    typedInstruments := [⟨.ofNat 71, .ofNat 9, .active, 1, bookSpecification, 0⟩]
    brokerSnapshots := [⟨.ofNat 60, .ofNat 9, .active, 1, bookSnapshot book, 0⟩] }

/-- One unit of the account's instrument, a tenth from its stop. -/
structure UnitCandidate (group : String) (c : CandidateTrade) : Prop where
  grouped : c.marketCategory = group
  currencies : c.currencyExposures = .empty
  size : c.requestedSize = 1
  increment : c.sizeIncrement = 1 / 100
  entry : c.entryPrice = 11 / 10
  stop : c.stopLoss = 1
  multiplier : c.contractMultiplier = 1
  cost : c.financingCost = 0
  kind : c.instrumentType = some .cfd
  listing : c.venueInstrumentId = some (.ofNat 50)
  specification : c.specificationVersionId = some (.ofNat 51)
  unit : c.quantityUnit = some .lots

def bookConstraint (kind : ConstraintKind) (value : ℚ) : EffectiveConstraint :=
  { kind, value, source := "internal" ++ ":" ++ "g", sourceVersion := toString 1 }

def bookLimits (book : List BrokerPosition) : RequiredLimits :=
  ⟨bookConstraint .maxTotalDrawdown (1 / 10), bookConstraint .maxDailyLoss (1 / 10),
    bookConstraint .maxPortfolioRisk (bookLoss book + 1 / 10)⟩

section
variable (book : List BrokerPosition)

theorem book_constraints : activeConstraints (bookDatabase book) (.ofNat 9) (.ofNat 1) =
    [bookConstraint .maxTotalDrawdown (1 / 10), bookConstraint .maxDailyLoss (1 / 10),
      bookConstraint .maxRiskPerTrade (1 / 10), bookConstraint .maxCorrelatedRisk (1 / 10),
      bookConstraint .maxPortfolioRisk (bookLoss book + 1 / 10),
      bookConstraint .maxConcurrentTrades (book.length + 1 : ℕ)] := rfl

theorem book_head : (accountSnapshots (bookDatabase book) (.ofNat 9) (.ofNat 1)).head?.map
    (·.data.positions) = some book := rfl

theorem book_correlatedLimit :
    correlatedLimit (activeConstraints (bookDatabase book) (.ofNat 9) (.ofNat 1)) =
      some (1 / 10) := rfl

theorem book_maxConcurrent :
    maxConcurrent (activeConstraints (bookDatabase book) (.ofNat 9) (.ofNat 1)) =
      book.length + 1 := by
  have htruncated : truncated (book.length + 1 : ℕ) = book.length + 1 := by
    simp only [truncated, Rat.num_natCast, Rat.den_natCast]
    simp
  rw [← htruncated]
  rfl

theorem book_fresh : validateSnapshot (110 * second) (bookSnapshot book) = .ok () := by
  have hage : ¬(bookSnapshot book).observedAt + snapshotMaxAge < 110 * second :=
    (by decide : ¬100 * second + snapshotMaxAge < 110 * second)
  rw [validateSnapshot, if_neg hage, if_neg (by norm_num [bookSnapshot])]

theorem book_authority : accountAuthority (110 * second) (bookDatabase book) (.ofNat 9) (.ofNat 1) =
    .ok (bookAccount, bookSnapshot book) := by
  have hactive : activeAccount (bookDatabase book) (.ofNat 9) (.ofNat 1) =
      some ⟨.ofNat 1, .ofNat 9, .active, 1, bookAccount, 0⟩ := rfl
  have hsnapshots : accountSnapshots (bookDatabase book) (.ofNat 9) (.ofNat 1) =
      [⟨.ofNat 60, .ofNat 9, .active, 1, bookSnapshot book, 0⟩] := rfl
  have hvalid : validateAccount (110 * second) bookAccount (bookSnapshot book) = .ok () := by
    have hsame : currencyDiffers bookAccount (bookSnapshot book) = false := by
      simp [currencyDiffers, bookAccount, bookSnapshot]
    rw [validateAccount, hsame, book_fresh]
    rfl
  unfold accountAuthority
  rw [hactive, hsnapshots]
  exact bind_ok_eq hvalid _

/-- The context of a candidate of the account. -/
abbrev bookContext (c : CandidateTrade) : RiskContext :=
  riskContext (bookDatabase book) (.ofNat 9) (.ofNat 1) bookAccount (bookSnapshot book) c

theorem book_context (c : CandidateTrade) :
    authoritativeRiskContext (110 * second) (bookDatabase book) (.ofNat 9) (.ofNat 1) c =
      .ok (bookContext book c) := by
  have hcount : validateCount (maxConcurrent
      (activeConstraints (bookDatabase book) (.ofNat 9) (.ofNat 1))) = .ok () := by
    rw [book_maxConcurrent, validateCount, if_neg (by omega)]
  unfold authoritativeRiskContext
  rw [bind_ok_eq (book_authority book)]
  dsimp only
  rw [bind_ok_eq hcount]
  rfl

theorem book_limits (c : CandidateTrade) : requiredLimits (bookContext book c) =
    some (bookLimits book) := by
  have hconstraints := book_constraints book
  have hdrawdown : strictestApplicable (bookContext book c).constraints .maxTotalDrawdown =
      some (bookLimits book).drawdown := strictestApplicable_of_filter rfl
  have hdaily : strictestApplicable (bookContext book c).constraints .maxDailyLoss =
      some (bookLimits book).daily := strictestApplicable_of_filter rfl
  have hportfolio : strictestApplicable (bookContext book c).constraints .maxPortfolioRisk =
      some (bookLimits book).portfolio := strictestApplicable_of_filter rfl
  unfold requiredLimits
  dsimp only
  rw [hdrawdown, hdaily, hportfolio]

theorem book_perTrade (c : CandidateTrade) :
    strictestApplicable (bookContext book c).constraints .maxRiskPerTrade =
      some (bookConstraint .maxRiskPerTrade (1 / 10)) := strictestApplicable_of_filter rfl

variable {group : String} {c : CandidateTrade}

theorem book_unit (hc : UnitCandidate group c) :
    authorityError (bookContext book c) c = none ∧ usedRiskPerUnit c = .ok (1 / 10) := by
  constructor
  · have htyped : validateTypedCandidate c = none := by
      simp [validateTypedCandidate, hc.kind, hc.listing, hc.specification, hc.unit]
    have hstored : candidateSpecifications (bookDatabase book) (.ofNat 9) c =
        (bookDatabase book).typedInstruments := by
      unfold candidateSpecifications
      rw [hc.listing]
      rfl
    have hspecification : validateSpecificationAuthority (bookContext book c) c = none := by
      unfold validateSpecificationAuthority bookContext riskContext
      rw [hc.specification, hstored]
      rfl
    rw [authorityError, htyped, hspecification]
    simp
  · unfold usedRiskPerUnit typeAwareLossPerUnit
    rw [hc.kind, hc.multiplier, hc.entry, hc.stop]
    norm_num

variable {book}

/-- The loss of each position is bounded and not zero. -/
def Bounded (book : List BrokerPosition) : Prop :=
  ∀ p ∈ book, p.remainingLoss ≠ none ∧ p.remainingLoss ≠ some 0

theorem Bounded.loss (hbook : Bounded book) {p : OpenPositionRisk} (hp : p ∈ book.map positionRisk) :
    (∃ loss, p.remainingLossToStop = some loss ∧ 0 ≤ loss) ∧ p.risk ≠ ⊤ := by
  obtain ⟨q, hq, rfl⟩ := List.mem_map.1 hp
  obtain ⟨hnone, hzero⟩ := hbook q hq
  obtain ⟨loss, hloss⟩ := Option.ne_none_iff_exists'.1 hnone
  have hnonneg := remainingLoss_nonneg q
  rw [hloss] at hnonneg
  exact ⟨⟨loss, hloss, hnonneg⟩, fun htop => ((positionRisk_eq_top q).1 htop).elim hnone hzero⟩

theorem book_existing (hbook : Bounded book) (c : CandidateTrade) :
    existingRisk (bookContext book c) = .ok (bookLoss book) := by
  have hreserved : reservedRisk (book.map positionRisk) false = .ok (bookLoss book) := by
    rw [reservedRisk_eq_sum fun p hp => (hbook.loss hp).1, List.map_map]
    rfl
  have hsum : existingRisk (bookContext book c) = .ok (bookLoss book + 0) := bind_ok_eq hreserved _
  rw [hsum, add_zero]

/-- A unit whose group is no position's fits all capacities of the account. -/
theorem book_fits (hc : UnitCandidate group c)
    (hgroup : ∀ symbol, category symbol ≠ group) {held : Dict String Exposure}
    (hheld : aggregateExposure (book.map positionRisk) none = .ok held) :
    ∀ cap ∈ capacities (bookContext book c) (bookLimits book) (bookLoss book) held, 1 / 10 ≤ cap := by
  have hcaps : (bookContext book c).correlationCaps.entries = [(categoryGroup group, 1 / 10)] := by
    have hsame : (bookContext book c).correlationCaps = correlationCaps c (some (1 / 10)) := rfl
    rw [hsame, correlationCaps, exposureGroups, hc.currencies, hc.grouped]
    rfl
  have hnone : held.total (categoryGroup group) = (0 : ℚ) := by
    have hempty : ((book.map positionRisk).filter fun p => p.marketCategory = group) = [] := by
      refine List.filter_eq_nil_iff.2 fun p hp => ?_
      obtain ⟨q, _, rfl⟩ := List.mem_map.1 hp
      exact fun hsame => hgroup q.symbol (of_decide_eq_true hsame)
    rw [total_category hheld, categoryRisk, hempty]
    rfl
  intro cap hcap
  unfold capacities correlationRemaining at hcap
  rw [book_perTrade, hcaps] at hcap
  simp only [Option.toList_some, List.map_cons, List.map_nil, List.mem_cons, List.mem_append,
    List.not_mem_nil, or_false, hnone, remainingCap] at hcap
  rcases hcap with rfl | rfl | rfl | rfl | rfl
  · norm_num [remainingDrawdown, bookLimits, bookConstraint, bookContext, riskContext,
      accountSnapshot, totalDrawdown, bookAccount, bookSnapshot]
  · norm_num [remainingDaily, bookLimits, bookConstraint, bookContext, riskContext,
      accountSnapshot, dailyLoss, bookSnapshot]
  · exact le_max_of_le_right (by simp [bookLimits, bookConstraint])
  · exact le_refl _
  · norm_num

/-- **The unit passes**, whatever is open elsewhere. -/
theorem book_passes (hbook : Bounded book) (hc : UnitCandidate group c)
    (hgroup : ∀ symbol, category symbol ≠ group) :
    ∃ result, evaluated (110 * second) (bookDatabase book) (.ofNat 9) (.ofNat 1) c =
        .ok ⟨c, bookContext book c, result⟩ ∧
      result.decision = .pass ∧ result.approvedSize = 1 ∧
      result.snapshot.candidateTradeRisk = 1 / 10 := by
  obtain ⟨held, hheld, _⟩ := aggregateExposure_finite (fun p hp => (hbook.loss hp).2) none
  obtain ⟨hauthority, hperUnit⟩ := book_unit book hc
  have hsteps : c.requestedSize = (100 : ℤ) * c.sizeIncrement := by
    rw [hc.size, hc.increment]
    norm_num
  have hcount : (bookContext book c).positions.length <
      (bookContext book c).staticMaxConcurrentTrades := by
    have hmax : (bookContext book c).staticMaxConcurrentTrades = book.length + 1 := by
      have hint := book_maxConcurrent book
      unfold bookContext riskContext
      simp only [hint]
      omega
    rw [hmax]
    simp [bookContext, riskContext, bookSnapshot]
  have hrisk : c.requestedSize * (1 / 10) + c.financingCost = 1 / 10 := by
    rw [hc.size, hc.cost]
    norm_num
  have hdigits : ∃ cap ∈ capacities (bookContext book c) (bookLimits book) (bookLoss book) held,
      cap < (10 ^ decimalDigits : ℕ) * (c.requestedSize * (1 / 10) + c.financingCost) := by
    refine ⟨1 / 10, ?_, ?_⟩
    · simp [capacities, book_perTrade, bookConstraint]
    · rw [hrisk]
      norm_num [decimalDigits]
  obtain ⟨result, hresult, hpass, hsize, hcandidate⟩ := evaluate_fits hauthority hperUnit
    (by rw [hc.multiplier]; norm_num) (book_limits book c) (book_existing hbook c)
    (fun p hp => (hbook.loss hp).2) hheld hsteps hcount
    (fun cap hcap => hrisk.le.trans (book_fits hc hgroup hheld cap hcap)) hdigits
  refine ⟨result, ?_, hpass, hsize.trans hc.size, hcandidate.trans hrisk⟩
  unfold evaluated
  rw [bind_ok_eq (book_context book c), hresult]
  rfl

end

/-! ### The account's candidate on each path -/

theorem positive_ok {q : ℚ} (e : TaskError) (h : 0 < q) : positive e q = .ok ⟨q, h⟩ := dif_pos h

theorem nonnegative_ok {q : ℚ} (e : TaskError) (h : 0 ≤ q) : nonnegative e q = .ok ⟨q, h⟩ := dif_pos h

/-- The account's ready plan for an asset class. -/
def bookPlan (assetClass : AssetClass) : TradePlan :=
  let plan := lotPlan .ready exitAuthorization
  { plan with construction := { plan.construction with assetClass } }

theorem bookPlan_candidate (book : List BrokerPosition) (assetClass : AssetClass) :
    ∃ c, typedCandidate (bookDatabase book) (bookPlan assetClass) none = .ok c ∧
      UnitCandidate assetClass.value c := by
  have hspecification : planSpecification (bookDatabase book) (bookPlan assetClass) =
      some bookSpecification := by
    have hlisted : Table.listed (bookDatabase book).typedInstruments (bookPlan assetClass).ownerId
        ResourceState.kept = [⟨.ofNat 71, .ofNat 9, .active, 1, bookSpecification, 0⟩] := rfl
    have hbound : bookSpecification.specificationId =
        some (bookPlan assetClass).construction.specificationVersionId.str := rfl
    rw [planSpecification, hlisted, List.find?_cons_of_pos (by simpa using hbound)]
    simp [bookSpecification]
  have hperUnit : 0 < planRiskPerUnit (bookPlan assetClass) := by
    norm_num [planRiskPerUnit, bookPlan, lotPlan]
  unfold typedCandidate
  rw [hspecification, bind_ok_eq (orError_eq_ok.2 rfl), bind_ok_eq (positive_ok _ hperUnit),
    bind_ok_eq (positive_ok _ (by norm_num [bookSpecification])),
    bind_ok_eq (nonnegative_ok _ (by norm_num [bookSpecification])),
    bind_ok_eq (nonnegative_ok _ (by norm_num [bookSpecification]))]
  exact ⟨_, rfl, rfl, rfl, rfl, rfl, rfl, rfl, rfl, rfl, rfl, rfl, rfl, rfl⟩

theorem book_coordinator {book : List BrokerPosition} (hbook : Bounded book)
    {assetClass : AssetClass} (hgroup : ∀ symbol, category symbol ≠ assetClass.value) :
    ∃ a, (CandidatePath.coordinator assetClass).Evaluates (110 * second) (bookDatabase book)
        (.ofNat 9) (.ofNat 1) a ∧ a.result.decision = .pass ∧
      a.result.snapshot.candidateTradeRisk = 1 / 10 := by
  obtain ⟨c, hc, hunit⟩ := bookPlan_candidate book assetClass
  obtain ⟨result, hevaluated, hpass, _, hrisk⟩ := book_passes hbook hunit hgroup
  refine ⟨⟨c, bookContext book c, result⟩, ⟨bookPlan assetClass, none, rfl, rfl, rfl, ?_⟩, hpass, hrisk⟩
  have hplan : evaluatedPlan (110 * second) (bookDatabase book) (bookPlan assetClass) none =
      .ok ⟨c, bookContext book c, result⟩ := by
    unfold evaluatedPlan
    rw [bind_ok_eq hc]
    exact bind_ok_eq hevaluated _
  have hfresh : currentBrokerSnapshot (110 * second) (bookDatabase book) (.ofNat 9) (.ofNat 1) =
      .ok (bookSnapshot book) := by
    have hhead : (accountSnapshots (bookDatabase book) (.ofNat 9) (.ofNat 1)).head? =
        some ⟨.ofNat 60, .ofNat 9, .active, 1, bookSnapshot book, 0⟩ := rfl
    rw [currentBrokerSnapshot, hhead]
    dsimp only
    rw [book_fresh]
  have hopen : ¬((bookPlan assetClass).state = .blocked ∨
      (bookPlan assetClass).risk.decision = .hardBlock) := by
    rintro (h | h) <;> cases h
  unfold authorizeEntry
  rw [if_neg hopen]
  refine (bind_ok_eq hfresh _).trans ?_
  exact congrArg (some <$> ·) hplan

theorem lot_pos : (0 : ℚ) < 1 := by norm_num

theorem hundredth_pos : (0 : ℚ) < 1 / 100 := by norm_num

/-- One lot with a hundredth's step. -/
def bookTerms : LiveTradeTerms where
  accountCurrency := "USD"
  quantityUnit := .lots
  contractMultiplier := 1
  tickSize := 1 / 100
  tickValue := none
  quantityMinimum := 1 / 100
  quantityMaximum := 1
  quantityStep := 1 / 100
  contractMultiplier_pos := lot_pos
  tickSize_pos := hundredth_pos
  quantityMinimum_pos := hundredth_pos
  quantityStep_pos := hundredth_pos

def bookSetup (category : MarketCategory) : StrategySetup where
  accountId := .ofNat 1
  category := category
  instrument := "EURUSD"
  direction := .buy
  entry := 11 / 10
  stopLoss := 1
  assetClass := .forex
  instrumentType := .cfd
  quantityUnit := .lots
  listingId := .ofNat 50
  specificationId := .ofNat 51

theorem bookTerms_size : bookTerms.validateSize 1 = .ok () := by decide +kernel

theorem bookSetup_candidate (category : MarketCategory) :
    ∃ c, strategyCandidate (bookSetup category) bookTerms = .ok c ∧
      UnitCandidate (lowered category.value) c := by
  have hmaximum : bookTerms.maximumSteppedSize = .ok 1 := by decide +kernel
  unfold strategyCandidate
  rw [bind_ok_eq hmaximum, bind_ok_eq (positive_ok _ (by norm_num)),
    bind_ok_eq (positive_ok _ (by norm_num [bookSetup])),
    bind_ok_eq (positive_ok _ (by norm_num [bookSetup])),
    bind_ok_eq (positive_ok _ (by norm_num [bookSetup, bookTerms]))]
  exact ⟨_, rfl, rfl, rfl, rfl, rfl, rfl, rfl, rfl, rfl, rfl, rfl, rfl, rfl⟩

theorem book_strategies {book : List BrokerPosition} (hbook : Bounded book)
    {market : MarketCategory} (hgroup : ∀ symbol, category symbol ≠ lowered market.value) :
    ∃ a, (CandidatePath.strategies market).Evaluates (110 * second) (bookDatabase book)
        (.ofNat 9) (.ofNat 1) a ∧ a.result.decision = .pass ∧
      a.result.snapshot.candidateTradeRisk = 1 / 10 := by
  obtain ⟨c, hc, hunit⟩ := bookSetup_candidate market
  obtain ⟨result, hevaluated, hpass, hsize, hrisk⟩ := book_passes hbook hunit hgroup
  refine ⟨⟨c, bookContext book c, result⟩, ⟨bookSetup market, bookTerms, rfl, rfl, ?_⟩, hpass, hrisk⟩
  have hperTrade : perTradeAuthority (bookContext book c) = true := by
    rw [perTradeAuthority, book_perTrade]
    norm_num [bookConstraint]
  have hcurrency : (bookContext book c).accountCurrencyVerified = true := rfl
  have hstrategy : evaluatedStrategy (110 * second) (bookDatabase book) (.ofNat 9) (bookSetup market)
      bookTerms = .ok ⟨c, bookContext book c, result⟩ := by
    unfold evaluatedStrategy
    rw [bind_ok_eq hc]
    refine (bind_ok_eq hevaluated _).trans ?_
    dsimp only
    rw [hcurrency, hperTrade, hsize, if_neg (by simp), if_neg (by simp), if_pos (by norm_num)]
    exact bind_ok_eq bookTerms_size _
  unfold strategyPlan
  rw [hstrategy, if_neg (by norm_num [bookSetup]),
    if_neg (by norm_num [StrategySetup.stopFits, bookSetup]),
    if_neg (by simp [bookSetup, bookTerms])]
  rfl

/-! ## When the cap holds -/

theorem losses_nonneg (book : List BrokerPosition) :
    ∀ loss ∈ book.map fun p => p.remainingLoss.getD 0, 0 ≤ loss := by
  intro loss hloss
  obtain ⟨p, _, rfl⟩ := List.mem_map.1 hloss
  exact remainingLoss_nonneg p

/-- A bounded position in the market is part of its loss. -/
theorem marketLoss_pos {path : CandidatePath} {book : List BrokerPosition} (hbook : Bounded book)
    {p : BrokerPosition} (hp : p ∈ book) (hmarket : path.inMarket p = true) :
    0 < path.marketLoss book := by
  obtain ⟨hnone, hzero⟩ := hbook p hp
  obtain ⟨loss, hloss⟩ := Option.ne_none_iff_exists'.1 hnone
  have hpositive : 0 < p.remainingLoss.getD 0 := by
    refine lt_of_le_of_ne (remainingLoss_nonneg p) fun h => hzero ?_
    rw [hloss] at h ⊢
    exact congrArg some h.symm
  refine hpositive.trans_le (List.single_le_sum (losses_nonneg _) _ ?_)
  exact List.mem_map.2 ⟨p, List.mem_filter.2 ⟨hp, hmarket⟩, rfl⟩

/-- **When an approval respects the cap on correlated risk**: for the forex and crypto candidates of
the strategies route, and beside a book without positions in the market, or with one whose loss counts
as infinite. -/
theorem correlated_cap_iff (path : CandidatePath) (book : List BrokerPosition) :
    path.Capped book ↔
      (path = .strategies .forex ∨ path = .strategies .crypto) ∨
      (∀ p ∈ book, path.inMarket p = false) ∨
      ∃ p ∈ book, p.remainingLoss = none ∨ p.remainingLoss = some 0 := by
  constructor
  · intro hcapped
    by_contra hnot
    obtain ⟨hpath, hrest⟩ := not_or.1 hnot
    obtain ⟨hmarket, hloss⟩ := not_or.1 hrest
    have hbook : Bounded book := fun p hp =>
      ⟨fun h => hloss ⟨p, hp, .inl h⟩, fun h => hloss ⟨p, hp, .inr h⟩⟩
    obtain ⟨_, hgroup⟩ := (group_agrees path).resolve_left fun h => hpath h.1
    have happroval : ∃ a, path.Evaluates (110 * second) (bookDatabase book) (.ofNat 9) (.ofNat 1) a ∧
        a.result.decision = .pass ∧ a.result.snapshot.candidateTradeRisk = 1 / 10 := by
      cases path with
      | coordinator assetClass => exact book_coordinator hbook hgroup
      | strategies market => exact book_strategies hbook hgroup
    obtain ⟨a, hevaluates, hpass, hrisk⟩ := happroval
    have hwithin := hcapped _ _ _ _ a _ (book_head book) (book_correlatedLimit book) hevaluates
      (by simp [hpass])
    obtain ⟨p, hp, hin⟩ : ∃ p ∈ book, path.inMarket p = true := by
      by_contra hnone
      exact hmarket fun p hp => by simpa using fun hin => hnone ⟨p, hp, hin⟩
    have hpositive := marketLoss_pos hbook hp hin
    rw [hrisk] at hwithin
    linarith
  · rintro h now db ownerId accountId a limit hbook hlimit hevaluates hdecision
    obtain ⟨hfinite, held, hheld, hrisk⟩ := hevaluates.measured.capped hbook hlimit hdecision
    have hlosses := losses_of_categoryRisk hheld
    have hfits : path.marketLoss book ≤ held := by
      rcases h with hpath | hmarket | ⟨p, hp, hloss⟩
      · have hsame : path.positionCategory = some path.group :=
          ((group_agrees path).resolve_right fun h => h.1 hpath).2
        have hmarket : book.filter path.inMarket =
            book.filter fun p => category p.symbol = path.group := by
          refine List.filter_congr fun p _ => ?_
          simp [CandidatePath.inMarket, hsame, eq_comm]
        rw [CandidatePath.marketLoss, hmarket, hlosses]
      · have hnone : book.filter path.inMarket = [] :=
          List.filter_eq_nil_iff.2 fun p hp => by simp [hmarket p hp]
        have hzero : path.marketLoss book = 0 := by
          rw [CandidatePath.marketLoss, hnone]
          rfl
        rw [hzero, ← hlosses]
        exact List.sum_nonneg (losses_nonneg _)
      · exact absurd ((positionRisk_eq_top p).2 hloss) (hfinite p hp)
    linarith

/-- A position in EURUSD that may lose 50. -/
def euroPosition : BrokerPosition where
  positionId := "7"
  accountId := .ofNat 1
  symbol := "EURUSD"
  direction := .buy
  volume := 1
  entryPrice := 11 / 10
  stopLoss := some 1
  takeProfit := none
  pnl := 0
  observedAt := 0
  assetClass := none
  instrumentType := none
  venueInstrumentId := none
  futuresContractId := none
  specificationVersionId := none
  quantityUnit := none
  lossToStopAccountCurrency := some 50
  loss_nonneg := by simp

/-- **The coordinator approves beyond the cap**: forex risk of 50 is open under a cap of a tenth, and
a forex entry passes. -/
theorem forex_entry_exceeds_cap : ∃ a,
    (CandidatePath.coordinator .forex).Evaluates (110 * second) (bookDatabase [euroPosition])
      (.ofNat 9) (.ofNat 1) a ∧
    correlatedLimit (activeConstraints (bookDatabase [euroPosition]) (.ofNat 9) (.ofNat 1)) =
      some (1 / 10) ∧
    (CandidatePath.coordinator .forex).marketLoss [euroPosition] = 50 ∧
    a.result.decision = .pass ∧ a.result.snapshot.candidateTradeRisk = 1 / 10 ∧
    ¬(CandidatePath.coordinator .forex).Capped [euroPosition] := by
  have hbook : Bounded [euroPosition] := by
    rintro p hp
    have hloss : euroPosition.remainingLoss = some 50 := by decide +kernel
    rw [List.mem_singleton.1 hp, hloss]
    exact ⟨nofun, by norm_num⟩
  have hgroup : ∀ symbol, category symbol ≠ AssetClass.forex.value :=
    ((group_agrees (.coordinator .forex)).resolve_left fun h => by simp at h).2
  obtain ⟨a, hevaluates, hpass, hrisk⟩ := book_coordinator hbook hgroup
  have hloss : (CandidatePath.coordinator .forex).marketLoss [euroPosition] = 50 := by decide +kernel
  refine ⟨a, hevaluates, book_correlatedLimit _, hloss, hpass, hrisk, fun hcapped => ?_⟩
  have hwithin := hcapped _ _ _ _ a _ (book_head _) (book_correlatedLimit _) hevaluates (by simp [hpass])
  rw [hloss, hrisk] at hwithin
  norm_num at hwithin

end Matrades

import Matrades.Strategies.Hypotheses

/-!
# What a hypothesis may be about

A hypothesis that the generation returns cites references of the pack, trades the approved instrument and
compares what the evaluator knows. The pack's identity fields override those of the response; where the pack
has none, the strategy keeps what the response says (`generateHypotheses_within_iff`).
-/

namespace Matrades

open Base Schema

/-! ## Looking fields up -/

theorem given_eq_none {fields : List (String × Json)} {key : String} :
    given fields key = none ↔ (fields.lookup key).getD .null = .null := by
  unfold given
  cases fields.lookup key with
  | none => simp [Json.absent]
  | some value => cases value <;> simp [Json.absent]

theorem getD_of_given {fields : List (String × Json)} {key : String} {value : Json}
    (h : given fields key = some value) : (fields.lookup key).getD .null = value := by
  unfold given at h
  split at h
  · cases h
  · rw [h, Option.getD_some]

/-- An identity field of a strategy's document. -/
theorem documentFields_lookup (settings : GenerationSettings) (origin : StrategyOrigin)
    (pack strategy : List (String × Json)) {key : String} (hkey : key ∈ identityKeys) :
    (applicationFields settings origin ++ (typedFields pack ++ strategy)).lookup key =
      (given pack key).or (strategy.lookup key) := by
  have hapart : ∀ key ∈ identityKeys, key ∉ ["risk_per_trade", "origin", "evaluator_version"] := by
    decide
  have hfront : key ∉ (applicationFields settings origin).map Prod.fst := hapart key hkey
  rw [lookup_append hfront, List.lookup_append, typedFields, lookup_filterMap hkey]

/-! ## Identity -/

/-- The identity fields of a specification, as its document has them. -/
def identityOf (f : SpecificationFields) : List (String × Json) :=
  [("asset_class", f.assetClass.elim .null fun a => .str a.value),
    ("instrument_type", f.instrumentType.elim .null fun t => .str t.value),
    ("quantity_unit", f.quantityUnit.elim .null fun u => .str u.value),
    ("venue_instrument_id", f.venueInstrumentId.elim .null .str),
    ("specification_version_id", f.specificationVersionId.elim .null .str),
    ("futures_contract_id", f.futuresContractId.elim .null .str)]

/-- The identity fields of the pack, null where it has none. -/
def packIdentity (pack : List (String × Json)) : List (String × Json) :=
  identityKeys.map fun key => (key, (pack.lookup key).getD .null)

instance : assetClass.Plain := inferInstanceAs (Codec.named _ _ _).Plain
instance : instrumentType.Plain := inferInstanceAs (Codec.named _ _ _).Plain
instance : quantityUnit.Plain := inferInstanceAs (Codec.named _ _ _).Plain

theorem dump_optional {α : Type} {c : Codec α} {h : ∀ a, c.dump a ≠ .null} (o : Option α) :
    (c.optional h).dump o = o.elim .null c.dump := by
  cases o <;> rfl

/-- The identity fields are read from the document. -/
theorem identityOf_read {fields : List (String × Json)} {f : SpecificationFields}
    (h : SpecificationFields.record.read fields = some f) :
    identityOf f = identityKeys.map fun key => (key, (fields.lookup key).getD .null) := by
  have hread := Record.as_read_eq_some.1 h
  simp only [Equiv.coe_fn_symm_mk, Record.both_read_eq_some] at hread
  obtain ⟨-, -, -, -, -, -, -, -, -, -, -, -, -, -, -, -, -, -, -, -, -, -, -, -, hclass, htype, hunit,
    hlisting, hversion, hcontract, -⟩ := hread
  simp only [identityKeys, List.map_cons, List.map_nil, ← Record.dump_of_read hclass,
    ← Record.dump_of_read htype, ← Record.dump_of_read hunit, ← Record.dump_of_read hlisting,
    ← Record.dump_of_read hversion, ← Record.dump_of_read hcontract, dump_optional]
  rfl

/-- The identity fields of a strategy: the pack's own, the response's where the pack has none. -/
theorem identityOf_validated {settings : GenerationSettings} {origin : StrategyOrigin}
    {pack strategy : List (String × Json)} {s : Schema.StrategySpecification}
    (h : StrategySpecification.modelValidate (strategyDocument settings origin pack strategy) = some s) :
    identityOf s.1 =
      identityKeys.map fun key => (key, ((given pack key).or (strategy.lookup key)).getD .null) := by
  have hfields := Codec.checked_load_eq_some h
  rw [identityOf_read hfields]
  refine List.map_congr_left fun key hkey => ?_
  rw [documentFields_lookup settings origin pack strategy hkey]

/-- The strategy has the pack's identity when the response adds nothing to it. -/
theorem identityOf_eq_packIdentity_iff {settings : GenerationSettings} {origin : StrategyOrigin}
    {pack strategy : List (String × Json)} {s : Schema.StrategySpecification}
    (h : StrategySpecification.modelValidate (strategyDocument settings origin pack strategy) = some s) :
    identityOf s.1 = packIdentity pack ↔
      ∀ key ∈ identityKeys, given pack key = none → given strategy key = none := by
  have hpoint : ∀ key, ((given pack key).or (strategy.lookup key)).getD .null =
      (pack.lookup key).getD .null ↔ (given pack key = none → given strategy key = none) := by
    intro key
    cases hgiven : given pack key with
    | some value => simp [getD_of_given hgiven]
    | none =>
      rw [given_eq_none.1 hgiven, Option.none_or, given_eq_none]
      simp
  rw [identityOf_validated h, packIdentity, List.map_inj_left]
  refine forall_congr' fun key => forall_congr' fun _ => ?_
  rw [Prod.mk.injEq, hpoint]
  simp

/-! ## Vocabulary -/

/-- A supported feature, or the text of a finite number. -/
def InVocabulary (text : String) : Prop :=
  text ∈ supportedFeatures ∨ ∃ q, parseDec text.toList = some (.fin q)

/-- A condition that compares a supported feature with a supported feature or a finite number. -/
structure Supported (c : Schema.Condition) : Prop where
  feature : c.feature ∈ supportedFeatures
  value : InVocabulary (ConditionValue.str c.value)

theorem baseConditionValues_inVocabulary {text : String} (h : text ∈ baseConditionValues) :
    InVocabulary text := by
  have hnumbers : ∀ text ∈ baseNumbers, (parseDec text.toList).any Dec.isFinite = true := by
    decide
  rcases List.mem_append.1 h with h | h
  · exact .inl h
  · obtain ⟨d, hd, hfinite⟩ := (Option.any_eq_true _ _).1 (hnumbers text h)
    obtain ⟨q, rfl⟩ := Dec.isFinite_iff.1 hfinite
    exact .inr ⟨q, hd⟩

theorem quantiles_inVocabulary {numbers : List Written} {text : String}
    (h : text ∈ quantiles numbers) : InVocabulary text := by
  obtain ⟨number, _, hnumber⟩ := List.mem_filterMap.1 h
  split at hnumber
  · cases hnumber
    refine .inr ?_
    rw [String.toList_ofList]
    exact number.parseDec_fixed
  · cases hnumber

/-- Every allowed value is a supported feature or the text of a finite number. -/
theorem allowedConditionValues_inVocabulary {settings : GenerationSettings}
    {pack : List (String × Json)} {values : List String}
    (h : allowedConditionValues settings pack = .ok values) {text : String} (htext : text ∈ values) :
    InVocabulary text := by
  unfold allowedConditionValues at h
  split at h
  · split at h
    · split at h
      · rename_i literals hliterals
        cases h
        rcases List.mem_append.1 htext with htext | htext
        · exact baseConditionValues_inVocabulary htext
        · unfold discoveryLiterals at hliterals
          obtain ⟨ranges, _, hliterals⟩ := Option.bind_eq_some_iff.1 hliterals
          obtain ⟨moves, _, hliterals⟩ := Option.bind_eq_some_iff.1 hliterals
          obtain ⟨averages, _, hliterals⟩ := Option.bind_eq_some_iff.1 hliterals
          obtain ⟨volatilities, _, hliterals⟩ := Option.bind_eq_some_iff.1 hliterals
          cases hliterals
          obtain ⟨numbers, _, htext⟩ := List.mem_flatMap.1 htext
          exact quantiles_inVocabulary htext
      · cases h
    · cases h
      exact baseConditionValues_inVocabulary htext
  · cases h

/-- The conditions of all the groups. -/
def rulesOf (f : SpecificationFields) : List Schema.Condition := (ruleGroups f).flatMap Prod.snd

theorem checkCondition_ok {values : List String} {number index : ℕ} {group : String}
    {c : Schema.Condition} (h : checkCondition values number group index c = .ok ()) :
    c.feature ∈ supportedFeatures ∧ ConditionValue.str c.value ∈ values := by
  obtain ⟨hsupported, h⟩ := ok_of_guard h
  obtain ⟨hvalue, _⟩ := ok_of_guard h
  rw [not_or, not_not, not_not] at hsupported
  rw [not_not] at hvalue
  exact ⟨List.contains_iff_mem.1 hsupported.1, List.contains_iff_mem.1 hvalue⟩

/-- Rules that pass the checks are supported. -/
theorem checkRules_ok {values : List String} (hvalues : ∀ text ∈ values, InVocabulary text)
    {number : ℕ} {f : SpecificationFields} (h : checkRules values number f = .ok ()) :
    ∀ c ∈ rulesOf f, Supported c := by
  intro c hc
  obtain ⟨⟨group, conditions⟩, hgroup, hc⟩ := List.mem_flatMap.1 hc
  obtain ⟨index, hindex, hget⟩ := List.getElem_of_mem hc
  have hconditions := forM_eq_ok.1 h _ hgroup
  have hcondition := forM_eq_ok.1 hconditions (c, index) (by
    rw [List.mem_zipIdx_iff_getElem?, List.getElem?_eq_getElem hindex]
    exact congrArg some hget)
  obtain ⟨hfeature, hvalue⟩ := checkCondition_ok hcondition
  exact ⟨hfeature, hvalues _ hvalue⟩

/-! ## What the evaluator meets -/

/-- Both sides of the condition have a value at the point. -/
def FeaturePoint.Knows (f : FeaturePoint) (c : Matrades.Condition) : Prop :=
  (∃ left, f.get? c.feature = some left) ∧ ∃ right, f.operand c.value = some right

theorem get?_technical (f : FeaturePoint) {name : String} (h : name ∈ technicalNames) :
    f.get? name = f.technical name := by
  unfold technicalNames at h
  simp only [List.mem_cons, List.not_mem_nil, or_false] at h
  rcases h with rfl | rfl | rfl | rfl | rfl | rfl | rfl | rfl | rfl | rfl | rfl | rfl | rfl | rfl | rfl |
    rfl | rfl | rfl | rfl <;> rfl

/-- A point with news and the technical features has every supported feature. -/
theorem get?_supported {f : FeaturePoint} {name : String} (h : name ∈ supportedFeatures)
    (hnews : f.newsRegime.isSome) (htechnical : name ∈ technicalNames → (f.technical name).isSome) :
    ∃ value, f.get? name = some value := by
  rcases List.mem_append.1 h with h | h
  · obtain ⟨state, hstate⟩ := Option.isSome_iff_exists.1 hnews
    simp only [List.mem_cons, List.not_mem_nil, or_false] at h
    rcases h with rfl | rfl | rfl | rfl | rfl | rfl | rfl | rfl | rfl | rfl | rfl | rfl | rfl | rfl | rfl
    case inr.inr.inr.inr.inr.inr.inr.inr.inr.inr.inr.inr.inr.inr =>
      exact ⟨.fin state.value, by simp [FeaturePoint.get?, hstate]⟩
    all_goals exact ⟨_, rfl⟩
  · rw [get?_technical f h]
    exact Option.isSome_iff_exists.1 (htechnical h)

theorem seriesStep_appends (spec : Matrades.StrategySpecification)
    (technical : ℕ → String → Option Dec) (candles : List BacktestCandle)
    (acc : AtrState × List FeaturePoint) (entry : BacktestCandle × ℕ) :
    ∃ point, (seriesStep spec technical candles acc entry).2 = acc.2 ++ [point] ∧
      point.technical = technical entry.2 := by
  unfold seriesStep
  cases spec.parameters.atrPeriod with
  | none => exact ⟨_, rfl, rfl⟩
  | some period => exact ⟨_, rfl, rfl⟩

/-- The points of a series have the technical features of their rows. -/
theorem series_technical {spec : Matrades.StrategySpecification} {technical : ℕ → String → Option Dec}
    {candles : List BacktestCandle} (entries : List (BacktestCandle × ℕ))
    (acc : AtrState × List FeaturePoint) (hacc : ∀ point ∈ acc.2, ∃ i, point.technical = technical i) :
    ∀ point ∈ (entries.foldl (seriesStep spec technical candles) acc).2,
      ∃ i, point.technical = technical i := by
  induction entries generalizing acc with
  | nil => exact hacc
  | cons entry entries ih =>
    rw [List.foldl_cons]
    apply ih
    intro point hpoint
    obtain ⟨last, hlast, htechnical⟩ := seriesStep_appends spec technical candles acc entry
    rw [hlast] at hpoint
    rcases List.mem_append.1 hpoint with hpoint | hpoint
    · exact hacc point hpoint
    · rw [List.mem_singleton.1 hpoint]
      exact ⟨entry.2, htechnical⟩

/-- A series has a value for every technical feature its strategy requires. -/
theorem series_required {library : TechnicalLibrary} {spec : Matrades.StrategySpecification}
    {candles : List BacktestCandle} {points : List FeaturePoint}
    (h : strategyFeatureSeries library spec candles = .ok points) {point : FeaturePoint}
    (hpoint : point ∈ points) {name : String} (hname : name ∈ requiredTechnicalFeatures spec) :
    (point.technical name).isSome := by
  obtain ⟨technical, htechnical, h⟩ := ok_of_bind h
  cases h
  obtain ⟨i, hi⟩ := series_technical _ ({}, []) (fun _ hmem => absurd hmem List.not_mem_nil) point hpoint
  rw [hi]
  unfold technicalFeatureSeries at htechnical
  split at htechnical
  · rename_i hempty
    rw [List.isEmpty_iff.1 hempty] at hname
    cases hname
  · obtain ⟨_, _, htechnical⟩ := ok_of_bind htechnical
    cases htechnical
    unfold technicalRow
    rw [if_pos (List.contains_iff_mem.2 hname)]
    rfl

theorem read_rules (s : Schema.StrategySpecification) : s.read.entry ++ s.read.confirmations ++
    s.read.filters ++ s.read.exit ++ s.read.invalidation ++ [s.read.stopLoss] ++ s.read.takeProfit =
      (rulesOf s.1).map Schema.Condition.read := by
  simp only [rulesOf, ruleGroups, List.flatMap_cons, List.flatMap_nil, List.append_nil, List.map_append,
    List.append_assoc]
  rfl

/-- A supported condition of a strategy has both its sides at every point of its series. -/
theorem knows_of_supported {library : TechnicalLibrary} {s : Schema.StrategySpecification}
    {candles : List BacktestCandle} {points : List FeaturePoint}
    (h : strategyFeatureSeries library s.read candles = .ok points) {point : FeaturePoint}
    (hpoint : point ∈ points) (state : NewsState) {c : Schema.Condition} (hc : c ∈ rulesOf s.1)
    (hsupported : Supported c) : (point.withNews state).Knows c.read := by
  have hfeature : ∀ name ∈ c.read.names, name ∈ supportedFeatures →
      ∃ value, (point.withNews state).get? name = some value := by
    intro name hname hmem
    refine get?_supported hmem rfl fun htechnical => series_required h hpoint ?_
    unfold requiredTechnicalFeatures
    rw [read_rules, List.mem_filter]
    exact ⟨List.mem_flatMap.2 ⟨c.read, List.mem_map_of_mem hc, hname⟩,
      List.contains_iff_mem.2 htechnical⟩
  refine ⟨hfeature _ ?_ hsupported.feature, ?_⟩
  · unfold Condition.names
    split <;> exact List.mem_cons_self
  · have hvalue := hsupported.value
    show ∃ right, (point.withNews state).operand c.value.read = some right
    cases hcv : c.value with
    | decimal d => exact ⟨_, rfl⟩
    | text name =>
      rw [hcv] at hvalue
      show ∃ right, ((point.withNews state).get? name).orElse (fun _ => parseDec name.toList) = some right
      rcases hvalue with hvalue | ⟨q, hq⟩
      · have hnames : name ∈ c.read.names := by
          simp [Schema.Condition.read, hcv, ConditionValue.read, Condition.names]
        obtain ⟨value, hsome⟩ := hfeature name hnames hvalue
        exact ⟨value, by rw [hsome]; rfl⟩
      · cases hget : (point.withNews state).get? name with
        | some value => exact ⟨value, rfl⟩
        | none => exact ⟨.fin q, hq⟩

/-! ## One hypothesis -/

section
variable {settings : GenerationSettings}

/-- What a returned hypothesis is, of a strategy of the response. -/
structure Grounded (settings : GenerationSettings) (g : GenerationContext)
    (strategy : List (String × Json)) (h : StrategyHypothesis) : Prop where
  cites : ∀ ref ∈ h.evidenceRefs, ref ∈ g.references
  validated : StrategySpecification.modelValidate
    (strategyDocument settings g.origin g.evidencePack strategy) = some h.specification
  instrument : h.specification.1.instruments = [g.instrument]
  rules : ∃ number, checkRules g.conditionValues number h.specification.1 = .ok ()

theorem unknownReference_eq_none {references refs : List String}
    (h : unknownReference references refs = none) : ∀ ref ∈ refs, ref ∈ references := by
  intro ref hmem
  by_contra hunknown
  have hsorted : ref ∈ (refs.filter fun ref => !references.contains ref).insertionSort (· ≤ ·) := by
    rw [List.mem_insertionSort, List.mem_filter]
    simp [hmem, hunknown]
  rw [unknownReference, List.head?_eq_none_iff] at h
  rw [h] at hsorted
  cases hsorted

theorem strategyHypothesis_ok {identifier : String} {specification : Schema.StrategySpecification}
    {rationale : String} {breakdown : Option (List String)} {refs : List String} {role : String}
    {h : StrategyHypothesis}
    (hok : strategyHypothesis identifier specification rationale breakdown refs role = .ok h) :
    h.hypothesisId = identifier ∧ h.specification = specification ∧ h.evidenceRefs = refs := by
  unfold strategyHypothesis at hok
  split at hok
  · cases hok
  split at hok
  · cases hok
    exact ⟨rfl, rfl, rfl⟩
  · cases hok

theorem hypothesisOf_ok {g : GenerationContext} {number : ℕ} {identifier : String}
    {raw strategy : List (String × Json)} {h : StrategyHypothesis}
    (hok : hypothesisOf settings g number identifier raw strategy = .ok h) :
    h.hypothesisId = identifier ∧ Grounded settings g strategy h := by
  obtain ⟨items, _, hok⟩ := ok_of_bind hok
  dsimp only at hok
  split at hok
  · cases hok
  rename_i hknown
  obtain ⟨specification, hspecification, hok⟩ := ok_of_bind hok
  obtain ⟨hinstrument, hok⟩ := ok_of_guard hok
  obtain ⟨_, hok⟩ := ok_of_guard hok
  obtain ⟨_, hrules, hok⟩ := ok_of_bind hok
  obtain ⟨hid, hspec, hrefs⟩ := strategyHypothesis_ok hok
  refine ⟨hid, ?_, ?_, ?_, number, ?_⟩
  · rw [hrefs]
    exact unknownReference_eq_none hknown
  · rw [hspec]
    exact orError_eq_ok.1 hspecification
  · rw [hspec]
    exact not_not.1 hinstrument
  · rw [hspec]
    exact hrules

/-! ## The loop -/

/-- The strategy of an item of the response. -/
def strategyOf : Json → Option (List (String × Json))
  | .obj raw =>
    match raw.lookup "strategy" with
    | some (.obj strategy) => some strategy
    | _ => none
  | _ => none

theorem acceptHypothesis_ok {g : GenerationContext} {hypotheses hypotheses' : List StrategyHypothesis}
    {entry : Json × ℕ} (hok : acceptHypothesis settings g hypotheses entry = .ok hypotheses') :
    ∃ strategy h, strategyOf entry.1 = some strategy ∧ Grounded settings g strategy h ∧
      h.hypothesisId ∉ hypotheses.map StrategyHypothesis.hypothesisId ∧
        hypotheses' = hypotheses ++ [h] := by
  unfold acceptHypothesis at hok
  split at hok
  swap
  · cases hok
  rename_i raw hraw
  split at hok
  swap
  · cases hok
  rename_i strategy hstrategy
  obtain ⟨hidentifier, hok⟩ := ok_of_guard hok
  obtain ⟨h, hh, hok⟩ := ok_of_bind hok
  cases hok
  obtain ⟨hid, hgrounded⟩ := hypothesisOf_ok hh
  refine ⟨strategy, h, ?_, hgrounded, ?_, rfl⟩
  · rw [hraw, strategyOf, hstrategy]
  · rw [hid]
    exact fun hmem => hidentifier (.inr hmem)

/-- A run of the loop adds a grounded hypothesis for each item, with an id of its own. -/
theorem accepted_run {g : GenerationContext} (entries : List (Json × ℕ))
    {hypotheses hypotheses' : List StrategyHypothesis}
    (hok : entries.foldlM (acceptHypothesis settings g) hypotheses = .ok hypotheses')
    (hnodup : (hypotheses.map StrategyHypothesis.hypothesisId).Nodup) :
    (hypotheses'.map StrategyHypothesis.hypothesisId).Nodup ∧
      ∃ added, hypotheses' = hypotheses ++ added ∧
        List.Forall₂ (fun entry h => ∃ strategy, strategyOf entry.1 = some strategy ∧
          Grounded settings g strategy h) entries added := by
  induction entries generalizing hypotheses with
  | nil =>
    cases hok
    exact ⟨hnodup, [], (List.append_nil _).symm, .nil⟩
  | cons entry entries ih =>
    rw [List.foldlM_cons] at hok
    obtain ⟨next, hnext, hok⟩ := ok_of_bind hok
    obtain ⟨strategy, h, hstrategy, hgrounded, hfresh, rfl⟩ := acceptHypothesis_ok hnext
    have hnodup' : ((hypotheses ++ [h]).map StrategyHypothesis.hypothesisId).Nodup := by
      rw [List.map_append, List.map_singleton]
      refine List.nodup_append.2 ⟨hnodup, List.nodup_singleton _, ?_⟩
      intro a ha b hb hab
      rw [List.mem_singleton.1 hb] at hab
      exact hfresh (hab ▸ ha)
    obtain ⟨hdistinct, added, rfl, hadded⟩ := ih hok hnodup'
    exact ⟨hdistinct, h :: added, List.append_assoc _ _ _, .cons ⟨strategy, hstrategy, hgrounded⟩ hadded⟩

theorem forall₂_left {α β : Type} {R : α → β → Prop} {xs : List α} {ys : List β}
    (h : List.Forall₂ R xs ys) {x : α} (hx : x ∈ xs) : ∃ y ∈ ys, R x y := by
  induction h with
  | nil => cases hx
  | @cons x' y xs ys hxy _ ih =>
    rcases List.mem_cons.1 hx with rfl | hx
    · exact ⟨y, List.mem_cons_self, hxy⟩
    · obtain ⟨y', hy', hr⟩ := ih hx
      exact ⟨y', List.mem_cons_of_mem _ hy', hr⟩

theorem forall₂_right {α β : Type} {R : α → β → Prop} {xs : List α} {ys : List β}
    (h : List.Forall₂ R xs ys) {y : β} (hy : y ∈ ys) : ∃ x ∈ xs, R x y :=
  forall₂_left h.flip hy

/-- What the loop has read of the pack. -/
structure ReadFrom (settings : GenerationSettings) (pack : List (String × Json))
    (g : GenerationContext) : Prop where
  evidence : g.evidencePack = pack
  instrument : g.instrument = settings.strOrEmpty (pack.lookup "instrument")
  references : packReferences settings pack = .ok g.references
  values : allowedConditionValues settings pack = .ok g.conditionValues

theorem generationContext_ok {origin : StrategyOrigin} {pack : List (String × Json)}
    {description : Option String} {g : GenerationContext}
    (hok : generationContext settings origin pack description = .ok g) :
    ReadFrom settings pack g ∧ g.role = roleOf origin := by
  obtain ⟨_, hok⟩ := ok_of_guard hok
  obtain ⟨references, hreferences, hok⟩ := ok_of_bind hok
  obtain ⟨_, hok⟩ := ok_of_guard hok
  obtain ⟨_, hok⟩ := ok_of_guard hok
  obtain ⟨values, hvalues, hok⟩ := ok_of_bind hok
  cases hok
  exact ⟨⟨rfl, rfl, hreferences, hvalues⟩, rfl⟩

/-- The strategies of a response. -/
def responseStrategies : Json → List (List (String × Json))
  | .obj response =>
    match response.lookup "hypotheses" with
    | some (.arr raws) => raws.filterMap strategyOf
    | _ => []
  | _ => []

/-- What is returned: three hypotheses with ids of their own, one for each strategy of the response. -/
theorem generateHypotheses_ok {origin : StrategyOrigin} {pack : List (String × Json)}
    {description : Option String} {invoke : String → Except String Json} {response : Json}
    {hs : List StrategyHypothesis} (hresponse : invoke (roleOf origin) = .ok response)
    (hok : generateHypotheses settings origin pack description invoke = .ok hs) :
    ∃ g, ReadFrom settings pack g ∧ hs.length = 3 ∧
      (hs.map StrategyHypothesis.hypothesisId).Nodup ∧
      (∀ strategy ∈ responseStrategies response, ∃ h ∈ hs, Grounded settings g strategy h) ∧
      ∀ h ∈ hs, ∃ strategy ∈ responseStrategies response, Grounded settings g strategy h := by
  obtain ⟨g, hg, hok⟩ := ok_of_bind hok
  obtain ⟨hread, hrole⟩ := generationContext_ok hg
  rw [hrole, hresponse] at hok
  obtain ⟨response', hsame, hok⟩ := ok_of_bind hok
  cases hsame
  cases response with
  | obj response => ?_
  | _ => cases hok
  dsimp only at hok
  split at hok
  swap
  · cases hok
  rename_i raws hraws
  obtain ⟨hlength, hok⟩ := ok_of_guard hok
  have hstrategies : responseStrategies (.obj response) = raws.filterMap strategyOf := by
    rw [responseStrategies, hraws]
  obtain ⟨hnodup, added, rfl, hadded⟩ := accepted_run _ hok List.nodup_nil
  rw [hstrategies]
  refine ⟨g, hread, ?_, hnodup, ?_, ?_⟩
  · rw [← hadded.length_eq, List.length_zipIdx]
    exact not_not.1 hlength
  · intro strategy hmem
    obtain ⟨raw, hraw, hstrategy⟩ := List.mem_filterMap.1 hmem
    obtain ⟨index, hindex, rfl⟩ := List.getElem_of_mem hraw
    obtain ⟨h, hh, strategy', hstrategy', hgrounded⟩ := forall₂_left hadded
      (List.mem_zipIdx_iff_getElem?.2 (List.getElem?_eq_getElem hindex) : (raws[index], index) ∈ raws.zipIdx)
    cases hstrategy.symm.trans hstrategy'
    exact ⟨h, hh, hgrounded⟩
  · intro h hh
    obtain ⟨entry, hentry, strategy, hstrategy, hgrounded⟩ := forall₂_right hadded hh
    exact ⟨strategy, List.mem_filterMap.2 ⟨entry.1, List.fst_mem_of_mem_zipIdx hentry, hstrategy⟩,
      hgrounded⟩

/-! ## The whole answer -/

/-- A reference id of the pack. -/
def PackReference (settings : GenerationSettings) (pack : List (String × Json)) (ref : String) : Prop :=
  ∃ items item, pack.lookup "references" = some (.arr items) ∧ .obj item ∈ items ∧
    truthy (item.lookup "id") = true ∧ settings.strOrEmpty (item.lookup "id") = ref

theorem referenceId_eq_some {value : Json} {ref : String} (h : referenceId settings value = some ref) :
    ∃ item, value = .obj item ∧ truthy (item.lookup "id") = true ∧
      settings.strOrEmpty (item.lookup "id") = ref := by
  unfold referenceId at h
  split at h
  · rename_i item
    split at h
    · rename_i htruthy
      cases h
      exact ⟨item, rfl, htruthy, rfl⟩
    · cases h
  · cases h

/-- Only a list of references has reference ids. -/
theorem packReference_of_mem {pack : List (String × Json)} {references : List String}
    (h : packReferences settings pack = .ok references) {ref : String} (href : ref ∈ references) :
    PackReference settings pack ref := by
  obtain ⟨items, hitems, h⟩ := ok_of_bind h
  cases h
  obtain ⟨value, hvalue, href⟩ := List.mem_filterMap.1 href
  obtain ⟨item, rfl, htruthy, hid⟩ := referenceId_eq_some href
  cases hpack : pack.lookup "references" with
  | none =>
    rw [hpack] at hitems
    cases hitems
    cases hvalue
  | some listed =>
    rw [hpack, Option.getD_some] at hitems
    unfold iterate at hitems
    split at hitems
    · cases hitems
      exact ⟨items, item, hpack, hvalue, htruthy, hid⟩
    · cases hitems
      obtain ⟨_, _, hnot⟩ := List.mem_map.1 hvalue
      cases hnot
    · cases hitems
      obtain ⟨_, _, hnot⟩ := List.mem_map.1 hvalue
      cases hnot
    · cases hitems

/-- Three hypotheses that stay within the pack. -/
structure WithinEvidence (settings : GenerationSettings) (pack : List (String × Json))
    (hs : List StrategyHypothesis) : Prop where
  three : hs.length = 3
  distinct : (hs.map StrategyHypothesis.hypothesisId).Nodup
  cites : ∀ h ∈ hs, ∀ ref ∈ h.evidenceRefs, PackReference settings pack ref
  instrument : ∀ h ∈ hs, h.specification.1.instruments = [settings.strOrEmpty (pack.lookup "instrument")]
  identity : ∀ h ∈ hs, identityOf h.specification.1 = packIdentity pack
  supported : ∀ h ∈ hs, ∀ c ∈ rulesOf h.specification.1, Supported c
  /-- Both sides of every rule have a value wherever the strategy is evaluated. -/
  evaluated : ∀ h ∈ hs, ∀ (library : TechnicalLibrary) (candles : List BacktestCandle)
    (points : List FeaturePoint), strategyFeatureSeries library h.specification.read candles = .ok points →
      ∀ point ∈ points, ∀ state, ∀ c ∈ rulesOf h.specification.1, (point.withNews state).Knows c.read

/-- **Hypotheses stay within the evidence when the response binds no identity field that the pack lacks.** -/
theorem generateHypotheses_within_iff {origin : StrategyOrigin} {pack : List (String × Json)}
    {description : Option String} {invoke : String → Except String Json} {response : Json}
    {hs : List StrategyHypothesis} (hresponse : invoke (roleOf origin) = .ok response)
    (hok : generateHypotheses settings origin pack description invoke = .ok hs) :
    WithinEvidence settings pack hs ↔ ∀ strategy ∈ responseStrategies response, ∀ key ∈ identityKeys,
      given pack key = none → given strategy key = none := by
  obtain ⟨g, hread, hlength, hnodup, hstrategies, hgrounded⟩ := generateHypotheses_ok hresponse hok
  have hidentity : ∀ {strategy h}, Grounded settings g strategy h →
      (identityOf h.specification.1 = packIdentity pack ↔
        ∀ key ∈ identityKeys, given pack key = none → given strategy key = none) := by
    intro strategy h hh
    have hvalidated := hh.validated
    rw [hread.evidence] at hvalidated
    exact identityOf_eq_packIdentity_iff hvalidated
  constructor
  · intro hwithin strategy hstrategy
    obtain ⟨h, hmem, hh⟩ := hstrategies strategy hstrategy
    exact (hidentity hh).1 (hwithin.identity h hmem)
  · intro hlacks
    have hsupported : ∀ h ∈ hs, ∀ c ∈ rulesOf h.specification.1, Supported c := by
      intro h hmem
      obtain ⟨_, _, hh⟩ := hgrounded h hmem
      obtain ⟨_, hrules⟩ := hh.rules
      exact checkRules_ok (fun text => allowedConditionValues_inVocabulary hread.values) hrules
    refine ⟨hlength, hnodup, ?_, ?_, ?_, hsupported, ?_⟩
    · intro h hmem ref href
      obtain ⟨_, _, hh⟩ := hgrounded h hmem
      exact packReference_of_mem hread.references (hh.cites ref href)
    · intro h hmem
      obtain ⟨_, _, hh⟩ := hgrounded h hmem
      rw [hh.instrument, hread.instrument]
    · intro h hmem
      obtain ⟨strategy, hstrategy, hh⟩ := hgrounded h hmem
      exact (hidentity hh).2 (hlacks strategy hstrategy)
    · intro h hmem library candles points hpoints point hpoint state c hc
      exact knows_of_supported hpoints hpoint state hc (hsupported h hmem c hc)

end

/-! ## A pack without a futures contract -/

def cfdPack : List (String × Json) :=
  [("instrument", .str "EUR/USD"), ("selection_id", .str "S1"),
    ("references", .arr [.obj [("id", .str "R1")]]), ("asset_class", .str "FOREX"),
    ("instrument_type", .str "CFD"), ("quantity_unit", .str "LOTS"),
    ("venue_instrument_id", .str "L1"), ("specification_version_id", .str "V1")]

def aboveAverage : Json :=
  .obj [("feature", .str "close"), ("operator", .str ">"), ("value", .str "moving_average")]

def trendStrategy : List (String × Json) :=
  [("name", .str "Trend"), ("family", .str "TREND"), ("horizon", .str "SWING"),
    ("instruments", .arr [.str "EUR/USD"]), ("entry", .arr [aboveAverage]), ("exit", .arr [aboveAverage]),
    ("stop_loss", aboveAverage), ("trade_rules", .obj [("direction", .str "LONG"),
      ("stop_volatility_multiple", .str "2"), ("take_profit_r_multiples", .arr [.str "1"])])]

/-- Hypotheses of one strategy with these ids. -/
def trendResponse (ids : List String) (strategy : List (String × Json)) : Json :=
  .obj [("hypotheses", .arr (ids.map fun id => .obj [("hypothesis_id", .str id),
    ("strategy", .obj strategy), ("rationale", .str "Trend"),
    ("breakdown", .arr [.str "entry", .str "exit", .str "risk"]), ("evidence_refs", .arr [.str "R1"])]))]

def trendSettings : GenerationSettings where
  context := ⟨fun _ _ => none, fun _ => none⟩
  repr := fun _ => ""
  simulationRiskPercent := ⟨false, 1, 0⟩

/-- The hypotheses that are returned for a strategy of the agent. -/
def trendHypotheses (strategy : List (String × Json))
    (ids : List String := ["H1", "H2", "H3"]) : Except String (List StrategyHypothesis) :=
  generateHypotheses trendSettings .aiGenerated cfdPack none fun _ => .ok (trendResponse ids strategy)

theorem generateHypotheses_within_iff_trend :
    ∃ hs, trendHypotheses trendStrategy = .ok hs ∧ WithinEvidence trendSettings cfdPack hs := by
  have hreturns : (trendHypotheses trendStrategy).isOk = true := by decide +kernel
  cases hok : trendHypotheses trendStrategy with
  | error e =>
    rw [hok] at hreturns
    cases hreturns
  | ok hs =>
    refine ⟨hs, rfl, (generateHypotheses_within_iff rfl hok).2 ?_⟩
    intro strategy hstrategy
    have hall : responseStrategies (trendResponse ["H1", "H2", "H3"] trendStrategy) =
        List.replicate 3 trendStrategy := by rfl
    rw [hall] at hstrategy
    have hsame : strategy = trendStrategy := List.eq_of_mem_replicate hstrategy
    have hlacks : ∀ key ∈ identityKeys, (given trendStrategy key).isNone = true := by decide +kernel
    rw [hsame]
    exact fun key hkey _ => Option.isNone_iff_eq_none.1 (hlacks key hkey)

/-- The response names a futures contract, the pack has none. -/
theorem response_binds_contract :
    ∃ hs, trendHypotheses (("futures_contract_id", .str "ESZ6") :: trendStrategy) = .ok hs ∧
      ¬WithinEvidence trendSettings cfdPack hs := by
  have hbinds : ((trendHypotheses (("futures_contract_id", .str "ESZ6") :: trendStrategy)).toOption.any
      fun hs => hs.any fun h => h.specification.1.futuresContractId = some "ESZ6") = true := by
    decide +kernel
  obtain ⟨hs, hok, hany⟩ := (Option.any_eq_true _ _).1 hbinds
  obtain ⟨h, hmem, hcontract⟩ := List.any_eq_true.1 hany
  refine ⟨hs, toOption_eq_some.1 hok, fun hwithin => ?_⟩
  have hnone : cfdPack.lookup "futures_contract_id" = none := by rfl
  have hidentity := congrArg List.getLast? (hwithin.identity h hmem)
  simp [identityOf, packIdentity, identityKeys, hnone, of_decide_eq_true hcontract] at hidentity

end Matrades

import Matrades.Backtesting.Proof.Alike

/-!
# A stored strategy behaves as the submitted one

A decimal in a condition is read back as its text, which is no feature's name and denotes the same
number: the reloaded specification is alike (`alike_reloaded`). A decimal in `position_management` is
read back as a text too, and a text that is not empty sets its switch: a zero does not
(`switch_reloaded`). So a stored strategy trades as the submitted one unless a switch that a simulation
reads is a zero decimal.
-/

namespace Matrades

open Base

/-! ## Conditions -/

/-- The features of a candle besides the indicators. -/
def candleNames : List String :=
  ["regime_ready", "trend_efficiency", "trend_direction", "relative_volatility", "prior_high",
    "prior_low", "slow_average", "open", "high", "low", "close", "volume", "momentum",
    "moving_average", "volatility", "news_regime"]

theorem get?_unnamed {f : FeaturePoint} (h : f.Named) {name : String}
    (hname : name ∉ candleNames ++ technicalNames) : f.get? name = none := by
  have hcandle : name ∉ candleNames := fun hmem => hname (List.mem_append_left _ hmem)
  have htechnical : f.technical name = none := h name fun hmem => hname (List.mem_append_right _ hmem)
  unfold FeaturePoint.get?
  split
  all_goals first
    | exact htechnical
    | exact absurd (by decide) hcandle

theorem names_start : (candleNames ++ technicalNames).all (fun name =>
    name.toList.head?.all fun c => !c.isDigit && c ≠ '-') = true := by decide

/-- No feature has a number as its name. -/
theorem str_unnamed (d : Written) : d.str ∉ candleNames ++ technicalNames := by
  intro hmem
  have hstart := List.all_eq_true.1 names_start d.str hmem
  obtain ⟨c, hc, hnumber⟩ := d.text_head
  rw [Written.toList_str, Option.mem_def.1 hc] at hstart
  simp only [Option.all_some, Bool.and_eq_true, Bool.not_eq_true', decide_eq_true_eq] at hstart
  rcases hnumber with hdigit | hminus
  · rw [hstart.1] at hdigit
    cases hdigit
  · exact hstart.2 hminus

theorem operand_back {f : FeaturePoint} (h : f.Named) (v : Schema.ConditionValue) :
    f.operand v.back.read = f.operand v.read := by
  cases v with
  | text s => rfl
  | decimal d =>
    show ((f.get? d.str).orElse fun _ => parseDec d.str.toList) = some (.fin d.value)
    rw [get?_unnamed h (str_unnamed d), Written.toList_str, d.parseDec_text]
    rfl

theorem satisfies_back {f : FeaturePoint} (h : f.Named) (c : Schema.Condition) :
    f.satisfies c.back.read = f.satisfies c.read := by
  unfold FeaturePoint.satisfies
  rw [show f.operand c.back.read.value = f.operand c.read.value from operand_back h c.value]
  rfl

theorem sameConditions_back (conditions : List Schema.Condition) :
    SameConditions (conditions.map Schema.Condition.read)
      ((conditions.map Schema.Condition.back).map Schema.Condition.read) := by
  intro f h
  unfold conditionsMatch
  rw [List.all_map, List.all_map, List.all_map, List.isEmpty_map, List.isEmpty_map, List.isEmpty_map]
  congr 2
  funext c
  exact (satisfies_back h c).symm

/-- A test on the names of a condition that no number passes. -/
theorem names_back {p : String → Bool} (hp : ∀ d : Written, p d.str = false) (c : Schema.Condition) :
    c.back.read.names.filter p = c.read.names.filter p := by
  obtain ⟨feature, operator, value⟩ := c
  cases value with
  | text s => rfl
  | decimal d =>
    show [feature, d.str].filter p = [feature].filter p
    have hnone : [d.str].filter p = [] := List.filter_cons_of_neg (by rw [hp]; decide)
    rw [show [feature, d.str] = [feature] ++ [d.str] from rfl, List.filter_append, hnone,
      List.append_nil]

theorem names_list_back {p : String → Bool} (hp : ∀ d : Written, p d.str = false)
    (conditions : List Schema.Condition) :
    (((conditions.map Schema.Condition.back).map Schema.Condition.read).flatMap
      Condition.names).filter p =
      ((conditions.map Schema.Condition.read).flatMap Condition.names).filter p := by
  rw [List.filter_flatMap, List.filter_flatMap, List.map_map, List.flatMap_map, List.flatMap_map]
  congr 1
  funext c
  exact names_back hp c

/-! ## Specifications -/

namespace Schema

/-- The conditions that name features. -/
def SpecificationFields.featured (f : SpecificationFields) : List Condition :=
  f.entry ++ f.confirmations ++ f.filters ++ f.exit ++ f.invalidation ++ [f.stopLoss] ++ f.takeProfit

/-- The conditions that may ask for news. -/
def SpecificationFields.informed (f : SpecificationFields) : List Condition :=
  f.entry ++ f.confirmations ++ f.filters ++ f.invalidation ++ f.exit

namespace StrategySpecification

variable (s : StrategySpecification)

theorem required_read : requiredTechnicalFeatures s.read =
    ((s.1.featured.map Condition.read).flatMap Matrades.Condition.names).filter
      technicalNames.contains := by
  unfold requiredTechnicalFeatures SpecificationFields.featured
  simp only [List.map_append]
  rfl

theorem featured_back : s.1.back.featured = s.1.featured.map Condition.back := by
  unfold SpecificationFields.featured
  simp only [List.map_append]
  rfl

theorem required_reloaded :
    requiredTechnicalFeatures s.read = requiredTechnicalFeatures s.reloaded.read := by
  rw [required_read, required_read, show s.reloaded.1 = s.1.back from rfl, featured_back]
  refine (names_list_back (fun d => ?_) _).symm
  rw [Bool.eq_false_iff, ne_eq, List.contains_iff_mem]
  exact fun hmem => str_unnamed d (List.mem_append_right _ hmem)

theorem informed_back : s.1.back.informed = s.1.informed.map Condition.back := by
  unfold SpecificationFields.informed
  simp only [List.map_append]
  rfl

theorem asks_read (p : String → Bool) (conditions : List Condition) :
    ((conditions.map Condition.read).any fun rule => rule.names.any p) =
      !(((conditions.map Condition.read).flatMap Matrades.Condition.names).filter p).isEmpty := by
  have hempty : ∀ names : List String, names.any p = !(names.filter p).isEmpty := by
    intro names
    induction names with
    | nil => rfl
    | cons name names ih =>
      rw [List.any_cons, List.filter_cons]
      cases p name with
      | true => rfl
      | false => exact ih
  rw [← hempty, List.any_flatMap]

theorem news_reloaded : requiresNewsContext s.read = requiresNewsContext s.reloaded.read := by
  have hp : ∀ d : Written, (d.str == "news_regime") = false := by
    intro d
    rw [beq_eq_false_iff_ne]
    intro heq
    exact str_unnamed d (by rw [heq]; decide)
  have hasks : ∀ r : StrategySpecification,
      requiresNewsContext r.read =
        ((r.1.regimes.any fun regime => (regime.toList.splitOn ':').any newsTag) ||
          (r.1.informed.map Condition.read).any fun rule => rule.names.any (· == "news_regime")) := by
    intro r
    unfold requiresNewsContext SpecificationFields.informed
    simp only [List.map_append, List.contains_eq_any_beq, BEq.comm]
    rfl
  rw [hasks, hasks, asks_read, asks_read, show s.reloaded.1 = s.1.back from rfl, informed_back,
    names_list_back hp]
  rfl

/-- **A reloaded specification is alike.** -/
theorem alike_reloaded : s.read.Alike s.reloaded.read where
  instrument := rfl
  regimes := rfl
  sessions := rfl
  eventRules := rfl
  parameters := rfl
  assetClass := rfl
  tradeRules := rfl
  required := s.required_reloaded
  news := s.news_reloaded
  entry := sameConditions_back s.1.entry
  confirmations := sameConditions_back s.1.confirmations
  confirmations_isEmpty := by
    show (s.1.confirmations.map Condition.read).isEmpty =
      ((s.1.confirmations.map Condition.back).map Condition.read).isEmpty
    rw [List.isEmpty_map, List.isEmpty_map, List.isEmpty_map]
  filters := sameConditions_back s.1.filters
  filters_isEmpty := by
    show (s.1.filters.map Condition.read).isEmpty =
      ((s.1.filters.map Condition.back).map Condition.read).isEmpty
    rw [List.isEmpty_map, List.isEmpty_map, List.isEmpty_map]
  exit := sameConditions_back s.1.exit
  invalidation := sameConditions_back s.1.invalidation

/-! ## Switches -/

/-- Is the switch a zero decimal? -/
def zeroSwitch (key : String) : Bool :=
  match s.1.positionManagement.get? key with
  | some (.decimal d) => d.coefficient = 0
  | _ => false

/-- A zero decimal does not set its switch; the text it is read back as does. -/
theorem switch_reloaded (key : String) : s.reloaded.switch key = (s.switch key || s.zeroSwitch key) := by
  have hread : s.reloaded.1.positionManagement.get? key =
      (s.1.positionManagement.get? key).map PositionValue.back := Dict.get?_map _ _ _
  unfold switch zeroSwitch
  rw [hread]
  cases s.1.positionManagement.get? key with
  | none => rfl
  | some value =>
    cases value with
    | text t => exact (Bool.or_false _).symm
    | flag b => exact (Bool.or_false _).symm
    | decimal d =>
      have hne : d.str ≠ "" := by
        intro hempty
        obtain ⟨c, hc, -⟩ := d.text_head
        rw [← Written.toList_str, hempty] at hc
        cases hc
      show decide (d.str ≠ "") = (decide (d.coefficient ≠ 0) || decide (d.coefficient = 0))
      rw [decide_eq_true hne]
      by_cases hzero : d.coefficient = 0
      · simp [hzero]
      · simp [hzero]

/-- No switch that a simulation reads is a zero decimal; trades with one target are not moved to break
even. -/
def SwitchesKept : Prop :=
  ∀ rules ∈ s.1.tradeRules, s.zeroSwitch "trailing_stop" = false ∧
    (s.zeroSwitch "move_to_break_even" = false ∨ rules.1.takeProfitRMultiples.length = 1)

instance : Decidable s.SwitchesKept :=
  inferInstanceAs (Decidable (∀ rules ∈ s.1.tradeRules, _))

theorem SwitchesKept.agree {s : StrategySpecification} (h : s.SwitchesKept) :
    ∀ rules ∈ s.read.tradeRules, PositionManagement.Agree rules s.read.positionManagement
      s.reloaded.read.positionManagement := by
  intro rules hrules
  obtain ⟨stored, hstored, rfl⟩ := Option.mem_map.1 hrules
  obtain ⟨htrailing, heven⟩ := h stored hstored
  constructor
  · show s.switch "trailing_stop" = s.reloaded.switch "trailing_stop"
    rw [switch_reloaded, htrailing, Bool.or_false]
  · rcases heven with hkept | hone
    · left
      show s.switch "move_to_break_even" = s.reloaded.switch "move_to_break_even"
      rw [switch_reloaded, hkept, Bool.or_false]
    · right
      exact (List.length_map _).trans hone

/-- **A strategy that is stored and read back has the same hash, and trades the same unless a switch is a
zero decimal.** -/
theorem reloaded_strategy_equivalent (sha256 : List Char → String) (s : StrategySpecification) :
    ∃ s', modelValidate s.modelDump = some s' ∧
      (compileStrategy sha256 s').artifactHash = (compileStrategy sha256 s).artifactHash ∧
      (s.SwitchesKept → ∀ (library : TechnicalLibrary) (zones : ZoneInfo)
        (candles : List BacktestCandle) (configuration : BacktestConfiguration) (replay : Replay),
        simulateProtectedTrades library zones s'.read candles configuration replay =
          simulateProtectedTrades library zones s.read candles configuration replay) := by
  refine ⟨s.reloaded, s.modelValidate_modelDump, ?_, ?_⟩
  · show sha256 s.reloaded.modelDump.sortedText = sha256 s.modelDump.sortedText
    rw [s.modelDump_reloaded]
  · intro h library zones candles configuration replay
    exact (simulate_alike s.alike_reloaded h.agree library zones candles configuration replay).symm

/-! ## A strategy with switches -/

/-- Buys on every bar with a stop below and a target far above, with the given switches. -/
def switchedFields (positionManagement : Dict String PositionValue) : SpecificationFields where
  name := "switched"
  origin := .aiAssisted
  family := .trend
  horizon := .intraday
  instruments := ["EURUSD"]
  entry := [⟨"close", .gt, .decimal ⟨false, 0, 0⟩⟩]
  exit := [⟨"close", .lt, .decimal ⟨false, 0, 0⟩⟩]
  stopLoss := ⟨"close", .lt, .decimal ⟨false, 0, 0⟩⟩
  positionManagement
  riskPerTrade := ⟨false, 1, 0⟩
  tradeRules := some ⟨⟨.long, ⟨false, 1, 0⟩, [⟨false, 5, 0⟩]⟩, by decide +kernel⟩

/-- `{"trailing_stop": false}` -/
def trailingOff : StrategySpecification :=
  ⟨switchedFields (.ofList [("trailing_stop", .flag false)]), by decide +kernel⟩

/-- `{"trailing_stop": 0}` -/
def trailingZero : StrategySpecification :=
  ⟨switchedFields (.ofList [("trailing_stop", .decimal ⟨false, 0, 0⟩)]), by decide +kernel⟩

/-- The trade is entered at the third bar, which closes well above the entry; the fourth falls back. -/
def fallingBack : List BacktestCandle :=
  [quarterBar 0 101 99, quarterBar 1 101 99, { quarterBar 2 105 99 with close := 104 },
    { quarterBar 3 104 101 with openPrice := 103, close := 103 }]

/-- The profits of the closed trades. -/
def closedPnls (s : StrategySpecification) : Option (List ℚ) :=
  ((simulateProtectedTrades trangeLibrary utcOnly s.read fallingBack plainAccount {}).toOption).map
    fun simulation => simulation.trades.map TradeResult.pnl

/-- The trailing stop stays off, and the trade is open until the end of the history. -/
theorem reloaded_strategy_equivalent_off :
    closedPnls trailingOff = some [3] ∧
    ∃ s', modelValidate trailingOff.modelDump = some s' ∧
      (compileStrategy String.ofList s').artifactHash =
        (compileStrategy String.ofList trailingOff).artifactHash ∧
      simulateProtectedTrades trangeLibrary utcOnly s'.read fallingBack plainAccount {} =
        simulateProtectedTrades trangeLibrary utcOnly trailingOff.read fallingBack plainAccount {} := by
  obtain ⟨s', hs', hhash, hsame⟩ := reloaded_strategy_equivalent String.ofList trailingOff
  exact ⟨by decide +kernel, s', hs', hhash, hsame (by decide) trangeLibrary utcOnly fallingBack
    plainAccount {}⟩

/-- **A zero that switches the trailing stop off is read back as a text that switches it on.** -/
theorem zero_switch_reloads_set :
    closedPnls trailingZero = some [3] ∧
    (modelValidate trailingZero.modelDump).map closedPnls = some (some [2]) ∧
    ¬∀ (s s' : StrategySpecification), modelValidate s.modelDump = some s' →
      ∀ (library : TechnicalLibrary) (zones : ZoneInfo) (candles : List BacktestCandle)
        (configuration : BacktestConfiguration) (replay : Replay),
        simulateProtectedTrades library zones s'.read candles configuration replay =
          simulateProtectedTrades library zones s.read candles configuration replay := by
  have hsubmitted : closedPnls trailingZero = some [3] := by decide +kernel
  have hreloaded : closedPnls trailingZero.reloaded = some [2] := by decide +kernel
  refine ⟨hsubmitted, ?_, fun hall => ?_⟩
  · rw [trailingZero.modelValidate_modelDump, Option.map_some, hreloaded]
  · have hsame := hall trailingZero trailingZero.reloaded trailingZero.modelValidate_modelDump
      trangeLibrary utcOnly fallingBack plainAccount {}
    have hpnls : closedPnls trailingZero.reloaded = closedPnls trailingZero := by
      unfold closedPnls
      rw [hsame]
    rw [hsubmitted, hreloaded] at hpnls
    revert hpnls
    decide

end StrategySpecification

end Schema

end Matrades

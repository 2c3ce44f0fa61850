import Matrades.Backtesting.Protection
import Matrades.Base.Window
import Matrades.Base.Result

/-!
# No look-ahead

What the simulator computes for the past does not depend on a later candle. The features of a candle
read slices that end at it (`candleFeatures_append`), so the feature series of a longer history is
the series of the shorter one and more (`strategyFeatureSeries_append`); the run over the bars only
appends closed trades (`simulateBars_prefix`).
-/

namespace Matrades

open Base

/-! ## Features -/

theorem slice_append {α : Type} {xs ys : List α} {lo hi : Nat} (h : hi ≤ xs.length) :
    slice (xs ++ ys) lo hi = slice xs lo hi := by
  unfold slice
  rw [List.take_append_of_le_length h]

theorem getD_append_left {α : Type} {xs ys : List α} {i : Nat} (d : α) (h : i < xs.length) :
    (xs ++ ys).getD i d = xs.getD i d := by
  simp [List.getD_eq_getElem?_getD, List.getElem?_append_left h]

/-- The features of a candle do not read the candles behind it. -/
theorem candleFeatures_append {candles later : List BacktestCandle} {index : Nat}
    (h : index < candles.length) (candle : BacktestCandle) (window : Nat) (period : Option Nat) :
    candleFeatures (candles ++ later) candle index window period =
      candleFeatures candles candle index window period := by
  have hi : index + 1 ≤ candles.length := h
  have hp : index - 1 < candles.length := by omega
  unfold candleFeatures
  simp only [slice_append hi, slice_append h.le, getD_append_left candle hp]

theorem technicalRow_append {library : TechnicalLibrary} (hc : Causal library)
    {candles later : List BacktestCandle} {index : Nat} (h : index < candles.length)
    (required : List String) :
    technicalRow library (candles ++ later) required index =
      technicalRow library candles required index := by
  funext name
  unfold technicalRow
  rw [hc candles later index h]

/-! ## Candle checks -/

theorem forM_checkCandle_append {candles later : List BacktestCandle}
    (h : (candles ++ later).forM checkCandle = .ok ()) : candles.forM checkCandle = .ok () := by
  induction candles with
  | nil => rfl
  | cons c cs ih =>
    change (checkCandle c >>= fun _ => (cs ++ later).forM checkCandle) = .ok () at h
    obtain ⟨u, hu, h⟩ := ok_of_bind h
    change (checkCandle c >>= fun _ => cs.forM checkCandle) = .ok ()
    rw [hu]
    exact ih h

theorem chronological_append {candles later : List BacktestCandle}
    (h : chronological (candles ++ later) = true) : chronological candles = true := by
  unfold chronological at h ⊢
  simp only [decide_eq_true_eq, List.map_append] at h ⊢
  exact (List.pairwise_append.1 h).1

/-- A part of a list that passes the checks passes them, unless it is too short. -/
theorem validateCandles_append {minimum : Nat} {candles later : List BacktestCandle}
    (hm : minimum ≤ candles.length) (h : validateCandles minimum (candles ++ later) = .ok ()) :
    validateCandles minimum candles = .ok () := by
  unfold validateCandles at h ⊢
  obtain ⟨-, h⟩ := ok_of_guard h
  obtain ⟨hc, h⟩ := ok_of_guard h
  have hall : chronological (candles ++ later) = true := by simpa using hc
  have hc' := chronological_append hall
  rw [if_neg (by omega), if_neg (by simp [hc'])]
  exact forM_checkCandle_append h

/-! ## The feature series -/

section
variable {library : TechnicalLibrary} {spec : StrategySpecification}

theorem seriesStep_append {technical technical' : Nat → String → Option Dec}
    {candles later : List BacktestCandle} {entry : BacktestCandle × Nat}
    (h : entry.2 < candles.length) (ht : technical' entry.2 = technical entry.2)
    (acc : AtrState × List FeaturePoint) :
    seriesStep spec technical' (candles ++ later) acc entry =
      seriesStep spec technical candles acc entry := by
  obtain ⟨candle, index⟩ := entry
  have hp : index - 1 < candles.length := by
    have : index < candles.length := h
    omega
  unfold seriesStep
  simp only [candleFeatures_append h, getD_append_left candle hp]
  rw [show technical' index = technical index from ht]

variable (spec) in
theorem seriesStep_grows (technical : Nat → String → Option Dec) (candles : List BacktestCandle)
    (acc : AtrState × List FeaturePoint) (entry : BacktestCandle × Nat) :
    ∃ point, (seriesStep spec technical candles acc entry).2 = acc.2 ++ [point] := by
  unfold seriesStep
  cases spec.parameters.atrPeriod <;> exact ⟨_, rfl⟩

/-- The loop over a longer history starts with the loop over the shorter one. -/
theorem series_append {technical technical' : Nat → String → Option Dec}
    {candles later : List BacktestCandle}
    (ht : ∀ index < candles.length, technical' index = technical index) :
    (candles.zipIdx.foldl (seriesStep spec technical candles) ({}, [])).2 <+:
      ((candles ++ later).zipIdx.foldl (seriesStep spec technical' (candles ++ later)) ({}, [])).2 := by
  have hsame : candles.zipIdx.foldl (seriesStep spec technical' (candles ++ later)) ({}, []) =
      candles.zipIdx.foldl (seriesStep spec technical candles) ({}, []) := by
    apply List.foldl_ext
    intro acc entry hentry
    have hlt : entry.2 < candles.length := by
      have := List.snd_lt_of_mem_zipIdx hentry
      omega
    exact seriesStep_append hlt (ht _ hlt) acc
  rw [List.zipIdx_append, List.foldl_append, hsame]
  apply prefix_foldl Prod.snd
  intro acc entry
  obtain ⟨point, hp⟩ := seriesStep_grows spec technical' (candles ++ later) acc entry
  rw [hp]
  exact List.prefix_append _ _

/-- **The features of the past are the same in a longer history.** -/
theorem strategyFeatureSeries_append (hc : Causal library) {candles later : List BacktestCandle}
    {series series' : List FeaturePoint}
    (h : strategyFeatureSeries library spec candles = .ok series)
    (h' : strategyFeatureSeries library spec (candles ++ later) = .ok series') :
    series <+: series' := by
  unfold strategyFeatureSeries at h h'
  obtain ⟨technical, ht, h⟩ := ok_of_bind h
  obtain ⟨technical', ht', h'⟩ := ok_of_bind h'
  cases h
  cases h'
  apply series_append
  intro index hlt
  unfold technicalFeatureSeries at ht ht'
  split at ht
  · rename_i he
    rw [if_pos he] at ht'
    cases ht
    cases ht'
    rfl
  · rename_i he
    rw [if_neg he] at ht'
    obtain ⟨-, -, ht⟩ := ok_of_bind ht
    obtain ⟨-, -, ht'⟩ := ok_of_bind ht'
    cases ht
    cases ht'
    exact technicalRow_append hc hlt _

end

/-! ## Fills -/

/-- What fills take of a trade. -/
def sizes (fills : List Fill) : ℚ := (fills.map Fill.size).sum

section
variable {zones : ZoneInfo} {spec : StrategySpecification} {rules : TradeRules}
  {configuration : BacktestConfiguration} {replay : Replay}

variable (rules) in
theorem takeTargets_left (candle : BacktestCandle) (fraction : ℚ) (targets : List ℚ) (index : Nat)
    (available : ℚ) :
    (takeTargets rules candle fraction targets index available).2.2 =
      available - sizes (takeTargets rules candle fraction targets index available).1 := by
  induction targets generalizing index available with
  | nil => simp [takeTargets, sizes]
  | cons target rest ih =>
    rw [takeTargets]
    by_cases hit : reaches rules candle target = true
    · rw [if_pos hit]
      dsimp only
      rw [ih]
      simp only [sizes, List.map_cons, List.sum_cons]
      ring
    · rw [if_neg hit]
      simp [sizes]

variable (spec rules) in
/-- At the last bar of a history only what the bar left open is closed in addition. -/
theorem barFills_closing (candle : BacktestCandle) (previous : FeaturePoint) (t : OpenTrade) :
    barFills spec rules true candle previous t = barFills spec rules false candle previous t ∨
      0 < t.remaining - sizes (barFills spec rules false candle previous t).1 := by
  unfold barFills
  split
  · exact .inl rfl
  · split
    · exact .inl rfl
    · split
      · exact .inl rfl
      · by_cases hl : 0 < (takeTargets rules candle (1 / t.targets.length)
            (t.targets.drop t.targetIndex) t.targetIndex t.remaining).2.2
        · right
          have h := takeTargets_left rules candle (1 / t.targets.length)
            (t.targets.drop t.targetIndex) t.targetIndex t.remaining
          simp only [Bool.false_and, Bool.false_eq_true, if_false, List.append_nil]
          rw [← h]
          exact hl
        · left
          simp only [hl, decide_false, Bool.and_false]

theorem applyFills_remaining (time : AwareTime) (fills : List Fill) (t : OpenTrade) :
    (fills.foldl (applyFill rules configuration time) t).remaining = t.remaining - sizes fills := by
  induction fills generalizing t with
  | nil => simp [sizes]
  | cons fill fills ih =>
    rw [List.foldl_cons, ih]
    simp only [applyFill, sizes, List.map_cons, List.sum_cons]
    ring

theorem ratchet_remaining (candle : BacktestCandle) (t : OpenTrade) :
    (ratchet spec rules candle t).remaining = t.remaining := rfl

theorem fillBar_remaining (closing : Bool) (bar : Bar) (t : OpenTrade) :
    (fillBar spec rules configuration replay closing bar t).remaining =
      t.remaining - sizes (barFills spec rules closing bar.1
        (bar.2.withNews (barNews spec replay bar.1.observedAt)) t).1 :=
  applyFills_remaining bar.1.observedAt _ _

/-- What is left behind a bar. -/
theorem manageBar_remaining (closing : Bool) (bar : Bar) (t : OpenTrade) :
    (manageBar spec rules configuration replay closing bar t).remaining =
      (fillBar spec rules configuration replay closing bar t).remaining := by
  unfold manageBar
  dsimp only
  split
  · exact ratchet_remaining bar.1 _
  · rfl

/-- A trade the bar closes by itself is closed the same way at the end of the history. -/
theorem manageBar_closing {bar : Bar} {t : OpenTrade}
    (h : ¬0 < (manageBar spec rules configuration replay false bar t).remaining) :
    manageBar spec rules configuration replay true bar t =
      manageBar spec rules configuration replay false bar t := by
  rw [manageBar_remaining, fillBar_remaining] at h
  have hfills := (barFills_closing spec rules bar.1
    (bar.2.withNews (barNews spec replay bar.1.observedAt)) t).resolve_right h
  unfold manageBar fillBar
  simp only [hfills]

/-! ## The run -/

/-- A simulation has the closed trades of another one and possibly more. -/
structure Extends (s s' : Simulation) : Prop where
  trades : s.trades <+: s'.trades
  attribution : s.attribution <+: s'.attribution

theorem Extends.refl (s : Simulation) : Extends s s := ⟨List.prefix_refl _, List.prefix_refl _⟩

theorem Extends.trans {s s' s'' : Simulation} (h : Extends s s') (h' : Extends s' s'') :
    Extends s s'' := ⟨h.trades.trans h'.trades, h.attribution.trans h'.attribution⟩

theorem settle_extends (s : Simulation) (t : OpenTrade) :
    Extends s (s.settle rules configuration t) := by
  unfold Simulation.settle
  split
  · exact ⟨List.prefix_refl _, List.prefix_refl _⟩
  · exact ⟨List.prefix_append _ _, List.prefix_append _ _⟩

/-- A bar only appends closed trades. -/
theorem stepBar_extends (closing : Bool) (s : Simulation) (bar : Bar) :
    Extends s (stepBar zones spec rules configuration replay closing s bar) := by
  unfold stepBar
  split
  · exact Extends.refl s
  · exact settle_extends s _

/-- Closing at the end of the history only appends to what the bar closes by itself. -/
theorem stepBar_closing (closing : Bool) (s : Simulation) (bar : Bar) :
    Extends (stepBar zones spec rules configuration replay false s bar)
      (stepBar zones spec rules configuration replay closing s bar) := by
  cases closing with
  | false => exact Extends.refl _
  | true =>
    unfold stepBar
    split
    · exact Extends.refl s
    · rename_i t _
      by_cases h : 0 < (manageBar spec rules configuration replay false bar t).remaining
      · have hs : s.settle rules configuration
            (manageBar spec rules configuration replay false bar t) =
              { s with trade := some (manageBar spec rules configuration replay false bar t) } :=
          if_pos h
        rw [hs]
        exact ⟨(settle_extends s _).trades, (settle_extends s _).attribution⟩
      · rw [manageBar_closing h]
        exact Extends.refl _

theorem simulateBars_extends (s : Simulation) (bars : List Bar) :
    Extends s (simulateBars zones spec rules configuration replay s bars) := by
  induction bars generalizing s with
  | nil => exact Extends.refl s
  | cons bar bars ih => exact (stepBar_extends _ s bar).trans (ih _)

/-- **A run over more bars closes the trades of the shorter run first.** -/
theorem simulateBars_prefix (s : Simulation) (bars later : List Bar) :
    Extends
      (simulateBars zones spec rules configuration { replay with closeAtEnd := false } s bars)
      (simulateBars zones spec rules configuration replay s (bars ++ later)) := by
  induction bars generalizing s with
  | nil => exact simulateBars_extends s later
  | cons bar bars ih =>
    rw [List.cons_append, simulateBars, simulateBars]
    by_cases he : (bars ++ later).isEmpty = true
    · -- The last bar of the longer history too: it may be closed there.
      obtain ⟨rfl, rfl⟩ : bars = [] ∧ later = [] := by simpa using he
      exact stepBar_closing _ s bar
    · rw [Bool.not_eq_true] at he
      rw [he, Bool.and_false]
      exact ih _

end

/-! ## No look-ahead -/

section
variable {library : TechnicalLibrary} {zones : ZoneInfo} {spec : StrategySpecification}
  {configuration : BacktestConfiguration} {replay : Replay} {candles later : List BacktestCandle}

/-- A history with a candle that the features of a longer history are computed on passes the candle
checks itself. -/
theorem strategyFeatureSeries_returns (hne : candles ≠ [])
    (h : Returns (strategyFeatureSeries library spec (candles ++ later))) :
    Returns (strategyFeatureSeries library spec candles) := by
  obtain ⟨series, h⟩ := h
  unfold strategyFeatureSeries at h ⊢
  obtain ⟨technical, ht, -⟩ := ok_of_bind h
  have htech : Returns (technicalFeatureSeries library candles
      (requiredTechnicalFeatures spec)) := by
    unfold technicalFeatureSeries at ht ⊢
    split at ht
    · rename_i he
      exact ⟨_, if_pos he⟩
    · rename_i he
      obtain ⟨u, hv, -⟩ := ok_of_bind ht
      have hlen : 1 ≤ candles.length := List.length_pos_of_ne_nil hne
      rw [if_neg he]
      exact ⟨_, bind_ok_eq (validateCandles_append hlen hv) _⟩
  obtain ⟨technical', ht'⟩ := htech
  exact ⟨_, bind_ok_eq ht' _⟩

theorem simulate_extends (hc : Causal library) {s s' : Simulation}
    (h : simulateProtectedTrades library zones spec candles configuration
      { replay with closeAtEnd := false } = .ok s)
    (h' : simulateProtectedTrades library zones spec (candles ++ later) configuration replay =
      .ok s') : Extends s s' := by
  unfold simulateProtectedTrades at h h'
  cases hr : spec.tradeRules with
  | none => simp [hr] at h
  | some rules =>
    simp only [hr] at h h'
    obtain ⟨series, hs, h⟩ := ok_of_bind h
    obtain ⟨series', hs', h'⟩ := ok_of_bind h'
    cases h
    cases h'
    have hbars : barsOf candles series <+: barsOf (candles ++ later) series' :=
      prefix_zip (prefix_drop (List.prefix_append _ _) 2)
        (prefix_drop (strategyFeatureSeries_append hc hs hs') 1)
    obtain ⟨bars, hb⟩ := hbars
    rw [← hb]
    exact simulateBars_prefix _ _ _

theorem simulate_returns (hne : candles ≠ [])
    (h : Returns (simulateProtectedTrades library zones spec (candles ++ later) configuration
      replay)) :
    Returns (simulateProtectedTrades library zones spec candles configuration
      { replay with closeAtEnd := false }) := by
  unfold simulateProtectedTrades at h ⊢
  cases hr : spec.tradeRules with
  | none =>
    simp only [hr] at h
    exact absurd h (not_returns_error _)
  | some rules =>
    simp only [hr] at h ⊢
    obtain ⟨series, hs, -⟩ := returns_bind.1 h
    obtain ⟨series', hs'⟩ := strategyFeatureSeries_returns hne ⟨series, hs⟩
    exact ⟨_, bind_ok_eq hs' _⟩

/-- **The closed trades of a history, with their records, are the first ones of every longer
history**, and a history with a candle is simulated whenever a longer one is. -/
theorem no_look_ahead (hc : Causal library) :
    (∀ s s', simulateProtectedTrades library zones spec candles configuration
        { replay with closeAtEnd := false } = .ok s →
      simulateProtectedTrades library zones spec (candles ++ later) configuration replay = .ok s' →
      s.trades <+: s'.trades ∧ s.attribution <+: s'.attribution) ∧
    (candles ≠ [] →
      Returns (simulateProtectedTrades library zones spec (candles ++ later) configuration
        replay) →
      Returns (simulateProtectedTrades library zones spec candles configuration
        { replay with closeAtEnd := false })) := by
  refine ⟨fun s s' h h' => ?_, simulate_returns⟩
  have he := simulate_extends hc h h'
  exact ⟨he.trades, he.attribution⟩

end

/-! ## A history with one closed trade -/

theorem unit_pos : (0 : ℚ) < 1 := by norm_num

theorem unit_le_ten : (1 : ℚ) ≤ 10 := by norm_num

theorem unit_le_hundred : (1 : ℚ) ≤ 100 := by norm_num

def longRules : TradeRules where
  direction := .long
  stopVolatilityMultiple := 1
  takeProfitRMultiples := [1]
  stop_pos := unit_pos
  stop_le := unit_le_ten
  targets_nonempty := by simp
  targets_length := by simp
  targets_pos := by simp
  targets_increasing := by simp

def neverRule : Condition := ⟨"close", .lt, .number 0⟩

/-- Buys behind every candle with a true range, leaves at the stop or the target. -/
def rangeStrategy : StrategySpecification where
  instrument := "EURUSD"
  entry := [⟨"trange", .gt, .number 0⟩]
  exit := [neverRule]
  stopLoss := neverRule
  riskPerTrade := 1
  tradeRules := some longRules
  entry_nonempty := by simp
  exit_nonempty := by simp
  risk_pos := unit_pos
  risk_le := unit_le_hundred

/-- The indicator `trange`, unknown in the first row; the other indicators are still unknown. -/
def trangeLibrary : TechnicalLibrary := fun candles index name =>
  match candles[index - 1]?, candles[index]? with
  | some previous, some candle =>
    if name = "trange" ∧ 0 < index then .fin (trueRange previous candle) else .nan
  | _, _ => .nan

theorem trangeLibrary_causal : Causal trangeLibrary := by
  intro candles later index h
  have hp : index - 1 < candles.length := by omega
  funext name
  unfold trangeLibrary
  rw [List.getElem?_append_left h, List.getElem?_append_left hp]

/-- The quarter-hour bar number `n`, opened and closed at 100. -/
def quarterBar (n : ℕ) (high low : ℚ) : BacktestCandle where
  observedAt := ⟨n * 900000000, 0⟩
  openPrice := 100
  high
  low
  close := 100
  volume := 1

theorem ten_thousand_pos : (0 : ℚ) < 10000 := by norm_num

def plainAccount : BacktestConfiguration where
  initialEquity := 10000
  equity_pos := ten_thousand_pos

def utcOnly : ZoneInfo := fun _ _ => 0

def risingBars : List BacktestCandle :=
  [quarterBar 0 101 99, quarterBar 1 101 99, quarterBar 2 101 99, quarterBar 3 103 99]

def closedTrades (candles : List BacktestCandle) : Option ℕ :=
  (simulateProtectedTrades trangeLibrary utcOnly rangeStrategy candles plainAccount
    { closeAtEnd := false }).toOption.map fun s => s.trades.length

/-- One more bar: the trade closed in the shorter history is the first of the longer one's. -/
theorem no_look_ahead_trange :
    ∃ s s', simulateProtectedTrades trangeLibrary utcOnly rangeStrategy risingBars plainAccount
        { closeAtEnd := false } = .ok s ∧
      simulateProtectedTrades trangeLibrary utcOnly rangeStrategy
        (risingBars ++ [quarterBar 4 103 99]) plainAccount { closeAtEnd := false } = .ok s' ∧
      s.trades.length = 1 ∧ s'.trades.length = 2 ∧ s.trades <+: s'.trades := by
  have h : closedTrades risingBars = some 1 := by decide +kernel
  have h' : closedTrades (risingBars ++ [quarterBar 4 103 99]) = some 2 := by decide +kernel
  obtain ⟨s, hs, hl⟩ := Option.map_eq_some_iff.1 h
  obtain ⟨s', hs', hl'⟩ := Option.map_eq_some_iff.1 h'
  rw [toOption_eq_some] at hs hs'
  exact ⟨s, s', hs, hs', hl, hl', ((no_look_ahead trangeLibrary_causal).1 s s' hs hs').1⟩

end Matrades

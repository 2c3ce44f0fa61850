import Matrades.Backtesting.Proof.Causal

/-!
# Resuming a replay

A simulation of a longer history goes on from the state the simulation of the shorter one ended in
(`simulate_resume`), also when entry times and news states of later bars have been added in between.
While no bar may be entered a flat simulation does nothing (`simulateBars_quiet`); with at most one
such bar a trade that closes leaves it flat (`simulateBars_once`).
-/

namespace Matrades

open Base

section
variable {zones : ZoneInfo} {spec : StrategySpecification} {rules : TradeRules}
  {configuration : BacktestConfiguration} {replay replay' : Replay}

/-! ## What a replay reads -/

/-- Two replays decide the same at a time. -/
structure AgreeAt (zones : ZoneInfo) (spec : StrategySpecification) (replay replay' : Replay)
    (time : AwareTime) : Prop where
  allowed : entryAllowed zones spec replay time = entryAllowed zones spec replay' time
  news : barNews spec replay time = barNews spec replay' time

theorem stepBar_congr {bar : Bar} (h : AgreeAt zones spec replay replay' bar.1.observedAt)
    (closing : Bool) (s : Simulation) :
    stepBar zones spec rules configuration replay closing s bar =
      stepBar zones spec rules configuration replay' closing s bar := by
  unfold stepBar enterAt manageBar fillBar
  simp only [h.allowed, h.news]

theorem simulateBars_congr {bars : List Bar} (hclose : replay.closeAtEnd = replay'.closeAtEnd)
    (h : ∀ bar ∈ bars, AgreeAt zones spec replay replay' bar.1.observedAt) (s : Simulation) :
    simulateBars zones spec rules configuration replay s bars =
      simulateBars zones spec rules configuration replay' s bars := by
  induction bars generalizing s with
  | nil => rfl
  | cons bar bars ih =>
    rw [simulateBars, simulateBars, hclose, stepBar_congr (h bar List.mem_cons_self)]
    exact ih (fun b hb => h b (List.mem_cons_of_mem bar hb)) _

theorem simulateBars_append (hclose : replay.closeAtEnd = false) (s : Simulation)
    (bars later : List Bar) :
    simulateBars zones spec rules configuration replay s (bars ++ later) =
      simulateBars zones spec rules configuration replay
        (simulateBars zones spec rules configuration replay s bars) later := by
  induction bars generalizing s with
  | nil => rfl
  | cons bar bars ih =>
    simp only [List.cons_append, simulateBars, hclose, Bool.false_and]
    exact ih _

/-! ## Bars that may not be entered -/

theorem stepBar_flat {bar : Bar} {s : Simulation} (hflat : s.trade = none)
    (hbar : entryAllowed zones spec replay bar.1.observedAt = false) (closing : Bool) :
    stepBar zones spec rules configuration replay closing s bar = s := by
  have hnone : enterAt zones spec rules configuration replay bar = none := by
    unfold enterAt
    simp [hbar]
  unfold stepBar
  rw [hflat, hnone]
  rfl

/-- A flat simulation passes over bars that may not be entered. -/
theorem simulateBars_quiet {bars : List Bar} {s : Simulation} (hflat : s.trade = none)
    (h : ∀ bar ∈ bars, entryAllowed zones spec replay bar.1.observedAt = false) :
    simulateBars zones spec rules configuration replay s bars = s := by
  induction bars with
  | nil => rfl
  | cons bar bars ih =>
    rw [simulateBars, stepBar_flat hflat (h bar List.mem_cons_self)]
    exact ih fun b hb => h b (List.mem_cons_of_mem bar hb)

/-- The closed trades are the same, or the last one has just been closed. -/
def ClosedOrFlat (s s' : Simulation) : Prop :=
  s'.trades = s.trades ∧ s'.attribution = s.attribution ∨ s'.trade = none

variable (zones spec rules configuration replay) in
theorem stepBar_closedOrFlat (closing : Bool) (s : Simulation) (bar : Bar) :
    ClosedOrFlat s (stepBar zones spec rules configuration replay closing s bar) := by
  unfold stepBar
  split
  · exact .inl ⟨rfl, rfl⟩
  · unfold Simulation.settle
    split
    · exact .inl ⟨rfl, rfl⟩
    · exact .inr rfl

/-- Where no bar may be entered, closing a trade leaves the simulation flat. -/
theorem simulateBars_closedOrFlat {bars : List Bar} {s : Simulation}
    (h : ∀ bar ∈ bars, entryAllowed zones spec replay bar.1.observedAt = false) :
    ClosedOrFlat s (simulateBars zones spec rules configuration replay s bars) := by
  induction bars generalizing s with
  | nil => exact .inl ⟨rfl, rfl⟩
  | cons bar bars ih =>
    have hrest := fun b hb => h b (List.mem_cons_of_mem bar hb)
    rw [simulateBars]
    rcases stepBar_closedOrFlat zones spec rules configuration replay
      (replay.closeAtEnd && bars.isEmpty) s bar with hsame | hflat
    · rcases ih hrest (s := stepBar zones spec rules configuration replay
        (replay.closeAtEnd && bars.isEmpty) s bar) with hs | hf
      · exact .inl ⟨hs.1.trans hsame.1, hs.2.trans hsame.2⟩
      · exact .inr hf
    · rw [simulateBars_quiet hflat hrest]
      exact .inr hflat

/-- With one bar to enter at most, too. -/
theorem simulateBars_once {bars : List Bar} {s : Simulation} (hflat : s.trade = none)
    (h : (bars.filter fun bar => entryAllowed zones spec replay bar.1.observedAt).length ≤ 1) :
    ClosedOrFlat s (simulateBars zones spec rules configuration replay s bars) := by
  induction bars with
  | nil => exact .inl ⟨rfl, rfl⟩
  | cons bar bars ih =>
    by_cases hbar : entryAllowed zones spec replay bar.1.observedAt = true
    · -- The one bar: none of the others may be entered.
      have hrest : ∀ b ∈ bars, entryAllowed zones spec replay b.1.observedAt = false := by
        intro b hb
        simp only [List.filter_cons, hbar, if_true, List.length_cons] at h
        have hnil : bars.filter (fun bar => entryAllowed zones spec replay bar.1.observedAt) = [] :=
          List.length_eq_zero_iff.1 (by omega)
        simpa using List.filter_eq_nil_iff.1 hnil b hb
      rw [simulateBars]
      rcases stepBar_closedOrFlat zones spec rules configuration replay
        (replay.closeAtEnd && bars.isEmpty) s bar with hsame | hf
      · rcases simulateBars_closedOrFlat hrest (s := stepBar zones spec rules configuration replay
          (replay.closeAtEnd && bars.isEmpty) s bar) with hs | hf
        · exact .inl ⟨hs.1.trans hsame.1, hs.2.trans hsame.2⟩
        · exact .inr hf
      · rw [simulateBars_quiet hf hrest]
        exact .inr hf
    · rw [Bool.not_eq_true] at hbar
      rw [simulateBars, stepBar_flat hflat hbar]
      apply ih
      simpa only [List.filter_cons, hbar, Bool.false_eq_true, if_false] using h

end

/-! ## Going on from a stored history -/

section
variable {library : TechnicalLibrary} {zones : ZoneInfo} {spec : StrategySpecification}
  {configuration : BacktestConfiguration} {replay replay' : Replay}
  {candles later : List BacktestCandle}

theorem series_length (technical : Nat → String → Option Dec) (all : List BacktestCandle)
    (entries : List (BacktestCandle × Nat)) (acc : AtrState × List FeaturePoint) :
    (entries.foldl (seriesStep spec technical all) acc).2.length =
      acc.2.length + entries.length := by
  induction entries generalizing acc with
  | nil => rfl
  | cons entry entries ih =>
    obtain ⟨point, hp⟩ := seriesStep_grows spec technical all acc entry
    rw [List.foldl_cons, ih, hp, List.length_append, List.length_singleton, List.length_cons]
    omega

theorem strategyFeatureSeries_length {series : List FeaturePoint}
    (h : strategyFeatureSeries library spec candles = .ok series) :
    series.length = candles.length := by
  unfold strategyFeatureSeries at h
  obtain ⟨technical, -, h⟩ := ok_of_bind h
  cases h
  rw [series_length]
  simp

theorem barsOf_candles {series : List FeaturePoint} (h : series.length = candles.length) :
    (barsOf candles series).map Prod.fst = candles.drop 2 := by
  apply List.map_fst_zip
  simp only [List.length_drop]
  omega

/-- A simulation that returned is the run over its bars. -/
theorem simulate_run {s : Simulation}
    (h : simulateProtectedTrades library zones spec candles configuration replay = .ok s) :
    ∃ rules series, spec.tradeRules = some rules ∧
      strategyFeatureSeries library spec candles = .ok series ∧
      s = simulateBars zones spec rules configuration replay {} (barsOf candles series) := by
  unfold simulateProtectedTrades at h
  cases hr : spec.tradeRules with
  | none => simp [hr] at h
  | some rules =>
    simp only [hr] at h
    obtain ⟨series, hs, h⟩ := ok_of_bind h
    cases h
    exact ⟨rules, series, rfl, hs, rfl⟩

theorem barsOf_agree {series : List FeaturePoint} (hlen : series.length = candles.length)
    (hagree : ∀ c ∈ candles, AgreeAt zones spec replay replay' c.observedAt) :
    ∀ bar ∈ barsOf candles series, AgreeAt zones spec replay replay' bar.1.observedAt := by
  intro bar hbar
  apply hagree
  have hmem : bar.1 ∈ (barsOf candles series).map Prod.fst := List.mem_map_of_mem hbar
  rw [barsOf_candles hlen] at hmem
  exact List.mem_of_mem_drop hmem

/-- Replays that agree at every candle simulate the same. -/
theorem simulate_congr (hclose : replay.closeAtEnd = replay'.closeAtEnd)
    (hagree : ∀ c ∈ candles, AgreeAt zones spec replay replay' c.observedAt) :
    simulateProtectedTrades library zones spec candles configuration replay =
      simulateProtectedTrades library zones spec candles configuration replay' := by
  unfold simulateProtectedTrades
  cases spec.tradeRules with
  | none => rfl
  | some rules =>
    dsimp only
    cases hs : strategyFeatureSeries library spec candles with
    | error e => rw [bind_error_eq rfl, bind_error_eq rfl]
    | ok series =>
      have hbars := barsOf_agree (strategyFeatureSeries_length hs) hagree
      rw [bind_ok_eq rfl, bind_ok_eq rfl, simulateBars_congr hclose hbars {}]

theorem prefix_getLast {series series' : List FeaturePoint} (h : series <+: series')
    (hne : series ≠ []) : series.getLast? = series'[series.length - 1]? := by
  have hpos := List.length_pos_of_ne_nil hne
  obtain ⟨rest, rfl⟩ := h
  rw [List.getLast?_eq_getElem?, List.getElem?_append_left (by omega)]

/-- The first bar behind a history is read with the features of its last candle. -/
theorem next_bar {series series' : List FeaturePoint} {bars rest : List Bar} {bar : Bar}
    (htwo : 2 ≤ candles.length) (hlen : series.length = candles.length) (hs : series <+: series')
    (hb : barsOf candles series ++ bars = barsOf (candles ++ later) series')
    (hbars : bars = bar :: rest) : series.getLast? = some bar.2 := by
  have hfst : (barsOf candles series).length = candles.length - 2 := by
    rw [← List.length_map (f := Prod.fst), barsOf_candles hlen, List.length_drop]
  have hget : (barsOf (candles ++ later) series')[candles.length - 2]? = some bar := by
    rw [← hb, hbars, List.getElem?_append_right (by omega), hfst]
    simp
  have hsecond := (List.getElem?_zip_eq_some.1 hget).2
  rw [List.getElem?_drop] at hsecond
  rw [prefix_getLast hs (List.ne_nil_of_length_pos (by omega)), hlen, ← hsecond]
  congr 1
  omega

/-- **The simulation of a longer history goes on where the shorter one ended**, when the two replays
agree at the bars of the shorter one. -/
theorem simulate_resume (hc : Causal library) (htwo : 2 ≤ candles.length)
    (hclose : replay.closeAtEnd = false) (hclose' : replay'.closeAtEnd = false)
    (hagree : ∀ c ∈ candles, AgreeAt zones spec replay replay' c.observedAt) {s s' : Simulation}
    (h : simulateProtectedTrades library zones spec candles configuration replay = .ok s)
    (h' : simulateProtectedTrades library zones spec (candles ++ later) configuration replay' =
      .ok s') :
    ∃ rules bars, spec.tradeRules = some rules ∧ bars.map Prod.fst = later ∧
      (∃ series, strategyFeatureSeries library spec candles = .ok series ∧
        ∀ bar rest, bars = bar :: rest → series.getLast? = some bar.2) ∧
      s' = simulateBars zones spec rules configuration replay' s bars := by
  obtain ⟨rules, series, hr, hs, rfl⟩ := simulate_run h
  obtain ⟨rules', series', hr', hs', rfl⟩ := simulate_run h'
  rw [hr] at hr'
  cases hr'
  have hseries := strategyFeatureSeries_append hc hs hs'
  obtain ⟨bars, hb⟩ : barsOf candles series <+: barsOf (candles ++ later) series' :=
    prefix_zip (prefix_drop (List.prefix_append _ _) 2) (prefix_drop hseries 1)
  have hfst := barsOf_candles (strategyFeatureSeries_length hs)
  have hfst' := barsOf_candles (strategyFeatureSeries_length hs')
  have hnew : bars.map Prod.fst = later := by
    rw [← hb, List.map_append, hfst, List.drop_append_of_le_length htwo] at hfst'
    exact List.append_cancel_left hfst'
  refine ⟨rules, bars, hr, hnew, ⟨series, hs, fun bar rest hbars =>
    next_bar htwo (strategyFeatureSeries_length hs) hseries hb hbars⟩, ?_⟩
  rw [← hb, simulateBars_append hclose', simulateBars_congr (hclose.trans hclose'.symm)
    (barsOf_agree (strategyFeatureSeries_length hs) hagree)]

end

end Matrades

import Matrades.Backtesting.Proof.Resume

/-!
# Two ways to the same features

The setup evaluates the features of the latest candle on its own (`strategy_features`: the average
true range over the whole prefix), the simulator as the last entry of the batch series
(`strategy_feature_series`: the average carried along). They agree on every history.
-/

namespace Matrades

open Base

/-! ## The average true range -/

theorem trueRanges_concat {candles : List BacktestCandle} {last : BacktestCandle}
    (h : candles.getLast? = some last) (next : BacktestCandle) :
    trueRanges (candles ++ [next]) = trueRanges candles ++ [trueRange last next] := by
  induction candles with
  | nil => cases h
  | cons c cs ih =>
    cases cs with
    | nil =>
      cases h
      rfl
    | cons d ds =>
      have hrest : (d :: ds).getLast? = some last := by
        rwa [List.getLast?_cons_cons] at h
      have hstep : ∀ xs : List BacktestCandle,
          trueRanges (c :: d :: xs) = trueRange c d :: trueRanges (d :: xs) := fun _ => rfl
      rw [List.cons_append, List.cons_append, hstep, hstep, List.cons_append]
      exact congrArg (trueRange c d :: ·) (ih hrest)

theorem trueRanges_length (candles : List BacktestCandle) :
    (trueRanges candles).length = candles.length - 1 := by
  unfold trueRanges
  rw [List.length_map, List.length_zip, List.length_tail]
  omega

/-- The state of the batch evaluation behind given true ranges. -/
def atrOf (period : ℕ) (ranges : List ℚ) : AtrState where
  total := (ranges.take period).sum
  atr := if ranges.length < period then 0 else wilderATR period ranges

theorem atrOf_nil {period : ℕ} (h : 2 ≤ period) : atrOf period [] = {} := by
  have hp : ([] : List ℚ).length < period := by
    rw [List.length_nil]
    omega
  unfold atrOf
  rw [if_pos hp]
  simp

/-- One more range. -/
theorem atrOf_step (period : ℕ) (ranges : List ℚ) (range : ℚ) :
    (atrOf period ranges).step period (ranges.length + 1) range =
      atrOf period (ranges ++ [range]) := by
  have hlen : (ranges ++ [range]).length = ranges.length + 1 := by simp
  unfold AtrState.step atrOf
  dsimp only
  rw [if_neg (Nat.succ_ne_zero _), hlen]
  by_cases hle : ranges.length + 1 ≤ period
  · have htake : (ranges ++ [range]).take period = ranges ++ [range] :=
      List.take_of_length_le (by omega)
    have htake' : ranges.take period = ranges := List.take_of_length_le (by omega)
    have hsum : (ranges ++ [range]).sum = ranges.sum + range := by simp
    rw [if_pos hle, if_pos (show ranges.length < period by omega), htake, htake', hsum]
    by_cases heq : ranges.length + 1 = period
    · have hdrop : (ranges ++ [range]).drop period = [] := List.drop_eq_nil_of_le (by omega)
      rw [if_pos heq, if_neg (by omega), wilderATR, hdrop, htake, hsum]
      rfl
    · rw [if_neg heq, if_pos (by omega)]
  · have hdrop : (ranges ++ [range]).drop period = ranges.drop period ++ [range] :=
      List.drop_append_of_le_length (by omega)
    have htake : (ranges ++ [range]).take period = ranges.take period :=
      List.take_append_of_le_length (by omega)
    rw [if_neg hle, if_neg (show ¬ranges.length < period by omega),
      if_neg (show ¬ranges.length + 1 < period by omega), htake]
    simp only [wilderATR, hdrop, htake, List.foldl_append, List.foldl_cons, List.foldl_nil]

section
variable {spec : StrategySpecification}

theorem seriesStep_atr {period : ℕ} (hperiod : spec.parameters.atrPeriod = some period)
    (technical : ℕ → String → Option Dec) (all : List BacktestCandle)
    (acc : AtrState × List FeaturePoint) (c : BacktestCandle) (index : ℕ) :
    (seriesStep spec technical all acc (c, index)).1 =
      acc.1.step period index (trueRange (all.getD (index - 1) c) c) := by
  unfold seriesStep
  simp only [hperiod]

/-- **The average the batch evaluation carries is the one of the prefix.** -/
theorem series_atr {period : ℕ} (hperiod : spec.parameters.atrPeriod = some period)
    (technical : ℕ → String → Option Dec) (seen rest : List BacktestCandle) :
    (seen.zipIdx.foldl (seriesStep spec technical (seen ++ rest)) ({}, [])).1 =
      atrOf period (trueRanges seen) := by
  have htwo : 2 ≤ period := (spec.parameters.period_bounds period hperiod).1
  induction seen using List.reverseRecOn generalizing rest with
  | nil => exact (atrOf_nil htwo).symm
  | append_singleton seen c ih =>
    rw [List.zipIdx_append, List.foldl_append, List.append_assoc]
    have hone : [c].zipIdx (0 + seen.length) = [(c, seen.length)] := by simp
    rw [hone, List.foldl_cons, List.foldl_nil]
    rw [seriesStep_atr hperiod, ih ([c] ++ rest)]
    cases hlast : seen.getLast? with
    | none =>
      rw [List.getLast?_eq_none_iff.1 hlast]
      rfl
    | some last =>
      have hpos : 0 < seen.length := List.length_pos_of_mem (List.mem_of_getLast? hlast)
      have hget : (seen ++ ([c] ++ rest)).getD (seen.length - 1) c = last := by
        rw [getD_append_left c (by omega), List.getD_eq_getElem?_getD, ← List.getLast?_eq_getElem?,
          hlast]
        rfl
      rw [hget, trueRanges_concat hlast, ← atrOf_step, trueRanges_length]
      congr 1
      omega

/-! ## The features of the latest candle -/

theorem slice_all {α : Type} {xs : List α} {n : ℕ} (h : xs.length ≤ n) : slice xs 0 n = xs := by
  unfold slice
  rw [List.take_of_length_le h, List.drop_zero]

theorem candleFeatures_period (candles : List BacktestCandle) (candle : BacktestCandle)
    (index window period : ℕ) :
    candleFeatures candles candle index window (some period) =
      { candleFeatures candles candle index window with
        volatility :=
          if index < period then 0
          else wilderATR period (trueRanges (slice candles 0 (index + 1))) } := rfl

/-- **The setup and the simulator see the same features of the latest candle.** -/
theorem strategyFeatures_eq_last {library : TechnicalLibrary} {seen : List BacktestCandle}
    {last : BacktestCandle} {series : List FeaturePoint}
    (h : strategyFeatureSeries library spec (seen ++ [last]) = .ok series) :
    ∃ f, series.getLast? = some f ∧
      strategyFeatures library spec (seen ++ [last]) last seen.length = .ok f := by
  unfold strategyFeatureSeries at h
  obtain ⟨technical, ht, h⟩ := ok_of_bind h
  cases h
  have hall : slice (seen ++ [last]) 0 (seen.length + 1) = seen ++ [last] := slice_all (by simp)
  have hone : [last].zipIdx (0 + seen.length) = [(last, seen.length)] := by simp
  unfold strategyFeatures
  dsimp only
  rw [hall, bind_ok_eq ht, List.zipIdx_append, List.foldl_append, hone, List.foldl_cons,
    List.foldl_nil]
  cases hperiod : spec.parameters.atrPeriod with
  | none =>
    refine ⟨_, ?_, rfl⟩
    unfold seriesStep
    simp only [hperiod]
    rw [List.getLast?_concat]
  | some period =>
    refine ⟨_, ?_, rfl⟩
    have hatr := series_atr hperiod technical (seen ++ [last]) []
    rw [List.append_nil, List.zipIdx_append, List.foldl_append, hone, List.foldl_cons,
      List.foldl_nil, seriesStep_atr hperiod] at hatr
    unfold seriesStep at hatr ⊢
    simp only [hperiod] at hatr ⊢
    rw [List.getLast?_concat, hatr, candleFeatures_period, hall]
    have hlen : (trueRanges (seen ++ [last])).length = seen.length := by
      rw [trueRanges_length]
      simp
    simp only [atrOf, hlen]

end

end Matrades

/-!
## The batch and the single evaluation agree

`strategy_feature_series` evaluates all candles in one pass, `strategy_features` one candle from its
prefix. At every index they give the same features, and what lies behind the index does not matter
(`batch_features_agree`): the setups and the simulations of one history see one signal.
-/

namespace Matrades

open Base

section
variable {library : TechnicalLibrary} {spec : StrategySpecification}

/-! ## No indicators asked for -/

/-- A library without values. -/
def noIndicators : TechnicalLibrary := fun _ _ _ => .nan

theorem noIndicators_causal : Causal noIndicators := fun _ _ _ _ => rfl

theorem technicalFeatureSeries_absent (h : requiredTechnicalFeatures spec = [])
    (candles : List BacktestCandle) :
    technicalFeatureSeries library candles (requiredTechnicalFeatures spec) =
      technicalFeatureSeries noIndicators candles (requiredTechnicalFeatures spec) := by
  unfold technicalFeatureSeries
  rw [h]
  rfl

/-- The library is not read where no indicator is asked for. -/
theorem exists_causal (h : requiredTechnicalFeatures spec = [] ∨ Causal library) :
    ∃ library', Causal library' ∧ ∀ candles,
      technicalFeatureSeries library candles (requiredTechnicalFeatures spec) =
        technicalFeatureSeries library' candles (requiredTechnicalFeatures spec) := by
  rcases h with habsent | hcausal
  · exact ⟨noIndicators, noIndicators_causal, technicalFeatureSeries_absent habsent⟩
  · exact ⟨library, hcausal, fun _ => rfl⟩

/-! ## When the batch evaluation returns -/

theorem technicalFeatureSeries_returns {candles : List BacktestCandle} {required : List String} :
    Returns (technicalFeatureSeries library candles required) ↔
      required = [] ∨ validateCandles 1 candles = .ok () := by
  unfold technicalFeatureSeries
  cases required with
  | nil => exact iff_of_true (returns_ok _) (.inl rfl)
  | cons name names =>
    rw [if_neg (by simp), returns_bind]
    constructor
    · rintro ⟨u, hu, -⟩
      exact .inr hu
    · rintro (hnil | hvalid)
      · cases hnil
      · exact ⟨(), hvalid, returns_ok _⟩

/-- It raises exactly where an indicator is asked for and the candles fail their checks. -/
theorem strategyFeatureSeries_returns_iff {candles : List BacktestCandle} :
    Returns (strategyFeatureSeries library spec candles) ↔
      requiredTechnicalFeatures spec = [] ∨ validateCandles 1 candles = .ok () := by
  rw [← @technicalFeatureSeries_returns library]
  unfold strategyFeatureSeries
  rw [returns_bind]
  constructor
  · rintro ⟨technical, htechnical, -⟩
    exact ⟨technical, htechnical⟩
  · rintro ⟨technical, htechnical⟩
    exact ⟨technical, htechnical, returns_ok _⟩

/-! ## The single evaluation reads a prefix -/

theorem slice_take {α : Type} (xs : List α) {lo hi n : ℕ} (h : hi ≤ n) :
    slice (xs.take n) lo hi = slice xs lo hi := by
  unfold slice
  rw [List.take_take, min_eq_left h]

theorem strategyFeatures_take {candles : List BacktestCandle} {index : ℕ}
    (h : index < candles.length) (candle : BacktestCandle) :
    strategyFeatures library spec (candles.take (index + 1)) candle index =
      strategyFeatures library spec candles candle index := by
  have hlt : index < (candles.take (index + 1)).length := by
    rw [List.length_take]
    omega
  have hpoint := @candleFeatures_append _ (candles.drop (index + 1)) _ hlt candle
    spec.parameters.structureWindow spec.parameters.atrPeriod
  rw [List.take_append_drop] at hpoint
  unfold strategyFeatures
  dsimp only
  rw [hpoint, slice_take candles (le_refl _)]

/-! ## Agreement -/

/-- The features of a candle, where the indicators are causal. -/
theorem series_point (hc : Causal library) {candles : List BacktestCandle}
    {series : List FeaturePoint} (h : strategyFeatureSeries library spec candles = .ok series)
    {index : ℕ} {candle : BacktestCandle} (hcandle : candles[index]? = some candle) :
    ∃ point, series[index]? = some point ∧
      strategyFeatures library spec (candles.take (index + 1)) candle index = .ok point := by
  obtain ⟨hlt, hget⟩ := List.getElem?_eq_some_iff.1 hcandle
  have htake : candles.take (index + 1) = candles.take index ++ [candle] := by
    rw [← hget, List.take_append_getElem hlt]
  have hlen : (candles.take index).length = index := by
    rw [List.length_take]
    omega
  have hne : candles.take (index + 1) ≠ [] := by
    rw [htake]
    exact List.append_ne_nil_of_right_ne_nil _ (List.cons_ne_nil _ _)
  -- The history up to the candle has the features of the whole one, the last of them its own.
  have hreturns : Returns (strategyFeatureSeries library spec
      (candles.take (index + 1) ++ candles.drop (index + 1))) := by
    rw [List.take_append_drop]
    exact ⟨series, h⟩
  obtain ⟨seen, hseen⟩ := strategyFeatureSeries_returns hne hreturns
  have hprefix : seen <+: series := by
    refine @strategyFeatureSeries_append _ _ hc _ (candles.drop (index + 1)) _ _ hseen ?_
    rw [List.take_append_drop]
    exact h
  have hseenlen : seen.length = index + 1 := by
    rw [strategyFeatureSeries_length hseen, List.length_take]
    omega
  rw [htake] at hseen
  obtain ⟨point, hlast, hpoint⟩ := strategyFeatures_eq_last hseen
  rw [hlen, ← htake] at hpoint
  refine ⟨point, ?_, hpoint⟩
  rw [List.getLast?_eq_getElem?, hseenlen] at hlast
  obtain ⟨rest, rfl⟩ := hprefix
  rw [List.getElem?_append_left (by omega)]
  exact hlast

/-- **The batch evaluation is the single evaluation at every index**, on the whole history as on the
prefix up to the index. -/
theorem batch_features_agree (hc : requiredTechnicalFeatures spec = [] ∨ Causal library)
    (candles : List BacktestCandle) :
    (Returns (strategyFeatureSeries library spec candles) ↔
      requiredTechnicalFeatures spec = [] ∨ validateCandles 1 candles = .ok ()) ∧
    ∀ series, strategyFeatureSeries library spec candles = .ok series →
      series.length = candles.length ∧
      ∀ index candle, candles[index]? = some candle → ∃ point, series[index]? = some point ∧
        strategyFeatures library spec candles candle index = .ok point ∧
        strategyFeatures library spec (candles.take (index + 1)) candle index = .ok point := by
  obtain ⟨library', hcausal, hsame⟩ := exists_causal hc
  refine ⟨strategyFeatureSeries_returns_iff, fun series h => ⟨strategyFeatureSeries_length h, ?_⟩⟩
  intro index candle hcandle
  obtain ⟨hlt, _⟩ := List.getElem?_eq_some_iff.1 hcandle
  have h' : strategyFeatureSeries library' spec candles = .ok series := by
    unfold strategyFeatureSeries at h ⊢
    rwa [← hsame]
  obtain ⟨point, hget, hpoint⟩ := series_point hcausal h' hcandle
  have hprefix : strategyFeatures library spec (candles.take (index + 1)) candle index = .ok point := by
    unfold strategyFeatures at hpoint ⊢
    rwa [hsame]
  refine ⟨point, hget, ?_, hprefix⟩
  rw [← strategyFeatures_take hlt]
  exact hprefix

/-- The last candle of a history with the indicator `trange`, on both ways. -/
theorem batch_features_agree_trange :
    ∃ series, strategyFeatureSeries trangeLibrary rangeStrategy risingBars = .ok series ∧
      ∃ point, series[3]? = some point ∧
        strategyFeatures trangeLibrary rangeStrategy risingBars (quarterBar 3 103 99) 3 = .ok point := by
  have hagree := @batch_features_agree trangeLibrary rangeStrategy (.inr trangeLibrary_causal) risingBars
  obtain ⟨series, hseries⟩ := hagree.1.2 (.inr (by decide +kernel))
  obtain ⟨point, hget, hpoint, _⟩ := (hagree.2 series hseries).2 3 (quarterBar 3 103 99) rfl
  exact ⟨series, hseries, point, hget, hpoint⟩

end

end Matrades

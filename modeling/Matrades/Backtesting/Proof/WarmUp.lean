import Matrades.Backtesting.Proof.Partitions
import Matrades.Strategies.Proof.FeatureParity

/-!
# Forty candles of warm-up

A part is simulated with the forty candles before it. The windows of at most 39 candles behind a bar of the
part then read the same candles as on the whole history (`candleFeatures_slice`). A longer structure
window and Wilder's average read more: a single high candle before the warm-up is enough for other
features (`spikedBars`). The part is also simulated without the calendar. So the bars of the parts are
decided on the features of the whole history exactly for the specifications of `folds_see_history_iff`.
-/

namespace Matrades

open Base

/-! ## The features at an index -/

section
variable {spec : StrategySpecification}

/-- The point of a candle in the series. -/
def seriesPoint (spec : StrategySpecification) (technical : ℕ → String → Option Dec)
    (candles : List BacktestCandle) (candle : BacktestCandle) (index : ℕ) : FeaturePoint :=
  { candleFeatures candles candle index spec.parameters.structureWindow spec.parameters.atrPeriod with
    technical := technical index }

/-- The step at a candle appends its features. -/
theorem seriesStep_point {technical : ℕ → String → Option Dec} {seen rest : List BacktestCandle}
    {candle : BacktestCandle} {acc : AtrState × List FeaturePoint}
    (hacc : ∀ period, spec.parameters.atrPeriod = some period →
      acc.1 = atrOf period (trueRanges seen)) :
    (seriesStep spec technical (seen ++ candle :: rest) acc (candle, seen.length)).2 =
      acc.2 ++ [seriesPoint spec technical (seen ++ candle :: rest) candle seen.length] := by
  unfold seriesPoint
  cases hperiod : spec.parameters.atrPeriod with
  | none =>
    unfold seriesStep
    simp only [hperiod]
  | some period =>
    have hranges : (trueRanges (seen ++ [candle])).length = seen.length := by
      rw [trueRanges_length]
      simp
    have hslice : slice (seen ++ candle :: rest) 0 (seen.length + 1) = seen ++ [candle] := by
      unfold slice
      rw [List.take_length_add_append, List.drop_zero]
      rfl
    have hatr := series_atr hperiod technical (seen ++ [candle]) rest
    rw [List.zipIdx_append, List.foldl_append, List.append_assoc, List.singleton_append] at hatr
    have hbefore := series_atr hperiod technical seen (candle :: rest)
    have hone : [candle].zipIdx (0 + seen.length) = [(candle, seen.length)] := by simp
    rw [hone, List.foldl_cons, List.foldl_nil, seriesStep_atr hperiod, hbefore] at hatr
    unfold seriesStep
    simp only [hperiod]
    rw [hacc period hperiod, hatr, candleFeatures_period, hslice]
    simp only [atrOf, hranges]

variable (spec) in
theorem series_grows (technical : ℕ → String → Option Dec) (all : List BacktestCandle)
    (entries : List (BacktestCandle × ℕ)) (acc : AtrState × List FeaturePoint) :
    acc.2 <+: (entries.foldl (seriesStep spec technical all) acc).2 := by
  refine prefix_foldl Prod.snd (fun acc entry => ?_) entries acc
  obtain ⟨point, hpoint⟩ := seriesStep_grows spec technical all acc entry
  rw [hpoint]
  exact List.prefix_append _ _

/-- **The series at an index** holds the features of the candle there. -/
theorem foldl_series_getElem? (technical : ℕ → String → Option Dec) {candles : List BacktestCandle}
    {index : ℕ} {candle : BacktestCandle} (h : candles[index]? = some candle) :
    (candles.zipIdx.foldl (seriesStep spec technical candles) ({}, [])).2[index]? =
      some (seriesPoint spec technical candles candle index) := by
  obtain ⟨hlt, hget⟩ := List.getElem?_eq_some_iff.1 h
  obtain ⟨seen, rest, rfl, hlen⟩ : ∃ seen rest, candles = seen ++ candle :: rest ∧
      seen.length = index := by
    refine ⟨candles.take index, candles.drop (index + 1), ?_, ?_⟩
    · rw [← hget, List.cons_getElem_drop_succ, List.take_append_drop]
    · rw [List.length_take]
      omega
  subst hlen
  have hsplit : (seen ++ candle :: rest).zipIdx =
      seen.zipIdx ++ (candle, seen.length) :: rest.zipIdx (seen.length + 1) := by
    rw [List.zipIdx_append, Nat.zero_add]
    rfl
  have hstep := @seriesStep_point spec technical seen rest candle
    (seen.zipIdx.foldl (seriesStep spec technical (seen ++ candle :: rest)) ({}, []))
    fun period hperiod => series_atr hperiod technical seen (candle :: rest)
  have hlen := @series_length spec technical (seen ++ candle :: rest) seen.zipIdx ({}, [])
  obtain ⟨later, hlater⟩ := series_grows spec technical (seen ++ candle :: rest)
    (rest.zipIdx (seen.length + 1))
    (seriesStep spec technical (seen ++ candle :: rest)
      (seen.zipIdx.foldl (seriesStep spec technical (seen ++ candle :: rest)) ({}, []))
      (candle, seen.length))
  rw [List.length_zipIdx, List.length_nil, Nat.zero_add] at hlen
  rw [hsplit, List.foldl_append, List.foldl_cons, ← hlater, hstep, List.append_assoc,
    List.getElem?_append_right hlen.le, hlen, Nat.sub_self]
  rfl

end

/-! ## Windows on a slice -/

theorem slice_slice {α : Type} (xs : List α) {lo hi a b : ℕ} (h : lo + b ≤ hi) :
    slice (slice xs lo hi) a b = slice xs (lo + a) (lo + b) := by
  unfold slice
  rw [List.take_drop, List.take_take, min_eq_left h, List.drop_drop]

/-- **Windows of up to 39 candles before a candle are the same on a slice**, where it begins at the first
candle or 39 candles before. -/
theorem candleFeatures_slice {candles : List BacktestCandle} {lo hi index window : ℕ}
    (hlo : lo = 0 ∨ 39 ≤ index) (hwindow : window ≤ 39) (hlt : lo + index < hi)
    (candle : BacktestCandle) :
    candleFeatures (slice candles lo hi) candle index window =
      candleFeatures candles candle (lo + index) window := by
  have hregime : slice (slice candles lo hi) (index - 39) (index + 1) =
      slice candles (lo + index - 39) (lo + index + 1) := by
    rw [slice_slice candles (by omega)]
    congr 1
    omega
  have hrecent : slice (slice candles lo hi) (index - 4) (index + 1) =
      slice candles (lo + index - 4) (lo + index + 1) := by
    rw [slice_slice candles (by omega)]
    congr 1
    omega
  have hbefore : slice (slice candles lo hi) (index - window) index =
      slice candles (lo + index - window) (lo + index) := by
    rw [slice_slice candles (by omega)]
    congr 1
    omega
  have hslow : slice (slice candles lo hi) (index + 1 - window) (index + 1) =
      slice candles (lo + index + 1 - window) (lo + index + 1) := by
    rw [slice_slice candles (by omega)]
    congr 1
    omega
  have hprevious : (slice candles lo hi).getD (index - 1) candle =
      candles.getD (lo + index - 1) candle := by
    unfold slice
    rw [List.getD_eq_getElem?_getD, List.getD_eq_getElem?_getD, List.getElem?_drop,
      List.getElem?_take_of_lt (by omega)]
    congr 2
    omega
  unfold candleFeatures
  dsimp only
  rw [hregime, hrecent, hbefore, hslow, hprevious]

/-! ## Bars -/

/-- The features a bar is decided on: those of the candle before it, with the news state of the bar. -/
def barFeatures (library : TechnicalLibrary) (spec : StrategySpecification)
    (candles : List BacktestCandle) (calendar : Option (List CalendarEvent)) (i : ℕ) :
    Except String (Option FeaturePoint) := do
  let series ← strategyFeatureSeries library spec candles
  return (barsOf candles series)[i - 2]?.map fun bar =>
    bar.2.withNews (newsState spec.instrument bar.1.observedAt calendar)

def entrySignal (library : TechnicalLibrary) (spec : StrategySpecification)
    (candles : List BacktestCandle) (calendar : Option (List CalendarEvent)) (i : ℕ) :
    Except String (Option Bool) :=
  (barFeatures library spec candles calendar i).map (Option.map (entryMatches spec))

/-- A bar of the holdout or of a fold. -/
structure PartBar (candles : List BacktestCandle) (after : Option AwareTime) (part : ℕ × ℕ) (i : ℕ) :
    Prop where
  among : part = holdout candles after ∨ part ∈ folds candles after
  third : 2 ≤ i
  start_le : part.1 ≤ i
  lt_stop : i < part.2

/-- **Every bar of a part is decided on the features of the whole history**: bar `i` of the history is bar
`i - warmupStart part.1` of the candles the part is simulated on, without a calendar. -/
def FoldsSeeHistory (library : TechnicalLibrary) (spec : StrategySpecification)
    (calendar : Option (List CalendarEvent)) : Prop :=
  ∀ candles after part i, Returns (strategyFeatureSeries library spec candles) →
    PartBar candles after part i →
    barFeatures library spec (partCandles candles part) none (i - warmupStart part.1) =
        barFeatures library spec candles calendar i ∧
      entrySignal library spec (partCandles candles part) none (i - warmupStart part.1) =
        entrySignal library spec candles calendar i

/-- The indicators have the same values on the candles of a part as on the whole history. -/
def IndicatorsForget (library : TechnicalLibrary) (required : List String) : Prop :=
  ∀ candles after part i, validateCandles 1 candles = .ok () → PartBar candles after part i →
    ∀ name ∈ required,
      library (partCandles candles part) (i - warmupStart part.1 - 1) name =
        library candles (i - 1) name

section
variable {library : TechnicalLibrary} {spec : StrategySpecification}
  {calendar : Option (List CalendarEvent)} {candles : List BacktestCandle}

/-- The bar of the simulator at an index. -/
theorem barsOf_getElem? {series : List FeaturePoint} {i : ℕ} (hi : 2 ≤ i) {bar : Bar} :
    (barsOf candles series)[i - 2]? = some bar ↔
      candles[i]? = some bar.1 ∧ series[i - 1]? = some bar.2 := by
  have hfirst : 2 + (i - 2) = i := by omega
  have hsecond : 1 + (i - 2) = i - 1 := by omega
  unfold barsOf
  rw [List.getElem?_zip_eq_some, List.getElem?_drop, List.getElem?_drop, hfirst, hsecond]

theorem technicalFeatureSeries_ok {required : List String} {technical : ℕ → String → Option Dec}
    (h : technicalFeatureSeries library candles required = .ok technical) :
    technical = technicalRow library candles required := by
  unfold technicalFeatureSeries at h
  split at h
  · rename_i hempty
    cases h
    rw [List.isEmpty_iff.1 hempty]
    rfl
  · obtain ⟨_, _, h⟩ := ok_of_bind h
    cases h
    rfl

/-- The features of a bar whose series returns. -/
theorem barFeatures_eq (h : Returns (strategyFeatureSeries library spec candles)) {i : ℕ} (hi : 2 ≤ i)
    {candle previous : BacktestCandle} (hcandle : candles[i]? = some candle)
    (hprevious : candles[i - 1]? = some previous) :
    barFeatures library spec candles calendar i =
      .ok (some ((seriesPoint spec
        (technicalRow library candles (requiredTechnicalFeatures spec)) candles previous
          (i - 1)).withNews (newsState spec.instrument candle.observedAt calendar))) := by
  obtain ⟨series, h⟩ := h
  have hpoint : series[i - 1]? = some (seriesPoint spec
      (technicalRow library candles (requiredTechnicalFeatures spec)) candles previous (i - 1)) := by
    unfold strategyFeatureSeries at h
    obtain ⟨technical, htechnical, h⟩ := ok_of_bind h
    cases h
    rw [← technicalFeatureSeries_ok htechnical]
    exact foldl_series_getElem? technical hprevious
  unfold barFeatures
  have hbar := (@barsOf_getElem? candles series i hi (candle, _)).2 ⟨hcandle, hpoint⟩
  rw [bind_ok_eq h, hbar]
  rfl

theorem PartBar.lt_length {after : Option AwareTime} {part : ℕ × ℕ} {i : ℕ}
    (h : PartBar candles after part i) : i < candles.length := by
  have hstop : part.2 ≤ candles.length := by
    rcases h.among with rfl | hfold
    · exact le_refl _
    · exact ((folds_tile after).le.2 part hfold).2
  exact h.lt_stop.trans_le hstop

/-- The bar with its number on the candles of the part. -/
theorem PartBar.shift {after : Option AwareTime} {part : ℕ × ℕ} {i : ℕ}
    (h : PartBar candles after part i) :
    2 ≤ i - warmupStart part.1 ∧ warmupStart part.1 + (i - warmupStart part.1) = i ∧
      (warmupStart part.1 = 0 ∨ 39 ≤ i - warmupStart part.1 - 1) := by
  have hthird := h.third
  have hstart := h.start_le
  unfold warmupStart
  omega

/-- A part of the candles passes the checks, unless it is too short. -/
theorem validateCandles_sublist {minimum : ℕ} {part : List BacktestCandle} (hsub : part.Sublist candles)
    (hlength : minimum ≤ part.length) (h : validateCandles minimum candles = .ok ()) :
    validateCandles minimum part = .ok () := by
  unfold validateCandles at h ⊢
  obtain ⟨_, h⟩ := ok_of_guard h
  obtain ⟨hordered, h⟩ := ok_of_guard h
  rw [Bool.not_eq_true', Bool.not_eq_false] at hordered
  have hpart : chronological part = true := by
    unfold chronological at hordered ⊢
    rw [decide_eq_true_eq] at hordered ⊢
    exact hordered.sublist (hsub.map _)
  rw [if_neg (by omega), hpart, if_neg (by simp), forM_eq_ok]
  rw [forM_eq_ok] at h
  exact fun c hc => h c (hsub.subset hc)

theorem PartBar.returns {after : Option AwareTime} {part : ℕ × ℕ} {i : ℕ}
    (hbar : PartBar candles after part i) (h : Returns (strategyFeatureSeries library spec candles)) :
    Returns (strategyFeatureSeries library spec (partCandles candles part)) := by
  rw [strategyFeatureSeries_returns_iff] at h ⊢
  rcases h with hnone | hvalid
  · exact .inl hnone
  · refine .inr (validateCandles_sublist ?_ ?_ hvalid)
    · exact (List.drop_sublist _ _).trans (List.take_sublist _ _)
    · have hlength := hbar.lt_length
      have hstop := hbar.lt_stop
      have hshift := hbar.shift
      unfold partCandles slice
      rw [List.length_drop, List.length_take]
      omega

/-- The two candles a bar is decided on, on the history and among the candles of its part. -/
theorem PartBar.found {after : Option AwareTime} {part : ℕ × ℕ} {i : ℕ}
    (h : PartBar candles after part i) :
    ∃ candle previous, candles[i]? = some candle ∧ candles[i - 1]? = some previous ∧
      (partCandles candles part)[i - warmupStart part.1]? = some candle ∧
      (partCandles candles part)[i - warmupStart part.1 - 1]? = some previous := by
  obtain ⟨hthird, hnumber, _⟩ := h.shift
  have hlt := h.lt_length
  have hstop := h.lt_stop
  have hnumber' : warmupStart part.1 + (i - warmupStart part.1 - 1) = i - 1 := by omega
  have hcandle := List.getElem?_eq_getElem hlt
  have hprevious := List.getElem?_eq_getElem (show i - 1 < candles.length by omega)
  refine ⟨_, _, hcandle, hprevious, ?_, ?_⟩
  · unfold partCandles
    rw [slice_getElem?, hnumber]
    exact ⟨hstop, hcandle⟩
  · unfold partCandles
    rw [slice_getElem?, hnumber']
    exact ⟨by omega, hprevious⟩

theorem technicalRow_forget {after : Option AwareTime} {part : ℕ × ℕ} {i : ℕ}
    (hforget : IndicatorsForget library (requiredTechnicalFeatures spec))
    (h : Returns (strategyFeatureSeries library spec candles)) (hbar : PartBar candles after part i) :
    technicalRow library (partCandles candles part) (requiredTechnicalFeatures spec)
        (i - warmupStart part.1 - 1) =
      technicalRow library candles (requiredTechnicalFeatures spec) (i - 1) := by
  funext name
  unfold technicalRow
  rcases strategyFeatureSeries_returns_iff.1 h with hnone | hvalid
  · rw [hnone]
    rfl
  · split
    · rename_i hcontains
      have hname := List.contains_iff_mem.1 hcontains
      rw [hforget candles after part i hvalid hbar name hname]
    · rfl

/-- **Forty candles of warm-up are enough** for a structure window of at most 39 candles, without a Wilder
average, where the indicators forget earlier candles. -/
theorem folds_see_short_windows (hwindow : spec.parameters.structureWindow ≤ 39)
    (hperiod : spec.parameters.atrPeriod = none)
    (hforget : IndicatorsForget library (requiredTechnicalFeatures spec)) :
    FoldsSeeHistory library spec none := by
  intro candles after part i hreturns hbar
  obtain ⟨candle, previous, hcandle, hprevious, hcandle', hprevious'⟩ := hbar.found
  obtain ⟨hthird, hnumber, hwarm⟩ := hbar.shift
  have hstop := hbar.lt_stop
  have hnumber' : warmupStart part.1 + (i - warmupStart part.1 - 1) = i - 1 := by omega
  have hfeatures := @candleFeatures_slice candles _ _ _ _ hwarm hwindow
    (show warmupStart part.1 + (i - warmupStart part.1 - 1) < part.2 by omega) previous
  have hpoint : seriesPoint spec (technicalRow library (partCandles candles part)
        (requiredTechnicalFeatures spec)) (partCandles candles part) previous
          (i - warmupStart part.1 - 1) =
      seriesPoint spec (technicalRow library candles (requiredTechnicalFeatures spec)) candles
        previous (i - 1) := by
    unfold seriesPoint
    rw [hperiod, technicalRow_forget hforget hreturns hbar, ← hnumber']
    unfold partCandles
    rw [hfeatures]
  have hsame : barFeatures library spec (partCandles candles part) none (i - warmupStart part.1) =
      barFeatures library spec candles none i := by
    rw [barFeatures_eq (hbar.returns hreturns) hthird hcandle' hprevious',
      barFeatures_eq hreturns hbar.third hcandle hprevious, hpoint]
  exact ⟨hsame, congrArg (Except.map (Option.map (entryMatches spec))) hsame⟩

end

/-! ## Wilder's average -/

section
variable {period : ℕ} {bound : ℚ}

theorem wilderStep_lt (hperiod : 2 ≤ period) {v x : ℚ} (hv : bound ≤ v) (hx : bound ≤ x)
    (h : bound < v ∨ bound < x) : bound < wilderStep period v x := by
  have htwo : (2 : ℚ) ≤ period := by exact_mod_cast hperiod
  have hpos : (0 : ℚ) < period := by linarith
  unfold wilderStep
  rw [lt_div_iff₀ hpos]
  rcases h with hlt | hlt
  · have hscaled : bound * (period - 1) < v * (period - 1) :=
      mul_lt_mul_of_pos_right hlt (by linarith)
    linarith
  · have hscaled : bound * (period - 1) ≤ v * (period - 1) :=
      mul_le_mul_of_nonneg_right hv (by linarith)
    linarith

theorem wilderStep_le (hperiod : 2 ≤ period) {v x : ℚ} (hv : bound ≤ v) (hx : bound ≤ x) :
    bound ≤ wilderStep period v x := by
  have htwo : (2 : ℚ) ≤ period := by exact_mod_cast hperiod
  have hscaled : bound * (period - 1) ≤ v * (period - 1) :=
    mul_le_mul_of_nonneg_right hv (by linarith)
  unfold wilderStep
  rw [le_div_iff₀ (by linarith)]
  linarith

/-- **The average never comes down to a bound** that no range is below and one range was above. -/
theorem foldl_wilder_lt (hperiod : 2 ≤ period) {ranges : List ℚ} (hranges : ∀ x ∈ ranges, bound ≤ x)
    {v : ℚ} (hv : bound ≤ v) (h : bound < v ∨ ∃ x ∈ ranges, bound < x) :
    bound < ranges.foldl (wilderStep period) v := by
  induction ranges generalizing v with
  | nil =>
    rcases h with hlt | ⟨x, hx, _⟩
    · exact hlt
    · cases hx
  | cons range ranges ih =>
    obtain ⟨hrange, hrest⟩ := List.forall_mem_cons.1 hranges
    refine ih hrest (wilderStep_le hperiod hv hrange) ?_
    rcases h with hlt | ⟨x, hx, hlt⟩
    · exact .inl (wilderStep_lt hperiod hv hrange (.inl hlt))
    · rcases List.mem_cons.1 hx with rfl | hx
      · exact .inl (wilderStep_lt hperiod hv hrange (.inr hlt))
      · exact .inr ⟨x, hx, hlt⟩

theorem wilderATR_lt (hperiod : 2 ≤ period) {ranges : List ℚ} (hlen : period ≤ ranges.length)
    (hranges : ∀ x ∈ ranges, bound ≤ x) (h : ∃ x ∈ ranges, bound < x) :
    bound < wilderATR period ranges := by
  have hpos : (0 : ℚ) < period := by exact_mod_cast (show 0 < period by omega)
  have hfirst : ∀ x ∈ ranges.take period, bound ≤ x := fun x hx => hranges x (List.mem_of_mem_take hx)
  have hsum : ((ranges.take period).map fun _ => bound).sum = bound * period := by
    rw [List.map_const', List.sum_replicate, List.length_take, min_eq_left hlen, nsmul_eq_mul, mul_comm]
  have hmap : (ranges.take period).map (fun x => x) = ranges.take period := List.map_id _
  unfold wilderATR
  refine foldl_wilder_lt hperiod (fun x hx => hranges x (List.mem_of_mem_drop hx)) ?_ ?_
  · have hle := List.sum_le_sum hfirst
    rw [hsum, hmap] at hle
    exact (le_div_iff₀ hpos).2 hle
  · obtain ⟨x, hx, hlt⟩ := h
    rw [← List.take_append_drop period ranges] at hx
    rcases List.mem_append.1 hx with hx | hx
    · have habove := List.sum_lt_sum _ _ hfirst ⟨x, hx, hlt⟩
      rw [hsum, hmap] at habove
      exact .inl ((lt_div_iff₀ hpos).2 habove)
    · exact .inr ⟨x, hx, hlt⟩

theorem wilderATR_const (hperiod : 0 < period) {ranges : List ℚ} (hlen : period ≤ ranges.length)
    (hranges : ∀ x ∈ ranges, x = bound) : wilderATR period ranges = bound := by
  have hpos : (period : ℚ) ≠ 0 := by exact_mod_cast hperiod.ne'
  have hstep : wilderStep period bound bound = bound := by
    unfold wilderStep
    field_simp
    ring
  have hstay (n : ℕ) : (List.replicate n bound).foldl (wilderStep period) bound = bound := by
    induction n with
    | zero => rfl
    | succ n ih =>
      rw [List.replicate_succ, List.foldl_cons, hstep]
      exact ih
  rw [List.eq_replicate_of_mem hranges]
  unfold wilderATR
  rw [List.take_replicate, min_eq_left hlen, List.sum_replicate, nsmul_eq_mul,
    mul_div_cancel_left₀ _ hpos, List.drop_replicate]
  exact hstay _

end

/-! ## A high candle before the warm-up -/

/-- Three hundred bars, one of them with a high far above the others. -/
def spikedBars : List BacktestCandle :=
  (List.range 300).map fun n => quarterBar n (if n = 79 then 110 else 101) 99

theorem spikedBars_chronological : chronological spikedBars = true := by
  unfold chronological spikedBars
  rw [decide_eq_true_eq, List.map_map, List.pairwise_map]
  refine List.pairwise_lt_range.imp fun {n m} hlt => ?_
  show (n : ℤ) * 900000000 < m * 900000000
  omega

theorem spikedBars_valid : validateCandles 1 spikedBars = .ok () := by
  have hchecks : ∀ c ∈ spikedBars, checkCandle c = .ok () := by
    intro c hc
    obtain ⟨n, _, rfl⟩ := List.mem_map.1 hc
    by_cases hn : n = 79
    · rw [hn]
      decide
    · rw [if_neg hn]
      rfl
  unfold validateCandles
  rw [if_neg (by simp [spikedBars]), spikedBars_chronological, if_neg (by simp), forM_eq_ok]
  exact hchecks

theorem spikedBars_fold : PartBar spikedBars none (120, 180) 120 :=
  ⟨.inr (by decide +kernel), by omega, by omega, by omega⟩

/-- The last candle before the first fold. -/
def lastBefore : BacktestCandle := quarterBar 119 101 99

/-- The high is among the ranges of the whole history, and not among the ranges and highs of the fold. -/
theorem spiked_bars :
    ((∀ range ∈ trueRanges (slice spikedBars 0 120), 2 ≤ range) ∧
      ∃ range ∈ trueRanges (slice spikedBars 0 120), 2 < range) ∧
    (∀ range ∈ trueRanges (slice (partCandles spikedBars (120, 180)) 0 40), range = 2) ∧
      ∀ c ∈ partCandles spikedBars (120, 180), c.high = 101 := by
  decide +kernel

/-- The high is in every structure window of at least forty candles. -/
theorem spiked_mem {window : ℕ} (hmin : 40 ≤ window) :
    quarterBar 79 110 99 ∈ slice spikedBars (119 - window) 119 := by
  have hspike : spikedBars[79]? = some (quarterBar 79 110 99) := by simp [spikedBars]
  refine List.mem_iff_getElem?.2 ⟨79 - (119 - window), ?_⟩
  rw [slice_getElem?]
  have hnumber : 119 - window + (79 - (119 - window)) = 79 := by omega
  rw [hnumber]
  exact ⟨by omega, hspike⟩

theorem foldl_max_le {bound : ℚ} {xs : List ℚ} (hxs : ∀ x ∈ xs, x ≤ bound) {x : ℚ}
    (hx : x ≤ bound) : xs.foldl max x ≤ bound := by
  induction xs generalizing x with
  | nil => exact hx
  | cons y ys ih =>
    obtain ⟨hy, hys⟩ := List.forall_mem_cons.1 hxs
    exact ih hys (max_le hx hy)

theorem le_foldl_max (xs : List ℚ) (x : ℚ) : x ≤ xs.foldl max x ∧ ∀ y ∈ xs, y ≤ xs.foldl max x := by
  induction xs generalizing x with
  | nil => exact ⟨le_refl _, fun y hy => by cases hy⟩
  | cons z zs ih =>
    obtain ⟨hmax, hrest⟩ := ih (max x z)
    refine ⟨(le_max_left _ _).trans hmax, fun y hy => ?_⟩
    rcases List.mem_cons.1 hy with rfl | hy
    · exact (le_max_right _ _).trans hmax
    · exact hrest y hy

theorem le_highest {xs : List ℚ} {x : ℚ} (h : x ∈ xs) : x ≤ highest xs := by
  cases xs with
  | nil => cases h
  | cons y ys =>
    rcases List.mem_cons.1 h with rfl | h
    · exact (le_foldl_max ys x).1
    · exact (le_foldl_max ys y).2 x h

theorem highest_le {xs : List ℚ} {bound : ℚ} (hbound : 0 ≤ bound) (h : ∀ x ∈ xs, x ≤ bound) :
    highest xs ≤ bound := by
  cases xs with
  | nil => exact hbound
  | cons y ys =>
    obtain ⟨hy, hys⟩ := List.forall_mem_cons.1 h
    exact foldl_max_le hys hy

section
variable {spec : StrategySpecification} (technical : ℕ → String → Option Dec)

/-- The whole history has the high in a window of at least forty candles. -/
theorem spiked_priorHigh (hwindow : 40 ≤ spec.parameters.structureWindow) :
    110 ≤ (seriesPoint spec technical spikedBars lastBefore 119).priorHigh := by
  have hmem := spiked_mem hwindow
  have hbefore : (slice spikedBars (119 - spec.parameters.structureWindow) 119).isEmpty = false := by
    rw [List.isEmpty_eq_false_iff]
    exact List.ne_nil_of_mem hmem
  show 110 ≤ highest (List.map BacktestCandle.high
    (if (slice spikedBars (119 - spec.parameters.structureWindow) 119).isEmpty then [lastBefore]
      else slice spikedBars (119 - spec.parameters.structureWindow) 119))
  rw [hbefore]
  exact le_highest (List.mem_map_of_mem hmem)

theorem warm_priorHigh :
    (seriesPoint spec technical (partCandles spikedBars (120, 180)) lastBefore 39).priorHigh ≤ 101 := by
  show highest (List.map BacktestCandle.high
    (if (slice (partCandles spikedBars (120, 180)) (39 - spec.parameters.structureWindow) 39).isEmpty
      then [lastBefore]
      else slice (partCandles spikedBars (120, 180)) (39 - spec.parameters.structureWindow) 39)) ≤ 101
  refine highest_le (by norm_num) fun x hx => ?_
  obtain ⟨c, hc, rfl⟩ := List.mem_map.1 hx
  split at hc
  · rw [List.mem_singleton.1 hc]
    exact le_refl _
  · obtain ⟨i, _, _, hget⟩ := mem_slice hc
    exact (spiked_bars.2.2 c (List.mem_of_getElem? hget)).le

variable {period : ℕ} (hperiod : spec.parameters.atrPeriod = some period)
include hperiod

/-- The whole history has an average above its usual range. -/
theorem spiked_volatility :
    2 < (seriesPoint spec technical spikedBars lastBefore 119).volatility := by
  obtain ⟨htwo, hhundred⟩ := spec.parameters.period_bounds period hperiod
  have hlen : (trueRanges (slice spikedBars 0 120)).length = 119 := by
    rw [trueRanges_length]
    simp [slice, spikedBars]
  obtain ⟨hranges, hspike⟩ := spiked_bars.1
  unfold seriesPoint
  rw [hperiod, candleFeatures_period]
  show 2 < if 119 < period then 0 else wilderATR period (trueRanges (slice spikedBars 0 120))
  rw [if_neg (by omega)]
  exact wilderATR_lt htwo (by omega) hranges hspike

theorem warm_volatility :
    (seriesPoint spec technical (partCandles spikedBars (120, 180)) lastBefore 39).volatility ≤ 2 := by
  obtain ⟨htwo, _⟩ := spec.parameters.period_bounds period hperiod
  have hlen : (trueRanges (slice (partCandles spikedBars (120, 180)) 0 40)).length = 39 := by
    rw [trueRanges_length]
    simp [slice, partCandles, warmupStart, spikedBars]
  unfold seriesPoint
  rw [hperiod, candleFeatures_period]
  show (if 39 < period then 0 else
    wilderATR period (trueRanges (slice (partCandles spikedBars (120, 180)) 0 40))) ≤ 2
  split
  · norm_num
  · rw [wilderATR_const (by omega) (by omega) spiked_bars.2.1]

end

/-! ## Which specifications the parts serve -/

theorem newsState_unknown {instrument : String} {time : AwareTime}
    {calendar : Option (List CalendarEvent)} (h : newsState instrument time calendar = .unknown) :
    calendar = none := by
  cases calendar with
  | none => rfl
  | some events =>
    unfold newsState at h
    dsimp only at h
    split at h
    · cases h
    · split at h
      · cases h
      · cases h

section
variable {library : TechnicalLibrary} {spec : StrategySpecification}
  {calendar : Option (List CalendarEvent)}

/-- The points of a bar on both sides. -/
theorem FoldsSeeHistory.point (h : FoldsSeeHistory library spec calendar)
    {candles : List BacktestCandle} {after : Option AwareTime} {part : ℕ × ℕ} {i : ℕ}
    (hreturns : Returns (strategyFeatureSeries library spec candles))
    (hbar : PartBar candles after part i) :
    ∃ candle previous, candles[i]? = some candle ∧ candles[i - 1]? = some previous ∧
      (seriesPoint spec (technicalRow library (partCandles candles part)
          (requiredTechnicalFeatures spec)) (partCandles candles part) previous
            (i - warmupStart part.1 - 1)).withNews
          (newsState spec.instrument candle.observedAt none) =
        (seriesPoint spec (technicalRow library candles (requiredTechnicalFeatures spec)) candles
          previous (i - 1)).withNews (newsState spec.instrument candle.observedAt calendar) := by
  obtain ⟨candle, previous, hcandle, hprevious, hcandle', hprevious'⟩ := hbar.found
  have hsame := (h candles after part i hreturns hbar).1
  rw [barFeatures_eq (hbar.returns hreturns) hbar.shift.1 hcandle' hprevious',
    barFeatures_eq hreturns hbar.third hcandle hprevious] at hsame
  exact ⟨candle, previous, hcandle, hprevious, Option.some.inj (Except.ok.inj hsame)⟩

theorem FoldsSeeHistory.indicatorsForget (h : FoldsSeeHistory library spec calendar) :
    IndicatorsForget library (requiredTechnicalFeatures spec) := by
  intro candles after part i hvalid hbar name hname
  obtain ⟨_, _, _, _, hpoint⟩ := h.point (strategyFeatureSeries_returns_iff.2 (.inr hvalid)) hbar
  have hrow : technicalRow library (partCandles candles part) (requiredTechnicalFeatures spec)
      (i - warmupStart part.1 - 1) name =
        technicalRow library candles (requiredTechnicalFeatures spec) (i - 1) name :=
    congrFun (congrArg FeaturePoint.technical hpoint) name
  have hcontains : (requiredTechnicalFeatures spec).contains name = true :=
    List.contains_iff_mem.2 hname
  unfold technicalRow at hrow
  rw [if_pos hcontains, if_pos hcontains] at hrow
  exact Option.some.inj hrow

/-- **The parts see the features of the whole history exactly for structure windows of at most 39 candles,
without a Wilder average and without a calendar, where the indicators forget earlier candles.** -/
theorem folds_see_history_iff (library : TechnicalLibrary) (spec : StrategySpecification)
    (calendar : Option (List CalendarEvent)) :
    FoldsSeeHistory library spec calendar ↔
      spec.parameters.structureWindow ≤ 39 ∧ spec.parameters.atrPeriod = none ∧
        IndicatorsForget library (requiredTechnicalFeatures spec) ∧ calendar = none := by
  constructor
  · intro h
    obtain ⟨candle, previous, _, hprevious, hpoint⟩ :=
      h.point (strategyFeatureSeries_returns_iff.2 (.inr spikedBars_valid)) spikedBars_fold
    have hlast : spikedBars[120 - 1]? = some lastBefore := by simp [spikedBars, lastBefore]
    obtain rfl : previous = lastBefore := Option.some.inj (hprevious.symm.trans hlast)
    refine ⟨?_, ?_, h.indicatorsForget, ?_⟩
    · by_contra hwindow
      have hhigh := congrArg FeaturePoint.priorHigh hpoint
      have hfull := spiked_priorHigh (technicalRow library spikedBars (requiredTechnicalFeatures spec))
        (show 40 ≤ spec.parameters.structureWindow by omega)
      have hwarm := @warm_priorHigh spec (technicalRow library (partCandles spikedBars (120, 180))
        (requiredTechnicalFeatures spec))
      have hle : (110 : ℚ) ≤ 101 := (hfull.trans hhigh.ge).trans hwarm
      exact absurd hle (by norm_num)
    · cases hperiod : spec.parameters.atrPeriod with
      | none => rfl
      | some period =>
        have hvolatility := congrArg FeaturePoint.volatility hpoint
        have hfull := spiked_volatility
          (technicalRow library spikedBars (requiredTechnicalFeatures spec)) hperiod
        have hwarm := warm_volatility (technicalRow library (partCandles spikedBars (120, 180))
          (requiredTechnicalFeatures spec)) hperiod
        have hlt : (2 : ℚ) < 2 := (hfull.trans_le hvolatility.ge).trans_le hwarm
        exact absurd hlt (lt_irrefl _)
    · have hnews := congrArg FeaturePoint.newsRegime hpoint
      exact newsState_unknown (Option.some.inj hnews).symm
  · rintro ⟨hwindow, hperiod, hforget, rfl⟩
    exact folds_see_short_windows hwindow hperiod hforget

end

/-! ## A breakout of the last forty candles -/

theorem breakout_nonempty : [(⟨"close", .gt, .name "prior_high"⟩ : Condition)] ≠ [] :=
  List.cons_ne_nil _ _

theorem forty_bounds : 2 ≤ 40 ∧ 40 ≤ 200 := by decide

/-- Buys above the high of the last forty candles. -/
def breakoutStrategy : StrategySpecification :=
  { rangeStrategy with
    entry := [⟨"close", .gt, .name "prior_high"⟩]
    parameters :=
      { rangeStrategy.parameters with structureWindow := 40, window_bounds := forty_bounds }
    entry_nonempty := breakout_nonempty }

/-- The last candle before the first fold closes above the others, below the one high. -/
def breakoutBar : BacktestCandle := { quarterBar 119 105 99 with close := 104 }

def breakoutBars : List BacktestCandle := spikedBars.set 119 breakoutBar

theorem breakoutBars_fold : PartBar breakoutBars none (120, 180) 120 :=
  ⟨.inr (by decide +kernel), by omega, by omega, by omega⟩

/-- **The fold enters at a bar the strategy does not enter at**, since the high is one candle before the
warm-up. -/
theorem fold_enters_below_high :
    entrySignal trangeLibrary breakoutStrategy (partCandles breakoutBars (120, 180)) none 40 =
        .ok (some true) ∧
      entrySignal trangeLibrary breakoutStrategy breakoutBars none 120 = .ok (some false) ∧
      ¬FoldsSeeHistory trangeLibrary breakoutStrategy none := by
  have hreturns (candles : List BacktestCandle) :
      Returns (strategyFeatureSeries trangeLibrary breakoutStrategy candles) :=
    strategyFeatureSeries_returns_iff.2 (.inl (by decide +kernel))
  obtain ⟨candle, previous, hcandle, hprevious, hcandle', hprevious'⟩ := breakoutBars_fold.found
  have hlast : breakoutBars[120 - 1]? = some breakoutBar := by simp [breakoutBars, spikedBars]
  obtain rfl : previous = breakoutBar := Option.some.inj (hprevious.symm.trans hlast)
  have hfirst : breakoutBars[120]? = some (quarterBar 120 101 99) := by
    simp [breakoutBars, spikedBars]
  obtain rfl : candle = quarterBar 120 101 99 := Option.some.inj (hcandle.symm.trans hfirst)
  have hpart : entrySignal trangeLibrary breakoutStrategy (partCandles breakoutBars (120, 180)) none
      40 = .ok (some true) := by
    have hfeatures := @barFeatures_eq trangeLibrary breakoutStrategy none _ (hreturns _) 40
      (by omega) _ _ hcandle' hprevious'
    unfold entrySignal
    rw [hfeatures]
    exact congrArg (fun signal => Except.ok (some signal)) (by decide +kernel)
  have hwhole : entrySignal trangeLibrary breakoutStrategy breakoutBars none 120 =
      .ok (some false) := by
    have hfeatures := @barFeatures_eq trangeLibrary breakoutStrategy none _ (hreturns _) 120
      (by omega) _ _ hcandle hprevious
    unfold entrySignal
    rw [hfeatures]
    exact congrArg (fun signal => Except.ok (some signal)) (by decide +kernel)
  refine ⟨hpart, hwhole, fun h => ?_⟩
  have hsame := (h breakoutBars none (120, 180) 120 (hreturns _) breakoutBars_fold).2
  have hsignals : (Except.ok (some true) : Except String (Option Bool)) = .ok (some false) :=
    hpart.symm.trans (hsame.trans hwhole)
  cases hsignals

end Matrades

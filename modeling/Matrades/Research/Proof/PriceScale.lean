import Mathlib.Algebra.BigOperators.Ring.List
import Matrades.Research.Proof.Matrix

/-!
# The scale of prices does not matter

All gates and measures of a fingerprint are ratios or signs of prices, so a factor on the closes and the
quote cancels, and the volume is only asked to be finite (`typedFingerprint_scaled`). Scaled snapshots
therefore get the same fingerprint, or the same refusal (`scores_ignore_scale`).
-/

namespace Matrades

open Base

/-! ## Scaled lists -/

section
variable {k : ℚ} (hk : 0 < k)

theorem neighbours_map (f : ℚ → ℚ) (xs : List ℚ) :
    neighbours (xs.map f) = (neighbours xs).map fun p => (f p.1, f p.2) := by
  unfold neighbours
  rw [← List.map_tail, List.zip_map]
  rfl

theorem lastOf_map (f : ℚ → ℚ) (n : ℕ) (xs : List ℚ) : lastOf n (xs.map f) = (lastOf n xs).map f := by
  unfold lastOf
  rw [List.length_map, List.map_drop]

theorem everyFourth_map (f : ℚ → ℚ) (xs : List ℚ) : everyFourth (xs.map f) = (everyFourth xs).map f := by
  unfold everyFourth
  have hreverse : (xs.map f).reverse = xs.reverse.map f := List.map_reverse.symm
  rw [hreverse, List.zipIdx_map, List.filter_map, List.map_map, List.map_reverse, List.map_map]
  rfl

theorem sum_scaled (k : ℚ) (xs : List ℚ) : (xs.map (k * ·)).sum = k * xs.sum := by
  rw [List.sum_map_mul_left, List.map_id']

theorem mean_scaled (k : ℚ) (xs : List ℚ) : mean (xs.map (k * ·)) = k * mean xs := by
  unfold mean
  rw [sum_scaled, List.length_map, mul_div_assoc]

/-- The last moves of scaled prices. -/
theorem recentMoves_scaled (k : ℚ) (prices : List ℚ) :
    lastOf 20 ((neighbours (prices.map (k * ·))).map fun (a, b) => b - a) =
      (lastOf 20 ((neighbours prices).map fun (a, b) => b - a)).map (k * ·) := by
  rw [neighbours_map, ← lastOf_map, List.map_map, List.map_map]
  congr 1
  exact List.map_congr_left fun p _ => (mul_sub k p.2 p.1).symm

theorem getLastD_scaled (k : ℚ) (xs : List ℚ) : (xs.map (k * ·)).getLastD 0 = k * xs.getLastD 0 := by
  rw [List.getLastD_eq_getLast?, List.getLastD_eq_getLast?, List.getLast?_map]
  cases xs.getLast? with
  | none => simp
  | some x => rfl

include hk in
theorem abs_sum_scaled (xs : List ℚ) : ((xs.map (k * ·)).map abs).sum = k * (xs.map abs).sum := by
  rw [← sum_scaled, List.map_map, List.map_map]
  refine congrArg List.sum (List.map_congr_left fun x _ => ?_)
  show |k * x| = k * |x|
  rw [abs_mul, abs_of_pos hk]

include hk in
theorem foldr_min_scaled (x : ℚ) (xs : List ℚ) :
    (xs.map (k * ·)).foldr min (k * x) = k * xs.foldr min x := by
  induction xs with
  | nil => rfl
  | cons y ys ih => rw [List.map_cons, List.foldr_cons, List.foldr_cons, ih, mul_min_of_nonneg _ _ hk.le]

include hk in
theorem foldr_max_scaled (x : ℚ) (xs : List ℚ) :
    (xs.map (k * ·)).foldr max (k * x) = k * xs.foldr max x := by
  induction xs with
  | nil => rfl
  | cons y ys ih => rw [List.map_cons, List.foldr_cons, List.foldr_cons, ih, mul_max_of_nonneg _ _ hk.le]

end

/-! ## Scaled snapshots -/

/-- A float times a positive factor. -/
def PyFloat.scaled (k : ℚ) : PyFloat → PyFloat
  | finite q => finite (k * q)
  | x => x

/-- The snapshot with its prices times a factor, and another volume. -/
def TypedResearchSnapshot.scaled (s : TypedResearchSnapshot) (k : ℚ) (volume : PyFloat) :
    TypedResearchSnapshot :=
  { s with
    closes := s.closes.map (PyFloat.scaled k)
    bid := s.bid.scaled k
    ask := s.ask.scaled k
    volume }

theorem PyFloat.finite?_scaled (k : ℚ) (x : PyFloat) : (x.scaled k).finite? = x.finite?.map (k * ·) := by
  cases x <;> rfl

theorem PyFloat.above_scaled {k : ℚ} (hk : 0 < k) (x : PyFloat) : (x.scaled k).above 0 = x.above 0 := by
  cases x with
  | finite q => simp [PyFloat.scaled, PyFloat.above, hk]
  | posInf => rfl
  | negInf => rfl
  | nan => rfl

theorem finitePrices_scaled (k : ℚ) (xs : List PyFloat) :
    (xs.map (PyFloat.scaled k)).filterMap PyFloat.finite? =
      (xs.filterMap PyFloat.finite?).map (k * ·) := by
  rw [List.filterMap_map, List.map_filterMap]
  exact List.filterMap_congr fun x _ => x.finite?_scaled k

/-- The quote of a scaled snapshot. -/
def EligibleQuote.scaled (q : EligibleQuote) (k : ℚ) : EligibleQuote :=
  { q with prices := q.prices.map (k * ·), movement := k * q.movement }

section
variable {s : TypedResearchSnapshot} {k : ℚ} {volume : PyFloat} (hk : 0 < k)
  (hvolume : volume.finite?.isSome = s.volume.finite?.isSome)
include hk hvolume

/-- The gates on prices and the quote. -/
theorem eligiblePrices_scaled : eligiblePrices (s.scaled k volume) =
    (eligiblePrices s).map fun (prices, bid, ask) => (prices.map (k * ·), k * bid, k * ask) := by
  have hvalid : ((s.scaled k volume).closes.all fun x => x.finite?.isSome && x.above 0) =
      s.closes.all fun x => x.finite?.isSome && x.above 0 := by
    show ((s.closes.map (PyFloat.scaled k)).all fun x => x.finite?.isSome && x.above 0) = _
    rw [List.all_map]
    congr 1
    funext x
    show ((x.scaled k).finite?.isSome && (x.scaled k).above 0) = _
    rw [x.finite?_scaled, Option.isSome_map, x.above_scaled hk]
  have hprices : (s.scaled k volume).closes.filterMap PyFloat.finite? =
      (s.closes.filterMap PyFloat.finite?).map (k * ·) := finitePrices_scaled k s.closes
  have hlength : (s.scaled k volume).closes.length = s.closes.length := List.length_map _
  have hbid : (s.scaled k volume).bid.finite? = s.bid.finite?.map (k * ·) := s.bid.finite?_scaled k
  have hask : (s.scaled k volume).ask.finite? = s.ask.finite?.map (k * ·) := s.ask.finite?_scaled k
  unfold eligiblePrices
  rw [hvalid, hprices, hlength, hbid, hask]
  unfold refuseIf
  by_cases hshort : s.closes.length < 20
  · rw [if_pos hshort]
    rfl
  rw [if_neg hshort]
  by_cases hinvalid : ¬(s.closes.all fun x => x.finite?.isSome && x.above 0) = true
  · rw [if_pos hinvalid]
    rfl
  rw [if_neg hinvalid]
  have hfinite : volume.finite?.isSome = s.volume.finite?.isSome := hvolume
  cases hb : s.bid.finite? with
  | none => rfl
  | some bid =>
    cases ha : s.ask.finite? with
    | none => rfl
    | some ask =>
      cases hv : s.volume.finite? with
      | none =>
        rw [hv] at hfinite
        have hnone : (s.scaled k volume).volume.finite? = none :=
          Option.isNone_iff_eq_none.1 (Option.isSome_eq_false_iff.1 hfinite)
        rw [hnone]
        rfl
      | some v =>
        rw [hv] at hfinite
        obtain ⟨w, hw⟩ := Option.isSome_iff_exists.1 hfinite
        have hsome : (s.scaled k volume).volume.finite? = some w := hw
        rw [hsome]
        have hcrossed : k * ask < k * bid ↔ ask < bid := mul_lt_mul_iff_right₀ hk
        show (if k * ask < k * bid then _ else _ : Except String Unit) >>= _ = _
        by_cases hlt : ask < bid
        · rw [if_pos (hcrossed.2 hlt)]
          simp only [if_pos hlt]
          rfl
        · rw [if_neg fun h => hlt (hcrossed.1 h)]
          simp only [if_neg hlt]
          rfl

/-- All gates but the last one. -/
theorem eligibleQuote_scaled (zones : ZoneDatabase) (now : ℤ) :
    eligibleQuote zones (s.scaled k volume) now =
      (eligibleQuote zones s now).map fun q => q.scaled k := by
  unfold eligibleQuote
  rw [eligiblePrices_scaled hk hvolume]
  cases eligiblePrices s with
  | error e => rfl
  | ok quote =>
    obtain ⟨prices, bid, ask⟩ := quote
    have hmoves : (neighbours (prices.map (k * ·))).map (fun (a, b) => |b - a|) =
        ((neighbours prices).map fun (a, b) => |b - a|).map (k * ·) := by
      rw [neighbours_map, List.map_map, List.map_map]
      refine List.map_congr_left fun p _ => ?_
      show |k * p.2 - k * p.1| = k * |p.2 - p.1|
      rw [← mul_sub, abs_mul, abs_of_pos hk]
    have hmovement := mean_scaled k ((neighbours prices).map fun (a, b) => |b - a|)
    rw [← hmoves] at hmovement
    have htimely : timely (s.scaled k volume) (lastWeekendClose zones s.listing.assetClass now) now =
        timely s (lastWeekendClose zones s.listing.assetClass now) now := rfl
    show (timely (s.scaled k volume) (lastWeekendClose zones s.listing.assetClass now) now >>= _) =
      Except.map _ (timely s (lastWeekendClose zones s.listing.assetClass now) now >>= _)
    rw [htimely]
    cases timely s (lastWeekendClose zones s.listing.assetClass now) now with
    | error e => rfl
    | ok _ =>
      show (refuseIf (mean ((neighbours (prices.map (k * ·))).map fun (a, b) => |b - a|) ≤ 0) _ >>= _) =
        Except.map _ (refuseIf (mean ((neighbours prices).map fun (a, b) => |b - a|) ≤ 0) _ >>= _)
      rw [hmovement]
      generalize mean ((neighbours prices).map fun (a, b) => |b - a|) = movement
      have hstill : k * movement ≤ 0 ↔ movement ≤ 0 :=
        ⟨fun h => nonpos_of_mul_nonpos_right h hk, fun h => mul_nonpos_of_nonneg_of_nonpos hk.le h⟩
      have hspread : (k * ask - k * bid) / (k * movement) = (ask - bid) / movement := by
        rw [← mul_sub, mul_div_mul_left _ _ hk.ne']
      rw [hspread]
      unfold refuseIf
      by_cases hmoved : movement ≤ 0
      · rw [if_pos (hstill.2 hmoved), if_pos hmoved]
        rfl
      · rw [if_neg fun h => hmoved (hstill.1 h), if_neg hmoved]
        show ((if s.spreadVerified = true ∧ 1 / 2 < (ask - bid) / movement then _ else _) >>= _) =
          Except.map _ ((if s.spreadVerified = true ∧ 1 / 2 < (ask - bid) / movement then _ else _) >>= _)
        by_cases hwide : s.spreadVerified = true ∧ 1 / 2 < (ask - bid) / movement
        · rw [if_pos hwide]
          rfl
        · rw [if_neg hwide]
          rfl

omit hvolume in
/-- **The measures do not see the scale.** -/
theorem measure_scaled (q : EligibleQuote) : measure (s.scaled k volume) (q.scaled k) = measure s q := by
  have hreturns : (neighbours (q.prices.map (k * ·))).map (fun (a, b) => b / a - 1) =
      (neighbours q.prices).map fun (a, b) => b / a - 1 := by
    rw [neighbours_map, List.map_map]
    refine List.map_congr_left fun p _ => ?_
    show k * p.2 / (k * p.1) - 1 = p.2 / p.1 - 1
    rw [mul_div_mul_left _ _ hk.ne']
  have hzero (x : ℚ) : k * x = 0 ↔ x = 0 := mul_eq_zero_iff_left hk.ne'
  have hpos (x : ℚ) : 0 < k * x ↔ 0 < x := mul_pos_iff_of_pos_left hk
  have hneg (x : ℚ) : k * x < 0 ↔ x < 0 := by
    rw [← neg_pos, ← mul_neg, hpos, neg_pos]
  have halign (x y : ℚ) : 0 < k * x * (k * y) ↔ 0 < x * y := by
    rw [mul_mul_mul_comm]
    exact mul_pos_iff_of_pos_left (mul_pos hk hk)
  have hless (x y : ℚ) : k * x < k * y ↔ x < y := mul_lt_mul_iff_right₀ hk
  unfold measure
  dsimp only [EligibleQuote.scaled]
  rw [recentMoves_scaled, hreturns]
  simp only [sum_scaled, abs_sum_scaled hk, everyFourth_map, getLastD_scaled, lastOf_map, mean_scaled,
    foldr_min_scaled hk, foldr_max_scaled hk, ← mul_sub, hpos, hneg, hzero, hless, halign, abs_mul,
    abs_of_pos hk, mul_div_mul_left _ _ hk.ne']
  rfl

/-- **A scaled snapshot has the same fingerprint, or is refused for the same reason.** -/
theorem typedFingerprint_scaled (zones : ZoneDatabase) (now : ℤ) :
    typedFingerprint zones (s.scaled k volume) now = typedFingerprint zones s now := by
  unfold typedFingerprint
  rw [eligibleQuote_scaled hk hvolume]
  cases eligibleQuote zones s now with
  | error e => rfl
  | ok q =>
    have hmeasure : measure (s.scaled k volume) (q.scaled k) = measure s q := measure_scaled hk q
    have hsum : ((lastOf 20 ((neighbours (q.scaled k).prices).map fun (a, b) => b - a)).map abs).sum =
        k * ((lastOf 20 ((neighbours q.prices).map fun (a, b) => b - a)).map abs).sum := by
      show ((lastOf 20 ((neighbours (q.prices.map (k * ·))).map fun (a, b) => b - a)).map abs).sum = _
      rw [recentMoves_scaled, abs_sum_scaled hk]
    have hstill : k * ((lastOf 20 ((neighbours q.prices).map fun (a, b) => b - a)).map abs).sum = 0 ↔
        ((lastOf 20 ((neighbours q.prices).map fun (a, b) => b - a)).map abs).sum = 0 :=
      mul_eq_zero_iff_left hk.ne'
    show (refuseIf (((lastOf 20 ((neighbours (q.scaled k).prices).map fun (a, b) => b - a)).map
      abs).sum = 0) _ >>= _) = (refuseIf (((lastOf 20 ((neighbours q.prices).map
        fun (a, b) => b - a)).map abs).sum = 0) _ >>= _)
    unfold refuseIf
    simp only [hsum, hstill, hmeasure]
    rfl

end

/-! ## Snapshots of another scale -/

/-- An accepted snapshot has a finite volume. -/
theorem volume_of_accepted {zones : ZoneDatabase} {s : TypedResearchSnapshot} {now : ℤ}
    {m : MeasuredCandidate} (h : typedFingerprint zones s now = .ok m) :
    s.volume.finite?.isSome = true := by
  unfold typedFingerprint at h
  obtain ⟨q, hq, -⟩ := ok_of_bind h
  unfold eligibleQuote at hq
  obtain ⟨quote, hquote, -⟩ := ok_of_bind hq
  unfold eligiblePrices at hquote
  obtain ⟨_, -, hquote⟩ := ok_of_bind hquote
  obtain ⟨_, -, hquote⟩ := ok_of_bind hquote
  cases hv : s.volume.finite? with
  | some v => rfl
  | none =>
    rw [hv] at hquote
    split at hquote
    · rename_i heq
      cases heq
    · cases hquote

theorem PyFloat.atLeast_of_finite {v : ℚ} (hv : 0 ≤ v) : (PyFloat.finite v).atLeast 0 = true :=
  decide_eq_true hv

/-- Scaled snapshots are as valid. -/
theorem TypedResearchSnapshot.scaled_valid {s : TypedResearchSnapshot} {k : ℚ} {volume : PyFloat}
    (hk : 0 < k) (hs : s.valid = true) (hvolume : volume.atLeast 0 = true) :
    (s.scaled k volume).valid = true := by
  simp only [TypedResearchSnapshot.valid, Bool.and_eq_true, decide_eq_true_eq] at hs ⊢
  obtain ⟨⟨⟨⟨⟨⟨⟨⟨⟨hlisting, hspec⟩, hcloses⟩, hbid⟩, hask⟩, -⟩, htimeframe⟩, hmacro⟩, hsentiment⟩,
    hevent⟩ := hs
  have hlength : (s.scaled k volume).closes.length = s.closes.length := List.length_map _
  refine ⟨⟨⟨⟨⟨⟨⟨⟨⟨hlisting, hspec⟩, ?_⟩, ?_⟩, ?_⟩, hvolume⟩, htimeframe⟩, hmacro⟩, hsentiment⟩, hevent⟩
  · omega
  · exact (s.bid.above_scaled hk).trans hbid
  · exact (s.ask.above_scaled hk).trans hask

def risingSnapshot : TypedResearchSnapshot where
  listing := {
    id := ⟨10⟩
    underlyingId := ⟨11⟩
    symbol := "BTCUSD"
    assetClass := .cryptocurrency
    instrumentType := .spot }
  specification := {
    id := ⟨12⟩
    effectiveFrom := 0
    quantityUnit := .lots
    provenance := [("source", "provider")] }
  closes := (List.range 20).map fun i => .finite (i + 1)
  bid := .finite 20
  ask := .finite 20
  volume := .finite 1000
  observedAt := 0
  sourceCutId := "cut"

theorem rising_valid : risingSnapshot.valid = true := by decide +kernel

theorem rising_accepted : (typedFingerprint zonesAtUtc risingSnapshot 0).toOption.isSome = true := by
  decide +kernel

end Matrades

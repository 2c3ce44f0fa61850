import Mathlib.Order.Bounds.Basic
import Matrades.Risk.Proof.Monotone

/-!
# The greatest admissible size

`compliant_size` takes the smaller of the requested size and the size that the budget allows, rounded
down to the increment. Only the second is a whole number of increments: the result is the greatest
admissible size unless the requested size binds and lies between two increments
(`compliantSize_greatest_iff`).
-/

namespace Matrades

open Base

/-! ## Whole numbers of steps -/

section
variable {x step : ℚ}

/-- What is rounded down is the greatest whole number of steps. -/
theorem floorTo_isGreatest (hx : 0 ≤ x) (hs : 0 < step) :
    IsGreatest {y : ℚ | (∃ n : ℕ, y = n * step) ∧ y ≤ x} (floorTo x step) := by
  constructor
  · exact ⟨floorTo_steps hx hs, floorTo_le hx hs⟩
  · rintro y ⟨⟨n, rfl⟩, hle⟩
    have hcast : ((n : ℤ) : ℚ) * step ≤ x := by rwa [Int.cast_natCast]
    have h := le_floorTo hx hs hcast
    rwa [Int.cast_natCast] at h

/-- The next whole number of steps is above. -/
theorem lt_floorTo_add (hx : 0 ≤ x) (hs : 0 < step) : x < floorTo x step + step := by
  have hq : 0 ≤ x / step := div_nonneg hx hs.le
  have hlt : x / step < ⌊x / step⌋ + 1 := Int.lt_floor_add_one _
  rw [floorTo, if_pos hq]
  calc x = x / step * step := (div_mul_cancel₀ x hs.ne').symm
    _ < (⌊x / step⌋ + 1) * step := mul_lt_mul_of_pos_right hlt hs
    _ = ⌊x / step⌋ * step + step := by ring

/-- A whole number of steps above `x` is a step above what `x` is rounded down to. -/
theorem floorTo_add_le {n : ℕ} (hx : 0 ≤ x) (hs : 0 < step) (h : floorTo x step < n * step) :
    floorTo x step + step ≤ n * step := by
  obtain ⟨m, hm⟩ := floorTo_steps hx hs
  rw [hm] at h ⊢
  have hlt : (m : ℚ) < n := lt_of_mul_lt_mul_right h hs.le
  have hle : (m : ℚ) + 1 ≤ n := by exact_mod_cast hlt
  calc (m : ℚ) * step + step = (m + 1) * step := by ring
    _ ≤ n * step := mul_le_mul_of_nonneg_right hle hs.le

/-- Rounding down keeps the smaller of two amounts. -/
theorem floorTo_min {y : ℚ} (hx : 0 ≤ x) (hy : 0 ≤ y) (hs : 0 < step) :
    floorTo (min x y) step = min (floorTo x step) (floorTo y step) := by
  rcases le_total x y with h | h
  · rw [min_eq_left h, min_eq_left (floorTo_mono hs hx h)]
  · rw [min_eq_right h, min_eq_right (floorTo_mono hs hy h)]

end

/-! ## Sizes -/

/-- A size an order may have: whole increments, not above the request, its risk within the budget. -/
structure Admissible (requested perUnit budget increment size : ℚ) : Prop where
  steps : ∃ n : ℕ, size = n * increment
  requested : size ≤ requested
  budget : size * perUnit ≤ budget

/-- The requested size is a whole number of increments, or the budget does not reach the next one. -/
def OnStep (requested perUnit budget increment : ℚ) : Prop :=
  (∃ n : ℕ, requested = n * increment) ∨
    budget < (floorTo requested increment + increment) * perUnit

section
variable {requested perUnit increment : ℚ} (hr : 0 < requested) (hp : 0 < perUnit)
  (hi : 0 < increment)
include hp hi

theorem sizeForRisk_eq {budget : ℚ} (hb : 0 ≤ budget) :
    sizeForRisk budget perUnit increment = .ok (floorTo (budget / perUnit) increment) := by
  unfold sizeForRisk
  by_cases hzero : budget ≤ 0
  · rw [if_pos (.inl hzero), le_antisymm hzero hb, zero_div, floorTo, zero_div]
    simp
  · rw [if_neg (by rw [not_or]; exact ⟨hzero, not_le.2 hp⟩), roundDown, if_neg (not_le.2 hi)]

theorem compliantSize_eq (c : ℚ) (cs : List ℚ) :
    compliantSize requested perUnit (c :: cs) increment =
      .ok (min requested (floorTo (max 0 (leastOf c cs) / perUnit) increment)) := by
  unfold compliantSize
  dsimp only
  rw [sizeForRisk_eq hp hi (le_max_left _ _)]
  rfl

include hr

/-- The greatest admissible size is the smaller of both bounds, rounded down. -/
theorem admissible_isGreatest {budget : ℚ} (hb : 0 ≤ budget) :
    IsGreatest {size | Admissible requested perUnit budget increment size}
      (floorTo (min requested (budget / perUnit)) increment) := by
  have hmin : 0 ≤ min requested (budget / perUnit) := le_min hr.le (div_nonneg hb hp.le)
  obtain ⟨⟨hsteps, hle⟩, hupper⟩ := floorTo_isGreatest hmin hi
  constructor
  · exact ⟨hsteps, hle.trans (min_le_left _ _), (le_div_iff₀ hp).1 (hle.trans (min_le_right _ _))⟩
  · intro size hsize
    exact hupper ⟨hsize.steps, le_min hsize.requested ((le_div_iff₀ hp).2 hsize.budget)⟩

/-- The smaller of the request and the rounded size is rounded where the request is, or is not taken. -/
theorem min_floorTo_iff {budget : ℚ} (hb : 0 ≤ budget) :
    min requested (floorTo (budget / perUnit) increment) =
        floorTo (min requested (budget / perUnit)) increment ↔
      OnStep requested perUnit budget increment := by
  have hq : 0 ≤ budget / perUnit := div_nonneg hb hp.le
  have hbelow := floorTo_le hr.le hi
  have habove := lt_floorTo_add hr.le hi
  rw [floorTo_min hr.le hq hi]
  unfold OnStep
  rw [← div_lt_iff₀ hp]
  constructor
  · intro heq
    by_contra hnot
    rw [not_or, not_lt] at hnot
    obtain ⟨hoff, hreach⟩ := hnot
    obtain ⟨m, hm⟩ := floorTo_steps hr.le hi
    have hnext : floorTo requested increment + increment ≤
        floorTo (budget / perUnit) increment := by
      have hsteps : ((m + 1 : ℤ) : ℚ) * increment = floorTo requested increment + increment := by
        rw [hm]
        push_cast
        ring
      rw [← hsteps] at hreach ⊢
      exact le_floorTo hq hi hreach
    rw [min_eq_left (habove.le.trans hnext), min_eq_left (by linarith)] at heq
    exact hoff ⟨m, heq.trans hm⟩
  · rintro (⟨n, hn⟩ | hlt)
    · have hcast : ((n : ℤ) : ℚ) * increment ≤ requested := by rw [hn, Int.cast_natCast]
      have hround := le_floorTo hr.le hi hcast
      rw [Int.cast_natCast, ← hn] at hround
      rw [le_antisymm hbelow hround]
    · have hle : floorTo (budget / perUnit) increment ≤ floorTo requested increment := by
        by_contra hnot
        obtain ⟨n, hn⟩ := floorTo_steps hq hi
        rw [not_le, hn] at hnot
        have hnext := floorTo_add_le hr.le hi hnot
        rw [← hn] at hnext
        exact absurd (hnext.trans (floorTo_le hq hi)) (not_le.2 hlt)
      rw [min_eq_right hle, min_eq_right (hle.trans hbelow)]

/-- **`compliant_size` is the greatest admissible size, and 0 where none is positive, exactly where the
requested size is on a step or does not bind.** -/
theorem compliantSize_greatest_iff (c : ℚ) (cs : List ℚ) :
    (∃ size, compliantSize requested perUnit (c :: cs) increment = .ok size ∧
      IsGreatest {s | Admissible requested perUnit (max 0 (leastOf c cs)) increment s} size ∧
      (size = 0 ↔ ¬∃ s, 0 < s ∧ Admissible requested perUnit (max 0 (leastOf c cs)) increment s)) ↔
    OnStep requested perUnit (max 0 (leastOf c cs)) increment := by
  have hb : 0 ≤ max 0 (leastOf c cs) := le_max_left _ _
  have hgreatest := admissible_isGreatest hr hp hi hb
  rw [compliantSize_eq hp hi, ← min_floorTo_iff hr hp hi hb]
  constructor
  · rintro ⟨size, hsize, hgreat, -⟩
    cases hsize
    exact hgreat.unique hgreatest
  · intro heq
    refine ⟨_, rfl, by rw [heq]; exact hgreatest, ?_⟩
    rw [heq]
    constructor
    · rintro hzero ⟨s, hpos, hs⟩
      have hle := hgreatest.2 hs
      rw [hzero] at hle
      exact absurd hpos (not_lt.2 hle)
    · intro hnone
      by_contra hne
      have hnonneg := floorTo_nonneg (le_min hr.le (div_nonneg hb hp.le)) hi
      exact hnone ⟨_, lt_of_le_of_ne hnonneg (Ne.symm hne), hgreatest.1⟩

end

theorem half_step : (0 : ℚ) < 5 / 2 := by norm_num

/-- Two and a half units are requested in whole units: two are within a budget of two. -/
theorem compliantSize_greatest_two :
    ∃ size, compliantSize (5 / 2) 1 [2, 7] 1 = .ok size ∧
      IsGreatest {s | Admissible (5 / 2) 1 (max 0 (leastOf 2 [7])) 1 s} size ∧
      (size = 0 ↔ ¬∃ s, 0 < s ∧ Admissible (5 / 2) 1 (max 0 (leastOf 2 [7])) 1 s) := by
  refine (compliantSize_greatest_iff half_step one_pos one_pos 2 [7]).2 (.inr ?_)
  decide +kernel

/-- **A request between two steps is granted as it is.** -/
theorem compliantSize_off_step : compliantSize (5 / 2) 1 [7] 1 = .ok (5 / 2) ∧
    ¬∃ size, compliantSize (5 / 2) 1 [7] 1 = .ok size ∧
      IsGreatest {s | Admissible (5 / 2) 1 (max 0 (leastOf 7 [])) 1 s} size ∧
      (size = 0 ↔ ¬∃ s, 0 < s ∧ Admissible (5 / 2) 1 (max 0 (leastOf 7 [])) 1 s) := by
  have hsize : compliantSize (5 / 2) 1 [7] 1 = .ok (5 / 2) := by decide +kernel
  refine ⟨hsize, ?_⟩
  rintro ⟨size, h, hgreatest, -⟩
  rw [hsize] at h
  cases h
  obtain ⟨n, hn⟩ := hgreatest.1.steps
  have hden := congrArg Rat.den hn
  rw [mul_one, Rat.den_natCast] at hden
  revert hden
  decide +kernel

end Matrades

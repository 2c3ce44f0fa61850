import Mathlib.Algebra.BigOperators.Group.List.Basic
import Mathlib.Algebra.Order.Group.Abs
import Mathlib.Data.List.Induction
import Mathlib.Order.Bounds.Image

/-!
# Drawdown

The equity behind the first `n` of a list of profits, its peaks and its falls. `Curve.add` takes one
profit with the three numbers a single pass carries; behind all profits they are the last equity, the
greatest equity so far and the greatest fall between two points in order (`Curve.traces_foldl`).
-/

namespace Matrades.Base

/-! ## Definition -/

section
variable {α : Type} [AddCommGroup α]

/-- The equity behind the first `n` profits. -/
def equityAfter (start : α) (profits : List α) (n : ℕ) : α := start + (profits.take n).sum

/-- The equities reached, the starting one included. -/
def equities (start : α) (profits : List α) : Set α :=
  {x | ∃ i ≤ profits.length, equityAfter start profits i = x}

/-- The falls from one equity to a later one. -/
def falls (start : α) (profits : List α) : Set α :=
  {x | ∃ i j, i ≤ j ∧ j ≤ profits.length ∧
    equityAfter start profits i - equityAfter start profits j = x}

end

/-- What one pass over the profits carries. -/
structure Curve (α : Type) where
  equity : α
  peak : α
  maxDrawdown : α

section
variable {α : Type} [AddCommGroup α] [LinearOrder α]

def Curve.start (equity : α) : Curve α := ⟨equity, equity, 0⟩

def Curve.add (c : Curve α) (profit : α) : Curve α where
  equity := c.equity + profit
  peak := max c.peak (c.equity + profit)
  maxDrawdown := max c.maxDrawdown (max c.peak (c.equity + profit) - (c.equity + profit))

/-- The greatest equity and the greatest fall. -/
structure Curve.Traces (c : Curve α) (start : α) (profits : List α) : Prop where
  equity : c.equity = equityAfter start profits profits.length
  peak : IsGreatest (equities start profits) c.peak
  maxDrawdown : IsGreatest (falls start profits) c.maxDrawdown

end

/-! ## One more profit -/

section
variable {α : Type} [AddCommGroup α] {start : α}

theorem equityAfter_concat_of_le {profits : List α} {n : ℕ} (h : n ≤ profits.length) (profit : α) :
    equityAfter start (profits ++ [profit]) n = equityAfter start profits n := by
  unfold equityAfter
  rw [List.take_append_of_le_length h]

theorem equityAfter_concat (profits : List α) (profit : α) :
    equityAfter start (profits ++ [profit]) (profits ++ [profit]).length =
      equityAfter start profits profits.length + profit := by
  simp [equityAfter, add_assoc]

theorem equityAfter_succ {profits : List α} {n : ℕ} {profit : α} (h : profits[n]? = some profit) :
    equityAfter start profits (n + 1) = equityAfter start profits n + profit := by
  unfold equityAfter
  rw [List.take_add_one, h, Option.toList_some, List.sum_append, List.sum_singleton, add_assoc]

theorem equities_concat (profits : List α) (profit : α) :
    equities start (profits ++ [profit]) =
      insert (equityAfter start profits profits.length + profit) (equities start profits) := by
  ext x
  constructor
  · rintro ⟨i, hi, rfl⟩
    rw [List.length_append, List.length_singleton] at hi
    rcases Nat.lt_or_ge profits.length i with hlast | hle
    · have hlen : i = (profits ++ [profit]).length := by
        rw [List.length_append, List.length_singleton]
        omega
      rw [hlen, equityAfter_concat]
      exact .inl rfl
    · exact .inr ⟨i, hle, (equityAfter_concat_of_le hle profit).symm⟩
  · rintro (rfl | ⟨i, hi, rfl⟩)
    · exact ⟨_, le_refl _, equityAfter_concat profits profit⟩
    · refine ⟨i, ?_, equityAfter_concat_of_le hi profit⟩
      rw [List.length_append]
      omega

/-- A fall ends before the last profit, or it ends behind it at any equity so far. -/
theorem falls_concat (profits : List α) (profit : α) :
    falls start (profits ++ [profit]) = falls start profits ∪
      Set.image (fun x => x - (equityAfter start profits profits.length + profit))
        (equities start (profits ++ [profit])) := by
  ext x
  constructor
  · rintro ⟨i, j, hij, hj, rfl⟩
    rcases Nat.lt_or_ge profits.length j with hlast | hle
    · have hlen : j = (profits ++ [profit]).length := by
        rw [List.length_append, List.length_singleton] at hj ⊢
        omega
      refine .inr ⟨_, ⟨i, hij.trans hj, rfl⟩, ?_⟩
      rw [hlen, equityAfter_concat]
    · refine .inl ⟨i, j, hij, hle, ?_⟩
      rw [equityAfter_concat_of_le hle, equityAfter_concat_of_le (hij.trans hle)]
  · rintro (⟨i, j, hij, hj, rfl⟩ | ⟨_, ⟨i, hi, rfl⟩, rfl⟩)
    · refine ⟨i, j, hij, ?_, ?_⟩
      · rw [List.length_append]
        omega
      · rw [equityAfter_concat_of_le hj, equityAfter_concat_of_le (hij.trans hj)]
    · refine ⟨i, _, hi, le_refl _, ?_⟩
      rw [equityAfter_concat]

end

/-! ## One pass -/

section
variable {α : Type} [AddCommGroup α] [LinearOrder α] {start : α}

theorem Curve.traces_start (start : α) : (Curve.start start).Traces start [] where
  equity := (add_zero start).symm
  peak := by
    refine ⟨⟨0, le_refl _, add_zero start⟩, ?_⟩
    rintro _ ⟨i, _, rfl⟩
    simp [equityAfter, Curve.start]
  maxDrawdown := by
    refine ⟨⟨0, 0, le_refl _, le_refl _, sub_self _⟩, ?_⟩
    rintro _ ⟨i, j, _, _, rfl⟩
    simp [equityAfter, Curve.start]

variable [IsOrderedAddMonoid α]

theorem Curve.Traces.add {c : Curve α} {profits : List α} (h : c.Traces start profits)
    (profit : α) : (c.add profit).Traces start (profits ++ [profit]) := by
  have hequity : (c.add profit).equity = equityAfter start profits profits.length + profit :=
    congrArg (· + profit) h.equity
  have hpeak : IsGreatest (equities start (profits ++ [profit])) (c.add profit).peak := by
    rw [equities_concat, ← hequity, Curve.add, max_comm]
    exact h.peak.insert _
  refine ⟨?_, hpeak, ?_⟩
  · rw [equityAfter_concat]
    exact hequity
  · rw [falls_concat, ← hequity]
    have hmono : Monotone fun x => x - (c.add profit).equity :=
      fun _ _ hle => sub_le_sub_right hle _
    exact h.maxDrawdown.union (hmono.map_isGreatest hpeak)

/-- **One pass finds the last equity, the peak and the greatest fall.** -/
theorem Curve.traces_foldl (start : α) (profits : List α) :
    (profits.foldl Curve.add (Curve.start start)).Traces start profits := by
  induction profits using List.reverseRecOn with
  | nil => exact Curve.traces_start start
  | append_singleton profits profit ih =>
    rw [List.foldl_append]
    exact ih.add profit

end

/-! ## Gains and losses -/

section
variable {α : Type} [AddCommGroup α] [LinearOrder α]

def gains (profits : List α) : α := (profits.filter (0 < ·)).sum

/-- The losses are negative. -/
def losses (profits : List α) : α := (profits.filter (· < 0)).sum

theorem gains_concat (profits : List α) (profit : α) :
    gains (profits ++ [profit]) = gains profits + max 0 profit := by
  unfold gains
  rw [List.filter_append, List.sum_append]
  congr 1
  rcases lt_or_ge 0 profit with hpos | hle
  · simp [hpos, max_eq_right hpos.le]
  · simp [hle.not_gt, max_eq_left hle]

variable [IsOrderedAddMonoid α]

theorem losses_concat (profits : List α) (profit : α) :
    losses (profits ++ [profit]) = losses profits - max 0 (-profit) := by
  unfold losses
  rw [List.filter_append, List.sum_append, sub_eq_add_neg]
  congr 1
  rcases lt_or_ge profit 0 with hneg | hle
  · have hmax : max 0 (-profit) = -profit := max_eq_right (neg_nonneg.2 hneg.le)
    simp [hneg, hmax]
  · have hmax : max 0 (-profit) = 0 := max_eq_left (neg_nonpos.2 hle)
    simp [hle.not_gt, hmax]

theorem losses_nonpos (profits : List α) : losses profits ≤ 0 := by
  induction profits using List.reverseRecOn with
  | nil => exact le_refl _
  | append_singleton profits profit ih =>
    rw [losses_concat]
    exact sub_nonpos.2 (ih.trans (le_max_left _ _))

/-- The profits are the gains less the losses. -/
theorem sum_eq_gains_sub_losses (profits : List α) :
    profits.sum = gains profits - |losses profits| := by
  rw [abs_of_nonpos (losses_nonpos profits), sub_neg_eq_add]
  induction profits using List.reverseRecOn with
  | nil => simp [gains, losses]
  | append_singleton profits profit ih =>
    have hparts : profit = max 0 profit - max 0 (-profit) := by
      rcases le_total 0 profit with hle | hle
      · rw [max_eq_right hle, max_eq_left (neg_nonpos.2 hle), sub_zero]
      · rw [max_eq_left hle, max_eq_right (neg_nonneg.2 hle), zero_sub, neg_neg]
    calc (profits ++ [profit]).sum = gains profits + losses profits + profit := by
          rw [List.sum_append, ih, List.sum_singleton]
      _ = gains profits + losses profits + (max 0 profit - max 0 (-profit)) := by rw [← hparts]
      _ = gains (profits ++ [profit]) + losses (profits ++ [profit]) := by
          rw [gains_concat, losses_concat, ← add_sub_assoc, ← add_sub_assoc, add_right_comm]

end

end Matrades.Base

import Mathlib.Algebra.Order.BigOperators.Group.List
import Mathlib.Data.List.Perm.Basic

/-!
# Totals clamped at zero

A running total to which amounts are added and that is cut to zero whenever it falls below. The order
of the amounts does not matter exactly if no amount is negative or none is positive
(`clampedTotal_perm_iff`): otherwise a loss behind all gains takes from the total what is cut off in
front of them.
-/

namespace Matrades.Base

variable {α β : Type} [AddCommGroup α] [LinearOrder α]

def clampedTotal (start : α) (amounts : List α) : α :=
  amounts.foldl (fun total d => max 0 (total + d)) start

@[simp] theorem clampedTotal_nil (start : α) : clampedTotal start [] = start := rfl

theorem clampedTotal_cons (start d : α) (ds : List α) :
    clampedTotal start (d :: ds) = clampedTotal (max 0 (start + d)) ds := rfl

theorem clampedTotal_append (start : α) (ds es : List α) :
    clampedTotal start (ds ++ es) = clampedTotal (clampedTotal start ds) es := List.foldl_append

variable [IsOrderedAddMonoid α]

/-- Nothing is cut off from gains. -/
theorem clampedTotal_gains {start : α} {ds : List α} (hs : 0 ≤ start) (h : ∀ d ∈ ds, 0 ≤ d) :
    clampedTotal start ds = start + ds.sum := by
  induction ds generalizing start with
  | nil => rw [clampedTotal_nil, List.sum_nil, add_zero]
  | cons d ds ih =>
    obtain ⟨hd, hds⟩ := List.forall_mem_cons.1 h
    have hnext : 0 ≤ start + d := add_nonneg hs hd
    rw [clampedTotal_cons, max_eq_right hnext, ih hnext hds, List.sum_cons, add_assoc]

/-- Losses never raise the total. -/
theorem clampedTotal_losses {start : α} {ds : List α} (hs : 0 ≤ start) (h : ∀ d ∈ ds, d ≤ 0) :
    0 ≤ clampedTotal start ds ∧ clampedTotal start ds ≤ start := by
  induction ds generalizing start with
  | nil => exact ⟨hs, le_refl _⟩
  | cons d ds ih =>
    obtain ⟨hd, hds⟩ := List.forall_mem_cons.1 h
    obtain ⟨hlow, hhigh⟩ := ih (le_max_left 0 (start + d)) hds
    exact ⟨hlow, hhigh.trans (max_le hs (add_le_of_nonpos_right hd))⟩

/-- A loss lowers a positive total. -/
theorem clampedTotal_losses_lt {start : α} {ds : List α} (hs : 0 < start) (h : ∀ d ∈ ds, d ≤ 0)
    (hloss : ∃ d ∈ ds, d < 0) : clampedTotal start ds < start := by
  induction ds generalizing start with
  | nil =>
    obtain ⟨d, hd, -⟩ := hloss
    cases hd
  | cons d ds ih =>
    obtain ⟨hd, hds⟩ := List.forall_mem_cons.1 h
    rw [clampedTotal_cons]
    have hrest := (clampedTotal_losses (le_max_left 0 (start + d)) hds).2
    rcases lt_or_eq_of_le hd with hlt | rfl
    · exact hrest.trans_lt (max_lt hs (add_lt_of_neg_right start hlt))
    · rw [add_zero, max_eq_right hs.le]
      obtain ⟨e, he, hneg⟩ := hloss
      rcases List.mem_cons.1 he with rfl | he
      · exact absurd hneg (lt_irrefl _)
      · exact ih hs hds ⟨e, he, hneg⟩

/-- **The order does not matter exactly if the amounts have one sign.** -/
theorem clampedTotal_perm_iff (f : β → α) (xs : List β) :
    (∀ ys : List β, ys.Perm xs → clampedTotal 0 (ys.map f) = clampedTotal 0 (xs.map f)) ↔
      (∀ x ∈ xs, 0 ≤ f x) ∨ ∀ x ∈ xs, f x ≤ 0 := by
  have hmap : ∀ {p : α → Prop} {zs : List β}, (∀ x ∈ zs, p (f x)) → ∀ d ∈ zs.map f, p d := by
    intro p zs h d hd
    obtain ⟨x, hx, rfl⟩ := List.mem_map.1 hd
    exact h x hx
  constructor
  · intro horder
    by_contra hnot
    rw [not_or] at hnot
    obtain ⟨hsomeLoss, hsomeGain⟩ := hnot
    obtain ⟨l, hl, hneg⟩ : ∃ l ∈ xs, f l < 0 := by
      by_contra hnone
      exact hsomeLoss fun x hx => not_lt.1 fun hx' => hnone ⟨x, hx, hx'⟩
    obtain ⟨g, hg, hpos⟩ : ∃ g ∈ xs, 0 < f g := by
      by_contra hnone
      exact hsomeGain fun x hx => not_lt.1 fun hx' => hnone ⟨x, hx, hx'⟩
    let gain : β → Bool := fun x => decide (0 < f x)
    let gains := xs.filter gain
    let losses := xs.filter fun x => !gain x
    have hgains : ∀ d ∈ gains.map f, 0 ≤ d := hmap fun x hx =>
      (of_decide_eq_true (List.mem_filter.1 hx).2).le
    have hlosses : ∀ d ∈ losses.map f, d ≤ 0 := hmap fun x hx => by
      have hx := (List.mem_filter.1 hx).2
      rw [Bool.not_eq_true', decide_eq_false_iff_not, not_lt] at hx
      exact hx
    have hfirst : (gains ++ losses).Perm xs := List.filter_append_perm gain xs
    -- the losses first are cut off, the losses last are not
    have hzero : clampedTotal 0 (losses.map f) = 0 := by
      obtain ⟨hlow, hhigh⟩ := clampedTotal_losses (le_refl 0) hlosses
      exact le_antisymm hhigh hlow
    have hsum : 0 < (gains.map f).sum := by
      have hmem : f g ∈ gains.map f :=
        List.mem_map_of_mem (List.mem_filter.2 ⟨hg, decide_eq_true hpos⟩)
      exact hpos.trans_le (List.single_le_sum hgains _ hmem)
    have hlast := horder (gains ++ losses) hfirst
    have hahead := horder (losses ++ gains) (List.perm_append_comm.trans hfirst)
    rw [List.map_append, clampedTotal_append, hzero, clampedTotal_gains (le_refl 0) hgains,
      zero_add] at hahead
    rw [List.map_append, clampedTotal_append, clampedTotal_gains (le_refl 0) hgains, zero_add,
      ← hahead] at hlast
    have hlower := clampedTotal_losses_lt hsum hlosses ⟨f l, List.mem_map_of_mem
      (List.mem_filter.2 ⟨hl, by rw [Bool.not_eq_true', decide_eq_false_iff_not]; exact hneg.not_gt⟩),
      hneg⟩
    exact hlower.ne hlast
  · rintro (hgains | hlosses) ys hperm
    · rw [clampedTotal_gains (le_refl 0) (hmap fun y hy => hgains y (hperm.subset hy)),
        clampedTotal_gains (le_refl 0) (hmap hgains), (hperm.map f).sum_eq]
    · have hzero : ∀ zs : List β, zs ⊆ xs → clampedTotal 0 (zs.map f) = 0 := by
        intro zs hzs
        obtain ⟨hlow, hhigh⟩ := clampedTotal_losses (le_refl 0) (hmap fun z hz => hlosses z (hzs hz))
        exact le_antisymm hhigh hlow
      rw [hzero ys hperm.subset, hzero xs (List.Subset.refl xs)]

end Matrades.Base

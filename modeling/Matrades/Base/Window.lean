import Mathlib.Data.List.Basic
import Mathlib.Data.List.Count
import Mathlib.Data.List.Nodup
import Mathlib.Data.List.Pairwise
import Mathlib.Data.List.Sort
import Mathlib.Order.Lattice

/-!
# Places in a list in order

An element of a strictly ordered list is among the first `n` exactly if fewer than `n` elements are less
(`mem_take_iff`). Where one is not among them, they are all less (`key_lt_of_not_mem_take`). A count that
every round lowers comes to zero (`exists_round_zero`).

Where the keys of a sorted list lie on both sides of a bound, two neighbours have the bound between
them, and no other element does.
-/

namespace Matrades.Base

/-! ## The first elements of a list in order -/

section
section
variable {α β : Type} [LinearOrder β] {key : α → β}

theorem mem_take_iff {xs : List α} (h : xs.Pairwise fun a b => key a < key b) {n : ℕ} {a : α} :
    a ∈ xs.take n ↔ a ∈ xs ∧ xs.countP (fun b => key b < key a) < n := by
  induction xs generalizing n with
  | nil => simp
  | cons x xs ih =>
    obtain ⟨hx, hxs⟩ := List.pairwise_cons.1 h
    cases n with
    | zero => simp
    | succ n =>
      rw [List.take_succ_cons, List.mem_cons, ih hxs, List.mem_cons, List.countP_cons]
      constructor
      · rintro (rfl | ⟨hmem, hcount⟩)
        · refine ⟨.inl rfl, ?_⟩
          have hnone : xs.countP (fun b => key b < key a) = 0 := by
            rw [List.countP_eq_zero]
            intro b hb
            simpa using (hx b hb).le
          simp [hnone]
        · refine ⟨.inr hmem, ?_⟩
          rw [if_pos (by simpa using hx a hmem)]
          omega
      · rintro ⟨rfl | hmem, hcount⟩
        · exact .inl rfl
        · rw [if_pos (by simpa using hx a hmem)] at hcount
          exact .inr ⟨hmem, by omega⟩

/-- Where an element is not among the first, the first are less. -/
theorem key_lt_of_not_mem_take {xs : List α} (h : xs.Pairwise fun a b => key a < key b) {n : ℕ} {a b : α}
    (ha : a ∈ xs) (hnot : a ∉ xs.take n) (hb : b ∈ xs.take n) : key b < key a := by
  have hcount : n ≤ xs.countP (fun c => key c < key a) := by
    apply not_lt.1
    intro hlt
    exact hnot ((mem_take_iff h).2 ⟨ha, hlt⟩)
  apply not_le.1
  intro hle
  have hmono : xs.countP (fun c => key c < key a) ≤ xs.countP (fun c => key c < key b) :=
    List.countP_mono_left fun c _ hc => by
      rw [decide_eq_true_eq] at hc ⊢
      exact hc.trans_le hle
  have hless := ((mem_take_iff h).1 hb).2
  omega

/-- Ordered by a key that tells the elements apart, a list is strictly ordered. -/
theorem pairwise_lt_of_le {xs : List α} (hle : xs.Pairwise fun a b => key a ≤ key b) (hnodup : xs.Nodup)
    (hkey : ∀ a ∈ xs, ∀ b ∈ xs, key a = key b → a = b) : xs.Pairwise fun a b => key a < key b :=
  (hle.and hnodup).imp_of_mem fun {a b} ha hb hab =>
    lt_of_le_of_ne hab.1 fun heq => hab.2 (hkey a ha b hb heq)

theorem pairwise_mergeSort_lt {xs : List α} (hnodup : xs.Nodup)
    (hkey : ∀ a ∈ xs, ∀ b ∈ xs, key a = key b → a = b) :
    (xs.mergeSort fun a b => key a ≤ key b).Pairwise fun a b => key a < key b := by
  have hle : (xs.mergeSort fun a b => key a ≤ key b).Pairwise fun a b => key a ≤ key b := by
    have hsorted := @List.pairwise_mergeSort α (fun a b => decide (key a ≤ key b))
      (fun a b c hab hbc => by
        rw [decide_eq_true_eq] at hab hbc ⊢
        exact hab.trans hbc)
      (fun a b => by
        rw [Bool.or_eq_true, decide_eq_true_eq, decide_eq_true_eq]
        exact le_total _ _) xs
    exact hsorted.imp fun hab => by simpa using hab
  refine pairwise_lt_of_le hle ((List.mergeSort_perm xs _).nodup_iff.2 hnodup) fun a ha b hb heq => ?_
  exact hkey a (List.mem_mergeSort.1 ha) b (List.mem_mergeSort.1 hb) heq

end

/-- A condition that holds of less than before counts less. -/
theorem countP_lt_of_imp {α : Type} {p q : α → Bool} {xs : List α} (h : ∀ x ∈ xs, p x = true → q x = true)
    {a : α} (ha : a ∈ xs) (hq : q a = true) (hp : p a = false) : xs.countP p < xs.countP q := by
  induction xs with
  | nil => cases ha
  | cons x xs ih =>
    have hrest : ∀ y ∈ xs, p y = true → q y = true := fun y hy => h y (List.mem_cons_of_mem x hy)
    rw [List.countP_cons, List.countP_cons]
    rcases List.mem_cons.1 ha with rfl | hmem
    · have hle : xs.countP p ≤ xs.countP q := List.countP_mono_left hrest
      simp only [hp, hq, Bool.false_eq_true, if_false, if_true]
      omega
    · have hlt := ih hrest hmem
      have hx := h x List.mem_cons_self
      by_cases hpx : p x = true
      · simp only [hpx, hx hpx, if_true]
        omega
      · simp only [hpx, Bool.false_eq_true, if_false]
        omega

/-- Rounds that lower a positive count bring it to zero. -/
theorem exists_round_zero {measure : ℕ → ℕ}
    (h : ∀ n, 0 < measure n → measure (n + 1) < measure n) : ∃ n, measure n = 0 := by
  have hsum : ∀ n, (∃ m, measure m = 0) ∨ measure n + n ≤ measure 0 := by
    intro n
    induction n with
    | zero => exact .inr (by omega)
    | succ n ih =>
      rcases ih with hzero | hle
      · exact .inl hzero
      · rcases Nat.eq_zero_or_pos (measure n) with hzero | hpos
        · exact .inl ⟨n, hzero⟩
        · have hlower := h n hpos
          exact .inr (by omega)
  rcases hsum (measure 0 + 1) with hzero | hle
  · exact hzero
  · omega

end

/-! ## Neighbours in a sorted list -/

section
variable {α κ : Type} [LinearOrder κ]

/-- **Two neighbours enclose a bound that has elements on both sides.** -/
theorem exists_neighbours (key : α → κ) {xs : List α}
    (hs : xs.Pairwise fun x y => key x ≤ key y) {bound : κ} (hlow : ∃ x ∈ xs, key x ≤ bound)
    (hhigh : ∃ y ∈ xs, bound < key y) :
    ∃ pair ∈ xs.zip xs.tail, key pair.1 ≤ bound ∧ bound < key pair.2 ∧
      ∀ z ∈ xs, key z ≤ bound → key z ≤ key pair.1 := by
  induction xs with
  | nil =>
    obtain ⟨x, hx, -⟩ := hlow
    cases hx
  | cons x rest ih =>
    rw [List.pairwise_cons] at hs
    have hx : key x ≤ bound := by
      obtain ⟨z, hz, hle⟩ := hlow
      rcases List.mem_cons.1 hz with rfl | hz
      · exact hle
      · exact le_trans (hs.1 z hz) hle
    obtain ⟨y, hy, hlt⟩ := hhigh
    have hy : y ∈ rest := by
      rcases List.mem_cons.1 hy with rfl | hy
      · exact absurd hx (not_le.2 hlt)
      · exact hy
    cases rest with
    | nil => cases hy
    | cons next rest =>
      by_cases hnext : key next ≤ bound
      · obtain ⟨pair, hpair, hle, hgt, hmax⟩ := ih hs.2 ⟨next, List.mem_cons_self, hnext⟩ ⟨y, hy, hlt⟩
        refine ⟨pair, List.mem_cons_of_mem _ hpair, hle, hgt, fun z hz hzle => ?_⟩
        rcases List.mem_cons.1 hz with rfl | hz
        · exact le_trans (hs.1 next List.mem_cons_self) (hmax next List.mem_cons_self hnext)
        · exact hmax z hz hzle
      · -- The second element is the first one beyond the bound.
        refine ⟨(x, next), List.mem_cons_self, hx, not_le.1 hnext, fun z hz hzle => ?_⟩
        rcases List.mem_cons.1 hz with rfl | hz
        · exact le_refl _
        · exfalso
          rcases List.mem_cons.1 hz with rfl | hz
          · exact hnext hzle
          · exact hnext (le_trans ((List.pairwise_cons.1 hs.2).1 z hz) hzle)

end

end Matrades.Base

/-!
## Repeated elements of a list in order

A list in order increases strictly when nothing is repeated in it. Its last `n` elements hold an element
as often as the greater ones leave room for it (`count_recent`), so they increase strictly when every
repeated element is pushed out of them up to one copy (`recent_strict_iff`).
-/

namespace Matrades.Base

variable {α : Type} [LinearOrder α]

theorem strict_iff_count {xs : List α} (h : xs.Pairwise (· ≤ ·)) :
    xs.Pairwise (· < ·) ↔ ∀ a, xs.count a ≤ 1 := by
  rw [← List.nodup_iff_count_le_one]
  constructor
  · intro hlt
    exact hlt.imp fun hab => ne_of_lt hab
  · intro hnodup
    exact (h.and hnodup).imp fun hab => lt_of_le_of_ne hab.1 hab.2

theorem count_add_countP_lt_le (xs : List α) (a : α) :
    xs.count a + xs.countP (a < ·) ≤ xs.length := by
  induction xs with
  | nil => simp
  | cons x xs ih =>
    rw [List.count_cons, List.countP_cons, List.length_cons]
    rcases lt_trichotomy a x with hlt | heq | hgt
    · simp [hlt, hlt.ne']
      omega
    · simp [heq] at ih ⊢
      omega
    · simp [hgt.not_gt, hgt.ne]
      omega

/-- Where nothing is less, an element and the greater ones are all there is. -/
theorem count_add_countP_lt_eq {xs : List α} {a : α} (h : ∀ x ∈ xs, a ≤ x) :
    xs.count a + xs.countP (a < ·) = xs.length := by
  induction xs with
  | nil => simp
  | cons x xs ih =>
    have hrest := ih fun y hy => h y (List.mem_cons_of_mem x hy)
    rw [List.count_cons, List.countP_cons, List.length_cons]
    rcases (h x List.mem_cons_self).lt_or_eq with hlt | heq
    · simp [hlt, hlt.ne']
      omega
    · simp [heq] at hrest ⊢
      omega

/-- **The last `n` elements hold an element as often as the greater ones leave room.** -/
theorem count_recent {xs : List α} (h : xs.Pairwise (· ≤ ·)) (n : ℕ) (a : α) :
    (xs.drop (xs.length - n)).count a = min (xs.count a) (n - xs.countP (a < ·)) := by
  induction xs with
  | nil => simp
  | cons x xs ih =>
    obtain ⟨hx, hxs⟩ := List.pairwise_cons.1 h
    have hroom := count_add_countP_lt_le (x :: xs) a
    rw [List.length_cons] at hroom ⊢
    rcases Nat.lt_or_ge xs.length n with hall | hsome
    · have hzero : xs.length + 1 - n = 0 := by omega
      rw [hzero, List.drop_zero]
      omega
    · have hsucc : xs.length + 1 - n = (xs.length - n) + 1 := by omega
      rw [hsucc, List.drop_succ_cons, ih hxs, List.count_cons, List.countP_cons]
      rcases lt_trichotomy a x with hlt | heq | hgt
      · -- everything is greater than `a`
        have hnone : xs.count a = 0 :=
          List.count_eq_zero.2 fun hmem => absurd (hx a hmem) (not_le.2 hlt)
        simp [hnone, hlt.ne']
      · have hfull := count_add_countP_lt_eq (a := a) fun y hy => heq ▸ hx y hy
        subst heq
        simp only [beq_self_eq_true, if_true, lt_irrefl, decide_false, if_false, Nat.add_zero,
          Bool.false_eq_true]
        omega
      · simp [hgt.not_gt, hgt.ne]

/-- The last `n` elements increase strictly when nothing is repeated there. -/
theorem recent_strict_iff {xs : List α} (h : xs.Pairwise (· ≤ ·)) (n : ℕ) :
    (xs.drop (xs.length - n)).Pairwise (· < ·) ↔
      ∀ a, 2 ≤ xs.count a → n ≤ xs.countP (a < ·) + 1 := by
  rw [strict_iff_count (h.sublist (List.drop_sublist _ _))]
  apply forall_congr'
  intro a
  rw [count_recent h]
  omega

/-- The elements behind a bound increase strictly when nothing is repeated behind it. -/
theorem behind_strict_iff {xs : List α} (h : xs.Pairwise (· ≤ ·)) (bound : α) :
    (xs.filter (bound < ·)).Pairwise (· < ·) ↔ ∀ a, 2 ≤ xs.count a → a ≤ bound := by
  rw [strict_iff_count (h.sublist List.filter_sublist)]
  apply forall_congr'
  intro a
  rcases lt_or_ge bound a with hlt | hle
  · rw [List.count_filter (by simpa using hlt)]
    simp only [hlt.not_ge, imp_false]
    omega
  · have hzero : (xs.filter (bound < ·)).count a = 0 :=
      List.count_eq_zero.2 fun hmem => absurd (List.mem_filter.1 hmem).2 (by simpa using hle)
    simp [hzero, hle]

end Matrades.Base

/-!
## Ranges and prefixes

`Tiles start stop parts`: the ranges begin at `start`, each where the one before it stops, and the last one
stops at `stop`. They are then disjoint and cover what lies between.

`between lo hi` has the elements of a list in order whose keys lie in the range from `lo` to `hi`, without
`hi`. Read in pages of at most `k` elements, each from a cursor on, a list whose neighbours lie at least `gap`
apart is read in such ranges: a page ends with the range up to its last key plus `gap` (`page_eq_between`).

Facts about `<+:` for loops: a fold whose step only appends to an output of its state appends to it
as a whole, and pairing keeps prefixes.
-/

namespace Matrades.Base

/-! ## Ranges one behind the other -/

/-- The ranges follow each other from `start` to `stop`. -/
def Tiles : ℕ → ℕ → List (ℕ × ℕ) → Prop
  | start, stop, [] => start = stop
  | start, stop, part :: parts => part.1 = start ∧ part.1 ≤ part.2 ∧ Tiles part.2 stop parts

theorem Tiles.le {start stop : ℕ} {parts : List (ℕ × ℕ)} (h : Tiles start stop parts) :
    start ≤ stop ∧ ∀ part ∈ parts, start ≤ part.1 ∧ part.2 ≤ stop := by
  induction parts generalizing start with
  | nil => exact ⟨Nat.le_of_eq h, fun part hpart => by cases hpart⟩
  | cons part parts ih =>
    obtain ⟨hstart, hle, hrest⟩ := h
    obtain ⟨hstop, hinside⟩ := ih hrest
    refine ⟨by omega, fun other hother => ?_⟩
    rcases List.mem_cons.1 hother with rfl | hother
    · omega
    · have := hinside other hother
      omega

theorem Tiles.disjoint {start stop : ℕ} {parts : List (ℕ × ℕ)} (h : Tiles start stop parts) :
    parts.Pairwise fun earlier later => earlier.2 ≤ later.1 := by
  induction parts generalizing start with
  | nil => exact List.Pairwise.nil
  | cons part parts ih =>
    obtain ⟨_, _, hrest⟩ := h
    exact List.pairwise_cons.2 ⟨fun later hlater => (hrest.le.2 later hlater).1, ih hrest⟩

/-- **The ranges cover what lies between `start` and `stop`.** -/
theorem Tiles.covers {start stop : ℕ} {parts : List (ℕ × ℕ)} (h : Tiles start stop parts) (i : ℕ) :
    start ≤ i ∧ i < stop ↔ ∃ part ∈ parts, part.1 ≤ i ∧ i < part.2 := by
  induction parts generalizing start with
  | nil =>
    obtain rfl : start = stop := h
    simp
  | cons part parts ih =>
    obtain ⟨rfl, hle, hrest⟩ := h
    have hstop := hrest.le.1
    rw [List.exists_mem_cons_iff, ← ih hrest]
    omega

/-! ## Pages of a list in order -/

section
variable {α : Type} (key : α → ℤ)

/-- The elements with keys from `lo` up to, but not including, `hi`. -/
def between (lo hi : ℤ) (xs : List α) : List α := xs.filter fun a => lo ≤ key a ∧ key a < hi

/-- Neighbours lie at least `gap` apart. -/
def Spaced (gap : ℤ) (xs : List α) : Prop := xs.Pairwise fun a b => key a + gap ≤ key b

/-- The first `k` elements from the cursor on. -/
def pageFrom (cursor : ℤ) (k : ℕ) (xs : List α) : List α := (xs.filter fun a => cursor ≤ key a).take k

variable {key}

theorem Spaced.sorted {gap : ℤ} {xs : List α} (h : Spaced key gap xs) (hgap : 0 ≤ gap) :
    xs.Pairwise fun a b => key a ≤ key b :=
  h.imp fun hab => by omega

/-- Two ranges side by side are one range. -/
theorem between_append {xs : List α} (h : xs.Pairwise fun a b => key a ≤ key b) {lo mid hi : ℤ}
    (hlo : lo ≤ mid) (hhi : mid ≤ hi) :
    between key lo mid xs ++ between key mid hi xs = between key lo hi xs := by
  induction xs with
  | nil => rfl
  | cons x xs ih =>
    obtain ⟨hx, hxs⟩ := List.pairwise_cons.1 h
    unfold between at ih ⊢
    rcases lt_or_ge (key x) mid with hlt | hge
    · rw [List.filter_cons_of_neg (p := fun a => decide (mid ≤ key a ∧ key a < hi))
        (by simp only [decide_eq_true_eq]; omega)]
      rcases lt_or_ge (key x) lo with hbelow | hfrom
      · rw [List.filter_cons_of_neg (by simp only [decide_eq_true_eq]; omega),
          List.filter_cons_of_neg (by simp only [decide_eq_true_eq]; omega)]
        exact ih hxs
      · rw [List.filter_cons_of_pos (by simp only [decide_eq_true_eq]; omega),
          List.filter_cons_of_pos (by simp only [decide_eq_true_eq]; omega), List.cons_append, ih hxs]
    · -- nothing from here on lies below `mid`
      have hnone : (x :: xs).filter (fun a => decide (lo ≤ key a ∧ key a < mid)) = [] := by
        rw [List.filter_eq_nil_iff]
        intro a ha
        have hle : key x ≤ key a := by
          rcases List.mem_cons.1 ha with rfl | ha
          · exact le_rfl
          · exact hx a ha
        simp only [decide_eq_true_eq]
        omega
      rw [hnone, List.nil_append]
      refine List.filter_congr fun a ha => ?_
      have hle : key x ≤ key a := by
        rcases List.mem_cons.1 ha with rfl | ha
        · exact le_rfl
        · exact hx a ha
      simp only [decide_eq_decide]
      omega

/-- **A page is a range.** -/
theorem page_eq_between {gap : ℤ} {xs : List α} (h : Spaced key gap xs) (hgap : 0 < gap) {cursor : ℤ}
    {k : ℕ} {last : α} (hlast : (pageFrom key cursor k xs).getLast? = some last) :
    pageFrom key cursor k xs = between key cursor (key last + gap) xs := by
  unfold pageFrom at hlast ⊢
  unfold between
  induction xs generalizing k with
  | nil => simp
  | cons x xs ih =>
    obtain ⟨hx, hxs⟩ := List.pairwise_cons.1 h
    rcases lt_or_ge (key x) cursor with hbelow | hfrom
    · rw [List.filter_cons_of_neg (by simp only [decide_eq_true_eq]; omega)] at hlast ⊢
      rw [List.filter_cons_of_neg (by simp only [decide_eq_true_eq]; omega)]
      exact ih hxs hlast
    · rw [List.filter_cons_of_pos (by simpa using hfrom)] at hlast ⊢
      cases k with
      | zero => cases hlast
      | succ k =>
        rw [List.take_succ_cons] at hlast ⊢
        rw [List.getLast?_cons] at hlast
        cases hrest : ((xs.filter fun a => decide (cursor ≤ key a)).take k).getLast? with
        | none =>
          rw [hrest, Option.getD_none] at hlast
          rw [← Option.some.inj hlast]
          have hnil := List.getLast?_eq_none_iff.1 hrest
          have hnone : xs.filter (fun a => decide (cursor ≤ key a ∧ key a < key x + gap)) = [] := by
            rw [List.filter_eq_nil_iff]
            intro a ha
            have := hx a ha
            simp only [decide_eq_true_eq]
            omega
          rw [hnil, List.filter_cons_of_pos (by simp only [decide_eq_true_eq]; omega), hnone]
        | some l =>
          rw [hrest, Option.getD_some, Option.some.injEq] at hlast
          rw [hlast] at hrest
          have hmem : last ∈ xs :=
            List.mem_of_mem_filter (List.mem_of_mem_take (List.mem_of_getLast? hrest))
          have := hx last hmem
          rw [ih hxs hrest, List.filter_cons_of_pos (by simp only [decide_eq_true_eq]; omega)]

/-- The greatest key of a list in order is that of its last element. -/
theorem foldl_max_key {xs : List α} {x : α} (h : (x :: xs).Pairwise fun a b => key a ≤ key b) {last : α}
    (hlast : (x :: xs).getLast? = some last) : xs.foldl (fun m a => max m (key a)) (key x) = key last := by
  induction xs generalizing x with
  | nil =>
    cases hlast
    rfl
  | cons y xs ih =>
    obtain ⟨hx, hrest⟩ := List.pairwise_cons.1 h
    rw [List.foldl_cons, max_eq_right (hx y List.mem_cons_self)]
    rw [List.getLast?_cons_cons] at hlast
    exact ih hrest hlast

end

/-! ## Outputs that only grow -/

section
variable {α β σ : Type}

/-- **A fold whose steps only append to an output only appends to it.** -/
theorem prefix_foldl {f : σ → α → σ} (out : σ → List β) (h : ∀ s x, out s <+: out (f s x))
    (xs : List α) (s : σ) : out s <+: out (xs.foldl f s) := by
  induction xs generalizing s with
  | nil => exact List.prefix_refl _
  | cons x xs ih =>
    rw [List.foldl_cons]
    exact (h s x).trans (ih (f s x))

theorem prefix_zip {xs xs' : List α} {ys ys' : List β} (hx : xs <+: xs') (hy : ys <+: ys') :
    xs.zip ys <+: xs'.zip ys' := by
  induction xs generalizing xs' ys ys' with
  | nil => simp
  | cons x xs ih =>
    obtain ⟨xt, rfl⟩ := hx
    obtain ⟨yt, rfl⟩ := hy
    cases ys with
    | nil => simp
    | cons y ys =>
      simp only [List.cons_append, List.zip_cons_cons, List.cons_prefix_cons, true_and]
      exact ih (List.prefix_append _ _) (List.prefix_append _ _)

theorem prefix_drop {xs ys : List α} (h : xs <+: ys) (n : Nat) : xs.drop n <+: ys.drop n := by
  obtain ⟨t, rfl⟩ := h
  rw [List.drop_append]
  exact List.prefix_append _ _

end

end Matrades.Base

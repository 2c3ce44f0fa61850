import Mathlib.Data.List.Basic
import Mathlib.Data.List.Count
import Mathlib.Data.List.Pairwise
import Mathlib.Data.List.TakeDrop
import Mathlib.Order.Lattice

/-!
# Series computed as they come

A function of a series is online if its n-th value depends on the first n inputs only: cutting the input cuts
the result (`Online`). What carries a state along is online (`trace_online`), what reads the inputs up to a
place (`eachPrefix_online`), and what applies an online function to each group of the inputs and puts the
values back in their places (`groupwise_online`).

A `Column` of a table that can be cut carries its cut as a field, so whatever is composed of columns is online.
A column may also read the whole table, as long as for a row it finds there only rows with a smaller key
(`filter_take_of_lt`).
-/

namespace Matrades.Base

section
variable {α β γ σ κ : Type}

structure Online (f : List α → List β) : Prop where
  length : ∀ xs, (f xs).length = xs.length
  take : ∀ xs n, f (xs.take n) = (f xs).take n

abbrev OnlineFunction (α β : Type) := {f : List α → List β // Online f}

namespace Online

theorem map (g : α → β) : Online (List.map g) where
  length _ := List.length_map _
  take _ _ := List.map_take

theorem comp {g : List β → List γ} {f : List α → List β} (hg : Online g) (hf : Online f) :
    Online fun xs => g (f xs) where
  length xs := (hg.length _).trans (hf.length xs)
  take xs n := by rw [hf.take, hg.take]

end Online

/-! ## Carrying a state -/

/-- The outputs of a machine that reads the series. -/
def trace (step : σ → α → σ × β) : σ → List α → List β
  | _, [] => []
  | s, x :: xs => (step s x).2 :: trace step (step s x).1 xs

theorem trace_online (step : σ → α → σ × β) (s : σ) : Online (trace step s) where
  length xs := by
    induction xs generalizing s with
    | nil => rfl
    | cons x xs ih => exact congrArg (· + 1) (ih _)
  take xs n := by
    induction xs generalizing s n with
    | nil => cases n <;> rfl
    | cons x xs ih =>
      cases n with
      | zero => rfl
      | succ n => exact congrArg ((step s x).2 :: ·) (ih _ n)

/-- The series `n` places later. -/
def shift (missing : α) (n : ℕ) (xs : List α) : List α :=
  (List.replicate n missing ++ xs).take xs.length

theorem shift_online (missing : α) (n : ℕ) : Online (shift missing n) where
  length xs := by
    unfold shift
    rw [List.length_take, List.length_append]
    omega
  take xs m := by
    unfold shift
    rw [List.length_take, List.take_take]
    rcases le_total m xs.length with h | h
    · rw [Nat.min_eq_left h, List.take_append, List.take_append, List.take_take]
      rw [Nat.min_eq_left (by omega)]
    · rw [Nat.min_eq_right h, List.take_of_length_le h]

theorem getElem?_shift {missing : α} {n i : ℕ} {xs : List α} (h : i < xs.length) :
    (shift missing n xs)[i]? = if i < n then some missing else xs[i - n]? := by
  unfold shift
  rw [List.getElem?_take_of_lt h]
  split
  next hlt =>
    rw [List.getElem?_append_left (by rwa [List.length_replicate]), List.getElem?_replicate, if_pos hlt]
  next hge =>
    rw [List.getElem?_append_right (by rw [List.length_replicate]; omega), List.length_replicate]

/-! ## Reading what has come -/

def eachPrefix (g : List α → β) (xs : List α) : List β :=
  (List.range xs.length).map fun i => g (xs.take (i + 1))

theorem eachPrefix_online (g : List α → β) : Online (eachPrefix g) where
  length xs := by
    unfold eachPrefix
    rw [List.length_map, List.length_range]
  take xs n := by
    unfold eachPrefix
    rw [← List.map_take, List.take_range, List.length_take]
    apply List.map_congr_left
    intro i hi
    rw [List.mem_range] at hi
    rw [List.take_take, Nat.min_eq_left (by omega)]

theorem getElem?_eachPrefix {g : List α → β} {xs : List α} {i : ℕ} (h : i < xs.length) :
    (eachPrefix g xs)[i]? = some (g (xs.take (i + 1))) := by
  unfold eachPrefix
  rw [List.getElem?_map, List.getElem?_range h]
  rfl

/-- The last `n` of a list. -/
def lastly (n : ℕ) (xs : List α) : List α := xs.drop (xs.length - n)

/-! ## Groups -/

section
variable [DecidableEq κ]

def group (k : κ) (xs : List (κ × α)) : List α := (xs.filter fun x => x.1 = k).map Prod.snd

/-- Each group through `f`, the values in the places of the group. -/
def groupwise (f : List α → List β) (missing : β) (xs : List (κ × α)) : List β :=
  xs.mapIdx fun i x => (f (group x.1 xs)).getD ((xs.take i).countP fun y => y.1 = x.1) missing

theorem filter_take (p : α → Bool) (xs : List α) (n : ℕ) :
    (xs.take n).filter p = (xs.filter p).take ((xs.take n).countP p) := by
  have hsplit : xs.filter p = (xs.take n).filter p ++ (xs.drop n).filter p := by
    rw [← List.filter_append, List.take_append_drop]
  rw [hsplit, List.countP_eq_length_filter, List.take_left]

theorem groupwise_online {f : List α → List β} (hf : Online f) (missing : β) :
    Online (groupwise (κ := κ) f missing) where
  length _ := List.length_mapIdx
  take xs n := by
    unfold groupwise
    refine List.ext_getElem (by simp) fun i hi hi' => ?_
    rw [List.length_mapIdx, List.length_take] at hi
    have hbound : i < xs.length := by omega
    rw [List.getElem_take, List.getElem_mapIdx, List.getElem_mapIdx, List.getElem_take, List.take_take,
      Nat.min_eq_left (by omega)]
    set k := xs[i].1 with hk
    have hgroup : group k (xs.take n) = (group k xs).take ((xs.take n).countP fun y => y.1 = k) := by
      unfold group
      rw [filter_take, List.map_take]
    -- the row itself is one of its group
    have hmore : ((xs.take i).countP fun y => y.1 = k) < (xs.take n).countP fun y => y.1 = k := by
      have hnext : ((xs.take (i + 1)).countP fun y => y.1 = k) = ((xs.take i).countP fun y => y.1 = k) + 1 := by
        rw [List.take_succ_eq_append_getElem (by omega), List.countP_append, List.countP_singleton,
          if_pos (by simp [hk])]
      have hprefix : xs.take (i + 1) <+: xs.take n := List.take_prefix_take_left (by omega)
      have hle : ((xs.take (i + 1)).countP fun y => y.1 = k) ≤ (xs.take n).countP fun y => y.1 = k :=
        hprefix.sublist.countP_le
      omega
    rw [hgroup, hf.take, List.getD_eq_getElem?_getD, List.getD_eq_getElem?_getD,
      List.getElem?_take_of_lt hmore]

end

end

/-! ## Columns of a table -/

/-- Tables with a number of rows, which can be cut. -/
class Rows (ι : Type) where
  size : ι → ℕ
  cut : ℕ → ι → ι

/-- A value for each row of a table; the values of the first rows do not depend on the others. -/
structure Column (ι β : Type) [Rows ι] where
  values : ι → List β
  length_values : ∀ x, (values x).length = Rows.size x
  values_cut : ∀ n x, values (Rows.cut n x) = (values x).take n

namespace Column

variable {ι α β γ κ : Type} [Rows ι]

theorem length_through {f : List α → List β} (hf : Online f) (a : Column ι α) (x : ι) :
    (f (a.values x)).length = Rows.size x := (hf.length _).trans (a.length_values x)

theorem through_cut {f : List α → List β} (hf : Online f) (a : Column ι α) (n : ℕ) (x : ι) :
    f (a.values (Rows.cut n x)) = (f (a.values x)).take n := by rw [a.values_cut, hf.take]

/-- The column through an online function. -/
def through (f : List α → List β) (hf : Online f) (a : Column ι α) : Column ι β where
  values x := f (a.values x)
  length_values := length_through hf a
  values_cut := through_cut hf a

def map (g : α → β) (a : Column ι α) : Column ι β := a.through (List.map g) (Online.map g)

theorem length_zipWith (g : α → β → γ) (a : Column ι α) (b : Column ι β) (x : ι) :
    (List.zipWith g (a.values x) (b.values x)).length = Rows.size x := by
  rw [List.length_zipWith, a.length_values, b.length_values, Nat.min_self]

theorem zipWith_cut (g : α → β → γ) (a : Column ι α) (b : Column ι β) (n : ℕ) (x : ι) :
    List.zipWith g (a.values (Rows.cut n x)) (b.values (Rows.cut n x)) =
      (List.zipWith g (a.values x) (b.values x)).take n := by
  rw [a.values_cut, b.values_cut, List.take_zipWith]

/-- Two columns, row by row. -/
def zipWith (g : α → β → γ) (a : Column ι α) (b : Column ι β) : Column ι γ where
  values x := List.zipWith g (a.values x) (b.values x)
  length_values := length_zipWith g a b
  values_cut := zipWith_cut g a b

/-- An online function on each group of the rows. -/
def groupBy [DecidableEq κ] (a : Column ι α) (keys : Column ι κ) (f : List α → List β) (hf : Online f)
    (missing : β) : Column ι β :=
  (keys.zipWith Prod.mk a).through (groupwise f missing) (groupwise_online hf missing)

@[simp] theorem values_through (f : List α → List β) (hf : Online f) (a : Column ι α) (x : ι) :
    (a.through f hf).values x = f (a.values x) := rfl

@[simp] theorem values_map (g : α → β) (a : Column ι α) (x : ι) :
    (a.map g).values x = (a.values x).map g := rfl

@[simp] theorem values_zipWith (g : α → β → γ) (a : Column ι α) (b : Column ι β) (x : ι) :
    (a.zipWith g b).values x = List.zipWith g (a.values x) (b.values x) := rfl

end Column

/-! ## Rows in the order of a key -/

section
variable {α β : Type} [LinearOrder β] {key : α → β}

/-- In a list in order, what is looked for before one of the first rows is found among the first. -/
theorem filter_take_of_lt {xs : List α} (h : xs.Pairwise fun a b => key a ≤ key b) {n : ℕ} {a : α}
    (ha : a ∈ xs.take n) {p : α → Bool} (hp : ∀ b, p b = true → key b < key a) :
    (xs.take n).filter p = xs.filter p := by
  have hsplit : xs.filter p = (xs.take n).filter p ++ (xs.drop n).filter p := by
    rw [← List.filter_append, List.take_append_drop]
  have hlate : (xs.drop n).filter p = [] := by
    refine List.filter_eq_nil_iff.2 fun b hb hpb => ?_
    rw [← List.take_append_drop n xs] at h
    exact absurd ((List.pairwise_append.1 h).2.2 a ha b hb) (not_le.2 (hp b hpb))
  rw [hsplit, hlate, List.append_nil]

/-- In a list in order, the rows up to a bound are the first ones. -/
theorem filter_le_eq_take {xs : List α} (h : xs.Pairwise fun a b => key a ≤ key b) (t : β) :
    (xs.filter fun a => key a ≤ t) = xs.take (xs.countP fun a => key a ≤ t) := by
  induction xs with
  | nil => rfl
  | cons x xs ih =>
    obtain ⟨hx, hxs⟩ := List.pairwise_cons.1 h
    by_cases hle : key x ≤ t
    · rw [List.filter_cons_of_pos (by simpa using hle), List.countP_cons_of_pos (by simpa using hle), ih hxs,
        List.take_succ_cons]
    · have hnone : (xs.countP fun a => key a ≤ t) = 0 := by
        refine List.countP_eq_zero.2 fun b hb hb' => hle ?_
        exact (hx b hb).trans (by simpa using hb')
      rw [List.filter_cons_of_neg (by simpa using hle), List.countP_cons_of_neg (by simpa using hle), ih hxs,
        hnone]
      rfl

end

end Matrades.Base

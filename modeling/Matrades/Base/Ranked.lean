import Mathlib.Algebra.BigOperators.Group.Finset.Basic
import Mathlib.Algebra.Group.Action.Defs
import Mathlib.Algebra.Order.BigOperators.Group.Finset
import Mathlib.Data.Finset.Card
import Mathlib.Data.List.Sort
import Mathlib.Tactic.Ring

/-!
# Lists in the order of a key

`ranked key l` is the stable sort of `l` by `key`; `least key l` is what stands first, so the first
element of the least key. Where equal keys mean equal elements, neither depends on the order of the list
(`ranked_perm`), and dropping other elements keeps what is least (`least_of_subset`).

`newestFirst` sorts by decreasing time, elements of one time in the order of the list. What stands first
once an element is added at the end is that element if it is newer than all before, and else what stood
first (`head?_newestFirst_append`).
-/

namespace Matrades.Base

/-! ## Lists ranked by a key -/

section
variable {α κ : Type} [LinearOrder κ] (key : α → κ)

/-- The elements by their keys, elements of one key in the order of the list. -/
def ranked (l : List α) : List α := l.insertionSort fun a b => key a ≤ key b

/-- The first element of the least key. -/
def least (l : List α) : Option α := (ranked key l).head?

theorem mem_ranked {l : List α} {a : α} : a ∈ ranked key l ↔ a ∈ l := List.mem_insertionSort _

theorem ranked_permutes (l : List α) : (ranked key l).Perm l := List.perm_insertionSort _ l

theorem ranked_sorted (l : List α) : (ranked key l).Pairwise fun a b => key a ≤ key b := by
  have : Std.Total fun a b : α => key a ≤ key b := ⟨fun a b => le_total _ _⟩
  have : IsTrans α fun a b => key a ≤ key b := ⟨fun _ _ _ => le_trans⟩
  exact List.pairwise_insertionSort _ _

variable {key}

/-- Two sorted arrangements of one list agree when equal keys mean equal elements. -/
theorem eq_of_sorted {l l' : List α} (hperm : l.Perm l')
    (hinj : ∀ a ∈ l, ∀ b ∈ l, key a = key b → a = b) (hl : l.Pairwise fun a b => key a ≤ key b)
    (hl' : l'.Pairwise fun a b => key a ≤ key b) : l = l' :=
  hperm.eq_of_pairwise
    (fun a b ha hb hab hba => hinj a ha b (hperm.mem_iff.2 hb) (le_antisymm hab hba)) hl hl'

theorem ranked_perm {l l' : List α} (hperm : l.Perm l')
    (hinj : ∀ a ∈ l, ∀ b ∈ l, key a = key b → a = b) : ranked key l = ranked key l' := by
  refine eq_of_sorted ?_ ?_ (ranked_sorted key l) (ranked_sorted key l')
  · exact ((ranked_permutes key l).trans hperm).trans (ranked_permutes key l').symm
  · intro a ha b hb
    exact hinj a ((mem_ranked key).1 ha) b ((mem_ranked key).1 hb)

/-- Elements of one key stay in the order of the list. -/
theorem filter_ranked (k : κ) (l : List α) :
    (ranked key l).filter (fun a => key a = k) = l.filter fun a => key a = k := by
  have : Std.Total fun a b : α => key a ≤ key b := ⟨fun a b => le_total _ _⟩
  have : IsTrans α fun a b => key a ≤ key b := ⟨fun _ _ _ => le_trans⟩
  have hsame : (l.filter fun a => key a = k).Pairwise fun a b => key a ≤ key b :=
    List.pairwise_of_forall_mem_list fun a ha b hb => by
      rw [of_decide_eq_true (List.mem_filter.1 ha).2, of_decide_eq_true (List.mem_filter.1 hb).2]
  have hsub : (l.filter fun a => key a = k).Sublist (ranked key l) :=
    List.sublist_insertionSort hsame List.filter_sublist
  have hkept := hsub.filter fun a => key a = k
  rw [List.filter_filter] at hkept
  simp only [Bool.and_self] at hkept
  exact (hkept.eq_of_length ((ranked_permutes key l).filter _).length_eq.symm).symm

/-! ## What is least -/

theorem least_mem {l : List α} {a : α} (h : least key l = some a) : a ∈ l :=
  (mem_ranked key).1 (List.mem_of_mem_head? (Option.mem_def.2 h))

theorem least_le {l : List α} {a b : α} (h : least key l = some a) (hb : b ∈ l) : key a ≤ key b := by
  have hsorted := ranked_sorted key l
  have hb' : b ∈ ranked key l := (mem_ranked key).2 hb
  unfold least at h
  cases hr : ranked key l with
  | nil =>
    rw [hr] at hb'
    cases hb'
  | cons c rest =>
    rw [hr] at h hb' hsorted
    cases h
    rcases List.mem_cons.1 hb' with rfl | hrest
    · exact le_rfl
    · exact (List.pairwise_cons.1 hsorted).1 b hrest

theorem least_eq_none {l : List α} : least key l = none ↔ l = [] := by
  unfold least
  rw [List.head?_eq_none_iff]
  constructor
  · intro h
    exact List.eq_nil_iff_forall_not_mem.2 fun a ha => by
      have hmem := (mem_ranked key).2 ha
      rw [h] at hmem
      cases hmem
  · rintro rfl
    rfl

theorem exists_least {l : List α} {a : α} (h : a ∈ l) : ∃ b, least key l = some b := by
  apply Option.ne_none_iff_exists'.1
  intro hnone
  rw [least_eq_none.1 hnone] at h
  cases h

/-- The least of fewer elements, if it is among them. -/
theorem least_of_subset {l l' : List α} {a : α} (hsub : ∀ b ∈ l', b ∈ l) (ha : least key l = some a)
    (hmem : a ∈ l') (hinj : ∀ b ∈ l, key a = key b → a = b) : least key l' = some a := by
  obtain ⟨b, hb⟩ : ∃ b, least key l' = some b := exists_least hmem
  have hle : key a ≤ key b := least_le ha (hsub b (least_mem hb))
  have hge : key b ≤ key a := least_le hb hmem
  rw [hb, hinj b (hsub b (least_mem hb)) (le_antisymm hle hge)]

end

/-! ## The newest of a list -/

section
variable {α : Type} (time : α → ℕ)

def newestFirst (l : List α) : List α := l.insertionSort fun a b => time b ≤ time a

theorem mem_newestFirst {l : List α} {a : α} : a ∈ newestFirst time l ↔ a ∈ l :=
  List.mem_insertionSort _

theorem filter_orderedInsert (p : α → Bool) (a : α) (l : List α)
    (h : l.Pairwise fun a b => time b ≤ time a) :
    (l.orderedInsert (fun a b => time b ≤ time a) a).filter p =
      if p a then (l.filter p).orderedInsert (fun a b => time b ≤ time a) a else l.filter p := by
  induction l with
  | nil =>
    cases hp : p a <;> simp [hp]
  | cons b l ih =>
    obtain ⟨hb, hl⟩ := List.pairwise_cons.1 h
    rw [List.orderedInsert_cons]
    by_cases hba : time b ≤ time a
    · rw [if_pos hba, List.filter_cons]
      cases hp : p a with
      | false => simp
      | true =>
        -- what is kept behind `a` is no newer than it
        have hle : ∀ c ∈ (b :: l).filter p, time c ≤ time a := fun c hc => by
          rcases List.mem_cons.1 (List.mem_of_mem_filter hc) with rfl | hc
          · exact hba
          · exact le_trans (hb c hc) hba
        simp only [if_true]
        cases hkept : (b :: l).filter p with
        | nil => rfl
        | cons c rest => rw [List.orderedInsert_cons, if_pos (hle c (hkept ▸ List.mem_cons_self))]
    · rw [if_neg hba]
      cases hp : p b with
      | false => simpa [List.filter_cons, hp] using ih hl
      | true =>
        rw [List.filter_cons, if_pos hp, ih hl, List.filter_cons, if_pos hp]
        cases hpa : p a with
        | false => rfl
        | true => simp [List.orderedInsert_cons, hba]

/-- The kept elements, newest first. -/
theorem filter_newestFirst (p : α → Bool) (l : List α) :
    (newestFirst time l).filter p = newestFirst time (l.filter p) := by
  induction l with
  | nil => rfl
  | cons a l ih =>
    have hsorted : (newestFirst time l).Pairwise fun a b => time b ≤ time a :=
      List.pairwise_insertionSort _ _
    show ((newestFirst time l).orderedInsert _ a).filter p = _
    rw [filter_orderedInsert time p a _ hsorted, ih]
    cases hp : p a with
    | false => simp [hp]
    | true =>
      rw [List.filter_cons, if_pos hp]
      rfl

theorem head?_newestFirst_cons (a : α) (l : List α) : (newestFirst time (a :: l)).head? =
    some ((newestFirst time l).head?.elim a fun b => if time b ≤ time a then a else b) := by
  show ((newestFirst time l).orderedInsert _ a).head? = _
  cases newestFirst time l with
  | nil => rfl
  | cons b rest =>
    rw [List.orderedInsert_cons]
    by_cases h : time b ≤ time a <;> simp [h]

/-- **What stands first after an addition.** -/
theorem head?_newestFirst_append (l : List α) (a : α) : (newestFirst time (l ++ [a])).head? =
    some ((newestFirst time l).head?.elim a fun b => if time b < time a then a else b) := by
  induction l with
  | nil => rfl
  | cons c l ih =>
    rw [List.cons_append, head?_newestFirst_cons, head?_newestFirst_cons, ih]
    simp only [Option.elim_some]
    cases (newestFirst time l).head? with
    | none =>
      show some (if time a ≤ time c then c else a) = some (if time c < time a then a else c)
      by_cases h : time a ≤ time c
      · rw [if_pos h, if_neg (by omega)]
      · rw [if_neg h, if_pos (by omega)]
    | some b =>
      simp only [Option.elim_some]
      split_ifs <;> first | rfl | omega

end

end Matrades.Base

/-!
## Rotation by least use

A history records what was chosen from a list of choices. If every choice is one of the least used
(`Balanced.append`), no choice is ever used twice as often beyond one more than another (`Balanced`), so
each is used the floor or the ceiling of its share (`Balanced.share`).
-/

namespace Matrades.Base

variable {α : Type} [DecidableEq α] {choices history : List α}

/-- The uses of two choices differ by one at most. -/
def Balanced (choices history : List α) : Prop :=
  ∀ a ∈ choices, ∀ b ∈ choices, history.count a ≤ history.count b + 1

theorem Balanced.nil : Balanced choices [] := by
  intro a _ b _
  simp

/-- Using one of the least used choices keeps the balance. -/
theorem Balanced.append (h : Balanced choices history) {c : α}
    (hleast : ∀ b ∈ choices, history.count c ≤ history.count b) : Balanced choices (history ++ [c]) := by
  intro a ha b hb
  rw [List.count_append, List.count_append, List.count_singleton, List.count_singleton]
  have hab := h a ha b hb
  by_cases hac : c = a
  · subst hac
    have hcb := hleast b hb
    simp only [beq_self_eq_true, if_true]
    omega
  · have hne : (c == a) = false := by simpa using hac
    rw [hne]
    simp only [Bool.false_eq_true, if_false]
    omega

/-- The uses of all choices are the whole history. -/
theorem sum_count (hmem : ∀ a ∈ history, a ∈ choices) :
    ∑ a ∈ choices.toFinset, history.count a = history.length := by
  have hcount := Multiset.sum_count_eq_card (s := choices.toFinset) (m := (history : Multiset α))
    fun a ha => List.mem_toFinset.2 (hmem a ha)
  simpa using hcount

/-- `m` is the floor or the ceiling of `n / k`. -/
def Share (m n k : ℕ) : Prop := m = n / k ∨ m = (n + k - 1) / k

theorem share_of_bounds {m n k : ℕ} (hk : 0 < k) (hlow : m * k ≤ n + k - 1) (hhigh : n < (m + 1) * k) :
    Share m n k := by
  have hle : n / k ≤ m := Nat.lt_succ_iff.1 ((Nat.div_lt_iff_lt_mul hk).2 hhigh)
  have hge : m ≤ (n + k - 1) / k := (Nat.le_div_iff_mul_le hk).2 hlow
  have hceil : (n + k - 1) / k ≤ n / k + 1 := by
    rw [← Nat.add_div_right n hk]
    exact Nat.div_le_div_right (by omega)
  unfold Share
  omega

/-- **The share of a choice.** -/
theorem Balanced.share (h : Balanced choices history) (hnodup : choices.Nodup)
    (hmem : ∀ a ∈ history, a ∈ choices) {a : α} (ha : a ∈ choices) :
    Share (history.count a) history.length choices.length := by
  have hin : a ∈ choices.toFinset := List.mem_toFinset.2 ha
  have hcard : choices.toFinset.card = choices.length := List.toFinset_card_of_nodup hnodup
  have herase : (choices.toFinset.erase a).card = choices.length - 1 := by
    rw [Finset.card_erase_of_mem hin, hcard]
  have hpos : 0 < choices.length := List.length_pos_of_mem ha
  have hsum : history.count a + ∑ b ∈ choices.toFinset.erase a, history.count b = history.length := by
    rw [← sum_count hmem]
    exact Finset.add_sum_erase _ (fun b => history.count b) hin
  have hothers : ∀ b ∈ choices.toFinset.erase a, b ∈ choices :=
    fun b hb => List.mem_toFinset.1 (Finset.mem_of_mem_erase hb)
  have hupper := Finset.sum_le_card_nsmul (choices.toFinset.erase a) (fun b => history.count b)
    (history.count a + 1) fun b hb => h b (hothers b hb) a ha
  have hlower := Finset.card_nsmul_le_sum (choices.toFinset.erase a) (fun b => history.count b)
    (history.count a - 1) fun b hb => by
      have := h a ha b (hothers b hb)
      omega
  rw [herase, smul_eq_mul] at hupper hlower
  generalize history.count a = m at *
  obtain ⟨k, hk⟩ : ∃ k, choices.length = k + 1 := ⟨choices.length - 1, by omega⟩
  rw [hk] at hupper hlower ⊢
  simp only [Nat.add_sub_cancel] at hupper hlower
  apply share_of_bounds (Nat.succ_pos k)
  · show m * (k + 1) ≤ history.length + (k + 1) - 1
    cases m with
    | zero => omega
    | succ m =>
      simp only [Nat.add_sub_cancel] at hlower
      have hexpand : (m + 1) * (k + 1) = k * m + k + m + 1 := by ring
      omega
  · show history.length < (m + 1) * (k + 1)
    have hexpand : (m + 1) * (k + 1) = k * (m + 1) + m + 1 := by ring
    omega

end Matrades.Base

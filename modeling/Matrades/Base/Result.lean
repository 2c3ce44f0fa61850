import Mathlib.Data.List.Forall2

/-!
# Computations that may raise

Inversion of `Except` computations: a successful `bind` is two successful parts, a successful
`mapM` succeeds at every element.
-/

namespace Matrades.Base

variable {ε α β : Type}

theorem ok_of_bind {t : Except ε α} {f : α → Except ε β} {b : β} (h : (t >>= f) = .ok b) :
    ∃ a, t = .ok a ∧ f a = .ok b := by
  cases t with
  | error e => cases h
  | ok a => exact ⟨a, rfl, h⟩

/-- A check that did not raise did not apply. -/
theorem ok_of_guard {c : Prop} [Decidable c] {e : ε} {t : Except ε α} {a : α}
    (h : (if c then .error e else t) = .ok a) : ¬c ∧ t = .ok a := by
  by_cases hc : c
  · rw [if_pos hc] at h
    cases h
  · rw [if_neg hc] at h
    exact ⟨hc, h⟩

/-- The value, or the error. -/
def orError (o : Option α) (e : ε) : Except ε α :=
  match o with
  | some a => .ok a
  | none => .error e

theorem orError_eq_ok {o : Option α} {e : ε} {a : α} : orError o e = .ok a ↔ o = some a := by
  cases o <;> simp [orError]

theorem toOption_eq_some {t : Except ε α} {a : α} : t.toOption = some a ↔ t = .ok a := by
  cases t <;> simp [Except.toOption]

theorem bind_ok_eq {t : Except ε α} {a : α} (h : t = .ok a) (f : α → Except ε β) :
    (t >>= f) = f a := by
  subst h
  rfl

theorem bind_error_eq {t : Except ε α} {e : ε} (h : t = .error e) (f : α → Except ε β) :
    (t >>= f) = .error e := by
  subst h
  rfl

/-- The computation does not raise. -/
def Returns (t : Except ε α) : Prop := ∃ a, t = .ok a

theorem returns_ok (a : α) : Returns (.ok a : Except ε α) := ⟨a, rfl⟩

theorem not_returns_error (e : ε) : ¬Returns (.error e : Except ε α) := by
  rintro ⟨a, h⟩
  cases h

/-- The error of a computation that raises. -/
def errorOf : Except ε α → Option ε
  | .error e => some e
  | .ok _ => none

theorem not_returns_of_errorOf {t : Except ε α} {e : ε} (h : errorOf t = some e) : ¬Returns t := by
  rintro ⟨a, rfl⟩
  cases h

theorem returns_bind {t : Except ε α} {f : α → Except ε β} :
    Returns (t >>= f) ↔ ∃ a, t = .ok a ∧ Returns (f a) := by
  constructor
  · rintro ⟨b, h⟩
    obtain ⟨a, ha, hb⟩ := ok_of_bind h
    exact ⟨a, ha, b, hb⟩
  · rintro ⟨a, ha, b, hb⟩
    exact ⟨b, (bind_ok_eq ha f).trans hb⟩

theorem ok_of_mapM {f : α → Except ε β} {xs : List α} {ys : List β} (h : xs.mapM f = .ok ys) :
    List.Forall₂ (fun x y => f x = .ok y) xs ys := by
  induction xs generalizing ys with
  | nil =>
    cases h
    exact .nil
  | cons x xs ih =>
    rw [List.mapM_cons] at h
    obtain ⟨y, hy, h⟩ := ok_of_bind h
    obtain ⟨zs, hzs, h⟩ := ok_of_bind h
    cases h
    exact .cons hy (ih hzs)

/-- A loop of checks returns when each of them does. -/
theorem forM_eq_ok {f : α → Except ε Unit} {xs : List α} :
    xs.forM f = .ok () ↔ ∀ x ∈ xs, f x = .ok () := by
  induction xs with
  | nil => exact iff_of_true rfl fun x hx => by cases hx
  | cons x xs ih =>
    rw [List.forall_mem_cons, ← ih]
    show (f x >>= fun _ => xs.forM f) = .ok () ↔ _
    constructor
    · intro h
      obtain ⟨u, hu, hrest⟩ := ok_of_bind h
      exact ⟨hu, hrest⟩
    · rintro ⟨hx, hrest⟩
      rw [bind_ok_eq hx]
      exact hrest

/-- Every result of a successful `mapM` comes from an element. -/
theorem ok_mem_of_mapM {f : α → Except ε β} {xs : List α} {ys : List β} (h : xs.mapM f = .ok ys)
    {y : β} (hy : y ∈ ys) : ∃ x ∈ xs, f x = .ok y := by
  have hall := ok_of_mapM h
  clear h
  induction hall with
  | nil => cases hy
  | cons hx _ ih =>
    rcases List.mem_cons.1 hy with rfl | hy
    · exact ⟨_, List.mem_cons_self, hx⟩
    · obtain ⟨x, hmem, hx⟩ := ih hy
      exact ⟨x, List.mem_cons_of_mem _ hmem, hx⟩

/-- Every element of a successful `mapM` has a result. -/
theorem ok_of_mem_mapM {f : α → Except ε β} {xs : List α} {ys : List β} (h : xs.mapM f = .ok ys)
    {x : α} (hx : x ∈ xs) : ∃ y ∈ ys, f x = .ok y := by
  have hall := ok_of_mapM h
  clear h
  induction hall with
  | nil => cases hx
  | cons hy _ ih =>
    rcases List.mem_cons.1 hx with rfl | hx
    · exact ⟨_, List.mem_cons_self, hy⟩
    · obtain ⟨y, hmem, hy⟩ := ih hx
      exact ⟨y, List.mem_cons_of_mem _ hmem, hy⟩

/-- `mapM` succeeds where each element does, and keeps what holds of every result. -/
theorem exists_mapM_ok {f : α → Except ε β} {P : β → Prop} {xs : List α}
    (h : ∀ x ∈ xs, ∃ y, f x = .ok y ∧ P y) : ∃ ys, xs.mapM f = .ok ys ∧ ∀ y ∈ ys, P y := by
  induction xs with
  | nil => exact ⟨[], rfl, by simp⟩
  | cons x xs ih =>
    obtain ⟨y, hy, hp⟩ := h x List.mem_cons_self
    obtain ⟨ys, hys, hps⟩ := ih fun x' h' => h x' (List.mem_cons_of_mem _ h')
    refine ⟨y :: ys, ?_, List.forall_mem_cons.2 ⟨hp, hps⟩⟩
    rw [List.mapM_cons, bind_ok_eq hy, bind_ok_eq hys]
    rfl

/-- The results of a permuted list are permuted. -/
theorem ok_mapM_perm {f : α → Except ε β} {xs xs' : List α} (h : xs.Perm xs') {ys : List β}
    (hys : xs.mapM f = .ok ys) : ∃ ys', xs'.mapM f = .ok ys' ∧ ys.Perm ys' := by
  induction h generalizing ys with
  | nil => exact ⟨ys, hys, .refl _⟩
  | cons x _ ih =>
    rw [List.mapM_cons] at hys
    obtain ⟨y, hy, hys⟩ := ok_of_bind hys
    obtain ⟨zs, hzs, hys⟩ := ok_of_bind hys
    cases hys
    obtain ⟨zs', hzs', hperm⟩ := ih hzs
    refine ⟨y :: zs', ?_, hperm.cons y⟩
    rw [List.mapM_cons, bind_ok_eq hy, bind_ok_eq hzs']
    rfl
  | swap x x' xs =>
    rw [List.mapM_cons] at hys
    obtain ⟨y, hy, hys⟩ := ok_of_bind hys
    obtain ⟨zs, hzs, hys⟩ := ok_of_bind hys
    cases hys
    rw [List.mapM_cons] at hzs
    obtain ⟨y', hy', hzs⟩ := ok_of_bind hzs
    obtain ⟨zs, hzs', hzs⟩ := ok_of_bind hzs
    cases hzs
    refine ⟨y' :: y :: zs, ?_, .swap _ _ _⟩
    rw [List.mapM_cons, bind_ok_eq hy', List.mapM_cons, bind_ok_eq hy, bind_ok_eq hzs']
    rfl
  | trans _ _ ih ih' =>
    obtain ⟨ys', hys', hperm⟩ := ih hys
    obtain ⟨ys'', hys'', hperm'⟩ := ih' hys'
    exact ⟨ys'', hys'', hperm.trans hperm'⟩

theorem mapM_eq_ok {f : α → Except ε β} {g : α → β} {xs : List α}
    (h : ∀ x ∈ xs, f x = .ok (g x)) : xs.mapM f = .ok (xs.map g) := by
  induction xs with
  | nil => rfl
  | cons x xs ih =>
    rw [List.mapM_cons, bind_ok_eq (h x (by simp)), bind_ok_eq (ih fun y hy => h y (by simp [hy]))]
    rfl

end Matrades.Base

import Mathlib.Data.List.Nodup
import Mathlib.Logic.Function.Basic
import Matrades.Base.Run

/-!
# Inserting what is missing

Transactions `τ` of a table without a uniqueness constraint: each reads the committed rows, makes of
what its environment `ε` asks for and of the keys it has seen the rows that are missing, and commits
them. Two of them may read before either commits. The keys stay distinct in exactly those runs in
which a commit finds none of its keys in the table (`distinct_iff`), and what a transaction was asked
for is in the table once it has committed (`commit_covers`).
-/

namespace Matrades.Base

/-- How far a transaction is, with the rows it has seen and those it adds. -/
inductive InsertPhase (ε ρ : Type)
  | fresh
  | decided (env : ε) (seen new : List ρ)
  | ended

/-- The rows that the transaction's commit adds. -/
def InsertPhase.new {ε ρ : Type} : InsertPhase ε ρ → List ρ
  | .decided _ _ new => new
  | _ => []

structure InsertSystem (τ ε ρ : Type) where
  rows : List ρ
  phase : τ → InsertPhase ε ρ

namespace InsertSystem

inductive Label (τ ε : Type)
  | read (t : τ) (env : ε)
  | commit (t : τ)
  | abort (t : τ)

variable {τ ε ρ κ : Type}

def start (rows : List ρ) : InsertSystem τ ε ρ := ⟨rows, fun _ => .fresh⟩

variable [DecidableEq τ]

def enter (s : InsertSystem τ ε ρ) (t : τ) (p : InsertPhase ε ρ) : InsertSystem τ ε ρ :=
  { s with phase := Function.update s.phase t p }

/-- One step; `make` is `none` where the transaction raises. A step that is not the transaction's next
does nothing. -/
def step (make : ε → List ρ → Option (List ρ)) (s : InsertSystem τ ε ρ) :
    Label τ ε → InsertSystem τ ε ρ
  | .read t env =>
    match s.phase t with
    | .fresh =>
      match make env s.rows with
      | none => s.enter t .ended
      | some new => s.enter t (.decided env s.rows new)
    | _ => s
  | .commit t =>
    match s.phase t with
    | .decided _ _ new => { s.enter t .ended with rows := s.rows ++ new }
    | _ => s
  | .abort t => s.enter t .ended

/-- The keys of the rows that have one are distinct. -/
def Distinct (key : ρ → Option κ) (s : InsertSystem τ ε ρ) : Prop := (s.rows.filterMap key).Nodup

/-- **A commit finds none of its keys in the table.** -/
def Absent (key : ρ → Option κ) (s : InsertSystem τ ε ρ) : Label τ ε → Prop
  | .commit t => ∀ k ∈ (s.phase t).new.filterMap key, k ∉ s.rows.filterMap key
  | _ => True

instance {key : ρ → Option κ} [DecidableEq κ] (s : InsertSystem τ ε ρ) :
    ∀ l, Decidable (s.Absent key l)
  | .commit t =>
    inferInstanceAs (Decidable (∀ k ∈ (s.phase t).new.filterMap key, k ∉ s.rows.filterMap key))
  | .read .. | .abort _ => inferInstanceAs (Decidable True)

/-- The new rows have distinct keys. -/
def MakesDistinct (key : ρ → Option κ) (make : ε → List ρ → Option (List ρ)) : Prop :=
  ∀ env seen new, make env seen = some new → (new.filterMap key).Nodup

/-- What the environment asks for was seen or is new. -/
def MakesAsked (key : ρ → Option κ) (asked : ε → κ → Prop)
    (make : ε → List ρ → Option (List ρ)) : Prop :=
  ∀ env seen new, make env seen = some new → ∀ k, asked env k →
    k ∈ seen.filterMap key ∨ k ∈ new.filterMap key

/-- A commit leaves every key that was asked for in the table. -/
def Covers (key : ρ → Option κ) (asked : ε → κ → Prop) (make : ε → List ρ → Option (List ρ))
    (s : InsertSystem τ ε ρ) (l : Label τ ε) : Prop :=
  ∀ t, l = .commit t → ∀ env seen new, s.phase t = .decided env seen new →
    ∀ k, asked env k → k ∈ (s.step make l).rows.filterMap key

/-- Every transaction under way has seen rows of the table, and has made its rows of them. -/
def Sound (make : ε → List ρ → Option (List ρ)) (s : InsertSystem τ ε ρ) : Prop :=
  ∀ t env seen new, s.phase t = .decided env seen new →
    make env seen = some new ∧ seen ⊆ s.rows

section
variable {key : ρ → Option κ} {asked : ε → κ → Prop} {make : ε → List ρ → Option (List ρ)}
  {s : InsertSystem τ ε ρ}

omit [DecidableEq τ] in
theorem sound_start (rows : List ρ) : Sound make (start rows : InsertSystem τ ε ρ) := by
  intro t env seen new h
  cases h

/-- A transaction that moves on, with at least the rows that were there. -/
theorem Sound.enter (h : Sound make s) {s' : InsertSystem τ ε ρ} {t : τ} {p : InsertPhase ε ρ}
    (hphase : s'.phase = Function.update s.phase t p) (hrows : s.rows ⊆ s'.rows)
    (hp : ∀ env seen new, p = .decided env seen new →
      make env seen = some new ∧ seen ⊆ s'.rows) : Sound make s' := by
  intro t' env seen new hdecided
  rw [hphase] at hdecided
  by_cases heq : t' = t
  · subst heq
    rw [Function.update_self] at hdecided
    exact hp env seen new hdecided
  · rw [Function.update_of_ne heq] at hdecided
    obtain ⟨hmake, hseen⟩ := h t' env seen new hdecided
    exact ⟨hmake, List.Subset.trans hseen hrows⟩

theorem Sound.step (h : Sound make s) (l : Label τ ε) : Sound make (s.step make l) := by
  cases l with
  | read t env =>
    rw [InsertSystem.step]
    split
    · split
      · exact h.enter rfl (List.Subset.refl _) fun _ _ _ hp => by cases hp
      · rename_i new hmake
        refine h.enter rfl (List.Subset.refl _) fun env' seen' new' hp => ?_
        cases hp
        exact ⟨hmake, List.Subset.refl _⟩
    · exact h
  | commit t =>
    rw [InsertSystem.step]
    split
    · exact h.enter rfl (List.subset_append_left _ _) fun _ _ _ hp => by cases hp
    · exact h
  | abort t => exact h.enter rfl (List.Subset.refl _) fun _ _ _ hp => by cases hp

/-- With distinct keys so far, a step leaves them distinct exactly if a commit finds none of its keys. -/
theorem distinct_step_iff (hmakes : MakesDistinct key make) (h : Sound make s)
    (hdistinct : s.Distinct key) (l : Label τ ε) :
    (s.step make l).Distinct key ↔ s.Absent key l := by
  cases l with
  | read t env =>
    refine iff_of_true ?_ trivial
    rw [InsertSystem.step]
    split
    · split <;> exact hdistinct
    · exact hdistinct
  | commit t =>
    rw [InsertSystem.step]
    split
    · rename_i env seen new hphase
      have hnew : (new.filterMap key).Nodup := hmakes env seen new (h t env seen new hphase).1
      show ((s.rows ++ new).filterMap key).Nodup ↔ _
      rw [List.filterMap_append, List.nodup_append']
      show _ ↔ ∀ k ∈ (s.phase t).new.filterMap key, k ∉ s.rows.filterMap key
      rw [hphase]
      constructor
      · rintro ⟨-, -, hdisjoint⟩ k hk hmem
        exact hdisjoint hmem hk
      · intro habsent
        exact ⟨hdistinct, hnew, fun k hmem hk => habsent k hk hmem⟩
    · rename_i hother
      refine iff_of_true hdistinct ?_
      show ∀ k ∈ (s.phase t).new.filterMap key, k ∉ s.rows.filterMap key
      cases hphase : s.phase t with
      | decided env seen new => exact absurd hphase (hother env seen new)
      | fresh => exact fun k hk => absurd hk List.not_mem_nil
      | ended => exact fun k hk => absurd hk List.not_mem_nil
  | abort t => exact iff_of_true hdistinct trivial

/-- **When keys stay distinct**: in exactly the runs whose commits find none of their keys. -/
theorem distinct_iff (hmakes : MakesDistinct key make) {rows : List ρ}
    (hrows : (rows.filterMap key).Nodup) (ls : List (Label τ ε)) :
    States (InsertSystem.step make) (Distinct key) (start rows) ls ↔
      Along (InsertSystem.step make) (Absent key) (start rows) ls :=
  states_iff_along_of_inv (I := Sound make) (fun _ l h => h.step l)
    (fun _ l h hdistinct => distinct_step_iff hmakes h hdistinct l) (sound_start rows) hrows

/-- **A commit leaves nothing that was asked for missing**, in every run. -/
theorem commit_covers (hmakes : MakesAsked key asked make) (rows : List ρ)
    (ls : List (Label τ ε)) :
    Along (InsertSystem.step make) (Covers key asked make) (start rows) ls := by
  have hall : Along (InsertSystem.step make) (fun _ _ => True)
      (start rows : InsertSystem τ ε ρ) ls := along_of_forall (fun _ _ => trivial) _ _
  refine along_of_inv (I := Sound make) (fun _ l h _ => h.step l) (fun s l h _ => ?_)
    (sound_start rows) hall
  rintro t rfl env seen new hphase k hk
  obtain ⟨hmake, hseen⟩ := h t env seen new hphase
  have hrows : (s.step make (.commit t)).rows = s.rows ++ new := by
    rw [InsertSystem.step, hphase]
  rw [hrows, List.filterMap_append, List.mem_append]
  exact (hmakes env seen new hmake k hk).imp_left fun hmem => by
    obtain ⟨row, hrow, hkey⟩ := List.mem_filterMap.1 hmem
    exact List.mem_filterMap.2 ⟨row, hseen hrow, hkey⟩

end

end InsertSystem

end Matrades.Base

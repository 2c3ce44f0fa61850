import Mathlib.Data.List.Count

/-!
# Epochs

A counter for every key, which each change of the key counts up, and permits stamped with the counters
of their time. The log holds the changes and the issued permits, the last one first. While every permit
is issued under the current counters (`Stamped.issue`) and every change counts its own key up by one
(`Stamped.bump`), a stamp and the changes since its permit was issued make up the counter; so a permit
whose stamp is still the counter has seen no change of the key (`Stamped.unchanged`), in whatever order
changes and permits came.
-/

namespace Matrades.Base

variable {κ π : Type} [DecidableEq κ]

inductive EpochEvent (κ π : Type)
  | changed (key : κ)
  | issued (permit : π)
  deriving DecidableEq

def EpochEvent.changes (key : κ) : EpochEvent κ π → Bool
  | changed k => k = key
  | issued _ => false

/-- How often the key was changed. -/
def changes (key : κ) (log : List (EpochEvent κ π)) : Nat := log.countP (EpochEvent.changes key)

@[simp] theorem changes_nil (key : κ) : changes key ([] : List (EpochEvent κ π)) = 0 := rfl

@[simp] theorem changes_issued (key : κ) (permit : π) (log : List (EpochEvent κ π)) :
    changes key (.issued permit :: log) = changes key log :=
  List.countP_cons_of_neg nofun

theorem changes_same (key : κ) (log : List (EpochEvent κ π)) :
    changes key (.changed key :: log) = changes key log + 1 :=
  List.countP_cons_of_pos (by simp [EpochEvent.changes])

theorem changes_other {key other : κ} (h : other ≠ key) (log : List (EpochEvent κ π)) :
    changes key (.changed other :: log) = changes key log :=
  List.countP_cons_of_neg (by simp [EpochEvent.changes, h])

theorem changes_pos {key : κ} {log : List (EpochEvent κ π)} (h : .changed key ∈ log) :
    0 < changes key log :=
  List.countP_pos_iff.2 ⟨_, h, by simp [EpochEvent.changes]⟩

/-- Every permit's stamps and the changes since its issue make up the counters. -/
def Stamped (stamps : π → List (κ × Nat)) (counter : κ → Nat) (log : List (EpochEvent κ π)) : Prop :=
  ∀ post permit pre, log = post ++ .issued permit :: pre → ∀ stamp ∈ stamps permit,
    stamp.2 + changes stamp.1 post = counter stamp.1

section
variable {stamps : π → List (κ × Nat)} {counter counter' : κ → Nat} {log : List (EpochEvent κ π)}

theorem stamped_nil : Stamped stamps counter [] := by
  intro post permit pre hlog
  simp at hlog

theorem Stamped.congr (h : Stamped stamps counter log) (hsame : ∀ key, counter' key = counter key) :
    Stamped stamps counter' log := by
  intro post permit pre hlog stamp hstamp
  rw [hsame]
  exact h post permit pre hlog stamp hstamp

/-- A permit is issued under the counters. -/
theorem Stamped.issue (h : Stamped stamps counter log) {permit : π}
    (hnow : ∀ stamp ∈ stamps permit, stamp.2 = counter stamp.1) :
    Stamped stamps counter (.issued permit :: log) := by
  intro post permit' pre hlog stamp hstamp
  cases post with
  | nil =>
    obtain ⟨rfl, _⟩ : permit = permit' ∧ log = pre := by simpa using hlog
    simpa using hnow stamp hstamp
  | cons e post =>
    obtain ⟨rfl, hrest⟩ := List.cons.inj hlog
    rw [changes_issued]
    exact h post permit' pre hrest stamp hstamp

theorem Stamped.issueAll (h : Stamped stamps counter log) {permits : List π}
    (hnow : ∀ permit ∈ permits, ∀ stamp ∈ stamps permit, stamp.2 = counter stamp.1) :
    Stamped stamps counter (permits.map .issued ++ log) := by
  induction permits with
  | nil => exact h
  | cons permit permits ih =>
    obtain ⟨hfirst, hrest⟩ := List.forall_mem_cons.1 hnow
    exact (ih hrest).issue hfirst

/-- A change counts its key up. -/
theorem Stamped.bump (h : Stamped stamps counter log) {key : κ}
    (hkey : counter' key = counter key + 1) (hother : ∀ k, k ≠ key → counter' k = counter k) :
    Stamped stamps counter' (.changed key :: log) := by
  intro post permit pre hlog stamp hstamp
  cases post with
  | nil => simp at hlog
  | cons e post =>
    obtain ⟨rfl, hrest⟩ := List.cons.inj hlog
    have hbefore := h post permit pre hrest stamp hstamp
    by_cases hsame : stamp.1 = key
    · rw [hsame] at hbefore ⊢
      rw [changes_same, hkey]
      omega
    · rw [changes_other (Ne.symm hsame), hother stamp.1 hsame]
      exact hbefore

/-- **A stamp that is still the counter has seen no change of its key.** -/
theorem Stamped.unchanged (h : Stamped stamps counter log) {post pre : List (EpochEvent κ π)}
    {permit : π} (hlog : log = post ++ .issued permit :: pre) {stamp : κ × Nat}
    (hstamp : stamp ∈ stamps permit) (hnow : stamp.2 = counter stamp.1) :
    .changed stamp.1 ∉ post := by
  intro hchanged
  have hcount := h post permit pre hlog stamp hstamp
  have hpos := changes_pos hchanged
  omega

end

end Matrades.Base

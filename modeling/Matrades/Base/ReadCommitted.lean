import Mathlib.Logic.Function.Basic
import Matrades.Base.Run

/-!
# Read-committed transactions on one row

Transactions `τ` read a row, make something of it and overwrite it. A read sees the last committed row;
a read for update waits for the row's lock and takes it. A write waits for the lock too, and replaces
the row by what was made of the row *read*, whatever is committed by then. The lock is held until the
transaction ends.

Where nothing more can be made of what was made, at most one transaction commits a write exactly if
every commit finds the row that its transaction has read (`writes_once_iff`), and that is so if every
read is for update (`unchanged_of_forUpdate`).
-/

namespace Matrades.Base

/-- How far a transaction is; `seen` is the row it read and `next` what it makes of it. -/
inductive Phase (α : Type)
  | fresh
  | decided (seen next : α)
  | written (seen next : α)
  | ended

/-- The transaction is under way with these rows. -/
def Phase.Holds {α : Type} (p : Phase α) (seen next : α) : Prop :=
  p = .decided seen next ∨ p = .written seen next

structure RowSystem (τ α : Type) where
  committed : α
  phase : τ → Phase α
  lock : Option τ
  /-- The transactions that committed a write, the last one first. -/
  writers : List τ

namespace RowSystem

inductive Label (τ ε : Type)
  | read (t : τ) (env : ε) (forUpdate : Bool)
  | write (t : τ)
  | commit (t : τ)
  | abort (t : τ)

variable {τ ε α : Type}

def start (row : α) : RowSystem τ α := ⟨row, fun _ => .fresh, none, []⟩

variable [DecidableEq τ]

def enter (s : RowSystem τ α) (t : τ) (p : Phase α) : RowSystem τ α :=
  { s with phase := Function.update s.phase t p }

/-- No other transaction has the lock. -/
def Free (s : RowSystem τ α) (t : τ) : Prop := s.lock = none ∨ s.lock = some t

instance (s : RowSystem τ α) (t : τ) : Decidable (s.Free t) :=
  inferInstanceAs (Decidable (s.lock = none ∨ s.lock = some t))

/-- A read that need not wait. -/
def readRow (make : ε → α → Option α) (s : RowSystem τ α) (t : τ) (env : ε) (forUpdate : Bool) :
    RowSystem τ α :=
  match make env s.committed with
  | none => s.enter t .ended
  | some next =>
    { s.enter t (.decided s.committed next) with lock := if forUpdate then some t else s.lock }

def read (make : ε → α → Option α) (s : RowSystem τ α) (t : τ) (env : ε) (forUpdate : Bool) :
    RowSystem τ α :=
  match s.phase t with
  | .fresh => if forUpdate = true ∧ ¬s.Free t then s else s.readRow make t env forUpdate
  | _ => s

def write (s : RowSystem τ α) (t : τ) : RowSystem τ α :=
  match s.phase t with
  | .decided seen next =>
    if s.Free t then { s.enter t (.written seen next) with lock := some t } else s
  | _ => s

def commit (s : RowSystem τ α) (t : τ) : RowSystem τ α :=
  match s.phase t with
  | .written _ next =>
    { s.enter t .ended with committed := next, lock := none, writers := t :: s.writers }
  | _ => s

/-- The end of a transaction that does not commit. -/
def release (s : RowSystem τ α) (t : τ) : RowSystem τ α :=
  { s.enter t .ended with lock := if s.lock = some t then none else s.lock }

def abort (s : RowSystem τ α) (t : τ) : RowSystem τ α :=
  match s.phase t with
  | .decided _ _ | .written _ _ => s.release t
  | _ => s

/-- One step; a step that has to wait, or that is not the transaction's next, does nothing. -/
def step (make : ε → α → Option α) (s : RowSystem τ α) : Label τ ε → RowSystem τ α
  | .read t env forUpdate => s.read make t env forUpdate
  | .write t => s.write t
  | .commit t => s.commit t
  | .abort t => s.abort t

/-- A transaction alone: its read, its write and its commit. -/
def alone (t : τ) (env : ε) : List (Label τ ε) := [.read t env false, .write t, .commit t]

/-- A commit finds the row that its transaction has read. -/
def Unchanged (s : RowSystem τ α) : Label τ ε → Prop
  | .commit t => ∀ seen next, s.phase t = .written seen next → s.committed = seen
  | _ => True

/-- The read is for update. -/
def ForUpdate : Label τ ε → Prop
  | .read _ _ forUpdate => forUpdate = true
  | _ => True

theorem alone_run (make : ε → α → Option α) (row : α) (t : τ) (env : ε) :
    (run (step make) (start row) (alone t env)).committed = (make env row).getD row ∧
      (run (step make) (start row) (alone t env)).writers =
        if (make env row).isSome then [t] else [] := by
  cases hmake : make env row with
  | none => simp [alone, step, read, write, commit, start, readRow, enter, hmake]
  | some next => simp [alone, step, read, write, commit, start, readRow, enter, hmake, Free]

/-! ## What a run keeps -/

theorem phase_enter (s : RowSystem τ α) (t t' : τ) (p : Phase α) :
    (s.enter t p).phase t' = if t' = t then p else s.phase t' := by
  by_cases h : t' = t
  · rw [if_pos h, h]
    exact Function.update_self ..
  · rw [if_neg h]
    exact Function.update_of_ne h ..

/-- A transaction under way after another one has moved. -/
theorem holds_enter {s : RowSystem τ α} {t t' : τ} {p : Phase α} {seen next : α}
    (h : ((s.enter t p).phase t').Holds seen next) :
    (t' = t ∧ p.Holds seen next) ∨ (t' ≠ t ∧ (s.phase t').Holds seen next) := by
  rw [phase_enter] at h
  by_cases ht : t' = t
  · rw [if_pos ht] at h
    exact .inl ⟨ht, h⟩
  · rw [if_neg ht] at h
    exact .inr ⟨ht, h⟩

/-- Every transaction under way has made its row of the first one, which is committed until the first
write is; nothing can be made of what is committed then. -/
structure Grounded (make : ε → α → Option α) (row : α) (s : RowSystem τ α) : Prop where
  held : ∀ t seen next, (s.phase t).Holds seen next → seen = row ∧ ∃ env, make env row = some next
  unwritten : s.writers = [] → s.committed = row
  settled : s.writers ≠ [] → ∀ env, make env s.committed = none

section
variable {make : ε → α → Option α} {row : α}

theorem not_holds_ended {seen next : α} : ¬(Phase.ended : Phase α).Holds seen next := by
  rintro (h | h) <;> cases h

omit [DecidableEq τ] in
theorem grounded_start : Grounded make row (start row : RowSystem τ α) where
  held t seen next h := by rcases h with h | h <;> cases h
  unwritten _ := rfl
  settled h := absurd rfl h

/-- A transaction that moves on with a row made of the first, and writes nothing. -/
theorem Grounded.move {s s' : RowSystem τ α} (hs : Grounded make row s) {t : τ} {p : Phase α}
    (hphase : s'.phase = (s.enter t p).phase) (hcommitted : s'.committed = s.committed)
    (hwriters : s'.writers = s.writers)
    (hp : ∀ seen next, p.Holds seen next → seen = row ∧ ∃ env, make env row = some next) :
    Grounded make row s' where
  held t' seen next h := by
    rw [hphase] at h
    rcases holds_enter h with ⟨_, h⟩ | ⟨_, h⟩
    · exact hp seen next h
    · exact hs.held t' seen next h
  unwritten h := hcommitted ▸ hs.unwritten (hwriters ▸ h)
  settled h := hcommitted ▸ hs.settled (hwriters ▸ h)

theorem grounded_read {s : RowSystem τ α} (hs : Grounded make row s) (t : τ) (env : ε)
    (forUpdate : Bool) : Grounded make row (s.readRow make t env forUpdate) := by
  unfold readRow
  split
  · exact hs.move rfl rfl rfl fun seen next h => absurd h not_holds_ended
  · rename_i next hmake
    have hfirst : s.committed = row := hs.unwritten <| by
      by_contra hne
      rw [hs.settled hne env] at hmake
      cases hmake
    refine hs.move rfl rfl rfl fun seen next' h => ?_
    rcases h with h | h <;> cases h
    exact ⟨hfirst, env, hfirst ▸ hmake⟩

theorem grounded_write {s : RowSystem τ α} (hs : Grounded make row s) (t : τ) :
    Grounded make row (s.write t) := by
  unfold write
  split
  · rename_i seen next hphase
    split
    · refine hs.move rfl rfl rfl fun seen' next' h => ?_
      rcases h with h | h <;> cases h
      exact hs.held t seen next (.inl hphase)
    · exact hs
  · exact hs

theorem grounded_commit (honce : ∀ env a b, make env a = some b → ∀ env', make env' b = none)
    {s : RowSystem τ α} (hs : Grounded make row s) (t : τ) : Grounded make row (s.commit t) := by
  unfold commit
  split
  · rename_i seen next hphase
    obtain ⟨_, env, hmake⟩ := hs.held t seen next (.inr hphase)
    refine ⟨fun t' seen' next' h => ?_, nofun, fun _ => honce env row next hmake⟩
    rcases holds_enter (s := s) h with ⟨_, h⟩ | ⟨_, h⟩
    · exact absurd h not_holds_ended
    · exact hs.held t' seen' next' h
  · exact hs

theorem grounded_release {s : RowSystem τ α} (hs : Grounded make row s) (t : τ) :
    Grounded make row (s.release t) :=
  hs.move rfl rfl rfl fun _ _ h => absurd h not_holds_ended

theorem grounded_step (honce : ∀ env a b, make env a = some b → ∀ env', make env' b = none)
    {s : RowSystem τ α} (hs : Grounded make row s) (l : Label τ ε) :
    Grounded make row (s.step make l) := by
  cases l with
  | read t env forUpdate =>
    rw [step, read]
    split
    · split
      · exact hs
      · exact grounded_read hs t env forUpdate
    · exact hs
  | write t => exact grounded_write hs t
  | commit t => exact grounded_commit honce hs t
  | abort t =>
    rw [step, abort]
    split
    · exact grounded_release hs t
    · exact grounded_release hs t
    · exact hs

/-- Only a commit writes. -/
theorem writers_step {s : RowSystem τ α} {l : Label τ ε} (hl : ∀ t, l ≠ .commit t) :
    (s.step make l).writers = s.writers := by
  cases l with
  | read t env forUpdate =>
    rw [step, read]
    unfold readRow
    split
    · split
      · rfl
      · split <;> rfl
    · rfl
  | write t =>
    rw [step, write]
    split
    · split <;> rfl
    · rfl
  | commit t => exact absurd rfl (hl t)
  | abort t =>
    rw [step, abort]
    split <;> rfl

/-- With at most one write so far, a commit leaves at most one exactly if it finds the row it was made
of. -/
theorem once_commit_iff {s : RowSystem τ α} (hs : Grounded make row s) (hone : s.writers.length ≤ 1)
    (t : τ) : (s.commit t).writers.length ≤ 1 ↔
      ∀ seen next, s.phase t = .written seen next → s.committed = seen := by
  unfold commit
  split
  case h_2 hother => exact iff_of_true hone fun seen next h => absurd h (hother seen next)
  rename_i seen next hphase
  obtain ⟨hseen, env, hmake⟩ := hs.held t seen next (.inr hphase)
  constructor
  · intro hlength seen' next' hphase'
    cases hphase.symm.trans hphase'
    have hnone : s.writers = [] :=
      List.eq_nil_of_length_eq_zero (Nat.le_zero.1 (Nat.le_of_succ_le_succ hlength))
    rw [hs.unwritten hnone, hseen]
  · intro hunchanged
    have hfirst : s.committed = row := (hunchanged seen next hphase).trans hseen
    have hnone : s.writers = [] := by
      by_contra hne
      have hsettled := hs.settled hne env
      rw [hfirst, hmake] at hsettled
      cases hsettled
    rw [hnone]
    exact Nat.le_refl 1

theorem once_step_iff {s : RowSystem τ α} (hs : Grounded make row s) (hone : s.writers.length ≤ 1)
    (l : Label τ ε) : (s.step make l).writers.length ≤ 1 ↔ s.Unchanged l := by
  cases l with
  | commit t => exact once_commit_iff hs hone t
  | _ => exact iff_of_true (by rw [writers_step nofun]; exact hone) trivial

/-- **When at most one transaction writes**: exactly if every commit finds the row it was made of. -/
theorem writes_once_iff (honce : ∀ env a b, make env a = some b → ∀ env', make env' b = none)
    (row : α) (ls : List (Label τ ε)) :
    States (step make) (fun s => s.writers.length ≤ 1) (start row) ls ↔
      Along (step make) Unchanged (start row) ls :=
  states_iff_along_of_inv (I := Grounded make row) (fun _ l hs => grounded_step honce hs l)
    (fun _ l hs hone => once_step_iff hs hone l) grounded_start (Nat.zero_le 1) 

/-! ## Reads for update -/

/-- Every transaction under way has the lock and the committed row. -/
def Locked (s : RowSystem τ α) : Prop :=
  ∀ t seen next, (s.phase t).Holds seen next → s.lock = some t ∧ s.committed = seen

/-- The end of a transaction that has the lock, or of one while none is under way. -/
theorem locked_ended {s s' : RowSystem τ α} (hs : Locked s) {t : τ}
    (hphase : s'.phase = (s.enter t .ended).phase) (hother : ∀ t' ≠ t, s.lock = some t' →
      s'.lock = s.lock ∧ s'.committed = s.committed) : Locked s' := by
  intro t' seen next h
  rw [hphase] at h
  rcases holds_enter h with ⟨_, h⟩ | ⟨hne, h⟩
  · exact absurd h not_holds_ended
  · obtain ⟨hlock, hseen⟩ := hs t' seen next h
    obtain ⟨hsame, hcommitted⟩ := hother t' hne hlock
    exact ⟨hsame.trans hlock, hcommitted.trans hseen⟩

theorem locked_read {s : RowSystem τ α} (hs : Locked s) {t : τ} (env : ε) (hfree : s.Free t) :
    Locked (s.readRow make t env true) := by
  unfold readRow
  split
  · exact locked_ended hs rfl fun _ _ _ => ⟨rfl, rfl⟩
  · rename_i next _
    intro t' seen next' h
    rcases holds_enter (s := s) (p := .decided s.committed next) h with ⟨rfl, hp⟩ | ⟨hne, h⟩
    · rcases hp with hp | hp <;> cases hp
      exact ⟨rfl, rfl⟩
    · have hlock := (hs t' seen next' h).1
      rcases hfree with hnone | hmine
      · rw [hnone] at hlock
        cases hlock
      · rw [hmine] at hlock
        exact absurd (Option.some.inj hlock).symm hne

theorem locked_step {s : RowSystem τ α} (hs : Locked s) {l : Label τ ε} (hl : ForUpdate l) :
    Locked (s.step make l) := by
  cases l with
  | read t env forUpdate =>
    obtain rfl : forUpdate = true := hl
    rw [step, read]
    split
    · split
      · exact hs
      · rename_i hfree
        exact locked_read hs env (by simpa using hfree)
    · exact hs
  | write t =>
    rw [step, write]
    split
    · rename_i seen next hphase
      obtain ⟨hlock, hseen⟩ := hs t seen next (.inl hphase)
      split
      · intro t' seen' next' h
        rcases holds_enter (s := s) (p := .written seen next) h with ⟨rfl, hp⟩ | ⟨hne, h⟩
        · rcases hp with hp | hp <;> cases hp
          exact ⟨rfl, hseen⟩
        · have hlock' := (hs t' seen' next' h).1
          exact absurd (Option.some.inj (hlock'.symm.trans hlock)) hne
      · exact hs
    · exact hs
  | commit t =>
    rw [step, commit]
    split
    · rename_i seen next hphase
      have hlock := (hs t seen next (.inr hphase)).1
      refine locked_ended hs rfl fun t' hne hlock' => ?_
      exact absurd (Option.some.inj (hlock'.symm.trans hlock)) hne
    · exact hs
  | abort t =>
    have hreleased : Locked (s.release t) := by
      refine locked_ended hs rfl fun t' hne hlock' => ⟨?_, rfl⟩
      show (if s.lock = some t then none else s.lock) = s.lock
      rw [if_neg (fun h => hne (Option.some.inj (hlock'.symm.trans h)))]
    rw [step, abort]
    split
    · exact hreleased
    · exact hreleased
    · exact hs

/-- **Reads for update** make every commit find the row its transaction has read. -/
theorem unchanged_of_forUpdate (row : α) {ls : List (Label τ ε)} (h : ∀ l ∈ ls, ForUpdate l) :
    Along (step make) Unchanged (start row) ls := by
  have hreads : Along (step make) (fun _ l => ForUpdate l) (start row) ls :=
    along_of_mem h _
  refine along_of_inv (I := Locked) (fun _ _ hs hl => locked_step hs hl) (fun s l hs _ => ?_)
    (fun t seen next h => ?_) hreads
  · cases l with
    | commit t => exact fun seen next hphase => (hs t seen next (.inr hphase)).2
    | _ => trivial
  · rcases h with h | h <;> cases h

end

end RowSystem

end Matrades.Base

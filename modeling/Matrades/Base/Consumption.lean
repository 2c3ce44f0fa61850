import Matrades.Base.ReadCommitted

/-!
# Taking items out of a list

Read-committed transactions (`RowSystem`) whose row is a list: each takes one item out, if the list
read has it, and writes back the rest. While every commit finds the list its transaction has read, an
item is taken once and none comes back; a commit that finds another list takes an item that was taken
before, or brings one back (`Taken.step`, `Taken.unchanged`).
-/

namespace Matrades.Base

namespace RowSystem

variable {τ ε κ : Type} [DecidableEq τ] [DecidableEq κ]

/-- What is made of a list lacks the item that the environment asks for. -/
def Takes (asked : ε → κ) (make : ε → List κ → Option (List κ)) : Prop :=
  ∀ env items rest, make env items = some rest →
    asked env ∈ items ∧ rest = items.filter (· ≠ asked env)

/-- A read asks for its transaction's item. -/
def AsksOwn (item : τ → κ) (asked : ε → κ) : Label τ ε → Prop
  | .read t env _ => asked env = item t
  | _ => True

/-- The items of `row` that the transactions `ts` have not taken. -/
def left (item : τ → κ) (row : List κ) (ts : List τ) : List κ :=
  row.filter fun k => k ∉ ts.map item

/-- No item is taken twice, and none that is taken is in the list. -/
def Once (item : τ → κ) (s : RowSystem τ (List κ)) : Prop :=
  (s.writers.map item).Nodup ∧ ∀ t ∈ s.writers, item t ∉ s.committed

/-- The list is what the writers have left, and every transaction under way has seen what some of the
first ones had left. -/
structure Taken (item : τ → κ) (row : List κ) (s : RowSystem τ (List κ)) : Prop where
  committed : s.committed = left item row s.writers
  nodup : (s.writers.map item).Nodup
  held : ∀ t seen next, (s.phase t).Holds seen next →
    item t ∈ seen ∧ next = seen.filter (· ≠ item t) ∧
      ∃ earlier, earlier <:+ s.writers ∧ seen = left item row earlier

section
variable {item : τ → κ} {asked : ε → κ} {make : ε → List κ → Option (List κ)} {row : List κ}

omit [DecidableEq τ] in
theorem mem_left {k : κ} {ts : List τ} : k ∈ left item row ts ↔ k ∈ row ∧ k ∉ ts.map item := by
  simp [left]

omit [DecidableEq τ] in
theorem left_cons (t : τ) (ts : List τ) :
    left item row (t :: ts) = (left item row ts).filter (· ≠ item t) := by
  unfold left
  rw [List.filter_filter]
  refine List.filter_congr fun k _ => ?_
  simp

omit [DecidableEq τ] in
theorem Taken.once {s : RowSystem τ (List κ)} (h : Taken item row s) : Once item s := by
  refine ⟨h.nodup, fun t ht hmem => ?_⟩
  rw [h.committed, mem_left] at hmem
  exact hmem.2 (List.mem_map_of_mem ht)

omit [DecidableEq τ] in
theorem taken_start : Taken item row (start row : RowSystem τ (List κ)) where
  committed := (List.filter_eq_self.2 fun k _ => by simp [start]).symm
  nodup := List.nodup_nil
  held t seen next h := by rcases h with h | h <;> cases h

/-- A transaction that moves on and writes nothing. -/
theorem Taken.move {s s' : RowSystem τ (List κ)} (hs : Taken item row s) {t : τ} {p : Phase (List κ)}
    (hphase : s'.phase = (s.enter t p).phase) (hcommitted : s'.committed = s.committed)
    (hwriters : s'.writers = s.writers)
    (hp : ∀ seen next, p.Holds seen next → item t ∈ seen ∧ next = seen.filter (· ≠ item t) ∧
      ∃ earlier, earlier <:+ s.writers ∧ seen = left item row earlier) :
    Taken item row s' where
  committed := by rw [hcommitted, hwriters, hs.committed]
  nodup := hwriters ▸ hs.nodup
  held t' seen next h := by
    rw [hphase] at h
    rw [hwriters]
    rcases holds_enter h with ⟨rfl, hmoved⟩ | ⟨_, hother⟩
    · exact hp seen next hmoved
    · exact hs.held t' seen next hother

theorem Taken.read (htakes : Takes asked make) {s : RowSystem τ (List κ)} (hs : Taken item row s)
    {t : τ} {env : ε} (hown : asked env = item t) (forUpdate : Bool) :
    Taken item row (s.readRow make t env forUpdate) := by
  unfold readRow
  split
  · exact hs.move rfl rfl rfl fun seen next h => absurd h not_holds_ended
  · rename_i next hmake
    refine hs.move rfl rfl rfl fun seen next' h => ?_
    obtain ⟨hmem, hrest⟩ := htakes env s.committed next hmake
    rw [hown] at hmem hrest
    rcases h with h | h <;> cases h
    exact ⟨hmem, hrest, s.writers, List.suffix_refl _, hs.committed⟩

theorem Taken.write {s : RowSystem τ (List κ)} (hs : Taken item row s) (t : τ) :
    Taken item row (s.write t) := by
  unfold RowSystem.write
  split
  · rename_i seen next hphase
    split
    · refine hs.move rfl rfl rfl fun seen' next' h => ?_
      rcases h with h | h <;> cases h
      exact hs.held t seen next (.inl hphase)
    · exact hs
  · exact hs

theorem Taken.commit {s : RowSystem τ (List κ)} (hs : Taken item row s) {t : τ}
    (hunchanged : ∀ seen next, s.phase t = .written seen next → s.committed = seen) :
    Taken item row (s.commit t) := by
  unfold RowSystem.commit
  split
  · rename_i seen next hphase
    obtain ⟨hmem, hnext, -⟩ := hs.held t seen next (.inr hphase)
    have hseen : seen = left item row s.writers := by
      rw [← hs.committed, hunchanged seen next hphase]
    refine ⟨?_, ?_, fun t' seen' next' h => ?_⟩
    · show next = left item row (t :: s.writers)
      rw [left_cons, ← hseen, hnext]
    · show (item t :: s.writers.map item).Nodup
      rw [hseen, mem_left] at hmem
      exact List.nodup_cons.2 ⟨hmem.2, hs.nodup⟩
    · rcases holds_enter (s := s) h with ⟨_, h⟩ | ⟨_, h⟩
      · exact absurd h not_holds_ended
      · obtain ⟨hmem', hnext', earlier, hsuffix, hleft⟩ := hs.held t' seen' next' h
        exact ⟨hmem', hnext', earlier, hsuffix.trans (List.suffix_cons t s.writers), hleft⟩
  · exact hs

theorem Taken.step (htakes : Takes asked make) {s : RowSystem τ (List κ)} (hs : Taken item row s)
    {l : Label τ ε} (hown : AsksOwn item asked l) (hunchanged : s.Unchanged l) :
    Taken item row (s.step make l) := by
  cases l with
  | read t env forUpdate =>
    rw [RowSystem.step, RowSystem.read]
    split
    · split
      · exact hs
      · exact hs.read htakes hown forUpdate
    · exact hs
  | write t => exact hs.write t
  | commit t => exact hs.commit hunchanged
  | abort t =>
    have hreleased : Taken item row (s.release t) :=
      hs.move rfl rfl rfl fun _ _ h => absurd h not_holds_ended
    rw [RowSystem.step, abort]
    split
    · exact hreleased
    · exact hreleased
    · exact hs

/-- A commit after which every item is taken once finds the list its transaction has read: what was
taken in between would come back, or be taken again. -/
theorem Taken.unchanged {s : RowSystem τ (List κ)} (hs : Taken item row s) {t : τ}
    (honce : Once item (s.commit t)) :
    ∀ seen next, s.phase t = .written seen next → s.committed = seen := by
  intro seen next hphase
  obtain ⟨hmem, hnext, earlier, hsuffix, hseen⟩ := hs.held t seen next (.inr hphase)
  rw [RowSystem.commit, hphase] at honce
  obtain ⟨hnodup, hgone⟩ := honce
  rw [hs.committed, hseen]
  refine List.filter_congr fun k hk => ?_
  have hiff : k ∈ s.writers.map item ↔ k ∈ earlier.map item := by
    constructor
    · intro hwritten
      by_contra hnot
      have hkseen : k ∈ seen := by
        rw [hseen, mem_left]
        exact ⟨hk, hnot⟩
      obtain ⟨t', ht', hitem⟩ := List.mem_map.1 hwritten
      by_cases hsame : k = item t
      · have hnew : item t ∉ s.writers.map item := (List.nodup_cons.1 hnodup).1
        exact hnew (hsame ▸ hwritten)
      · have hback : k ∈ next := by
          rw [hnext]
          simpa using ⟨hkseen, hsame⟩
        exact hgone t' (List.mem_cons_of_mem t ht') (hitem ▸ hback)
    · intro hearlier
      exact (List.map_subset item hsuffix.subset) hearlier
  simp only [hiff]

theorem Taken.unchanged_step {s : RowSystem τ (List κ)} (hs : Taken item row s) {l : Label τ ε}
    (honce : Once item (s.step make l)) : s.Unchanged l := by
  cases l with
  | commit t => exact hs.unchanged honce
  | _ => trivial

end

end RowSystem

end Matrades.Base

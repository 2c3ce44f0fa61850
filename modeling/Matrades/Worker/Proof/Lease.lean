import Matrades.Base.ReadCommitted
import Matrades.Worker.Proof.Management

/-!
# Leases of many workers

`lease_command` reads the command without its lock, compares the version it has read with itself, and
updates the row by its id. So `_lease` is a read-committed transaction on the command's row
(`leaseMade`); alone it is `leaseTask` (`leaseTask_alone`). Over every interleaving of such
transactions at most one leases the command exactly if no commit of a lease finds another row than the
one its worker read (`lease_exclusive_iff`): a read for update, as `_dispatch` makes it, sees to that
(`lease_exclusive_forUpdate`), the read of `_lease` does not (`two_workers_lease`).
-/

namespace Matrades

open Base

/-- What `lease_command` makes of the command's row. -/
def leaseMade (env : TaskEnv) (row : Row Uuid CommandState CommandData) :
    Option (Row Uuid CommandState CommandData) :=
  if row.state ∈ leasableStates then some (leasedRow env row) else none

/-- The interleaved transactions of workers `τ` on one command. -/
abbrev LeaseSystem (τ : Type) : Type := RowSystem τ (Row Uuid CommandState CommandData)

namespace LeaseSystem

abbrev Label (τ : Type) : Type := RowSystem.Label τ TaskEnv

def step {τ : Type} [DecidableEq τ] : LeaseSystem τ → Label τ → LeaseSystem τ :=
  RowSystem.step leaseMade

/-- At most one worker has got the lease. -/
def Exclusive {τ : Type} (s : LeaseSystem τ) : Prop := s.writers.length ≤ 1

end LeaseSystem

/-! ## One worker -/

theorem leaseMade_eq_some {env : TaskEnv} {row leased : Row Uuid CommandState CommandData}
    (h : leaseMade env row = some leased) : leased = leasedRow env row ∧
      row.state ∈ leasableStates := by
  unfold leaseMade at h
  split at h
  · cases h
    exact ⟨rfl, ‹_›⟩
  · cases h

/-- A leased command is not leased again. -/
theorem leaseMade_once (env : TaskEnv) (row leased : Row Uuid CommandState CommandData)
    (h : leaseMade env row = some leased) (env' : TaskEnv) : leaseMade env' leased = none := by
  obtain ⟨rfl, _⟩ := leaseMade_eq_some h
  exact if_neg (by decide : CommandState.dispatching ∉ leasableStates)

/-- **The transaction alone is `_lease`**: it leases when `_lease` does, and leaves the row that `_lease`
leaves. -/
theorem leaseTask_alone {τ : Type} [DecidableEq τ] {env : TaskEnv} {db : Database}
    {ownerId commandId : Uuid} {row : Row Uuid CommandState CommandData}
    (hrow : Table.get? db.commands commandId ownerId = some row)
    (hlease : .lease ∉ env.faults) (hcommit : .commit ∉ env.faults) (worker : τ) :
    let s := run LeaseSystem.step (RowSystem.start row) (RowSystem.alone worker env)
    Table.get? (leaseTask env ownerId commandId db).state.commands commandId ownerId =
        some s.committed ∧
      ((leaseTask env ownerId commandId db).result = .ok true ↔ worker ∈ s.writers) := by
  intro s
  obtain ⟨hcommitted, hwriters⟩ := RowSystem.alone_run leaseMade row worker env
  rw [show s.committed = _ from hcommitted, show s.writers = _ from hwriters]
  by_cases hstate : row.state ∈ leasableStates
  · have hmade : leaseMade env row = some (leasedRow env row) := if_pos hstate
    rw [leaseTask_leases hrow hstate hlease hcommit, hmade]
    exact ⟨Table.get?_revise hrow _ _ _, iff_of_true rfl (List.mem_singleton_self _)⟩
  · have hmade : leaseMade env row = none := if_neg hstate
    have hidle : ¬∃ row, Table.get? db.commands commandId ownerId = some row ∧
        row.state ∈ leasableStates ∧ .lease ∉ env.faults ∧ .commit ∉ env.faults := by
      rintro ⟨row', hrow', hstate', _⟩
      obtain rfl : row = row' := Option.some.inj (hrow.symm.trans hrow')
      exact hstate hstate'
    obtain ⟨r, hrun, hr⟩ := leaseTask_idle hidle
    rw [hrun, hmade]
    exact ⟨hrow, iff_of_false hr List.not_mem_nil⟩

/-! ## Many workers -/

section
variable {τ : Type} [DecidableEq τ]

/-- **When the lease is exclusive**: over every interleaving, exactly if every lease that is committed
finds the row that its worker has read. -/
theorem lease_exclusive_iff (row : Row Uuid CommandState CommandData)
    (ls : List (LeaseSystem.Label τ)) :
    States LeaseSystem.step LeaseSystem.Exclusive (RowSystem.start row) ls ↔
      Along LeaseSystem.step RowSystem.Unchanged (RowSystem.start row) ls :=
  RowSystem.writes_once_iff leaseMade_once row ls

/-- Workers that lock the command when they read it lease it at most once. -/
theorem lease_exclusive_forUpdate (row : Row Uuid CommandState CommandData)
    {ls : List (LeaseSystem.Label τ)} (h : ∀ l ∈ ls, RowSystem.ForUpdate l) :
    States LeaseSystem.step LeaseSystem.Exclusive (RowSystem.start row) ls :=
  (RowSystem.writes_once_iff leaseMade_once row ls).2 (RowSystem.unchanged_of_forUpdate row h)

end

/-! ## Two workers -/

def leaseEnv (worker : Nat) : TaskEnv :=
  { now := (100 + worker) * second, workerId := "worker-" ++ toString worker }

/-- Both workers read the queued command before either commits. -/
def bothRead : List (LeaseSystem.Label Nat) := [
  .read 1 (leaseEnv 1) false, .read 2 (leaseEnv 2) false,
  .write 1, .write 2, .commit 1, .write 2, .commit 2]

/-- **Two workers can get one lease**: the second one, whose update waits for the first, has read the
queued command; its lease starts 29 seconds before the first one ends. -/
theorem two_workers_lease :
    (run LeaseSystem.step (RowSystem.start exitRow) bothRead).writers = [2, 1] ∧
      (run LeaseSystem.step (RowSystem.start exitRow) (bothRead.take 5)).committed.data.lease.map
        (·.expiresAt) = some (131 * second) ∧ (leaseEnv 2).now = 102 * second ∧
      ¬States LeaseSystem.step LeaseSystem.Exclusive (RowSystem.start exitRow) bothRead := by
  have hwriters : (run LeaseSystem.step (RowSystem.start exitRow) bothRead).writers = [2, 1] := by
    decide +kernel
  refine ⟨hwriters, by decide +kernel, rfl, fun h => ?_⟩
  have hlast : (run LeaseSystem.step (RowSystem.start exitRow) bothRead).writers.length ≤ 1 :=
    h.last
  rw [hwriters] at hlast
  exact absurd hlast (by decide)

end Matrades

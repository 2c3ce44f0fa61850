import Matrades.Base.Dict
import Matrades.Base.KeyedInsert
import Matrades.Base.Result
import Matrades.Research.Scheduling

/-!
# The scheduling ticks

`_create_scheduled_runs` of `tasks/research.py` and `_create_scheduled_scrapes` of
`tasks/forex_factory.py`. A tick reads the accounts and the keys of the runs that exist, and adds a run
for every account whose schedule is due on a local date without one. The keys are read without a lock.
-/

namespace Matrades

open Base

/-- The two schedulers. -/
inductive RunKind
  | researchRun | forexFactoryScrape
  deriving DecidableEq, Repr

structure SchedulingAccount where
  ownerId : Uuid
  active : Bool
  researchSchedule : Option StoredSchedule
  forexFactorySchedule : Option StoredSchedule
  deriving DecidableEq, Repr

/-- A lane of a research matrix. -/
structure MatrixLane where
  name : String
  enabled : Bool
  deriving DecidableEq, Repr

structure ResearchMatrix where
  ownerId : Uuid
  accountId : Uuid
  schedule : Option StoredSchedule
  version : ℕ
  lanes : List MatrixLane
  deriving DecidableEq, Repr

/-- An active Forex Factory connection. -/
structure FeedConnection where
  id : Uuid
  ownerId : Uuid
  deriving DecidableEq, Repr

/-- What a run of each kind is created with. -/
inductive RunDetail
  | research (matrixVersion : ℕ) (lanes : List MatrixLane)
  | scrape (connectionId : Uuid)
  deriving DecidableEq, Repr

/-- A research run or a scrape; one that was started by hand has no date. -/
structure ScheduledRun where
  kind : RunKind
  ownerId : Uuid
  accountId : Uuid
  scheduledDate : Option ℤ
  scheduledAt : ℤ
  schedule : Option ScheduleRule
  detail : RunDetail
  deriving DecidableEq, Repr

/-- The kind, owner, account and local date of a run. -/
structure RunKey where
  kind : RunKind
  ownerId : Uuid
  accountId : Uuid
  date : ℤ
  deriving DecidableEq, Repr

def ScheduledRun.key? (run : ScheduledRun) : Option RunKey :=
  run.scheduledDate.map fun date => ⟨run.kind, run.ownerId, run.accountId, date⟩

/-- What a tick of either scheduler reads, but for the runs. -/
structure SchedulerTick where
  kind : RunKind
  now : ℤ
  accounts : Dict Uuid SchedulingAccount
  matrices : List ResearchMatrix
  connections : List FeedConnection
  fallback : ScheduleRule
  /-- `ALL_LANES` -/
  allLanes : List MatrixLane

/-- `a or b` of schedules: one without entries is false. -/
def StoredSchedule.orElse (a b : Option StoredSchedule) : Option StoredSchedule :=
  match a.filter (· ≠ {}) with
  | some schedule => some schedule
  | none => b

/-- The account's matrix. -/
def SchedulerTick.matrix? (tick : SchedulerTick) (id : Uuid) (account : SchedulingAccount) :
    Option ResearchMatrix :=
  tick.matrices.find? fun matrix => matrix.ownerId = account.ownerId && matrix.accountId = id

/-- The account's stored schedule. -/
def SchedulerTick.stored (tick : SchedulerTick) (id : Uuid) (account : SchedulingAccount) :
    Option StoredSchedule :=
  match tick.kind with
  | .researchRun =>
    StoredSchedule.orElse account.researchSchedule ((tick.matrix? id account).bind (·.schedule))
  | .forexFactoryScrape => account.forexFactorySchedule

/-- What a run of the account is created with; a scrape needs a connection of the owner. -/
def SchedulerTick.detail? (tick : SchedulerTick) (id : Uuid) (account : SchedulingAccount) :
    Option RunDetail :=
  match tick.kind with
  | .researchRun =>
    match tick.matrix? id account with
    | some matrix => some (.research matrix.version (matrix.lanes.filter (·.enabled)))
    | none => some (.research 1 (tick.allLanes.filter (·.enabled)))
  | .forexFactoryScrape =>
    (tick.connections.find? (·.ownerId = account.ownerId)).map fun connection =>
      .scrape connection.id

section
variable (zones : TimeZones)

/-- The run of an account on the local date, if its schedule is due. -/
def dueRun (tick : SchedulerTick) (id : Uuid) (account : SchedulingAccount) :
    Except String (Option ScheduledRun) :=
  if account.active = false then .ok none
  else
    match tick.detail? id account with
    | none => .ok none
    | some detail => do
      let schedule ← normalizeSchedule zones (tick.stored id account) tick.fallback
      if isDue zones schedule tick.now = false then .ok none
      else
        .ok <| some {
          kind := tick.kind
          ownerId := account.ownerId
          accountId := id
          scheduledDate := some (zones.localDate schedule.timezone tick.now)
          scheduledAt := tick.now
          schedule := some schedule
          detail }

/-- `_create_scheduled_runs` and `_create_scheduled_scrapes`: the runs that are due and whose key does
not exist. A schedule that is malformed ends the tick. -/
def createScheduled (tick : SchedulerTick) (existing : List ScheduledRun) :
    Except String (List ScheduledRun) := do
  let due ← tick.accounts.entries.mapM fun e => dueRun zones tick e.1 e.2
  let scheduledKeys := existing.filterMap (·.key?)
  return (due.filterMap id).filter fun run => run.key?.all fun key => key ∉ scheduledKeys

/-- The ticks side by side, over the runs of both kinds. -/
abbrev SchedulerSystem := InsertSystem ℕ SchedulerTick ScheduledRun

/-- One step of the ticks, each known by its number. -/
def schedulerStep (s : SchedulerSystem) (l : InsertSystem.Label ℕ SchedulerTick) : SchedulerSystem :=
  s.step (fun tick existing => (createScheduled zones tick existing).toOption) l

/-- The schedule of an account is due at a tick, on the date of the key. -/
def DueOn (tick : SchedulerTick) (key : RunKey) : Prop :=
  ∃ e ∈ tick.accounts.entries, ∃ run, dueRun zones tick e.1 e.2 = .ok (some run) ∧
    run.key? = some key

end

/-- **One run per account and day**: no two scheduled runs have the same kind, owner, account and
date. -/
def OneRunPerDay (s : SchedulerSystem) : Prop := s.Distinct ScheduledRun.key?

end Matrades

import Matrades.Strategies.EntryContext

/-!
# Schedules

`modules/research/scheduling.py`: how a stored schedule is completed from the fallback and checked, and
when it is due. The time zone database is a parameter.
-/

namespace Matrades

/-- The time zone database: the zones it knows, and the UTC offset of a zone at an instant. -/
structure TimeZones where
  known : String → Bool
  offset : String → ℤ → ℤ

/-- A stored schedule: the entries that are there. -/
structure StoredSchedule where
  enabled : Option Bool := none
  runAt : Option String := none
  timezone : Option String := none
  weekdays : Option (List ℤ) := none
  deriving DecidableEq, Repr

/-- A schedule that has been normalized. -/
structure ScheduleRule where
  enabled : Bool
  runAt : String
  timezone : String
  weekdays : List ℤ
  deriving DecidableEq, Repr

def defaultWeekdays : List ℤ := [0, 1, 2, 3, 4, 5, 6]

/-- `default_schedule`, in UTC. -/
def defaultSchedule (enabled : Bool) (runAt : String) : ScheduleRule :=
  ⟨enabled, runAt, "UTC", defaultWeekdays⟩

/-- One or two digits, below a bound. -/
def clockField (digits : List Char) (bound : ℕ) : Option ℕ :=
  if digits.length ∈ [1, 2] ∧ digits.all Char.isDigit then
    let n := digits.foldl (fun n c => 10 * n + (c.toNat - '0'.toNat)) 0
    if n < bound then some n else none
  else none

/-- `_parse_run_at`: hour and minute. -/
def parseRunAt (runAt : String) : Except String (ℕ × ℕ) :=
  let hour := clockField (runAt.toList.takeWhile (· ≠ ':')) 24
  let minute := clockField ((runAt.toList.dropWhile (· ≠ ':')).drop 1) 60
  match hour, minute with
  | some hour, some minute => .ok (hour, minute)
  | _, _ => .error "run_at must use HH:MM 24-hour format"

/-- `normalize_schedule`. -/
def normalizeSchedule (zones : TimeZones) (value : Option StoredSchedule) (fallback : ScheduleRule) :
    Except String ScheduleRule := do
  let stored := value.getD {}
  let enabled := stored.enabled.getD fallback.enabled
  let runAt := stored.runAt.getD fallback.runAt
  let timezone := stored.timezone.getD fallback.timezone
  let weekdays := stored.weekdays.getD fallback.weekdays
  let _ ← parseRunAt runAt
  if zones.known timezone = false then .error ("unknown schedule timezone: " ++ timezone)
  else if weekdays.any (fun day => day < 0 || 6 < day) then
    .error "weekdays must contain values from 0 (Monday) through 6 (Sunday)"
  else if enabled && weekdays.isEmpty then
    .error "an enabled schedule must include at least one weekday"
  else .ok ⟨enabled, runAt, timezone, defaultWeekdays.filter (· ∈ weekdays)⟩

/-- The local time of a zone, as the microseconds of the local calendar. -/
def TimeZones.local (zones : TimeZones) (timezone : String) (now : ℤ) : ℤ :=
  now + zones.offset timezone now

/-- The local date, as the number of days since the epoch. -/
def TimeZones.localDate (zones : TimeZones) (timezone : String) (now : ℤ) : ℤ :=
  zones.local timezone now / 86400000000

/-- `is_due`. -/
def isDue (zones : TimeZones) (schedule : ScheduleRule) (now : ℤ) : Bool :=
  schedule.enabled &&
    match parseRunAt schedule.runAt with
    | .error _ => false
    | .ok (hour, minute) =>
      let time := zones.local schedule.timezone now
      schedule.weekdays.contains (weekday time) &&
        decide ((60 * hour + minute : ℕ) ≤ minuteOfDay time)

end Matrades

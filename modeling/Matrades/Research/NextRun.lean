import Matrades.Base.Result
import Matrades.Research.Scheduling

/-!
# The next run of a schedule

`next_run_at` compares the run time of each date with the local clock as wall times, and only then turns the
chosen one into an instant. Where the zone's clock is set back or forward between the two, the clock and the
instants disagree (`ClockAgrees`).
-/

namespace Matrades

open Base

/-- A time zone database that also resolves wall times, with `fold=0`. A wall time that is shown is resolved to
the first instant that shows it, and the run instants of successive dates do not go back. -/
structure WallZones extends TimeZones where
  wallOffset : String → ℤ → ℤ
  resolve_shown : ∀ timezone now wall, now + offset timezone now = wall →
    wall - wallOffset timezone wall ≤ now ∧
      wall - wallOffset timezone wall + offset timezone (wall - wallOffset timezone wall) = wall
  resolve_next_day : ∀ timezone wall,
    wall - wallOffset timezone wall ≤ wall + 86400000000 - wallOffset timezone (wall + 86400000000)

/-- `astimezone(UTC)` of a wall time. -/
def WallZones.resolve (zones : WallZones) (timezone : String) (wall : ℤ) : ℤ :=
  wall - zones.wallOffset timezone wall

/-- `datetime(year, month, day, hour, minute)`, as the microseconds of the local calendar. -/
def wallTime (date : ℤ) (hour minute : ℕ) : ℤ := 86400000000 * date + 60000000 * (60 * hour + minute : ℕ)

def nextRunAt (zones : WallZones) (schedule : ScheduleRule) (now : ℤ) : Except String (Option ℤ) :=
  if schedule.enabled = false then .ok none
  else if zones.known schedule.timezone = false then
    .error ("unknown schedule timezone: " ++ schedule.timezone)
  else do
    let localNow := zones.local schedule.timezone now
    let (hour, minute) ← parseRunAt schedule.runAt
    .ok ((List.range 8).findSome? fun (offset : ℕ) =>
      let candidate := wallTime (localNow / 86400000000 + offset) hour minute
      -- one zone on both sides: Python compares the wall times
      if weekday candidate ∈ schedule.weekdays ∧ localNow ≤ candidate then
        some (zones.resolve schedule.timezone candidate)
      else none)

namespace ScheduleRule

/-- The local time of the run on a date. -/
def runWall (schedule : ScheduleRule) (date : ℤ) : ℤ :=
  match parseRunAt schedule.runAt with
  | .ok (hour, minute) => wallTime date hour minute
  | .error _ => wallTime date 0 0

/-- The instant of the run on a date: `run_at` on that date in the zone. -/
def runInstant (zones : WallZones) (schedule : ScheduleRule) (date : ℤ) : ℤ :=
  zones.resolve schedule.timezone (schedule.runWall date)

def Allows (schedule : ScheduleRule) (date : ℤ) : Prop := (date + 3) % 7 ∈ schedule.weekdays

/-- An allowed date whose run time the local clock has not passed. -/
def Ahead (zones : WallZones) (schedule : ScheduleRule) (now date : ℤ) : Prop :=
  schedule.Allows date ∧ zones.local schedule.timezone now ≤ schedule.runWall date

end ScheduleRule

/-- `t` is the next scheduled instant. -/
structure IsNextRun (zones : WallZones) (schedule : ScheduleRule) (now t : ℤ) : Prop where
  not_before : now ≤ t
  due : isDue zones.toTimeZones schedule t = true
  first : ∀ date, schedule.Allows date →
    ¬(now ≤ schedule.runInstant zones date ∧ schedule.runInstant zones date < t)

/-- The clock of the zone orders `now` and the runs as their instants do. -/
structure ClockAgrees (zones : WallZones) (schedule : ScheduleRule) (now : ℤ) : Prop where
  /-- `now` is not behind the instant of a run that the clock shows again. -/
  not_repeated : ∀ date, schedule.Ahead zones now date → now ≤ schedule.runInstant zones date
  /-- The clock has not jumped over a run whose instant is still to come. -/
  not_jumped : ∀ date, schedule.Allows date → now ≤ schedule.runInstant zones date →
    schedule.Ahead zones now date ∨
      ∃ later, schedule.Ahead zones now later ∧ schedule.runInstant zones later = schedule.runInstant zones date
  /-- If the next run's time is skipped, the schedule is still due at the instant in its place. -/
  skipped_due : ∀ date, schedule.Ahead zones now date → (∀ d, schedule.Ahead zones now d → date ≤ d) →
    (∀ instant, zones.local schedule.timezone instant ≠ schedule.runWall date) →
    isDue zones.toTimeZones schedule (schedule.runInstant zones date) = true

theorem findSome?_range {α : Type} {p : ℕ → Prop} [DecidablePred p] {g : ℕ → α} {n k : ℕ} (hk : k < n)
    (hp : p k) (hleast : ∀ j < k, ¬p j) :
    ((List.range n).findSome? fun j => if p j then some (g j) else none) = some (g k) := by
  induction n with
  | zero => omega
  | succ n ih =>
    rw [List.range_succ, List.findSome?_append]
    by_cases hlt : k < n
    · rw [ih hlt]
      rfl
    · obtain rfl : k = n := by omega
      have hnone : ((List.range k).findSome? fun j => if p j then some (g j) else none) = none := by
        rw [List.findSome?_eq_none_iff]
        intro j hj
        rw [if_neg (hleast j (List.mem_range.1 hj))]
      rw [hnone]
      simp [hp]

/-! ## Normalized schedules -/

/-- What normalization ensures of an enabled schedule. -/
structure ScheduleRule.Normal (zones : TimeZones) (schedule : ScheduleRule) (hour minute : ℕ) : Prop where
  enabled : schedule.enabled = true
  known : zones.known schedule.timezone = true
  parsed : parseRunAt schedule.runAt = .ok (hour, minute)
  hour_lt : hour < 24
  minute_lt : minute < 60
  weekdays : ∀ day ∈ schedule.weekdays, 0 ≤ day ∧ day ≤ 6
  nonempty : schedule.weekdays ≠ []

theorem clockField_lt {digits : List Char} {bound n : ℕ} (h : clockField digits bound = some n) : n < bound := by
  unfold clockField at h
  split at h
  · dsimp only at h
    split at h
    · cases h
      assumption
    · cases h
  · cases h

theorem parseRunAt_lt {runAt : String} {hour minute : ℕ} (h : parseRunAt runAt = .ok (hour, minute)) :
    hour < 24 ∧ minute < 60 := by
  unfold parseRunAt at h
  dsimp only at h
  split at h
  next hhour hminute =>
    cases h
    exact ⟨clockField_lt hhour, clockField_lt hminute⟩
  next => cases h

theorem normalizeSchedule_normal {zones : TimeZones} {value : Option StoredSchedule}
    {fallback schedule : ScheduleRule} (h : normalizeSchedule zones value fallback = .ok schedule)
    (henabled : schedule.enabled = true) : ∃ hour minute, schedule.Normal zones hour minute := by
  unfold normalizeSchedule at h
  dsimp only at h
  obtain ⟨⟨hour, minute⟩, hparsed, h⟩ := ok_of_bind h
  split at h
  · cases h
  · split at h
    · cases h
    · split at h
      · cases h
      · rename_i hknown hrange hnonempty
        cases h
        obtain ⟨hhour, hminute⟩ := parseRunAt_lt hparsed
        refine ⟨hour, minute, henabled, by simpa using hknown, hparsed, hhour, hminute, ?_, ?_⟩
        · intro day hday
          have hmem := (List.mem_filter.1 hday).1
          simp only [defaultWeekdays, List.mem_cons, List.not_mem_nil, or_false] at hmem
          omega
        · have hne : (value.getD {}).weekdays.getD fallback.weekdays ≠ [] := fun hnil =>
            hnonempty (by rw [hnil]; simpa using henabled)
          obtain ⟨day, hday⟩ := List.exists_mem_of_ne_nil _ hne
          have hdays : ∀ day ∈ (value.getD {}).weekdays.getD fallback.weekdays, 0 ≤ day ∧ day ≤ 6 := by
            simpa using hrange
          have := hdays day hday
          refine List.ne_nil_of_mem (List.mem_filter.2 ⟨?_, decide_eq_true hday⟩)
          show day ∈ [0, 1, 2, 3, 4, 5, 6]
          simp only [List.mem_cons, List.not_mem_nil, or_false]
          omega

namespace ScheduleRule

variable {zones : WallZones} {schedule : ScheduleRule} {hour minute : ℕ} {now date : ℤ}

theorem weekday_wallTime (date : ℤ) (hhour : hour < 24) (hminute : minute < 60) :
    weekday (wallTime date hour minute) = (date + 3) % 7 := by
  unfold weekday wallTime
  omega

theorem minuteOfDay_wallTime (date : ℤ) (hhour : hour < 24) (hminute : minute < 60) :
    minuteOfDay (wallTime date hour minute) = (60 * hour + minute : ℕ) := by
  unfold minuteOfDay wallTime
  omega

theorem Normal.runWall_eq (h : schedule.Normal zones.toTimeZones hour minute) (date : ℤ) :
    schedule.runWall date = wallTime date hour minute := by
  rw [runWall, h.parsed]

/-- A run ahead of the local clock is on its date or later, and on some date of the next seven days. -/
theorem Ahead.date_le (h : schedule.Normal zones.toTimeZones hour minute) (hahead : schedule.Ahead zones now date) :
    zones.local schedule.timezone now / 86400000000 ≤ date := by
  have hwall := hahead.2
  have := h.hour_lt
  have := h.minute_lt
  rw [h.runWall_eq, wallTime] at hwall
  omega

theorem Normal.exists_ahead (h : schedule.Normal zones.toTimeZones hour minute) (now : ℤ) :
    ∃ k < 8, schedule.Ahead zones now (zones.local schedule.timezone now / 86400000000 + (k : ℕ)) := by
  obtain ⟨day, hday⟩ := List.exists_mem_of_ne_nil _ h.nonempty
  have hrange := h.weekdays day hday
  generalize htoday : zones.local schedule.timezone now / 86400000000 = today
  -- the next date behind today with this weekday
  have hk : ∃ k : ℕ, 1 ≤ k ∧ k < 8 ∧ (today + k + 3) % 7 = day := by
    refine ⟨((day - today - 4) % 7).toNat + 1, ?_, ?_, ?_⟩ <;> omega
  obtain ⟨k, hpos, hlt, hweekday⟩ := hk
  refine ⟨k, hlt, ?_, ?_⟩
  · rw [Allows, hweekday]
    exact hday
  · rw [h.runWall_eq, wallTime]
    omega

/-- The call returns the instant of the first run ahead of the local clock, which there always is. -/
theorem Normal.nextRunAt_eq (h : schedule.Normal zones.toTimeZones hour minute) (now : ℤ) :
    ∃ date, schedule.Ahead zones now date ∧ (∀ d, schedule.Ahead zones now d → date ≤ d) ∧
      nextRunAt zones schedule now = .ok (some (schedule.runInstant zones date)) := by
  classical
  have hexists : ∃ k : ℕ, schedule.Ahead zones now
      (zones.local schedule.timezone now / 86400000000 + (k : ℕ)) := by
    obtain ⟨k, -, hk⟩ := h.exists_ahead now
    exact ⟨k, hk⟩
  have hlt : Nat.find hexists < 8 := by
    obtain ⟨k, hk, hahead⟩ := h.exists_ahead now
    exact (Nat.find_min' hexists hahead).trans_lt hk
  refine ⟨_, Nat.find_spec hexists, fun d hd => ?_, ?_⟩
  · have hdate := hd.date_le h
    have hmin := Nat.find_min' hexists (m := (d - zones.local schedule.timezone now / 86400000000).toNat) (by
      rw [Int.toNat_of_nonneg (by omega), add_sub_cancel]
      exact hd)
    omega
  · have hahead : ∀ k : ℕ, schedule.Ahead zones now
        (zones.local schedule.timezone now / 86400000000 + (k : ℕ)) ↔
        weekday (wallTime (zones.local schedule.timezone now / 86400000000 + (k : ℕ)) hour minute) ∈
            schedule.weekdays ∧
          zones.local schedule.timezone now ≤
            wallTime (zones.local schedule.timezone now / 86400000000 + (k : ℕ)) hour minute := fun k => by
      rw [Ahead, Allows, h.runWall_eq, weekday_wallTime _ h.hour_lt h.minute_lt]
    rw [nextRunAt, if_neg (by simp [h.enabled]), if_neg (by simp [h.known]), bind_ok_eq h.parsed,
      runInstant, h.runWall_eq]
    refine congrArg (fun found => Except.ok found) ?_
    exact findSome?_range hlt ((hahead _).1 (Nat.find_spec hexists)) fun j hj hahead' =>
      Nat.find_min hexists hj ((hahead j).2 hahead')

theorem runInstant_mono {earlier : ℤ} (h : schedule.Normal zones.toTimeZones hour minute) (hle : earlier ≤ date) :
    schedule.runInstant zones earlier ≤ schedule.runInstant zones date := by
  induction date, hle using Int.leInduction with
  | base => exact le_rfl
  | succ date hle ih =>
    have hstep := zones.resolve_next_day schedule.timezone (schedule.runWall date)
    have hwall : schedule.runWall date + 86400000000 = schedule.runWall (date + 1) := by
      rw [h.runWall_eq, h.runWall_eq, wallTime, wallTime]
      omega
    rw [hwall] at hstep
    exact ih.trans hstep

theorem isDue_iff (h : schedule.Normal zones.toTimeZones hour minute) (instant : ℤ) :
    isDue zones.toTimeZones schedule instant = true ↔
      weekday (zones.local schedule.timezone instant) ∈ schedule.weekdays ∧
        (60 * hour + minute : ℕ) ≤ minuteOfDay (zones.local schedule.timezone instant) := by
  rw [isDue, h.enabled, h.parsed]
  simp

/-- At the instant of a run whose time is shown, the schedule is due. -/
theorem isDue_runInstant (h : schedule.Normal zones.toTimeZones hour minute) (hallows : schedule.Allows date)
    (hshown : ∃ instant, zones.local schedule.timezone instant = schedule.runWall date) :
    isDue zones.toTimeZones schedule (schedule.runInstant zones date) = true := by
  obtain ⟨instant, hinstant⟩ := hshown
  have hlocal : zones.local schedule.timezone (schedule.runInstant zones date) = schedule.runWall date :=
    (zones.resolve_shown schedule.timezone instant _ hinstant).2
  rw [isDue_iff h, hlocal, h.runWall_eq, weekday_wallTime _ h.hour_lt h.minute_lt,
    minuteOfDay_wallTime _ h.hour_lt h.minute_lt]
  exact ⟨hallows, le_rfl⟩

end ScheduleRule

open ScheduleRule

/-- An enabled schedule has a next run, and `next_run_at` returns it exactly where the clock agrees with the
instants of the runs. It fails in the second pass of an hour that is shown twice, after a jump over the run
time, and where a skipped run time is moved past midnight to a date that is not allowed. -/
theorem nextRunAt_isNextRun_iff {zones : WallZones} {value : Option StoredSchedule}
    {fallback schedule : ScheduleRule} (hnormal : normalizeSchedule zones.toTimeZones value fallback = .ok schedule)
    (henabled : schedule.enabled = true) (now : ℤ) :
    (∃ t, nextRunAt zones schedule now = .ok (some t) ∧ IsNextRun zones schedule now t) ↔
      ClockAgrees zones schedule now := by
  obtain ⟨hour, minute, h⟩ := normalizeSchedule_normal hnormal henabled
  obtain ⟨date, hahead, hleast, hresult⟩ := h.nextRunAt_eq now
  constructor
  · intro ⟨t, ht, hnext⟩
    cases hresult.symm.trans ht
    refine ⟨fun d hd => ?_, fun d hallows hd => ?_, fun d hd hmin _ => ?_⟩
    · exact hnext.not_before.trans (runInstant_mono h (hleast d hd))
    · have hle : schedule.runInstant zones date ≤ schedule.runInstant zones d := by
        have := hnext.first d hallows
        omega
      by_cases hd_ahead : schedule.Ahead zones now d
      · exact .inl hd_ahead
      · -- a run behind the clock comes no later than the one ahead
        have hwall : schedule.runWall d < schedule.runWall date := by
          have hpassed : ¬zones.local schedule.timezone now ≤ schedule.runWall d := fun hwall =>
            hd_ahead ⟨hallows, hwall⟩
          have := hahead.2
          omega
        have hearlier : d ≤ date := by
          rw [h.runWall_eq, h.runWall_eq, wallTime, wallTime] at hwall
          omega
        exact .inr ⟨date, hahead, le_antisymm hle (runInstant_mono h hearlier)⟩
    · have hsame : d = date := le_antisymm (hmin date hahead) (hleast d hd)
      rw [hsame]
      exact hnext.due
  · intro hagrees
    refine ⟨_, hresult, hagrees.not_repeated date hahead, ?_, fun d hallows ⟨hnow, hlt⟩ => ?_⟩
    · by_cases hshown : ∃ instant, zones.local schedule.timezone instant = schedule.runWall date
      · exact isDue_runInstant h hahead.1 hshown
      · exact hagrees.skipped_due date hahead hleast fun instant heq => hshown ⟨instant, heq⟩
    · have hle : ∀ later, schedule.Ahead zones now later →
          schedule.runInstant zones date ≤ schedule.runInstant zones later := fun later hlater =>
        runInstant_mono h (hleast later hlater)
      rcases hagrees.not_jumped d hallows hnow with hd | ⟨later, hlater, heq⟩
      · have := hle d hd
        omega
      · have := hle later hlater
        omega

/-- A zone with one change of its offset, resolved as `zoneinfo` does: up to the larger of the two local times of
the change, a wall time has the offset before it. -/
def changeZone (before change after : ℤ) (hjump : after ≤ before + 86400000000) : WallZones where
  known _ := true
  offset _ now := if now < change then before else after
  wallOffset _ wall := if wall < change + max before after then before else after
  resolve_shown timezone now wall hwall := by
    split at hwall <;> split <;> split <;> omega
  resolve_next_day timezone wall := by
    split <;> split <;> omega

/-- New York in autumn 2026: at 06:00 UTC on November 1 the clock goes back from 02:00 to 01:00. -/
def newYork2026 : WallZones := changeZone (-14400000000) 1793512800000000 (-18000000000) (by omega)

/-- Every day at 01:45. -/
def nightlyRun : ScheduleRule := ⟨true, "01:45", "America/New_York", [0, 1, 2, 3, 4, 5, 6]⟩

theorem nightlyRun_normal : normalizeSchedule newYork2026.toTimeZones none nightlyRun = .ok nightlyRun := by
  decide

theorem nightlyRun_runWall (date : ℤ) : nightlyRun.runWall date = 86400000000 * date + 6300000000 := by
  have hparsed : parseRunAt nightlyRun.runAt = .ok (1, 45) := by decide
  rw [runWall, hparsed]
  rfl

theorem nightlyRun_runInstant (date : ℤ) :
    nightlyRun.runInstant newYork2026 date =
      if date ≤ 20758 then 86400000000 * date + 20700000000 else 86400000000 * date + 24300000000 := by
  rw [runInstant, nightlyRun_runWall]
  show _ - (if _ < (1793512800000000 : ℤ) + max (-14400000000) (-18000000000) then (-14400000000 : ℤ)
    else -18000000000) = _
  split <;> split <;> omega

/-- On the evening before the change, the run of the night is found. -/
theorem nightlyRun_found :
    ∃ t, nextRunAt newYork2026 nightlyRun 1793491200000000 = .ok (some t) ∧
      IsNextRun newYork2026 nightlyRun 1793491200000000 t := by
  have hlocal : newYork2026.local nightlyRun.timezone 1793491200000000 = 1793476800000000 := by
    decide +kernel
  refine (nextRunAt_isNextRun_iff nightlyRun_normal rfl 1793491200000000).2 ⟨?_, ?_, ?_⟩
  · intro date hahead
    have hwall := hahead.2
    rw [hlocal, nightlyRun_runWall] at hwall
    rw [nightlyRun_runInstant]
    split <;> omega
  · intro date hallows hnow
    refine .inl ⟨hallows, ?_⟩
    rw [nightlyRun_runInstant] at hnow
    rw [hlocal, nightlyRun_runWall]
    split at hnow <;> omega
  · intro date hahead hleast hskipped
    -- the clock is set back, so no time is skipped
    have hshown := hskipped (nightlyRun.runInstant newYork2026 date)
    rw [nightlyRun_runInstant, nightlyRun_runWall] at hshown
    refine absurd ?_ hshown
    show _ + (if _ < (1793512800000000 : ℤ) then (-14400000000 : ℤ) else -18000000000) = _
    split <;> split <;> omega

/-- At 06:30 UTC the clock shows 01:30 for the second time. The run returned is that of 01:45 in the first pass,
45 minutes ago. -/
theorem nightlyRun_behind :
    nextRunAt newYork2026 nightlyRun 1793514600000000 = .ok (some 1793511900000000) ∧
      ¬∃ t, nextRunAt newYork2026 nightlyRun 1793514600000000 = .ok (some t) ∧
        IsNextRun newYork2026 nightlyRun 1793514600000000 t := by
  have hresult : nextRunAt newYork2026 nightlyRun 1793514600000000 = .ok (some 1793511900000000) := by
    decide +kernel
  refine ⟨hresult, fun ⟨t, ht, hnext⟩ => ?_⟩
  cases hresult.symm.trans ht
  have := hnext.not_before
  omega

end Matrades

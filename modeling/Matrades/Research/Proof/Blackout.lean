import Matrades.Research.Archive
import Matrades.Strategies.Proof.Sticky

/-!
# News blackouts across calendar files

The monitor reads the first file that covers the date of the tick; a relevant event in another file
is not seen (`entry_into_release`). A tick that signals keeps the blackout exactly if the file of the
date shows an event whenever some file does, and under the same condition the monitor's calendar and
the merged calendar of a backtest give the same reason (`news_blackout`).
-/

namespace Matrades

open Base

/-! ## Archives -/

/-- The archive after the calls of `save_period`. -/
def saveAll (requests : List SaveRequest) : CalendarArchive := requests.foldl savePeriod Dict.empty

/-- The events lie inside the period. -/
def ArchivedPeriod.Inside (p : ArchivedPeriod) : Prop :=
  ∀ event ∈ p.events, p.covers event.scheduledAt.utcDate = true

theorem mem_sortedFiles {archive : CalendarArchive} {p : ArchivedPeriod} :
    p ∈ sortedFiles archive ↔ p ∈ archive.values := by
  unfold sortedFiles Dict.values
  simp only [List.mem_map, List.mem_insertionSort]

/-- **Every stored period is one that was saved.** -/
theorem mem_saveAll {requests : List SaveRequest} {p : ArchivedPeriod}
    (h : p ∈ (saveAll requests).values) : ∃ r ∈ requests, p = r.period := by
  have hstep : ∀ (rs : List SaveRequest) (archive : CalendarArchive),
      p ∈ (rs.foldl savePeriod archive).values →
        p ∈ archive.values ∨ ∃ r ∈ rs, p = r.period := by
    intro rs
    induction rs with
    | nil => exact fun _ h => .inl h
    | cons r rs ih =>
      intro archive h
      rcases ih _ h with h | ⟨r', hr', hp⟩
      · unfold savePeriod Dict.setDefault at h
        split at h
        · exact .inl h
        · rcases Dict.mem_values_set h with rfl | h
          · exact .inr ⟨r, List.mem_cons_self, rfl⟩
          · exact .inl h
      · exact .inr ⟨r', List.mem_cons_of_mem _ hr', hp⟩
  rcases hstep requests Dict.empty h with h | h
  · cases h
  · exact h

theorem saveAll_inside {requests : List SaveRequest} (h : ∀ r ∈ requests, r.period.Inside)
    {p : ArchivedPeriod} (hp : p ∈ (saveAll requests).values) : p.Inside := by
  obtain ⟨r, hr, rfl⟩ := mem_saveAll hp
  exact h r hr

/-! ## Events near an instant -/

/-- A relevant event of some archived period lies within half an hour of the instant. -/
def NewsNear (archive : CalendarArchive) (instrument : String) (now : AwareTime) : Prop :=
  ∃ p ∈ archive.values, eventNear instrument now p.events = true

/-- The file of the date shows a near event if some file does. -/
def SeenByMonitor (archive : CalendarArchive) (instrument : String) (now : AwareTime) : Prop :=
  NewsNear archive instrument now →
    ∀ events ∈ monitoringCalendar archive now, eventNear instrument now events = true

theorem findCoveringDate_mem {archive : CalendarArchive} {date : ℤ} {p : ArchivedPeriod}
    (h : findCoveringDate archive date = some p) : p ∈ archive.values :=
  mem_sortedFiles.1 (List.mem_of_find?_eq_some h)

/-- An event within half an hour is dated the day before, the day or the day after. -/
theorem utcDate_near {t now : AwareTime} (h : |t.instant - now.instant| ≤ newsWindow) :
    now.utcDate - 1 ≤ t.utcDate ∧ t.utcDate ≤ now.utcDate + 1 := by
  rw [abs_le] at h
  unfold newsWindow at h
  unfold AwareTime.utcDate
  omega

theorem date_utc {now : AwareTime} (h : now.offset = 0) : now.date = now.utcDate := by
  unfold AwareTime.date AwareTime.utcDate
  rw [h, add_zero]

theorem eventNear_iff {instrument : String} {now : AwareTime} {events : List CalendarEvent} :
    eventNear instrument now events = true ↔ ∃ event ∈ events,
      event.concerns instrument = true ∧
        |event.scheduledAt.instant - now.instant| ≤ newsWindow := by
  simp [eventNear]

/-- A merged calendar has the events of all files around its range. -/
theorem mem_historicalCalendar {archive : CalendarArchive} {start finish : AwareTime}
    {calendar : List CalendarEvent} (h : historicalCalendar archive start finish = some calendar)
    {event : CalendarEvent} :
    event ∈ calendar ↔ ∃ p ∈ archive.values, start.date - 1 ≤ p.periodEnd ∧
      p.periodStart ≤ finish.date + 1 ∧ event ∈ p.events := by
  unfold historicalCalendar at h
  dsimp only at h
  split at h
  · cases h
    simp only [List.mem_eraseDups, List.mem_flatMap, List.mem_filter, Bool.and_eq_true,
      decide_eq_true_eq, listPeriods, List.mem_reverse, mem_sortedFiles]
    tauto
  · cases h

section
variable {archive : CalendarArchive} {now : AwareTime} {calendar : List CalendarEvent}
  (hinside : ∀ p ∈ archive.values, p.Inside) (hutc : now.offset = 0)
  (h : historicalCalendar archive now now = some calendar)
include h

/-- A merged calendar exists only where a file covers the date. -/
theorem covered_of_historical : ∃ p, findCoveringDate archive now.date = some p := by
  unfold historicalCalendar at h
  dsimp only at h
  split at h
  · rename_i hall
    have hday : now.date ∈ datesFrom (now.date - 1) (now.date + 1) := by
      unfold datesFrom
      refine List.mem_map.2 ⟨1, List.mem_range.2 (by omega), by push_cast; omega⟩
    obtain ⟨p, hp, hcov⟩ := List.any_eq_true.1 (List.all_eq_true.1 hall _ hday)
    apply Option.isSome_iff_exists.1
    rw [findCoveringDate, List.find?_isSome]
    exact ⟨p, List.mem_reverse.1 hp, hcov⟩
  · cases h

include hinside hutc

/-- **The merged calendar shows every near event of every file.** -/
theorem eventNear_historical {instrument : String} :
    eventNear instrument now calendar = true ↔ NewsNear archive instrument now := by
  unfold NewsNear
  simp only [eventNear_iff]
  constructor
  · intro ⟨event, hmem, hconcerns, hnear⟩
    obtain ⟨p, hp, -, -, he⟩ := (mem_historicalCalendar h).1 hmem
    exact ⟨p, hp, event, he, hconcerns, hnear⟩
  · intro ⟨p, hp, event, he, hconcerns, hnear⟩
    refine ⟨event, (mem_historicalCalendar h).2 ⟨p, hp, ?_⟩, hconcerns, hnear⟩
    have hcov := hinside p hp event he
    have hdate := utcDate_near hnear
    simp only [ArchivedPeriod.covers, Bool.and_eq_true, decide_eq_true_eq] at hcov
    rw [date_utc hutc]
    exact ⟨by omega, by omega, he⟩

end

/-! ## The reason of a tick -/

section
variable {zones : ZoneInfo} {spec : StrategySpecification} {now : AwareTime}

/-- With an event rule only the near events of a calendar matter. -/
theorem eventReason_some (hrule : spec.eventRules ≠ []) (events : List CalendarEvent) :
    eventReason spec now (some events) =
      (eventReason spec now (some [])).or
        (if eventNear spec.instrument now events then
          some "High-impact event within the strategy's 30-minute event window" else none) := by
  unfold eventReason
  split
  · rfl
  · rw [if_neg (by simpa using hrule), if_neg (by simpa using hrule)]
    simp [eventNear]

theorem entryContextReason_some (hrule : spec.eventRules ≠ []) (events : List CalendarEvent) :
    entryContextReason zones spec now (some events) =
      (entryContextReason zones spec now (some [])).or
        (if eventNear spec.instrument now events then
          some "High-impact event within the strategy's 30-minute event window" else none) := by
  unfold entryContextReason
  dsimp only
  split
  · rfl
  split
  · rfl
  split
  · rfl
  split
  · rfl
  · exact eventReason_some hrule events

/-- **An entry is allowed only with a calendar that shows no near event.** -/
theorem calendar_of_allowed {calendar : Option (List CalendarEvent)} (hrule : spec.eventRules ≠ [])
    (h : entryContextReason zones spec now calendar = none) :
    ∃ events, calendar = some events ∧ eventNear spec.instrument now events = false := by
  cases calendar with
  | none =>
    exfalso
    unfold entryContextReason at h
    simp only [eventReason] at h
    split at h
    · cases h
    split at h
    · cases h
    split at h
    · cases h
    split at h
    · cases h
    split at h
    · cases h
    · rw [if_neg (by simpa using hrule)] at h
      cases h
  | some events =>
    refine ⟨events, rfl, ?_⟩
    rw [entryContextReason_some hrule, Option.or_eq_none_iff] at h
    by_contra hnear
    rw [Bool.not_eq_false] at hnear
    rw [if_pos hnear] at h
    cases h.2

/-- Two calendars give the same reason unless only one of them shows a near event. -/
theorem entryContextReason_eq_iff (hrule : spec.eventRules ≠ []) {events events' : List CalendarEvent}
    (hle : eventNear spec.instrument now events' = true →
      eventNear spec.instrument now events = true) :
    entryContextReason zones spec now (some events) =
        entryContextReason zones spec now (some events') ↔
      (entryContextReason zones spec now (some []) = none →
        eventNear spec.instrument now events = true →
          eventNear spec.instrument now events' = true) := by
  rw [entryContextReason_some hrule events, entryContextReason_some hrule events']
  cases entryContextReason zones spec now (some []) with
  | some reason => simp
  | none =>
    cases h : eventNear spec.instrument now events with
    | false =>
      have h' : eventNear spec.instrument now events' = false := by
        rw [Bool.eq_false_iff]
        intro h'
        rw [hle h'] at h
        cases h
      simp [h']
    | true => cases h' : eventNear spec.instrument now events' <;> simp

end

/-! ## The blackout -/

section
variable {library : TechnicalLibrary} {zones : ZoneInfo} {spec : StrategySpecification}
  {tf : Timeframe} {configuration : BacktestConfiguration} {state : ForwardState} {tick : Tick}

/-- The tick shows a signal or records an entry. -/
def Signals (state state' : ForwardState) : Prop :=
  (∃ setup ∈ state'.latestSignal, setup.status = .signal) ∨
    ∃ k ∈ state'.entryIntents.keys, k ∉ state.entryIntents.keys

theorem shownSignal_status {setup : IndicativeSetup} {positionOpen policy missing : Bool}
    {now : AwareTime}
    (h : (shownSignal state setup positionOpen policy missing now).status = .signal) :
    setup.status = .signal := by
  unfold shownSignal at h
  split at h
  · cases h
  split at h
  · cases h
  split at h
  · cases h
  split at h
  · cases h
  · exact h

/-- **A tick signals only where an entry is allowed.** -/
theorem allowed_of_signals {state' : ForwardState}
    (ho : observe library zones spec tf configuration state tick true = .ok state')
    (h : Signals state state') : entryContextReason zones spec tick.now tick.calendar = none := by
  obtain ⟨o, -, rfl⟩ := observe_ok ho
  have hstatus : (o.setup zones spec state tick).status = .signal := by
    rcases h with ⟨setup, hs, hstatus⟩ | ⟨k, hk, hnew⟩
    · cases hs
      exact shownSignal_status hstatus
    · by_contra hno
      change k ∈ (o.intents zones spec tf configuration state tick).keys at hk
      rw [intents_of_no_signal hno] at hk
      exact hnew hk
  have hreason : blockReason zones spec state tick.now tick.calendar true = none := by
    by_contra hne
    exact blockSetup_status hne hstatus
  unfold blockReason at hreason
  split at hreason
  · cases hreason
  split at hreason
  · cases hreason
  · exact hreason

end

/-! ## Two days, two files -/

def blackoutStrategy : StrategySpecification :=
  { alwaysStrategy with eventRules := ["block_high_impact_events"] }

/-- A dollar release at a second of the epoch. -/
def releaseAt (second : ℕ) : CalendarEvent where
  currency := "USD"
  impact := "HIGH"
  scheduledAt := ⟨second * 1000000, 0⟩

def saveRelease (feedUrl : String) (second : ℕ) : SaveRequest where
  events := [releaseAt second]
  feedUrl
  scrapedAt := ⟨43200000000, 0⟩

/-- One file for each day: a release at noon, and one ten minutes into the next day. -/
def dailyFiles : List SaveRequest :=
  [saveRelease "calendar.json" 43200, saveRelease "calendar.json" 87000]

/-- The later release in a file of the week. -/
def weeklyFile : List SaveRequest := [saveRelease "ff_calendar_thisweek.json" 87000]

/-- The tick at 23:45, with the bars before it. -/
def midnightTick : Tick where
  incoming := (List.range 6).map fun n => quarterBar (89 + n) 101 99
  now := ⟨95 * 900000000, 0⟩
  calendar := monitoringCalendar (saveAll dailyFiles) ⟨95 * 900000000, 0⟩

def midnightSignal : Option (Option SetupStatus) :=
  (observe trangeLibrary utcOnly blackoutStrategy quarterHour plainAccount quarterSession midnightTick
    true).toOption.map fun state => state.latestSignal.map IndicativeSetup.status

end Matrades

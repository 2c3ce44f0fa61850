import Mathlib.Data.List.Sort
import Matrades.Base.Dict
import Matrades.Base.Text
import Matrades.Strategies.EntryContext

/-!
# The calendar archive

`modules/research/forex_factory_archive.py` and `modules/strategies/calendar_evidence.py`: an owner's
calendar files, one for each saved period, and the two ways they are read. Dates are numbers of days
since the epoch. A stored file also names its feed and the time of its scrape, which nothing reads.
-/

namespace Matrades

open Base

/-! ## Dates -/

/-- The UTC date of an instant. -/
def AwareTime.utcDate (t : AwareTime) : ℤ := t.instant / 86400000000

/-- Year, month and day of a date from the year 1 on: the calendar repeats after 400 years. -/
def civilDate (date : ℤ) : Nat × Nat × Nat :=
  let (year, month, day) := civil (date + 5 * 146097).toNat
  (year - 2000, month, day)

def fourDigits (n : Nat) : List Char := twoDigits (n / 100) ++ twoDigits n

/-- `period_key` -/
def periodKey (periodStart periodEnd : ℤ) : String :=
  let (year, month, day) := civilDate periodStart
  let (lastYear, lastMonth, lastDay) := civilDate periodEnd
  let behindDay := '-' :: (twoDigits month ++ '-' :: fourDigits year)
  String.ofList <|
    if year = lastYear ∧ month = lastMonth then
      if periodStart = periodEnd then twoDigits day ++ behindDay
      else twoDigits day ++ twoDigits lastDay ++ behindDay
    else
      fourDigits year ++ twoDigits month ++ twoDigits day ++ "_to_".toList ++
        fourDigits lastYear ++ twoDigits lastMonth ++ twoDigits lastDay

example : periodKey 20689 20694 = "2429-08-2026" := by decide
example : periodKey 20694 20701 = "20260829_to_20260905" := by decide

/-- `_week_bounds` -/
def weekBounds (observedAt : AwareTime) : ℤ × ℤ :=
  let current := observedAt.utcDate
  let start := current - (current + 3) % 7
  (start, start + 6)

/-- `period_bounds` -/
def periodBounds (events : List CalendarEvent) (observedAt : AwareTime) (feedUrl : String) : ℤ × ℤ :=
  if (seek "ff_calendar_thisweek".toList feedUrl.toList).isSome then weekBounds observedAt
  else
    let dates := (events.map fun event => event.scheduledAt.utcDate).insertionSort (· ≤ ·)
    match dates.head?, dates.getLast? with
    | some first, some last => (first, last)
    | _, _ => (observedAt.utcDate, observedAt.utcDate)

/-! ## Files -/

structure ArchivedPeriod where
  periodKey : String
  periodStart : ℤ
  periodEnd : ℤ
  events : List CalendarEvent
  deriving DecidableEq

/-- Does the period cover a date? -/
def ArchivedPeriod.covers (p : ArchivedPeriod) (date : ℤ) : Bool :=
  p.periodStart ≤ date && date ≤ p.periodEnd

/-- The files of an owner, by their names. -/
abbrev CalendarArchive := Dict String ArchivedPeriod

/-- A call of `save_period`. -/
structure SaveRequest where
  events : List CalendarEvent
  feedUrl : String
  scrapedAt : AwareTime

def SaveRequest.period (r : SaveRequest) : ArchivedPeriod :=
  let (periodStart, periodEnd) := periodBounds r.events r.scrapedAt r.feedUrl
  { periodKey := Matrades.periodKey periodStart periodEnd, periodStart, periodEnd,
    events := r.events }

/-- `save_period`: a file that exists is never written again. -/
def savePeriod (archive : CalendarArchive) (r : SaveRequest) : CalendarArchive :=
  archive.setDefault (r.period.periodKey ++ ".json") r.period

/-- `sorted(directory.glob("*.json"))` -/
def sortedFiles (archive : CalendarArchive) : List ArchivedPeriod :=
  (archive.entries.insertionSort fun a b => notBehind a.1.toList b.1.toList = true).map Prod.snd

/-- `find_covering_date` -/
def findCoveringDate (archive : CalendarArchive) (date : ℤ) : Option ArchivedPeriod :=
  (sortedFiles archive).find? fun p => p.covers date

/-- `list_periods`: the latest name first. -/
def listPeriods (archive : CalendarArchive) : List ArchivedPeriod := (sortedFiles archive).reverse

/-- The dates from one to another, both included. -/
def datesFrom (first last : ℤ) : List ℤ :=
  (List.range (last - first + 1).toNat).map fun (k : ℕ) => first + k

/-- `historical_calendar`: the events of all periods around the range, if every date is covered. -/
def historicalCalendar (archive : CalendarArchive) (start finish : AwareTime) :
    Option (List CalendarEvent) :=
  let periods := listPeriods archive
  let first := start.date - 1
  let last := finish.date + 1
  let selected := periods.filter fun p => first ≤ p.periodEnd && p.periodStart ≤ last
  if (datesFrom first last).all fun day => periods.any fun p => p.covers day then
    some (selected.flatMap ArchivedPeriod.events).eraseDups
  else none

/-- The calendar `_evaluate` reads for a strategy with event rules. -/
def monitoringCalendar (archive : CalendarArchive) (now : AwareTime) : Option (List CalendarEvent) :=
  (findCoveringDate archive now.date).map ArchivedPeriod.events

end Matrades

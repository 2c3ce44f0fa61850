import Mathlib.Data.List.Induction
import Matrades.Research.Proof.Blackout
import Matrades.Shared.Texts

/-!
# What the calendar archive covers

A file is never written again, and its name determines its period (`periodKey_inj`). For most feeds the
period is the range of the events, so they lie inside it; the weekly feed takes the week of the scrape,
whatever its events are. So an archive holds what it says, and the merged calendars miss nothing,
exactly if each file of the weekly feed was written with events of its week only
(`honest_archive_iff`).
-/

namespace Matrades

open Base

/-! ## Names of files -/

/-- 0001-01-01 and 9999-12-31. -/
def firstDate : ℤ := -719162

def lastDate : ℤ := 2932896

/-- Does the calendar have the date? -/
def InCalendar (date : ℤ) : Prop := firstDate ≤ date ∧ date ≤ lastDate

theorem civilDate_bounds {date : ℤ} (h : InCalendar date) :
    2000 ≤ (civil (date + 5 * 146097).toNat).1 ∧ (civilDate date).1 < 10000 ∧
      (civilDate date).2.1 < 100 ∧ (civilDate date).2.2 < 100 := by
  obtain ⟨hfirst, hlast⟩ := h
  unfold firstDate at hfirst
  unfold lastDate at hlast
  unfold civilDate
  obtain ⟨days, hdays⟩ : ∃ days, (date + 5 * 146097).toNat = days := ⟨_, rfl⟩
  have hlow : 11323 ≤ days := by omega
  have hhigh : days ≤ 3663381 := by omega
  rw [hdays]
  obtain ⟨era, yoe, doy, mp, heq, hyear, hdoy, hmonth, hcivil⟩ := civil_eq days
  obtain ⟨hmp, hstart, hend⟩ := month_spec hdoy
  rw [← hmonth] at hmp hstart hend
  rw [hcivil]
  unfold yearStart at heq
  dsimp only
  by_cases hlate : mp < 10
  · simp only [hlate, if_true, show ¬mp + 3 ≤ 2 by omega, if_false]
    refine ⟨?_, ?_, ?_, ?_⟩ <;> omega
  · simp only [hlate, if_false, show mp - 9 ≤ 2 by omega, if_true]
    refine ⟨?_, ?_, ?_, ?_⟩ <;> omega

/-- Year, month and day determine a date. -/
theorem civilDate_inj {d d' : ℤ} (h : InCalendar d) (h' : InCalendar d')
    (heq : civilDate d = civilDate d') : d = d' := by
  obtain ⟨hyear, -⟩ := civilDate_bounds h
  obtain ⟨hyear', -⟩ := civilDate_bounds h'
  unfold civilDate at heq
  have hn := daysOfCivil_civil (d + 5 * 146097).toNat
  have hn' := daysOfCivil_civil (d' + 5 * 146097).toNat
  revert heq hyear hyear' hn hn'
  generalize civil (d + 5 * 146097).toNat = c
  generalize civil (d' + 5 * 146097).toNat = c'
  intro heq hyear hyear' hn hn'
  obtain ⟨y, m, day⟩ := c
  obtain ⟨y', m', day'⟩ := c'
  simp only [Prod.mk.injEq] at heq
  obtain ⟨hy, rfl, rfl⟩ := heq
  have hsame : y = y' := by
    dsimp only at hyear hyear'
    omega
  subst hsame
  have hdays := hn.symm.trans hn'
  unfold InCalendar firstDate at h h'
  omega

theorem twoDigits_inj {n m : ℕ} (hn : n < 100) (hm : m < 100) (h : twoDigits n = twoDigits m) : n = m := by
  have hleft := takeDigits_two hn []
  rw [h, takeDigits_two hm []] at hleft
  exact (Prod.mk.inj (Option.some.inj hleft)).1.symm

theorem fourDigits_inj {n m : ℕ} (hn : n < 10000) (hm : m < 10000) (h : fourDigits n = fourDigits m) :
    n = m := by
  unfold fourDigits at h
  obtain ⟨hhigh, hlow⟩ := List.append_inj h rfl
  have hdiv : n / 100 = m / 100 := twoDigits_inj (by omega) (by omega) hhigh
  have hmod : twoDigits (n % 100) = twoDigits (m % 100) := by
    simp only [twoDigits, List.cons.injEq, and_true] at hlow ⊢
    rw [show n % 100 / 10 % 10 = n / 10 % 10 by omega, show m % 100 / 10 % 10 = m / 10 % 10 by omega,
      show n % 100 % 10 = n % 10 by omega, show m % 100 % 10 = m % 10 by omega]
    exact hlow
  have hrest : n % 100 = m % 100 := twoDigits_inj (by omega) (by omega) hmod
  omega

/-- A name for the days of one month. -/
def monthName (days : List Char) (month year : ℕ) : List Char :=
  days ++ '-' :: (twoDigits month ++ '-' :: fourDigits year)

/-- A date without separators. -/
def plainDate (date : ℤ) : List Char :=
  fourDigits (civilDate date).1 ++ twoDigits (civilDate date).2.1 ++ twoDigits (civilDate date).2.2

/-- The forms of a name: for a day, for days of one month, and for other days. -/
theorem periodKey_forms (s e : ℤ) :
    (s = e ∧ (periodKey s e).toList =
      monthName (twoDigits (civilDate s).2.2) (civilDate s).2.1 (civilDate s).1) ∨
    ((civilDate s).1 = (civilDate e).1 ∧ (civilDate s).2.1 = (civilDate e).2.1 ∧ (periodKey s e).toList =
      monthName (twoDigits (civilDate s).2.2 ++ twoDigits (civilDate e).2.2) (civilDate s).2.1
        (civilDate s).1) ∨
    (periodKey s e).toList = plainDate s ++ ("_to_".toList ++ plainDate e) := by
  rw [periodKey, String.toList_ofList]
  split
  · rename_i hsame
    split
    · rename_i heq
      exact .inl ⟨heq, rfl⟩
    · refine .inr (.inl ⟨hsame.1, hsame.2, ?_⟩)
      rw [monthName, List.append_assoc]
  · refine .inr (.inr ?_)
    simp only [plainDate, List.append_assoc]

@[simp] theorem twoDigits_length (n : ℕ) : (twoDigits n).length = 2 := rfl

@[simp] theorem fourDigits_length (n : ℕ) : (fourDigits n).length = 4 := rfl

theorem monthName_length (days : List Char) (month year : ℕ) :
    (monthName days month year).length = days.length + 8 := by
  simp [monthName]

theorem plainDate_length (date : ℤ) : (plainDate date).length = 8 := by
  simp [plainDate]

theorem monthName_inj {days days' : List Char} {m m' y y' : ℕ} (hm : m < 100) (hm' : m' < 100)
    (hy : y < 10000) (hy' : y' < 10000) (h : monthName days m y = monthName days' m' y') :
    days = days' ∧ m = m' ∧ y = y' := by
  have hlength : days.length = days'.length := by
    have hsame := congrArg List.length h
    rw [monthName_length, monthName_length] at hsame
    omega
  obtain ⟨hdays, hrest⟩ := List.append_inj h hlength
  obtain ⟨-, hrest⟩ := List.cons.inj hrest
  obtain ⟨hmonth, hyear⟩ := List.append_inj hrest (by simp)
  exact ⟨hdays, twoDigits_inj hm hm' hmonth, fourDigits_inj hy hy' (List.cons.inj hyear).2⟩

theorem plainDate_inj {d d' : ℤ} (h : InCalendar d) (h' : InCalendar d') (heq : plainDate d = plainDate d') :
    d = d' := by
  obtain ⟨-, hy, hm, hd⟩ := civilDate_bounds h
  obtain ⟨-, hy', hm', hd'⟩ := civilDate_bounds h'
  unfold plainDate at heq
  obtain ⟨hrest, hday⟩ := List.append_inj heq (by simp)
  obtain ⟨hyear, hmonth⟩ := List.append_inj hrest (by simp)
  apply civilDate_inj h h'
  exact Prod.ext (fourDigits_inj hy hy' hyear)
    (Prod.ext (twoDigits_inj hm hm' hmonth) (twoDigits_inj hd hd' hday))

/-- **The name of a file determines its period.** -/
theorem periodKey_inj {s e s' e' : ℤ} (hs : InCalendar s) (he : InCalendar e) (hs' : InCalendar s')
    (he' : InCalendar e') (h : periodKey s e = periodKey s' e') : s = s' ∧ e = e' := by
  obtain ⟨-, hys, hms, hds⟩ := civilDate_bounds hs
  obtain ⟨-, -, -, hde⟩ := civilDate_bounds he
  obtain ⟨-, hys', hms', hds'⟩ := civilDate_bounds hs'
  obtain ⟨-, -, -, hde'⟩ := civilDate_bounds he'
  have hsame (hday : twoDigits (civilDate s).2.2 = twoDigits (civilDate s').2.2)
      (hm : (civilDate s).2.1 = (civilDate s').2.1) (hy : (civilDate s).1 = (civilDate s').1) :
      s = s' :=
    civilDate_inj hs hs' (Prod.ext hy (Prod.ext hm (twoDigits_inj hds hds' hday)))
  -- names of different forms have different lengths
  have htext : (periodKey s e).toList = (periodKey s' e').toList := by rw [h]
  have hlength := congrArg List.length htext
  rcases periodKey_forms s e with ⟨heq, hname⟩ | ⟨hy, hm, hname⟩ | hname <;>
    rcases periodKey_forms s' e' with ⟨heq', hname'⟩ | ⟨hy', hm', hname'⟩ | hname' <;>
    rw [hname, hname'] at htext hlength
  · obtain ⟨hday, hm, hy⟩ := monthName_inj hms hms' hys hys' htext
    have hss := hsame hday hm hy
    exact ⟨hss, heq.symm.trans (hss.trans heq')⟩
  · simp [monthName_length] at hlength
  · simp [monthName_length, plainDate_length] at hlength
  · simp [monthName_length] at hlength
  · obtain ⟨hdays, hmonth, hyear⟩ := monthName_inj hms hms' hys hys' htext
    obtain ⟨hday, hlast⟩ := List.append_inj hdays (by simp)
    have hss := hsame hday hmonth hyear
    refine ⟨hss, civilDate_inj he he' (Prod.ext ?_ (Prod.ext ?_ (twoDigits_inj hde hde' hlast)))⟩
    · rw [← hy, ← hy', hss]
    · rw [← hm, ← hm', hss]
  · simp [monthName_length, plainDate_length] at hlength
  · simp [monthName_length, plainDate_length] at hlength
  · simp [monthName_length, plainDate_length] at hlength
  · obtain ⟨hfirst, hrest⟩ := List.append_inj htext (by rw [plainDate_length, plainDate_length])
    exact ⟨plainDate_inj hs hs' hfirst, plainDate_inj he he' (List.append_cancel_left hrest)⟩

/-! ## Periods -/

/-- The file of a call. -/
def SaveRequest.file (r : SaveRequest) : String := r.period.periodKey ++ ".json"

theorem SaveRequest.period_name (r : SaveRequest) :
    r.period.periodKey = Matrades.periodKey r.period.periodStart r.period.periodEnd := rfl

/-- Is the feed the one of the current week? -/
def SaveRequest.weekly (r : SaveRequest) : Bool :=
  (seek "ff_calendar_thisweek".toList r.feedUrl.toList).isSome

/-- All events are in the week of the scrape. -/
def SaveRequest.InWeek (r : SaveRequest) : Prop :=
  ∀ event ∈ r.events, (weekBounds r.scrapedAt).1 ≤ event.scheduledAt.utcDate ∧
    event.scheduledAt.utcDate ≤ (weekBounds r.scrapedAt).2

/-- The first and the last of sorted dates. -/
theorem sorted_bounds {dates : List ℤ} (hsorted : dates.Pairwise (· ≤ ·)) {first last date : ℤ}
    (hfirst : dates.head? = some first) (hlast : dates.getLast? = some last) (hdate : date ∈ dates) :
    first ≤ date ∧ date ≤ last := by
  constructor
  · obtain ⟨rest, rfl⟩ := List.head?_eq_some_iff.1 hfirst
    rcases List.mem_cons.1 hdate with rfl | hmem
    · exact le_refl _
    · exact List.rel_of_pairwise_cons hsorted hmem
  · obtain ⟨rest, rfl⟩ := List.getLast?_eq_some_iff.1 hlast
    rcases List.mem_append.1 hdate with hmem | hmem
    · exact (List.pairwise_append.1 hsorted).2.2 _ hmem _ (List.mem_singleton_self _)
    · rw [List.mem_singleton.1 hmem]

/-- **A period covers its events, except that the weekly feed may have others.** -/
theorem SaveRequest.inside_iff (r : SaveRequest) :
    r.period.Inside ↔ (r.weekly = true → r.InWeek) := by
  unfold ArchivedPeriod.Inside SaveRequest.period SaveRequest.weekly SaveRequest.InWeek
  simp only [ArchivedPeriod.covers, Bool.and_eq_true, decide_eq_true_eq, periodBounds]
  by_cases hweekly : (seek "ff_calendar_thisweek".toList r.feedUrl.toList).isSome = true
  · simp only [hweekly, if_true, true_implies]
  · simp only [hweekly, Bool.false_eq_true, if_false, false_implies, iff_true]
    intro event hevent
    have hsorted := List.pairwise_insertionSort (· ≤ ·)
      (r.events.map fun event => event.scheduledAt.utcDate)
    have hdate : event.scheduledAt.utcDate ∈
        (r.events.map fun event => event.scheduledAt.utcDate).insertionSort (· ≤ ·) :=
      (List.mem_insertionSort _).2 (List.mem_map_of_mem hevent)
    revert hsorted hdate
    generalize (r.events.map fun event => event.scheduledAt.utcDate).insertionSort (· ≤ ·) = dates
    intro hsorted hdate
    cases hfirst : dates.head? with
    | none =>
      rw [List.head?_eq_none_iff.1 hfirst] at hdate
      cases hdate
    | some first =>
      cases hlast : dates.getLast? with
      | none =>
        rw [List.getLast?_eq_none_iff.1 hlast] at hdate
        cases hdate
      | some last => exact sorted_bounds hsorted hfirst hlast hdate

/-! ## Files -/

theorem saveAll_append (earlier later : List SaveRequest) :
    saveAll (earlier ++ later) = later.foldl savePeriod (saveAll earlier) := List.foldl_append

/-- **A file that is there is never changed.** -/
theorem saveAll_kept (earlier later : List SaveRequest) {name : String} {p : ArchivedPeriod}
    (h : (saveAll earlier).get? name = some p) : (saveAll (earlier ++ later)).get? name = some p := by
  rw [saveAll_append]
  generalize saveAll earlier = archive at h
  induction later generalizing archive with
  | nil => exact h
  | cons r later ih => exact ih _ (Dict.get?_setDefault_some h _ _)

/-- The call writes its file after the earlier ones. -/
def WritesFile (earlier : List SaveRequest) (r : SaveRequest) : Prop := (saveAll earlier).get? r.file = none

theorem WritesFile.stored {earlier : List SaveRequest} {r : SaveRequest} (h : WritesFile earlier r)
    (later : List SaveRequest) : (saveAll (earlier ++ r :: later)).get? r.file = some r.period := by
  have hwritten : (saveAll (earlier ++ [r])).get? r.file = some r.period := by
    rw [saveAll_append]
    show ((saveAll earlier).setDefault r.file r.period).get? r.file = _
    rw [Dict.get?_setDefault, if_pos rfl, h]
    rfl
  have hkept := saveAll_kept (earlier ++ [r]) later hwritten
  rwa [List.append_assoc, List.singleton_append] at hkept

/-- **The stored periods are those of the calls that wrote a file.** -/
theorem written_of_saveAll {requests : List SaveRequest} {p : ArchivedPeriod}
    (h : p ∈ (saveAll requests).values) :
    ∃ earlier r later, requests = earlier ++ r :: later ∧ WritesFile earlier r ∧ p = r.period := by
  induction requests using List.reverseRecOn with
  | nil => cases h
  | append_singleton requests r ih =>
    have hearlier (hp : p ∈ (saveAll requests).values) :
        ∃ earlier r' later, requests ++ [r] = earlier ++ r' :: later ∧ WritesFile earlier r' ∧
          p = r'.period := by
      obtain ⟨earlier, r', later, hsplit, hwrites, heq⟩ := ih hp
      refine ⟨earlier, r', later ++ [r], ?_, hwrites, heq⟩
      rw [hsplit, List.append_assoc, List.cons_append]
    rw [saveAll_append] at h
    replace h : p ∈ ((saveAll requests).setDefault r.file r.period).values := h
    unfold Dict.setDefault at h
    split at h
    · exact hearlier h
    · rename_i hnew
      rcases Dict.mem_values_set h with rfl | hp
      · exact ⟨requests, r, [], rfl, Option.not_isSome_iff_eq_none.1 hnew, rfl⟩
      · exact hearlier hp

/-! ## What an archive promises -/

/-- The time is within half an hour of an instant between the two. -/
def NearRange (t start finish : AwareTime) : Prop :=
  ∃ i, start.instant ≤ i ∧ i ≤ finish.instant ∧ |t.instant - i| ≤ newsWindow

/-- The archive after the calls: its files are kept, their names and periods belong together, they cover
their events, and the merged calendars miss none of them. -/
structure HonestArchive (requests : List SaveRequest) : Prop where
  kept : ∀ earlier later name p, requests = earlier ++ later →
    (saveAll earlier).get? name = some p → (saveAll requests).get? name = some p
  apart : ∀ r ∈ requests, ∀ r' ∈ requests, r.file = r'.file →
    r.period.periodStart = r'.period.periodStart ∧ r.period.periodEnd = r'.period.periodEnd
  inside : ∀ p ∈ (saveAll requests).values, p.Inside
  complete : ∀ start finish : AwareTime, start.offset = 0 → finish.offset = 0 →
    start.instant ≤ finish.instant → ∀ calendar,
      historicalCalendar (saveAll requests) start finish = some calendar →
        ∀ p ∈ (saveAll requests).values, ∀ event ∈ p.events,
          NearRange event.scheduledAt start finish → event ∈ calendar

/-- What the weekly feed writes is of its week. -/
def WeeklyFilesInWeek (requests : List SaveRequest) : Prop :=
  ∀ earlier r later, requests = earlier ++ r :: later → WritesFile earlier r → r.weekly = true → r.InWeek

/-- Files that cover their events lose none of them. -/
theorem complete_of_inside {archive : CalendarArchive} (hinside : ∀ p ∈ archive.values, p.Inside)
    {start finish : AwareTime} (hstart : start.offset = 0) (hfinish : finish.offset = 0)
    {calendar : List CalendarEvent} (h : historicalCalendar archive start finish = some calendar)
    {p : ArchivedPeriod} (hp : p ∈ archive.values) {event : CalendarEvent} (hevent : event ∈ p.events)
    (hnear : NearRange event.scheduledAt start finish) : event ∈ calendar := by
  obtain ⟨i, hlow, hhigh, hi⟩ := hnear
  have hcovers := hinside p hp event hevent
  simp only [ArchivedPeriod.covers, Bool.and_eq_true, decide_eq_true_eq] at hcovers
  rw [abs_le] at hi
  refine (mem_historicalCalendar h).2 ⟨p, hp, ?_, ?_, hevent⟩
  · have hdate : start.date - 1 ≤ event.scheduledAt.utcDate := by
      unfold AwareTime.date AwareTime.utcDate
      unfold newsWindow at hi
      omega
    omega
  · have hdate : event.scheduledAt.utcDate ≤ finish.date + 1 := by
      unfold AwareTime.date AwareTime.utcDate
      unfold newsWindow at hi
      omega
    omega

/-- **An archive is honest exactly if the weekly feed only wrote events of its weeks.** -/
theorem honest_archive_iff {requests : List SaveRequest}
    (hvalid : ∀ r ∈ requests, InCalendar r.period.periodStart ∧ InCalendar r.period.periodEnd) :
    HonestArchive requests ↔ WeeklyFilesInWeek requests := by
  constructor
  · intro h earlier r later hsplit hwrites
    have hstored := hwrites.stored later
    rw [← hsplit] at hstored
    have hmem : r.period ∈ (saveAll requests).values :=
      List.mem_map.2 ⟨(r.file, r.period), Dict.mem_of_lookup hstored, rfl⟩
    exact r.inside_iff.1 (h.inside _ hmem)
  · intro h
    have hinside : ∀ p ∈ (saveAll requests).values, p.Inside := by
      intro p hp
      obtain ⟨earlier, r, later, hsplit, hwrites, rfl⟩ := written_of_saveAll hp
      exact r.inside_iff.2 (h earlier r later hsplit hwrites)
    refine ⟨?_, ?_, hinside, ?_⟩
    · intro earlier later name p hsplit hp
      rw [hsplit]
      exact saveAll_kept earlier later hp
    · intro r hr r' hr' hfile
      obtain ⟨hs, he⟩ := hvalid r hr
      obtain ⟨hs', he'⟩ := hvalid r' hr'
      unfold SaveRequest.file at hfile
      rw [r.period_name, r'.period_name] at hfile
      exact periodKey_inj hs he hs' he' ((String.append_left_inj _).1 hfile)
    · intro start finish hstart hfinish _ calendar hcalendar p hp event hevent hnear
      exact complete_of_inside hinside hstart hfinish hcalendar hp hevent hnear

/-! ## A feed that lags behind -/

/-- A release at noon of a day. -/
def noonRelease (date : ℤ) : CalendarEvent where
  currency := "USD"
  impact := "high"
  scheduledAt := ⟨date * 86400000000 + 43200000000, 0⟩

def weeklyScrape (date : ℤ) (events : List CalendarEvent) : SaveRequest where
  events
  feedUrl := "ff_calendar_thisweek.json"
  scrapedAt := ⟨date * 86400000000, 0⟩

/-- Monday, 17 August 2026, and a week later, when the feed still shows Wednesday, 19 August. -/
def laggingScrapes : List SaveRequest := [weeklyScrape 20682 [], weeklyScrape 20689 [noonRelease 20684]]

/-- **The week from 24 August holds a release of 19 August**, and a backtest of that day does not see
it. -/
theorem lagging_feed_hides : ¬HonestArchive laggingScrapes ∧
    historicalCalendar (saveAll laggingScrapes) (noonRelease 20684).scheduledAt
      (noonRelease 20684).scheduledAt = some [] := by
  have hcalendar : historicalCalendar (saveAll laggingScrapes) (noonRelease 20684).scheduledAt
      (noonRelease 20684).scheduledAt = some [] := by decide +kernel
  have hstored : (weeklyScrape 20689 [noonRelease 20684]).period ∈ (saveAll laggingScrapes).values := by
    decide +kernel
  refine ⟨fun h => ?_, hcalendar⟩
  have hseen := h.complete _ _ rfl rfl le_rfl [] hcalendar _ hstored (noonRelease 20684)
    (List.mem_singleton_self _) ⟨_, le_rfl, le_rfl, by simp [newsWindow]⟩
  cases hseen

/-- The same scrapes, with a feed of the second week. -/
def currentScrapes : List SaveRequest := [weeklyScrape 20682 [], weeklyScrape 20689 [noonRelease 20691]]

theorem honest_archive_iff_current : HonestArchive currentScrapes := by
  have hvalid : ∀ r ∈ currentScrapes,
      InCalendar r.period.periodStart ∧ InCalendar r.period.periodEnd := by
    unfold InCalendar
    decide +kernel
  apply (honest_archive_iff hvalid).2
  intro earlier r later hsplit _ _
  have hr : r ∈ currentScrapes := by
    rw [hsplit]
    simp
  have hall : ∀ r ∈ currentScrapes, ∀ event ∈ r.events,
      (weekBounds r.scrapedAt).1 ≤ event.scheduledAt.utcDate ∧
        event.scheduledAt.utcDate ≤ (weekBounds r.scrapedAt).2 := by
    decide +kernel
  exact hall r hr

end Matrades

import Mathlib.Order.Monotone.Basic
import Matrades.Base.Codec
import Matrades.Shared.DomainTypes

/-!
# Identifiers and instants as texts

The texts that identifiers and instants are stored as are read back as the same values
(`Uuid.parse?_chars`, `parseInstant?_isoInstant`). The date of a day is turned back into the day:
without the leap days the days grow evenly with the years (`plainDays_yearStart`), so the year of a day
is the one the day is in (`yearOfEra_spec`).
-/

namespace Matrades

open Base

/-! ## Identifiers -/

namespace Uuid

theorem hexValue_digitChar : ∀ d < 16, hexValue (Nat.digitChar d) = some d := by decide

theorem digitChar_ne_hyphen : ∀ d < 16, Nat.digitChar d ≠ '-' := by decide

/-- Hexadecimal digits are read as the number they are of. -/
theorem mapM_hexDigits (len n : Nat) : ∃ ds, (hexDigits len n).mapM hexValue = some ds ∧
    ds.foldl (fun n d => 16 * n + d) 0 = n % 16 ^ len := by
  induction len generalizing n with
  | zero => exact ⟨[], rfl, (Nat.mod_one n).symm⟩
  | succ len ih =>
    obtain ⟨ds, hds, hvalue⟩ := ih (n / 16)
    refine ⟨ds ++ [n % 16], ?_, ?_⟩
    · rw [hexDigits, List.mapM_append, hds, List.mapM_cons, hexValue_digitChar _ (Nat.mod_lt n (by decide))]
      rfl
    · rw [List.foldl_append, hvalue, List.foldl_cons, List.foldl_nil, Nat.pow_succ', Nat.mod_mul]
      omega

theorem hyphen_not_mem (len n : Nat) : '-' ∉ hexDigits len n := by
  induction len generalizing n with
  | zero => exact List.not_mem_nil
  | succ len ih =>
    intro hmem
    rcases List.mem_append.1 hmem with hmem | hmem
    · exact ih (n / 16) hmem
    · exact digitChar_ne_hyphen _ (Nat.mod_lt n (by decide)) (List.mem_singleton.1 hmem).symm

theorem hyphenated_chars (u : Uuid) : hyphenated u.chars = true := by
  simp [hyphenated, chars, List.getElem?_append, List.getElem?_cons]

/-- The hyphens aside, the text is the digits. -/
theorem filter_chars (u : Uuid) : u.chars.filter (· ≠ '-') = hexDigits 32 u.bits.toNat := by
  have hplain : ∀ cs : List Char, (∀ c ∈ cs, c ∈ hexDigits 32 u.bits.toNat) → cs.filter (· ≠ '-') = cs := by
    intro cs hcs
    refine List.filter_eq_self.2 fun c hc => decide_eq_true fun heq => ?_
    exact hyphen_not_mem 32 u.bits.toNat (heq ▸ hcs c hc)
  have htake : ∀ m n, (((hexDigits 32 u.bits.toNat).drop m).take n).filter (· ≠ '-') =
      ((hexDigits 32 u.bits.toNat).drop m).take n :=
    fun m n => hplain _ fun c hc => List.mem_of_mem_drop (List.mem_of_mem_take hc)
  have hsplit : ∀ (cs : List Char) (n k : Nat), (cs.drop n).take k ++ cs.drop (n + k) = cs.drop n := by
    intro cs n k
    rw [← List.drop_drop, List.take_append_drop]
  have hrest : ((hexDigits 32 u.bits.toNat).drop 20).filter (· ≠ '-') =
      (hexDigits 32 u.bits.toNat).drop 20 := hplain _ fun c hc => List.mem_of_mem_drop hc
  have hskip : ∀ cs : List Char, ('-' :: cs).filter (· ≠ '-') = cs.filter (· ≠ '-') := fun _ => rfl
  have hfirst := htake 0 8
  rw [List.drop_zero] at hfirst
  rw [chars]
  simp only [List.filter_append, hskip]
  rw [hfirst, htake 8 4, htake 12 4, htake 16 4, hrest, hsplit _ 16 4, hsplit _ 12 4, hsplit _ 8 4,
    List.take_append_drop]

theorem parse?_chars (u : Uuid) : parse? u.chars = some u := by
  obtain ⟨ds, hds, hvalue⟩ := mapM_hexDigits 32 u.bits.toNat
  have hnumber : u.bits.toNat % 16 ^ 32 = u.bits.toNat :=
    Nat.mod_eq_of_lt (u.bits.isLt.trans_le (by decide))
  rw [parse?, hyphenated_chars, if_pos rfl, filter_chars]
  rw [if_pos (hexDigits_length 32 _), hds, Option.map_some, hvalue, hnumber, ofNat, BitVec.ofNat_toNat,
    BitVec.setWidth_eq]

/-- An identifier is stored as its text. -/
def codec : Codec Uuid where
  dump u := .str u.str
  load
    | .str s => parse? s.toList
    | _ => none
  back := id
  load_dump := by
    intro u
    show parse? u.str.toList = some u
    rw [str, String.toList_ofList, parse?_chars]
  dump_back := fun _ => rfl

instance : codec.Exact := ⟨fun _ => rfl⟩

end Uuid

/-! ## Dates -/

/-- The day number of a year, a month and a day. -/
def daysOfCivil (y m d : Nat) : Nat :=
  let y' := if m ≤ 2 then y - 1 else y
  let yoe := y' % 400
  let mp := if m ≤ 2 then m + 9 else m - 3
  let doy := (153 * mp + 2) / 5 + d - 1
  365 * yoe + yoe / 4 - yoe / 100 + doy + y' / 400 * 146097 - 719468

/-- The days of an era before one of its years. -/
def yearStart (yoe : Nat) : Nat := 365 * yoe + yoe / 4 - yoe / 100

/-- The days before a day of an era, without the leap days. -/
def plainDays (doe : Nat) : Nat := doe - doe / 1460 + doe / 36524 - doe / 146096

theorem plainDays_succ (doe : Nat) : plainDays doe ≤ plainDays (doe + 1) := by
  unfold plainDays
  omega

theorem plainDays_mono : Monotone plainDays := monotone_nat_of_le_succ plainDays_succ

/-- A year starts with the first day that is that many years behind. -/
theorem plainDays_yearStart : ∀ yoe < 400, 365 * yoe ≤ plainDays (yearStart yoe) ∧
    (yoe = 0 ∨ plainDays (yearStart yoe - 1) < 365 * yoe) := by
  decide +kernel

theorem yearStart_succ (yoe : Nat) : yearStart (yoe + 1) ≤ yearStart yoe + 366 := by
  unfold yearStart
  omega

/-- The year of a day of an era starts at most a year before the day. -/
theorem yearOfEra_spec {doe : Nat} (h : doe < 146097) :
    plainDays doe / 365 < 400 ∧ yearStart (plainDays doe / 365) ≤ doe ∧
      doe < yearStart (plainDays doe / 365) + 366 := by
  have hlast : plainDays doe ≤ plainDays 146096 := plainDays_mono (by omega)
  have hyear : plainDays doe / 365 < 400 := by
    have heq : plainDays 146096 = 145999 := by decide
    omega
  obtain ⟨_, hbefore⟩ := plainDays_yearStart (plainDays doe / 365) hyear
  refine ⟨hyear, ?_, ?_⟩
  · by_contra hlate
    rcases hbefore with hzero | hbefore
    · rw [hzero] at hlate
      exact hlate (Nat.zero_le _)
    · have hmono := plainDays_mono (show doe ≤ yearStart (plainDays doe / 365) - 1 by omega)
      omega
  · by_contra hlate
    have hsucc := yearStart_succ (plainDays doe / 365)
    by_cases hera : plainDays doe / 365 = 399
    · have heq : yearStart 399 = 145731 := by decide
      rw [hera, heq] at hlate
      omega
    · obtain ⟨hafter, _⟩ := plainDays_yearStart (plainDays doe / 365 + 1) (by omega)
      have hmono := plainDays_mono (show yearStart (plainDays doe / 365 + 1) ≤ doe by omega)
      omega

/-- The month of a day of a year that starts in March. -/
theorem month_spec {doy : Nat} (h : doy < 366) :
    (5 * doy + 2) / 153 < 12 ∧ (153 * ((5 * doy + 2) / 153) + 2) / 5 ≤ doy ∧
      doy - (153 * ((5 * doy + 2) / 153) + 2) / 5 < 31 := by
  omega

theorem civil_eq (days : Nat) : ∃ era yoe doy mp, days + 719468 = yearStart yoe + doy + era * 146097 ∧
    yoe < 400 ∧ doy < 366 ∧ mp = (5 * doy + 2) / 153 ∧
    civil days = (yoe + era * 400 + (if (if mp < 10 then mp + 3 else mp - 9) ≤ 2 then 1 else 0),
      (if mp < 10 then mp + 3 else mp - 9), doy - (153 * mp + 2) / 5 + 1) := by
  have hera : (days + 719468) % 146097 < 146097 := Nat.mod_lt _ (by decide)
  obtain ⟨hyear, hstart, hend⟩ := yearOfEra_spec hera
  refine ⟨(days + 719468) / 146097, plainDays ((days + 719468) % 146097) / 365,
    (days + 719468) % 146097 - yearStart (plainDays ((days + 719468) % 146097) / 365), _, ?_, hyear, ?_,
    rfl, rfl⟩
  · omega
  · omega

theorem daysOfCivil_civil (days : Nat) :
    daysOfCivil (civil days).1 (civil days).2.1 (civil days).2.2 = days := by
  obtain ⟨era, yoe, doy, mp, hdays, hyear, hdoy, hmonth, hcivil⟩ := civil_eq days
  obtain ⟨hmp, hfirst, _⟩ := month_spec hdoy
  rw [hcivil]
  unfold yearStart at hdays
  unfold daysOfCivil
  dsimp only
  rw [← hmonth] at hmp hfirst
  by_cases hlate : mp < 10
  · simp only [hlate, if_true, show ¬mp + 3 ≤ 2 by omega, if_false, Nat.add_zero, Nat.add_sub_cancel]
    rw [show (yoe + era * 400) % 400 = yoe by omega, show (yoe + era * 400) / 400 = era by omega]
    omega
  · simp only [hlate, if_false, show mp - 9 ≤ 2 by omega, if_true, Nat.add_sub_cancel]
    rw [show (yoe + era * 400) % 400 = yoe by omega, show (yoe + era * 400) / 400 = era by omega,
      show mp - 9 + 9 = mp by omega]
    omega

/-- The date of a day before the year 10000. -/
theorem civil_bounds {days : Nat} (h : days < 2932897) :
    (civil days).1 < 10000 ∧ (civil days).2.1 < 13 ∧ (civil days).2.2 < 32 := by
  obtain ⟨era, yoe, doy, mp, hdays, hyear, hdoy, hmonth, hcivil⟩ := civil_eq days
  obtain ⟨hmp, hfirst, hlast⟩ := month_spec hdoy
  rw [← hmonth] at hmp hfirst hlast
  rw [hcivil]
  unfold yearStart at hdays
  dsimp only
  refine ⟨?_, ?_, ?_⟩
  · by_cases hlate : mp < 10
    · simp only [hlate, if_true, show ¬mp + 3 ≤ 2 by omega, if_false]
      omega
    · simp only [hlate, if_false, show mp - 9 ≤ 2 by omega, if_true]
      omega
  · by_cases hlate : mp < 10
    · rw [if_pos hlate]
      omega
    · rw [if_neg hlate]
      omega
  · omega

/-! ## Texts of instants -/

/-- The text of a date, `2026-01-01`. -/
def isoDate (y m d : Nat) : List Char :=
  twoDigits (y / 100) ++ (twoDigits y ++ '-' :: (twoDigits m ++ '-' :: twoDigits d))

/-- The text of a second of a day, `00:00:00`. -/
def isoClock (s : Nat) : List Char :=
  twoDigits (s / 3600) ++ ':' :: (twoDigits (s % 3600 / 60) ++ ':' :: twoDigits (s % 60))

/-- Microseconds are written where there are any. -/
def isoFraction (micros : Nat) : List Char :=
  if micros = 0 then []
  else '.' :: (twoDigits (micros / 10000) ++ (twoDigits (micros / 100) ++ twoDigits micros))

/-- The text of an instant. -/
def isoInstant (t : Time) : List Char :=
  let (y, m, d) := civil (t / second / 86400)
  isoDate y m d ++ 'T' :: (isoClock (t / second % 86400) ++ (isoFraction (t % second) ++ ['Z']))

example : isoInstant (1767225600 * second + 1500) = "2026-01-01T00:00:00.001500Z".toList := by decide

/-- With whole seconds it is the text of `isoTime`. -/
theorem isoInstant_seconds {t : Time} (h : t % second = 0) : isoInstant t = isoTime t := by
  have hminutes : t / second % 86400 % 3600 = t / second % 3600 := Nat.mod_mod_of_dvd _ (by decide)
  have hseconds : t / second % 86400 % 60 = t / second % 60 := Nat.mod_mod_of_dvd _ (by decide)
  simp [isoInstant, isoDate, isoClock, isoFraction, isoTime, h, hminutes, hseconds]

/-- A numeral of so many digits, and the rest. -/
def takeDigits (n : Nat) (cs : List Char) : Option (Nat × List Char) :=
  if (cs.take n).length = n ∧ (cs.take n).all Char.isDigit then
    some (ofDigits ((cs.take n).map digitOf), cs.drop n)
  else none

/-- The rest behind a character. -/
def takeChar (c : Char) : List Char → Option (List Char)
  | d :: cs => if d = c then some cs else none
  | [] => none

/-- Year, month and day of a date, and the rest. -/
def takeDate (cs : List Char) : Option ((Nat × Nat × Nat) × List Char) := do
  let (y, cs) ← takeDigits 4 cs
  let (m, cs) ← takeChar '-' cs >>= takeDigits 2
  let (d, cs) ← takeChar '-' cs >>= takeDigits 2
  some ((y, m, d), cs)

/-- The second of a day, and the rest. -/
def takeClock (cs : List Char) : Option (Nat × List Char) := do
  let (hours, cs) ← takeDigits 2 cs
  let (minutes, cs) ← takeChar ':' cs >>= takeDigits 2
  let (seconds, cs) ← takeChar ':' cs >>= takeDigits 2
  if hours < 24 ∧ minutes < 60 ∧ seconds < 60 then
    some (hours * 3600 + minutes * 60 + seconds, cs)
  else none

/-- The microseconds, and the rest. -/
def takeFraction (cs : List Char) : Option (Nat × List Char) :=
  match takeChar '.' cs with
  | some cs => takeDigits 6 cs
  | none => some (0, cs)

/-- The day of a date of the calendar. -/
def dayOf? (date : Nat × Nat × Nat) : Option Nat :=
  let days := daysOfCivil date.1 date.2.1 date.2.2
  if civil days = date then some days else none

/-- The instant a text is of, in the form that `isoInstant` writes. -/
def parseInstant? (cs : List Char) : Option Time := do
  let (date, cs) ← takeDate cs
  let (seconds, cs) ← takeChar 'T' cs >>= takeClock
  let (micros, cs) ← takeFraction cs
  if cs = ['Z'] then (dayOf? date).map fun days => (days * 86400 + seconds) * second + micros else none

theorem takeDigits_append {ds : List Char} {n : Nat} (hlength : ds.length = n)
    (hdigits : ds.all Char.isDigit = true) (rest : List Char) :
    takeDigits n (ds ++ rest) = some (ofDigits (ds.map digitOf), rest) := by
  subst hlength
  rw [takeDigits, List.take_left, List.drop_left, if_pos ⟨rfl, hdigits⟩]

theorem takeChar_cons (c : Char) (cs : List Char) : takeChar c (c :: cs) = some cs := if_pos rfl

theorem digitChar_digit : ∀ d < 10, (Nat.digitChar d).isDigit = true ∧ digitOf (Nat.digitChar d) = d := by
  decide

theorem twoDigits_isDigit (n : Nat) : (twoDigits n).all Char.isDigit = true := by
  simp [twoDigits, digitChar_digit _ (Nat.mod_lt _ (by decide : 0 < 10))]

theorem map_twoDigits (n : Nat) : (twoDigits n).map digitOf = [n / 10 % 10, n % 10] := by
  simp [twoDigits, digitChar_digit _ (Nat.mod_lt _ (by decide : 0 < 10))]

theorem takeDigits_two {n : Nat} (h : n < 100) (rest : List Char) :
    takeDigits 2 (twoDigits n ++ rest) = some (n, rest) := by
  rw [takeDigits_append (n := 2) rfl (twoDigits_isDigit n), map_twoDigits]
  have hvalue : ofDigits [n / 10 % 10, n % 10] = n := by
    simp only [ofDigits, List.foldl_cons, List.foldl_nil]
    omega
  rw [hvalue]

theorem takeDigits_four {n : Nat} (h : n < 10000) (rest : List Char) :
    takeDigits 4 (twoDigits (n / 100) ++ (twoDigits n ++ rest)) = some (n, rest) := by
  rw [← List.append_assoc, takeDigits_append (n := 4) rfl (by simp [twoDigits_isDigit]),
    List.map_append, map_twoDigits, map_twoDigits]
  have hvalue : ofDigits ([n / 100 / 10 % 10, n / 100 % 10] ++ [n / 10 % 10, n % 10]) = n := by
    simp only [ofDigits, List.cons_append, List.nil_append, List.foldl_cons, List.foldl_nil]
    omega
  rw [hvalue]

theorem takeDigits_six {n : Nat} (h : n < 1000000) (rest : List Char) :
    takeDigits 6 (twoDigits (n / 10000) ++ (twoDigits (n / 100) ++ (twoDigits n ++ rest))) =
      some (n, rest) := by
  rw [← List.append_assoc, ← List.append_assoc, takeDigits_append (n := 6) rfl
    (by simp [twoDigits_isDigit]), List.map_append, List.map_append, map_twoDigits, map_twoDigits, map_twoDigits]
  have hvalue : ofDigits ([n / 10000 / 10 % 10, n / 10000 % 10] ++ [n / 100 / 10 % 10, n / 100 % 10] ++
      [n / 10 % 10, n % 10]) = n := by
    simp only [ofDigits, List.cons_append, List.nil_append, List.foldl_cons, List.foldl_nil]
    omega
  rw [hvalue]

theorem takeDate_isoDate {y m d : Nat} (hyear : y < 10000) (hmonth : m < 100) (hday : d < 100)
    (rest : List Char) : takeDate (isoDate y m d ++ rest) = some ((y, m, d), rest) := by
  have htext : isoDate y m d ++ rest = twoDigits (y / 100) ++ (twoDigits y ++
      '-' :: (twoDigits m ++ '-' :: (twoDigits d ++ rest))) := by
    simp [isoDate]
  rw [htext, takeDate, takeDigits_four hyear]
  simp only [Option.bind_eq_bind, Option.bind_some, takeChar_cons]
  rw [takeDigits_two hmonth]
  simp only [Option.bind_some, takeChar_cons]
  rw [takeDigits_two hday]
  rfl

theorem dayOf?_civil (days : Nat) : dayOf? (civil days) = some days := by
  unfold dayOf?
  rw [daysOfCivil_civil]
  exact if_pos rfl

theorem takeClock_isoClock {s : Nat} (h : s < 86400) (rest : List Char) :
    takeClock (isoClock s ++ rest) = some (s, rest) := by
  have htext : isoClock s ++ rest = twoDigits (s / 3600) ++ ':' :: (twoDigits (s % 3600 / 60) ++
      ':' :: (twoDigits (s % 60) ++ rest)) := by
    simp [isoClock]
  rw [htext, takeClock, takeDigits_two (by omega)]
  simp only [Option.bind_eq_bind, Option.bind_some, takeChar_cons]
  rw [takeDigits_two (by omega)]
  simp only [Option.bind_some, takeChar_cons]
  rw [takeDigits_two (by omega)]
  simp only [Option.bind_some]
  rw [if_pos (by omega), show s / 3600 * 3600 + s % 3600 / 60 * 60 + s % 60 = s by omega]

theorem takeFraction_isoFraction {micros : Nat} (h : micros < 1000000) :
    takeFraction (isoFraction micros ++ ['Z']) = some (micros, ['Z']) := by
  unfold isoFraction
  split
  · rename_i hzero
    rw [hzero]
    rfl
  · rw [List.cons_append, takeFraction, takeChar_cons, List.append_assoc, List.append_assoc]
    exact takeDigits_six h ['Z']

/-- The parts of a text are read one after the other. -/
theorem parseInstant?_parts {y m d days s micros : Nat} (hday : dayOf? (y, m, d) = some days)
    (hyear : y < 10000) (hm : m < 100) (hd : d < 100) (hs : s < 86400) (hmicros : micros < 1000000) :
    parseInstant? (isoDate y m d ++ 'T' :: (isoClock s ++ (isoFraction micros ++ ['Z']))) =
      some ((days * 86400 + s) * second + micros) := by
  rw [parseInstant?, takeDate_isoDate hyear hm hd]
  simp only [Option.bind_eq_bind, Option.bind_some, takeChar_cons]
  rw [takeClock_isoClock hs]
  simp only [Option.bind_some]
  rw [takeFraction_isoFraction hmicros]
  simp only [Option.bind_some, if_true, hday, Option.map_some]

/-- The first instant behind the last year that can be written. -/
def endOfTime : Time := 253402300800 * second

theorem days_lt {t : ℕ} (h : t < 253402300800 * 1000000) : t / 1000000 / 86400 < 2932897 := by
  omega

theorem instant_parts (t : ℕ) :
    (t / 1000000 / 86400 * 86400 + t / 1000000 % 86400) * 1000000 + t % 1000000 = t := by
  omega

/-- **An instant is read back from its text.** -/
theorem parseInstant?_isoInstant {t : Time} (h : t < endOfTime) : parseInstant? (isoInstant t) = some t := by
  obtain ⟨hyear, hmonth, hday⟩ := civil_bounds (days_lt h)
  have hparts := parseInstant?_parts (dayOf?_civil (t / second / 86400)) hyear
    (hmonth.trans (by decide)) (hday.trans (by decide)) (Nat.mod_lt (t / second) (by decide))
    (Nat.mod_lt t (by decide : 0 < second))
  exact hparts.trans (congrArg some (instant_parts t))

/-- An instant that can be written, `AwareDateTime`. -/
abbrev Instant := {t : Time // t < endOfTime}

def Instant.codec : Codec Instant where
  dump t := .str (String.ofList (isoInstant t.1))
  load
    | .str s => (parseInstant? s.toList).bind fun t => if h : t < endOfTime then some ⟨t, h⟩ else none
    | _ => none
  back := id
  load_dump := by
    intro t
    dsimp only
    rw [String.toList_ofList, parseInstant?_isoInstant t.2, Option.bind_some, dif_pos t.2]
    rfl
  dump_back := fun _ => rfl

instance : Instant.codec.Exact := ⟨fun _ => rfl⟩

end Matrades

import Matrades.Strategies.PairProfile

/-!
# Sessions and event windows

`modules/research/sessions.py` and `modules/strategies/entry_context.py`: when a market is closed,
and why an entry is not allowed at an instant. The time zone database is the parameter `zones`: the
UTC offset of a zone at an instant, in microseconds.
-/

namespace Matrades

inductive Zone
  | london | newYork | tokyo | sydney
  deriving DecidableEq, Repr

/-- The UTC offset of a zone at an instant. -/
abbrev ZoneInfo := Zone → ℤ → ℤ

/-! ## Local times -/

/-- `now.astimezone(zone)`, as the microseconds of the local calendar. -/
def localTime (zones : ZoneInfo) (zone : Zone) (now : AwareTime) : ℤ :=
  now.instant + zones zone now.instant

/-- Monday is 0. -/
def weekday (time : ℤ) : ℤ := (time / 86400000000 + 3) % 7

/-- The minute of the day. -/
def minuteOfDay (time : ℤ) : ℤ := time % 86400000000 / 60000000

def hourOf (time : ℤ) : ℤ := minuteOfDay time / 60

/-- `weekend_close(..) is not None`: FX and metals from Friday to Sunday 17:00 New York, stocks at
weekends. -/
def weekendClose (zones : ZoneInfo) (assetClass : Option AssetClass) (now : AwareTime) : Bool :=
  match assetClass with
  | none => false
  | some .cryptocurrency => false
  | some asset =>
    let time := localTime zones .newYork now
    let stocks := asset = .stocks
    weekday time = 5 || (weekday time = 6 && (stocks || hourOf time < 17)) ||
      (!stocks && weekday time = 4 && 17 ≤ hourOf time)

/-- The regular session of the stock market, 9:30 to 16:00 New York. -/
def stockSessionClosed (zones : ZoneInfo) (now : AwareTime) : Bool :=
  let time := localTime zones .newYork now
  5 ≤ weekday time || !(570 ≤ minuteOfDay time && minuteOfDay time < 960)

/-! ## Sessions -/

/-- A trading session: its zone, its first hour and the hour it ends at. -/
def sessionNamed (name : String) : Option (Zone × ℤ × ℤ) :=
  if name = "LONDON" then some (.london, 8, 17)
  else if name = "NEW_YORK" then some (.newYork, 8, 17)
  else if name = "TOKYO" then some (.tokyo, 9, 18)
  else if name = "ASIA" then some (.tokyo, 9, 18)
  else if name = "SYDNEY" then some (.sydney, 8, 17)
  else none

def upper (text : String) : String := String.ofList (text.toList.map Char.toUpper)

def unrestricted (name : String) : Bool := name = "ALL" || name = "24/7"

def inSession (zones : ZoneInfo) (now : AwareTime) : Zone × ℤ × ℤ → Bool
  | (zone, first, last) =>
    let time := localTime zones zone now
    first ≤ hourOf time && hourOf time < last && weekday time < 5

/-! ## Why an entry is not allowed -/

/-- Does a relevant event lie within half an hour of the instant? -/
def eventNear (instrument : String) (now : AwareTime) (calendar : List CalendarEvent) : Bool :=
  calendar.any fun event =>
    event.concerns instrument && |event.scheduledAt.instant - now.instant| ≤ newsWindow

def eventReason (spec : StrategySpecification) (now : AwareTime)
    (calendar : Option (List CalendarEvent)) : Option String :=
  if spec.eventRules.any (· ≠ "block_high_impact_events") then
    some "Strategy event rules are unsupported; revise and validate the strategy"
  else if spec.eventRules.isEmpty then none
  else
    match calendar with
    | none => some "Economic calendar coverage is unavailable for the current session"
    | some events =>
      if eventNear spec.instrument now events then
        some "High-impact event within the strategy's 30-minute event window"
      else none

/-- `entry_context_reason` -/
def entryContextReason (zones : ZoneInfo) (spec : StrategySpecification) (now : AwareTime)
    (calendar : Option (List CalendarEvent)) : Option String :=
  let wanted := spec.sessions.map upper
  if weekendClose zones spec.assetClass now then some "Market session is closed"
  else if spec.assetClass = some .stocks && stockSessionClosed zones now then
    some "Stock market session is closed"
  else if wanted.any fun name => (sessionNamed name).isNone && !unrestricted name then
    some "Strategy session rules are unsupported; revise and validate the strategy"
  else if !wanted.isEmpty && !wanted.any unrestricted &&
      !(wanted.filterMap sessionNamed).any (inSession zones now) then
    some "Outside the strategy's trading sessions"
  else eventReason spec now calendar

end Matrades

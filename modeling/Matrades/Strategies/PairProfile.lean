import Mathlib.Algebra.BigOperators.Group.List.Basic
import Mathlib.Data.List.MinMax
import Matrades.Strategies.Schema

/-!
# Regimes and news states

`modules/strategies/pair_profile.py`: the regime of the last completed candles and the state of the
news around an instant. Regime tags are read as the source reads them: alternatives are the entries
of the list, the dimensions of one entry are separated by colons.
-/

namespace Matrades

open Base

/-! ## Regimes -/

structure RegimeFeatures where
  regimeReady : Bool
  trendEfficiency : ℚ
  trendDirection : ℚ
  relativeVolatility : ℚ
  deriving DecidableEq, Repr

/-- The last `n` entries of a list. -/
def lastN {α : Type} (n : Nat) (xs : List α) : List α := xs.drop (xs.length - n)

/-- `regime_features` -/
def regimeFeatures (candles : List BacktestCandle) : RegimeFeatures :=
  let window := lastN 21 candles
  let moves := (window.zip window.tail).map fun (a, b) => b.close - a.close
  let distance := (moves.map abs).sum
  let ranges := (lastN 40 candles).map fun c => c.high - c.low
  let recentRanges := lastN 10 ranges
  let recent := recentRanges.sum / max 1 recentRanges.length
  let baseline := ranges.take (ranges.length - 10)
  let reference := if baseline.isEmpty then recent else baseline.sum / baseline.length
  { regimeReady := 21 ≤ candles.length
    trendEfficiency := if distance = 0 then 0 else |moves.sum| / distance
    trendDirection := if 0 < moves.sum then 1 else if moves.sum < 0 then -1 else 0
    relativeVolatility := if reference = 0 then 0 else recent / reference }

/-! ## News -/

inductive NewsState
  | unknown | preNews | normal | postNews
  deriving DecidableEq, Repr

def NewsState.tag : NewsState → String
  | unknown => "UNKNOWN"
  | preNews => "PRE_NEWS"
  | normal => "NORMAL"
  | postNews => "POST_NEWS"

/-- The number a news state has among the features. -/
def NewsState.value : NewsState → ℚ
  | unknown => -2
  | preNews => -1
  | normal => 0
  | postNews => 1

/-- Thirty minutes. -/
def newsWindow : ℤ := 1800000000

/-- The distances to the relevant events within half an hour, in the order of the calendar. -/
def newsOffsets (instrument : String) (moment : AwareTime) (calendar : List CalendarEvent) : List ℤ :=
  (calendar.filter fun event => event.concerns instrument).filterMap fun event =>
    let offset := event.scheduledAt.instant - moment.instant
    if |offset| ≤ newsWindow then some offset else none

/-- `news_state`: the nearest relevant event decides, the first of the nearest ones. -/
def newsState (instrument : String) (moment : AwareTime) :
    Option (List CalendarEvent) → NewsState
  | none => .unknown
  | some calendar =>
    match (newsOffsets instrument moment calendar).argmin Int.natAbs with
    | none => .normal
    | some offset => if 0 ≤ offset then .preNews else .postNews

/-! ## Matching regimes -/

inductive Behaviour
  | unknown | trending | ranging
  deriving DecidableEq, Repr

inductive TrendDirection
  | unknown | bullish | bearish | flat
  deriving DecidableEq, Repr

inductive VolatilityLevel
  | unknown | high | low | normal
  deriving DecidableEq, Repr

def Behaviour.tag : Behaviour → String
  | unknown => "UNKNOWN"
  | trending => "TRENDING"
  | ranging => "RANGING"

def TrendDirection.tag : TrendDirection → String
  | unknown => "UNKNOWN"
  | bullish => "BULLISH"
  | bearish => "BEARISH"
  | flat => "FLAT"

def VolatilityLevel.tag : VolatilityLevel → String
  | unknown => "UNKNOWN"
  | high => "HIGH_VOLATILITY"
  | low => "LOW_VOLATILITY"
  | normal => "NORMAL_VOLATILITY"

structure Regime where
  behaviour : Behaviour
  direction : TrendDirection
  volatility : VolatilityLevel
  news : Option NewsState
  deriving DecidableEq, Repr

namespace Regime

/-- The values of the dictionary. -/
def tags (r : Regime) : List String :=
  [r.behaviour.tag, r.direction.tag, r.volatility.tag] ++ (r.news.map NewsState.tag).toList

/-- `regime_key` -/
def key (r : Regime) : String :=
  ":".intercalate [r.behaviour.tag, r.direction.tag, r.volatility.tag]

end Regime

/-- `regime_from_features` -/
def regimeFromFeatures (features : RegimeFeatures) (news : Option NewsState) : Regime :=
  if features.regimeReady then
    { behaviour := if 35 / 100 ≤ features.trendEfficiency then .trending else .ranging
      direction :=
        if features.trendDirection = 1 then .bullish
        else if features.trendDirection = -1 then .bearish else .flat
      volatility :=
        if 3 / 2 ≤ features.relativeVolatility then .high
        else if features.relativeVolatility ≤ 3 / 4 then .low else .normal
      news }
  else { behaviour := .unknown, direction := .unknown, volatility := .unknown, news }

/-- A tag of an entry, without its blanks and in capitals. -/
def tagText (tag : List Char) : String := String.ofList ((strip tag).map Char.toUpper)

/-- The tag an alias stands for. -/
def regimeAlias (tag : String) : String :=
  if tag = "TREND" then "TRENDING"
  else if tag = "RANGE" then "RANGING"
  else if tag = "VOLATILE" then "HIGH_VOLATILITY"
  else if tag = "NORMAL_NEWS" then "NORMAL"
  else tag

/-- `regime_matches`: some entry has every one of its tags among the values of the regime. -/
def regimeMatches (wanted : List String) (features : RegimeFeatures) (news : Option NewsState) :
    Bool :=
  let regime := regimeFromFeatures features news
  wanted.isEmpty || (regime.behaviour ≠ .unknown &&
    wanted.any fun item => (item.toList.splitOn ':').all fun tag =>
      tagText tag ≠ "UNKNOWN" && regime.tags.contains (regimeAlias (tagText tag)))

end Matrades

import Matrades.Base.Rounding
import Matrades.Research.Models
import Matrades.Strategies.EntryContext

/-!
# Research features

`typed_fingerprint` (`modules/research/features.py`) and `weekend_close` (`modules/research/sessions.py`).
A candidate is refused with the reason of the first gate it fails, or measured. Floats are computed
exactly. Times are instants in microseconds.
-/

namespace Matrades

open Base

/-! ## The weekend -/

/-- The time zone database: offsets at an instant, and the instant of a local time. -/
structure ZoneDatabase where
  offset : ZoneInfo
  utc : Zone → ℤ → ℤ

def hourLength : ℤ := 3600000000

def dayLength : ℤ := 24 * hourLength

/-- `weekend_close`: the Friday close before an instant at which the market is closed. -/
def lastWeekendClose (zones : ZoneDatabase) (assetClass : AssetClass) (now : ℤ) : Option ℤ :=
  if weekendClose zones.offset (some assetClass) ⟨now, 0⟩ then
    let time := localTime zones.offset .newYork ⟨now, 0⟩
    let friday := time / dayLength - (weekday time - 4) % 7
    let hour := if assetClass = .stocks then 16 else 17
    some (zones.utc .newYork (friday * dayLength + hour * hourLength))
  else none

/-! ## Numbers -/

def mean (xs : List ℚ) : ℚ := xs.sum / xs.length

/-- `xs[-n:]` -/
def lastOf (n : ℕ) (xs : List ℚ) : List ℚ := xs.drop (xs.length - n)

/-- `zip(xs, xs[1:])` -/
def neighbours (xs : List ℚ) : List (ℚ × ℚ) := xs.zip xs.tail

/-- `xs[::-4][::-1]` -/
def everyFourth (xs : List ℚ) : List ℚ :=
  ((xs.reverse.zipIdx.filter fun p => p.2 % 4 = 0).map Prod.fst).reverse

/-- `_clamp` -/
def clampUnit (x : ℚ) : ℚ := max 0 (min 1 x)

/-! ## Eligibility -/

/-- What the gates leave of a snapshot. -/
structure EligibleQuote where
  prices : List ℚ
  movement : ℚ
  spreadRatio : ℚ
  close : Option ℤ

def refuseIf (c : Prop) [Decidable c] (reason : String) : Except String Unit :=
  if c then .error reason else .ok ()

def seconds (n : ℤ) : ℤ := n * 1000000

/-- The gates on prices and the quote. -/
def eligiblePrices (s : TypedResearchSnapshot) : Except String (List ℚ × ℚ × ℚ) := do
  refuseIf (s.closes.length < 20) "INSUFFICIENT_HISTORY: at least 20 candles required"
  let prices := s.closes.filterMap PyFloat.finite?
  refuseIf (¬(s.closes.all fun x => x.finite?.isSome && x.above 0)) "INVALID_PRICE_HISTORY"
  match s.bid.finite?, s.ask.finite?, s.volume.finite? with
  | some bid, some ask, some _ => do
    refuseIf (ask < bid) "CROSSED_QUOTE"
    return (prices, bid, ask)
  | _, _, _ => .error "NON_FINITE_QUOTE"

/-- The gates on timestamps. -/
def timely (s : TypedResearchSnapshot) (close : Option ℤ) (now : ℤ) : Except String Unit := do
  let quoteTime := s.quoteObservedAt.getD s.observedAt
  let age := now - quoteTime
  refuseIf (age < seconds (-300)) "FUTURE_QUOTE_TIMESTAMP"
  refuseIf (seconds 900 < age ∧ close.all fun close => quoteTime < close - 3 * hourLength)
    "STALE_QUOTE"
  match s.candleObservedAt with
  | none => return
  | some candleObservedAt => do
    refuseIf (now - candleObservedAt < seconds (-300)) "FUTURE_CANDLE_TIMESTAMP"
    refuseIf (seconds (max (s.timeframeSeconds * 3) (if close.isSome then 10800 else 0)) <
      close.getD now - candleObservedAt) "STALE_CANDLES"

/-- All gates but the last one, in order. -/
def eligibleQuote (zones : ZoneDatabase) (s : TypedResearchSnapshot) (now : ℤ) :
    Except String EligibleQuote := do
  let (prices, bid, ask) ← eligiblePrices s
  let close := lastWeekendClose zones s.listing.assetClass now
  timely s close now
  let movement := mean ((neighbours prices).map fun (a, b) => |b - a|)
  refuseIf (movement ≤ 0) "NO_PRICE_MOVEMENT"
  let spreadRatio := (ask - bid) / movement
  refuseIf (s.spreadVerified ∧ 1 / 2 < spreadRatio) "EXCESSIVE_SPREAD_TO_MOVEMENT"
  return { prices, movement, spreadRatio, close }

/-! ## Fingerprints -/

def limitationsOf (s : TypedResearchSnapshot) (close : Option ℤ) : List String :=
  (if close.isSome then
    ["MARKET_CLOSED: last-session evidence is research-only; no entry signal"] else []) ++
  (if s.quoteObservedAt.isNone then
    ["Provider quote timestamp unavailable; receipt freshness only"] else []) ++
  (if s.candleObservedAt.isNone then ["Provider candle timestamp unavailable"] else []) ++
  (if s.spreadVerified then [] else ["Actual bid/ask spread unavailable; neutral cost score"]) ++
  ["Broker execution and session availability require later validation",
    "Timeframe agreement uses 4-bar sampled closes, not independent candles",
    "Raw volume is not comparable across providers; liquidity not inferred"] ++
  (if s.eventRisk.isNone then ["Economic-event risk unavailable; neutral event score"] else [])

/-- The measures of a candidate, before rounding. -/
structure Measures where
  efficiency : ℚ
  structure_ : ℚ
  volatilitySuitability : ℚ
  cost : ℚ
  alignment : ℚ
  event : ℚ
  relativeVolatility : ℚ
  direction : ℚ

def measure (s : TypedResearchSnapshot) (q : EligibleQuote) : Measures :=
  let prices := q.prices
  let recent := lastOf 20 ((neighbours prices).map fun (a, b) => b - a)
  let returns := (neighbours prices).map fun (a, b) => b / a - 1
  let relativeVolatility := mean ((lastOf 20 returns).map abs) / mean (returns.map abs)
  let lastPrice := prices.getLastD 0
  let short := lastPrice - mean (lastOf 5 prices)
  let coarse := everyFourth prices
  let long := coarse.getLastD 0 - mean (lastOf 5 coarse)
  let low := (lastOf 20 prices).foldr min lastPrice
  let high := (lastOf 20 prices).foldr max lastPrice
  let rangePosition := if low < high then (lastPrice - low) / (high - low) else 1 / 2
  { efficiency := |recent.sum| / (recent.map abs).sum
    structure_ := if 0 < recent.sum then rangePosition else 1 - rangePosition
    volatilitySuitability := clampUnit (1 - |relativeVolatility - 1| / 2)
    cost := if s.spreadVerified then clampUnit (1 - q.spreadRatio / (1 / 2)) else 1 / 2
    alignment :=
      if short = 0 ∨ long = 0 then 1 / 2 else if 0 < short * long then 1 else 0
    event := (s.eventRisk.bind PyFloat.finite?).elim (1 / 2) (1 - ·)
    relativeVolatility
    direction := if 0 < recent.sum then 1 else if recent.sum < 0 then -1 else 0 }

namespace Measures

def score (m : Measures) : ℚ :=
  100 * (m.efficiency * (20 / 100) + m.structure_ * (15 / 100) +
    m.volatilitySuitability * (20 / 100) + m.cost * (20 / 100) + m.alignment * (15 / 100) +
    m.event * (10 / 100))

def regime (m : Measures) : String :=
  if 2 < m.relativeVolatility then "HIGH_VOLATILITY"
  else if 35 / 100 ≤ m.efficiency then "TRENDING"
  else "RANGING"

def criteria (m : Measures) (spreadRatio : Option ℚ) : Dict String (Option ℚ) :=
  (Dict.ofList [
    ("trend_strength", some m.efficiency),
    ("market_structure", some m.structure_),
    ("volatility_suitability", some m.volatilitySuitability),
    ("trading_cost", some m.cost),
    ("timeframe_alignment", some m.alignment),
    ("event_suitability", some m.event),
    ("spread_to_movement", spreadRatio),
    ("relative_volatility", some m.relativeVolatility),
    ("direction", some m.direction)]).map fun value => value.map (roundTo 6)

end Measures

/-- A half, and what is known of the quote. -/
def qualityOf (s : TypedResearchSnapshot) : ℚ :=
  1 / 2 + 2 / 10 * (if s.spreadVerified then 1 else 0) +
    15 / 100 * (if s.quoteObservedAt.isSome then 1 else 0) +
    15 / 100 * (if s.candleObservedAt.isSome then 1 else 0)

/-- A measured candidate: its fingerprint, its score and the evidence for it. -/
structure MeasuredCandidate where
  fingerprint : TypedMarketFingerprint
  score : ℚ
  evidence : List EvidenceLine

/-- `typed_fingerprint` -/
def typedFingerprint (zones : ZoneDatabase) (s : TypedResearchSnapshot) (now : ℤ) :
    Except String MeasuredCandidate := do
  let q ← eligibleQuote zones s now
  let recent := lastOf 20 ((neighbours q.prices).map fun (a, b) => b - a)
  refuseIf ((recent.map abs).sum = 0) "NO_RECENT_PRICE_MOVEMENT"
  let m := measure s q
  let limitations := limitationsOf s q.close
  let criteria := m.criteria (if s.spreadVerified then some q.spreadRatio else none)
  return {
    fingerprint := {
      listingId := s.listing.id
      assetClass := s.listing.assetClass
      instrumentType := s.listing.instrumentType
      observedAt := s.observedAt
      sourceCutId := s.sourceCutId
      regime := m.regime
      trendScore := roundTo 6 m.efficiency
      volatilityScore := roundTo 6 m.volatilitySuitability
      liquidityScore := 1 / 2
      dataQuality := roundTo 6 (qualityOf s)
      criteria
      limitations
      marketSession := if q.close.isSome then "WEEKEND_CLOSED" else "NO_WEEKEND_CLOSURE"
      quoteObservedAt := s.quoteObservedAt
      candleObservedAt := s.candleObservedAt
      sessionCloseReference := q.close }
    score := roundTo 6 m.score
    evidence := [.researchScore m.score m.regime] ++
      criteria.entries.map (fun (key, value) => .criterion key value) ++ limitations.map .text }

end Matrades

import Mathlib.Algebra.Order.Group.Unbundled.Abs
import Matrades.Backtesting.Engine
import Matrades.Base.Text
import Matrades.Strategies.PairProfile

/-!
# Signals and protection levels

`modules/strategies/signals.py`: the features of a completed candle, the conditions on them and the
prices that protect an entry. The technical indicators come from a library outside the repository;
`TechnicalLibrary` gives the value of an indicator in the row of a candle, `Causal` says that a row
does not change when later candles are appended.
-/

namespace Matrades

open Base

/-- The indicator values of the row of a candle, computed on a list of candles. -/
abbrev TechnicalLibrary := List BacktestCandle → Nat → String → Dec

/-- A row depends only on the candles up to its own. -/
def Causal (library : TechnicalLibrary) : Prop :=
  ∀ (candles later : List BacktestCandle) (index : Nat), index < candles.length →
    library (candles ++ later) index = library candles index

/-! ## Features of a candle -/

structure FeaturePoint extends RegimeFeatures where
  priorHigh : ℚ
  priorLow : ℚ
  slowAverage : ℚ
  openPrice : ℚ
  high : ℚ
  low : ℚ
  close : ℚ
  volume : ℚ
  momentum : ℚ
  movingAverage : ℚ
  volatility : ℚ
  technical : String → Option Dec := fun _ => none
  newsRegime : Option NewsState := none

/-- The features as the dictionary they are. -/
def FeaturePoint.get? (f : FeaturePoint) (name : String) : Option Dec :=
  match name with
  | "regime_ready" => some (.fin (if f.regimeReady then 1 else 0))
  | "trend_efficiency" => some (.fin f.trendEfficiency)
  | "trend_direction" => some (.fin f.trendDirection)
  | "relative_volatility" => some (.fin f.relativeVolatility)
  | "prior_high" => some (.fin f.priorHigh)
  | "prior_low" => some (.fin f.priorLow)
  | "slow_average" => some (.fin f.slowAverage)
  | "open" => some (.fin f.openPrice)
  | "high" => some (.fin f.high)
  | "low" => some (.fin f.low)
  | "close" => some (.fin f.close)
  | "volume" => some (.fin f.volume)
  | "momentum" => some (.fin f.momentum)
  | "moving_average" => some (.fin f.movingAverage)
  | "volatility" => some (.fin f.volatility)
  | "news_regime" => f.newsRegime.map fun state => .fin state.value
  | other => f.technical other

/-- `features.update(news_features(..))` -/
def FeaturePoint.withNews (f : FeaturePoint) (state : NewsState) : FeaturePoint :=
  { f with newsRegime := some state }

/-- `xs[lo:hi]` -/
def slice {α : Type} (xs : List α) (lo hi : Nat) : List α := (xs.take hi).drop lo

def average (xs : List ℚ) : ℚ := xs.sum / xs.length

def highest : List ℚ → ℚ
  | [] => 0
  | x :: xs => xs.foldl max x

def lowest : List ℚ → ℚ
  | [] => 0
  | x :: xs => xs.foldl min x

def trueRange (previous candle : BacktestCandle) : ℚ :=
  max (candle.high - candle.low)
    (max |candle.high - previous.close| |candle.low - previous.close|)

/-- The true ranges of the candles behind the first. -/
def trueRanges (candles : List BacktestCandle) : List ℚ :=
  (candles.zip candles.tail).map fun (previous, candle) => trueRange previous candle

def wilderStep (period : Nat) (volatility value : ℚ) : ℚ :=
  (volatility * (period - 1) + value) / period

/-- Wilder's average true range: the mean of the first ranges, smoothed with the others. -/
def wilderATR (period : Nat) (ranges : List ℚ) : ℚ :=
  (ranges.drop period).foldl (wilderStep period) ((ranges.take period).sum / period)

/-- `candle_features`; `candle` is `candles[index]`. -/
def candleFeatures (candles : List BacktestCandle) (candle : BacktestCandle) (index : Nat)
    (structureWindow : Nat) (atrPeriod : Option Nat := none) : FeaturePoint :=
  let window := slice candles (index - 4) (index + 1)
  let before := slice candles (index - structureWindow) index
  let prior := if before.isEmpty then [candle] else before
  let slow := slice candles (index + 1 - structureWindow) (index + 1)
  { regimeFeatures (slice candles (index - 39) (index + 1)) with
    priorHigh := highest (prior.map BacktestCandle.high)
    priorLow := lowest (prior.map BacktestCandle.low)
    slowAverage := average (slow.map BacktestCandle.close)
    openPrice := candle.openPrice
    high := candle.high
    low := candle.low
    close := candle.close
    volume := candle.volume
    momentum := candle.close - (candles.getD (index - 1) candle).close
    movingAverage := average (window.map BacktestCandle.close)
    volatility :=
      match atrPeriod with
      | none => average (window.map fun c => c.high - c.low)
      | some period =>
        -- Warm-up must not create a protected entry.
        if index < period then 0
        else wilderATR period (trueRanges (slice candles 0 (index + 1))) }

/-! ## Technical features -/

def technicalNames : List String :=
  ["atr", "adx", "rsi", "ema", "sma", "roc", "obv", "cci", "willr", "trange", "macd",
    "macd_signal", "macd_histogram", "bb_upper", "bb_middle", "bb_lower", "stoch_k", "stoch_d",
    "bb_width"]

/-- The names a condition mentions. -/
def Condition.names (c : Condition) : List String :=
  match c.value with
  | .number _ => [c.feature]
  | .name text => [c.feature, text]

/-- `required_technical_features` -/
def requiredTechnicalFeatures (spec : StrategySpecification) : List String :=
  ((spec.entry ++ spec.confirmations ++ spec.filters ++ spec.exit ++ spec.invalidation ++
    [spec.stopLoss] ++ spec.takeProfit).flatMap Condition.names).filter technicalNames.contains

/-- The required values of a row. -/
def technicalRow (library : TechnicalLibrary) (candles : List BacktestCandle)
    (required : List String) (index : Nat) (name : String) : Option Dec :=
  if required.contains name then some (library candles index name) else none

/-- `technical_feature_series`: the frame is built only where a feature is required, and refuses
candles that are not in order. -/
def technicalFeatureSeries (library : TechnicalLibrary) (candles : List BacktestCandle)
    (required : List String) : Except String (Nat → String → Option Dec) :=
  if required.isEmpty then .ok fun _ _ => none
  else do
    validateCandles 1 candles
    return technicalRow library candles required

/-! ## Feature series -/

/-- The running sum of true ranges and Wilder average of the batch evaluation. -/
structure AtrState where
  total : ℚ := 0
  atr : ℚ := 0

/-- The true range of a candle enters the sum up to the period, the average behind it. -/
def AtrState.step (period : Nat) (s : AtrState) (index : Nat) (range : ℚ) : AtrState :=
  if index = 0 then s
  else if index ≤ period then
    { total := s.total + range
      atr := if index = period then (s.total + range) / period else s.atr }
  else { s with atr := wilderStep period s.atr range }

/-- The body of the loop of `strategy_feature_series`. -/
def seriesStep (spec : StrategySpecification) (technical : Nat → String → Option Dec)
    (candles : List BacktestCandle) (acc : AtrState × List FeaturePoint)
    (entry : BacktestCandle × Nat) : AtrState × List FeaturePoint :=
  let (candle, index) := entry
  let point := candleFeatures candles candle index spec.parameters.structureWindow
  match spec.parameters.atrPeriod with
  | none => (acc.1, acc.2 ++ [{ point with technical := technical index }])
  | some period =>
    let s := acc.1.step period index (trueRange (candles.getD (index - 1) candle) candle)
    (s, acc.2 ++ [{ point with volatility := s.atr, technical := technical index }])

/-- `strategy_feature_series` -/
def strategyFeatureSeries (library : TechnicalLibrary) (spec : StrategySpecification)
    (candles : List BacktestCandle) : Except String (List FeaturePoint) := do
  let technical ← technicalFeatureSeries library candles (requiredTechnicalFeatures spec)
  return (candles.zipIdx.foldl (seriesStep spec technical candles) ({}, [])).2

/-- `strategy_features`, at the last candle of a list. -/
def strategyFeatures (library : TechnicalLibrary) (spec : StrategySpecification)
    (candles : List BacktestCandle) (candle : BacktestCandle) (index : Nat) :
    Except String FeaturePoint := do
  let point := candleFeatures candles candle index spec.parameters.structureWindow
    spec.parameters.atrPeriod
  let technical ← technicalFeatureSeries library (slice candles 0 (index + 1))
    (requiredTechnicalFeatures spec)
  return { point with technical := technical index }

/-! ## Conditions -/

/-- The comparison; one that raises does not hold. -/
def Operator.holds : Operator → Dec → ℚ → Bool
  | _, .nan, _ => false
  | gt, .fin left, right => right < left
  | ge, .fin left, right => right ≤ left
  | lt, .fin left, right => left < right
  | le, .fin left, right => left ≤ right
  | eq, .fin left, right => left = right
  | gt, .inf negative, _ => !negative
  | ge, .inf negative, _ => !negative
  | lt, .inf negative, _ => negative
  | le, .inf negative, _ => negative
  | eq, .inf _, _ => false

/-- The right side of a condition: a feature, or the number its text is. -/
def FeaturePoint.operand (f : FeaturePoint) : Operand → Option Dec
  | .number value => some (.fin value)
  | .name text => (f.get? text).orElse fun _ => parseDec text.toList

def FeaturePoint.satisfies (f : FeaturePoint) (c : Condition) : Bool :=
  match f.get? c.feature, f.operand c.value with
  | some left, some (.fin right) => c.operator.holds left right
  | _, _ => false

/-- `matches`: no condition at all matches nothing. -/
def conditionsMatch (conditions : List Condition) (f : FeaturePoint) : Bool :=
  !conditions.isEmpty && conditions.all f.satisfies

/-- Does a regime tag speak about news? -/
def newsTag (tag : List Char) : Bool :=
  (seek "NEWS".toList (tag.map Char.toUpper)).isSome || tagText tag = "NORMAL"

/-- `requires_news_context` -/
def requiresNewsContext (spec : StrategySpecification) : Bool :=
  (spec.regimes.any fun regime => (regime.toList.splitOn ':').any newsTag) ||
    (spec.entry ++ spec.confirmations ++ spec.filters ++ spec.invalidation ++ spec.exit).any
      fun rule => rule.names.contains "news_regime"

/-- `entry_matches` -/
def entryMatches (spec : StrategySpecification) (f : FeaturePoint) : Bool :=
  !((f.newsRegime = none || f.newsRegime = some .unknown) && requiresNewsContext spec) &&
    (regimeMatches spec.regimes f.toRegimeFeatures f.newsRegime &&
      conditionsMatch spec.entry f &&
      (spec.confirmations.isEmpty || conditionsMatch spec.confirmations f) &&
      (spec.filters.isEmpty || conditionsMatch spec.filters f) &&
      !conditionsMatch spec.invalidation f)

/-! ## Protection levels -/

/-- The whole number of ticks below or above a price. -/
def toTick (up : Bool) (tick price : ℚ) : ℚ :=
  (if up then ⌈price / tick⌉ else ⌊price / tick⌋ : ℤ) * tick

/-- `protection_levels`: the stop price and the target prices of an entry. The stop is rounded away
from the entry, the targets are rounded away from it too. -/
def protectionLevels (rules : TradeRules) (entry volatility : ℚ) (tickSize : Option ℚ) :
    Except String (ℚ × List ℚ) :=
  if entry ≤ 0 ∨ volatility ≤ 0 then .error "positive finite entry and volatility are required"
  else if tickSize.any (· ≤ 0) then .error "tick size must be positive"
  else
    let sign := rules.direction.sign
    let long := rules.direction = .long
    let raw := entry - sign * (volatility * rules.stopVolatilityMultiple)
    let stop := tickSize.elim raw fun tick => toTick (!long) tick raw
    let distance := |entry - stop|
    let targets := rules.takeProfitRMultiples.map fun multiple =>
      let target := entry + sign * distance * multiple
      tickSize.elim target fun tick => toTick long tick target
    if stop ≤ 0 ∨ targets.any (· ≤ 0) ∨ ¬targets.Nodup then
      .error "strategy protection cannot produce distinct positive prices"
    else .ok (stop, targets)

end Matrades

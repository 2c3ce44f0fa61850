import Mathlib.Data.Rat.Floor
import Matrades.Base.Decimal
import Matrades.Shared.DomainTypes

/-!
# Strategies, candles and calendars

`packages/strategy_sdk/schema.py` and the records of `modules/backtesting` the paper ledger is
made of. An aware time is its instant (microseconds since the epoch) and the offset its text is
written in: two texts of one instant differ when their offsets do, comparisons read the instant.
-/

namespace Matrades

open Base

/-! ## Aware times -/

/-- An instant with the UTC offset it is written in, both in microseconds. -/
structure AwareTime where
  instant : ℤ
  offset : ℤ
  deriving DecidableEq, Repr

namespace AwareTime

/-- A length of time later, written in the same offset. -/
def plus (t : AwareTime) (delta : ℤ) : AwareTime := { t with instant := t.instant + delta }

/-- The day of the local date: the first ten characters of the text. -/
def date (t : AwareTime) : ℤ := (t.instant + t.offset) / 86400000000

@[simp] theorem plus_instant (t : AwareTime) (delta : ℤ) :
    (t.plus delta).instant = t.instant + delta := rfl

@[simp] theorem plus_offset (t : AwareTime) (delta : ℤ) : (t.plus delta).offset = t.offset := rfl

end AwareTime

/-! ## Specifications -/

inductive TradeDirection
  | long | short
  deriving DecidableEq, Repr

/-- The direction as a factor of a price move. -/
def TradeDirection.sign : TradeDirection → ℚ
  | long => 1
  | short => -1

inductive Operator
  | gt | ge | lt | le | eq
  deriving DecidableEq, Repr

/-- A condition compares a feature with a number or with a named feature. -/
inductive Operand
  | number (value : ℚ)
  | name (text : String)
  deriving DecidableEq, Repr

structure Condition where
  feature : String
  operator : Operator
  value : Operand
  deriving DecidableEq, Repr

structure TradeRules where
  direction : TradeDirection
  stopVolatilityMultiple : ℚ
  takeProfitRMultiples : List ℚ
  stop_pos : 0 < stopVolatilityMultiple
  stop_le : stopVolatilityMultiple ≤ 10
  targets_nonempty : takeProfitRMultiples ≠ []
  targets_length : takeProfitRMultiples.length ≤ 5
  targets_pos : ∀ multiple ∈ takeProfitRMultiples, 0 < multiple
  targets_increasing : takeProfitRMultiples.Pairwise (· < ·)

/-- The parameters an evaluation reads, with the bounds the schema puts on them. -/
structure Parameters where
  structureWindow : Nat := 20
  atrPeriod : Option Nat := none
  window_bounds : 2 ≤ structureWindow ∧ structureWindow ≤ 200 := by decide
  period_bounds : ∀ period ∈ atrPeriod, 2 ≤ period ∧ period ≤ 100 := by simp

/-- The two switches of `position_management` a simulation reads. -/
structure PositionManagement where
  moveToBreakEven : Bool := false
  trailingStop : Bool := false
  deriving DecidableEq, Repr

structure StrategySpecification where
  instrument : String
  regimes : List String := []
  entry : List Condition
  confirmations : List Condition := []
  filters : List Condition := []
  exit : List Condition
  invalidation : List Condition := []
  stopLoss : Condition
  takeProfit : List Condition := []
  positionManagement : PositionManagement := {}
  sessions : List String := []
  eventRules : List String := []
  riskPerTrade : ℚ
  parameters : Parameters := {}
  assetClass : Option AssetClass := none
  tradeRules : Option TradeRules := none
  entry_nonempty : entry ≠ []
  exit_nonempty : exit ≠ []
  risk_pos : 0 < riskPerTrade
  risk_le : riskPerTrade ≤ 100

/-! ## Candles and configurations -/

structure BacktestCandle where
  observedAt : AwareTime
  openPrice : ℚ
  high : ℚ
  low : ℚ
  close : ℚ
  volume : ℚ
  deriving DecidableEq, Repr

structure BacktestConfiguration where
  initialEquity : ℚ
  spread : ℚ := 0
  commission : ℚ := 0
  slippage : ℚ := 0
  tickSize : Option ℚ := none
  maxDailyLoss : ℚ := 1000000
  maxTotalLoss : ℚ := 1000000
  equity_pos : 0 < initialEquity
  costs_nonneg : 0 ≤ spread ∧ 0 ≤ commission ∧ 0 ≤ slippage := by norm_num
  tick_pos : ∀ tick ∈ tickSize, 0 < tick := by simp
  limits_pos : 0 < maxDailyLoss ∧ 0 < maxTotalLoss := by norm_num

/-! ## Economic calendars -/

/-- An event of an archived calendar. -/
structure CalendarEvent where
  currency : String
  impact : String
  scheduledAt : AwareTime
  deriving DecidableEq, Repr

/-- The two currencies of an instrument's symbol. -/
def currenciesOf (instrument : String) : List (List Char) :=
  let symbol := (instrument.toList.map Char.toUpper).filter fun c => c ≠ '/' && c ≠ '-'
  [symbol.take 3, (symbol.drop 3).take 3]

/-- Is it a high-impact event of one of the instrument's currencies? -/
def CalendarEvent.concerns (event : CalendarEvent) (instrument : String) : Bool :=
  event.impact.toList.map Char.toUpper = "HIGH".toList &&
    (currenciesOf instrument).contains event.currency.toList

example : currenciesOf "eur/usd" = ["EUR".toList, "USD".toList] := by decide

end Matrades

/-!
## The strategy lifecycle

`modules/strategies/lifecycle.py`: the states of a strategy version and the transitions between them.
-/

namespace Matrades

inductive StrategyState
  | draft | specified | implemented | backtesting | validating | paperTrading | approved | active
  | degraded | suspended | retired
  deriving DecidableEq, Repr

namespace StrategyState

def value : StrategyState → String
  | draft => "DRAFT"
  | specified => "SPECIFIED"
  | implemented => "IMPLEMENTED"
  | backtesting => "BACKTESTING"
  | validating => "VALIDATING"
  | paperTrading => "PAPER_TRADING"
  | approved => "APPROVED"
  | active => "ACTIVE"
  | degraded => "DEGRADED"
  | suspended => "SUSPENDED"
  | retired => "RETIRED"

/-- `ALLOWED` -/
def allowed : StrategyState → List StrategyState
  | draft => [specified]
  | specified => [implemented]
  | implemented => [backtesting]
  | backtesting => [validating]
  | validating => [paperTrading]
  | paperTrading => [approved]
  | approved => [active]
  | active => [degraded, suspended, retired]
  | degraded => [active, suspended, retired]
  | suspended => [active, retired]
  | retired => []

/-- `transition` -/
def transition (current target : StrategyState) : Except String StrategyState :=
  if current.allowed.contains target then .ok target
  else .error "illegal strategy lifecycle transition"

end StrategyState

end Matrades

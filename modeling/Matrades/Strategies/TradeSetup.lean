import Matrades.Strategies.EntryContext
import Matrades.Strategies.Signals

/-!
# Trade setups

`modules/strategies/trade_setup.py`: the indicative entry, stop and targets of a strategy at the
latest completed candle. The fields of a setup that only copy the specification are left out.
-/

namespace Matrades

inductive SetupStatus
  | wait | marketClosed | stale | signal | blocked | positionOpen
  deriving DecidableEq, Repr

structure TakeProfitLevel where
  price : ℚ
  rewardRisk : ℚ
  fraction : ℚ
  deriving DecidableEq, Repr

structure IndicativeSetup where
  status : SetupStatus
  reason : String
  direction : Option TradeDirection := none
  observedAt : Option AwareTime := none
  expiresAt : Option AwareTime := none
  regime : Option Regime := none
  entry : Option ℚ := none
  stopLoss : Option ℚ := none
  stopDistance : Option ℚ := none
  takeProfits : List TakeProfitLevel := []
  deriving DecidableEq

/-- A setup that offers no entry any more. -/
def IndicativeSetup.withdrawn (setup : IndicativeSetup) (status : SetupStatus) (reason : String) :
    IndicativeSetup :=
  { setup with status, reason, entry := none, stopLoss := none, takeProfits := [] }

/-- The timeframe of a strategy, in seconds. -/
structure Timeframe where
  seconds : ℕ
  pos : 0 < seconds

/-- The length of a candle in microseconds. -/
def Timeframe.period (tf : Timeframe) : ℤ := tf.seconds * 1000000

theorem Timeframe.period_pos (tf : Timeframe) : 0 < tf.period := by
  have := tf.pos
  unfold Timeframe.period
  omega

section
variable (library : TechnicalLibrary) (zones : ZoneInfo) (spec : StrategySpecification)
  (rules : TradeRules)

/-- The decision at the features of the latest candle. -/
def setupAt (base : IndicativeSetup) (latest : BacktestCandle) (features : FeaturePoint)
    (tickSize : Option ℚ) : IndicativeSetup :=
  let dated := { base with
    regime := some (regimeFromFeatures features.toRegimeFeatures features.newsRegime) }
  if !regimeMatches spec.regimes features.toRegimeFeatures features.newsRegime then
    { dated with reason := "Current regime is outside the strategy's validated rules" }
  else
    match protectionLevels rules latest.close features.volatility tickSize with
    | .error reason => { dated with reason }
    | .ok (stop, targets) =>
      let signal := entryMatches spec features
      let distance := |latest.close - stop|
      { dated with
        status := if signal then .signal else .wait
        reason := if signal then
            "Entry conditions met; use the next bar open and recalculate protection at fill"
          else "Wait for the strategy entry, confirmation and filter conditions"
        entry := some latest.close
        stopLoss := some stop
        stopDistance := some distance
        takeProfits := targets.map fun price =>
          { price, rewardRisk := |price - latest.close| / distance,
            fraction := 1 / targets.length } }

/-- `build_strategy_setup` -/
def buildStrategySetup (candles : List BacktestCandle) (now : AwareTime) (tf : Timeframe)
    (tickSize : Option ℚ) (calendar : Option (List CalendarEvent)) :
    Except String IndicativeSetup :=
  match spec.tradeRules, candles.getLast?, decide (2 ≤ candles.length) with
  | some rules, some latest, true =>
    if weekendClose zones spec.assetClass now then
      .ok { status := .marketClosed,
            reason := "Market session is closed; refresh prices after reopening before entry" }
    else
      let expiresAt := latest.observedAt.plus (2 * tf.period)
      let base : IndicativeSetup :=
        { status := .wait, reason := "", direction := some rules.direction,
          observedAt := some latest.observedAt, expiresAt := some expiresAt }
      if expiresAt.instant ≤ now.instant ∨ now.instant < latest.observedAt.instant then
        .ok { base with status := .stale, reason := "Refresh candle evidence before entry" }
      else do
        let features ← strategyFeatures library spec candles latest (candles.length - 1)
        return setupAt spec rules base latest
          (features.withNews (newsState spec.instrument now calendar)) tickSize
  | _, _, _ =>
    .ok { status := .wait, reason := "Price rules or candle evidence are unavailable" }

end

end Matrades

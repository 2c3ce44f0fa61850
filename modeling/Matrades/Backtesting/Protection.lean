import Matrades.Strategies.EntryContext
import Matrades.Strategies.Signals

/-!
# The trade simulator

`modules/backtesting/protection.py`: next-bar simulation with directional stops and equal-fraction
profit targets. The two loops of the source share one index, and each bar from the third on is read
once: by the outer loop while no trade is open, by the inner loop from the bar of the entry to the
bar of the last exit. `stepBar` is what happens at one bar, `simulateBars` the run over the bars.
-/

namespace Matrades

open Base

/-! ## Records -/

inductive ExitReason
  | stopGap | exitSignal | stopLoss | takeProfit (number : Nat) | endOfHistory
  deriving DecidableEq, Repr

def ExitReason.text : ExitReason → String
  | stopGap => "STOP_GAP"
  | exitSignal => "EXIT_SIGNAL"
  | stopLoss => "STOP_LOSS"
  | takeProfit number => s!"TAKE_PROFIT_{number}"
  | endOfHistory => "END_OF_HISTORY"

structure Fill where
  price : ℚ
  size : ℚ
  reason : ExitReason
  deriving DecidableEq, Repr

structure ExitRecord where
  price : ℚ
  fraction : ℚ
  reason : ExitReason
  observedAt : AwareTime
  deriving DecidableEq, Repr

/-- The locals of a trade that is open. -/
structure OpenTrade where
  enteredAt : AwareTime
  entry : ℚ
  originalStop : ℚ
  stop : ℚ
  risk : ℚ
  targets : List ℚ
  regime : Regime
  remaining : ℚ := 1
  pnl : ℚ := 0
  exits : List ExitRecord := []
  targetIndex : Nat := 0
  adverse : ℚ := 0
  favorable : ℚ := 0
  deriving DecidableEq

/-- The record of a closed trade. -/
structure TradeFill where
  enteredAt : AwareTime
  exitedAt : AwareTime
  direction : TradeDirection
  entry : ℚ
  stopLoss : ℚ
  takeProfits : List ℚ
  exits : List ExitRecord
  pnl : ℚ
  risk : ℚ
  r : ℚ
  regimeKey : String
  newsRegime : NewsState
  deriving DecidableEq

/-- The record of the trade that is open behind the last bar. -/
structure SimulatedPosition where
  enteredAt : AwareTime
  entry : ℚ
  stopLoss : ℚ
  remaining : ℚ
  takeProfits : List ℚ
  exits : List ExitRecord
  deriving DecidableEq

def OpenTrade.position (t : OpenTrade) : SimulatedPosition where
  enteredAt := t.enteredAt
  entry := t.entry
  stopLoss := t.stop
  remaining := t.remaining
  takeProfits := t.targets
  exits := t.exits

structure Simulation where
  trades : List TradeResult := []
  attribution : List TradeFill := []
  costs : ℚ := 0
  trade : Option OpenTrade := none
  deriving DecidableEq

def Simulation.openPositions (s : Simulation) : List SimulatedPosition :=
  (s.trade.map OpenTrade.position).toList

/-- The optional arguments of a simulation. -/
structure Replay where
  closeAtEnd : Bool := true
  allowedEntryTimes : Option (List AwareTime) := none
  calendar : Option (List CalendarEvent) := none
  newsContexts : Option (Dict AwareTime NewsState) := none

/-- A bar with the features of the candle before it. -/
abbrev Bar := BacktestCandle × FeaturePoint

section
variable (zones : ZoneInfo) (spec : StrategySpecification) (rules : TradeRules)
  (configuration : BacktestConfiguration) (replay : Replay)

/-! ## Entries -/

/-- The news state an entry or an exit at an instant is decided with. -/
def barNews (time : AwareTime) : NewsState :=
  match replay.newsContexts with
  | some contexts => (contexts.get? time).getD .unknown
  | none => newsState spec.instrument time replay.calendar

/-- May a trade open at this time at all? A replay carries the event and session decision in its
entry times. -/
def entryAllowed (time : AwareTime) : Bool :=
  match replay.allowedEntryTimes with
  | some times => times.contains time
  | none => (entryContextReason zones spec time replay.calendar).isNone

/-- The trade that opens at a bar. -/
def enterAt (bar : Bar) : Option OpenTrade :=
  let (candle, previous) := bar
  let features := previous.withNews (barNews spec replay candle.observedAt)
  if entryAllowed zones spec replay candle.observedAt && entryMatches spec features then
    let entry := candle.openPrice + rules.direction.sign * configuration.slippage
    match protectionLevels rules entry features.volatility configuration.tickSize with
    | .error _ => none
    | .ok (stop, targets) =>
      some { enteredAt := candle.observedAt, entry, originalStop := stop, stop,
             risk := |entry - stop|, targets,
             regime := regimeFromFeatures features.toRegimeFeatures features.newsRegime }
  else none

/-! ## Exits -/

def reaches (candle : BacktestCandle) (target : ℚ) : Bool :=
  match rules.direction with
  | .long => target ≤ candle.high
  | .short => candle.low ≤ target

/-- The targets the bar reaches, from the next one on; the last one takes what is left. -/
def takeTargets (candle : BacktestCandle) (fraction : ℚ) :
    List ℚ → Nat → ℚ → List Fill × Nat × ℚ
  | [], index, available => ([], index, available)
  | target :: rest, index, available =>
    if reaches rules candle target then
      let size := if rest.isEmpty then available else min fraction available
      let (fills, last, left) := takeTargets candle fraction rest (index + 1) (available - size)
      ({ price := target, size, reason := .takeProfit (index + 1) } :: fills, last, left)
    else ([], index, available)

def stopHit (candle : BacktestCandle) (stop : ℚ) : Bool :=
  match rules.direction with
  | .long => candle.low ≤ stop
  | .short => stop ≤ candle.high

/-- What the bar fills, and the next target. At an ambiguous bar the adverse level is assumed to
have occurred first. -/
def barFills (closing : Bool) (candle : BacktestCandle) (previous : FeaturePoint)
    (t : OpenTrade) : List Fill × Nat :=
  if (candle.openPrice - t.stop) * rules.direction.sign ≤ 0 then
    ([{ price := candle.openPrice, size := t.remaining, reason := .stopGap }], t.targetIndex)
  else if candle.observedAt.instant ≠ t.enteredAt.instant &&
      (conditionsMatch spec.exit previous || conditionsMatch spec.invalidation previous) then
    ([{ price := candle.openPrice, size := t.remaining, reason := .exitSignal }], t.targetIndex)
  else if stopHit rules candle t.stop then
    ([{ price := t.stop, size := t.remaining, reason := .stopLoss }], t.targetIndex)
  else
    let (fills, index, available) := takeTargets rules candle (1 / t.targets.length)
      (t.targets.drop t.targetIndex) t.targetIndex t.remaining
    let rest : List Fill := if closing && 0 < available then
      [{ price := candle.close, size := available, reason := .endOfHistory }] else []
    (fills ++ rest, index)

def applyFill (time : AwareTime) (t : OpenTrade) (fill : Fill) : OpenTrade :=
  let sign := rules.direction.sign
  let price := fill.price - sign * configuration.slippage
  { t with
    pnl := t.pnl + sign * (price - t.entry) * fill.size
    remaining := t.remaining - fill.size
    exits := t.exits ++
      [{ price, fraction := fill.size, reason := fill.reason, observedAt := time }] }

/-- A stop only moves towards the trade's favour. -/
def tighter (stop level : ℚ) : ℚ :=
  match rules.direction with
  | .long => max stop level
  | .short => min stop level

/-- The stop of what is left of a trade, behind the bar. -/
def ratchet (candle : BacktestCandle) (t : OpenTrade) : OpenTrade :=
  let even := if t.targetIndex ≠ 0 && spec.positionManagement.moveToBreakEven then
    tighter rules t.stop t.entry else t.stop
  let stop := if spec.positionManagement.trailingStop then
    tighter rules even (candle.close - rules.direction.sign * t.risk) else even
  { t with stop }

/-- The worst and the best price of a bar for a trade. -/
def worstPrice (candle : BacktestCandle) : ℚ :=
  match rules.direction with
  | .long => candle.low
  | .short => candle.high

def bestPrice (candle : BacktestCandle) : ℚ :=
  match rules.direction with
  | .long => candle.high
  | .short => candle.low

/-- The excursions of a bar, and the next target behind it. -/
def excursions (candle : BacktestCandle) (t : OpenTrade) (targetIndex : Nat) : OpenTrade :=
  { t with
    adverse := max t.adverse ((t.entry - worstPrice rules candle) * rules.direction.sign)
    favorable := max t.favorable ((bestPrice rules candle - t.entry) * rules.direction.sign)
    targetIndex }

/-- The fills of a bar, applied. -/
def fillBar (closing : Bool) (bar : Bar) (t : OpenTrade) : OpenTrade :=
  let (candle, features) := bar
  let previous := features.withNews (barNews spec replay candle.observedAt)
  let (fills, targetIndex) := barFills spec rules closing candle previous t
  fills.foldl (applyFill rules configuration candle.observedAt)
    (excursions rules candle t targetIndex)

/-- The body of the inner loop: one bar of an open trade. -/
def manageBar (closing : Bool) (bar : Bar) (t : OpenTrade) : OpenTrade :=
  let filled := fillBar spec rules configuration replay closing bar t
  if 0 < filled.remaining then ratchet spec rules bar.1 filled else filled

/-! ## The run -/

def OpenTrade.result (t : OpenTrade) : TradeResult where
  pnl := t.pnl - (configuration.spread + configuration.commission)
  risk := t.risk
  mae := max t.adverse 0
  mfe := max t.favorable 0

def OpenTrade.fill (t : OpenTrade) : TradeFill where
  enteredAt := t.enteredAt
  exitedAt := (t.exits.getLast?.map ExitRecord.observedAt).getD t.enteredAt
  direction := rules.direction
  entry := t.entry
  stopLoss := t.originalStop
  takeProfits := t.targets
  exits := t.exits
  pnl := (t.result configuration).pnl
  risk := t.risk
  r := (t.result configuration).pnl / t.risk
  regimeKey := t.regime.key
  newsRegime := t.regime.news.getD .unknown

/-- A trade with a part left stays open, a finished one is recorded. -/
def Simulation.settle (s : Simulation) (t : OpenTrade) : Simulation :=
  if 0 < t.remaining then { s with trade := some t }
  else
    { trades := s.trades ++ [t.result configuration]
      attribution := s.attribution ++ [t.fill rules configuration]
      costs := s.costs + (configuration.spread + configuration.commission +
        2 * configuration.slippage)
      trade := none }

/-- One bar: an open trade is managed, otherwise one may open and is managed from this bar on. -/
def stepBar (closing : Bool) (s : Simulation) (bar : Bar) : Simulation :=
  match s.trade.orElse fun _ => enterAt zones spec rules configuration replay bar with
  | none => s
  | some t => s.settle rules configuration (manageBar spec rules configuration replay closing bar t)

/-- The bars in order; with `close_at_end` the last one closes what is open. -/
def simulateBars : Simulation → List Bar → Simulation
  | s, [] => s
  | s, bar :: bars =>
    simulateBars (stepBar zones spec rules configuration replay
      (replay.closeAtEnd && bars.isEmpty) s bar) bars

end

/-- The bars from the third on. -/
def barsOf (candles : List BacktestCandle) (series : List FeaturePoint) : List Bar :=
  (candles.drop 2).zip (series.drop 1)

/-- `simulate_protected_trades` -/
def simulateProtectedTrades (library : TechnicalLibrary) (zones : ZoneInfo)
    (spec : StrategySpecification) (candles : List BacktestCandle)
    (configuration : BacktestConfiguration) (replay : Replay) : Except String Simulation :=
  match spec.tradeRules with
  | none => .error "price protection rules are required"
  | some rules => do
    let series ← strategyFeatureSeries library spec candles
    return simulateBars zones spec rules configuration replay {} (barsOf candles series)

end Matrades

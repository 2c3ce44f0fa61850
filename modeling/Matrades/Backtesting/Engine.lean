import Mathlib.Algebra.Order.Group.Unbundled.Abs
import Matrades.Base.Dict
import Matrades.Base.Drawdown
import Matrades.Base.Result
import Matrades.Base.Window
import Matrades.Strategies.Schema

/-!
# Candle checks and account results

`modules/backtesting/engine.py`: the structural checks of a candle list and the account results of
simulated trades, each trade scaled to the strategy's risk.
-/

namespace Matrades

open Base

/-! ## Candle checks -/

/-- Are the opening instants strictly increasing? -/
def chronological (candles : List BacktestCandle) : Bool :=
  (candles.map fun c => c.observedAt.instant).Pairwise (· < ·)

def BacktestCandle.pricesPositive (c : BacktestCandle) : Bool :=
  0 < c.openPrice && 0 < c.high && 0 < c.low && 0 < c.close

/-- The high is the greatest of the four prices and the low the least. -/
def BacktestCandle.boundsConsistent (c : BacktestCandle) : Bool :=
  c.openPrice ≤ c.high && c.close ≤ c.high && c.low ≤ c.high &&
    c.low ≤ c.openPrice && c.low ≤ c.close

def checkCandle (c : BacktestCandle) : Except String Unit :=
  if !c.pricesPositive then .error "provider candles require positive finite OHLC prices"
  else if !c.boundsConsistent then .error "provider candle OHLC bounds are inconsistent"
  else .ok ()

/-- `validate_candles` -/
def validateCandles (minimum : Nat) (candles : List BacktestCandle) : Except String Unit :=
  if candles.length < minimum then
    .error s!"at least {minimum} chronological candles are required"
  else if !chronological candles then .error "provider candles must be strictly chronological"
  else candles.forM checkCandle

/-! ## Account results -/

structure TradeResult where
  pnl : ℚ
  risk : ℚ
  mae : ℚ
  mfe : ℚ
  deriving DecidableEq, Repr

structure AccountMetrics where
  accountPnls : List ℚ
  endingEquity : ℚ
  peak : ℚ
  maxDrawdown : ℚ
  grossProfit : ℚ
  grossLoss : ℚ
  daily : Dict ℤ ℚ

def AccountMetrics.start (configuration : BacktestConfiguration) : AccountMetrics where
  accountPnls := []
  endingEquity := configuration.initialEquity
  peak := configuration.initialEquity
  maxDrawdown := 0
  grossProfit := 0
  grossLoss := 0
  daily := Dict.empty

namespace AccountMetrics

/-- One trade, closed at the given time. -/
def addTrade (riskPercent : ℚ) (m : AccountMetrics) (trade : TradeResult × AwareTime) :
    AccountMetrics :=
  let pnl := trade.1.pnl / trade.1.risk * m.endingEquity * riskPercent / 100
  let equity := m.endingEquity + pnl
  let peak := max m.peak equity
  { accountPnls := m.accountPnls ++ [pnl]
    endingEquity := equity
    peak
    maxDrawdown := max m.maxDrawdown (peak - equity)
    grossProfit := m.grossProfit + max 0 pnl
    grossLoss := m.grossLoss + max 0 (-pnl)
    daily := m.daily.addTo trade.2.date pnl }

def netProfit (m : AccountMetrics) (configuration : BacktestConfiguration) : ℚ :=
  m.endingEquity - configuration.initialEquity

/-- Neither the total loss limit nor the loss limit of a day is passed. -/
def policyPassed (m : AccountMetrics) (configuration : BacktestConfiguration) : Bool :=
  m.maxDrawdown ≤ configuration.maxTotalLoss &&
    m.daily.values.all fun value => -configuration.maxDailyLoss ≤ value

end AccountMetrics

/-- The loop over the trades with their exit times. -/
def accountLoop (riskPercent : ℚ) :
    AccountMetrics → List (TradeResult × AwareTime) → Except String AccountMetrics
  | m, [] => .ok m
  | m, trade :: rest =>
    if trade.1.risk ≤ 0 then .error "simulated trade risk must be positive"
    else accountLoop riskPercent (m.addTrade riskPercent trade) rest

/-- `risk_normalized_account_metrics` -/
def riskNormalizedAccountMetrics (trades : List TradeResult) (exitedAt : List AwareTime)
    (configuration : BacktestConfiguration) (riskPercent : ℚ) : Except String AccountMetrics :=
  if trades.length ≠ exitedAt.length then .error "trade exits do not match simulated results"
  else accountLoop riskPercent (.start configuration) (trades.zip exitedAt)

/-- The loop returns on trades of positive risk, and is then a fold. -/
theorem accountLoop_eq_ok {riskPercent : ℚ} {m a : AccountMetrics}
    {trades : List (TradeResult × AwareTime)} :
    accountLoop riskPercent m trades = .ok a ↔
      (∀ t ∈ trades, 0 < t.1.risk) ∧ a = trades.foldl (·.addTrade riskPercent) m := by
  induction trades generalizing m with
  | nil => simp [accountLoop, eq_comm]
  | cons t ts ih =>
    unfold accountLoop
    by_cases ht : t.1.risk ≤ 0
    · have hnot : ¬0 < t.1.risk := not_lt.2 ht
      simp [ht, hnot]
    · rw [if_neg ht, ih, List.forall_mem_cons, List.foldl_cons]
      have hpos : 0 < t.1.risk := not_le.1 ht
      simp only [hpos, true_and]

theorem riskNormalizedAccountMetrics_ok {trades : List TradeResult} {exitedAt : List AwareTime}
    {configuration : BacktestConfiguration} {riskPercent : ℚ} {a : AccountMetrics}
    (h : riskNormalizedAccountMetrics trades exitedAt configuration riskPercent = .ok a) :
    a = (trades.zip exitedAt).foldl (·.addTrade riskPercent) (.start configuration) :=
  (accountLoop_eq_ok.1 (ok_of_guard h).2).2

/-- The results of the first trades do not depend on the later ones. -/
theorem accountPnls_prefix {riskPercent : ℚ} {m : AccountMetrics}
    {trades trades' : List (TradeResult × AwareTime)} (h : trades <+: trades') :
    (trades.foldl (·.addTrade riskPercent) m).accountPnls <+:
      (trades'.foldl (·.addTrade riskPercent) m).accountPnls := by
  obtain ⟨later, rfl⟩ := h
  rw [List.foldl_append]
  exact prefix_foldl AccountMetrics.accountPnls (fun s t => List.prefix_append _ _) later _

end Matrades

/-!
## The backtest ledger

`modules/backtesting/ledger.py`: the metrics of the trades of a backtest.
-/

namespace Matrades

open Base

/-- The locals of the loop over the trades. -/
structure LedgerLoop where
  curve : Curve ℚ := .start 0
  winStreak : ℕ := 0
  lossStreak : ℕ := 0
  maxWinStreak : ℕ := 0
  maxLossStreak : ℕ := 0

def LedgerLoop.add (l : LedgerLoop) (trade : TradeResult) : LedgerLoop :=
  let (winStreak, lossStreak) :=
    if 0 < trade.pnl then (l.winStreak + 1, 0)
    else if trade.pnl < 0 then (0, l.lossStreak + 1)
    else (l.winStreak, l.lossStreak)
  { curve := l.curve.add trade.pnl
    winStreak
    lossStreak
    maxWinStreak := max l.maxWinStreak winStreak
    maxLossStreak := max l.maxLossStreak lossStreak }

structure LedgerMetrics where
  tradeCount : ℚ := 0
  winRate : ℚ := 0
  expectancy : ℚ := 0
  r : ℚ := 0
  maxDrawdown : ℚ := 0
  averageWinner : ℚ := 0
  averageLoser : ℚ := 0
  profitFactor : ℚ := 0
  mae : ℚ := 0
  mfe : ℚ := 0
  maxWinStreak : ℚ := 0
  maxLossStreak : ℚ := 0
  deriving DecidableEq

section
variable (trades : List TradeResult)

def winners : List ℚ := (trades.map TradeResult.pnl).filter (0 < ·)

def losers : List ℚ := (trades.map TradeResult.pnl).filter (· < 0)

def grossProfit : ℚ := (winners trades).sum

def grossLoss : ℚ := |(losers trades).sum|

/-- `metrics` -/
def ledgerMetrics : LedgerMetrics :=
  if trades.isEmpty then {}
  else
    let loop := trades.foldl LedgerLoop.add {}
    { tradeCount := trades.length
      winRate := (winners trades).length / trades.length
      expectancy := (trades.map TradeResult.pnl).sum / trades.length
      r := ((trades.filter (0 < ·.risk)).map fun t => t.pnl / t.risk).sum / trades.length
      maxDrawdown := loop.curve.maxDrawdown
      averageWinner :=
        if (winners trades).isEmpty then 0 else grossProfit trades / (winners trades).length
      averageLoser :=
        if (losers trades).isEmpty then 0 else (losers trades).sum / (losers trades).length
      profitFactor := if grossLoss trades ≠ 0 then grossProfit trades / grossLoss trades else 0
      mae := (trades.map TradeResult.mae).sum / trades.length
      mfe := (trades.map TradeResult.mfe).sum / trades.length
      maxWinStreak := loop.maxWinStreak
      maxLossStreak := loop.maxLossStreak }

end

end Matrades

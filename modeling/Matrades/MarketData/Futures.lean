import Mathlib.Data.Prod.Lex
import Mathlib.Data.String.Basic
import Matrades.Base.Ranked
import Matrades.Base.Result

/-!
# Dated futures contracts

`executable_contract` and `roll_required` of `modules/market_data/futures.py`. Stored times are aware and in
UTC, so they are instants, in microseconds.

Both functions keep the first-notice buffer, but only `roll_required` keeps the last-trade buffer. A contract
needs no roll exactly when it is outside both (`rollRequired_eq_false`), so what is executed needs none
exactly when no eligible contract is within its last-trade buffer (`executable_unrolled_iff`).
-/

namespace Matrades

open Base

/-! ## Dated futures contracts -/

/-- A `datetime`: the wall time of a naive one, the instant of an aware one. -/
inductive PyDatetime
  | naive (wall : ℤ)
  | aware (instant : ℤ)
  deriving DecidableEq, Repr

structure FuturesContract where
  contractCode : String
  listedAt : ℤ
  firstNotice : Option ℤ := none
  lastTrade : ℤ
  status : String := "ACTIVE"
  deriving DecidableEq, Repr

structure RollRule where
  firstNoticeBufferDays : ℕ := 5
  lastTradeBufferDays : ℕ := 2
  deriving DecidableEq, Repr

/-- `timedelta(days=...)` -/
def timedeltaDays (n : ℕ) : ℤ := 86400000000 * n

namespace FuturesContract

/-- Is the contract in the market at an instant: active and listed? -/
def inMarket (c : FuturesContract) (asOf : ℤ) : Bool :=
  decide (c.status = "ACTIVE") && decide (c.listedAt ≤ asOf)

/-- The conditions of `executable_contract` on one contract. -/
def eligible (c : FuturesContract) (asOf : ℤ) (rule : RollRule) : Bool :=
  c.inMarket asOf && decide (asOf < c.lastTrade) &&
    match c.firstNotice with
    | none => true
    | some firstNotice => decide (asOf < firstNotice - timedeltaDays rule.firstNoticeBufferDays)

/-- The order of contracts: the last trade first, then the code. -/
def expiry (c : FuturesContract) : ℤ ×ₗ String := toLex (c.lastTrade, c.contractCode)

end FuturesContract

/-- `executable_contract` -/
def executableContract (contracts : List FuturesContract) (asOf : PyDatetime) (rule : RollRule) :
    Except String FuturesContract :=
  match asOf with
  | .naive _ => .error "as_of must be timezone-aware"
  | .aware asOf =>
    orError (least FuturesContract.expiry (contracts.filter fun c => c.eligible asOf rule))
      "no dated futures contract is executable at this time"

/-- `roll_required`: a naive time is taken as UTC. -/
def rollRequired (contract : FuturesContract) (now : PyDatetime) (rule : RollRule) : Bool :=
  let now := match now with
    | .naive wall => wall
    | .aware instant => instant
  (match contract.firstNotice with
    | none => false
    | some firstNotice => decide (firstNotice - timedeltaDays rule.firstNoticeBufferDays ≤ now)) ||
    decide (contract.lastTrade - timedeltaDays rule.lastTradeBufferDays ≤ now)

/-! ## When the executable contract needs no roll -/

section
variable {chain : List FuturesContract} {rule : RollRule} {asOf : ℤ}

theorem timedeltaDays_nonneg (n : ℕ) : 0 ≤ timedeltaDays n := by
  unfold timedeltaDays
  omega

namespace FuturesContract

/-- Is the last trade still further away than the buffer? -/
def BeforeLastTradeBuffer (c : FuturesContract) (asOf : ℤ) (rule : RollRule) : Prop :=
  asOf < c.lastTrade - timedeltaDays rule.lastTradeBufferDays

/-- Is the first notice, where there is one, still further away than the buffer? -/
def BeforeNoticeBuffer (c : FuturesContract) (asOf : ℤ) (rule : RollRule) : Prop :=
  ∀ firstNotice ∈ c.firstNotice, asOf < firstNotice - timedeltaDays rule.firstNoticeBufferDays

variable {c : FuturesContract}

theorem eligible_eq_true : c.eligible asOf rule = true ↔
    c.inMarket asOf = true ∧ asOf < c.lastTrade ∧ c.BeforeNoticeBuffer asOf rule := by
  unfold eligible BeforeNoticeBuffer
  cases c.firstNotice with
  | none => simp
  | some firstNotice => simp [and_assoc]

end FuturesContract

theorem rollRequired_eq_false {c : FuturesContract} : rollRequired c (.aware asOf) rule = false ↔
    c.BeforeNoticeBuffer asOf rule ∧ c.BeforeLastTradeBuffer asOf rule := by
  unfold rollRequired FuturesContract.BeforeNoticeBuffer FuturesContract.BeforeLastTradeBuffer
  cases c.firstNotice with
  | none =>
    simp only [Bool.false_or, decide_eq_false_iff_not, not_le, Option.mem_def, reduceCtorEq,
      IsEmpty.forall_iff, implies_true, true_and]
  | some firstNotice =>
    simp only [Bool.or_eq_false_iff, decide_eq_false_iff_not, not_le, Option.mem_def, Option.some.injEq,
      forall_eq']

/-- In the market, a contract that needs no roll is eligible. -/
theorem eligible_of_unrolled {c : FuturesContract} (hmarket : c.inMarket asOf = true)
    (h : rollRequired c (.aware asOf) rule = false) : c.eligible asOf rule = true := by
  obtain ⟨hnotice, hlast⟩ := rollRequired_eq_false.1 h
  have hbuffer := timedeltaDays_nonneg rule.lastTradeBufferDays
  refine FuturesContract.eligible_eq_true.2 ⟨hmarket, ?_, hnotice⟩
  unfold FuturesContract.BeforeLastTradeBuffer at hlast
  omega

/-! ## The selected contract -/

theorem executableContract_ok {c : FuturesContract} :
    executableContract chain (.aware asOf) rule = .ok c ↔
      least FuturesContract.expiry (chain.filter fun c => c.eligible asOf rule) = some c := orError_eq_ok

theorem executableContract_eligible {c : FuturesContract}
    (h : executableContract chain (.aware asOf) rule = .ok c) : c ∈ chain ∧ c.eligible asOf rule = true :=
  List.mem_filter.1 (least_mem (executableContract_ok.1 h))

/-- No eligible contract expires before the selected one. -/
theorem executableContract_first {c d : FuturesContract}
    (h : executableContract chain (.aware asOf) rule = .ok c) (hd : d ∈ chain)
    (heligible : d.eligible asOf rule = true) : c.lastTrade ≤ d.lastTrade := by
  have hle : c.expiry ≤ d.expiry :=
    least_le (executableContract_ok.1 h) (List.mem_filter.2 ⟨hd, heligible⟩)
  rcases Prod.Lex.le_iff.1 hle with hlt | ⟨heq, -⟩
  · exact hlt.le
  · exact heq.le

theorem exists_executableContract {d : FuturesContract} (hd : d ∈ chain)
    (heligible : d.eligible asOf rule = true) :
    ∃ c, executableContract chain (.aware asOf) rule = .ok c := by
  have hmem : d ∈ chain.filter fun c => c.eligible asOf rule := List.mem_filter.2 ⟨hd, heligible⟩
  obtain ⟨c, hc⟩ : ∃ c, least FuturesContract.expiry _ = some c := exists_least hmem
  exact ⟨c, executableContract_ok.2 hc⟩

/-! ## Agreement of the two functions -/

/-- What is executed needs no roll, and nothing of the chain that needs none expires before it. -/
def ExecutesUnrolled (chain : List FuturesContract) (rule : RollRule) (asOf : ℤ) : Prop :=
  ∀ c, executableContract chain (.aware asOf) rule = .ok c →
    rollRequired c (.aware asOf) rule = false ∧
      ∀ d ∈ chain, rollRequired d (.aware asOf) rule = false → c.lastTrade ≤ d.lastTrade

/-- No eligible contract is within its last-trade buffer. -/
def NoLastTradeBuffer (chain : List FuturesContract) (rule : RollRule) (asOf : ℤ) : Prop :=
  ∀ c ∈ chain, c.eligible asOf rule = true → c.BeforeLastTradeBuffer asOf rule

/-- A contract outside the market that needs no roll does not expire before all eligible ones. -/
def MarketLeads (chain : List FuturesContract) (rule : RollRule) (asOf : ℤ) : Prop :=
  ∀ d ∈ chain, d.inMarket asOf = false → rollRequired d (.aware asOf) rule = false →
    ∀ e ∈ chain, e.eligible asOf rule = true →
      ∃ c ∈ chain, c.eligible asOf rule = true ∧ c.lastTrade ≤ d.lastTrade

theorem executesUnrolled_of (hbuffer : NoLastTradeBuffer chain rule asOf)
    (hmarket : MarketLeads chain rule asOf) : ExecutesUnrolled chain rule asOf := by
  intro c hc
  obtain ⟨hmem, heligible⟩ := executableContract_eligible hc
  have hnotice := (FuturesContract.eligible_eq_true.1 heligible).2.2
  refine ⟨rollRequired_eq_false.2 ⟨hnotice, hbuffer c hmem heligible⟩, fun d hd hroll => ?_⟩
  cases hin : d.inMarket asOf with
  | true => exact executableContract_first hc hd (eligible_of_unrolled hin hroll)
  | false =>
    obtain ⟨e, he, heligible', hle⟩ := hmarket d hd hin hroll c hmem heligible
    exact le_trans (executableContract_first hc he heligible') hle

theorem noLastTradeBuffer_of (h : ExecutesUnrolled chain rule asOf) : NoLastTradeBuffer chain rule asOf := by
  intro d hd heligible
  obtain ⟨c, hc⟩ := exists_executableContract hd heligible
  have hfirst := executableContract_first hc hd heligible
  have hlast := (rollRequired_eq_false.1 (h c hc).1).2
  unfold FuturesContract.BeforeLastTradeBuffer at hlast ⊢
  omega

theorem marketLeads_of (h : ExecutesUnrolled chain rule asOf) : MarketLeads chain rule asOf := by
  intro d hd _ hroll e he heligible
  obtain ⟨c, hc⟩ := exists_executableContract he heligible
  obtain ⟨hmem, hcan⟩ := executableContract_eligible hc
  exact ⟨c, hmem, hcan, (h c hc).2 d hd hroll⟩

/-- **What is executed needs no roll** and expires first among what needs none, exactly when no eligible
contract is within its last-trade buffer and none outside the market would expire first. -/
theorem executable_unrolled_iff (chain : List FuturesContract) (rule : RollRule) (asOf : ℤ) :
    ExecutesUnrolled chain rule asOf ↔
      NoLastTradeBuffer chain rule asOf ∧ MarketLeads chain rule asOf :=
  ⟨fun h => ⟨noLastTradeBuffer_of h, marketLeads_of h⟩, fun h => executesUnrolled_of h.1 h.2⟩

/-- A contract a day before its last trade. -/
def lastDayContract : FuturesContract :=
  { contractCode := "GCZ6", listedAt := 0, lastTrade := timedeltaDays 10 }

/-- A day before its last trade the contract is executed although its roll is required. -/
theorem executable_contract_rolls : ¬∀ chain rule asOf, ExecutesUnrolled chain rule asOf := by
  intro h
  have hroll := (h [lastDayContract] {} (timedeltaDays 9) lastDayContract (by rfl)).1
  exact absurd hroll (by decide)

end

end Matrades

import Matrades.Risk.Proof.Approval
import Matrades.Trading.PlanStorage

/-!
# Which plans come back from their storage

A plan is read back exactly where it meets the constraints of its model (`roundTrips_iff`). The changes
of a plan keep the constraints (`accepted_change`): the only one that touches the construction takes
its size from an evaluation that does not block, which is positive. `build_trade_plan` takes it from any
risk result, so the plan of a blocked candidate is stored and cannot be read again
(`blocked_plan_unreadable`); every other plan comes back, in every later state (`built_plan_returns_iff`).
-/

namespace Matrades.PlanSchema

open Base

/-! ## The constraints -/

theorem TradeConstruction.accepted_iff {c : TradeConstruction} :
    c.accepted = true ↔ 0 < c.entry.value ∧ 0 < c.stopLoss.value ∧ 0 < c.targets.length ∧
      0 < c.approvedSize.value := by
  simp only [accepted, Bool.and_eq_true, decide_eq_true_eq, and_assoc, Nat.succ_le_iff]

theorem TradePlan.accepted_iff {p : TradePlan} :
    p.accepted = true ↔ p.construction.accepted = true ∧ 1 ≤ p.version := by
  simp only [accepted, Bool.and_eq_true, decide_eq_true_eq]

/-- A size is all that can break a construction that was accepted. -/
theorem TradeConstruction.accepted_resized {c : TradeConstruction} (h : c.accepted = true)
    (size : Written) : { c with approvedSize := size }.accepted = true ↔ 0 < size.value := by
  obtain ⟨hentry, hstop, htargets, _⟩ := accepted_iff.1 h
  rw [accepted_iff]
  exact ⟨fun hresized => hresized.2.2.2, fun hsize => ⟨hentry, hstop, htargets, hsize⟩⟩

theorem TradeConstruction.accepted_approvedBy {c : TradeConstruction} (h : c.accepted = true)
    (risk : RiskResult) : (c.approvedBy risk).accepted = true ↔ 0 < risk.approvedSize.value := by
  unfold approvedBy
  split
  · exact accepted_resized h risk.approvedSize
  · rename_i hsame
    rw [← not_not.1 hsame]
    exact iff_of_true h (accepted_iff.1 h).2.2.2

/-! ## Changes -/

/-- An evaluation that does not block approves a positive size. -/
theorem RiskResult.Evaluated.size_pos {risk : RiskResult} (h : risk.Evaluated)
    (hdecision : risk.decision ≠ .hardBlock) : 0 < risk.approvedSize.value := by
  obtain ⟨context, c, result, hresult, hsame, hsize⟩ := h
  rcases evaluate_size hresult with ⟨hblock, _⟩ | ⟨_, hpos⟩
  · exact absurd (hsame.trans hblock) hdecision
  · rw [hsize]
    exact hpos

theorem accepted_transition {p : TradePlan} (h : p.accepted = true) (target : TradePlanState) :
    ((transitionTradePlan p target).toOption.getD p).accepted = true := by
  obtain ⟨hconstruction, hversion⟩ := TradePlan.accepted_iff.1 h
  unfold transitionTradePlan
  split
  · exact h
  · split
    · apply TradePlan.accepted_iff.2
      exact ⟨hconstruction, by show 1 ≤ p.version + 1; omega⟩
    · exact h

/-- **A change keeps the constraints.** -/
theorem accepted_change {p : TradePlan} {change : PlanChange} (h : p.accepted = true)
    (hsound : change.Sound) : (p.change change).accepted = true := by
  obtain ⟨hconstruction, hversion⟩ := TradePlan.accepted_iff.1 h
  cases change with
  | size risk =>
    obtain ⟨hevaluated, hdecision⟩ := hsound
    apply TradePlan.accepted_iff.2
    exact ⟨(TradeConstruction.accepted_resized hconstruction risk.approvedSize).2
      (hevaluated.size_pos hdecision), hversion⟩
  | transition target => exact accepted_transition h target
  | manage | execute =>
    apply TradePlan.accepted_iff.2
    exact ⟨hconstruction, by show 1 ≤ p.version + 1; omega⟩
  | block | blockWith | ticket | reserve | authorize | command =>
    exact TradePlan.accepted_iff.2 ⟨hconstruction, hversion⟩

/-! ## Built plans -/

/-- A plan is built with the construction and the version of its arguments. -/
theorem buildTradePlan_ok {env : BuildEnv} {a : PlanArguments} {reservations : Option ReservationBook}
    {p : TradePlan} {book : Option ReservationBook} (h : buildTradePlan env a reservations = .ok (p, book)) :
    p.construction = a.construction.1.approvedBy a.risk ∧ p.version = 1 := by
  unfold buildTradePlan at h
  cases reservations with
  | none =>
    cases h
    exact ⟨rfl, rfl⟩
  | some start =>
    dsimp only at h
    split at h
    · cases h
      exact ⟨rfl, rfl⟩
    · obtain ⟨reserved, _, h⟩ := ok_of_bind h
      cases h
      exact ⟨rfl, rfl⟩

theorem built_accepted_iff {env : BuildEnv} {a : PlanArguments} {reservations : Option ReservationBook}
    {p : TradePlan} {book : Option ReservationBook} (h : buildTradePlan env a reservations = .ok (p, book)) :
    p.accepted = true ↔ 0 < a.risk.approvedSize.value := by
  obtain ⟨hconstruction, hversion⟩ := buildTradePlan_ok h
  rw [TradePlan.accepted_iff, hconstruction, hversion,
    TradeConstruction.accepted_approvedBy a.construction.2]
  exact and_iff_left (le_refl 1)

/-- **Which built plans come back from storage**: a plan that is built is read back as it was stored, in
every state that its changes lead to, exactly if its risk result approves a positive size. -/
theorem built_plan_returns_iff {env : BuildEnv} {a : PlanArguments}
    {reservations book : Option ReservationBook} {p : TradePlan}
    (h : buildTradePlan env a reservations = .ok (p, book)) :
    (∀ changes : List PlanChange, (∀ change ∈ changes, change.Sound) →
      States TradePlan.change TradePlan.RoundTrips p changes) ↔ 0 < a.risk.approvedSize.value := by
  rw [← built_accepted_iff h]
  constructor
  · intro hall
    exact TradePlan.roundTrips_iff.1 (hall [] fun _ hchange => absurd hchange List.not_mem_nil)
  · intro haccepted changes hsound
    have hstates := states_of_inv (I := fun p => p.accepted = true) (fun p change => accepted_change)
      haccepted (along_of_mem hsound p)
    exact hstates.mono fun p => TradePlan.roundTrips_iff.2

/-! ## A passed and a blocked candidate -/

def whole (n : ℕ) : Written := ⟨false, n, 0⟩

def exampleConstruction : TradeConstruction where
  instrument := "EURUSD"
  direction := .buy
  entry := whole 3
  stopLoss := whole 2
  targets := [whole 5]
  invalidation := "close below 2"
  approvedSize := whole 1
  quantityUnit := .lots
  assetClass := .forex
  instrumentType := .cfd
  venueInstrumentId := .ofNat 30
  specificationVersionId := .ofNat 31

def exampleSnapshot (risk : ℕ) : RiskSnapshot where
  accountId := .ofNat 1
  accountEquity := whole 1000
  currentBalance := whole 1000
  startingAccount := whole 1000
  floatingPnl := whole 0
  realizedDailyPnl := whole 0
  currentDrawdown := whole 0
  dailyDrawdown := whole 0
  maximumAllowedDrawdown := whole 100
  remainingDrawdown := whole 100
  dailyLossUsed := whole 0
  dailyLossRemaining := whole 50
  existingOpenRisk := whole 0
  candidateTradeRisk := whole risk
  portfolioRiskAfterTrade := whole risk
  remainingTotalLossCapacity := whole 100
  remainingPortfolioRiskCapacity := whole 30
  openTrades := 0
  maxConcurrentTrades := 3
  additionalTradeCapacity := 3
  observedAt := "2026-01-01T00:00:00Z"
  source := "MT5_BRIDGE"
  sourceVersion := "sequence:1"

def exampleArguments (decision : RiskDecision) (size : ℕ) : PlanArguments where
  ownerId := .ofNat 9
  accountId := .ofNat 1
  construction := ⟨exampleConstruction, by decide +kernel⟩
  strategyVersionId := .ofNat 40
  marketFingerprintId := .ofNat 41
  risk := {
    decision, approvedSize := whole size, reasons := [], limitingConstraints := []
    snapshot := exampleSnapshot size }
  evidenceRefs := ["strategy:40"]
  expiresAt := ⟨1767225600 * second, by decide⟩

def exampleEnv : BuildEnv := ⟨0, .ofNat 20, .ofNat 21⟩

/-- The plan of a candidate that passes comes back, also after it was reserved and queued. -/
theorem passed_plan_returns :
    States TradePlan.change TradePlan.RoundTrips ((exampleArguments .pass 1).plan exampleEnv)
      [.reserve (.ofNat 21), .transition .authorized, .transition .executionPending,
        .command (.ofNat 22)] := by
  have hbuilt : buildTradePlan exampleEnv (exampleArguments .pass 1) none =
      .ok ((exampleArguments .pass 1).plan exampleEnv, none) := rfl
  have hsound : ∀ change ∈ [PlanChange.reserve (.ofNat 21), .transition .authorized,
      .transition .executionPending, .command (.ofNat 22)], change.Sound := by
    simp [PlanChange.Sound]
  exact (built_plan_returns_iff hbuilt).2 (by decide +kernel) _ hsound

/-- **A blocked candidate's plan is stored and cannot be read again**: its construction has the size 0
that the risk result approves. -/
theorem blocked_plan_unreadable :
    let plan := (exampleArguments .hardBlock 0).plan exampleEnv
    buildTradePlan exampleEnv (exampleArguments .hardBlock 0) none = .ok (plan, none) ∧
      plan.state = .blocked ∧ TradePlan.modelValidate plan.modelDump = none ∧ ¬plan.RoundTrips := by
  intro plan
  have hunreadable : TradePlan.modelValidate plan.modelDump = none := by
    unfold TradePlan.modelValidate TradePlan.modelDump
    rw [Codec.Exact.load_dump, Option.filter_some, if_neg (by decide +kernel)]
  refine ⟨rfl, rfl, hunreadable, fun hreturns => ?_⟩
  rw [TradePlan.RoundTrips, hunreadable] at hreturns
  cases hreturns

end Matrades.PlanSchema

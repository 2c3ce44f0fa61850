import Matrades.Base.Clamped
import Matrades.Risk.Proof.FailClosed
import Matrades.Risk.Proof.Monotone

/-!
# The order of the positions

Without unrealized profits the reserved risk of bounded positions is a sum. With them it is a total
clamped at zero behind every position: a profit counts only against the losses in front of it. So the
order of the positions does not matter exactly if no profit is above its position's loss, or none is
below (`order_free_iff`); then an evaluation does not depend on it either (`evaluate_perm`).
-/

namespace Matrades

open Base

/-! ## Reserved risk -/

/-- What a position adds to the reserved risk, its unrealized profit netted. -/
def OpenPositionRisk.netLoss (p : OpenPositionRisk) : ℚ :=
  max 0 (p.remainingLossToStop.getD 0) - max p.unrealizedPnl 0

def AllBounded (positions : List OpenPositionRisk) : Prop :=
  ∀ p ∈ positions, p.remainingLossToStop.isSome = true

theorem reserveStep_netted {p : OpenPositionRisk} (h : p.remainingLossToStop.isSome = true) (total : ℚ) :
    reserveStep true total p = .ok (max 0 (total + p.netLoss)) := by
  obtain ⟨loss, hloss⟩ := Option.isSome_iff_exists.1 h
  unfold reserveStep OpenPositionRisk.netLoss
  rw [hloss]
  simp only [if_true, Option.getD_some, add_sub_assoc]

theorem reservedRisk_netted {positions : List OpenPositionRisk} (h : AllBounded positions) :
    reservedRisk positions true = .ok (clampedTotal 0 (positions.map OpenPositionRisk.netLoss)) := by
  have hfrom : ∀ start : ℚ, positions.foldlM (reserveStep true) start =
      .ok (clampedTotal start (positions.map OpenPositionRisk.netLoss)) := by
    induction positions with
    | nil => exact fun start => rfl
    | cons p positions ih =>
      obtain ⟨hp, hrest⟩ := List.forall_mem_cons.1 h
      intro start
      rw [List.foldlM_cons, bind_ok_eq (reserveStep_netted hp start), ih hrest]
      rfl
  exact hfrom 0

theorem reservedRisk_plain {positions : List OpenPositionRisk} (h : AllBounded positions) :
    reservedRisk positions false =
      .ok (positions.map fun p => max 0 (p.remainingLossToStop.getD 0)).sum :=
  reservedRisk_ok_iff.2 ⟨h, rfl⟩

/-- No position's unrealized profit is above its loss, or none is below. -/
def OneSided (positions : List OpenPositionRisk) : Prop :=
  (∀ p ∈ positions, max p.unrealizedPnl 0 ≤ max 0 (p.remainingLossToStop.getD 0)) ∨
    ∀ p ∈ positions, max 0 (p.remainingLossToStop.getD 0) ≤ max p.unrealizedPnl 0

theorem reserved_order_iff {positions : List OpenPositionRisk} (h : AllBounded positions) :
    (∀ positions' : List OpenPositionRisk, positions'.Perm positions → ∀ profits,
      reservedRisk positions' profits = reservedRisk positions profits) ↔ OneSided positions := by
  have hbounded : ∀ {positions' : List OpenPositionRisk}, positions'.Perm positions →
      AllBounded positions' := fun hperm p hp => h p (hperm.subset hp)
  have hsides : OneSided positions ↔
      (∀ p ∈ positions, 0 ≤ p.netLoss) ∨ ∀ p ∈ positions, p.netLoss ≤ 0 := by
    unfold OneSided OpenPositionRisk.netLoss
    simp only [sub_nonneg, sub_nonpos]
  rw [hsides, ← clampedTotal_perm_iff]
  constructor
  · intro horder positions' hperm
    have hsame := horder positions' hperm true
    rw [reservedRisk_netted (hbounded hperm), reservedRisk_netted h] at hsame
    exact Except.ok.inj hsame
  · intro horder positions' hperm profits
    cases profits with
    | true =>
      rw [reservedRisk_netted (hbounded hperm), reservedRisk_netted h, horder positions' hperm]
    | false => rw [reservedRisk_plain (hbounded hperm), reservedRisk_plain h, (hperm.map _).sum_eq]

/-! ## Exposures -/

/-- The same exposure of every group, whatever the order of the positions. -/
theorem aggregateExposure_perm {positions positions' : List OpenPositionRisk}
    (hperm : positions'.Perm positions) {held : Dict String Exposure}
    (h : aggregateExposure positions none = .ok held) :
    ∃ held', aggregateExposure positions' none = .ok held' ∧
      ∀ group, held'.total group = held.total group := by
  obtain ⟨added, hadded, h⟩ := ok_of_bind h
  cases h
  obtain ⟨added', hadded', hsame⟩ := ok_mapM_perm hperm.symm hadded
  refine ⟨_, bind_ok_eq hadded' _, fun group => ?_⟩
  rw [Dict.total_foldl_addTo, Dict.total_foldl_addTo, List.append_nil, List.append_nil,
    Dict.contribution_perm hsame.symm.flatten]

/-! ## Evaluations -/

/-- The context with its positions in another order. -/
def RiskContext.reorder (context : RiskContext) (positions : List OpenPositionRisk) : RiskContext :=
  { context with positions }

theorem existingRisk_reorder {context : RiskContext} {positions : List OpenPositionRisk}
    (h : reservedRisk positions context.includeUnrealizedProfit =
      reservedRisk context.positions context.includeUnrealizedProfit) :
    existingRisk (context.reorder positions) = existingRisk context := by
  unfold existingRisk
  rw [show reservedRisk (context.reorder positions).positions
    (context.reorder positions).includeUnrealizedProfit = _ from h]
  rfl

/-- A reordered context leaves the same room. -/
theorem tightens_reorder (context : RiskContext) {positions : List OpenPositionRisk}
    (hperm : positions.Perm context.positions)
    (h : reservedRisk positions context.includeUnrealizedProfit =
      reservedRisk context.positions context.includeUnrealizedProfit) :
    Tightens (context.reorder positions) context := by
  refine { Tightens.refl context with count := hperm.length_eq.ge, existing := ?_, held := ?_ }
  · intro more hmore
    rw [existingRisk_reorder h] at hmore
    exact ⟨more, hmore, le_refl more⟩
  · intro more hmore
    obtain ⟨less, hless, hsame⟩ := aggregateExposure_perm hperm.symm hmore
    exact ⟨less, hless, fun group => (hsame group).le⟩

theorem capacities_reorder {context : RiskContext} {positions : List OpenPositionRisk}
    {limits : RequiredLimits} {existing : ℚ} {held held' : Dict String Exposure}
    (h : ∀ group, held'.total group = held.total group) :
    capacities (context.reorder positions) limits existing held' =
      capacities context limits existing held := by
  have hgroups : correlationRemaining (context.reorder positions) held' =
      correlationRemaining context held := by
    unfold correlationRemaining
    refine List.map_congr_left fun e _ => ?_
    rw [h]
  unfold capacities
  rw [hgroups]
  rfl

/-- A reordered context is evaluable where the other is. -/
theorem evaluable_reorder (context : RiskContext) {positions : List OpenPositionRisk}
    {c : CandidateTrade} (hperm : positions.Perm context.positions)
    (h : reservedRisk positions context.includeUnrealizedProfit =
      reservedRisk context.positions context.includeUnrealizedProfit)
    (he : Evaluable context c) : Evaluable (context.reorder positions) c where
  bounded := fun p hp => he.bounded p (hperm.subset hp)
  unit := he.unit
  sizable := by
    intro hauthority perUnit limits hperUnit hlimits existing held hexisting hheld
    rw [existingRisk_reorder h] at hexisting
    obtain ⟨held', hheld', hsame⟩ := aggregateExposure_perm hperm.symm hheld
    have hsized := he.sizable hauthority perUnit limits hperUnit hlimits existing held' hexisting hheld'
    have hslots : NoSlot (context.reorder positions) ↔ NoSlot context := by
      unfold NoSlot
      rw [show (context.reorder positions).positions.length = _ from hperm.length_eq]
      exact Iff.rfl
    rw [capacities_reorder fun group => (hsame group).symm]
    unfold NotionalDefined TradesCountable at hsized ⊢
    rw [hslots]
    exact hsized

/-- The remaining portfolio risk that an evaluation reports. -/
def reportedRemaining (context : RiskContext) (c : CandidateTrade) : ℚ :=
  match authorityError context c, requiredLimits context, existingRisk context with
  | none, some limits, .ok existing => max 0 (limits.portfolio.value - existing)
  | _, _, _ => 0

theorem blocked_remaining {context : RiskContext} {drawdown allowed remaining used daily : ℚ}
    {existing : Exposure} {reason : String} {result : RiskResult}
    (h : blocked context drawdown allowed remaining used daily existing reason = .ok result) :
    result.snapshot.remainingPortfolioRiskCapacity = 0 := by
  obtain ⟨_, _, h⟩ := ok_of_bind h
  obtain ⟨_, _, h⟩ := ok_of_bind h
  obtain ⟨_, _, h⟩ := ok_of_bind h
  cases h
  rfl

theorem missingAuthority_remaining {context : RiskContext} {missing : List String}
    {result : RiskResult} (h : missingAuthority context missing = .ok result) :
    result.snapshot.remainingPortfolioRiskCapacity = 0 := by
  obtain ⟨r, hr, h⟩ := ok_of_bind h
  have hzero := blocked_remaining hr
  cases h
  exact hzero

theorem evaluate_remaining {context : RiskContext} {c : CandidateTrade} {result : RiskResult}
    (h : evaluate context c = .ok result) :
    result.snapshot.remainingPortfolioRiskCapacity = reportedRemaining context c := by
  unfold evaluate at h
  unfold reportedRemaining
  cases hauthority : authorityError context c with
  | some error =>
    rw [hauthority] at h
    exact missingAuthority_remaining h
  | none =>
    rw [hauthority] at h
    dsimp only at h
    obtain ⟨perUnit, -, h⟩ := ok_of_bind h
    cases hlimits : requiredLimits context with
    | none =>
      rw [hlimits] at h
      exact missingAuthority_remaining h
    | some limits =>
      rw [hlimits] at h
      dsimp only at h
      cases hexisting : existingRisk context with
      | error reason =>
        unfold assess at h
        dsimp only at h
        rw [hexisting] at h
        exact blocked_remaining h
      | ok existing =>
        obtain ⟨held, size, hassessed⟩ := assess_assessed hexisting h
        exact hassessed.remaining

theorem reportedRemaining_reorder {context : RiskContext} {positions : List OpenPositionRisk}
    (h : reservedRisk positions context.includeUnrealizedProfit =
      reservedRisk context.positions context.includeUnrealizedProfit) (c : CandidateTrade) :
    reportedRemaining (context.reorder positions) c = reportedRemaining context c := by
  unfold reportedRemaining
  rw [existingRisk_reorder h]
  rfl

/-- Both evaluations raise, or both leave the same size and the same capacity. -/
def SameSizing (r r' : Except RiskError RiskResult) : Prop :=
  (Returns r ↔ Returns r') ∧ ∀ result result', r = .ok result → r' = .ok result' →
    result.approvedSize = result'.approvedSize ∧
      result.snapshot.remainingPortfolioRiskCapacity =
        result'.snapshot.remainingPortfolioRiskCapacity

theorem evaluate_perm {context : RiskContext} {positions : List OpenPositionRisk}
    (hperm : positions.Perm context.positions)
    (h : reservedRisk positions context.includeUnrealizedProfit =
      reservedRisk context.positions context.includeUnrealizedProfit) (c : CandidateTrade) :
    SameSizing (evaluate (context.reorder positions) c) (evaluate context c) := by
  have hback : (context.reorder positions).reorder context.positions = context := rfl
  constructor
  · rw [evaluate_returns_iff, evaluate_returns_iff]
    constructor
    · intro he
      have hagain := evaluable_reorder (context.reorder positions) hperm.symm h.symm he
      rwa [hback] at hagain
    · exact evaluable_reorder context hperm h
  · intro result result' hresult hresult'
    have hloose := tightens_reorder context hperm h
    have htight := tightens_reorder (context.reorder positions) hperm.symm h.symm
    rw [hback] at htight
    refine ⟨le_antisymm ?_ ?_, ?_⟩
    · exact (evaluate_tightens hloose hresult' hresult).1
    · exact (evaluate_tightens htight hresult hresult').1
    · rw [evaluate_remaining hresult, evaluate_remaining hresult', reportedRemaining_reorder h]

/-! ## The condition -/

/-- Neither the reserved risk nor an evaluation depends on the order of the positions. -/
structure OrderFree (positions : List OpenPositionRisk) : Prop where
  reserved : ∀ positions' : List OpenPositionRisk, positions'.Perm positions → ∀ profits,
    reservedRisk positions' profits = reservedRisk positions profits
  evaluated : ∀ context : RiskContext, context.positions = positions →
    ∀ positions' : List OpenPositionRisk, positions'.Perm positions → ∀ c,
      SameSizing (evaluate (context.reorder positions') c) (evaluate context c)

/-- **The order of bounded positions does not matter exactly if their profits are on one side of their
losses.** -/
theorem order_free_iff {positions : List OpenPositionRisk} (h : AllBounded positions) :
    OrderFree positions ↔ OneSided positions := by
  rw [← reserved_order_iff h]
  constructor
  · exact fun hfree => hfree.reserved
  · intro hreserved
    refine ⟨hreserved, ?_⟩
    rintro context rfl positions' hperm c
    exact evaluate_perm hperm (hreserved positions' hperm context.includeUnrealizedProfit) c

/-- A position with a loss and an unrealized profit. -/
def nettedPosition (loss profit : ℚ) : OpenPositionRisk where
  instrument := "EURUSD"
  marketCategory := "FOREX"
  currencyExposures := Dict.empty
  remainingLossToStop := some loss
  unrealizedPnl := profit

theorem order_free_covered :
    OrderFree [nettedPosition 100 40, nettedPosition 50 50] ∧
      reservedRisk [nettedPosition 100 40, nettedPosition 50 50] true = .ok 60 := by
  refine ⟨(order_free_iff ?_).2 (.inl ?_), by decide +kernel⟩
  · intro p hp
    simp only [List.mem_cons, List.not_mem_nil, or_false] at hp
    rcases hp with rfl | rfl <;> rfl
  · intro p hp
    simp only [List.mem_cons, List.not_mem_nil, or_false] at hp
    rcases hp with rfl | rfl <;> decide +kernel

/-- **A profit in front of the loss it would be netted with is lost.** -/
theorem profit_lost_in_front :
    reservedRisk [nettedPosition 100 0, nettedPosition 0 40] true = .ok 60 ∧
    reservedRisk [nettedPosition 0 40, nettedPosition 100 0] true = .ok 100 ∧
    ¬∀ positions : List OpenPositionRisk, AllBounded positions → OrderFree positions := by
  have hbehind : reservedRisk [nettedPosition 100 0, nettedPosition 0 40] true = .ok 60 := by
    decide +kernel
  have hfront : reservedRisk [nettedPosition 0 40, nettedPosition 100 0] true = .ok 100 := by
    decide +kernel
  refine ⟨hbehind, hfront, fun hall => ?_⟩
  have hbounded : AllBounded [nettedPosition 100 0, nettedPosition 0 40] := by
    intro p hp
    simp only [List.mem_cons, List.not_mem_nil, or_false] at hp
    rcases hp with rfl | rfl <;> rfl
  have hsame := (hall _ hbounded).reserved _ (.swap (nettedPosition 100 0) (nettedPosition 0 40) []) true
  rw [hbehind, hfront] at hsame
  have hvalues := Except.ok.inj hsame
  revert hvalues
  decide +kernel

end Matrades

import Mathlib.Tactic.NormNum
import Matrades.Base.Result
import Matrades.Risk.Engine

/-!
# Risk approval is sound

What `evaluate` approves fits every capacity it was measured against. The size comes from
`compliantSize`, which rounds down what the tightest net capacity allows (`compliantSize_spec`); the
net capacities are the capacities less the fixed cost, so the cost fits as well
(`fits_of_net`). `WithinLimits` is the purpose of the engine, stated over the account: the loss of
the trade, cost included, is within each remaining capacity.
-/

namespace Matrades

open Base

/-- The loss `risk` of a new trade is within every remaining capacity of the account. -/
structure WithinLimits (context : RiskContext) (risk : ℚ) : Prop where
  drawdown : ∃ limit, strictestApplicable context.constraints .maxTotalDrawdown = some limit ∧
    risk ≤ limit.value - totalDrawdown context.account.startingBalance context.account.currentEquity
  daily : ∃ limit, strictestApplicable context.constraints .maxDailyLoss = some limit ∧
    risk ≤ limit.value - dailyLoss context.account.realizedDailyPnl context.account.floatingPnl
  portfolio : ∃ limit reserved, strictestApplicable context.constraints .maxPortfolioRisk =
      some limit ∧ reservedRisk context.positions context.includeUnrealizedProfit = .ok reserved ∧
    risk ≤ limit.value - reserved - context.activeReservations.sum
  perTrade : ∀ limit, strictestApplicable context.constraints .maxRiskPerTrade = some limit →
    risk ≤ limit.value
  correlated : ∃ held, aggregateExposure context.positions none = .ok held ∧
    ∀ e ∈ context.correlationCaps.entries, ∃ exposure : ℚ, held.total e.1 = (exposure : Exposure) ∧
      risk ≤ e.2 - exposure

/-! ## Sizing -/

theorem leastOf_le {c : ℚ} {cs : List ℚ} : ∀ x ∈ c :: cs, leastOf c cs ≤ x := by
  unfold leastOf
  induction cs generalizing c with
  | nil => simp
  | cons d cs ih =>
    intro x hx
    have hmin := ih (c := min c d) (min c d) (by simp)
    rw [List.foldl_cons]
    rcases List.mem_cons.1 hx with rfl | hx
    · exact hmin.trans (min_le_left _ _)
    · rcases List.mem_cons.1 hx with rfl | hx
      · exact hmin.trans (min_le_right _ _)
      · exact ih x (by simp [hx])

theorem le_leastOf {c b : ℚ} {cs : List ℚ} (h : ∀ x ∈ c :: cs, b ≤ x) : b ≤ leastOf c cs := by
  unfold leastOf
  induction cs generalizing c with
  | nil => exact h c (by simp)
  | cons d cs ih =>
    rw [List.foldl_cons]
    refine ih fun x hx => ?_
    rcases List.mem_cons.1 hx with rfl | hx
    · exact le_min (h c (by simp)) (h d (by simp))
    · exact h x (by simp [hx])

/-- The size for a budget costs at most the budget, and is positive only for a positive one. -/
theorem sizeForRisk_spec {budget perUnit increment size : ℚ} (hp : 0 < perUnit)
    (hi : 0 < increment) (h : sizeForRisk budget perUnit increment = .ok size) :
    0 ≤ size ∧ (0 < size → 0 < budget ∧ size * perUnit ≤ budget) := by
  unfold sizeForRisk at h
  split at h
  · cases h
    simp
  · rename_i hb
    rw [not_or, not_le] at hb
    rw [roundDown, if_neg (by linarith)] at h
    cases h
    have hq : 0 ≤ budget / perUnit := (div_pos hb.1 hp).le
    refine ⟨floorTo_nonneg hq hi, fun _ => ⟨hb.1, ?_⟩⟩
    calc floorTo (budget / perUnit) increment * perUnit
        ≤ budget / perUnit * perUnit := mul_le_mul_of_nonneg_right (floorTo_le hq hi) hp.le
      _ = budget := div_mul_cancel₀ budget hp.ne'

/-- A positive compliant size is at most the requested one, and its loss fits each capacity. -/
theorem compliantSize_spec {requested perUnit increment size : ℚ} {capacities : List ℚ}
    (hr : 0 < requested) (hp : 0 < perUnit) (hi : 0 < increment) (hne : capacities ≠ [])
    (h : compliantSize requested perUnit capacities increment = .ok size) :
    0 ≤ size ∧ size ≤ requested ∧
      (0 < size → ∀ cap ∈ capacities, 0 < cap ∧ size * perUnit ≤ cap) := by
  obtain ⟨c, cs, rfl⟩ := List.exists_cons_of_ne_nil hne
  obtain ⟨raw, hraw, h⟩ := ok_of_bind h
  cases h
  obtain ⟨h0, hfit⟩ := sizeForRisk_spec hp hi hraw
  refine ⟨le_min hr.le h0, min_le_left _ _, fun hpos cap hcap => ?_⟩
  obtain ⟨hb, hcost⟩ := hfit (hpos.trans_le (min_le_right _ _))
  have hleast : leastOf c cs ≤ cap := leastOf_le cap hcap
  have hbudget : max 0 (leastOf c cs) = leastOf c cs := by
    rcases le_total (leastOf c cs) 0 with hn | hn
    · rw [max_eq_left hn] at hb
      exact absurd hb (lt_irrefl 0)
    · exact max_eq_right hn
  rw [hbudget] at hb hcost
  refine ⟨hb.trans_le hleast, ?_⟩
  calc min requested raw * perUnit ≤ raw * perUnit :=
        mul_le_mul_of_nonneg_right (min_le_right _ _) hp.le
    _ ≤ cap := hcost.trans hleast

/-- A loss within a positive net capacity fits the capacity together with the fixed cost. -/
theorem fits_of_net {loss cost cap : ℚ} (hpos : 0 < max 0 (cap - cost))
    (h : loss ≤ max 0 (cap - cost)) : loss + cost ≤ cap := by
  rcases le_total (cap - cost) 0 with hn | hn
  · rw [max_eq_left hn] at hpos
    exact absurd hpos (lt_irrefl 0)
  · rw [max_eq_right hn] at h
    linarith

/-- A positive amount below a capacity clamped at 0 is below the capacity. -/
theorem le_of_le_max {risk cap : ℚ} (hr : 0 < risk) (h : risk ≤ max 0 cap) : risk ≤ cap := by
  rcases le_max_iff.1 h with h0 | h0
  · exact absurd hr (not_lt.2 h0)
  · exact h0

theorem le_of_le_remainingCap {risk cap : ℚ} {exposure : Exposure} (hr : 0 < risk)
    (h : risk ≤ remainingCap cap exposure) : ∃ x : ℚ, exposure = x ∧ risk ≤ cap - x := by
  cases exposure with
  | none => exact absurd hr (not_lt.2 h)
  | some x => exact ⟨x, rfl, le_of_le_max hr h⟩

/-! ## The loss per unit -/

theorem typeAwareLossPerUnit_pos {t : InstrumentType} {entry stop multiplier perUnit : ℚ}
    {tickSize tickValue : Option ℚ}
    (h : typeAwareLossPerUnit t entry stop multiplier tickSize tickValue = .ok perUnit) :
    0 < perUnit := by
  unfold typeAwareLossPerUnit at h
  split at h
  · cases h
  · rename_i hm
    rw [not_le] at hm
    dsimp only at h
    split at h
    · cases h
    · rename_i hd
      rw [not_le] at hd
      split at h
      · split at h
        · rename_i size value
          split at h
          · cases h
          · rename_i hs
            rw [not_or, not_le, not_le] at hs
            cases h
            refine mul_pos (abs_pos.2 ?_) hs.2
            exact (div_pos hd hs.1).ne'
        · cases h
      · cases h
        exact mul_pos hd hm

theorem usedRiskPerUnit_pos {c : CandidateTrade} {perUnit : ℚ}
    (h : usedRiskPerUnit c = .ok perUnit) : 0 < perUnit := by
  unfold usedRiskPerUnit at h
  split at h
  · cases h
    exact c.riskPerUnit_pos
  · exact typeAwareLossPerUnit_pos h

/-! ## The branches of `evaluate` -/

theorem blocked_spec {context : RiskContext} {drawdown allowed remaining used daily : ℚ}
    {existing : Exposure} {reason : String} {result : RiskResult}
    (h : blocked context drawdown allowed remaining used daily existing reason = .ok result) :
    result.decision = .hardBlock ∧ result.approvedSize = 0 := by
  obtain ⟨_, _, h⟩ := ok_of_bind h
  obtain ⟨_, _, h⟩ := ok_of_bind h
  obtain ⟨_, _, h⟩ := ok_of_bind h
  cases h
  exact ⟨rfl, rfl⟩

theorem missingAuthority_spec {context : RiskContext} {missing : List String} {result : RiskResult}
    (h : missingAuthority context missing = .ok result) :
    result.decision = .hardBlock ∧ result.approvedSize = 0 := by
  obtain ⟨r, hr, h⟩ := ok_of_bind h
  have hblocked := blocked_spec hr
  cases h
  exact hblocked

/-- The capacities of an account, given its existing risk and held exposures. -/
def capacities (context : RiskContext) (limits : RequiredLimits) (existing : ℚ)
    (held : Dict String Exposure) : List ℚ :=
  remainingDrawdown context limits :: remainingDaily context limits ::
    max 0 (limits.portfolio.value - existing) ::
      ((strictestApplicable context.constraints .maxRiskPerTrade).toList.map (·.value) ++
        correlationRemaining context held)

theorem finiteExposures_spec {exposures : Dict String Exposure} {values : List (String × ℚ)}
    (h : finiteExposures exposures = .ok values) : ∀ e ∈ exposures.entries, e.2 ≠ ⊤ := by
  rintro e he htop
  obtain ⟨_, _, hvalue⟩ := ok_of_mem_mapM h he
  obtain ⟨q, hq, _⟩ := ok_of_bind hvalue
  rw [htop] at hq
  cases hq

theorem finiteExposures_ok {exposures : Dict String Exposure}
    (h : ∀ e ∈ exposures.entries, e.2 ≠ ⊤) : ∃ values, finiteExposures exposures = .ok values := by
  have hall : ∃ values, finiteExposures exposures = .ok values ∧ ∀ value ∈ values, True := by
    refine exists_mapM_ok fun e he => ?_
    obtain ⟨q, hq⟩ := WithTop.ne_top_iff_exists.1 (h e he)
    exact ⟨(e.1, q), by rw [← hq]; rfl, trivial⟩
  exact hall.imp fun _ hvalues => hvalues.1

/-- The result is sized against the capacities of the account. -/
structure Assessed (context : RiskContext) (c : CandidateTrade) (perUnit : ℚ)
    (limits : RequiredLimits) (result : RiskResult) (existing : ℚ) (held : Dict String Exposure)
    (size : ℚ) : Prop where
  reserved : existingRisk context = .ok existing
  aggregated : aggregateExposure context.positions none = .ok held
  bounded : ∀ e ∈ held.entries, e.2 ≠ ⊤
  sized : compliantSize c.requestedSize perUnit
    ((capacities context limits existing held).map fun cap => max 0 (cap - c.financingCost))
    c.sizeIncrement = .ok size
  decision : result.decision = (sizeDecision context c size).decision
  approvedSize : result.approvedSize = (sizeDecision context c size).size
  risk : result.snapshot.candidateTradeRisk =
    size * perUnit + if 0 < size then c.financingCost else 0
  remaining : result.snapshot.remainingPortfolioRiskCapacity =
    max 0 (limits.portfolio.value - existing)

/-- Where the positions are bounded, a result of `assess` is sized against the capacities. -/
theorem assess_assessed {context : RiskContext} {c : CandidateTrade} {perUnit existing : ℚ}
    {limits : RequiredLimits} {result : RiskResult} (hexisting : existingRisk context = .ok existing)
    (h : assess context c perUnit limits = .ok result) :
    ∃ held size, Assessed context c perUnit limits result existing held size := by
  unfold assess at h
  dsimp only at h
  rw [hexisting] at h
  dsimp only at h
  obtain ⟨_, _, h⟩ := ok_of_bind h
  obtain ⟨held, hheld, h⟩ := ok_of_bind h
  obtain ⟨size, hsize, h⟩ := ok_of_bind h
  obtain ⟨_, _, h⟩ := ok_of_bind h
  obtain ⟨_, _, h⟩ := ok_of_bind h
  obtain ⟨_, hvalues, h⟩ := ok_of_bind h
  cases h
  exact ⟨held, size, hexisting, hheld, finiteExposures_spec hvalues, hsize, rfl, rfl, rfl, rfl⟩

/-- A result of `assess` is a block, or sized against the capacities. -/
theorem assess_spec {context : RiskContext} {c : CandidateTrade} {perUnit : ℚ}
    {limits : RequiredLimits} {result : RiskResult}
    (h : assess context c perUnit limits = .ok result) :
    (result.decision = .hardBlock ∧ result.approvedSize = 0) ∨
      ∃ existing held size, Assessed context c perUnit limits result existing held size := by
  cases hexisting : existingRisk context with
  | error reason =>
    unfold assess at h
    dsimp only at h
    rw [hexisting] at h
    exact .inl (blocked_spec h)
  | ok existing =>
    obtain ⟨held, size, hassessed⟩ := assess_assessed hexisting h
    exact .inr ⟨existing, held, size, hassessed⟩

/-- A result of `evaluate` is a block, or comes from `assess` on the required limits. -/
theorem evaluate_spec {context : RiskContext} {c : CandidateTrade} {result : RiskResult}
    (h : evaluate context c = .ok result) :
    (result.decision = .hardBlock ∧ result.approvedSize = 0) ∨
    ∃ perUnit limits, usedRiskPerUnit c = .ok perUnit ∧ requiredLimits context = some limits ∧
      assess context c perUnit limits = .ok result := by
  unfold evaluate at h
  split at h
  · exact .inl (missingAuthority_spec h)
  · obtain ⟨perUnit, hperUnit, h⟩ := ok_of_bind h
    split at h
    · exact .inl (missingAuthority_spec h)
    · rename_i limits hlimits
      exact .inr ⟨perUnit, limits, hperUnit, hlimits, h⟩

theorem requiredLimits_spec {context : RiskContext} {limits : RequiredLimits}
    (h : requiredLimits context = some limits) :
    strictestApplicable context.constraints .maxTotalDrawdown = some limits.drawdown ∧
    strictestApplicable context.constraints .maxDailyLoss = some limits.daily ∧
    strictestApplicable context.constraints .maxPortfolioRisk = some limits.portfolio := by
  unfold requiredLimits at h
  dsimp only at h
  split at h
  · rename_i hd hl hp
    cases h
    exact ⟨hd, hl, hp⟩
  · cases h

/-- A loss that fits every capacity, and is positive, is within the limits. -/
theorem withinLimits_of_fits {context : RiskContext} {limits : RequiredLimits} {existing risk : ℚ}
    {held : Dict String Exposure} (hl : requiredLimits context = some limits)
    (he : existingRisk context = .ok existing)
    (hh : aggregateExposure context.positions none = .ok held) (hr : 0 < risk)
    (hfit : ∀ cap ∈ capacities context limits existing held, risk ≤ cap) :
    WithinLimits context risk := by
  obtain ⟨hdd, hdaily, hportfolio⟩ := requiredLimits_spec hl
  obtain ⟨reserved, hreserved, he⟩ := ok_of_bind he
  cases he
  refine ⟨⟨_, hdd, le_of_le_max hr (hfit _ (by simp [capacities, remainingDrawdown]))⟩,
    ⟨_, hdaily, le_of_le_max hr (hfit _ (by simp [capacities, remainingDaily]))⟩,
    ⟨_, reserved, hportfolio, hreserved, ?_⟩, ?_, held, hh, ?_⟩
  · have hp := le_of_le_max hr (hfit (max 0 (limits.portfolio.value -
      (reserved + context.activeReservations.sum))) (by simp [capacities]))
    linarith
  · intro limit hlimit
    exact hfit _ (by simp [capacities, hlimit])
  · intro e hmem
    refine le_of_le_remainingCap hr (hfit _ ?_)
    simp only [capacities, correlationRemaining, List.mem_cons, List.mem_append, List.mem_map]
    exact .inr (.inr (.inr (.inr ⟨e, hmem, rfl⟩)))

/-! ## Soundness -/

/-- The three decisions, by the size that is left. -/
theorem sizeDecision_spec (context : RiskContext) {c : CandidateTrade} {size : ℚ}
    (hs : size ≤ c.requestedSize) :
    ((sizeDecision context c size).decision = .hardBlock ∧ (sizeDecision context c size).size = 0) ∨
    ((sizeDecision context c size).size = size ∧ 0 < size ∧
      context.positions.length < context.staticMaxConcurrentTrades ∧
      ((sizeDecision context c size).decision = .reduceSize ∧ size < c.requestedSize ∨
        (sizeDecision context c size).decision = .pass ∧ size = c.requestedSize)) := by
  by_cases hb : size ≤ 0 ∨ context.staticMaxConcurrentTrades ≤ context.positions.length
  · simp [sizeDecision, if_pos hb]
  · have hfree := hb
    rw [not_or, not_le, not_le] at hfree
    right
    by_cases hlt : size < c.requestedSize
    · simp [sizeDecision, if_neg hb, hlt, hfree]
    · have heq : size = c.requestedSize := le_antisymm hs (not_lt.1 hlt)
      rw [heq] at hb hfree ⊢
      simp [sizeDecision, if_neg hb, hfree]

/-- What the caller of `evaluate` may rely on. -/
structure SoundResult (context : RiskContext) (c : CandidateTrade) (result : RiskResult) : Prop where
  approved : result.decision = .pass ∨ result.decision = .reduceSize →
    0 < result.approvedSize ∧ result.approvedSize ≤ c.requestedSize ∧
    context.positions.length < context.staticMaxConcurrentTrades ∧
    ∃ perUnit, usedRiskPerUnit c = .ok perUnit ∧
      WithinLimits context (result.approvedSize * perUnit + c.financingCost)
  pass_iff : result.decision = .pass ↔ result.approvedSize = c.requestedSize
  reduceSize_iff : result.decision = .reduceSize ↔
    0 < result.approvedSize ∧ result.approvedSize < c.requestedSize
  hardBlock : result.decision = .hardBlock → result.approvedSize = 0

theorem soundResult_of_block {context : RiskContext} {c : CandidateTrade} {result : RiskResult}
    (h : result.decision = .hardBlock ∧ result.approvedSize = 0) : SoundResult context c result := by
  obtain ⟨hd, hs⟩ := h
  have hne : (0 : ℚ) ≠ c.requestedSize := c.requestedSize_pos.ne
  exact ⟨by simp [hd], by simp [hd, hs, hne], by simp [hd, hs], fun _ => hs⟩

/-- **Risk approval is sound**: on every context and candidate, whatever `evaluate` returns fits the
account's remaining capacities, and the decision says how the size compares with the request. -/
theorem evaluate_sound {context : RiskContext} {c : CandidateTrade} {result : RiskResult}
    (h : evaluate context c = .ok result) : SoundResult context c result := by
  rcases evaluate_spec h with hb | ⟨perUnit, limits, hperUnit, hlimits, ha⟩
  · exact soundResult_of_block hb
  rcases assess_spec ha with hb | ⟨existing, held, size, hexisting, hheld, _, hsize, hd, hs, _, _⟩
  · exact soundResult_of_block hb
  have hp := usedRiskPerUnit_pos hperUnit
  obtain ⟨_, hle, hfit⟩ := compliantSize_spec c.requestedSize_pos hp c.sizeIncrement_pos
    (by simp [capacities]) hsize
  rcases sizeDecision_spec context hle with hb | ⟨hsz, hpos, hcount, hkind⟩
  · exact soundResult_of_block ⟨hd.trans hb.1, hs.trans hb.2⟩
  rw [hsz] at hs
  have hwithin : WithinLimits context (size * perUnit + c.financingCost) := by
    have hrisk : 0 < size * perUnit + c.financingCost :=
      add_pos_of_pos_of_nonneg (mul_pos hpos hp) c.financingCost_nonneg
    refine withinLimits_of_fits hlimits hexisting hheld hrisk fun cap hcap => ?_
    obtain ⟨hnet, hloss⟩ := hfit hpos _ (List.mem_map.2 ⟨cap, hcap, rfl⟩)
    exact fits_of_net hnet hloss
  have happroved : 0 < result.approvedSize ∧ result.approvedSize ≤ c.requestedSize ∧
      context.positions.length < context.staticMaxConcurrentTrades ∧
      ∃ perUnit, usedRiskPerUnit c = .ok perUnit ∧
        WithinLimits context (result.approvedSize * perUnit + c.financingCost) := by
    rw [hs]
    exact ⟨hpos, hle, hcount, perUnit, hperUnit, hwithin⟩
  rcases hkind with ⟨hk, hlt⟩ | ⟨hk, heq⟩
  · have hreduce := hd.trans hk
    exact ⟨fun _ => happroved, by simp [hreduce, hs, hlt.ne], by simp [hreduce, hs, hlt, hpos],
      by simp [hreduce]⟩
  · have hpass := hd.trans hk
    rw [heq] at hs
    exact ⟨fun _ => happroved, by simp [hpass, hs], by simp [hpass, hs], by simp [hpass]⟩

/-! ## What an approved candidate has -/

/-- Only a block approves nothing. -/
theorem evaluate_size {context : RiskContext} {c : CandidateTrade} {result : RiskResult}
    (h : evaluate context c = .ok result) :
    (result.decision = .hardBlock ∧ result.approvedSize = 0) ∨
      (result.decision ≠ .hardBlock ∧ 0 < result.approvedSize) := by
  rcases evaluate_spec h with hb | ⟨perUnit, limits, hperUnit, hlimits, hassess⟩
  · exact .inl hb
  rcases assess_spec hassess with hb | ⟨existing, held, size, hassessed⟩
  · exact .inl hb
  obtain ⟨_, hle, _⟩ := compliantSize_spec c.requestedSize_pos (usedRiskPerUnit_pos hperUnit)
    c.sizeIncrement_pos (by simp [capacities]) hassessed.sized
  rcases sizeDecision_spec context hle with hb | ⟨hsize, hpos, _, hkind⟩
  · exact .inl ⟨hassessed.decision.trans hb.1, hassessed.approvedSize.trans hb.2⟩
  · right
    rw [hassessed.decision, hassessed.approvedSize, hsize]
    rcases hkind with ⟨hkind, _⟩ | ⟨hkind, _⟩
    · exact ⟨by simp [hkind], hpos⟩
    · exact ⟨by simp [hkind], hpos⟩

/-- The approved size and its risk, against the capacities they were measured by. -/
structure ApprovedRisk (context : RiskContext) (c : CandidateTrade) (result : RiskResult)
    (limits : RequiredLimits) (existing : ℚ) (held : Dict String Exposure) : Prop where
  required : requiredLimits context = some limits
  reserved : existingRisk context = .ok existing
  aggregated : aggregateExposure context.positions none = .ok held
  bounded : ∀ e ∈ held.entries, e.2 ≠ ⊤
  remaining : result.snapshot.remainingPortfolioRiskCapacity =
    max 0 (limits.portfolio.value - existing)
  risk_pos : 0 < result.snapshot.candidateTradeRisk
  fits : ∀ cap ∈ capacities context limits existing held,
    result.snapshot.candidateTradeRisk ≤ cap

theorem approvedSize_of_hardBlock {context : RiskContext} {c : CandidateTrade} {result : RiskResult}
    (h : evaluate context c = .ok result) (hblock : result.decision = .hardBlock) :
    result.approvedSize = 0 := by
  rcases evaluate_size h with ⟨_, hzero⟩ | ⟨hnot, _⟩
  · exact hzero
  · exact absurd hblock hnot

/-- Whatever is not blocked has a positive size, measured against the capacities. -/
theorem evaluate_assessed {context : RiskContext} {c : CandidateTrade} {result : RiskResult}
    (h : evaluate context c = .ok result) (ha : result.decision ≠ .hardBlock) :
    ∃ perUnit limits existing held size, usedRiskPerUnit c = .ok perUnit ∧
      requiredLimits context = some limits ∧
      Assessed context c perUnit limits result existing held size ∧ 0 < size := by
  rcases evaluate_spec h with hb | ⟨perUnit, limits, hperUnit, hlimits, hassess⟩
  · exact absurd hb.1 ha
  rcases assess_spec hassess with hb | ⟨existing, held, size, hassessed⟩
  · exact absurd hb.1 ha
  obtain ⟨_, hle, _⟩ := compliantSize_spec c.requestedSize_pos (usedRiskPerUnit_pos hperUnit)
    c.sizeIncrement_pos (by simp [capacities]) hassessed.sized
  rcases sizeDecision_spec context hle with hb | ⟨_, hpos, _, _⟩
  · exact absurd (hassessed.decision.trans hb.1) ha
  exact ⟨perUnit, limits, existing, held, size, hperUnit, hlimits, hassessed, hpos⟩

/-- Whatever is not blocked is approved against the capacities. -/
theorem evaluate_approved {context : RiskContext} {c : CandidateTrade} {result : RiskResult}
    (h : evaluate context c = .ok result) (ha : result.decision ≠ .hardBlock) :
    ∃ limits existing held, ApprovedRisk context c result limits existing held := by
  obtain ⟨perUnit, limits, existing, held, size, hperUnit, hlimits, hassessed, hpos⟩ :=
    evaluate_assessed h ha
  have hp := usedRiskPerUnit_pos hperUnit
  obtain ⟨_, _, hfit⟩ := compliantSize_spec c.requestedSize_pos hp c.sizeIncrement_pos
    (by simp [capacities]) hassessed.sized
  have hrisk : result.snapshot.candidateTradeRisk = size * perUnit + c.financingCost := by
    rw [hassessed.risk, if_pos hpos]
  refine ⟨limits, existing, held, hlimits, hassessed.reserved, hassessed.aggregated,
    hassessed.bounded, hassessed.remaining, ?_, fun cap hcap => ?_⟩
  · rw [hrisk]
    exact add_pos_of_pos_of_nonneg (mul_pos hpos hp) c.financingCost_nonneg
  · obtain ⟨hnet, hloss⟩ := hfit hpos _ (List.mem_map.2 ⟨cap, hcap, rfl⟩)
    rw [hrisk]
    exact fits_of_net hnet hloss

/-- The reserved risk of bounded positions, unrealized profits aside, is the sum of their losses. -/
theorem reservedRisk_eq_sum {positions : List OpenPositionRisk}
    (h : ∀ p ∈ positions, ∃ loss, p.remainingLossToStop = some loss ∧ 0 ≤ loss) :
    reservedRisk positions false =
      .ok (positions.map fun p => p.remainingLossToStop.getD 0).sum := by
  have hfrom : ∀ (ps : List OpenPositionRisk) (total : ℚ), (∀ p ∈ ps, p ∈ positions) →
      ps.foldlM (reserveStep false) total =
        .ok (total + (ps.map fun p => p.remainingLossToStop.getD 0).sum) := by
    intro ps
    induction ps with
    | nil => simp [pure, Except.pure]
    | cons p ps ih =>
      intro total hps
      obtain ⟨loss, hloss, hnonneg⟩ := h p (hps p List.mem_cons_self)
      have hstep : reserveStep false total p = .ok (total + loss) := by
        simp [reserveStep, hloss, max_eq_right hnonneg]
      rw [List.foldlM_cons, bind_ok_eq hstep, ih _ fun q hq => hps q (List.mem_cons_of_mem _ hq),
        List.map_cons, List.sum_cons, hloss, Option.getD_some, add_assoc]
  simpa [reservedRisk] using hfrom positions 0 fun _ hp => hp

/-! ## What fits is approved -/

/-- A size of whole increments whose loss fits every capacity is compliant. -/
theorem compliantSize_fits {requested perUnit increment : ℚ} {n : ℤ} {c : ℚ} {cs : List ℚ}
    (hr : 0 < requested) (hp : 0 < perUnit) (hi : 0 < increment) (hn : requested = n * increment)
    (hfit : ∀ cap ∈ c :: cs, requested * perUnit ≤ cap) :
    compliantSize requested perUnit (c :: cs) increment = .ok requested := by
  have hleast : requested * perUnit ≤ leastOf c cs := le_leastOf hfit
  have hpos : 0 < leastOf c cs := (mul_pos hr hp).trans_le hleast
  have hquotient : requested ≤ leastOf c cs / perUnit := (le_div_iff₀ hp).2 hleast
  have hrounded : requested ≤ floorTo (leastOf c cs / perUnit) increment := by
    have hstep : n * increment ≤ leastOf c cs / perUnit := hn ▸ hquotient
    rw [hn]
    exact le_floorTo (div_pos hpos hp).le hi hstep
  have hsized : sizeForRisk (max 0 (leastOf c cs)) perUnit increment =
      .ok (floorTo (leastOf c cs / perUnit) increment) := by
    rw [max_eq_right hpos.le, sizeForRisk, if_neg (by simp [hpos, hp]), roundDown,
      if_neg (not_le.2 hi)]
  rw [compliantSize, bind_ok_eq hsized, min_eq_left hrounded]
  rfl

theorem leastOf_lt_iff {c b : ℚ} {cs : List ℚ} : leastOf c cs < b ↔ ∃ x ∈ c :: cs, x < b := by
  constructor
  · intro h
    by_contra hnone
    refine absurd h (not_lt.2 (le_leastOf fun x hx => ?_))
    exact not_lt.1 fun hlt => hnone ⟨x, hx, hlt⟩
  · rintro ⟨x, hx, hlt⟩
    exact (leastOf_le x hx).trans_lt hlt

/-- The number of further trades is computed unless slots are free and the quotient is too long. -/
theorem additionalTradeCapacity_ok_iff {staticMax openTrades : Nat} {least risk : ℚ} (hr : 0 < risk) :
    (∃ n, additionalTradeCapacity staticMax openTrades least risk = .ok n) ↔
      staticMax ≤ openTrades ∨ least < (10 ^ decimalDigits : ℕ) * risk := by
  unfold additionalTradeCapacity
  dsimp only
  by_cases hslots : staticMax - openTrades = 0
  · simp only [hslots, true_or, if_true]
    exact iff_of_true ⟨0, rfl⟩ (.inl (Nat.sub_eq_zero_iff_le.1 hslots))
  have hfree : ¬staticMax ≤ openTrades := fun hle => hslots (Nat.sub_eq_zero_iff_le.2 hle)
  have hquotient : ⌊max 0 least / risk⌋.toNat < 10 ^ decimalDigits ↔
      least < (10 ^ decimalDigits : ℕ) * risk := by
    have hpos : (0 : ℚ) < (10 ^ decimalDigits : ℕ) * risk := by positivity
    have hnonneg : 0 ≤ ⌊max 0 least / risk⌋ := Int.floor_nonneg.2 (by positivity)
    have hcast : ⌊max 0 least / risk⌋.toNat < 10 ^ decimalDigits ↔
        ⌊max 0 least / risk⌋ < ((10 ^ decimalDigits : ℕ) : ℤ) := by omega
    rw [hcast, Int.floor_lt, div_lt_iff₀ hr, Int.cast_natCast]
    exact ⟨fun h => (le_max_right _ _).trans_lt h, fun h => max_lt hpos h⟩
  rw [if_neg (by simp [hslots, hr]), or_iff_right hfree, ← hquotient]
  unfold integerQuotient
  dsimp only
  by_cases hlong : 10 ^ decimalDigits ≤ ⌊max 0 least / risk⌋.toNat
  · rw [if_pos hlong]
    exact iff_of_false (by rintro ⟨n, h⟩; cases h) (not_lt.2 hlong)
  · rw [if_neg hlong]
    exact iff_of_true ⟨_, rfl⟩ (not_le.1 hlong)

/-- **What fits every capacity is approved**: with the authority and the required limits in place and
bounded positions, a request of whole increments within all capacities passes as it is, unless every
capacity is too many times its risk. -/
theorem evaluate_fits {context : RiskContext} {c : CandidateTrade} {perUnit existing : ℚ}
    {limits : RequiredLimits} {held : Dict String Exposure} {n : ℤ}
    (hauthority : authorityError context c = none) (hperUnit : usedRiskPerUnit c = .ok perUnit)
    (hmultiplier : 0 < c.contractMultiplier) (hlimits : requiredLimits context = some limits)
    (hexisting : existingRisk context = .ok existing)
    (hfinite : ∀ p ∈ context.positions, p.risk ≠ ⊤)
    (hheld : aggregateExposure context.positions none = .ok held)
    (hsteps : c.requestedSize = n * c.sizeIncrement)
    (hcount : context.positions.length < context.staticMaxConcurrentTrades)
    (hfit : ∀ cap ∈ capacities context limits existing held,
      c.requestedSize * perUnit + c.financingCost ≤ cap)
    (hdigits : ∃ cap ∈ capacities context limits existing held,
      cap < (10 ^ decimalDigits : ℕ) * (c.requestedSize * perUnit + c.financingCost)) :
    ∃ result, evaluate context c = .ok result ∧ result.decision = .pass ∧
      result.approvedSize = c.requestedSize ∧
      result.snapshot.candidateTradeRisk = c.requestedSize * perUnit + c.financingCost := by
  have hr := c.requestedSize_pos
  have hp := usedRiskPerUnit_pos hperUnit
  obtain ⟨exposures, hexposures, _⟩ := aggregateExposure_finite hfinite
    (some (c, c.requestedSize * perUnit + c.financingCost))
  obtain ⟨held', hheld', hentries⟩ := aggregateExposure_finite hfinite none
  obtain rfl : held' = held := Except.ok.inj (hheld'.symm.trans hheld)
  obtain ⟨values, hvalues⟩ := finiteExposures_ok hentries
  have hsize : compliantSize c.requestedSize perUnit
      ((capacities context limits existing held').map fun cap => max 0 (cap - c.financingCost))
      c.sizeIncrement = .ok c.requestedSize := by
    have hnet : ∀ net ∈ (capacities context limits existing held').map
        fun cap => max 0 (cap - c.financingCost), c.requestedSize * perUnit ≤ net := by
      intro net hnet
      obtain ⟨cap, hcap, rfl⟩ := List.mem_map.1 hnet
      exact (le_sub_iff_add_le.2 (hfit cap hcap)).trans (le_max_right _ _)
    exact compliantSize_fits hr hp c.sizeIncrement_pos hsteps hnet
  have hdecided : sizeDecision context c c.requestedSize =
      ⟨.pass, c.requestedSize, "candidate fits all current hard limits"⟩ := by
    rw [sizeDecision, if_neg (by simp [hr, hcount]), if_neg (lt_irrefl _)]
  have hrisk : 0 < c.requestedSize * perUnit + c.financingCost :=
    add_pos_of_pos_of_nonneg (mul_pos hr hp) c.financingCost_nonneg
  obtain ⟨slots, hslots⟩ : ∃ n, additionalTradeCapacity context.staticMaxConcurrentTrades
      context.positions.length (leastOf _ _) _ = .ok n :=
    (additionalTradeCapacity_ok_iff hrisk).2 (.inr (leastOf_lt_iff.2 hdigits))
  have hnotional : approvedNotional c c.requestedSize =
      .ok (c.entryPrice * c.requestedSize * c.contractMultiplier) := by
    rw [approvedNotional, if_pos hr, notionalExposure,
      if_neg (by simp [hr, hmultiplier, c.entryPrice_pos])]
  have hassess : ∃ result, assess context c perUnit limits = .ok result ∧
      result.decision = .pass ∧ result.approvedSize = c.requestedSize ∧
      result.snapshot.candidateTradeRisk = c.requestedSize * perUnit + c.financingCost := by
    unfold capacities at hsize
    unfold assess
    dsimp only
    rw [hexisting]
    dsimp only
    rw [bind_ok_eq hexposures, bind_ok_eq hheld, bind_ok_eq hsize, if_pos hr, max_self,
      bind_ok_eq hslots, hdecided, bind_ok_eq hnotional, bind_ok_eq hvalues]
    exact ⟨_, rfl, rfl, rfl, rfl⟩
  obtain ⟨result, hresult, hrest⟩ := hassess
  refine ⟨result, ?_, hrest⟩
  rw [evaluate, hauthority]
  dsimp only
  rw [bind_ok_eq hperUnit, hlimits]
  exact hresult

/-! ## The pretrade fixture -/

def pretradeContext : RiskContext where
  account := {
    accountId := .ofNat 1, startingBalance := 200000, currentBalance := 190000
    currentEquity := 189000, floatingPnl := -1000, realizedDailyPnl := -1100, observedAt := 0
    source := "mt5", sourceVersion := "fixture-1", consistentEquity := by norm_num }
  constraints := [
    { kind := .maxTotalDrawdown, value := 16000, source := "prop", sourceVersion := "1" },
    { kind := .maxDailyLoss, value := 4000, source := "prop", sourceVersion := "1" },
    { kind := .maxPortfolioRisk, value := 3000, source := "internal", sourceVersion := "1" }]
  positions := []
  correlationCaps := .empty
  staticMaxConcurrentTrades := 3
  includeUnrealizedProfit := false
  instrumentSpecifications := .empty
  currentSourceCutId := none
  activeReservations := []
  accountCurrencyVerified := false

def pretradeCandidate (size : ℚ) (h : 0 < size) : CandidateTrade where
  instrument := "EURUSD"
  direction := .buy
  marketCategory := "forex"
  requestedSize := size
  entryPrice := 1085 / 1000
  stopLoss := 108 / 100
  riskPerUnit := 500
  sizeIncrement := 1 / 100
  currencyExposures := Dict.empty.set "USD" 1
  assetClass := none
  instrumentType := none
  venueInstrumentId := none
  futuresContractId := none
  specificationVersionId := none
  quantityUnit := none
  contractMultiplier := 1
  tickSize := none
  tickValue := none
  marginRequired := 0
  financingCost := 0
  underlyingId := none
  requestedSize_pos := h
  entryPrice_pos := by norm_num
  stopLoss_pos := by norm_num
  riskPerUnit_pos := by norm_num
  sizeIncrement_pos := by norm_num
  marginRequired_nonneg := le_refl 0
  financingCost_nonneg := le_refl 0

theorem tenUnits_pos : (0 : ℚ) < 10 := by norm_num

/-- Ten units of the fixture's candidate are reduced to what the daily loss leaves. -/
theorem evaluate_sound_pretrade : ∃ result,
    evaluate pretradeContext (pretradeCandidate 10 tenUnits_pos) = .ok result ∧
    result.decision = .reduceSize ∧ result.approvedSize = 19 / 5 ∧
    SoundResult pretradeContext (pretradeCandidate 10 tenUnits_pos) result := by
  have hrun : (evaluate pretradeContext (pretradeCandidate 10 tenUnits_pos)).toOption.map
      (fun r => (r.decision, r.approvedSize)) = some (.reduceSize, 19 / 5) := by decide +kernel
  cases h : evaluate pretradeContext (pretradeCandidate 10 tenUnits_pos) with
  | error e =>
    rw [h] at hrun
    cases hrun
  | ok result =>
    rw [h] at hrun
    simp only [Except.toOption, Option.map_some, Option.some.injEq, Prod.mk.injEq] at hrun
    exact ⟨result, rfl, hrun.1, hrun.2, evaluate_sound h⟩

end Matrades

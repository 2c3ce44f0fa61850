import Matrades.Risk.Proof.Approval

/-!
# When evaluation fails closed

`evaluate` answers with a block where an authority or a limit is missing, and raises where a position
has no bounded loss: the exposures it reports would not be finite, also in the block it wants to
answer with. It raises as well where the terms of a typed candidate give one unit no loss, where the
notional exposure of an approved size is not defined, and where the number of further trades is too
long. Outside of these it fails closed (`evaluate_fails_closed_iff`).
-/

namespace Matrades

open Base

/-- Something `evaluate` requires is missing or unbounded. -/
def Unbounded (context : RiskContext) (c : CandidateTrade) : Prop :=
  authorityError context c ≠ none ∨ requiredLimits context = none ∨ ¬Returns (usedRiskPerUnit c) ∨
    ∃ p ∈ context.positions, p.risk = ⊤

/-- The evaluation ends with a result, a block wherever something required is unbounded. -/
def FailsClosed (context : RiskContext) (c : CandidateTrade) : Prop :=
  ∃ result, evaluate context c = .ok result ∧
    (Unbounded context c → result.decision = .hardBlock)

/-! ## The condition -/

/-- The terms of a typed candidate give one unit a loss. -/
def UnitLoss (c : CandidateTrade) : Prop :=
  ∀ t ∈ c.instrumentType, 0 < c.contractMultiplier ∧ c.entryPrice ≠ c.stopLoss ∧
    (t = .futures → (∃ size ∈ c.tickSize, 0 < size) ∧ ∃ value ∈ c.tickValue, 0 < value)

/-- No trade can be added to the open ones. -/
def NoSlot (context : RiskContext) : Prop :=
  context.staticMaxConcurrentTrades ≤ context.positions.length

/-- Every approved size has a notional exposure: the multiplier is positive, or nothing is approved
because the smallest size fits no slot or not every capacity. -/
def NotionalDefined (context : RiskContext) (c : CandidateTrade) (perUnit : ℚ)
    (capacities : List ℚ) : Prop :=
  0 < c.contractMultiplier ∨ NoSlot context ∨
    ∃ cap ∈ capacities, cap < c.sizeIncrement * perUnit + c.financingCost

/-- The capacities hold a countable number of the requested trades. -/
def TradesCountable (context : RiskContext) (c : CandidateTrade) (perUnit : ℚ)
    (capacities : List ℚ) : Prop :=
  NoSlot context ∨ ∃ cap ∈ capacities,
    cap < (10 ^ decimalDigits : ℕ) * (c.requestedSize * perUnit + c.financingCost)

/-- The size can be decided against the capacities of the account. -/
def Sizable (context : RiskContext) (c : CandidateTrade) (perUnit : ℚ) (limits : RequiredLimits) :
    Prop :=
  ∀ existing held, existingRisk context = .ok existing →
    aggregateExposure context.positions none = .ok held →
    NotionalDefined context c perUnit (capacities context limits existing held) ∧
      TradesCountable context c perUnit (capacities context limits existing held)

/-- What `evaluate` needs of its inputs in order to return. -/
structure Evaluable (context : RiskContext) (c : CandidateTrade) : Prop where
  bounded : ∀ p ∈ context.positions, ∃ loss, p.remainingLossToStop = some loss ∧ loss ≠ 0
  unit : authorityError context c = none → UnitLoss c
  sizable : authorityError context c = none → ∀ perUnit limits, usedRiskPerUnit c = .ok perUnit →
    requiredLimits context = some limits → Sizable context c perUnit limits

/-! ## Blocks -/

/-- The exposures of the positions are reported exactly if every risk is finite. -/
theorem exposures_return_iff (positions : List OpenPositionRisk) :
    (∃ held, aggregateExposure positions none = .ok held ∧ Returns (finiteExposures held)) ↔
      ∀ p ∈ positions, p.risk ≠ ⊤ := by
  constructor
  · rintro ⟨held, hheld, values, hvalues⟩
    exact risk_ne_top_of_finite hheld (finiteExposures_spec hvalues)
  · intro h
    obtain ⟨held, hheld, hfinite⟩ := aggregateExposure_finite h none
    exact ⟨held, hheld, finiteExposures_ok hfinite⟩

theorem finite_returns {field : String} {e : Exposure} : Returns (finite field e) ↔ e ≠ ⊤ := by
  cases e with
  | none => exact iff_of_false (not_returns_error _) fun h => h rfl
  | some q => exact iff_of_true (returns_ok q) WithTop.coe_ne_top

theorem blocked_returns_iff (context : RiskContext) (drawdown allowed remaining used daily : ℚ)
    (existing : Exposure) (reason : String) :
    Returns (blocked context drawdown allowed remaining used daily existing reason) ↔
      existing ≠ ⊤ ∧ ∀ p ∈ context.positions, p.risk ≠ ⊤ := by
  rw [← exposures_return_iff, ← @finite_returns "existing_open_risk"]
  unfold blocked
  simp only [returns_bind]
  constructor
  · rintro ⟨held, hheld, risk, hrisk, values, hvalues, _⟩
    exact ⟨⟨risk, hrisk⟩, held, hheld, values, hvalues⟩
  · rintro ⟨⟨risk, hrisk⟩, held, hheld, values, hvalues⟩
    exact ⟨held, hheld, risk, hrisk, values, hvalues, _, rfl⟩

theorem missingAuthority_returns_iff (context : RiskContext) (missing : List String) :
    Returns (missingAuthority context missing) ↔ ∀ p ∈ context.positions, p.risk ≠ ⊤ := by
  unfold missingAuthority
  rw [returns_bind]
  constructor
  · rintro ⟨result, hresult, _⟩
    exact ((blocked_returns_iff _ _ _ _ _ _ _ _).1 ⟨result, hresult⟩).2
  · intro h
    obtain ⟨result, hresult⟩ := (blocked_returns_iff _ _ _ _ _ _ _ _).2 ⟨WithTop.coe_ne_top, h⟩
    exact ⟨result, hresult, _, rfl⟩

/-! ## The loss of one unit -/

theorem usedRiskPerUnit_returns_iff (c : CandidateTrade) :
    Returns (usedRiskPerUnit c) ↔ UnitLoss c := by
  unfold usedRiskPerUnit UnitLoss
  cases hkind : c.instrumentType with
  | none => exact iff_of_true (returns_ok _) nofun
  | some t =>
    simp only [Option.mem_some_iff, forall_eq']
    unfold typeAwareLossPerUnit
    by_cases hmultiplier : c.contractMultiplier ≤ 0
    · rw [if_pos hmultiplier]
      exact iff_of_false (not_returns_error _) fun h => absurd h.1 (not_lt.2 hmultiplier)
    rw [if_neg hmultiplier]
    dsimp only
    by_cases hdistance : |c.entryPrice - c.stopLoss| ≤ 0
    · rw [if_pos hdistance]
      exact iff_of_false (not_returns_error _) fun h =>
        h.2.1 (sub_eq_zero.1 (abs_nonpos_iff.1 hdistance))
    rw [if_neg hdistance]
    have hdiffer : c.entryPrice ≠ c.stopLoss := fun h => hdistance (by simp [h])
    rw [not_le] at hmultiplier
    cases t with
    | spot => exact iff_of_true (returns_ok _) ⟨hmultiplier, hdiffer, nofun⟩
    | cfd => exact iff_of_true (returns_ok _) ⟨hmultiplier, hdiffer, nofun⟩
    | futures =>
      dsimp only
      cases hsize : c.tickSize with
      | none => exact iff_of_false (not_returns_error _) fun h => by simpa using (h.2.2 rfl).1
      | some size =>
        cases hvalue : c.tickValue with
        | none => exact iff_of_false (not_returns_error _) fun h => by simpa using (h.2.2 rfl).2
        | some value =>
          dsimp only
          by_cases hticks : size ≤ 0 ∨ value ≤ 0
          · rw [if_pos hticks]
            refine iff_of_false (not_returns_error _) fun h => ?_
            obtain ⟨hs, hv⟩ := h.2.2 rfl
            simp only [Option.mem_some_iff, exists_eq_left'] at hs hv
            exact hticks.elim (not_le.2 hs) (not_le.2 hv)
          · rw [if_neg hticks]
            rw [not_or, not_le, not_le] at hticks
            exact iff_of_true (returns_ok _) ⟨hmultiplier, hdiffer, fun _ => by simpa using hticks⟩

/-! ## The size -/

theorem compliantSize_returns {requested perUnit increment : ℚ} {capacities : List ℚ}
    (hi : 0 < increment) : Returns (compliantSize requested perUnit capacities increment) := by
  cases capacities with
  | nil => exact returns_ok _
  | cons c cs =>
    unfold compliantSize
    rw [returns_bind]
    unfold sizeForRisk roundDown
    rw [if_neg (not_le.2 hi)]
    by_cases hnone : max 0 (leastOf c cs) ≤ 0 ∨ perUnit ≤ 0
    · exact ⟨_, if_pos hnone, returns_ok _⟩
    · exact ⟨_, if_neg hnone, returns_ok _⟩

theorem floorTo_pos_iff {x step : ℚ} (hx : 0 ≤ x) (hs : 0 < step) : 0 < floorTo x step ↔ step ≤ x := by
  constructor
  · intro h
    unfold floorTo at h
    rw [if_pos (div_nonneg hx hs.le)] at h
    have hone : 0 < ⌊x / step⌋ := by exact_mod_cast (mul_pos_iff_of_pos_right hs).1 h
    have hquotient : (1 : ℚ) ≤ x / step := by exact_mod_cast Int.le_floor.1 (Int.add_one_le_iff.2 hone)
    exact (one_le_div₀ hs).1 hquotient
  · intro h
    have hstep : ((1 : ℤ) : ℚ) * step ≤ floorTo x step := le_floorTo hx hs (by simpa using h)
    rw [Int.cast_one, one_mul] at hstep
    exact hs.trans_le hstep

/-- Some size is left exactly if one increment fits every capacity. -/
theorem compliantSize_pos_iff {requested perUnit increment size c : ℚ} {cs : List ℚ}
    (hr : 0 < requested) (hp : 0 < perUnit) (hi : 0 < increment)
    (h : compliantSize requested perUnit (c :: cs) increment = .ok size) :
    0 < size ↔ ∀ cap ∈ c :: cs, increment * perUnit ≤ cap := by
  obtain ⟨raw, hraw, h⟩ := ok_of_bind h
  cases h
  rw [lt_min_iff, and_iff_right hr]
  have hleast : (∀ cap ∈ c :: cs, increment * perUnit ≤ cap) ↔ increment * perUnit ≤ leastOf c cs :=
    ⟨le_leastOf, fun h cap hcap => h.trans (leastOf_le cap hcap)⟩
  rw [hleast]
  have hloss : 0 < increment * perUnit := mul_pos hi hp
  unfold sizeForRisk at hraw
  by_cases hpos : 0 < leastOf c cs
  · rw [max_eq_right hpos.le, if_neg (by simp [hpos, hp]), roundDown, if_neg (not_le.2 hi)] at hraw
    cases hraw
    rw [floorTo_pos_iff (div_pos hpos hp).le hi, le_div_iff₀ hp]
  · rw [max_eq_left (not_lt.1 hpos), if_pos (.inl le_rfl)] at hraw
    cases hraw
    exact iff_of_false (lt_irrefl 0) fun h => hpos (hloss.trans_le h)

/-- One increment with its cost fits a capacity exactly if it fits the net one. -/
theorem net_fits_iff {loss cost : ℚ} {capacities : List ℚ} (hloss : 0 < loss) :
    (∀ net ∈ capacities.map fun cap => max 0 (cap - cost), loss ≤ net) ↔
      ∀ cap ∈ capacities, loss + cost ≤ cap := by
  simp only [List.forall_mem_map, le_max_iff, not_le.2 hloss, false_or, le_sub_iff_add_le]

/-- The decided size is positive exactly if a slot is free and one increment fits. -/
theorem approvedNotional_returns_iff {context : RiskContext} {c : CandidateTrade} {size : ℚ} :
    Returns (approvedNotional c (sizeDecision context c size).size) ↔
      0 < c.contractMultiplier ∨ NoSlot context ∨ ¬0 < size := by
  have hdecided : 0 < (sizeDecision context c size).size ↔ ¬NoSlot context ∧ 0 < size := by
    unfold sizeDecision NoSlot
    by_cases hsize : 0 < size
    · by_cases hslot : context.staticMaxConcurrentTrades ≤ context.positions.length
      · simp [hslot]
      · rw [if_neg (by simp [hsize, hslot])]
        split <;> simp [hslot, hsize]
    · rw [if_pos (.inl (not_lt.1 hsize))]
      simp [hsize]
  unfold approvedNotional
  by_cases hpos : 0 < (sizeDecision context c size).size
  · rw [if_pos hpos]
    obtain ⟨hslot, hsize⟩ := hdecided.1 hpos
    unfold notionalExposure
    by_cases hmultiplier : 0 < c.contractMultiplier
    · rw [if_neg (by simp [hmultiplier, c.entryPrice_pos, hpos])]
      exact iff_of_true (returns_ok _) (.inl hmultiplier)
    · rw [if_pos ((min_le_right _ _).trans (not_lt.1 hmultiplier))]
      refine iff_of_false (not_returns_error _) ?_
      rintro (h | h | h)
      · exact hmultiplier h
      · exact hslot h
      · exact h hsize
  · rw [if_neg hpos]
    have hnone : NoSlot context ∨ ¬0 < size := by
      by_contra hnone
      rw [not_or, not_not] at hnone
      exact hpos (hdecided.2 hnone)
    exact iff_of_true (returns_ok _) (.inr hnone)

/-! ## The assessment -/

theorem existingRisk_of_finite {context : RiskContext} (h : ∀ p ∈ context.positions, p.risk ≠ ⊤) :
    ∃ existing, existingRisk context = .ok existing := by
  have hfrom : ∀ (ps : List OpenPositionRisk) (total : ℚ), (∀ p ∈ ps, p ∈ context.positions) →
      ∃ reserved, ps.foldlM (reserveStep context.includeUnrealizedProfit) total = .ok reserved := by
    intro ps
    induction ps with
    | nil => exact fun total _ => ⟨total, rfl⟩
    | cons p ps ih =>
      intro total hps
      obtain ⟨loss, hloss, _⟩ := (risk_ne_top_iff p).1 (h p (hps p List.mem_cons_self))
      obtain ⟨next, hnext⟩ : ∃ next,
          reserveStep context.includeUnrealizedProfit total p = .ok next := by
        unfold reserveStep
        rw [hloss]
        exact ⟨_, rfl⟩
      rw [List.foldlM_cons, bind_ok_eq hnext]
      exact ih next fun q hq => hps q (List.mem_cons_of_mem _ hq)
  obtain ⟨reserved, hreserved⟩ := hfrom context.positions 0 fun _ hp => hp
  exact ⟨_, bind_ok_eq hreserved _⟩

/-- The assessment returns exactly if the positions are bounded and the size can be decided. -/
theorem assess_returns_iff {context : RiskContext} {c : CandidateTrade} {perUnit : ℚ}
    {limits : RequiredLimits} (hp : 0 < perUnit) :
    Returns (assess context c perUnit limits) ↔
      (∀ p ∈ context.positions, p.risk ≠ ⊤) ∧ Sizable context c perUnit limits := by
  by_cases hfinite : ∀ p ∈ context.positions, p.risk ≠ ⊤
  case neg =>
    refine iff_of_false (fun h => hfinite ?_) fun h => hfinite h.1
    unfold assess at h
    dsimp only at h
    split at h
    · exact ((blocked_returns_iff _ _ _ _ _ _ _ _).1 h).2
    · simp only [returns_bind] at h
      obtain ⟨_, _, held, hheld, _, _, _, _, _, _, values, hvalues, _⟩ := h
      exact (exposures_return_iff _).1 ⟨held, hheld, values, hvalues⟩
  rw [and_iff_right hfinite]
  obtain ⟨existing, hexisting⟩ := existingRisk_of_finite hfinite
  obtain ⟨held, hheld, hentries⟩ := aggregateExposure_finite hfinite none
  obtain ⟨exposures, hexposures, _⟩ := aggregateExposure_finite hfinite
    (some (c, c.requestedSize * perUnit + c.financingCost))
  obtain ⟨values, hvalues⟩ := finiteExposures_ok hentries
  have hsized : Sizable context c perUnit limits ↔
      NotionalDefined context c perUnit (capacities context limits existing held) ∧
        TradesCountable context c perUnit (capacities context limits existing held) := by
    constructor
    · exact fun h => h existing held hexisting hheld
    · intro h existing' held' hexisting' hheld'
      obtain rfl : existing = existing' := Except.ok.inj (hexisting.symm.trans hexisting')
      obtain rfl : held = held' := Except.ok.inj (hheld.symm.trans hheld')
      exact h
  rw [hsized]
  obtain ⟨size, hsize⟩ : Returns (compliantSize c.requestedSize perUnit
      ((capacities context limits existing held).map fun cap => max 0 (cap - c.financingCost))
      c.sizeIncrement) := compliantSize_returns c.sizeIncrement_pos
  obtain ⟨hsize0, hsizeLe, _⟩ := compliantSize_spec c.requestedSize_pos hp c.sizeIncrement_pos
    (by simp [capacities]) hsize
  have hnotional : Returns (approvedNotional c (sizeDecision context c size).size) ↔
      NotionalDefined context c perUnit (capacities context limits existing held) := by
    have hstep : 0 < size ↔ ∀ cap ∈ capacities context limits existing held,
        c.sizeIncrement * perUnit + c.financingCost ≤ cap := by
      rw [← net_fits_iff (mul_pos c.sizeIncrement_pos hp)]
      exact compliantSize_pos_iff c.requestedSize_pos hp c.sizeIncrement_pos hsize
    rw [approvedNotional_returns_iff, hstep]
    unfold NotionalDefined
    push Not
    rfl
  have hrequested : 0 < c.requestedSize * perUnit + c.financingCost :=
    add_pos_of_pos_of_nonneg (mul_pos c.requestedSize_pos hp) c.financingCost_nonneg
  have happroved : max (size * perUnit + if 0 < size then c.financingCost else 0)
      (c.requestedSize * perUnit + c.financingCost) =
      c.requestedSize * perUnit + c.financingCost := by
    refine max_eq_right (add_le_add (mul_le_mul_of_nonneg_right hsizeLe hp.le) ?_)
    split
    · exact le_rfl
    · exact c.financingCost_nonneg
  have htrades : Returns (additionalTradeCapacity context.staticMaxConcurrentTrades
      context.positions.length (leastOf (remainingDrawdown context limits)
        (remainingDaily context limits :: max 0 (limits.portfolio.value - existing) ::
          ((strictestApplicable context.constraints .maxRiskPerTrade).toList.map (·.value) ++
            correlationRemaining context held)))
      (c.requestedSize * perUnit + c.financingCost)) ↔
      TradesCountable context c perUnit (capacities context limits existing held) := by
    refine (additionalTradeCapacity_ok_iff hrequested).trans ?_
    rw [leastOf_lt_iff]
    rfl
  rw [← hnotional, ← htrades]
  unfold capacities at hsize
  unfold assess
  dsimp only
  rw [hexisting]
  dsimp only
  rw [bind_ok_eq hexposures, bind_ok_eq hheld, bind_ok_eq hsize, happroved]
  simp only [returns_bind]
  constructor
  · rintro ⟨slots, hslots, notional, hvalue, _⟩
    exact ⟨⟨notional, hvalue⟩, slots, hslots⟩
  · rintro ⟨⟨notional, hvalue⟩, slots, hslots⟩
    exact ⟨slots, hslots, notional, hvalue, values, hvalues, returns_ok _⟩

/-! ## The evaluation -/

theorem evaluate_returns_iff (context : RiskContext) (c : CandidateTrade) :
    Returns (evaluate context c) ↔ Evaluable context c := by
  have hbounded : (∀ p ∈ context.positions, p.risk ≠ ⊤) ↔
      ∀ p ∈ context.positions, ∃ loss, p.remainingLossToStop = some loss ∧ loss ≠ 0 := by
    simp only [risk_ne_top_iff]
  unfold evaluate
  cases hauthority : authorityError context c with
  | some error =>
    dsimp only
    rw [missingAuthority_returns_iff, hbounded]
    exact ⟨fun h => ⟨h, by simp [hauthority], by simp [hauthority]⟩, fun h => h.bounded⟩
  | none =>
    dsimp only
    rw [returns_bind]
    cases hlimits : requiredLimits context with
    | none =>
      simp only [missingAuthority_returns_iff, hbounded]
      constructor
      · rintro ⟨perUnit, hperUnit, h⟩
        exact ⟨h, fun _ => (usedRiskPerUnit_returns_iff c).1 ⟨perUnit, hperUnit⟩,
          fun _ _ limits _ hl => by simp [hlimits] at hl⟩
      · intro h
        obtain ⟨perUnit, hperUnit⟩ := (usedRiskPerUnit_returns_iff c).2 (h.unit hauthority)
        exact ⟨perUnit, hperUnit, h.bounded⟩
    | some limits =>
      constructor
      · rintro ⟨perUnit, hperUnit, h⟩
        obtain ⟨hfinite, hsizable⟩ := (assess_returns_iff (usedRiskPerUnit_pos hperUnit)).1 h
        refine ⟨hbounded.1 hfinite, fun _ => (usedRiskPerUnit_returns_iff c).1 ⟨perUnit, hperUnit⟩,
          fun _ perUnit' limits' hperUnit' hlimits' => ?_⟩
        obtain rfl : perUnit = perUnit' := Except.ok.inj (hperUnit.symm.trans hperUnit')
        obtain rfl : limits = limits' := Option.some.inj (hlimits.symm.trans hlimits')
        exact hsizable
      · intro h
        obtain ⟨perUnit, hperUnit⟩ := (usedRiskPerUnit_returns_iff c).2 (h.unit hauthority)
        exact ⟨perUnit, hperUnit, (assess_returns_iff (usedRiskPerUnit_pos hperUnit)).2
          ⟨hbounded.2 h.bounded, h.sizable hauthority perUnit limits hperUnit hlimits⟩⟩

/-- A result without authority or required limits is a block. -/
theorem hardBlock_of_unbounded {context : RiskContext} {c : CandidateTrade} {result : RiskResult}
    (h : evaluate context c = .ok result) (hunbounded : Unbounded context c) :
    result.decision = .hardBlock := by
  by_contra hdecision
  obtain ⟨hauthority, hperUnit, hlimits⟩ : authorityError context c = none ∧
      Returns (usedRiskPerUnit c) ∧ requiredLimits context ≠ none := by
    unfold evaluate at h
    split at h
    · exact absurd (missingAuthority_spec h).1 hdecision
    · obtain ⟨perUnit, hperUnit, h⟩ := ok_of_bind h
      split at h
      · exact absurd (missingAuthority_spec h).1 hdecision
      · rename_i hlimits
        exact ⟨‹_›, ⟨perUnit, hperUnit⟩, by simp [hlimits]⟩
  rcases hunbounded with hmissing | hmissing | hmissing | ⟨p, hp, htop⟩
  · exact hmissing hauthority
  · exact hlimits hmissing
  · exact hmissing hperUnit
  · obtain ⟨loss, hloss, hne⟩ := ((evaluate_returns_iff context c).1 ⟨result, h⟩).bounded p hp
    exact (risk_ne_top_iff p).2 ⟨loss, hloss, hne⟩ htop

/-- An open EURUSD position with a weight in dollars. -/
def dollarPosition (weight : ℚ) (loss : Option ℚ) : OpenPositionRisk where
  instrument := "EURUSD"
  marketCategory := "forex"
  currencyExposures := Dict.empty.set "USD" weight
  remainingLossToStop := loss
  unrealizedPnl := 0

/-- The fixture's account beside one position, asked for ten units. -/
def evaluateBeside (p : OpenPositionRisk) : Except RiskError RiskResult :=
  evaluate { pretradeContext with positions := [p] } (pretradeCandidate 10 tenUnits_pos)

end Matrades

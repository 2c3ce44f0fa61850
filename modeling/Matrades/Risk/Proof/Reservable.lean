import Matrades.Risk.Authority
import Matrades.Risk.Proof.FailClosed

/-!
# When an approved risk can be reserved

The evaluation reports the portfolio capacity net of the active reservations, and `reserve` subtracts
them again. So an approved risk is refused where it fits the capacity once but not twice
(`approved_reservable_iff`); without active reservations everything approved can be reserved.
-/

namespace Matrades

open Base

/-- The sum of the active reservations `reserve` counts, after its sweep. -/
def Database.sweptAmount (db : Database) (now : Time) (ownerId accountId : Uuid) : ℚ :=
  ((db.sweep now (some accountId)).activeAmounts ownerId accountId).sum

/-- The risk of the request, or of every whole number of increments that fits the capacities, is
within the remaining portfolio capacity less `active`. -/
def FitsBeside (active : ℚ) (c : CandidateTrade) (perUnit remaining : ℚ) (capacities : List ℚ) :
    Prop :=
  c.requestedSize * perUnit + c.financingCost ≤ remaining - active ∨
    ∀ n : ℕ, 0 < n → (∀ cap ∈ capacities, n * c.sizeIncrement * perUnit + c.financingCost ≤ cap) →
      n * c.sizeIncrement * perUnit + c.financingCost ≤ remaining - active

/-- What the context leaves fits beside the active reservations. -/
def Reservable (context : RiskContext) (c : CandidateTrade) (active : ℚ) : Prop :=
  ∀ perUnit limits existing held, usedRiskPerUnit c = .ok perUnit →
    requiredLimits context = some limits → existingRisk context = .ok existing →
    aggregateExposure context.positions none = .ok held →
    FitsBeside active c perUnit (max 0 (limits.portfolio.value - existing))
      (capacities context limits existing held)

/-- Nothing is lost where no reservation is active. -/
theorem reservable_of_inactive (context : RiskContext) (c : CandidateTrade) {active : ℚ}
    (h : active ≤ 0) : Reservable context c active := by
  intro perUnit limits existing held _ _ _ _
  refine .inr fun n _ hfits => ?_
  have hportfolio := hfits (max 0 (limits.portfolio.value - existing)) (by simp [capacities])
  linarith

/-- `reserve` for a plan without a reservation. -/
theorem reserve_returns_iff {db : Database} {env : Env} {ownerId accountId planId : Uuid}
    {amount available : ℚ} (haccount : db.HasAccount accountId ownerId)
    (hnew : db.planReservation? ownerId planId = none) :
    Returns (reserve env ownerId accountId planId amount available db).result ↔
      0 < amount ∧ db.sweptAmount env.now ownerId accountId + amount ≤ available := by
  have hrun : reserve env ownerId accountId planId amount available db =
      reserveNew env ownerId accountId planId amount available db := by
    rw [reserve, Tx.get_bind, Tx.require_bind_pos haccount, hnew]
  unfold Database.sweptAmount
  rw [hrun, reserveNew, expire, Tx.modify_bind, Tx.get_bind]
  by_cases hroom : 0 < amount ∧
      ((db.sweep env.now (some accountId)).activeAmounts ownerId accountId).sum + amount ≤ available
  · refine iff_of_true ?_ hroom
    rw [Tx.require_bind_pos hroom, Tx.modify_bind]
    exact returns_ok _
  · refine iff_of_false ?_ hroom
    rw [Tx.require_bind_neg hroom]
    exact not_returns_error _

/-- The loss of a compliant size is within a bound exactly if that of the request is, or that of every
number of increments that fits. -/
theorem compliantSize_within_iff {requested perUnit increment size bound c : ℚ} {cs : List ℚ}
    (hp : 0 < perUnit) (hi : 0 < increment)
    (h : compliantSize requested perUnit (c :: cs) increment = .ok size) (hpos : 0 < size) :
    size * perUnit ≤ bound ↔ requested * perUnit ≤ bound ∨
      ∀ n : ℕ, 0 < n → (∀ cap ∈ c :: cs, n * increment * perUnit ≤ cap) →
        n * increment * perUnit ≤ bound := by
  obtain ⟨raw, hraw, h⟩ := ok_of_bind h
  cases h
  have hrawPos : 0 < raw := hpos.trans_le (min_le_right _ _)
  obtain ⟨hbudget, hcost⟩ := (sizeForRisk_spec hp hi hraw).2 hrawPos
  have hleast : max 0 (leastOf c cs) = leastOf c cs := by
    refine max_eq_right (le_of_lt ?_)
    by_contra hneg
    rw [max_eq_left (not_lt.1 hneg)] at hbudget
    exact lt_irrefl _ hbudget
  rw [hleast] at hraw hbudget hcost
  have hquotient : 0 ≤ leastOf c cs / perUnit := (div_pos hbudget hp).le
  rw [sizeForRisk, if_neg (by simp [hbudget, hp]), roundDown, if_neg (not_le.2 hi)] at hraw
  obtain rfl : floorTo (leastOf c cs / perUnit) increment = raw := Except.ok.inj hraw
  constructor
  · intro hsize
    rcases min_choice requested (floorTo (leastOf c cs / perUnit) increment) with hmin | hmin
    · exact .inl (hmin ▸ hsize)
    · refine .inr fun n _ hfits => ?_
      have hn : ((n : ℤ) : ℚ) * increment ≤ leastOf c cs / perUnit := by
        rw [le_div_iff₀ hp, Int.cast_natCast]
        exact le_leastOf hfits
      have hround := le_floorTo hquotient hi hn
      rw [Int.cast_natCast] at hround
      calc n * increment * perUnit
          ≤ floorTo (leastOf c cs / perUnit) increment * perUnit :=
            mul_le_mul_of_nonneg_right hround hp.le
        _ = min requested (floorTo (leastOf c cs / perUnit) increment) * perUnit := by rw [hmin]
        _ ≤ bound := hsize
  · rintro (hrequested | hincrements)
    · exact (mul_le_mul_of_nonneg_right (min_le_left _ _) hp.le).trans hrequested
    · obtain ⟨n, hsteps⟩ := floorTo_steps hquotient hi
      have hn : 0 < n := by
        rw [hsteps] at hrawPos
        exact_mod_cast (mul_pos_iff_of_pos_right hi).1 hrawPos
      have hfits := hincrements n hn fun cap hcap => by
        rw [← hsteps]
        exact hcost.trans (leastOf_le cap hcap)
      rw [← hsteps] at hfits
      exact (mul_le_mul_of_nonneg_right (min_le_right _ _) hp.le).trans hfits

theorem hasAccount_of_context {now : Time} {db : Database} {ownerId accountId : Uuid}
    {c : CandidateTrade} {context : RiskContext}
    (h : authoritativeRiskContext now db ownerId accountId c = .ok context) :
    db.HasAccount accountId ownerId := by
  obtain ⟨_, hauthority, _⟩ := ok_of_bind h
  obtain ⟨row, hrow, _⟩ := ok_of_bind hauthority
  have hfound := orError_eq_ok.1 hrow
  have hmatch := List.find?_some hfound
  simp only [decide_eq_true_eq] at hmatch
  exact ⟨row, List.mem_of_find?_eq_some hfound, hmatch.1, hmatch.2.1, by rw [hmatch.2.2]; rfl⟩

/-- **When an approved risk can be reserved**: on the authoritative context of an account, the risk
that is approved for a plan without a reservation is reserved exactly if it fits what the portfolio
leaves with the active reservations subtracted a second time. -/
theorem approved_reservable_iff {now : Time} {db : Database} {ownerId accountId planId : Uuid}
    {c : CandidateTrade} {context : RiskContext} {result : RiskResult} (env : Env)
    (hcontext : authoritativeRiskContext now db ownerId accountId c = .ok context)
    (hresult : evaluate context c = .ok result) (happroved : result.decision ≠ .hardBlock)
    (hnew : db.planReservation? ownerId planId = none) :
    Returns (reserve env ownerId accountId planId result.snapshot.candidateTradeRisk
        result.snapshot.remainingPortfolioRiskCapacity db).result ↔
      Reservable context c (db.sweptAmount env.now ownerId accountId) := by
  obtain ⟨perUnit, limits, existing, held, size, hperUnit, hlimits, hassessed, hpos⟩ :=
    evaluate_assessed hresult happroved
  have hp := usedRiskPerUnit_pos hperUnit
  have hrisk : result.snapshot.candidateTradeRisk = size * perUnit + c.financingCost := by
    rw [hassessed.risk, if_pos hpos]
  have hriskPos : 0 < size * perUnit + c.financingCost :=
    add_pos_of_pos_of_nonneg (mul_pos hpos hp) c.financingCost_nonneg
  rw [reserve_returns_iff (hasAccount_of_context hcontext) hnew, hrisk, hassessed.remaining,
    and_iff_right hriskPos]
  generalize db.sweptAmount env.now ownerId accountId = active
  have hsame : Reservable context c active ↔
      FitsBeside active c perUnit (max 0 (limits.portfolio.value - existing))
        (capacities context limits existing held) := by
    constructor
    · exact fun h => h perUnit limits existing held hperUnit hlimits hassessed.reserved
        hassessed.aggregated
    · intro h perUnit' limits' existing' held' hperUnit' hlimits' hreserved' haggregated'
      obtain rfl : perUnit = perUnit' := Except.ok.inj (hperUnit.symm.trans hperUnit')
      obtain rfl : limits = limits' := Option.some.inj (hlimits.symm.trans hlimits')
      obtain rfl : existing = existing' := Except.ok.inj (hassessed.reserved.symm.trans hreserved')
      obtain rfl : held = held' := Except.ok.inj (hassessed.aggregated.symm.trans haggregated')
      exact h
  rw [hsame]
  unfold FitsBeside
  have hmove : ∀ loss : ℚ, loss + c.financingCost ≤
      max 0 (limits.portfolio.value - existing) - active ↔
      loss ≤ max 0 (limits.portfolio.value - existing) - active - c.financingCost :=
    fun loss => (le_sub_iff_add_le).symm
  have hclaim : active + (size * perUnit + c.financingCost) ≤
      max 0 (limits.portfolio.value - existing) ↔
      size * perUnit ≤ max 0 (limits.portfolio.value - existing) - active - c.financingCost := by
    rw [← hmove, le_sub_iff_add_le, add_comm active]
  rw [hclaim, compliantSize_within_iff hp c.sizeIncrement_pos hassessed.sized hpos]
  simp only [hmove]
  refine or_congr_right (forall_congr' fun n => forall_congr' fun hn => ?_)
  have hloss : 0 < (n : ℚ) * c.sizeIncrement * perUnit := by
    have hsteps : (0 : ℚ) < n := by exact_mod_cast hn
    exact mul_pos (mul_pos hsteps c.sizeIncrement_pos) hp
  rw [← net_fits_iff hloss]
  rfl

/-! ## An account with a reservation -/

/-- A limit of 1000 on drawdown, daily loss and portfolio risk. -/
def thousandRules : List PolicyRule :=
  [{ kind := .maxTotalDrawdown, value := 1000 }, { kind := .maxDailyLoss, value := 1000 },
    { kind := .maxPortfolioRisk, value := 1000 }]

/-- An account without open positions, and these reservations. -/
def flatDatabase (reservations : List Reservation) : Database :=
  { Database.empty with
    accounts := [⟨.ofNat 1, .ofNat 9, .active, 1, ⟨"USD", 10000⟩, 0⟩]
    policies := [⟨.ofNat 70, .ofNat 9, .active, 1, ⟨.guardrail, none, some "g", thousandRules⟩, 0⟩]
    brokerSnapshots := [⟨.ofNat 60, .ofNat 9, .active, 1,
      ⟨.ofNat 61, .ofNat 1, 1, 100 * second, 10000, 10000, 0, some "USD", [], [], []⟩, 0⟩]
    reservations }

/-- Plan 21 has reserved 450. -/
def otherReservation : Reservation where
  id := .ofNat 101
  ownerId := some (.ofNat 9)
  accountId := .ofNat 1
  tradePlanId := some (.ofNat 21)
  commandId := none
  brokerOrderId := none
  brokerPositionId := none
  amount := 450
  state := .provisional
  expiresAt := 600 * second
  version := 1
  reason := none
  splitFrom := none
  updatedAt := 0

theorem sixTenths_pos : (0 : ℚ) < 3 / 5 := by norm_num

/-- A candidate of 0.6 units of the pretrade fixture, a risk of 300. -/
def flatCandidate : CandidateTrade := pretradeCandidate (3 / 5) sixTenths_pos

def flatEnv : Env := { now := 110 * second, newId := fun n => .ofNat (500 + n) }

/-- The decision, the risk and the remaining portfolio capacity of an evaluation. -/
def decided (db : Database) (c : CandidateTrade) : Option (RiskDecision × ℚ × ℚ) :=
  (authoritativeRiskContext (110 * second) db (.ofNat 9) (.ofNat 1) c).toOption.bind fun context =>
    (evaluate context c).toOption.map fun result => (result.decision,
      result.snapshot.candidateTradeRisk, result.snapshot.remainingPortfolioRiskCapacity)

theorem decided_spec {db : Database} {c : CandidateTrade} {decision : RiskDecision} {risk remaining : ℚ}
    (h : decided db c = some (decision, risk, remaining)) :
    ∃ context result,
      authoritativeRiskContext (110 * second) db (.ofNat 9) (.ofNat 1) c = .ok context ∧
      evaluate context c = .ok result ∧ result.decision = decision ∧
      result.snapshot.candidateTradeRisk = risk ∧
      result.snapshot.remainingPortfolioRiskCapacity = remaining := by
  obtain ⟨context, hcontext, h⟩ := Option.bind_eq_some_iff.1 h
  obtain ⟨result, hresult, h⟩ := Option.map_eq_some_iff.1 h
  cases h
  exact ⟨context, result, toOption_eq_some.1 hcontext, toOption_eq_some.1 hresult, rfl, rfl, rfl⟩

/-- **An approved risk that cannot be reserved**: of 1000, 450 are reserved; 300 more pass, and are
refused. -/
theorem approved_not_reserved : ∃ context result,
    authoritativeRiskContext (110 * second) (flatDatabase [otherReservation]) (.ofNat 9) (.ofNat 1)
      flatCandidate = .ok context ∧
    evaluate context flatCandidate = .ok result ∧ result.decision = .pass ∧
    result.snapshot.candidateTradeRisk = 300 ∧
    (flatDatabase [otherReservation]).planReservation? (.ofNat 9) (.ofNat 20) = none ∧
    errorOf (reserve flatEnv (.ofNat 9) (.ofNat 1) (.ofNat 20) result.snapshot.candidateTradeRisk
      result.snapshot.remainingPortfolioRiskCapacity (flatDatabase [otherReservation])).result =
        some (.valueError "insufficient unreserved risk capacity") := by
  have hdecided : decided (flatDatabase [otherReservation]) flatCandidate =
      some (.pass, 300, 550) := by decide +kernel
  obtain ⟨context, result, hcontext, hresult, hpass, hrisk, hremaining⟩ := decided_spec hdecided
  refine ⟨context, result, hcontext, hresult, hpass, hrisk, rfl, ?_⟩
  rw [hrisk, hremaining]
  decide +kernel

/-- Without the other reservation the same risk is reserved. -/
theorem approved_reserved_alone : ∃ context result,
    authoritativeRiskContext (110 * second) (flatDatabase []) (.ofNat 9) (.ofNat 1) flatCandidate =
      .ok context ∧
    evaluate context flatCandidate = .ok result ∧ result.decision = .pass ∧
    Returns (reserve flatEnv (.ofNat 9) (.ofNat 1) (.ofNat 20) result.snapshot.candidateTradeRisk
      result.snapshot.remainingPortfolioRiskCapacity (flatDatabase [])).result := by
  have hdecided : decided (flatDatabase []) flatCandidate = some (.pass, 300, 1000) := by decide +kernel
  obtain ⟨context, result, hcontext, hresult, hpass, _, _⟩ := decided_spec hdecided
  refine ⟨context, result, hcontext, hresult, hpass, ?_⟩
  refine (approved_reservable_iff flatEnv hcontext hresult (by simp [hpass]) rfl).2 ?_
  exact reservable_of_inactive _ _ (by decide +kernel)

end Matrades

import Mathlib.Algebra.BigOperators.Group.List.Basic
import Matrades.Backtesting.NativeReplay
import Matrades.Backtesting.Proof.Alike
import Matrades.Base.Result

/-!
# Orders of the native replay

An entry that is submitted is a positive number of steps, within the maximum and the risk budget
(`entryUnits_sized`). The targets of its fill add up to it in whole steps, but each reaches the minimum
only if that many minima, rounded up to steps, fit into the entry (`native_orders_iff`): the entry check
compares with the minima themselves.
-/

namespace Matrades

open Base

/-! ## What a broker accepts -/

/-- A number of whole steps. -/
def ReplayTerms.InSteps (terms : ReplayTerms) (quantity : ℚ) : Prop :=
  ∃ k : ℕ, 0 < k ∧ quantity = k * terms.sizeStep

/-- An entry in steps, within the maximum, whose loss at the stop is within the budget. -/
structure RiskSizedEntry (terms : ReplayTerms) (equity riskPercent distance quantity : ℚ) : Prop where
  steps : terms.InSteps quantity
  maximum : ∀ maximum ∈ terms.maximum, quantity ≤ maximum
  risk : quantity * distance ≤ equity * riskPercent / 100

/-- Targets that add up to the filled quantity, each in steps and not below the minimum. -/
structure SizedTargets (terms : ReplayTerms) (quantity : ℚ) (orders : List ReplayOrder) : Prop where
  total : (orders.map ReplayOrder.quantity).sum = quantity
  steps : ∀ order ∈ orders, terms.InSteps order.quantity
  minimum : ∀ order ∈ orders, terms.minSize ≤ order.quantity

/-- The target order that an action submits. -/
def ReplayAction.limitOrder? : ReplayAction → Option ReplayOrder
  | .submitOrder order =>
    match order.kind with
    | .limit _ => some order
    | _ => none
  | _ => none

def limitOrders (actions : List ReplayAction) : List ReplayOrder :=
  actions.filterMap ReplayAction.limitOrder?

namespace NativeRun

variable {run : NativeRun}

theorem targetCount_pos : 0 < run.targetCount := List.length_pos_of_ne_nil run.rules.targets_nonempty

/-! ## Entries -/

/-- The steps of an entry. -/
def entrySteps (run : NativeRun) (desired : ℚ) : ℤ :=
  ⌊(run.terms.maximum.elim desired fun maximum => min desired maximum) / run.terms.sizeStep⌋

theorem entryUnits_eq {desired units : ℚ} (h : run.entryUnits desired = some units) :
    units = run.entrySteps desired * run.terms.sizeStep ∧ run.leastUnits ≤ units := by
  unfold entryUnits at h
  unfold entrySteps
  dsimp only at h
  split at h
  · cases h
  rename_i hleast
  cases hmaximum : run.terms.maximum with
  | none =>
    rw [hmaximum] at h
    cases h
    exact ⟨rfl, not_lt.1 hleast⟩
  | some maximum =>
    rw [hmaximum] at h
    dsimp only at h
    split at h
    · cases h
    rename_i hcapped
    cases h
    rw [wholeSteps_min run.terms.step_pos] at hcapped ⊢
    exact ⟨rfl, not_lt.1 hcapped⟩

theorem step_le_leastUnits : run.terms.sizeStep ≤ run.leastUnits := by
  have hcount : (1 : ℚ) ≤ run.targetCount := by exact_mod_cast run.targetCount_pos
  have hstep := run.terms.step_pos
  calc run.terms.sizeStep = run.terms.sizeStep * 1 := (mul_one _).symm
    _ ≤ run.terms.sizeStep * run.targetCount := mul_le_mul_of_nonneg_left hcount hstep.le
    _ ≤ run.leastUnits := le_max_right _ _

/-- **The units of an entry are sized.** -/
theorem entryUnits_sized {equity : ℚ} {features : FeaturePoint} (hvolatility : 0 < features.volatility)
    {units : ℚ} (h : run.entryUnits (run.desiredUnits equity features) = some units) :
    RiskSizedEntry run.terms equity run.spec.riskPerTrade (run.stopDistance features) units := by
  have hstep := run.terms.step_pos
  have hdistance : 0 < run.stopDistance features := mul_pos hvolatility run.rules.stop_pos
  obtain ⟨hunits, hleast⟩ := entryUnits_eq h
  have hpos : 0 < run.entrySteps (run.desiredUnits equity features) := by
    have hone : (1 : ℚ) * run.terms.sizeStep ≤
        run.entrySteps (run.desiredUnits equity features) * run.terms.sizeStep := by
      rw [one_mul, ← hunits]
      exact step_le_leastUnits.trans hleast
    exact_mod_cast le_of_mul_le_mul_right hone hstep
  have hcap : units ≤ run.terms.maximum.elim (run.desiredUnits equity features)
      fun maximum => min (run.desiredUnits equity features) maximum := by
    rw [hunits]
    exact wholeSteps_le hstep _
  refine ⟨?_, ?_, ?_⟩
  · obtain ⟨k, hk⟩ := Int.eq_ofNat_of_zero_le hpos.le
    refine ⟨k, by omega, ?_⟩
    rw [hunits, hk, Int.cast_natCast]
  · intro maximum hmaximum
    rw [Option.mem_def.1 hmaximum] at hcap
    exact hcap.trans (min_le_right _ _)
  · have hdesired : units ≤ run.desiredUnits equity features := by
      cases hmaximum : run.terms.maximum with
      | none =>
        rw [hmaximum] at hcap
        exact hcap
      | some maximum =>
        rw [hmaximum] at hcap
        exact hcap.trans (min_le_left _ _)
    unfold desiredUnits at hdesired
    rwa [le_div_iff₀ hdistance] at hdesired

/-! ## Targets -/

/-- The parts, and the rest. -/
theorem targetSizes_succ (quantity : ℚ) (n : ℕ) :
    run.targetSizes quantity (n + 1) =
      List.replicate n (wholeSteps run.terms.sizeStep (quantity / (n + 1 : ℕ))) ++
        [quantity - wholeSteps run.terms.sizeStep (quantity / (n + 1 : ℕ)) * n] := by
  unfold targetSizes
  dsimp only
  generalize wholeSteps run.terms.sizeStep (quantity / (n + 1 : ℕ)) = fraction
  rw [List.range_succ, List.map_append, List.map_singleton, Nat.add_sub_cancel, if_pos rfl]
  have hparts : (List.range n).map (fun i =>
      if i = n then quantity - fraction * (((n + 1 : ℕ) : ℚ) - 1) else fraction) =
        List.replicate n fraction := by
    rw [List.eq_replicate_iff]
    refine ⟨by simp, ?_⟩
    intro x hx
    obtain ⟨i, hi, rfl⟩ := List.mem_map.1 hx
    rw [if_neg (List.mem_range.1 hi).ne]
  rw [hparts]
  push_cast
  rw [add_sub_cancel_right]

/-- The sizes add up to the quantity. -/
theorem targetSizes_sum (quantity : ℚ) {count : ℕ} (hcount : 0 < count) :
    (run.targetSizes quantity count).sum = quantity := by
  obtain ⟨n, rfl⟩ : ∃ n, count = n + 1 := ⟨count - 1, by omega⟩
  rw [targetSizes_succ, List.sum_append, List.sum_replicate, List.sum_singleton, nsmul_eq_mul]
  ring

section
variable {k : ℤ} {count : ℕ}

/-- The sizes in steps. -/
theorem mem_targetSizes (hcount : 0 < count) {size : ℚ}
    (hsize : size ∈ run.targetSizes (k * run.terms.sizeStep) count) :
    (1 < count ∧ size = (k / (count : ℤ) : ℤ) * run.terms.sizeStep) ∨
      size = (k - (k / (count : ℤ)) * (count - 1) : ℤ) * run.terms.sizeStep := by
  obtain ⟨n, rfl⟩ : ∃ n, count = n + 1 := ⟨count - 1, by omega⟩
  rw [targetSizes_succ, wholeSteps_part run.terms.step_pos] at hsize
  rcases List.mem_append.1 hsize with hsize | hsize
  · obtain ⟨hn, rfl⟩ := List.mem_replicate.1 hsize
    exact .inl ⟨by omega, rfl⟩
  · refine .inr ?_
    rw [List.mem_singleton.1 hsize]
    push_cast
    ring

/-- Each part is at least one step, if there are enough of them. -/
theorem targetSizes_steps (hcount : 0 < count) (hk : (count : ℤ) ≤ k) {size : ℚ}
    (hsize : size ∈ run.targetSizes (k * run.terms.sizeStep) count) : run.terms.InSteps size := by
  have hpos : (0 : ℤ) < count := by exact_mod_cast hcount
  have hpart : 1 ≤ k / (count : ℤ) := by
    rw [Int.le_ediv_iff_mul_le hpos]
    omega
  have hrest : k / (count : ℤ) * (count - 1) + k / (count : ℤ) ≤ k := by
    have hle := Int.ediv_mul_le k hpos.ne'
    linarith
  rcases mem_targetSizes hcount hsize with ⟨-, rfl⟩ | rfl
  · obtain ⟨m, hm⟩ := Int.eq_ofNat_of_zero_le (show 0 ≤ k / (count : ℤ) by omega)
    exact ⟨m, by omega, by rw [hm, Int.cast_natCast]⟩
  · obtain ⟨m, hm⟩ := Int.eq_ofNat_of_zero_le
      (show 0 ≤ k - k / (count : ℤ) * (count - 1) by omega)
    exact ⟨m, by omega, by rw [hm, Int.cast_natCast]⟩

/-- **All targets reach the minimum exactly if the minima, each in whole steps, fit.** -/
theorem targetSizes_minimum (hcount : 0 < count) :
    (∀ size ∈ run.targetSizes (k * run.terms.sizeStep) count, run.terms.minSize ≤ size) ↔
      count * ⌈run.terms.minSize / run.terms.sizeStep⌉ ≤ k := by
  have hstep := run.terms.step_pos
  rw [← le_part_iff hstep k hcount]
  obtain ⟨n, rfl⟩ : ∃ n, count = n + 1 := ⟨count - 1, by omega⟩
  rw [targetSizes_succ]
  constructor
  · intro h
    cases n with
    | zero =>
      -- the only target takes everything
      have hrest := h _ (List.mem_append_right _ (List.mem_singleton_self _))
      rw [Nat.cast_zero, mul_zero, sub_zero] at hrest
      rwa [zero_add, Nat.cast_one, div_one, wholeSteps_of_steps hstep]
    | succ n =>
      exact h _ (List.mem_append_left _ (List.mem_replicate.2 ⟨Nat.succ_ne_zero n, rfl⟩))
  · intro h size hsize
    rcases List.mem_append.1 hsize with hsize | hsize
    · rw [(List.mem_replicate.1 hsize).2]
      exact h
    · have hfraction : wholeSteps run.terms.sizeStep (k * run.terms.sizeStep / (n + 1 : ℕ)) *
          (n + 1 : ℕ) ≤ k * run.terms.sizeStep := by
        have hle := wholeSteps_le hstep (k * run.terms.sizeStep / (n + 1 : ℕ))
        rwa [le_div_iff₀ (by positivity)] at hle
      rw [List.mem_singleton.1 hsize]
      push_cast at hfraction h ⊢
      linarith

end

/-! ## Fills -/

theorem targetOrders_quantity (firstId : ℕ) (quantity : ℚ) (prices : List ℚ) :
    (run.targetOrders firstId quantity prices).map ReplayOrder.quantity =
      run.targetSizes quantity prices.length := by
  have hlength : (run.targetSizes quantity prices.length).length = prices.length := by
    simp [targetSizes]
  unfold targetOrders
  rw [List.map_map]
  show ((run.targetSizes quantity prices.length).zip prices).zipIdx.map (fun p => p.1.1) = _
  have hsplit : (fun p : (ℚ × ℚ) × ℕ => p.1.1) = Prod.fst ∘ Prod.fst := rfl
  rw [hsplit, ← List.map_map, List.zipIdx_map_fst, List.map_fst_zip hlength.le]

theorem limitOrders_targets (firstId : ℕ) (quantity : ℚ) (prices : List ℚ) :
    limitOrders ((run.targetOrders firstId quantity prices).map .submitOrder) =
      run.targetOrders firstId quantity prices := by
  have hall : ∀ order ∈ run.targetOrders firstId quantity prices,
      (ReplayAction.limitOrder? ∘ ReplayAction.submitOrder) order = some order := by
    intro order horder
    obtain ⟨p, -, rfl⟩ := List.mem_map.1 horder
    rfl
  unfold limitOrders
  rw [List.filterMap_map, List.filterMap_congr hall, List.filterMap_some]

theorem limitOrders_stop (clientOrderId : ℕ) (trigger : ℚ) (side : OrderSide) (quantity : ℚ)
    (reduceOnly : Bool) (rest : List ReplayAction) :
    limitOrders (.submitOrder ⟨clientOrderId, .stopMarket trigger, side, quantity, reduceOnly⟩ :: rest) =
      limitOrders rest := rfl

/-- The targets of the fill of an entry. -/
theorem filled_targets {t t' : NativeState} {f : FillEvent} {actions : List ReplayAction}
    (hentry : t.entryId = some f.clientOrderId) (h : run.onOrderFilled t f = .ok (t', actions)) :
    (limitOrders actions).map ReplayOrder.quantity = run.targetSizes f.lastQty run.targetCount := by
  unfold onOrderFilled at h
  dsimp only at h
  rw [if_pos hentry] at h
  unfold protectEntry at h
  dsimp only at h
  cases hfeatures : t.activeFeatures with
  | none =>
    rw [hfeatures] at h
    cases h
  | some features =>
    rw [hfeatures] at h
    obtain ⟨⟨stop, prices⟩, hlevels, h⟩ := ok_of_bind h
    cases h
    have hcount : prices.length = run.targetCount := protectionLevels_length hlevels
    rw [limitOrders_stop, limitOrders_targets, targetOrders_quantity, hcount]

/-! ## Ticks -/

/-- A position is managed without new orders. -/
theorem managePosition_quiet {s : NativeState} {q : QuoteEvent} {previousClose : ℚ}
    {features : FeaturePoint} {actions : List ReplayAction}
    (h : run.managePosition s q previousClose features = .ok actions) (order : ReplayOrder) :
    .submitOrder order ∉ actions := by
  unfold managePosition at h
  split at h
  · cases h
    simp
  split at h
  · split at h
    · cases h
    · cases h
      split
      · simp
      · simp
  · cases h
    simp

theorem submitEntry_order {s s' : NativeState} {q : QuoteEvent} {features : FeaturePoint}
    {actions : List ReplayAction} {order : ReplayOrder}
    (h : run.submitEntry s q features = (s', actions)) (horder : .submitOrder order ∈ actions) :
    s'.activeFeatures = some features ∧ s'.entryId = some order.clientOrderId ∧
      run.entryUnits (run.desiredUnits q.balance features) = some order.quantity := by
  unfold submitEntry at h
  dsimp only at h
  cases hunits : run.entryUnits (run.desiredUnits q.balance features) with
  | none =>
    rw [hunits] at h
    cases h
    cases horder
  | some units =>
    rw [hunits] at h
    cases h
    cases List.mem_singleton.1 horder
    exact ⟨rfl, rfl, rfl⟩

/-- A tick that submits an order is due for an entry. -/
theorem submitted_entry {s s' : NativeState} {q : QuoteEvent} {actions : List ReplayAction}
    {order : ReplayOrder} (h : run.onQuoteTick s q = .ok (s', actions))
    (horder : .submitOrder order ∈ actions) :
    ∃ features, 0 < features.volatility ∧ s'.activeFeatures = some features ∧
      s'.entryId = some order.clientOrderId ∧
      run.entryUnits (run.desiredUnits q.balance features) = some order.quantity := by
  unfold onQuoteTick at h
  dsimp only at h
  split at h
  · cases h
    cases horder
  split at h
  · cases h
    simp at horder
  split at h
  · cases h
    cases horder
  split at h
  · split at h
    · rename_i previous _ _ _
      cases hmanaged : run.managePosition _ q _ _ with
      | error e =>
        rw [hmanaged] at h
        cases h
      | ok managed =>
        rw [hmanaged] at h
        cases h
        exact absurd horder (managePosition_quiet hmanaged order)
    · split at h
      · rename_i hdue
        unfold entryDue at hdue
        simp only [Bool.and_eq_true, decide_eq_true_eq] at hdue
        exact ⟨_, hdue.1.1.2, submitEntry_order (Except.ok.inj h) horder⟩
      · cases h
        cases horder
  · cases h

/-- **Entries are sized, and their targets reach the minimum exactly if the minima, each rounded up to
whole steps, fit into the entry.** -/
theorem native_orders_iff {s s' : NativeState} {q : QuoteEvent} {actions : List ReplayAction}
    {order : ReplayOrder} (h : run.onQuoteTick s q = .ok (s', actions))
    (horder : .submitOrder order ∈ actions) :
    ∃ features, s'.activeFeatures = some features ∧ s'.entryId = some order.clientOrderId ∧
      order.quantity = run.entrySteps (run.desiredUnits q.balance features) * run.terms.sizeStep ∧
      RiskSizedEntry run.terms q.balance run.spec.riskPerTrade (run.stopDistance features) order.quantity ∧
      ∀ t t' f later, t.entryId = some order.clientOrderId → f.clientOrderId = order.clientOrderId →
        f.lastQty = order.quantity → run.onOrderFilled t f = .ok (t', later) →
          (SizedTargets run.terms f.lastQty (limitOrders later) ↔
            run.targetCount * ⌈run.terms.minSize / run.terms.sizeStep⌉ ≤
              run.entrySteps (run.desiredUnits q.balance features)) := by
  obtain ⟨features, hvolatility, hactive, hentryId, hunits⟩ := submitted_entry h horder
  obtain ⟨hsteps, hleast⟩ := entryUnits_eq hunits
  refine ⟨features, hactive, hentryId, hsteps, entryUnits_sized hvolatility hunits, ?_⟩
  intro t t' f later hentry hid hquantity hfilled
  rw [← hid] at hentry
  have hsizes := filled_targets hentry hfilled
  have hcount : 0 < run.targetCount := run.targetCount_pos
  have hquantities : f.lastQty =
      run.entrySteps (run.desiredUnits q.balance features) * run.terms.sizeStep :=
    hquantity.trans hsteps
  have hmem (P : ℚ → Prop) : (∀ order ∈ limitOrders later, P order.quantity) ↔
      ∀ size ∈ run.targetSizes f.lastQty run.targetCount, P size := by
    rw [← hsizes]
    exact List.forall_mem_map.symm
  rw [← run.targetSizes_minimum hcount, ← hquantities]
  constructor
  · intro hsized
    exact (hmem _).1 hsized.minimum
  · intro hminimum
    refine ⟨?_, (hmem _).2 fun size hsize => ?_, (hmem _).2 hminimum⟩
    · rw [hsizes, targetSizes_sum _ hcount]
    · rw [hquantities] at hsize
      refine targetSizes_steps hcount ?_ hsize
      have hle : (run.targetCount : ℚ) * run.terms.sizeStep ≤
          run.entrySteps (run.desiredUnits q.balance features) * run.terms.sizeStep := by
        rw [← hsteps, mul_comm]
        exact (le_max_right _ _).trans hleast
      exact_mod_cast le_of_mul_le_mul_right hle run.terms.step_pos

end NativeRun

/-! ## A minimum of one and a half steps -/

theorem one_half_pos : (0 : ℚ) < 3 / 2 := by norm_num

/-- The two targets, as multiples of the risk. -/
def twoMultiples : List ℚ := [1, 2]

theorem twoMultiples_pos : ∀ value ∈ twoMultiples, 0 < value := by
  intro value hvalue
  cases hvalue with
  | head => exact unit_pos
  | tail _ h => rw [List.mem_singleton.1 h]; exact two_pos

theorem twoMultiples_increasing : twoMultiples.Pairwise (· < ·) :=
  List.pairwise_pair.2 one_lt_two

def twoTargets : TradeRules where
  direction := .long
  stopVolatilityMultiple := 1
  takeProfitRMultiples := twoMultiples
  stop_pos := unit_pos
  stop_le := unit_le_ten
  targets_nonempty := List.cons_ne_nil 1 [2]
  targets_length := Nat.le_add_left 2 3
  targets_pos := twoMultiples_pos
  targets_increasing := twoMultiples_increasing

def unitSteps (minSize : ℚ) (h : 0 < minSize) : ReplayTerms where
  tick := 1
  sizeStep := 1
  minSize
  maximum := none
  tick_pos := unit_pos
  step_pos := unit_pos
  min_pos := h

/-- Buys at every bar with two targets. -/
def twoTargetRun (minSize : ℚ) (h : 0 < minSize) : NativeRun where
  zones := utcOnly
  spec := { rangeStrategy with entry := [⟨"close", .gt, .number 0⟩], entry_nonempty := by simp }
  rules := twoTargets
  terms := unitSteps minSize h
  candles := risingBars
  series := risingBars.zipIdx.map fun (candle, k) => candleFeatures risingBars candle k 20
  calendar := none
  timeframeSeconds := 900
  cutoff := 0

/-- The tick of the third bar, with an account for three units. -/
def thirdBarTick : QuoteEvent where
  tsEvent := 1800000000000
  balance := 600
  unrealized := none
  netLong := false
  netShort := false
  stopTrigger := 0

def threeUnits : ReplayOrder := ⟨0, .market, .buy, 3, false⟩

def fullFill : FillEvent where
  tsEvent := 1800000000000
  clientOrderId := 0
  lastPx := 100
  lastQty := 3
  commission := 0
  stopClosed := false
  openQuantity := some 3

/-- The orders of the tick, and the sizes of the targets once its entry has been filled. -/
def tickAndFill (run : NativeRun) : Option (List ReplayAction × List ℚ) :=
  (run.onQuoteTick { equityPeak := 600 } thirdBarTick).toOption.bind fun (s, actions) =>
    (run.onOrderFilled s fullFill).toOption.map fun (_, later) =>
      (actions, (limitOrders later).map ReplayOrder.quantity)

theorem tickAndFill_some {run : NativeRun} {actions : List ReplayAction} {sizes : List ℚ}
    (h : tickAndFill run = some (actions, sizes)) :
    ∃ s t later, run.onQuoteTick { equityPeak := 600 } thirdBarTick = .ok (s, actions) ∧
      run.onOrderFilled s fullFill = .ok (t, later) ∧
      (limitOrders later).map ReplayOrder.quantity = sizes := by
  obtain ⟨⟨s, actions'⟩, hs, hfill⟩ := Option.bind_eq_some_iff.1 h
  obtain ⟨⟨t, later⟩, ht, heq⟩ := Option.map_eq_some_iff.1 hfill
  cases heq
  exact ⟨s, t, later, toOption_eq_some.1 hs, toOption_eq_some.1 ht, rfl⟩

/-- **Three units are enough for two minima of one and a half, but not for two targets in whole
units.** -/
theorem target_below_minimum : ∃ s t actions later,
    (twoTargetRun (3 / 2) one_half_pos).onQuoteTick { equityPeak := 600 } thirdBarTick =
      .ok (s, actions) ∧ .submitOrder threeUnits ∈ actions ∧
    (twoTargetRun (3 / 2) one_half_pos).onOrderFilled s fullFill = .ok (t, later) ∧
      ¬SizedTargets (unitSteps (3 / 2) one_half_pos) 3 (limitOrders later) := by
  have hrun : tickAndFill (twoTargetRun (3 / 2) one_half_pos) =
      some ([.submitOrder threeUnits], [1, 2]) := by decide +kernel
  obtain ⟨s, t, later, hs, ht, hsizes⟩ := tickAndFill_some hrun
  refine ⟨s, t, _, later, hs, List.mem_singleton_self _, ht, fun hsized => ?_⟩
  have hone : (1 : ℚ) ∈ (limitOrders later).map ReplayOrder.quantity := by
    rw [hsizes]
    exact List.mem_cons_self
  obtain ⟨order, horder, hquantity⟩ := List.mem_map.1 hone
  have hminimum := hsized.minimum order horder
  rw [hquantity] at hminimum
  norm_num [unitSteps] at hminimum

/-- With a minimum of one unit the targets are as they should be. -/
theorem native_orders_iff_unit : ∃ s t actions later,
    (twoTargetRun 1 unit_pos).onQuoteTick { equityPeak := 600 } thirdBarTick = .ok (s, actions) ∧
    (twoTargetRun 1 unit_pos).onOrderFilled s fullFill = .ok (t, later) ∧
      SizedTargets (unitSteps 1 unit_pos) 3 (limitOrders later) := by
  have hrun : tickAndFill (twoTargetRun 1 unit_pos) = some ([.submitOrder threeUnits], [1, 2]) := by
    decide +kernel
  obtain ⟨s, t, later, hs, ht, -⟩ := tickAndFill_some hrun
  obtain ⟨features, -, hentry, hquantity, -, hfilled⟩ :=
    NativeRun.native_orders_iff hs (List.mem_singleton_self _)
  refine ⟨s, t, _, later, hs, ht, (hfilled s t fullFill later hentry rfl rfl ht).2 ?_⟩
  have hsteps : (3 : ℚ) = (twoTargetRun 1 unit_pos).entrySteps
      ((twoTargetRun 1 unit_pos).desiredUnits thirdBarTick.balance features) := by
    rw [← mul_one (Int.cast _)]
    exact hquantity
  have hthree : (twoTargetRun 1 unit_pos).entrySteps
      ((twoTargetRun 1 unit_pos).desiredUnits thirdBarTick.balance features) = 3 := by
    exact_mod_cast hsteps.symm
  rw [hthree]
  decide +kernel

end Matrades

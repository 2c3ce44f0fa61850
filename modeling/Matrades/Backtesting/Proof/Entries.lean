import Matrades.Backtesting.Proof.Resume

/-!
# Which bars a simulation entered

`Simulation.entered`: the opening times of the closed trades and of the open one, in order. A bar adds
its own time exactly if the simulation is flat and a trade opens there (`stepBar_entered`).
-/

namespace Matrades

open Base

/-- The times trades were entered at. -/
def Simulation.entered (s : Simulation) : List AwareTime :=
  s.attribution.map TradeFill.enteredAt ++ (s.trade.map OpenTrade.enteredAt).toList

section
variable {zones : ZoneInfo} {spec : StrategySpecification} {rules : TradeRules}
  {configuration : BacktestConfiguration} {replay : Replay}

/-! ## Managing a trade does not change where it was entered -/

theorem applyFills_enteredAt (time : AwareTime) (fills : List Fill) (t : OpenTrade) :
    (fills.foldl (applyFill rules configuration time) t).enteredAt = t.enteredAt := by
  induction fills generalizing t with
  | nil => rfl
  | cons fill fills ih =>
    rw [List.foldl_cons, ih]
    rfl

theorem manageBar_enteredAt (closing : Bool) (bar : Bar) (t : OpenTrade) :
    (manageBar spec rules configuration replay closing bar t).enteredAt = t.enteredAt := by
  have hfill : (fillBar spec rules configuration replay closing bar t).enteredAt = t.enteredAt :=
    applyFills_enteredAt bar.1.observedAt _ _
  unfold manageBar
  dsimp only
  split
  · exact hfill
  · exact hfill

theorem settle_entered (s : Simulation) (t : OpenTrade) :
    (s.settle rules configuration t).entered =
      s.attribution.map TradeFill.enteredAt ++ [t.enteredAt] := by
  unfold Simulation.settle Simulation.entered
  split
  · rfl
  · simp [OpenTrade.fill]

theorem enterAt_enteredAt {bar : Bar} {t : OpenTrade}
    (h : enterAt zones spec rules configuration replay bar = some t) :
    t.enteredAt = bar.1.observedAt := by
  unfold enterAt at h
  dsimp only at h
  split at h
  · split at h
    · cases h
    · cases h
      rfl
  · cases h

/-- **A bar is entered exactly if no trade is open and one opens there.** -/
theorem stepBar_entered (closing : Bool) (s : Simulation) (bar : Bar) :
    (stepBar zones spec rules configuration replay closing s bar).entered =
      s.entered ++
        if s.trade = none ∧ (enterAt zones spec rules configuration replay bar).isSome then
          [bar.1.observedAt]
        else [] := by
  unfold stepBar
  cases htrade : s.trade with
  | some t =>
    rw [if_neg (by simp), List.append_nil]
    change (s.settle rules configuration (manageBar spec rules configuration replay closing bar
      t)).entered = _
    rw [settle_entered, manageBar_enteredAt]
    unfold Simulation.entered
    rw [htrade]
    rfl
  | none =>
    cases henter : enterAt zones spec rules configuration replay bar with
    | none =>
      rw [if_neg (by simp), List.append_nil]
      rfl
    | some t =>
      rw [if_pos ⟨rfl, rfl⟩]
      change (s.settle rules configuration (manageBar spec rules configuration replay closing bar
        t)).entered = _
      rw [settle_entered, manageBar_enteredAt, enterAt_enteredAt henter]
      unfold Simulation.entered
      rw [htrade]
      simp

/-- Bars that may not be entered are not. -/
theorem simulateBars_quiet_entered {bars : List Bar} {s : Simulation}
    (h : ∀ bar ∈ bars, entryAllowed zones spec replay bar.1.observedAt = false) :
    (simulateBars zones spec rules configuration replay s bars).entered = s.entered := by
  induction bars generalizing s with
  | nil => rfl
  | cons bar bars ih =>
    have hnone : enterAt zones spec rules configuration replay bar = none := by
      unfold enterAt
      simp [h bar List.mem_cons_self]
    rw [simulateBars, ih fun b hb => h b (List.mem_cons_of_mem bar hb), stepBar_entered, hnone]
    simp

/-- Every closed trade has its record. -/
theorem simulateBars_length {bars : List Bar} {s : Simulation}
    (h : s.trades.length = s.attribution.length) :
    (simulateBars zones spec rules configuration replay s bars).trades.length =
      (simulateBars zones spec rules configuration replay s bars).attribution.length := by
  induction bars generalizing s with
  | nil => exact h
  | cons bar bars ih =>
    rw [simulateBars]
    apply ih
    unfold stepBar
    split
    · exact h
    · unfold Simulation.settle
      split
      · exact h
      · simp [h]

/-- Every record carries the direction of the rules. -/
theorem simulateBars_direction {bars : List Bar} {s : Simulation}
    (h : ∀ fill ∈ s.attribution, fill.direction = rules.direction) :
    ∀ fill ∈ (simulateBars zones spec rules configuration replay s bars).attribution,
      fill.direction = rules.direction := by
  induction bars generalizing s with
  | nil => exact h
  | cons bar bars ih =>
    rw [simulateBars]
    apply ih
    unfold stepBar
    split
    · exact h
    · unfold Simulation.settle
      split
      · exact h
      · intro fill hfill
        rcases List.mem_append.1 hfill with hfill | hfill
        · exact h fill hfill
        · rw [List.mem_singleton.1 hfill]
          rfl

/-! ## An admitted bar -/

/-- Where the entry is allowed and matches, a trade opens unless the levels are rejected. -/
theorem enterAt_admitted {bar : Bar}
    (hallowed : entryAllowed zones spec replay bar.1.observedAt = true)
    (hmatch : entryMatches spec (bar.2.withNews (barNews spec replay bar.1.observedAt)) = true) :
    (enterAt zones spec rules configuration replay bar).isSome ∨
      ∃ reason, protectionLevels rules
        (bar.1.openPrice + rules.direction.sign * configuration.slippage) bar.2.volatility
        configuration.tickSize = .error reason := by
  unfold enterAt
  dsimp only
  rw [hallowed, hmatch]
  cases hlevels : protectionLevels rules
      (bar.1.openPrice + rules.direction.sign * configuration.slippage) bar.2.volatility
      configuration.tickSize with
  | error reason => exact .inr ⟨reason, rfl⟩
  | ok levels =>
    left
    have hlevels' : protectionLevels rules
        (bar.1.openPrice + rules.direction.sign * configuration.slippage)
        (bar.2.withNews (barNews spec replay bar.1.observedAt)).volatility
        configuration.tickSize = .ok levels := hlevels
    simp only [hlevels', Bool.and_true, if_true]
    rfl

end

end Matrades

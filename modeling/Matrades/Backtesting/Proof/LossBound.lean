import Matrades.Backtesting.Proof.Conserved
import Matrades.Base.Run

/-!
# The stop and what a trade can lose

The stop of an open trade never goes back (`StopRatchets`), so everything a bar fills short of a gap is
filled at the first stop or beyond it (`barFills_price`). A closed trade without a gap therefore loses
at most its first distance to the stop, one slippage and its costs (`losses_bounded`).
-/

namespace Matrades

open Base

/-- A candle whose opening and closing prices lie between its low and its high. -/
structure BacktestCandle.Valid (c : BacktestCandle) : Prop where
  openPrice : c.low ≤ c.openPrice ∧ c.openPrice ≤ c.high
  close : c.low ≤ c.close ∧ c.close ≤ c.high

/-! ## The run over the bars -/

section
variable (zones : ZoneInfo) (spec : StrategySpecification) (rules : TradeRules)
  (configuration : BacktestConfiguration) (replay : Replay)

/-- One bar, with the flag that it closes what is open. -/
def barStep (s : Simulation) (bar : Bool × Bar) : Simulation :=
  stepBar zones spec rules configuration replay bar.1 s bar.2

/-- The bars with their flags. -/
def closings : List Bar → List (Bool × Bar)
  | [] => []
  | bar :: bars => (replay.closeAtEnd && bars.isEmpty, bar) :: closings bars

theorem simulateBars_run (s : Simulation) (bars : List Bar) :
    simulateBars zones spec rules configuration replay s bars =
      run (barStep zones spec rules configuration replay) s (closings replay bars) := by
  induction bars generalizing s with
  | nil => rfl
  | cons bar bars ih => exact ih _

end

/-! ## The stop -/

/-- The stop of a trade behind its first bar is not behind the one it was entered with; a trade that stays
open over a bar keeps its entry, and its stop does not go back. -/
def StopRatchets (rules : TradeRules) (s s' : Simulation) : Prop :=
  ∀ t' ∈ s'.trade,
    (s.trade = none → rules.direction.sign * t'.originalStop ≤ rules.direction.sign * t'.stop) ∧
    ∀ t ∈ s.trade, t'.enteredAt = t.enteredAt ∧ t'.entry = t.entry ∧
      t'.originalStop = t.originalStop ∧
      rules.direction.sign * t.stop ≤ rules.direction.sign * t'.stop

section
variable {zones : ZoneInfo} {spec : StrategySpecification} {rules : TradeRules}
  {configuration : BacktestConfiguration} {replay : Replay}

variable (spec rules configuration replay) in
/-- What a bar leaves of a trade. -/
theorem manageBar_frame (closing : Bool) (bar : Bar) (t : OpenTrade) :
    let t' := manageBar spec rules configuration replay closing bar t
    t'.enteredAt = t.enteredAt ∧ t'.entry = t.entry ∧ t'.originalStop = t.originalStop ∧
      t'.risk = t.risk ∧ t'.targets = t.targets ∧
      rules.direction.sign * t.stop ≤ rules.direction.sign * t'.stop := by
  obtain ⟨stop, hle, heq⟩ := manageBar_eq spec rules configuration replay closing bar t
  rw [heq, fillBar_eq, applyFills_eq]
  exact ⟨rfl, rfl, rfl, rfl, rfl, hle⟩

/-- **Over every bar the stop of a trade only moves with the trade.** -/
theorem stepBar_ratchets (s : Simulation) (bar : Bool × Bar) :
    StopRatchets rules s (barStep zones spec rules configuration replay s bar) := by
  intro t' ht'
  unfold barStep stepBar at ht'
  split at ht'
  · rename_i hnone
    cases hopen : s.trade with
    | none =>
      rw [hopen] at ht'
      cases ht'
    | some t =>
      rw [hopen] at hnone
      cases hnone
  · rename_i t₀ htaken
    unfold Simulation.settle at ht'
    split at ht'
    · cases ht'
      obtain ⟨hentered, hentry, horiginal, _, _, hle⟩ :=
        manageBar_frame spec rules configuration replay bar.1 bar.2 t₀
      refine ⟨fun hopen => ?_, fun t ht => ?_⟩
      · rw [hopen] at htaken
        have hstop := (enterAt_spec htaken).stop
        rw [horiginal, ← hstop]
        exact hle
      · rw [Option.mem_def.1 ht] at htaken
        cases htaken
        exact ⟨hentered, hentry, horiginal, hle⟩
    · cases ht'

/-! ## Prices of fills -/

/-- An open trade whose stop has not gone back behind its first one, with the exits so far: each at a gap,
or no worse than the first stop and a slippage. -/
structure Protected (rules : TradeRules) (configuration : BacktestConfiguration) (t : OpenTrade) :
    Prop where
  balanced : Balanced rules t
  stop_held : rules.direction.sign * t.originalStop ≤ rules.direction.sign * t.stop
  stop_side : rules.direction.sign * t.originalStop < rules.direction.sign * t.entry
  target_side : ∀ target ∈ t.targets, rules.direction.sign * t.entry < rules.direction.sign * target
  exits_bounded : ∀ e ∈ t.exits, e.reason ≠ .stopGap →
    rules.direction.sign * (t.originalStop - t.entry) - configuration.slippage ≤
      rules.direction.sign * (e.price - t.entry)

theorem EnteredBy.guarded {bar : Bar} {t : OpenTrade} (h : EnteredBy rules configuration bar t) :
    Protected rules configuration t where
  balanced := h.balanced
  stop_held := by rw [h.stop]
  stop_side := by
    have hside := h.levels.stop_side
    rw [mul_sub] at hside
    linarith
  target_side target hmem := by
    have hside := h.levels.target_side hmem
    rw [mul_sub] at hside
    linarith
  exits_bounded e he := by
    rw [h.untouched.2.2.1] at he
    cases he

variable (rules) in
theorem takeTargets_price (candle : BacktestCandle) (fraction : ℚ) (targets : List ℚ) (index : ℕ)
    (available : ℚ) :
    ∀ fill ∈ (takeTargets rules candle fraction targets index available).1, fill.price ∈ targets := by
  induction targets generalizing index available with
  | nil => exact fun fill h => by cases h
  | cons target rest ih =>
    intro fill hfill
    rw [takeTargets] at hfill
    split at hfill
    · rcases List.mem_cons.1 hfill with rfl | hfill
      · exact List.mem_cons_self
      · exact List.mem_cons_of_mem _ (ih _ _ fill hfill)
    · cases hfill

/-- A bar that does not reach the stop closes on its profit side. -/
theorem close_side {candle : BacktestCandle} (hvalid : candle.Valid) {stop : ℚ}
    (h : stopHit rules candle stop = false) :
    rules.direction.sign * stop ≤ rules.direction.sign * candle.close := by
  obtain ⟨hlow, hhigh⟩ := hvalid.close
  unfold stopHit at h
  cases hdirection : rules.direction with
  | long =>
    rw [hdirection] at h
    have hlt : stop < candle.low := by simpa using h
    simp only [TradeDirection.sign, one_mul]
    linarith
  | short =>
    rw [hdirection] at h
    have hlt : candle.high < stop := by simpa using h
    simp only [TradeDirection.sign]
    linarith

/-- **Short of a gap, a bar fills at the first stop or beyond it.** -/
theorem barFills_price {closing : Bool} {candle : BacktestCandle} (hvalid : candle.Valid)
    {previous : FeaturePoint} {t : OpenTrade} (h : Protected rules configuration t) :
    ∀ fill ∈ (barFills spec rules closing candle previous t).1, fill.reason ≠ .stopGap →
      rules.direction.sign * t.originalStop ≤ rules.direction.sign * fill.price := by
  intro fill hfill hreason
  unfold barFills at hfill
  split at hfill
  · rw [List.mem_singleton.1 hfill] at hreason
    exact absurd rfl hreason
  · rename_i hgap
    have hopen : rules.direction.sign * t.stop < rules.direction.sign * candle.openPrice := by
      rw [not_le, sub_mul, sub_pos] at hgap
      linarith
    split at hfill
    · rw [List.mem_singleton.1 hfill]
      exact h.stop_held.trans hopen.le
    · split at hfill
      · rw [List.mem_singleton.1 hfill]
        exact h.stop_held
      · rename_i hstop
        dsimp only at hfill
        rcases List.mem_append.1 hfill with hfill | hfill
        · have hprice := takeTargets_price rules candle _ _ _ _ fill hfill
          exact (h.stop_side.trans (h.target_side _ (List.mem_of_mem_drop hprice))).le
        · split at hfill
          · rw [List.mem_singleton.1 hfill]
            exact h.stop_held.trans (close_side hvalid (Bool.not_eq_true _ ▸ hstop))
          · cases hfill

variable (spec replay) in
/-- The exits behind a bar. -/
theorem manageBar_exits (closing : Bool) {bar : Bar} (hvalid : bar.1.Valid) {t : OpenTrade}
    (h : Protected rules configuration t) :
    ∀ e ∈ (manageBar spec rules configuration replay closing bar t).exits, e.reason ≠ .stopGap →
      rules.direction.sign * (t.originalStop - t.entry) - configuration.slippage ≤
        rules.direction.sign * (e.price - t.entry) := by
  obtain ⟨stop, _, heq⟩ := manageBar_eq spec rules configuration replay closing bar t
  rw [heq, fillBar_eq, applyFills_eq]
  intro e he hreason
  rcases List.mem_append.1 he with he | he
  · exact h.exits_bounded e he hreason
  · obtain ⟨fill, hfill, rfl⟩ := List.mem_map.1 he
    have hprice := barFills_price hvalid h fill hfill hreason
    have hsign := rules.direction.sign_mul_sign
    have hslip : rules.direction.sign * (exitOf rules configuration bar.1.observedAt fill).price =
        rules.direction.sign * fill.price - configuration.slippage := by
      show rules.direction.sign * (fill.price - rules.direction.sign * configuration.slippage) = _
      rw [mul_sub, ← mul_assoc, hsign, one_mul]
    rw [mul_sub, mul_sub, hslip]
    linarith

/-! ## The bound -/

/-- Unless it was left at a gap, a trade loses at most the first distance to its stop, a slippage and the
costs. -/
def StopBounded (configuration : BacktestConfiguration) (fill : TradeFill) : Prop :=
  (∀ e ∈ fill.exits, e.reason ≠ .stopGap) →
    -(|fill.entry - fill.stopLoss| + configuration.slippage + configuration.spread +
      configuration.commission) ≤ fill.pnl

/-- Exits with the sum one, each of which loses at most `bound`, lose at most `bound`. -/
theorem earned_bounded {exits : List ExitRecord} {sign entry : ℚ} (bound : ℚ)
    (hpos : ∀ e ∈ exits, 0 < e.fraction)
    (hbound : ∀ e ∈ exits, -bound ≤ sign * (e.price - entry)) :
    -bound * (exits.map ExitRecord.fraction).sum ≤ (exits.map fun e => e.earned sign entry).sum := by
  induction exits with
  | nil => simp
  | cons e es ih =>
    have hrest := ih (fun e he => hpos e (List.mem_cons_of_mem _ he))
      (fun e he => hbound e (List.mem_cons_of_mem _ he))
    have hone : -bound * e.fraction ≤ e.earned sign entry :=
      mul_le_mul_of_nonneg_right (hbound e List.mem_cons_self) (hpos e List.mem_cons_self).le
    rw [List.map_cons, List.sum_cons, List.map_cons, List.sum_cons, mul_add]
    exact add_le_add hone hrest

/-- A record none of whose exits loses more than `bound` loses at most that and the costs. -/
theorem Conserved.bounded {fill : TradeFill} (h : Conserved configuration fill) {bound : ℚ}
    (hbound : ∀ e ∈ fill.exits, -bound ≤ fill.direction.sign * (e.price - fill.entry)) :
    -(bound + configuration.spread + configuration.commission) ≤ fill.pnl := by
  have hearned := earned_bounded bound h.fractions_pos hbound
  rw [h.fractions_sum] at hearned
  rw [h.pnl_eq]
  linarith

theorem protected_life :
    LifeRule zones spec rules configuration replay (fun bar => bar.1.Valid)
      (Protected rules configuration) (StopBounded configuration) where
  enter bar t _ h := (enterAt_spec h).guarded
  manage closing bar t hbar h hopen := by
    have hbalanced := (conserved_life zones spec rules configuration replay).manage closing bar t
      trivial h.balanced hopen
    obtain ⟨_, hentry, horiginal, _, htargets, hstop⟩ :=
      manageBar_frame spec rules configuration replay closing bar t
    have hexits := manageBar_exits spec replay closing hbar h
    refine ⟨hbalanced, ?_, ?_, ?_, ?_⟩
    · rw [horiginal]
      exact h.stop_held.trans hstop
    · rw [horiginal, hentry]
      exact h.stop_side
    · rw [htargets, hentry]
      exact h.target_side
    · rw [horiginal, hentry]
      exact hexits
  close closing bar t hbar h hclosed := by
    intro hnogap
    have hconserved := (conserved_life zones spec rules configuration replay).close closing bar t
      trivial h.balanced hclosed
    have hexits := manageBar_exits spec replay closing hbar h
    obtain ⟨_, hentry, horiginal, _⟩ := manageBar_frame spec rules configuration replay closing bar t
    have hdistance : |t.entry - t.originalStop| =
        rules.direction.sign * (t.entry - t.originalStop) := by
      refine rules.direction.abs_eq_sign_mul ?_
      have hside := h.stop_side
      rw [mul_sub]
      linarith
    refine hconserved.bounded fun e he => ?_
    have hbound := hexits e he (hnogap e he)
    show -(|(manageBar spec rules configuration replay closing bar t).entry -
      (manageBar spec rules configuration replay closing bar t).originalStop| +
      configuration.slippage) ≤
      rules.direction.sign * (e.price - (manageBar spec rules configuration replay closing bar t).entry)
    rw [hentry, horiginal, hdistance]
    rw [mul_sub] at hbound ⊢
    linarith

end

end Matrades

import Matrades.Backtesting.Proof.Resume

/-!
# The life of a simulated trade

A trade is entered, managed at every bar while a part of it is left, and recorded when nothing is left
(`LifeRule`): what holds at the entry and is kept by a bar holds of the open trade, and what a closing
bar makes of it holds of every record. The bar itself is summed up by its fills (`fillBar_eq`) and by a
stop that does not go back (`manageBar_eq`).
-/

namespace Matrades

open Base

section
variable {zones : ZoneInfo} {spec : StrategySpecification} {rules : TradeRules}
  {configuration : BacktestConfiguration} {replay : Replay}

/-! ## Runs over bars -/

/-- **What every bar keeps holds behind the bars**; `seen` are the bars so far. -/
theorem simulateBars_inv {P : List Bar → Simulation → Prop} {Q : Bar → Prop}
    (keep : ∀ seen s bar closing, Q bar → P seen s →
      P (seen ++ [bar]) (stepBar zones spec rules configuration replay closing s bar))
    {bars : List Bar} (hbars : ∀ bar ∈ bars, Q bar) {seen : List Bar} {s : Simulation}
    (h : P seen s) : P (seen ++ bars) (simulateBars zones spec rules configuration replay s bars) := by
  induction bars generalizing seen s with
  | nil =>
    rw [List.append_nil]
    exact h
  | cons bar bars ih =>
    have hstep := keep seen s bar (replay.closeAtEnd && bars.isEmpty) (hbars bar List.mem_cons_self) h
    have hrest := ih (fun b hb => hbars b (List.mem_cons_of_mem bar hb)) hstep
    rw [List.append_assoc, List.singleton_append] at hrest
    exact hrest

variable (zones spec rules configuration replay) in
/-- `T` holds of an open trade, `F` of the record of a closed one, at bars with `Q`. -/
structure LifeRule (Q : Bar → Prop) (T : OpenTrade → Prop) (F : TradeFill → Prop) : Prop where
  enter : ∀ bar t, Q bar → enterAt zones spec rules configuration replay bar = some t → T t
  manage : ∀ closing bar t, Q bar → T t →
    0 < (manageBar spec rules configuration replay closing bar t).remaining →
    T (manageBar spec rules configuration replay closing bar t)
  close : ∀ closing bar t, Q bar → T t →
    ¬0 < (manageBar spec rules configuration replay closing bar t).remaining →
    F ((manageBar spec rules configuration replay closing bar t).fill rules configuration)

/-- The open trade and the records of a simulation. -/
structure Living (T : OpenTrade → Prop) (F : TradeFill → Prop) (s : Simulation) : Prop where
  trade : ∀ t ∈ s.trade, T t
  attribution : ∀ fill ∈ s.attribution, F fill

theorem Living.start {T : OpenTrade → Prop} {F : TradeFill → Prop} : Living T F {} where
  trade _ h := by cases h
  attribution _ h := by cases h

section
variable {Q : Bar → Prop} {T : OpenTrade → Prop} {F : TradeFill → Prop}
  (hrule : LifeRule zones spec rules configuration replay Q T F)
include hrule

/-- The trade of a bar: the open one, or one that is entered. -/
theorem LifeRule.taken {s : Simulation} (h : Living T F s) {bar : Bar} (hbar : Q bar) {t : OpenTrade}
    (ht : (s.trade.orElse fun _ => enterAt zones spec rules configuration replay bar) = some t) :
    T t := by
  cases hopen : s.trade with
  | some t' =>
    rw [hopen] at ht
    cases ht
    exact h.trade _ hopen
  | none =>
    rw [hopen] at ht
    exact hrule.enter bar t hbar ht

theorem LifeRule.step {s : Simulation} (h : Living T F s) (closing : Bool) {bar : Bar} (hbar : Q bar) :
    Living T F (stepBar zones spec rules configuration replay closing s bar) := by
  unfold stepBar
  split
  · exact h
  · rename_i t ht
    have hT := hrule.taken h hbar ht
    unfold Simulation.settle
    split
    · rename_i hopen
      refine ⟨fun t' ht' => ?_, h.attribution⟩
      cases ht'
      exact hrule.manage closing bar t hbar hT hopen
    · rename_i hclosed
      refine ⟨fun t' ht' => (by cases ht'), fun fill hfill => ?_⟩
      rcases List.mem_append.1 hfill with hfill | hfill
      · exact h.attribution fill hfill
      · rw [List.mem_singleton.1 hfill]
        exact hrule.close closing bar t hbar hT hclosed

/-- **Every simulation lives by the rule.** -/
theorem LifeRule.run {bars : List Bar} (hbars : ∀ bar ∈ bars, Q bar) {s : Simulation}
    (h : Living T F s) : Living T F (simulateBars zones spec rules configuration replay s bars) :=
  @simulateBars_inv zones spec rules configuration replay (fun _ s => Living T F s) Q
    (fun _ _ _ closing hbar h => hrule.step h closing hbar) bars hbars [] s h

end

/-! ## The fills of a bar -/

variable (rules configuration) in
/-- The exit a fill is recorded as. -/
def exitOf (time : AwareTime) (fill : Fill) : ExitRecord where
  price := fill.price - rules.direction.sign * configuration.slippage
  fraction := fill.size
  reason := fill.reason
  observedAt := time

/-- What an exit earns. -/
def ExitRecord.earned (e : ExitRecord) (sign entry : ℚ) : ℚ := sign * (e.price - entry) * e.fraction

/-- Fills change the remaining part, the profit and the exits. -/
theorem applyFills_eq (time : AwareTime) (fills : List Fill) (t : OpenTrade) :
    fills.foldl (applyFill rules configuration time) t =
      { t with
        pnl := t.pnl + ((fills.map (exitOf rules configuration time)).map fun e =>
          e.earned rules.direction.sign t.entry).sum
        remaining := t.remaining - sizes fills
        exits := t.exits ++ fills.map (exitOf rules configuration time) } := by
  induction fills generalizing t with
  | nil => simp [sizes]
  | cons fill fills ih =>
    rw [List.foldl_cons, ih]
    simp only [applyFill, sizes, exitOf, ExitRecord.earned, List.map_cons, List.sum_cons,
      List.append_assoc, List.cons_append, List.nil_append]
    congr 1
    · ring
    · ring

variable (spec rules replay) in
/-- The fills of a bar and the next target behind it. -/
def fillsAt (closing : Bool) (bar : Bar) (t : OpenTrade) : List Fill × ℕ :=
  barFills spec rules closing bar.1 (bar.2.withNews (barNews spec replay bar.1.observedAt)) t

theorem fillBar_eq (closing : Bool) (bar : Bar) (t : OpenTrade) :
    fillBar spec rules configuration replay closing bar t =
      (fillsAt spec rules replay closing bar t).1.foldl
        (applyFill rules configuration bar.1.observedAt)
        (excursions rules bar.1 t (fillsAt spec rules replay closing bar t).2) := rfl

/-! ## The stop -/

theorem sign_le_tighter (stop level : ℚ) :
    rules.direction.sign * stop ≤ rules.direction.sign * tighter rules stop level := by
  unfold tighter
  cases rules.direction with
  | long => simp [TradeDirection.sign]
  | short => simp [TradeDirection.sign]

variable (spec rules) in
/-- The ratchet moves nothing but the stop, and that with the trade. -/
theorem ratchet_eq (candle : BacktestCandle) (t : OpenTrade) :
    ∃ stop, rules.direction.sign * t.stop ≤ rules.direction.sign * stop ∧
      ratchet spec rules candle t = { t with stop } := by
  refine ⟨(ratchet spec rules candle t).stop, ?_, rfl⟩
  unfold ratchet
  dsimp only
  split
  · refine le_trans ?_ (sign_le_tighter _ _)
    split
    · exact sign_le_tighter _ _
    · exact le_refl _
  · split
    · exact sign_le_tighter _ _
    · exact le_refl _

variable (spec rules configuration replay) in
/-- **A bar of an open trade**: its fills, and a stop that does not go back. -/
theorem manageBar_eq (closing : Bool) (bar : Bar) (t : OpenTrade) :
    ∃ stop, rules.direction.sign * t.stop ≤ rules.direction.sign * stop ∧
      manageBar spec rules configuration replay closing bar t =
        { fillBar spec rules configuration replay closing bar t with stop } := by
  have hstop : (fillBar spec rules configuration replay closing bar t).stop = t.stop := by
    rw [fillBar_eq, applyFills_eq]
    rfl
  unfold manageBar
  dsimp only
  split
  · obtain ⟨stop, hle, heq⟩ := ratchet_eq spec rules bar.1
      (fillBar spec rules configuration replay closing bar t)
    rw [hstop] at hle
    exact ⟨stop, hle, heq⟩
  · exact ⟨t.stop, le_refl _, by rw [← hstop]⟩

end

end Matrades

import Matrades.Backtesting.Proof.Causal
import Matrades.Strategies.Storage

/-!
# Strategies a simulation does not tell apart

Two specifications that ask for the same features and whose conditions hold at the same feature points
simulate the same trades (`simulate_alike`), if the switches that a simulation reads agree; the
break-even switch is not read while a trade with one target is open. A feature point carries no value
under a name that is not an indicator's (`Named`), which is what the conditions are compared on.
-/

namespace Matrades

open Base

/-! ## Named features -/

/-- A point has technical values under the names of indicators only. -/
def FeaturePoint.Named (f : FeaturePoint) : Prop :=
  ∀ name, name ∉ technicalNames → f.technical name = none

theorem FeaturePoint.Named.withNews {f : FeaturePoint} (h : f.Named) (state : NewsState) :
    (f.withNews state).Named := h

section
variable {library : TechnicalLibrary} {spec : StrategySpecification}

theorem technicalRow_named {candles : List BacktestCandle} {index : Nat} {name : String}
    (h : name ∉ technicalNames) :
    technicalRow library candles (requiredTechnicalFeatures spec) index name = none := by
  refine if_neg fun hmem => h ?_
  rw [List.contains_iff_mem] at hmem
  have hkept := (List.mem_filter.1 hmem).2
  rwa [List.contains_iff_mem] at hkept

theorem technicalFeatureSeries_named {candles : List BacktestCandle}
    {technical : Nat → String → Option Dec}
    (h : technicalFeatureSeries library candles (requiredTechnicalFeatures spec) = .ok technical)
    (index : Nat) {name : String} (hname : name ∉ technicalNames) : technical index name = none := by
  unfold technicalFeatureSeries at h
  split at h
  · cases h
    rfl
  · obtain ⟨_, -, h⟩ := ok_of_bind h
    cases h
    exact technicalRow_named hname

theorem seriesStep_named {technical : Nat → String → Option Dec} (candles : List BacktestCandle)
    (htechnical : ∀ index name, name ∉ technicalNames → technical index name = none)
    {acc : AtrState × List FeaturePoint} (hacc : ∀ f ∈ acc.2, f.Named)
    (entry : BacktestCandle × Nat) :
    ∀ f ∈ (seriesStep spec technical candles acc entry).2, f.Named := by
  intro f hf
  unfold seriesStep at hf
  cases hperiod : spec.parameters.atrPeriod with
  | none =>
    rw [hperiod] at hf
    rcases List.mem_append.1 hf with hf | hf
    · exact hacc f hf
    · rw [List.mem_singleton.1 hf]
      exact htechnical entry.2
  | some period =>
    rw [hperiod] at hf
    rcases List.mem_append.1 hf with hf | hf
    · exact hacc f hf
    · rw [List.mem_singleton.1 hf]
      exact htechnical entry.2

/-- **The points of a series are named.** -/
theorem strategyFeatureSeries_named {candles : List BacktestCandle} {series : List FeaturePoint}
    (h : strategyFeatureSeries library spec candles = .ok series) : ∀ f ∈ series, f.Named := by
  unfold strategyFeatureSeries at h
  obtain ⟨technical, htechnical, h⟩ := ok_of_bind h
  cases h
  have hnamed := technicalFeatureSeries_named htechnical
  have hfold : ∀ (entries : List (BacktestCandle × Nat)) (acc : AtrState × List FeaturePoint),
      (∀ f ∈ acc.2, f.Named) →
        ∀ f ∈ (entries.foldl (seriesStep spec technical candles) acc).2, f.Named := by
    intro entries
    induction entries with
    | nil => exact fun acc hacc => hacc
    | cons entry entries ih =>
      exact fun acc hacc => ih _ (seriesStep_named candles (fun index name => hnamed index) hacc entry)
  exact hfold candles.zipIdx ({}, []) fun f hf => by cases hf

end

theorem barsOf_named (candles : List BacktestCandle) {series : List FeaturePoint}
    (h : ∀ f ∈ series, f.Named) : ∀ bar ∈ barsOf candles series, bar.2.Named := by
  intro bar hbar
  exact h _ (List.mem_of_mem_drop (List.of_mem_zip hbar).2)

/-! ## Specifications -/

/-- Conditions that hold at the same points. -/
def SameConditions (conditions conditions' : List Condition) : Prop :=
  ∀ f : FeaturePoint, f.Named → conditionsMatch conditions f = conditionsMatch conditions' f

structure StrategySpecification.Alike (s t : StrategySpecification) : Prop where
  instrument : s.instrument = t.instrument
  regimes : s.regimes = t.regimes
  sessions : s.sessions = t.sessions
  eventRules : s.eventRules = t.eventRules
  parameters : s.parameters = t.parameters
  assetClass : s.assetClass = t.assetClass
  tradeRules : s.tradeRules = t.tradeRules
  required : requiredTechnicalFeatures s = requiredTechnicalFeatures t
  news : requiresNewsContext s = requiresNewsContext t
  entry : SameConditions s.entry t.entry
  confirmations : SameConditions s.confirmations t.confirmations
  confirmations_isEmpty : s.confirmations.isEmpty = t.confirmations.isEmpty
  filters : SameConditions s.filters t.filters
  filters_isEmpty : s.filters.isEmpty = t.filters.isEmpty
  exit : SameConditions s.exit t.exit
  invalidation : SameConditions s.invalidation t.invalidation

/-- Switches that agree, as far as trades with such rules read them. -/
structure PositionManagement.Agree (rules : TradeRules) (m m' : PositionManagement) : Prop where
  trailingStop : m.trailingStop = m'.trailingStop
  moveToBreakEven : m.moveToBreakEven = m'.moveToBreakEven ∨ rules.takeProfitRMultiples.length = 1

section
variable {s t : StrategySpecification} (h : s.Alike t)
include h

theorem StrategySpecification.Alike.series (library : TechnicalLibrary)
    (candles : List BacktestCandle) :
    strategyFeatureSeries library s candles = strategyFeatureSeries library t candles := by
  unfold strategyFeatureSeries
  rw [h.required]
  have hstep : seriesStep s = seriesStep t := by
    unfold seriesStep
    rw [h.parameters]
  rw [hstep]

theorem StrategySpecification.Alike.entryMatches {f : FeaturePoint} (hf : f.Named) :
    entryMatches s f = entryMatches t f := by
  unfold Matrades.entryMatches
  rw [h.news, h.regimes, h.entry f hf, h.confirmations f hf, h.confirmations_isEmpty, h.filters f hf,
    h.filters_isEmpty, h.invalidation f hf]

theorem StrategySpecification.Alike.entryContextReason (zones : ZoneInfo) (now : AwareTime)
    (calendar : Option (List CalendarEvent)) :
    entryContextReason zones s now calendar = entryContextReason zones t now calendar := by
  unfold Matrades.entryContextReason eventReason
  rw [h.instrument, h.sessions, h.eventRules, h.assetClass]

variable {zones : ZoneInfo} {rules : TradeRules} {configuration : BacktestConfiguration}
  {replay : Replay}

theorem StrategySpecification.Alike.barNews (time : AwareTime) :
    barNews s replay time = barNews t replay time := by
  unfold Matrades.barNews
  rw [h.instrument]

theorem StrategySpecification.Alike.enterAt {bar : Bar} (hbar : bar.2.Named) :
    enterAt zones s rules configuration replay bar = enterAt zones t rules configuration replay bar := by
  have hallowed : entryAllowed zones s replay bar.1.observedAt =
      entryAllowed zones t replay bar.1.observedAt := by
    unfold entryAllowed
    rw [h.entryContextReason]
  unfold Matrades.enterAt
  dsimp only
  rw [hallowed, h.barNews, h.entryMatches (hbar.withNews _)]

theorem StrategySpecification.Alike.fillBar (closing : Bool) {bar : Bar} (hbar : bar.2.Named)
    (trade : OpenTrade) :
    fillBar s rules configuration replay closing bar trade =
      fillBar t rules configuration replay closing bar trade := by
  unfold Matrades.fillBar
  dsimp only
  rw [h.barNews]
  unfold barFills
  rw [h.exit _ (hbar.withNews _), h.invalidation _ (hbar.withNews _)]

end

/-! ## Trades with one target -/

/-- A trade with one target is not past it. -/
def OpenTrade.Single (t : OpenTrade) : Prop := ∃ target, t.targets = [target] ∧ t.targetIndex = 0

/-- The open trade, under rules with one target. -/
def Simulation.Single (rules : TradeRules) (a : Simulation) : Prop :=
  rules.takeProfitRMultiples.length = 1 → ∀ trade ∈ a.trade, trade.Single

section
variable {zones : ZoneInfo} {spec : StrategySpecification} {rules : TradeRules}
  {configuration : BacktestConfiguration} {replay : Replay}

theorem protectionLevels_length {entry volatility : ℚ} {tickSize : Option ℚ} {stop : ℚ}
    {targets : List ℚ} (h : protectionLevels rules entry volatility tickSize = .ok (stop, targets)) :
    targets.length = rules.takeProfitRMultiples.length := by
  unfold protectionLevels at h
  obtain ⟨-, h⟩ := ok_of_guard h
  obtain ⟨-, h⟩ := ok_of_guard h
  obtain ⟨-, h⟩ := ok_of_guard h
  cases h
  exact List.length_map _

theorem enterAt_single (hrules : rules.takeProfitRMultiples.length = 1) {bar : Bar} {t : OpenTrade}
    (h : enterAt zones spec rules configuration replay bar = some t) : t.Single := by
  unfold enterAt at h
  dsimp only at h
  split at h
  · split at h
    · cases h
    · rename_i stop targets hlevels
      cases h
      obtain ⟨target, htarget⟩ := List.length_eq_one_iff.1 ((protectionLevels_length hlevels).trans hrules)
      exact ⟨target, htarget, rfl⟩
  · cases h

theorem applyFills_targets (time : AwareTime) (fills : List Fill) (t : OpenTrade) :
    (fills.foldl (applyFill rules configuration time) t).targets = t.targets ∧
      (fills.foldl (applyFill rules configuration time) t).targetIndex = t.targetIndex := by
  induction fills generalizing t with
  | nil => exact ⟨rfl, rfl⟩
  | cons fill fills ih => exact ih _

/-- What a bar leaves open of a trade with one target is not past it. -/
theorem barFills_single (closing : Bool) (candle : BacktestCandle) (previous : FeaturePoint)
    {t : OpenTrade} (h : t.Single)
    (hopen : 0 < t.remaining - sizes (barFills spec rules closing candle previous t).1) :
    (barFills spec rules closing candle previous t).2 = 0 := by
  obtain ⟨target, htargets, hindex⟩ := h
  revert hopen
  unfold barFills
  split
  · exact fun _ => hindex
  · split
    · exact fun _ => hindex
    · split
      · exact fun _ => hindex
      · rw [htargets, hindex]
        intro hopen
        by_cases hreached : reaches rules candle target = true
        · exfalso
          simp [takeTargets, hreached, sizes] at hopen
        · simp [takeTargets, hreached]

theorem fillBar_single (closing : Bool) (bar : Bar) {t : OpenTrade} (h : t.Single)
    (hopen : 0 < (fillBar spec rules configuration replay closing bar t).remaining) :
    (fillBar spec rules configuration replay closing bar t).Single := by
  rw [fillBar_remaining] at hopen
  have hindex := barFills_single closing bar.1 _ h hopen
  obtain ⟨target, htargets, -⟩ := h
  refine ⟨target, ?_, ?_⟩
  · exact (applyFills_targets _ _ _).1.trans htargets
  · exact (applyFills_targets _ _ _).2.trans hindex

/-- The trade of a bar: the open one, or one that is entered. -/
theorem orElse_single {a : Simulation} (ha : a.Single rules) {bar : Bar} {trade : OpenTrade}
    (h : (a.trade.orElse fun _ => enterAt zones spec rules configuration replay bar) = some trade)
    (hone : rules.takeProfitRMultiples.length = 1) : trade.Single := by
  cases hopen : a.trade with
  | some trade' =>
    rw [hopen] at h
    cases h
    exact ha hone _ hopen
  | none =>
    rw [hopen] at h
    exact enterAt_single hone h

theorem stepBar_single (closing : Bool) {a : Simulation} (ha : a.Single rules) (bar : Bar) :
    (stepBar zones spec rules configuration replay closing a bar).Single rules := by
  intro hone trade htrade
  unfold stepBar at htrade
  split at htrade
  · exact ha hone trade htrade
  · rename_i before hbefore
    have hsingle := orElse_single ha hbefore hone
    unfold Simulation.settle at htrade
    split at htrade
    · rename_i hopen
      cases htrade
      rw [manageBar_remaining] at hopen
      have hfilled := fillBar_single closing bar hsingle hopen
      unfold manageBar
      dsimp only
      rw [if_pos hopen]
      exact hfilled
    · cases htrade

end

/-! ## The run -/

section
variable {s t : StrategySpecification} (h : s.Alike t) {zones : ZoneInfo} {rules : TradeRules}
  {configuration : BacktestConfiguration} {replay : Replay}
  (hagree : PositionManagement.Agree rules s.positionManagement t.positionManagement)
include h hagree

theorem manageBar_alike (closing : Bool) {bar : Bar} (hbar : bar.2.Named) {trade : OpenTrade}
    (hsingle : rules.takeProfitRMultiples.length = 1 → trade.Single) :
    manageBar s rules configuration replay closing bar trade =
      manageBar t rules configuration replay closing bar trade := by
  unfold manageBar
  dsimp only
  rw [h.fillBar closing hbar]
  split
  · rename_i hopen
    unfold ratchet
    dsimp only
    rw [hagree.trailingStop]
    rcases hagree.moveToBreakEven with hsame | hone
    · rw [hsame]
    · obtain ⟨-, -, hindex⟩ := fillBar_single closing bar (hsingle hone) hopen
      simp only [hindex, ne_eq, not_true_eq_false, decide_false, Bool.false_and]
  · rfl

theorem stepBar_alike (closing : Bool) {bar : Bar} (hbar : bar.2.Named) {a : Simulation}
    (ha : a.Single rules) :
    stepBar zones s rules configuration replay closing a bar =
      stepBar zones t rules configuration replay closing a bar := by
  unfold stepBar
  rw [h.enterAt hbar]
  split
  · rfl
  · rename_i trade htrade
    rw [manageBar_alike h hagree closing hbar (orElse_single ha htrade)]

theorem simulateBars_alike {bars : List Bar} (hbars : ∀ bar ∈ bars, bar.2.Named) {a : Simulation}
    (ha : a.Single rules) :
    simulateBars zones s rules configuration replay a bars =
      simulateBars zones t rules configuration replay a bars := by
  induction bars generalizing a with
  | nil => rfl
  | cons bar bars ih =>
    rw [simulateBars, simulateBars, stepBar_alike h hagree _ (hbars bar List.mem_cons_self) ha]
    exact ih (fun b hb => hbars b (List.mem_cons_of_mem bar hb)) (stepBar_single _ ha bar)

end

/-- **Alike strategies simulate the same.** -/
theorem simulate_alike {s t : StrategySpecification} (h : s.Alike t)
    (hagree : ∀ rules ∈ s.tradeRules, PositionManagement.Agree rules s.positionManagement
      t.positionManagement) (library : TechnicalLibrary) (zones : ZoneInfo)
    (candles : List BacktestCandle) (configuration : BacktestConfiguration) (replay : Replay) :
    simulateProtectedTrades library zones s candles configuration replay =
      simulateProtectedTrades library zones t candles configuration replay := by
  unfold simulateProtectedTrades
  rw [← h.tradeRules, ← h.series library candles]
  cases hrules : s.tradeRules with
  | none => rfl
  | some rules =>
    dsimp only
    cases hseries : strategyFeatureSeries library s candles with
    | error e => rfl
    | ok series =>
      have hbars := barsOf_named candles (strategyFeatureSeries_named hseries)
      have hempty : ({} : Simulation).Single rules := fun _ trade htrade => by cases htrade
      rw [bind_ok_eq rfl, bind_ok_eq rfl, simulateBars_alike h (hagree rules hrules) hbars hempty]

end Matrades

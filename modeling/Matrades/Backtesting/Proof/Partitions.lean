import Matrades.Backtesting.Proof.Conserved
import Matrades.Backtesting.Robustness
import Matrades.Base.Window

/-!
# The parts of a history

The simulation of a part enters only bars of the part and closes everything at its last bar, so each of its
trades lies inside the part (`evaluateRange_inside`). No part begins before the first candle behind
`validation_start_after`, and the folds follow each other from the forward start to the end
(`folds_tile`): what they count is evidence from unseen bars, and every bar is counted once.
-/

namespace Matrades

open Base

/-! ## Entries of a simulation -/

section
variable {library : TechnicalLibrary} {zones : ZoneInfo} {spec : StrategySpecification}
  {rules : TradeRules} {configuration : BacktestConfiguration} {replay : Replay}

theorem allowed_life :
    LifeRule zones spec rules configuration replay (fun _ => True)
      (fun t => entryAllowed zones spec replay t.enteredAt = true)
      (fun fill => entryAllowed zones spec replay fill.enteredAt = true) where
  enter bar t _ h := by
    rw [enterAt_enteredAt h]
    unfold enterAt at h
    dsimp only at h
    split at h
    · rename_i hentry
      exact (Bool.and_eq_true_iff.1 hentry).1
    · cases h
  manage closing bar t _ h _ := by
    rw [manageBar_enteredAt]
    exact h
  close closing bar t _ h _ := by
    show entryAllowed zones spec replay
      (manageBar spec rules configuration replay closing bar t).enteredAt = true
    rw [manageBar_enteredAt]
    exact h

/-- Only allowed bars are entered. -/
theorem simulate_allowed {candles : List BacktestCandle} {s : Simulation}
    (h : simulateProtectedTrades library zones spec candles configuration replay = .ok s) :
    ∀ fill ∈ s.attribution, entryAllowed zones spec replay fill.enteredAt = true := by
  obtain ⟨rules, series, _, _, rfl⟩ := simulate_run h
  exact (allowed_life.run (fun _ _ => trivial) Living.start).attribution

end

/-! ## Trades of a part -/

theorem slice_getElem? {α : Type} {xs : List α} {lo hi k : ℕ} {x : α} :
    (slice xs lo hi)[k]? = some x ↔ lo + k < hi ∧ xs[lo + k]? = some x := by
  unfold slice
  rw [List.getElem?_drop, List.getElem?_take]
  split
  · rename_i hlt
    simp [hlt]
  · rename_i hge
    simp [hge]

theorem mem_slice {α : Type} {xs : List α} {lo hi : ℕ} {x : α} (h : x ∈ slice xs lo hi) :
    ∃ i, lo ≤ i ∧ i < hi ∧ xs[i]? = some x := by
  obtain ⟨k, hk⟩ := List.mem_iff_getElem?.1 h
  obtain ⟨hlt, hget⟩ := slice_getElem?.1 hk
  exact ⟨lo + k, Nat.le_add_right lo k, hlt, hget⟩

/-- A trade that is entered and left at bars of a part. -/
def Inside (candles : List BacktestCandle) (part : ℕ × ℕ) (fill : TradeFill) : Prop :=
  ∃ i j, part.1 ≤ i ∧ i ≤ j ∧ j < part.2 ∧
    candles[i]?.map BacktestCandle.observedAt = some fill.enteredAt ∧
    candles[j]?.map BacktestCandle.observedAt = some fill.exitedAt

/-- In a chronological history a time is that of one bar. -/
theorem index_unique {candles : List BacktestCandle} (h : chronological candles = true) {i j : ℕ}
    {time : AwareTime} (hi : candles[i]?.map BacktestCandle.observedAt = some time)
    (hj : candles[j]?.map BacktestCandle.observedAt = some time) : i = j := by
  rcases lt_trichotomy i j with hlt | heq | hgt
  · exact absurd (instant_lt h hi hj hlt) (lt_irrefl _)
  · exact heq
  · exact absurd (instant_lt h hj hi hgt) (lt_irrefl _)

theorem ClosedAt.widen {candles : List BacktestCandle} {lo hi : ℕ} {fill : TradeFill} {span : ℕ × ℕ}
    (h : ClosedAt (slice candles lo hi) fill span) :
    lo + span.2 < hi ∧ candles[lo + span.1]?.map BacktestCandle.observedAt = some fill.enteredAt ∧
      candles[lo + span.2]?.map BacktestCandle.observedAt = some fill.exitedAt := by
  obtain ⟨c, hc, hentered⟩ := Option.map_eq_some_iff.1 h.entered
  obtain ⟨c', hc', hexited⟩ := Option.map_eq_some_iff.1 h.exited
  obtain ⟨_, hget⟩ := slice_getElem?.1 hc
  obtain ⟨hlt, hget'⟩ := slice_getElem?.1 hc'
  exact ⟨hlt, by rw [hget, ← hentered]; rfl, by rw [hget', ← hexited]; rfl⟩

section
variable {library : TechnicalLibrary} {zones : ZoneInfo} {spec : StrategySpecification}
  {configuration : BacktestConfiguration} {calendar : Option (List CalendarEvent)}
  {candles : List BacktestCandle}

/-- **Every trade of a part is entered and left inside it.** -/
theorem evaluateRange_inside (hchronological : chronological candles = true) {part : ℕ × ℕ}
    {s : Simulation}
    (h : evaluateRange library zones candles calendar spec configuration part = .ok s) :
    ∀ fill ∈ s.attribution, Inside candles part fill := by
  intro fill hfill
  -- The bar of the entry is one of the part, not of its warm-up.
  have hallowed := simulate_allowed h fill hfill
  have hentry : fill.enteredAt ∈ partEntries zones candles calendar spec part := by
    unfold entryAllowed at hallowed
    exact List.contains_iff_mem.1 hallowed
  obtain ⟨c, hc, htime⟩ := List.mem_map.1 hentry
  obtain ⟨k, hfrom, _, hget⟩ := mem_slice (List.mem_filter.1 hc).1
  have hk : candles[k]?.map BacktestCandle.observedAt = some fill.enteredAt := by
    rw [hget, ← htime]
    rfl
  -- The bars of the trade are bars of the simulated candles.
  obtain ⟨rules, _, hbooks⟩ := simulate_books h
  obtain ⟨spans, hplaced⟩ := hbooks.placed
  obtain ⟨n, hn, rfl⟩ := List.mem_iff_getElem.1 hfill
  have hclosed := hplaced.closed.get hn (hplaced.closed.length_eq ▸ hn)
  obtain ⟨hlt, hentered, hexited⟩ := hclosed.widen
  have hordered := hclosed.ordered
  refine ⟨_, _, ?_, Nat.add_le_add_left hordered _, hlt, hentered, hexited⟩
  rw [index_unique hchronological hentered hk]
  exact hfrom

/-! ## Where the parts begin -/

/-- **The unseen bars are those behind `validation_start_after`.** -/
theorem unseen_le_iff (hchronological : chronological candles = true) (after : Option AwareTime)
    {k : ℕ} {c : BacktestCandle} (hk : candles[k]? = some c) :
    unseen candles after ≤ k ↔ ∀ time ∈ after, time.instant < c.observedAt.instant := by
  cases after with
  | none => simp [unseen]
  | some time =>
    have hone : (∀ t ∈ some time, t.instant < c.observedAt.instant) ↔
        time.instant < c.observedAt.instant := by simp
    obtain ⟨hlt, hget⟩ := List.getElem?_eq_some_iff.1 hk
    rw [hone]
    show candles.findIdx (fun c => time.instant < c.observedAt.instant) ≤ k ↔ _
    constructor
    · intro hle
      have hfirst : candles.findIdx (fun c => time.instant < c.observedAt.instant) <
          candles.length := by omega
      have hfound := List.findIdx_getElem (w := hfirst)
      rw [decide_eq_true_eq] at hfound
      rcases hle.eq_or_lt with heq | hlater
      · rw [← hget]
        simp only [heq] at hfound
        exact hfound
      · have hrise := instant_lt hchronological
          (congrArg (Option.map BacktestCandle.observedAt) (List.getElem?_eq_getElem hfirst))
          (congrArg (Option.map BacktestCandle.observedAt) hk) hlater
        exact hfound.trans hrise
    · intro hbehind
      by_contra hgt
      have hnot := List.not_of_lt_findIdx (not_le.1 hgt)
      rw [hget, decide_eq_false_iff_not] at hnot
      exact hnot hbehind

theorem unseen_le_length (after : Option AwareTime) : unseen candles after ≤ candles.length := by
  unfold unseen
  split
  · exact Nat.zero_le _
  · exact List.findIdx_le_length

theorem forwardStart_le (after : Option AwareTime) : forwardStart candles after ≤ candles.length :=
  Nat.max_le.2 ⟨Double.part_le (by decide) _, unseen_le_length after⟩

/-- **The folds follow each other from the forward start to the end.** -/
theorem folds_tile (after : Option AwareTime) :
    Tiles (forwardStart candles after) candles.length (folds candles after) := by
  have hstart : forwardStart candles after ≤ candles.length := forwardStart_le after
  have hthirds : oneThird.part (candles.length - forwardStart candles after) ≤
      twoThirds.part (candles.length - forwardStart candles after) :=
    Double.part_le_part (by decide) _
  have hwhole : twoThirds.part (candles.length - forwardStart candles after) ≤
      candles.length - forwardStart candles after := Double.part_le (by decide) _
  refine ⟨rfl, Nat.le_add_right _ _, rfl, ?_, rfl, ?_, ?_⟩
  · exact Nat.add_le_add_left hthirds _
  · exact Nat.add_le_add_left hwhole _
  · exact Nat.add_sub_cancel' hstart

/-! ## The evidence -/

/-- The simulations the evidence is counted in. -/
def Robustness.samples (r : Robustness) : List Simulation :=
  r.outOfSample :: r.walkForward ++ r.parameterSensitivity ++ [r.doubleCostStress]

/-- What a returned evaluation consists of. -/
theorem chronologicalRobustness_ok {validationStartAfter : Option AwareTime} {r : Robustness}
    (h : chronologicalRobustness library zones spec candles configuration calendar
      validationStartAfter = .ok (some r)) :
    List.Forall₂ (fun part s =>
        evaluateRange library zones candles calendar spec configuration part = .ok s)
      (folds candles validationStartAfter) r.walkForward ∧
    ∀ s ∈ r.samples, ∃ spec' configuration' part,
      evaluateRange library zones candles calendar spec' configuration' part = .ok s ∧
      (part = holdout candles validationStartAfter ∨ part ∈ folds candles validationStartAfter) := by
  unfold chronologicalRobustness at h
  split at h
  · cases h
  · rename_i rules _
    obtain ⟨outOfSample, hout, h⟩ := ok_of_bind h
    obtain ⟨walkForward, hwalk, h⟩ := ok_of_bind h
    obtain ⟨sensitivity, hsensitivity, h⟩ := ok_of_bind h
    obtain ⟨stress, hstress, h⟩ := ok_of_bind h
    cases h
    refine ⟨ok_of_mapM hwalk, fun s hs => ?_⟩
    rcases List.mem_cons.1 hs with rfl | hs
    · exact ⟨spec, configuration, _, hout, .inl rfl⟩
    rcases List.mem_append.1 hs with hs | hs
    · rcases List.mem_append.1 hs with hs | hs
      · obtain ⟨part, hpart, hrun⟩ := ok_mem_of_mapM hwalk hs
        exact ⟨spec, configuration, part, hrun, .inr hpart⟩
      · obtain ⟨perturbed, _, hrun⟩ := ok_mem_of_mapM hsensitivity hs
        exact ⟨_, configuration, _, hrun, .inl rfl⟩
    · rw [List.mem_singleton.1 hs]
      exact ⟨spec, configuration.stressed, _, hstress, .inl rfl⟩

/-- No part begins before the first unseen bar. -/
theorem unseen_le_part {after : Option AwareTime} {part : ℕ × ℕ}
    (h : part = holdout candles after ∨ part ∈ folds candles after) :
    unseen candles after ≤ part.1 := by
  rcases h with rfl | hpart
  · exact le_max_right _ _
  · exact (le_max_right _ _).trans ((folds_tile after).le.2 part hpart).1

/-- **Robustness evidence is isolated**: what it counts is entered behind `validation_start_after`, every
trade of a fold inside it, and the folds cover the bars from the forward start on once. -/
theorem robustness_isolated {validationStartAfter : Option AwareTime} {r : Robustness}
    (hchronological : chronological candles = true)
    (h : chronologicalRobustness library zones spec candles configuration calendar
      validationStartAfter = .ok (some r)) :
    (∀ after ∈ validationStartAfter, ∀ s ∈ r.samples, ∀ fill ∈ s.attribution,
      after.instant < fill.enteredAt.instant) ∧
    List.Forall₂ (fun part s => ∀ fill ∈ s.attribution, Inside candles part fill)
      (folds candles validationStartAfter) r.walkForward ∧
    Tiles (forwardStart candles validationStartAfter) candles.length
      (folds candles validationStartAfter) ∧
    (folds candles validationStartAfter).Pairwise (fun earlier later => earlier.2 ≤ later.1) ∧
    (∀ i, forwardStart candles validationStartAfter ≤ i ∧ i < candles.length ↔
      ∃ part ∈ folds candles validationStartAfter, part.1 ≤ i ∧ i < part.2) ∧
    ∀ k c, candles[k]? = some c →
      (forwardStart candles validationStartAfter ≤ k ↔ twoFifths.part candles.length ≤ k ∧
        ∀ after ∈ validationStartAfter, after.instant < c.observedAt.instant) := by
  obtain ⟨hfolds, hsamples⟩ := chronologicalRobustness_ok h
  have htile : Tiles (forwardStart candles validationStartAfter) candles.length
      (folds candles validationStartAfter) := folds_tile validationStartAfter
  refine ⟨fun after hafter s hs fill hfill => ?_, ?_, htile, htile.disjoint, htile.covers, ?_⟩
  · obtain ⟨spec', configuration', part, hrun, hpart⟩ := hsamples s hs
    obtain ⟨i, _, hfrom, _, _, hentered, _⟩ := evaluateRange_inside hchronological hrun fill hfill
    obtain ⟨c, hget, htime⟩ := Option.map_eq_some_iff.1 hentered
    rw [← htime]
    exact (unseen_le_iff hchronological _ hget).1 ((unseen_le_part hpart).trans hfrom) after hafter
  · exact hfolds.imp fun part s hrun => evaluateRange_inside hchronological hrun
  · intro k c hk
    rw [← unseen_le_iff hchronological _ hk]
    exact Nat.max_le

/-- Twelve bars of one shape. -/
def busyBars : List BacktestCandle := (List.range 12).map fun n => quarterBar n 103 99

/-- The number of trades in each sample, with the sixth bar as the last seen one. -/
def busySamples : Option (List ℕ) :=
  (chronologicalRobustness trangeLibrary utcOnly rangeStrategy busyBars plainAccount none
    (some ⟨5 * 900000000, 0⟩)).toOption.join.map fun r => r.samples.map fun s => s.trades.length

theorem robustness_isolated_busy :
    ∃ r, chronologicalRobustness trangeLibrary utcOnly rangeStrategy busyBars plainAccount none
        (some ⟨5 * 900000000, 0⟩) = .ok (some r) ∧ r.samples.map (fun s => s.trades.length) = [1, 1, 1, 1, 4, 1, 1] ∧
      ∀ s ∈ r.samples, ∀ fill ∈ s.attribution, 5 * 900000000 < fill.enteredAt.instant := by
  have hcounts : busySamples = some [1, 1, 1, 1, 4, 1, 1] := by decide +kernel
  obtain ⟨r, hr, hlengths⟩ := Option.map_eq_some_iff.1 hcounts
  rw [Option.join_eq_some_iff, toOption_eq_some] at hr
  have hisolated := (robustness_isolated (by decide +kernel) hr).1
  exact ⟨r, hr, hlengths, hisolated _ rfl⟩

end

end Matrades

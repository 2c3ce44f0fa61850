import Matrades.Base.Window
import Matrades.Strategies.Proof.Sticky

/-!
# The stored candles in strict order

A tick keeps the stored candles and puts completed ones behind them, so no stored candle is ever replaced.
The new ones are sorted and behind the last stored one, but their times are not compared with each other:
the store stays strictly chronological exactly when every time that repeats among the completed candles
is not stored, or not more than once (`observe_strict_iff`).
-/

namespace Matrades

open Base

/-- The times of the completed candles among the incoming ones. -/
def completedTimes (incoming : List BacktestCandle) (now : AwareTime) (period : ℤ) : List ℤ :=
  (incoming.filter fun c => c.observedAt.instant + period ≤ now.instant).map fun c =>
    c.observedAt.instant

/-- Every repeated time is stored already; where nothing is stored, the warm-up of a hundred candles holds
at most one candle of it. -/
def RepeatsDropped (stored : List BacktestCandle) (times : List ℤ) : Prop :=
  ∀ time, 2 ≤ times.count time →
    (∀ last ∈ stored.getLast?, time ≤ last.observedAt.instant) ∧
      (stored = [] → 99 ≤ times.countP (time < ·))

instance (stored : List BacktestCandle) (times : List ℤ) : Decidable (RepeatsDropped stored times) :=
  decidable_of_iff (∀ time ∈ times, 2 ≤ times.count time →
      (∀ last ∈ stored.getLast?, time ≤ last.observedAt.instant) ∧
        (stored = [] → 99 ≤ times.countP (time < ·)))
    ⟨fun h time hcount => h time (List.count_pos_iff.1 (Nat.lt_of_lt_of_le Nat.two_pos hcount)) hcount,
      fun h time _ => h time⟩

/-- The times of a list of candles. -/
def instants (candles : List BacktestCandle) : List ℤ := candles.map fun c => c.observedAt.instant

theorem chronological_iff (candles : List BacktestCandle) :
    chronological candles = true ↔ (instants candles).Pairwise (· < ·) := by
  unfold chronological
  rw [decide_eq_true_eq]
  rfl

theorem instants_completed_sorted (incoming : List BacktestCandle) (now : AwareTime) (period : ℤ) :
    (instants (completedCandles incoming now period)).Pairwise (· ≤ ·) :=
  List.pairwise_map.2 (completedCandles_sorted incoming now period)

theorem instants_completed_perm (incoming : List BacktestCandle) (now : AwareTime) (period : ℤ) :
    (instants (completedCandles incoming now period)).Perm (completedTimes incoming now period) :=
  (List.perm_insertionSort _ _).map _

/-- **What is put behind the stored candles is in strict order** when no repeated time is stored twice. -/
theorem newCandles_strict_iff (stored incoming : List BacktestCandle) (now : AwareTime) (period : ℤ) :
    (instants (newCandles stored (completedCandles incoming now period))).Pairwise (· < ·) ↔
      RepeatsDropped stored (completedTimes incoming now period) := by
  have hsorted := instants_completed_sorted incoming now period
  have hperm := instants_completed_perm incoming now period
  unfold newCandles RepeatsDropped
  cases hlast : stored.getLast? with
  | none =>
    rw [List.getLast?_eq_none_iff] at hlast
    have hrecent : instants (lastN 100 (completedCandles incoming now period)) =
        (instants (completedCandles incoming now period)).drop
          ((instants (completedCandles incoming now period)).length - 100) := by
      simp only [instants, lastN, List.map_drop, List.length_map]
    dsimp only
    rw [hrecent, recent_strict_iff hsorted]
    apply forall_congr'
    intro time
    rw [hperm.count_eq, hperm.countP_eq]
    simp only [Option.not_mem_none, false_imp_iff, implies_true, true_and, hlast, true_implies]
    omega
  | some last =>
    have hbehind : instants ((completedCandles incoming now period).filter fun c =>
        last.observedAt.instant < c.observedAt.instant) =
          (instants (completedCandles incoming now period)).filter
            (last.observedAt.instant < ·) := by
      unfold instants
      rw [List.filter_map]
      rfl
    dsimp only
    rw [hbehind, behind_strict_iff hsorted]
    apply forall_congr'
    intro time
    have hne : stored ≠ [] := fun hnil => by
      rw [hnil] at hlast
      cases hlast
    rw [hperm.count_eq]
    simp [hne]

theorem getLast_strict {stored : List BacktestCandle} (h : (instants stored).Pairwise (· < ·))
    {last : BacktestCandle} (hlast : stored.getLast? = some last) {c : BacktestCandle}
    (hc : c ∈ stored) : c.observedAt.instant ≤ last.observedAt.instant :=
  le_getLast ((List.pairwise_map.1 h).imp fun hlt => (le_of_lt hlt : NotAfter _ _)) hlast hc

theorem freeze_strict_iff {stored : List BacktestCandle} (hstored : chronological stored = true)
    (incoming : List BacktestCandle) (now : AwareTime) (period : ℤ) :
    chronological (freeze stored (completedCandles incoming now period)) = true ↔
      RepeatsDropped stored (completedTimes incoming now period) := by
  rw [chronological_iff] at hstored ⊢
  rw [← newCandles_strict_iff]
  unfold freeze instants
  rw [List.map_append, List.pairwise_append]
  refine ⟨fun h => h.2.1, fun h => ⟨hstored, h, fun a ha b hb => ?_⟩⟩
  obtain ⟨old, hold, rfl⟩ := List.mem_map.1 ha
  obtain ⟨new, hnew, rfl⟩ := List.mem_map.1 hb
  obtain ⟨last, hlast⟩ := exists_last (List.ne_nil_of_mem hold)
  exact (getLast_strict hstored hlast hold).trans_lt (newCandles_after hlast hnew)

/-- A candle behind the stored ones does not have the time of one of them. -/
theorem freeze_same {stored : List BacktestCandle} (hstored : chronological stored = true)
    (closed : List BacktestCandle) :
    ∀ c ∈ stored, ∀ c' ∈ freeze stored closed,
      c'.observedAt.instant = c.observedAt.instant → c' = c := by
  rw [chronological_iff] at hstored
  intro c hc c' hc' htime
  rcases List.mem_append.1 hc' with hold | hnew
  · have hnodup : (instants stored).Nodup := hstored.imp fun hlt => ne_of_lt hlt
    exact List.inj_on_of_nodup_map hnodup hold hc htime
  · obtain ⟨last, hlast⟩ := exists_last (List.ne_nil_of_mem hc)
    have hle := getLast_strict hstored hlast hc
    have hlt := newCandles_after hlast hnew
    omega

/-- What the claimed store does: it keeps every candle and stays strictly chronological. -/
structure StaysStrict (stored stored' : List BacktestCandle) : Prop where
  strict : chronological stored' = true
  kept : stored <+: stored'
  same : ∀ c ∈ stored, ∀ c' ∈ stored', c'.observedAt.instant = c.observedAt.instant → c' = c

/-- Without a paper session nothing is stored. -/
theorem observe_display {library : TechnicalLibrary} {zones : ZoneInfo}
    {spec : StrategySpecification} {tf : Timeframe} {configuration : BacktestConfiguration}
    {state state' : ForwardState} {tick : Tick}
    (h : observe library zones spec tf configuration state tick false = .ok state') :
    state'.candles = state.candles := by
  unfold observe at h
  obtain ⟨frozen, _, h⟩ := ok_of_bind h
  split at h
  · cases h
  · obtain ⟨built, _, h⟩ := ok_of_bind h
    cases h
    rfl

theorem StaysStrict.refl {stored : List BacktestCandle} (h : chronological stored = true) :
    StaysStrict stored stored where
  strict := h
  kept := List.prefix_refl stored
  same := by
    have hsame := freeze_same h []
    intro c hc c' hc'
    exact hsame c hc c' (List.mem_append_left _ hc')

/-- **A tick keeps the stored candles; they stay strictly chronological exactly when no repeated time is
stored twice.** -/
theorem observe_strict_iff {library : TechnicalLibrary} {zones : ZoneInfo}
    {spec : StrategySpecification} {tf : Timeframe} {configuration : BacktestConfiguration}
    {state state' : ForwardState} {tick : Tick} {paper : Bool}
    (hstored : chronological state.candles = true)
    (h : observe library zones spec tf configuration state tick paper = .ok state') :
    state.candles <+: state'.candles ∧
      (StaysStrict state.candles state'.candles ↔
        (paper = true →
          RepeatsDropped state.candles (completedTimes tick.incoming tick.now tf.period))) := by
  cases paper with
  | false =>
    rw [observe_display h]
    exact ⟨List.prefix_refl _, fun _ hpaper => (by cases hpaper), fun _ => StaysStrict.refl hstored⟩
  | true =>
    obtain ⟨o, ho, rfl⟩ := observe_ok h
    obtain ⟨-, hfrozen⟩ := frozenCandles_ok ho.frozen
    have hcandles : (o.ledger zones spec tf configuration state tick).candles =
        freeze state.candles (completedCandles tick.incoming tick.now tf.period) := hfrozen
    rw [hcandles]
    have hkept : state.candles <+: freeze state.candles
        (completedCandles tick.incoming tick.now tf.period) := List.prefix_append _ _
    refine ⟨hkept, ?_⟩
    rw [← freeze_strict_iff hstored]
    exact ⟨fun hstrict _ => hstrict.strict, fun hstrict =>
      ⟨hstrict rfl, hkept, freeze_same hstored _⟩⟩

/-- The session behind its warm-up. -/
def warmSession : ForwardState := paperRun [tickAt 6 warmUp]

theorem warmSession_chronological : chronological warmSession.candles = true := by decide

def observeWarm (tick : Tick) : Except String ForwardState :=
  observe trangeLibrary utcOnly alwaysStrategy quarterHour dailyLimitAccount warmSession tick true

/-- A tick that brings the stored candles again and one more. -/
theorem observe_strict_quarter :
    ∃ state', observeWarm stopTick = .ok state' ∧ chronological state'.candles = true := by
  have hone : (observeWarm stopTick).toOption.isSome = true := by decide +kernel
  obtain ⟨state', hstate⟩ := Option.isSome_iff_exists.1 hone
  rw [toOption_eq_some] at hstate
  have hdropped : RepeatsDropped warmSession.candles
      (completedTimes stopTick.incoming stopTick.now quarterHour.period) := by decide +kernel
  exact ⟨state', hstate,
    ((observe_strict_iff warmSession_chronological hstate).2.2 fun _ => hdropped).strict⟩

/-- **Two candles of one time in a tick are both stored.** -/
theorem repeated_candle_stored :
    ∃ state', observeWarm doubleTick = .ok state' ∧ chronological warmSession.candles = true ∧
      chronological state'.candles = false ∧
      stopBar ∈ state'.candles ∧ quarterBar 6 101 99 ∈ state'.candles ∧
      ¬StaysStrict warmSession.candles state'.candles := by
  have hstored : (observeWarm doubleTick).toOption.map (fun s => (chronological s.candles,
      s.candles.contains stopBar, s.candles.contains (quarterBar 6 101 99))) =
        some (false, true, true) := by decide +kernel
  obtain ⟨state', hstate, hvalues⟩ := Option.map_eq_some_iff.1 hstored
  rw [toOption_eq_some] at hstate
  simp only [Prod.mk.injEq] at hvalues
  obtain ⟨hchron, hstop, hsecond⟩ := hvalues
  refine ⟨state', hstate, warmSession_chronological, hchron, List.contains_iff_mem.1 hstop,
    List.contains_iff_mem.1 hsecond, fun h => ?_⟩
  rw [h.strict] at hchron
  cases hchron

end Matrades

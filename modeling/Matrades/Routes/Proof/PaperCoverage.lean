import Matrades.Base.Window
import Matrades.Routes.PaperTrading
import Matrades.Strategies.Proof.Sticky

/-!
# What a paper approval has observed

A tick looks for missing bars between neighbouring stored candles, so the bars between the first and
the last stored candle are complete (`Tracked.enclosed`). Nothing looks for bars before the first
stored candle or behind the last one: an approved session has observed its window exactly if every
expected bar lies between stored candles of the grid (`approval_covers_window`).
-/

namespace Matrades

open Base

/-! ## The bars a review expects -/

section
variable (zones : ZoneInfo) (spec : StrategySpecification) (tf : Timeframe) (anchor : ℤ)

/-- A bar of the timeframe's grid, of an open session, that opens in the observation window and was
complete one period before the review at `now`. -/
structure Expected (data : ForwardState) (now : AwareTime) (bar : ℤ) : Prop where
  grid : tf.period ∣ bar - anchor
  started : data.startedAt.instant ≤ bar
  before : ∀ cutoff ∈ data.entryCutoff, bar < cutoff.instant
  complete : bar + 2 * tf.period ≤ now.instant
  session : sessionClosed zones spec.assetClass ⟨bar, 0⟩ = false

/-- Every expected bar is stored. -/
def Covered (data : ForwardState) (now : AwareTime) : Prop :=
  ∀ bar, Expected zones spec tf anchor data now bar →
    ∃ c ∈ data.candles, c.observedAt.instant = bar

/-- The last stored candle up to the bar is on the grid, and one is stored at or behind the bar. -/
def Enclosed (data : ForwardState) (bar : ℤ) : Prop :=
  (∃ c ∈ data.candles, c.observedAt.instant ≤ bar ∧ tf.period ∣ c.observedAt.instant - anchor ∧
    ∀ d ∈ data.candles, d.observedAt.instant ≤ bar → NotAfter d c) ∧
  ∃ c ∈ data.candles, bar ≤ c.observedAt.instant

/-- Every expected bar lies between stored candles. -/
def AllEnclosed (data : ForwardState) (now : AwareTime) : Prop :=
  ∀ bar, Expected zones spec tf anchor data now bar → Enclosed tf anchor data bar

/-- What the ticks of a session keep: the candles are in order, and between them nothing is missing
while the session says so. -/
structure Tracked (data : ForwardState) : Prop where
  sorted : data.candles.Pairwise NotAfter
  complete : data.dataComplete = some true →
    hasMissing zones spec.assetClass tf.period data.startedAt data.candles = false

end

section
variable {library : TechnicalLibrary} {zones : ZoneInfo} {spec : StrategySpecification}
  {tf : Timeframe} {configuration : BacktestConfiguration} {anchor : ℤ} {data : ForwardState}
  {now : AwareTime}

/-! ## Gaps -/

/-- Sessions are closed at instants, in whatever offset these are written. -/
theorem sessionClosed_instant (assetClass : Option AssetClass) (cursor : AwareTime) (offset : ℤ) :
    sessionClosed zones assetClass cursor = sessionClosed zones assetClass ⟨cursor.instant, offset⟩ :=
  by
  unfold sessionClosed stockSessionClosed weekendClose localTime
  rfl

theorem mem_gridBetween {earlier later : AwareTime} {period : ℤ} {k : ℕ} (hp : 0 < period)
    (h : earlier.instant + period * (k + 1) < later.instant) :
    earlier.plus (period * (k + 1)) ∈ gridBetween earlier later period := by
  unfold gridBetween
  rw [List.mem_filter, List.mem_map]
  refine ⟨⟨k, List.mem_range.2 ?_, rfl⟩, decide_eq_true h⟩
  have hle : ((k + 1 : ℕ) : ℤ) ≤ (later.instant - earlier.instant) / period := by
    rw [Int.le_ediv_iff_mul_le hp]
    push_cast
    linarith [mul_comm period ((k : ℤ) + 1)]
  omega

/-- **Neighbours without a gap leave out closed sessions only.** -/
theorem closed_of_no_gap {earlier later : BacktestCandle} {start : AwareTime} {bar : ℤ}
    (h : gapBetween zones spec.assetClass tf.period start (earlier, later) = false)
    (hgrid : tf.period ∣ bar - earlier.observedAt.instant)
    (hlow : earlier.observedAt.instant < bar) (hhigh : bar < later.observedAt.instant)
    (hstart : start.instant ≤ bar) : sessionClosed zones spec.assetClass ⟨bar, 0⟩ = true := by
  obtain ⟨n, hn⟩ := hgrid
  have hp := tf.period_pos
  have hn0 : 0 < n := by
    by_contra hle
    have hmul : tf.period * n ≤ 0 := mul_nonpos_of_nonneg_of_nonpos hp.le (not_lt.1 hle)
    omega
  obtain ⟨k, rfl⟩ : ∃ k : ℕ, n = k + 1 := ⟨(n - 1).toNat, by omega⟩
  have hbar : bar = earlier.observedAt.instant + tf.period * (k + 1) := by omega
  have hmem := mem_gridBetween hp (hbar ▸ hhigh)
  have hlong : tf.period < later.observedAt.instant - earlier.observedAt.instant := by
    have : tf.period * 1 ≤ tf.period * ((k : ℤ) + 1) :=
      mul_le_mul_of_nonneg_left (by omega) hp.le
    omega
  by_contra hclosed
  have hgap : gapBetween zones spec.assetClass tf.period start (earlier, later) = true := by
    unfold gapBetween
    simp only [Bool.and_eq_true, decide_eq_true_eq, List.any_eq_true, Bool.not_eq_true']
    refine ⟨⟨hlong, by omega⟩, _, hmem, ?_⟩
    rw [sessionClosed_instant _ _ 0, AwareTime.plus_instant, ← hbar]
    exact Bool.eq_false_iff.2 hclosed
  rw [h] at hgap
  cases hgap

/-- An expected bar between stored candles is stored. -/
theorem Tracked.enclosed (h : Tracked zones spec tf data) (hc : data.dataComplete = some true)
    {bar : ℤ} (hbar : Expected zones spec tf anchor data now bar)
    (he : Enclosed tf anchor data bar) : ∃ c ∈ data.candles, c.observedAt.instant = bar := by
  obtain ⟨⟨c, hmem, hle, hgrid, hlast⟩, d, hd, hge⟩ := he
  by_contra hnone
  have hgt : bar < d.observedAt.instant :=
    lt_of_le_of_ne hge fun heq => hnone ⟨d, hd, heq.symm⟩
  obtain ⟨⟨earlier, later⟩, hpair, hearlier, hlater, hmax⟩ :=
    exists_neighbours (fun c : BacktestCandle => c.observedAt.instant) h.sorted
      ⟨c, hmem, hle⟩ ⟨d, hd, hgt⟩
  have hpm := List.of_mem_zip hpair
  have hsame : earlier.observedAt.instant = c.observedAt.instant :=
    le_antisymm (hlast earlier hpm.1 hearlier) (hmax c hmem hle)
  have hgap : gapBetween zones spec.assetClass tf.period data.startedAt (earlier, later) = false := by
    have hm := h.complete hc
    unfold hasMissing at hm
    rw [List.any_eq_false] at hm
    exact Bool.eq_false_iff.2 (hm _ hpair)
  have hopen : sessionClosed zones spec.assetClass ⟨bar, 0⟩ = true := by
    apply closed_of_no_gap hgap
    · rw [hsame]
      have := dvd_sub hbar.grid hgrid
      simpa using this
    · exact lt_of_le_of_ne hearlier fun heq => hnone ⟨earlier, hpm.1, heq⟩
    · exact hlater
    · exact hbar.started
  rw [hbar.session] at hopen
  cases hopen

theorem Tracked.covered_iff (h : Tracked zones spec tf data) (hc : data.dataComplete = some true) :
    Covered zones spec tf anchor data now ↔ AllEnclosed zones spec tf anchor data now := by
  constructor
  · intro hcov bar hbar
    obtain ⟨c, hmem, heq⟩ := hcov bar hbar
    refine ⟨⟨c, hmem, heq.le, heq ▸ hbar.grid, fun d _ hd => ?_⟩, c, hmem, heq.ge⟩
    show d.observedAt.instant ≤ c.observedAt.instant
    omega
  · intro hall bar hbar
    exact h.enclosed hc hbar (hall bar hbar)

/-! ## Runs of a session -/

theorem Fresh.tracked (h : Fresh data) : Tracked zones spec tf data where
  sorted := by
    rw [h.candles]
    exact List.Pairwise.nil
  complete := fun _ => by simp [h.candles, hasMissing]

/-- **A tick that stores what it computed has looked at what it stores.** -/
theorem Tracked.observed {tick : Tick} {data' : ForwardState} (h : Tracked zones spec tf data)
    (ho : observe library zones spec tf configuration data tick true = .ok data') :
    Tracked zones spec tf data' := by
  obtain ⟨o, hobs, rfl⟩ := observe_ok ho
  refine ⟨?_, fun hc => ?_⟩
  · show o.frozen.Pairwise NotAfter
    rw [hobs.frozen_eq]
    exact freeze_sorted h.sorted (completedCandles_sorted _ _ _)
  · have hc : some (data.dataComplete.getD true && !o.missing zones spec tf data) = some true := hc
    simp only [Option.some.injEq, Bool.and_eq_true, Bool.not_eq_true'] at hc
    exact hc.2

theorem evaluationFailure_data (session : PaperTrading) (reason : String) :
    (evaluationFailure session reason).run.data = session.run.data := by
  unfold evaluationFailure
  split <;> rfl

theorem Tracked.evaluatePaper {session : PaperTrading} (h : Tracked zones spec tf session.run.data)
    (tick : Tick) :
    Tracked zones spec tf
      (evaluatePaper library zones spec tf configuration session tick).run.data := by
  unfold Matrades.evaluatePaper
  split
  · exact h
  split
  · exact h
  split
  · exact h
  split
  · rwa [evaluationFailure_data]
  split
  · rwa [evaluationFailure_data]
  split
  · rename_i ho
    exact h.observed ho
  · rwa [evaluationFailure_data]

/-- Stopping the entries moves the cutoff only. -/
theorem Tracked.stopPaperEntries {session stopped : PaperTrading}
    (h : Tracked zones spec tf session.run.data)
    (hs : stopPaperEntries session now = .ok stopped) : Tracked zones spec tf stopped.run.data := by
  unfold Matrades.stopPaperEntries at hs
  split at hs
  · cases hs
  split at hs
  · cases hs
  · cases hs
    exact ⟨h.sorted, h.complete⟩

theorem completePaperTrading_data {session reviewed : PaperTrading} {paperRunId : Uuid}
    (h : completePaperTrading session paperRunId now = .ok reviewed) :
    reviewed.run.data = session.run.data ∧
      reviewed.version.paper = (paperGates session.run.data).passed := by
  unfold completePaperTrading at h
  split at h
  · cases h
  split at h
  · cases h
  · cases h
    exact ⟨rfl, rfl⟩

theorem tracked_paperStep {session : PaperTrading} (h : Tracked zones spec tf session.run.data)
    (event : PaperEvent) :
    Tracked zones spec tf (paperStep library zones spec tf configuration session event).run.data := by
  cases event with
  | tick tick => exact h.evaluatePaper tick
  | monitoringFailure reason =>
    show Tracked zones spec tf (evaluationFailure session reason).run.data
    rwa [evaluationFailure_data]
  | stopEntries now =>
    show Tracked zones spec tf ((stopPaperEntries session now).toOption.getD session).run.data
    cases hs : stopPaperEntries session now with
    | error refused => exact h
    | ok stopped => exact h.stopPaperEntries hs
  | complete paperRunId now =>
    show Tracked zones spec tf
      ((completePaperTrading session paperRunId now).toOption.getD session).run.data
    cases hs : completePaperTrading session paperRunId now with
    | error refused => exact h
    | ok reviewed =>
      show Tracked zones spec tf reviewed.run.data
      rwa [(completePaperTrading_data hs).1]

theorem tracked_paperRun {session : PaperTrading} (h : Tracked zones spec tf session.run.data)
    (events : List PaperEvent) :
    Tracked zones spec tf
      (run (paperStep library zones spec tf configuration) session events).run.data :=
  run_inv_of_step (I := fun s : PaperTrading => Tracked zones spec tf s.run.data)
    (fun _ event h => tracked_paperStep h event) h events

/-- **An approved session has observed its window exactly if every expected bar lies between its
stored candles**, on whatever grid of the timeframe. -/
theorem approval_covers_window {session approved : PaperTrading} (hf : Fresh session.run.data)
    (events : List PaperEvent) (paperRunId : Uuid) (now : AwareTime) (anchor : ℤ)
    (h : completePaperTrading (run (paperStep library zones spec tf configuration) session events)
      paperRunId now = .ok approved)
    (hp : approved.version.paper = true) :
    Covered zones spec tf anchor approved.run.data now ↔
      AllEnclosed zones spec tf anchor approved.run.data now := by
  obtain ⟨hdata, hgates⟩ := completePaperTrading_data h
  rw [hp] at hgates
  rw [hdata]
  have hcomplete : (run (paperStep library zones spec tf configuration) session
      events).run.data.dataComplete = some true := by
    simp only [PaperGates.passed, paperGates, Bool.and_eq_true, decide_eq_true_eq, Bool.true_eq] at hgates
    exact hgates.1.2
  exact (tracked_paperRun hf.tracked events).covered_iff hcomplete

end

/-! ## Sessions that trade ten times -/

/-- The tick at the opening of bar number `n`; number 16 comes too late to record an entry. -/
def winningTick (n : ℕ) : Tick where
  incoming := (List.range n).map fun k => quarterBar k 102 100
  now := ⟨n * 900000000 + if n = 16 then 400000000 else 0, 0⟩

/-- Started at bar number 6, with entries up to bar number `cutoff`. -/
def startedSession (cutoff : ℕ) : PaperTrading where
  version :=
    { id := ⟨1⟩, state := .paperTrading, artifactHash := "a", compiledHash := "a",
      paperRunId := some ⟨2⟩ }
  run :=
    { id := ⟨2⟩, strategyVersionId := ⟨1⟩, state := .running, artifactHash := "a",
      data :=
        { startedAt := ⟨6 * 900000000, 0⟩, entryCutoff := some ⟨cutoff * 900000000, 0⟩,
          engine := some engineName, dataComplete := some true } }

theorem startedSession_fresh (cutoff : ℕ) : Fresh (startedSession cutoff).run.data :=
  ⟨rfl, rfl, rfl, rfl, rfl, rfl⟩

/-- Ten trades, observed up to bar number 15. -/
def winningEvents : List PaperEvent := (List.range 11).map fun k => .tick (winningTick (6 + k))

def winningSession (cutoff : ℕ) : PaperTrading :=
  run (paperStep trangeLibrary utcOnly alwaysStrategy quarterHour plainAccount)
    (startedSession cutoff) winningEvents

def reviewAt (bar : ℕ) : AwareTime := ⟨bar * 900000000, 0⟩

/-- The session, if the review approves it. -/
def approvedSession (cutoff : ℕ) : Option PaperTrading :=
  (completePaperTrading (winningSession cutoff) ⟨2⟩ (reviewAt 40)).toOption.filter fun s =>
    s.version.paper

instance (tf : Timeframe) (anchor : ℤ) (data : ForwardState) (bar : ℤ) :
    Decidable (Enclosed tf anchor data bar) := by
  unfold Enclosed
  infer_instance

/-- The bars that a session with the cutoff 16 has to store lie between its stored candles. -/
theorem enclosed_sixteen {approved : PaperTrading} (h : approvedSession 16 = some approved) :
    AllEnclosed utcOnly alwaysStrategy quarterHour 0 approved.run.data (reviewAt 40) := by
  have hstart : approved.run.data.startedAt = ⟨6 * 900000000, 0⟩ ∧
      approved.run.data.entryCutoff = some ⟨16 * 900000000, 0⟩ ∧
      ∀ k ∈ List.range 16, 6 ≤ k → Enclosed quarterHour 0 approved.run.data (k * 900000000) := by
    have hall : ∀ s ∈ approvedSession 16, s.run.data.startedAt = ⟨6 * 900000000, 0⟩ ∧
        s.run.data.entryCutoff = some ⟨16 * 900000000, 0⟩ ∧
        ∀ k ∈ List.range 16, 6 ≤ k → Enclosed quarterHour 0 s.run.data (k * 900000000) := by
      decide +kernel
    exact hall approved h
  intro bar hbar
  obtain ⟨hs, hcut, hall⟩ := hstart
  have hlow := hbar.started
  have hhigh := hbar.before _ (by rw [hcut]; rfl)
  obtain ⟨k, hk⟩ := hbar.grid
  have hp : quarterHour.period = 900000000 := rfl
  rw [hp] at hk
  rw [hs] at hlow
  dsimp only at hlow hhigh
  obtain ⟨n, rfl⟩ : ∃ n : ℕ, k = n := ⟨k.toNat, by omega⟩
  have hmem : n ∈ List.range 16 := List.mem_range.2 (by omega)
  have hbar : bar = (n : ℤ) * 900000000 := by omega
  rw [hbar]
  exact hall n hmem (by omega)

theorem approvedSession_some {cutoff : ℕ} {approved : PaperTrading}
    (h : approvedSession cutoff = some approved) :
    completePaperTrading (winningSession cutoff) ⟨2⟩ (reviewAt 40) = .ok approved ∧
      approved.version.paper = true := by
  obtain ⟨hok, hp⟩ := Option.filter_eq_some_iff.1 h
  exact ⟨toOption_eq_some.1 hok, hp⟩

/-- With the cutoff behind its last bar the session has stored every expected bar. -/
theorem approval_covers_window_sixteen :
    ∃ approved, completePaperTrading (winningSession 16) ⟨2⟩ (reviewAt 40) = .ok approved ∧
      approved.version.paper = true ∧
      Covered utcOnly alwaysStrategy quarterHour 0 approved.run.data (reviewAt 40) := by
  obtain ⟨approved, h⟩ := Option.isSome_iff_exists.1
    (show (approvedSession 16).isSome = true by decide +kernel)
  obtain ⟨hok, hp⟩ := approvedSession_some h
  exact ⟨approved, hok, hp, (approval_covers_window (startedSession_fresh 16) winningEvents ⟨2⟩
    (reviewAt 40) 0 hok hp).2 (enclosed_sixteen h)⟩

/-- **Approved with fourteen bars of its window unobserved**: the last tick comes at bar number 16,
the window ends at bar number 30, and the review at bar number 40 sees no gap. -/
theorem approved_unobserved :
    ∃ approved, completePaperTrading (winningSession 30) ⟨2⟩ (reviewAt 40) = .ok approved ∧
      approved.version.paper = true ∧
      ¬ Covered utcOnly alwaysStrategy quarterHour 0 approved.run.data (reviewAt 40) := by
  obtain ⟨approved, h⟩ := Option.isSome_iff_exists.1
    (show (approvedSession 30).isSome = true by decide +kernel)
  obtain ⟨hok, hp⟩ := approvedSession_some h
  have hall : ∀ s ∈ approvedSession 30, s.run.data.startedAt = ⟨6 * 900000000, 0⟩ ∧
      s.run.data.entryCutoff = some ⟨30 * 900000000, 0⟩ ∧
      ∀ c ∈ s.run.data.candles, c.observedAt.instant ≠ 20 * 900000000 := by
    decide +kernel
  obtain ⟨hs, hcut, hnone⟩ := hall approved h
  refine ⟨approved, hok, hp, fun hcov => ?_⟩
  have hbar : Expected utcOnly alwaysStrategy quarterHour 0 approved.run.data (reviewAt 40)
      (20 * 900000000) := by
    refine ⟨by decide, by rw [hs]; decide, fun cutoff hc => ?_, by decide, rfl⟩
    rw [hcut, Option.mem_some_iff] at hc
    subst hc
    decide
  obtain ⟨c, hc, heq⟩ := hcov _ hbar
  exact hnone c hc heq

end Matrades

import Matrades.Strategies.Proof.Sticky
import Matrades.Worker.Backtests

/-!
# A backtest run finishes once

A delivery that has marked its run as running and is still alive *owns* it. The limits of the tasks
and of the recovery keep the owner unique: whoever owned a run that is recovered after twenty minutes
has been killed (`Accounted.requeue`). So a run that has finished is never written again, and only the
latest run changes a version, while it is backtesting (`backtest_finishes_once`), unless a handler of
a delivery that never marked the run finds it taken, the recovery writes a run that has changed since
it was read, or the version is moved while its run is unfinished (`Undisturbed`). Without that a late
handler fails a run that has passed (`late_handler`).
-/

namespace Matrades

open Base

/-! ## Owners -/

/-- Has the delivery marked its run as running? -/
def DeliveryPhase.owner : DeliveryPhase → Bool
  | .working | .failing true => true
  | _ => false

namespace ValidationSystem

/-- The delivery is alive and has marked its run as running. -/
def Owns (s : ValidationSystem) (n : ℕ) (d : BacktestDelivery) : Prop :=
  s.alive? n = some d ∧ d.phase.owner = true

theorem alive?_eq_some {s : ValidationSystem} {n : ℕ} {d : BacktestDelivery} :
    s.alive? n = some d ↔ s.deliveries.get? n = some d ∧ s.now < d.begunAt + taskLimit := by
  simp [alive?, Option.filter_eq_some_iff]

theorem owns_setPhase {s : ValidationSystem} {n m : ℕ} {d e : BacktestDelivery}
    {phase : DeliveryPhase} (h : (s.setPhase n d phase).Owns m e) :
    m = n ∧ e = { d with phase } ∧ phase.owner = true ∨ m ≠ n ∧ s.Owns m e := by
  obtain ⟨halive, howner⟩ := h
  obtain ⟨hget, hlimit⟩ := alive?_eq_some.1 halive
  by_cases hm : m = n
  · subst hm
    rw [setPhase, Dict.get?_set_self] at hget
    cases hget
    exact .inl ⟨rfl, rfl, howner⟩
  · rw [setPhase, Dict.get?_set_ne _ _ hm] at hget
    exact .inr ⟨hm, alive?_eq_some.2 ⟨hget, hlimit⟩, howner⟩

end ValidationSystem

/-! ## The condition and the invariant -/

/-- **The steps that leave finished work alone.** A handler of a delivery that has not marked its run
finds it queued; the recovery finds a run as it has read it; a version is not moved while its latest
run is unfinished. -/
def Undisturbed (s : ValidationSystem) : ValidationEvent → Prop
  | .markFailed n => ∀ d ∈ s.deliveries.get? n, d.phase = .failing false →
      ∀ run ∈ s.store.backtests.get? d.backtestId, run.state = .queued
  | .requeue k => ∀ read ∈ s.recovering[k]?,
      s.store.backtests.get? read.1 = some read.2
  | .transition _ => ∀ backtestId ∈ s.store.version.latestBacktestId,
      ∀ run ∈ s.store.backtests.get? backtestId, run.state.terminal = true
  | _ => True

/-- What undisturbed steps keep. -/
structure Accounted (s : ValidationSystem) : Prop where
  begun : ∀ n d, s.deliveries.get? n = some d → d.begunAt ≤ s.now
  owned : ∀ n d, s.Owns n d → ∃ run startedAt, s.store.backtests.get? d.backtestId = some run ∧
    run.state = .running ∧ run.startedAt = some startedAt ∧ d.begunAt ≤ startedAt
  one : ∀ n m d e, s.Owns n d → s.Owns m e → d.backtestId = e.backtestId → n = m
  latest : ∀ backtestId run, s.store.backtests.get? backtestId = some run →
    run.state.terminal = false → s.store.version.latestBacktestId = some backtestId →
      s.store.version.state = .backtesting
  known : ∀ backtestId, (s.store.backtests.get? backtestId).isSome = true →
    s.store.version.latestBacktestId.isSome = true
  read : ∀ entry ∈ s.recovering, ValidationSystem.lost s.now entry.2 = true

/-- No runs yet, and nothing under way. -/
structure NoBacktests (s : ValidationSystem) : Prop where
  backtests : s.store.backtests = Dict.empty
  deliveries : s.deliveries = Dict.empty
  recovering : s.recovering = []

theorem NoBacktests.accounted {s : ValidationSystem} (h : NoBacktests s) : Accounted s where
  begun := by simp [h.deliveries]
  owned := by simp [ValidationSystem.Owns, ValidationSystem.alive?, h.deliveries]
  one := by simp [ValidationSystem.Owns, ValidationSystem.alive?, h.deliveries]
  latest := by simp [h.backtests]
  known := by simp [h.backtests]
  read := by simp [h.recovering]

/-- The finished runs stay as they are. -/
def KeepsFinished (s s' : ValidationStore) : Prop :=
  ∀ backtestId run, s.backtests.get? backtestId = some run → run.state.terminal = true →
    s'.backtests.get? backtestId = some run

theorem KeepsFinished.refl (s : ValidationStore) : KeepsFinished s s := fun _ _ h _ => h

theorem keepsFinished_set {s : ValidationStore} {backtestId : Uuid} {run run' : BacktestRun}
    {version : StrategyVersion} {paperRuns : Dict Uuid PaperRun}
    (h : s.backtests.get? backtestId = some run) (hopen : run.state.terminal = false) :
    KeepsFinished s ⟨version, s.backtests.set backtestId run', paperRuns⟩ := by
  intro other run'' hget hterm
  have hne : other ≠ backtestId := by
    rintro rfl
    rw [h] at hget
    cases hget
    rw [hopen] at hterm
    cases hterm
  show (s.backtests.set backtestId run').get? other = some run''
  rw [Dict.get?_set_ne _ _ hne]
  exact hget

/-! ## Steps that leave the runs alone -/

/-- The runs stay, and a version that is backtesting goes on. -/
structure KeepsRuns (s s' : ValidationStore) : Prop where
  backtests : s'.backtests = s.backtests
  latest : s'.version.latestBacktestId = s.version.latestBacktestId
  backtesting : s.version.state = .backtesting → s'.version.state = .backtesting

theorem KeepsRuns.refl (s : ValidationStore) : KeepsRuns s s := ⟨rfl, rfl, id⟩

theorem KeepsRuns.keepsFinished {s s' : ValidationStore} (h : KeepsRuns s s') :
    KeepsFinished s s' := by
  intro backtestId run hget _
  rw [h.backtests]
  exact hget

section
variable {s s' : ValidationSystem}

/-- **Deliveries that take no run.** -/
theorem Accounted.frame (h : Accounted s) (hstore : KeepsRuns s.store s'.store)
    (hbegun : ∀ n d, s'.deliveries.get? n = some d → d.begunAt ≤ s'.now)
    (howns : ∀ n e, s'.Owns n e → ∃ d, s.Owns n d ∧ d.backtestId = e.backtestId ∧
      d.begunAt = e.begunAt)
    (hread : ∀ entry ∈ s'.recovering, ValidationSystem.lost s'.now entry.2 = true) :
    Accounted s' where
  begun := hbegun
  owned := by
    intro n e he
    obtain ⟨d, hd, hid, hbegan⟩ := howns n e he
    rw [hstore.backtests, ← hid, ← hbegan]
    exact h.owned n d hd
  one := by
    intro n m d e hd he heq
    obtain ⟨d', hd', hid, -⟩ := howns n d hd
    obtain ⟨e', he', hid', -⟩ := howns m e he
    exact h.one n m d' e' hd' he' (by rw [hid, hid', heq])
  latest := by
    intro backtestId run hget hopen hlatest
    rw [hstore.backtests] at hget
    rw [hstore.latest] at hlatest
    exact hstore.backtesting (h.latest backtestId run hget hopen hlatest)
  known := by
    intro backtestId hsome
    rw [hstore.backtests] at hsome
    rw [hstore.latest]
    exact h.known backtestId hsome
  read := hread

/-- A request that leaves the runs alone. -/
theorem Accounted.request (h : Accounted s) {store : ValidationStore}
    (hstore : KeepsRuns s.store store) : Accounted { s with store } :=
  h.frame hstore h.begun (fun _ d hd => ⟨d, hd, rfl, rfl⟩) h.read

theorem begun_setPhase (h : Accounted s) {n : ℕ} {d : BacktestDelivery} (phase : DeliveryPhase)
    (hd : s.alive? n = some d) :
    ∀ m e, (s.setPhase n d phase).deliveries.get? m = some e → e.begunAt ≤ s.now := by
  intro m e he
  by_cases hm : m = n
  · subst hm
    rw [ValidationSystem.setPhase, Dict.get?_set_self] at he
    cases he
    exact h.begun m d (ValidationSystem.alive?_eq_some.1 hd).1
  · rw [ValidationSystem.setPhase, Dict.get?_set_ne _ _ hm] at he
    exact h.begun m e he

/-- A delivery goes on without taking a run. -/
theorem Accounted.setPhase (h : Accounted s) {n : ℕ} {d : BacktestDelivery} {phase : DeliveryPhase}
    (hd : s.alive? n = some d) (hphase : phase.owner = true → d.phase.owner = true) :
    Accounted (s.setPhase n d phase) := by
  refine h.frame ?_ (begun_setPhase h phase hd) ?_ h.read
  · exact KeepsRuns.refl _
  intro m e he
  rcases ValidationSystem.owns_setPhase he with ⟨rfl, rfl, howner⟩ | ⟨-, he⟩
  · exact ⟨d, ⟨hd, hphase howner⟩, rfl, rfl⟩
  · exact ⟨e, he, rfl, rfl⟩

/-! ## Finishing a run -/

/-- A delivery finishes an unfinished run that nobody else owns. -/
theorem Accounted.finish (h : Accounted s) {n : ℕ} {d : BacktestDelivery} {phase : DeliveryPhase}
    {run' : BacktestRun} {store : ValidationStore} (hd : s.alive? n = some d)
    (hphase : phase.owner = false)
    (hothers : ∀ m e, m ≠ n → s.Owns m e → e.backtestId ≠ d.backtestId)
    (hruns : store.backtests = s.store.backtests.set d.backtestId run')
    (hfinished : run'.state.terminal = true)
    (hversion : store.version = s.store.version ∧
        s.store.version.latestBacktestId ≠ some d.backtestId ∨
      store.version.latestBacktestId = some d.backtestId)
    (hknown : s.store.version.latestBacktestId.isSome = true) :
    Accounted { s.setPhase n d phase with store } := by
  have howns : ∀ m e, ValidationSystem.Owns { s.setPhase n d phase with store } m e →
      m ≠ n ∧ s.Owns m e := by
    intro m e he
    rcases ValidationSystem.owns_setPhase (s := s) he with ⟨-, -, howner⟩ | he
    · rw [hphase] at howner
      cases howner
    · exact he
  constructor
  · exact begun_setPhase h phase hd
  · intro m e he
    obtain ⟨hm, he⟩ := howns m e he
    show ∃ run startedAt, store.backtests.get? e.backtestId = some run ∧ _
    rw [hruns, Dict.get?_set_ne _ _ (hothers m e hm he)]
    exact h.owned m e he
  · intro m m' e e' he he' heq
    exact h.one m m' e e' (howns m e he).2 (howns m' e' he').2 heq
  · intro backtestId run hget hopen hlatest
    change store.backtests.get? backtestId = some run at hget
    change store.version.latestBacktestId = some backtestId at hlatest
    show store.version.state = .backtesting
    have hne : backtestId ≠ d.backtestId := by
      rintro rfl
      rw [hruns, Dict.get?_set_self] at hget
      cases hget
      rw [hfinished] at hopen
      cases hopen
    rcases hversion with ⟨hsame, -⟩ | hlast
    · rw [hruns, Dict.get?_set_ne _ _ hne] at hget
      rw [hsame] at hlatest ⊢
      exact h.latest backtestId run hget hopen hlatest
    · rw [hlast] at hlatest
      cases hlatest
      exact absurd rfl hne
  · intro _ _
    show store.version.latestBacktestId.isSome = true
    rcases hversion with ⟨hsame, -⟩ | hlast
    · rw [hsame]
      exact hknown
    · rw [hlast]
      rfl
  · exact h.read

/-- The other owners have other runs. -/
theorem Accounted.others (h : Accounted s) {n : ℕ} {d : BacktestDelivery} (hd : s.Owns n d) :
    ∀ m e, m ≠ n → s.Owns m e → e.backtestId ≠ d.backtestId :=
  fun m e hm he heq => hm (h.one m n e d he hd heq)

/-- A run that is not running has no owner. -/
theorem Accounted.no_owner (h : Accounted s) {backtestId : Uuid} {run : BacktestRun}
    (hrun : s.store.backtests.get? backtestId = some run) (hstate : run.state ≠ .running) :
    ∀ m e, s.Owns m e → e.backtestId ≠ backtestId := by
  rintro m e he rfl
  obtain ⟨run', _, hget, hrunning, -⟩ := h.owned m e he
  rw [hrun] at hget
  cases hget
  exact hstate hrunning

/-! ## The steps of a delivery -/

/-- What a step keeps and leaves alone. -/
structure SafeStep (s s' : ValidationSystem) : Prop where
  accounted : Accounted s'
  finished : KeepsFinished s.store s'.store

/-- Nothing is done. -/
theorem Accounted.safe (h : Accounted s) : SafeStep s s := ⟨h, KeepsFinished.refl _⟩

theorem Accounted.safe_setPhase (h : Accounted s) {n : ℕ} {d : BacktestDelivery}
    {phase : DeliveryPhase} (hd : s.alive? n = some d)
    (hphase : phase.owner = true → d.phase.owner = true) : SafeStep s (s.setPhase n d phase) :=
  ⟨h.setPhase hd hphase, KeepsFinished.refl _⟩

theorem Accounted.deliver (h : Accounted s) (n : ℕ) (backtestId : Uuid) :
    SafeStep s (s.deliver n backtestId) := by
  unfold ValidationSystem.deliver
  split
  · exact h.safe
  · refine ⟨h.frame (KeepsRuns.refl _) ?_ ?_ h.read, KeepsFinished.refl _⟩
    · intro m e he
      by_cases hm : m = n
      · subst hm
        rw [Dict.get?_set_self] at he
        cases he
        exact le_refl _
      · rw [Dict.get?_set_ne _ _ hm] at he
        exact h.begun m e he
    · intro m e ⟨halive, howner⟩
      obtain ⟨hget, hlimit⟩ := ValidationSystem.alive?_eq_some.1 halive
      by_cases hm : m = n
      · subst hm
        rw [Dict.get?_set_self] at hget
        cases hget
        cases howner
      · rw [Dict.get?_set_ne _ _ hm] at hget
        exact ⟨e, ⟨ValidationSystem.alive?_eq_some.2 ⟨hget, hlimit⟩, howner⟩, rfl, rfl⟩

/-- **A delivery takes a queued run, which has no owner.** -/
theorem Accounted.start (h : Accounted s) (n : ℕ) : SafeStep s (s.start n) := by
  unfold ValidationSystem.start
  split
  · exact h.safe
  rename_i d hd
  split
  · exact h.safe
  split
  · exact h.safe_setPhase hd nofun
  rename_i run hrun
  split
  · exact h.safe_setPhase hd nofun
  rename_i hstate
  rw [not_not] at hstate
  have hnone := h.no_owner hrun (by rw [hstate]; decide)
  have howns : ∀ m e, ValidationSystem.Owns { s.setPhase n d .working with
      store := startBacktest s.store d.backtestId run s.now } m e →
      m = n ∧ e = { d with phase := .working } ∨ m ≠ n ∧ s.Owns m e := by
    intro m e he
    rcases ValidationSystem.owns_setPhase (s := s) he with ⟨hm, heq, -⟩ | he
    · exact .inl ⟨hm, heq⟩
    · exact .inr he
  refine ⟨⟨begun_setPhase h _ hd, ?_, ?_, ?_, ?_, h.read⟩, ?_⟩
  · intro m e he
    show ∃ run' startedAt, (s.store.backtests.set d.backtestId _).get? e.backtestId = some run' ∧ _
    rcases howns m e he with ⟨rfl, rfl⟩ | ⟨-, he⟩
    · exact ⟨_, s.now, Dict.get?_set_self _ _ _, rfl, rfl,
        h.begun m d (ValidationSystem.alive?_eq_some.1 hd).1⟩
    · rw [Dict.get?_set_ne _ _ (hnone m e he)]
      exact h.owned m e he
  · intro m m' e e' he he' heq
    rcases howns m e he with ⟨rfl, rfl⟩ | ⟨-, hm⟩ <;>
      rcases howns m' e' he' with ⟨rfl, rfl⟩ | ⟨-, hm'⟩
    · rfl
    · exact absurd heq.symm (hnone _ _ hm')
    · exact absurd heq (hnone _ _ hm)
    · exact h.one _ _ _ _ hm hm' heq
  · intro backtestId run' hget hopen hlatest
    change (s.store.backtests.set d.backtestId _).get? backtestId = some run' at hget
    by_cases heq : backtestId = d.backtestId
    · subst heq
      exact h.latest _ run hrun (by rw [hstate]; rfl) hlatest
    · rw [Dict.get?_set_ne _ _ heq] at hget
      exact h.latest backtestId run' hget hopen hlatest
  · intro _ _
    exact h.known d.backtestId (by rw [hrun]; rfl)
  · exact keepsFinished_set hrun (by rw [hstate]; rfl)

theorem outcome_terminal (outcome : BacktestOutcome) : outcome.state.terminal = true := by
  unfold BacktestOutcome.state
  split
  · rfl
  split <;> rfl

/-- Only the latest run's completion writes the version. -/
theorem completeBacktest_version (store : ValidationStore) (backtestId : Uuid) (run : BacktestRun)
    (outcome : BacktestOutcome) :
    (completeBacktest store backtestId run outcome).version = store.version ∧
        store.version.latestBacktestId ≠ some backtestId ∨
      store.version.latestBacktestId = some backtestId ∧
        (completeBacktest store backtestId run outcome).version.latestBacktestId =
          some backtestId := by
  unfold completeBacktest
  split
  · exact .inl ⟨rfl, ‹_›⟩
  · rename_i hlatest
    rw [not_not] at hlatest
    exact .inr ⟨hlatest, hlatest⟩

theorem completeBacktest_backtests (store : ValidationStore) (backtestId : Uuid) (run : BacktestRun)
    (outcome : BacktestOutcome) :
    ∃ run', run'.state = outcome.state ∧
      (completeBacktest store backtestId run outcome).backtests =
        store.backtests.set backtestId run' := by
  unfold completeBacktest
  split <;> exact ⟨_, rfl, rfl⟩

theorem markBacktestFailed_version {store : ValidationStore} {backtestId : Uuid} {run : BacktestRun}
    (hknown : store.version.latestBacktestId.isSome = true) :
    (markBacktestFailed store backtestId run).version = store.version ∧
        store.version.latestBacktestId ≠ some backtestId ∨
      store.version.latestBacktestId = some backtestId ∧
        (markBacktestFailed store backtestId run).version.latestBacktestId = some backtestId := by
  unfold markBacktestFailed
  split
  · rename_i h
    exact .inl ⟨rfl, h.2⟩
  · rename_i h
    refine .inr ⟨?_, rfl⟩
    by_contra hne
    refine h ⟨?_, hne⟩
    intro hnone
    rw [hnone] at hknown
    cases hknown

theorem markBacktestFailed_backtests (store : ValidationStore) (backtestId : Uuid)
    (run : BacktestRun) :
    (markBacktestFailed store backtestId run).backtests =
      store.backtests.set backtestId { run with state := .failed } := by
  unfold markBacktestFailed
  split <;> rfl

theorem keepsFinished_of_backtests {store store' : ValidationStore} {backtestId : Uuid}
    {run run' : BacktestRun} (h : store.backtests.get? backtestId = some run)
    (hopen : run.state.terminal = false)
    (hruns : store'.backtests = store.backtests.set backtestId run') :
    KeepsFinished store store' := by
  intro other run'' hget hterm
  rw [hruns]
  have hkeep : KeepsFinished store
      ⟨store.version, store.backtests.set backtestId run', store.paperRuns⟩ :=
    keepsFinished_set h hopen
  exact hkeep other run'' hget hterm

/-- **The owner completes its run.** -/
theorem Accounted.complete (h : Accounted s) (n : ℕ) (outcome : BacktestOutcome) :
    SafeStep s (s.complete n outcome) := by
  unfold ValidationSystem.complete
  split
  · exact h.safe
  rename_i d hd
  split
  · exact h.safe
  rename_i hphase
  rw [not_not] at hphase
  have howns : s.Owns n d := ⟨hd, by rw [hphase]; rfl⟩
  split
  · exact h.safe_setPhase hd fun _ => howns.2
  rename_i run hrun
  obtain ⟨run', _, hget, hrunning, -⟩ := h.owned n d howns
  rw [hrun] at hget
  cases hget
  obtain ⟨done, hdone, hruns⟩ := completeBacktest_backtests s.store d.backtestId run outcome
  constructor
  · apply h.finish hd rfl (h.others howns) hruns
    · rw [hdone]
      exact outcome_terminal outcome
    · exact (completeBacktest_version s.store d.backtestId run outcome).imp_right And.right
    · exact h.known d.backtestId (by rw [hrun]; rfl)
  · exact keepsFinished_of_backtests hrun (by rw [hrunning]; rfl) hruns

theorem Accounted.throw (h : Accounted s) (n : ℕ) : SafeStep s (s.throw n) := by
  unfold ValidationSystem.throw
  split
  · exact h.safe
  rename_i d hd
  split
  · exact h.safe_setPhase hd nofun
  · rename_i hphase
    exact h.safe_setPhase hd fun _ => by rw [hphase]; rfl
  · exact h.safe_setPhase hd nofun
  · exact h.safe_setPhase hd nofun
  · exact h.safe

/-- **A handler fails the run its delivery owns, or a queued one.** -/
theorem Accounted.markFailed (h : Accounted s) {n : ℕ} (hg : Undisturbed s (.markFailed n)) :
    SafeStep s (s.markFailed n) := by
  unfold ValidationSystem.markFailed
  split
  · exact h.safe
  rename_i d hd
  split
  · rename_i marked hphase
    split
    · exact h.safe_setPhase hd nofun
    rename_i run hrun
    have hopen : run.state.terminal = false ∧
        ∀ m e, m ≠ n → s.Owns m e → e.backtestId ≠ d.backtestId := by
      cases marked with
      | true =>
        have howns : s.Owns n d := ⟨hd, by rw [hphase]; rfl⟩
        obtain ⟨run', _, hget, hrunning, -⟩ := h.owned n d howns
        rw [hrun] at hget
        cases hget
        exact ⟨by rw [hrunning]; rfl, h.others howns⟩
      | false =>
        have hqueued := hg d (ValidationSystem.alive?_eq_some.1 hd).1 hphase run hrun
        exact ⟨by rw [hqueued]; rfl,
          fun m e _ => h.no_owner hrun (by rw [hqueued]; decide) m e⟩
    have hknown := h.known d.backtestId (by rw [hrun]; rfl)
    constructor
    · apply h.finish hd rfl hopen.2 (markBacktestFailed_backtests _ _ _) rfl
      · exact (markBacktestFailed_version hknown).imp_right And.right
      · exact hknown
    · exact keepsFinished_of_backtests hrun hopen.1 (markBacktestFailed_backtests _ _ _)
  · exact h.safe

/-! ## The recovery -/

theorem lost_iff {asOf : Time} {run : BacktestRun} :
    ValidationSystem.lost asOf run = true ↔ run.state = .running ∧
      ∃ startedAt, run.startedAt = some startedAt ∧ startedAt + recoveryDelay < asOf := by
  unfold ValidationSystem.lost
  rw [Bool.and_eq_true, decide_eq_true_eq, Option.any_eq_true]
  simp only [decide_eq_true_eq]

theorem lost_mono {asOf now : Time} {run : BacktestRun} (hle : asOf ≤ now)
    (h : ValidationSystem.lost asOf run = true) : ValidationSystem.lost now run = true := by
  obtain ⟨hrunning, startedAt, hstart, hlate⟩ := lost_iff.1 h
  exact lost_iff.2 ⟨hrunning, startedAt, hstart, Nat.lt_of_lt_of_le hlate hle⟩

theorem Accounted.recover (h : Accounted s) (asOf : Time) : SafeStep s (s.recover asOf) := by
  unfold ValidationSystem.recover
  split
  · exact h.safe
  · rename_i hle
    refine ⟨h.frame (KeepsRuns.refl _) h.begun (fun _ d hd => ⟨d, hd, rfl, rfl⟩) ?_,
      KeepsFinished.refl _⟩
    intro entry hentry
    rcases List.mem_append.1 hentry with hentry | hentry
    · exact h.read entry hentry
    · exact lost_mono (not_lt.1 hle) (List.mem_filter.1 hentry).2

theorem taskLimit_le : taskLimit ≤ recoveryDelay := by
  norm_num [taskLimit, recoveryDelay, minute, second]

/-- **Whoever owned a run that has been running for twenty minutes has been killed.** -/
theorem Accounted.lost_no_owner (h : Accounted s) {backtestId : Uuid} {run : BacktestRun}
    (hrun : s.store.backtests.get? backtestId = some run)
    (hlost : ValidationSystem.lost s.now run = true) :
    ∀ m e, s.Owns m e → e.backtestId ≠ backtestId := by
  rintro m e he rfl
  obtain ⟨run', startedAt, hget, -, hstart, hbegan⟩ := h.owned m e he
  rw [hrun] at hget
  cases hget
  have hlimit := (ValidationSystem.alive?_eq_some.1 he.1).2
  obtain ⟨-, at', hat, hlate⟩ := lost_iff.1 hlost
  rw [hstart] at hat
  cases hat
  have hkilled : e.begunAt + taskLimit ≤ startedAt + recoveryDelay :=
    Nat.add_le_add hbegan taskLimit_le
  exact Nat.lt_asymm hlate (Nat.lt_of_lt_of_le hlimit hkilled)

/-- A run nobody owns is queued again. -/
theorem Accounted.requeue (h : Accounted s) {k : ℕ} (hg : Undisturbed s (.requeue k)) :
    SafeStep s (s.requeue k) := by
  unfold ValidationSystem.requeue
  split
  · exact h.safe
  rename_i backtestId run hk
  have hrun : s.store.backtests.get? backtestId = some run := hg _ hk
  have hlost := h.read _ (List.mem_of_getElem? hk)
  have hrunning := (lost_iff.1 hlost).1
  have hnone := h.lost_no_owner hrun hlost
  refine ⟨⟨h.begun, ?_, h.one, ?_, ?_, ?_⟩, ?_⟩
  · intro m e he
    show ∃ run' startedAt, (s.store.backtests.set backtestId _).get? e.backtestId = some run' ∧ _
    rw [Dict.get?_set_ne _ _ (hnone m e he)]
    exact h.owned m e he
  · intro other run' hget hopen hlatest
    change (s.store.backtests.set backtestId _).get? other = some run' at hget
    by_cases heq : other = backtestId
    · subst heq
      exact h.latest _ run hrun (by rw [hrunning]; rfl) hlatest
    · rw [Dict.get?_set_ne _ _ heq] at hget
      exact h.latest other run' hget hopen hlatest
  · intro _ _
    exact h.known backtestId (by rw [hrun]; rfl)
  · intro entry hentry
    exact h.read entry (List.mem_of_mem_eraseIdx hentry)
  · exact keepsFinished_of_backtests hrun (by rw [hrunning]; rfl) rfl

end

/-! ## The lifecycle requests -/

section
variable {store store' : ValidationStore}

theorem startPaperTrading_keeps {paperRunId : Uuid} {now entryCutoff : AwareTime}
    (h : startPaperTrading store paperRunId now entryCutoff = .ok store') : KeepsRuns store store' := by
  unfold startPaperTrading at h
  split at h
  · cases h
    exact KeepsRuns.refl _
  split at h
  · cases h
  rename_i hstate
  rw [not_not] at hstate
  split at h
  · cases h
  split at h
  · cases h
  split at h
  · cases h
  split at h
  · cases h
  · cases h
    exact ⟨rfl, rfl, fun hb => by rw [hstate] at hb; cases hb⟩

theorem stopEntries_keeps {paperRunId : Uuid} {now : AwareTime}
    (h : stopEntries store paperRunId now = .ok store') : KeepsRuns store store' := by
  unfold stopEntries at h
  split at h
  · cases h
  split at h
  · cases h
  · cases h
    exact ⟨rfl, rfl, id⟩

/-- Only a version in paper trading is reviewed. -/
theorem reviewRefused_ne_none {session : PaperTrading} {paperRunId : Uuid} {now : AwareTime}
    (h : session.version.state ≠ .paperTrading) : reviewRefused session paperRunId now ≠ none := by
  unfold reviewRefused
  dsimp only
  split
  · simp
  split
  · simp
  rw [if_pos (Or.inl h)]
  simp

theorem reviewed_paperTrading {session reviewed : PaperTrading} {paperRunId : Uuid}
    {now : AwareTime} (h : completePaperTrading session paperRunId now = .ok reviewed) :
    session.version.state = .paperTrading := by
  unfold completePaperTrading at h
  split at h
  · cases h
  split at h
  · cases h
  rename_i hnone
  by_contra hstate
  exact reviewRefused_ne_none hstate hnone

theorem completePaper_keeps {paperRunId : Uuid} {now : AwareTime}
    (h : completePaper store paperRunId now = .ok store') : KeepsRuns store store' := by
  unfold completePaper at h
  split at h
  · cases h
  rename_i session hsession
  split at h
  · cases h
  rename_i reviewed hreviewed
  cases h
  refine ⟨rfl, rfl, fun hb => ?_⟩
  obtain ⟨run, -, rfl⟩ := Option.map_eq_some_iff.1 hsession
  have hpaper : store.version.state = .paperTrading := reviewed_paperTrading hreviewed
  rw [hb] at hpaper
  cases hpaper

theorem promote_keeps (h : promote store = .ok store') : KeepsRuns store store' := by
  unfold promote at h
  dsimp only at h
  split at h
  · cases h
  rename_i hready
  split at h
  · cases h
  split at h
  · cases h
  · cases h
    refine ⟨rfl, rfl, fun hb => ?_⟩
    exfalso
    apply hready
    right
    left
    rw [hb]
    decide

variable (library : TechnicalLibrary) (zones : ZoneInfo) (spec : StrategySpecification)
  (tf : Timeframe) (configuration : BacktestConfiguration)

theorem evaluateVersion_keeps (tick : Tick) (health : Option Bool) :
    KeepsRuns store (evaluateVersion library zones spec tf configuration store tick health) := by
  unfold evaluateVersion
  dsimp only
  split
  · split
    · exact ⟨rfl, rfl, id⟩
    · split <;> exact ⟨rfl, rfl, id⟩
  · rename_i hactive
    split
    · exact ⟨rfl, rfl, id⟩
    split
    · exact ⟨rfl, rfl, id⟩
    · exact ⟨rfl, rfl, fun hb => by rw [hactive] at hb; cases hb⟩
  · exact KeepsRuns.refl _

end

section
variable {s : ValidationSystem}

theorem Accounted.safe_request (h : Accounted s) {response : Except HttpException ValidationStore}
    (hkeeps : ∀ store, response = .ok store → KeepsRuns s.store store) :
    SafeStep s (s.request response) := by
  cases response with
  | error refused => exact h.safe
  | ok store => exact ⟨h.request (hkeeps store rfl), (hkeeps store rfl).keepsFinished⟩

/-- **A new run makes the version backtest.** -/
theorem Accounted.createBacktest (h : Accounted s) {backtestId : Uuid}
    (hnew : s.store.backtests.get? backtestId = none) :
    SafeStep s (s.request (Matrades.createBacktest s.store backtestId)) := by
  unfold Matrades.createBacktest
  split
  · exact h.safe
  · refine ⟨⟨h.begun, ?_, h.one, ?_, ?_, h.read⟩, ?_⟩
    · intro m e he
      obtain ⟨run, startedAt, hget, hrest⟩ := h.owned m e he
      refine ⟨run, startedAt, ?_, hrest⟩
      show (s.store.backtests.set backtestId _).get? e.backtestId = some run
      rw [Dict.get?_set_ne, hget]
      intro heq
      rw [heq, hnew] at hget
      cases hget
    · exact fun _ _ _ _ _ => rfl
    · exact fun _ _ => rfl
    · intro other run hget _
      show (s.store.backtests.set backtestId _).get? other = some run
      rw [Dict.get?_set_ne, hget]
      rintro rfl
      rw [hnew] at hget
      cases hget

theorem Accounted.transition (h : Accounted s) {target : StrategyState}
    (hg : Undisturbed s (.transition target)) :
    SafeStep s (s.request (transitionStrategy s.store target)) := by
  unfold transitionStrategy
  split
  · exact h.safe
  split
  · exact h.safe
  · refine ⟨⟨h.begun, h.owned, h.one, ?_, h.known, h.read⟩, KeepsFinished.refl _⟩
    intro backtestId run hget hopen hlatest
    rw [hg backtestId hlatest run hget] at hopen
    cases hopen

/-! ## Runs -/

section
variable {library : TechnicalLibrary} {zones : ZoneInfo} {spec : StrategySpecification}
  {tf : Timeframe} {configuration : BacktestConfiguration}

/-- **Undisturbed steps leave finished runs alone.** -/
theorem Accounted.step (h : Accounted s) {event : ValidationEvent} (hg : Undisturbed s event) :
    SafeStep s (s.step library zones spec tf configuration event) := by
  cases event with
  | wait duration =>
    have hle : s.now ≤ s.now + duration := Nat.le_add_right _ _
    refine ⟨h.frame (KeepsRuns.refl _) (fun n d hd => le_trans (h.begun n d hd) hle) ?_
      (fun entry hentry => lost_mono hle (h.read entry hentry)), KeepsFinished.refl _⟩
    intro n d ⟨halive, howner⟩
    obtain ⟨hget, hlimit⟩ := ValidationSystem.alive?_eq_some.1 halive
    exact ⟨d, ⟨ValidationSystem.alive?_eq_some.2 ⟨hget, lt_of_le_of_lt hle hlimit⟩, howner⟩,
      rfl, rfl⟩
  | deliver n backtestId => exact h.deliver n backtestId
  | start n => exact h.start n
  | complete n outcome => exact h.complete n outcome
  | throw n => exact h.throw n
  | markFailed n => exact h.markFailed hg
  | recover asOf => exact h.recover asOf
  | requeue k => exact h.requeue hg
  | createBacktest backtestId =>
    show SafeStep s (if (s.store.backtests.get? backtestId).isSome then s
      else s.request (Matrades.createBacktest s.store backtestId))
    split
    · exact h.safe
    · exact h.createBacktest (Option.not_isSome_iff_eq_none.1 ‹_›)
  | transition target => exact h.transition hg
  | startPaper paperRunId now entryCutoff =>
    show SafeStep s (if (s.store.paperRuns.get? paperRunId).isSome then s
      else s.request (startPaperTrading s.store paperRunId now entryCutoff))
    split
    · exact h.safe
    · exact h.safe_request fun _ => startPaperTrading_keeps
  | stopEntries paperRunId now => exact h.safe_request fun _ => stopEntries_keeps
  | completePaper paperRunId now => exact h.safe_request fun _ => completePaper_keeps
  | promote => exact h.safe_request fun _ => promote_keeps
  | evaluate tick health =>
    have hkeeps : KeepsRuns s.store
        (Matrades.evaluateVersion library zones spec tf configuration s.store tick health) :=
      evaluateVersion_keeps library zones spec tf configuration tick health
    exact ⟨h.request hkeeps, hkeeps.keepsFinished⟩

/-- A completion or a failure of a run writes the version. -/
def FinishesLatest (library : TechnicalLibrary) (zones : ZoneInfo) (spec : StrategySpecification)
    (tf : Timeframe) (configuration : BacktestConfiguration) (s : ValidationSystem)
    (event : ValidationEvent) : Prop :=
  ∀ n, (event = .markFailed n ∨ ∃ outcome, event = .complete n outcome) →
    ∀ d, s.deliveries.get? n = some d →
      (s.step library zones spec tf configuration event).store.version ≠ s.store.version →
        s.store.version.latestBacktestId = some d.backtestId ∧
          s.store.version.state = .backtesting

/-- **Only the latest run's end writes the version, which is backtesting.** -/
theorem Accounted.finishesLatest (h : Accounted s) {event : ValidationEvent}
    (hg : Undisturbed s event) :
    FinishesLatest library zones spec tf configuration s event := by
  rintro n (rfl | ⟨outcome, rfl⟩) d hget hchanged
  · change (s.markFailed n).store.version ≠ s.store.version at hchanged
    unfold ValidationSystem.markFailed at hchanged
    split at hchanged
    · exact absurd rfl hchanged
    rename_i d' hd
    obtain ⟨hget', hlimit⟩ := ValidationSystem.alive?_eq_some.1 hd
    rw [hget] at hget'
    cases hget'
    split at hchanged
    · rename_i marked hphase
      split at hchanged
      · exact absurd rfl hchanged
      rename_i run hrun
      have hknown : s.store.version.latestBacktestId.isSome = true :=
        h.known d.backtestId (by rw [hrun]; rfl)
      rcases @markBacktestFailed_version s.store d.backtestId run hknown with
        ⟨hsame, -⟩ | ⟨hlatest, -⟩
      · exact absurd hsame hchanged
      · refine ⟨hlatest, h.latest d.backtestId run hrun ?_ hlatest⟩
        cases marked with
        | true =>
          obtain ⟨run', _, hrun', hrunning, -⟩ := h.owned n d ⟨hd, by rw [hphase]; rfl⟩
          rw [hrun] at hrun'
          cases hrun'
          rw [hrunning]
          rfl
        | false =>
          rw [hg d hget hphase run hrun]
          rfl
    · exact absurd rfl hchanged
  · change (s.complete n outcome).store.version ≠ s.store.version at hchanged
    unfold ValidationSystem.complete at hchanged
    split at hchanged
    · exact absurd rfl hchanged
    rename_i d' hd
    obtain ⟨hget', hlimit⟩ := ValidationSystem.alive?_eq_some.1 hd
    rw [hget] at hget'
    cases hget'
    split at hchanged
    · exact absurd rfl hchanged
    rename_i hphase
    rw [not_not] at hphase
    split at hchanged
    · exact absurd rfl hchanged
    rename_i run hrun
    rcases completeBacktest_version s.store d.backtestId run outcome with
      ⟨hsame, -⟩ | ⟨hlatest, -⟩
    · exact absurd hsame hchanged
    · refine ⟨hlatest, h.latest d.backtestId run hrun ?_ hlatest⟩
      obtain ⟨run', _, hrun', hrunning, -⟩ := h.owned n d ⟨hd, by rw [hphase]; rfl⟩
      rw [hrun] at hrun'
      cases hrun'
      rw [hrunning]
      rfl

theorem accounted_run (h : Accounted s) {events : List ValidationEvent}
    (hg : Along (ValidationSystem.step library zones spec tf configuration) Undisturbed s events) :
    Accounted (run (ValidationSystem.step library zones spec tf configuration) s events) :=
  run_inv (fun _ _ h hg => (h.step hg).accounted) h hg

theorem keepsFinished_run (h : Accounted s) {events : List ValidationEvent}
    (hg : Along (ValidationSystem.step library zones spec tf configuration) Undisturbed s events) :
    KeepsFinished s.store
      (run (ValidationSystem.step library zones spec tf configuration) s events).store := by
  induction events generalizing s with
  | nil => exact KeepsFinished.refl _
  | cons event events ih =>
    have hsafe : SafeStep s (s.step library zones spec tf configuration event) := h.step hg.1
    intro backtestId run' hget hterm
    exact ih hsafe.accounted hg.2 backtestId run' (hsafe.finished backtestId run' hget hterm) hterm

/-- **A backtest run finishes at most once**: in a run of undisturbed steps a finished backtest is
never written again, and completions and failures write the version only for its latest backtest,
while it is backtesting. -/
theorem backtest_finishes_once (hs : NoBacktests s) {events : List ValidationEvent}
    (hg : Along (ValidationSystem.step library zones spec tf configuration) Undisturbed s events) :
    (∀ earlier later, events = earlier ++ later →
      KeepsFinished
        (run (ValidationSystem.step library zones spec tf configuration) s earlier).store
        (run (ValidationSystem.step library zones spec tf configuration) s events).store) ∧
    Along (ValidationSystem.step library zones spec tf configuration)
      (FinishesLatest library zones spec tf configuration) s events := by
  constructor
  · rintro earlier later rfl
    rw [along_append] at hg
    rw [run_append]
    exact keepsFinished_run (accounted_run hs.accounted hg.1) hg.2
  · exact along_of_inv (fun _ _ h hg => (h.step hg).accounted) (fun _ _ h hg => h.finishesLatest hg)
      hs.accounted hg

end

end

/-! ## Two deliveries of one run -/

instance (s : ValidationSystem) (event : ValidationEvent) : Decidable (Undisturbed s event) :=
  match event with
  | .markFailed n => inferInstanceAs (Decidable (∀ d ∈ s.deliveries.get? n,
      d.phase = .failing false → ∀ run ∈ s.store.backtests.get? d.backtestId, run.state = .queued))
  | .requeue k => inferInstanceAs (Decidable (∀ read ∈ s.recovering[k]?,
      s.store.backtests.get? read.1 = some read.2))
  | .transition _ => inferInstanceAs (Decidable (∀ backtestId ∈ s.store.version.latestBacktestId,
      ∀ run ∈ s.store.backtests.get? backtestId, run.state.terminal = true))
  | .wait _ | .deliver _ _ | .start _ | .complete _ _ | .throw _ | .recover _ | .createBacktest _
  | .startPaper _ _ _ | .stopEntries _ _ | .completePaper _ _ | .promote | .evaluate _ _ =>
    .isTrue trivial

def implementedVersion : StrategyVersion where
  id := ⟨1⟩
  state := .implemented
  artifactHash := "a"
  compiledHash := "a"

def freshSystem : ValidationSystem where
  now := 0
  store := { version := implementedVersion }

def passedOutcome : BacktestOutcome where
  gates := Dict.ofList ((validationGates ++ optionalGates).map fun gate => (gate, true))
  artifactHash := "a"

def validationStep : ValidationSystem → ValidationEvent → ValidationSystem :=
  ValidationSystem.step trangeLibrary utcOnly alwaysStrategy quarterHour plainAccount

def runState (events : List ValidationEvent) : Option BacktestState :=
  ((run validationStep freshSystem events).store.backtests.get? ⟨3⟩).map BacktestRun.state

/-- The first delivery is killed, the run is recovered, and the second one completes it. -/
def recoveredRun : List ValidationEvent :=
  [.createBacktest ⟨3⟩, .deliver 1 ⟨3⟩, .start 1, .wait (21 * minute), .recover (21 * minute),
    .requeue 0, .deliver 2 ⟨3⟩, .start 2, .complete 2 passedOutcome]

/-- A later delivery and its handler leave the passed run alone. -/
theorem backtest_finishes_once_recovered :
    ∃ run', (run validationStep freshSystem recoveredRun).store.backtests.get? ⟨3⟩ = some run' ∧
      run'.state = .passed ∧
      (run validationStep freshSystem (recoveredRun ++ [.deliver 3 ⟨3⟩, .start 3])).store.backtests.get?
        ⟨3⟩ = some run' := by
  have hpassed : runState recoveredRun = some .passed := by decide +kernel
  obtain ⟨run', hget, hstate⟩ := Option.map_eq_some_iff.1 hpassed
  have hg : Along validationStep Undisturbed freshSystem
      (recoveredRun ++ [.deliver 3 ⟨3⟩, .start 3]) := by decide +kernel
  exact ⟨run', hget, hstate, (backtest_finishes_once ⟨rfl, rfl, rfl⟩ hg).1 recoveredRun
    [.deliver 3 ⟨3⟩, .start 3] rfl ⟨3⟩ run' hget (by rw [hstate]; rfl)⟩

/-- **A late handler**: the first delivery fails before it marks the run, the second one completes
it, then the first one's handler fails it and writes the version again. -/
theorem late_handler :
    runState [.createBacktest ⟨3⟩, .deliver 1 ⟨3⟩, .deliver 2 ⟨3⟩, .throw 1, .start 2,
        .complete 2 passedOutcome] = some .passed ∧
      runState [.createBacktest ⟨3⟩, .deliver 1 ⟨3⟩, .deliver 2 ⟨3⟩, .throw 1, .start 2,
        .complete 2 passedOutcome, .markFailed 1] = some .failed := by
  decide +kernel

end Matrades

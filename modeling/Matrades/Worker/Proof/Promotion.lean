import Matrades.Base.Result
import Matrades.Routes.Proof.PaperCoverage
import Matrades.Worker.Proof.BacktestRuns

/-!
# Promotion safety

What a version's state says of its evidence (`Vetted`): from paper trading on its latest run has
passed, behind a review its paper evidence is true. A step of the records is of four kinds
(`Advance`), and only a review brings a version that has not been cleared for its latest run among
the cleared ones. So an activated version was reviewed after that run had passed (`promotion_safe`),
unless the recovery writes QUEUED over the run of a version that has left its validation
(`RequeuesOpen`): then it stays active behind a run that has yet to be tested (`stale_requeue`).
-/

namespace Matrades

open Base

/-! ## Evidence -/

/-- A state behind a passed backtest. -/
def StrategyState.validated : StrategyState → Bool
  | paperTrading | approved | active | degraded | suspended => true
  | _ => false

/-- A state behind a review. -/
def StrategyState.cleared : StrategyState → Bool
  | approved | active | degraded | suspended => true
  | _ => false

theorem StrategyState.validated_of_cleared {state : StrategyState} (h : state.cleared = true) :
    state.validated = true := by
  cases state <;> first | rfl | cases h

/-- No transition a request may ask for leads behind a gate. -/
theorem StrategyState.transition_ungated {state target next : StrategyState}
    (hgate : target ∉ [.paperTrading, .approved, .active])
    (h : state.transition target = .ok next) :
    (next.validated = true → state.validated = true) ∧
      (next.cleared = true → state.cleared = true) := by
  unfold StrategyState.transition at h
  split at h
  · rename_i hallowed
    cases h
    revert hgate hallowed
    cases state <;> cases target <;> decide
  · cases h

/-- The version's latest run has passed, with the version's implementation. -/
structure PassedLatest (s : ValidationStore) (backtestId : Uuid) (run : BacktestRun) : Prop where
  latest : s.version.latestBacktestId = some backtestId
  found : s.backtests.get? backtestId = some run
  passed : run.state = .passed
  artifact : run.artifactHash = some s.version.artifactHash

/-- Every formal gate of the version is true, as the run reported it. -/
def FormalEvidence (s : ValidationStore) (run : BacktestRun) : Prop :=
  ∀ gate ∈ validationGates, run.gates.get? gate = some true ∧
    s.version.validationEvidence.get? gate = some true

def PaperEvidence (s : ValidationStore) : Prop :=
  ∀ gate ∈ ["paper", "paper_forward"], s.version.validationEvidence.get? gate = some true

/-- A passed latest run gave the formal evidence. -/
def LatestReported (s : ValidationStore) : Prop :=
  ∀ backtestId run, s.version.latestBacktestId = some backtestId →
    s.backtests.get? backtestId = some run → run.state = .passed → FormalEvidence s run

/-- What a version's state says of its evidence. -/
structure Vetted (s : ValidationStore) : Prop where
  reported : LatestReported s
  passed : s.version.state.validated = true → ∃ backtestId run, PassedLatest s backtestId run
  paper : s.version.state.cleared = true → PaperEvidence s

/-! ## Steps -/

/-- The latest run and what it reported stay. -/
structure KeepsLatest (s s' : ValidationStore) : Prop where
  latest : s'.version.latestBacktestId = s.version.latestBacktestId
  run : ∀ backtestId, s.version.latestBacktestId = some backtestId →
    s'.backtests.get? backtestId = s.backtests.get? backtestId
  artifact : s'.version.artifactHash = s.version.artifactHash
  gates : ∀ gate ∈ validationGates,
    s'.version.validationEvidence.get? gate = s.version.validationEvidence.get? gate

theorem KeepsLatest.refl (s : ValidationStore) : KeepsLatest s s :=
  ⟨rfl, fun _ _ => rfl, rfl, fun _ _ => rfl⟩

/-- **What an event does to the evidence of a version.** -/
inductive Advance (s : ValidationStore) (event : ValidationEvent) (s' : ValidationStore) : Prop
  | stays (keeps : KeepsLatest s s')
      (paper : s'.version.state.cleared = true → PaperEvidence s → PaperEvidence s')
      (validated : s'.version.state.validated = true → s.version.state.validated = true)
      (cleared : s'.version.state.cleared = true → s.version.state.cleared = true)
  | leaves (state : s'.version.state.validated = false) (reported : LatestReported s')
  | starts (keeps : KeepsLatest s s') (state : s'.version.state = .paperTrading)
      (passed : ∃ backtestId run, PassedLatest s backtestId run)
  | reviews (paperRunId : Uuid) (now : AwareTime) (review : event = .completePaper paperRunId now)
      (keeps : KeepsLatest s s') (before : s.version.state = .paperTrading)
      (state : s'.version.state = .approved) (paper : PaperEvidence s')

section
variable {s s' : ValidationStore} {event : ValidationEvent} {backtestId : Uuid} {run : BacktestRun}

theorem KeepsLatest.passedLatest_iff (h : KeepsLatest s s') :
    PassedLatest s' backtestId run ↔ PassedLatest s backtestId run := by
  constructor
  · intro hp
    have hlatest : s.version.latestBacktestId = some backtestId := h.latest ▸ hp.latest
    exact ⟨hlatest, h.run backtestId hlatest ▸ hp.found, hp.passed, h.artifact ▸ hp.artifact⟩
  · intro hp
    exact ⟨h.latest.trans hp.latest, (h.run backtestId hp.latest).trans hp.found, hp.passed,
      h.artifact.symm ▸ hp.artifact⟩

theorem KeepsLatest.reported (h : KeepsLatest s s') (hr : LatestReported s) : LatestReported s' := by
  intro backtestId run hlatest hfound hpassed gate hgate
  rw [h.latest] at hlatest
  rw [h.run backtestId hlatest] at hfound
  obtain ⟨hrun, hevidence⟩ := hr backtestId run hlatest hfound hpassed gate hgate
  exact ⟨hrun, (h.gates gate hgate).trans hevidence⟩

theorem Advance.refl (s : ValidationStore) (event : ValidationEvent) : Advance s event s :=
  .stays (KeepsLatest.refl s) (fun _ => id) id id

/-- **Every step keeps what the state says.** -/
theorem Vetted.advance (h : Vetted s) (ha : Advance s event s') : Vetted s' := by
  cases ha with
  | stays keeps paper validated cleared =>
    refine ⟨keeps.reported h.reported, fun hv => ?_, fun hc => paper hc (h.paper (cleared hc))⟩
    obtain ⟨backtestId, run, hp⟩ := h.passed (validated hv)
    exact ⟨backtestId, run, keeps.passedLatest_iff.2 hp⟩
  | leaves state reported =>
    refine ⟨reported, fun hv => ?_, fun hc => ?_⟩
    · rw [state] at hv
      cases hv
    · rw [StrategyState.validated_of_cleared hc] at state
      cases state
  | starts keeps state passed =>
    refine ⟨keeps.reported h.reported, fun _ => ?_, fun hc => ?_⟩
    · obtain ⟨backtestId, run, hp⟩ := passed
      exact ⟨backtestId, run, keeps.passedLatest_iff.2 hp⟩
    · rw [state] at hc
      cases hc
  | reviews paperRunId now review keeps before state paper =>
    refine ⟨keeps.reported h.reported, fun _ => ?_, fun _ => paper⟩
    obtain ⟨backtestId, run, hp⟩ := h.passed (by rw [before]; rfl)
    exact ⟨backtestId, run, keeps.passedLatest_iff.2 hp⟩

/-- Cleared for the run. -/
def ClearedFor (backtestId : Uuid) (run : BacktestRun) (s : ValidationStore) : Prop :=
  s.version.state.cleared = true ∧ PassedLatest s backtestId run

/-- The event is a review that approves the version behind the run. -/
structure ReviewedAfter (backtestId : Uuid) (run : BacktestRun) (s : ValidationStore)
    (event : ValidationEvent) (s' : ValidationStore) : Prop where
  review : ∃ paperRunId now, event = .completePaper paperRunId now
  passed : PassedLatest s backtestId run
  before : s.version.state = .paperTrading
  approved : s'.version.state = .approved
  paper : PaperEvidence s'

/-- **Only a review clears a version for a run.** -/
theorem Advance.reviewed (ha : Advance s event s') (hbefore : ¬ClearedFor backtestId run s)
    (h : ClearedFor backtestId run s') : ReviewedAfter backtestId run s event s' := by
  obtain ⟨hcleared, hpassed⟩ := h
  cases ha with
  | stays keeps paper validated cleared =>
    exact absurd ⟨cleared hcleared, keeps.passedLatest_iff.1 hpassed⟩ hbefore
  | leaves state reported =>
    rw [StrategyState.validated_of_cleared hcleared] at state
    cases state
  | starts keeps state passed =>
    rw [state] at hcleared
    cases hcleared
  | reviews paperRunId now review keeps before state paper =>
    exact ⟨⟨paperRunId, now, review⟩, keeps.passedLatest_iff.1 hpassed, before, state, paper⟩

/-! ## The writes of the worker -/

/-- A run is written that has not passed by this: it is not the latest one of a validated version. -/
theorem advance_set (h : s.version.latestBacktestId = some backtestId →
      s.version.state.validated = false)
    (hrun : s.version.latestBacktestId = some backtestId → run.state ≠ .passed) :
    Advance s event { s with backtests := s.backtests.set backtestId run } := by
  by_cases hlatest : s.version.latestBacktestId = some backtestId
  · refine .leaves (h hlatest) fun other run' hother hfound hpassed => ?_
    have heq : other = backtestId := Option.some.inj (hother.symm.trans hlatest)
    subst heq
    change (s.backtests.set other run).get? other = some run' at hfound
    rw [Dict.get?_set_self] at hfound
    cases hfound
    exact absurd hpassed (hrun hlatest)
  · refine .stays ⟨rfl, fun other hother => ?_, rfl, fun _ _ => rfl⟩ (fun _ => id) id id
    apply Dict.get?_set_ne
    intro heq
    exact hlatest (heq ▸ hother)

/-- A validated version's latest run has passed. -/
theorem Vetted.open_of_state (h : Vetted s) (hfound : s.backtests.get? backtestId = some run)
    (hstate : run.state ≠ .passed) (hlatest : s.version.latestBacktestId = some backtestId) :
    s.version.state.validated = false := by
  apply Bool.eq_false_iff.2
  intro hv
  obtain ⟨other, run', hp⟩ := h.passed hv
  have heq : other = backtestId := Option.some.inj (hp.latest.symm.trans hlatest)
  subst heq
  have hsame : run = run' := Option.some.inj (hfound.symm.trans hp.found)
  exact hstate (hsame ▸ hp.passed)

/-- All gates of an outcome that passes are true. -/
theorem BacktestOutcome.gate_true {outcome : BacktestOutcome} (h : outcome.state = .passed)
    {gate : String} (hgate : (outcome.gates.get? gate).isSome = true) :
    outcome.gates.get? gate = some true := by
  obtain ⟨verdict, hv⟩ := Option.isSome_iff_exists.1 hgate
  unfold BacktestOutcome.state at h
  split at h
  · cases h
  split at h
  · rename_i hall
    rw [List.all_eq_true] at hall
    have hmem : verdict ∈ outcome.gates.values := List.mem_map_of_mem (Dict.mem_of_lookup hv)
    have htrue : verdict = true := hall verdict hmem
    rw [hv, htrue]
  · cases h

theorem advance_complete {outcome : BacktestOutcome}
    (hgates : ∀ gate ∈ validationGates, (outcome.gates.get? gate).isSome = true) :
    Advance s event (completeBacktest s backtestId run outcome) := by
  unfold completeBacktest
  dsimp only
  split
  · rename_i hlatest
    exact advance_set (fun h => absurd h hlatest) (fun h => absurd h hlatest)
  · rename_i hlatest
    rw [not_not] at hlatest
    apply Advance.leaves rfl
    intro other run' hother hfound hpassed gate hgate
    have heq : other = backtestId := Option.some.inj (hother.symm.trans hlatest)
    subst heq
    change (s.backtests.set other _).get? other = some run' at hfound
    rw [Dict.get?_set_self] at hfound
    cases hfound
    have htrue := BacktestOutcome.gate_true hpassed (hgates gate hgate)
    refine ⟨htrue, ?_⟩
    show (s.version.validationEvidence.update outcome.gates).get? gate = some true
    rw [Dict.get?_update, htrue]
    rfl

theorem advance_markFailed : Advance s event (markBacktestFailed s backtestId run) := by
  unfold markBacktestFailed
  dsimp only
  split
  · rename_i hother
    exact advance_set (fun h => absurd h hother.2) (fun h => absurd h hother.2)
  · apply Advance.leaves rfl
    intro other run' hother hfound hpassed
    have heq : backtestId = other := Option.some.inj hother
    subst heq
    change (s.backtests.set backtestId _).get? backtestId = some run' at hfound
    rw [Dict.get?_set_self] at hfound
    cases hfound
    cases hpassed

/-! ## The requests -/

theorem advance_createBacktest (h : createBacktest s backtestId = .ok s') : Advance s event s' := by
  unfold createBacktest at h
  split at h
  · cases h
  · cases h
    apply Advance.leaves rfl
    intro other run' hother hfound hpassed
    have heq : backtestId = other := Option.some.inj hother
    subst heq
    change (s.backtests.set backtestId _).get? backtestId = some run' at hfound
    rw [Dict.get?_set_self] at hfound
    cases hfound
    cases hpassed

theorem advance_transition {target : StrategyState} (h : transitionStrategy s target = .ok s') :
    Advance s event s' := by
  unfold transitionStrategy at h
  split at h
  · cases h
  rename_i hgate
  split at h
  · cases h
  · rename_i next hnext
    cases h
    obtain ⟨hvalidated, hcleared⟩ := StrategyState.transition_ungated hgate hnext
    exact .stays ⟨rfl, fun _ _ => rfl, rfl, fun _ _ => rfl⟩ (fun _ => id) hvalidated hcleared

theorem advance_startPaper {paperRunId : Uuid} {now entryCutoff : AwareTime}
    (h : startPaperTrading s paperRunId now entryCutoff = .ok s') : Advance s event s' := by
  unfold startPaperTrading at h
  split at h
  · cases h
    exact Advance.refl s event
  split at h
  · cases h
  split at h
  · cases h
  split at h
  · cases h
  rename_i backtest hlatest
  obtain ⟨backtestId, hid, hfound⟩ := Option.bind_eq_some_iff.1 hlatest
  split at h
  · cases h
  rename_i hpassed
  split at h
  · cases h
  rename_i hartifact
  cases h
  rw [not_not] at hpassed hartifact
  exact .starts ⟨rfl, fun _ _ => rfl, rfl, fun _ _ => rfl⟩ rfl
    ⟨backtestId, backtest, hid, hfound, hpassed, hartifact⟩

theorem advance_stopEntries {paperRunId : Uuid} {now : AwareTime}
    (h : stopEntries s paperRunId now = .ok s') : Advance s event s' := by
  unfold stopEntries at h
  split at h
  · cases h
  split at h
  · cases h
  · cases h
    exact .stays ⟨rfl, fun _ _ => rfl, rfl, fun _ _ => rfl⟩ (fun _ => id) id id

/-- A review that goes through was asked for in paper trading. -/
theorem completePaperTrading_state {session reviewed : PaperTrading} {paperRunId : Uuid}
    {now : AwareTime} (h : completePaperTrading session paperRunId now = .ok reviewed) :
    session.version.state = .paperTrading ∧
      reviewed.version.paperForward = reviewed.version.paper ∧
      reviewed.version.state = if reviewed.version.paper then .approved else .validating := by
  unfold completePaperTrading at h
  split at h
  · cases h
  split at h
  · cases h
  rename_i hrefused
  cases h
  refine ⟨?_, rfl, rfl⟩
  by_contra hstate
  unfold reviewRefused at hrefused
  dsimp only at hrefused
  split at hrefused
  · cases hrefused
  split at hrefused
  · cases hrefused
  rw [if_pos (.inl hstate)] at hrefused
  cases hrefused

/-- **A review writes the paper evidence, or sends the version back.** -/
theorem advance_completePaper {paperRunId : Uuid} {now : AwareTime}
    (h : completePaper s paperRunId now = .ok s') :
    Advance s (.completePaper paperRunId now) s' := by
  unfold completePaper at h
  split at h
  · cases h
  rename_i session hsession
  obtain ⟨run, -, rfl⟩ := Option.map_eq_some_iff.1 hsession
  split at h
  · cases h
  rename_i reviewed hreviewed
  obtain ⟨hbefore, hforward, hstate⟩ := completePaperTrading_state hreviewed
  cases h
  have hkeeps : ∀ gate ∈ validationGates,
      (s.version.validationEvidence.update (Dict.ofList [("paper", reviewed.version.paper),
        ("paper_forward", reviewed.version.paperForward)])).get? gate =
        s.version.validationEvidence.get? gate := by
    intro gate hgate
    have hne : ∀ gate ∈ validationGates, gate ≠ "paper" ∧ gate ≠ "paper_forward" := by decide
    have hnone : (Dict.ofList [("paper", reviewed.version.paper),
        ("paper_forward", reviewed.version.paperForward)]).get? gate = none := by
      show ((Dict.empty.set "paper" _).set "paper_forward" _).get? gate = none
      rw [Dict.get?_set_ne _ _ (hne gate hgate).2, Dict.get?_set_ne _ _ (hne gate hgate).1]
      rfl
    rw [Dict.get?_update, hnone]
    rfl
  by_cases hpaper : reviewed.version.paper = true
  · rw [if_pos hpaper] at hstate
    refine .reviews paperRunId now rfl ⟨rfl, fun _ _ => rfl, rfl, hkeeps⟩ hbefore hstate ?_
    intro gate hgate
    show (s.version.validationEvidence.update _).get? gate = some true
    rw [hforward, hpaper, Dict.get?_update]
    rcases List.mem_pair.1 hgate with rfl | rfl <;> rfl
  · rw [if_neg hpaper] at hstate
    have hback : ∀ behind : StrategyState → Bool, behind .validating = false →
        behind reviewed.version.state = true → behind s.version.state = true := by
      intro behind hfalse htrue
      rw [hstate, hfalse] at htrue
      cases htrue
    refine .stays ⟨rfl, fun _ _ => rfl, rfl, hkeeps⟩ (fun hc => ?_) (hback _ rfl) (hback _ rfl)
    change reviewed.version.state.cleared = true at hc
    rw [hstate] at hc
    cases hc

/-- Only a cleared version is promoted. -/
theorem promote_cleared (h : promote s = .ok s') : s.version.state.cleared = true := by
  unfold promote at h
  dsimp only at h
  split at h
  · cases h
  rename_i hready
  by_contra hnot
  apply hready
  right
  left
  intro hmem
  apply hnot
  rcases List.mem_pair.1 hmem with hstate | hstate
  · rw [hstate]
    rfl
  · rw [hstate]
    rfl

theorem advance_promote (h : promote s = .ok s') : Advance s event s' := by
  have hcleared := promote_cleared h
  unfold promote at h
  dsimp only at h
  split at h
  · cases h
  split at h
  · cases h
  split at h
  · cases h
  · cases h
    exact .stays ⟨rfl, fun _ _ => rfl, rfl, fun _ _ => rfl⟩ (fun _ => id)
      (fun _ => StrategyState.validated_of_cleared hcleared) (fun _ => hcleared)

section
variable (library : TechnicalLibrary) (zones : ZoneInfo) (spec : StrategySpecification)
  (tf : Timeframe) (configuration : BacktestConfiguration)

theorem advance_evaluate (tick : Tick) (health : Option Bool) :
    Advance s event (evaluateVersion library zones spec tf configuration s tick health) := by
  unfold evaluateVersion
  dsimp only
  split
  · rename_i hpaper
    split
    · exact .stays ⟨rfl, fun _ _ => rfl, rfl, fun _ _ => rfl⟩ (fun _ => id) id id
    · split <;> exact .stays ⟨rfl, fun _ _ => rfl, rfl, fun _ _ => rfl⟩ (fun _ => id) id id
  · rename_i hactive
    have hvalidated : s.version.state.validated = true := by rw [hactive]; rfl
    have hcleared : s.version.state.cleared = true := by rw [hactive]; rfl
    split
    · exact .stays ⟨rfl, fun _ _ => rfl, rfl, fun _ _ => rfl⟩ (fun _ => id) id id
    split
    · exact .stays ⟨rfl, fun _ _ => rfl, rfl, fun _ _ => rfl⟩ (fun _ => id) id id
    · exact .stays ⟨rfl, fun _ _ => rfl, rfl, fun _ _ => rfl⟩ (fun _ => id)
        (fun _ => hvalidated) (fun _ => hcleared)
  · exact Advance.refl s event

end

end

/-! ## Runs -/

/-- **The steps that keep a promotion tested.** The recovery does not queue the latest run of a
version that has left its validation; the engine reports every formal gate. -/
def RequeuesOpen (s : ValidationSystem) : ValidationEvent → Prop
  | .requeue k => ∀ read ∈ s.recovering[k]?,
      s.store.version.latestBacktestId = some read.1 → s.store.version.state.validated = false
  | .complete _ outcome => ∀ gate ∈ validationGates, (outcome.gates.get? gate).isSome = true
  | _ => True

section
variable {s : ValidationSystem}

theorem advance_request {event : ValidationEvent} {response : Except HttpException ValidationStore}
    (h : ∀ store, response = .ok store → Advance s.store event store) :
    Advance s.store event (s.request response).store := by
  cases response with
  | error refused => exact Advance.refl s.store event
  | ok store => exact h store rfl

theorem advance_start {event : ValidationEvent} (h : Vetted s.store) (n : ℕ) :
    Advance s.store event (s.start n).store := by
  unfold ValidationSystem.start
  split
  · exact Advance.refl _ _
  split
  · exact Advance.refl _ _
  split
  · exact Advance.refl _ _
  rename_i run hrun
  split
  · exact Advance.refl _ _
  · rename_i hqueued
    rw [not_not] at hqueued
    exact advance_set (h.open_of_state hrun (by rw [hqueued]; decide)) (fun _ => nofun)

theorem advance_requeue {k : ℕ} (hg : RequeuesOpen s (.requeue k)) :
    Advance s.store (.requeue k) (s.requeue k).store := by
  unfold ValidationSystem.requeue
  split
  · exact Advance.refl _ _
  · rename_i hread
    exact advance_set (hg _ hread) (fun _ => nofun)

section
variable {library : TechnicalLibrary} {zones : ZoneInfo} {spec : StrategySpecification}
  {tf : Timeframe} {configuration : BacktestConfiguration}

/-- **Every step advances the evidence.** -/
theorem advance_step (h : Vetted s.store) {event : ValidationEvent} (hg : RequeuesOpen s event) :
    Advance s.store event (s.step library zones spec tf configuration event).store := by
  cases event with
  | wait duration => exact Advance.refl _ _
  | deliver n backtestId =>
    show Advance s.store _ (s.deliver n backtestId).store
    unfold ValidationSystem.deliver
    split <;> exact Advance.refl _ _
  | start n => exact advance_start h n
  | complete n outcome =>
    show Advance s.store _ (s.complete n outcome).store
    unfold ValidationSystem.complete
    split
    · exact Advance.refl _ _
    split
    · exact Advance.refl _ _
    split
    · exact Advance.refl _ _
    · exact advance_complete hg
  | throw n =>
    show Advance s.store _ (s.throw n).store
    unfold ValidationSystem.throw
    split
    · exact Advance.refl _ _
    split <;> exact Advance.refl _ _
  | markFailed n =>
    show Advance s.store _ (s.markFailed n).store
    unfold ValidationSystem.markFailed
    split
    · exact Advance.refl _ _
    split
    · split
      · exact Advance.refl _ _
      · exact advance_markFailed
    · exact Advance.refl _ _
  | recover asOf =>
    show Advance s.store _ (s.recover asOf).store
    unfold ValidationSystem.recover
    split <;> exact Advance.refl _ _
  | requeue k => exact advance_requeue hg
  | createBacktest backtestId =>
    show Advance s.store _ (if (s.store.backtests.get? backtestId).isSome then s
      else s.request (createBacktest s.store backtestId)).store
    split
    · exact Advance.refl _ _
    · exact advance_request fun _ => advance_createBacktest
  | transition target => exact advance_request fun _ => advance_transition
  | startPaper paperRunId now entryCutoff =>
    show Advance s.store _ (if (s.store.paperRuns.get? paperRunId).isSome then s
      else s.request (startPaperTrading s.store paperRunId now entryCutoff)).store
    split
    · exact Advance.refl _ _
    · exact advance_request fun _ => advance_startPaper
  | stopEntries paperRunId now => exact advance_request fun _ => advance_stopEntries
  | completePaper paperRunId now => exact advance_request fun _ => advance_completePaper
  | promote => exact advance_request fun _ => advance_promote
  | evaluate tick health => exact advance_evaluate library zones spec tf configuration tick health

theorem vetted_run (h : Vetted s.store) {events : List ValidationEvent}
    (hg : Along (ValidationSystem.step library zones spec tf configuration) RequeuesOpen s events) :
    Vetted (run (ValidationSystem.step library zones spec tf configuration) s events).store :=
  run_inv (I := fun s : ValidationSystem => Vetted s.store)
    (fun _ _ h hg => h.advance (advance_step h hg)) h hg

/-- A version without runs, before its validation. -/
structure Untested (s : ValidationStore) : Prop where
  backtests : s.backtests = Dict.empty
  state : s.version.state.validated = false

theorem Untested.vetted {store : ValidationStore} (h : Untested store) : Vetted store where
  reported := by
    intro backtestId run _ hfound
    rw [h.backtests] at hfound
    cases hfound
  passed := by
    intro hv
    rw [h.state] at hv
    cases hv
  paper := by
    intro hc
    have hopen := h.state
    rw [StrategyState.validated_of_cleared hc] at hopen
    cases hopen

/-- The version is active, or its promotion would go through. -/
def Promoted (s : ValidationStore) : Prop :=
  s.version.state = .active ∨ ∃ s', promote s = .ok s'

theorem Promoted.cleared {store : ValidationStore} (h : Promoted store) :
    store.version.state.cleared = true := by
  rcases h with hactive | ⟨store', hpromote⟩
  · rw [hactive]
    rfl
  · exact promote_cleared hpromote

/-- **Promotion safety**: in a run of such steps, a version that is active, or may be activated, has
every formal gate true from its latest run, which has passed with the version's implementation; and
its paper evidence is true from a review that came when this run had passed, and has stayed since. -/
theorem promotion_safe (hs : Untested s.store) {events : List ValidationEvent}
    (hg : Along (ValidationSystem.step library zones spec tf configuration) RequeuesOpen s events)
    (h : Promoted (run (ValidationSystem.step library zones spec tf configuration) s events).store) :
    let step := ValidationSystem.step library zones spec tf configuration
    let store := (run step s events).store
    ∃ backtestId run', PassedLatest store backtestId run' ∧ FormalEvidence store run' ∧
      PaperEvidence store ∧
      ∃ before event after, events = before ++ event :: after ∧
        ReviewedAfter backtestId run' (run step s before).store event
          (step (run step s before) event).store ∧
        States step (fun s => ClearedFor backtestId run' s.store) (step (run step s before) event)
          after := by
  intro step store
  have hv := vetted_run hs.vetted hg
  have hc := h.cleared
  obtain ⟨backtestId, run', hp⟩ := hv.passed (StrategyState.validated_of_cleared hc)
  refine ⟨backtestId, run', hp, hv.reported _ _ hp.latest hp.found hp.passed, hv.paper hc, ?_⟩
  have hstart : ¬ClearedFor backtestId run' s.store := by
    intro hcleared
    have hfound := hcleared.2.found
    rw [hs.backtests] at hfound
    cases hfound
  obtain ⟨before, event, after, rfl, hbefore, hsince⟩ :=
    exists_since (P := fun s : ValidationSystem => ClearedFor backtestId run' s.store)
      (fun hall => hstart hall.head) ⟨hc, hp⟩
  rw [along_append] at hg
  have ha : Advance (run step s before).store event (step (run step s before) event).store :=
    advance_step (vetted_run hs.vetted hg.1) hg.2.1
  exact ⟨before, event, after, rfl, ha.reviewed hbefore hsince.head, hsince⟩

end

end

/-! ## A run that is queued again -/

instance (s : ValidationSystem) (event : ValidationEvent) : Decidable (RequeuesOpen s event) :=
  match event with
  | .requeue k => inferInstanceAs (Decidable (∀ read ∈ s.recovering[k]?,
      s.store.version.latestBacktestId = some read.1 → s.store.version.state.validated = false))
  | .complete _ outcome => inferInstanceAs
      (Decidable (∀ gate ∈ validationGates, (outcome.gates.get? gate).isSome = true))
  | .wait _ | .deliver _ _ | .start _ | .throw _ | .markFailed _ | .recover _ | .createBacktest _
  | .transition _ | .startPaper _ _ _ | .stopEntries _ _ | .completePaper _ _ | .promote
  | .evaluate _ _ => .isTrue trivial

/-- The first delivery is killed. Two recoveries read the run; one of them queues it, and the second
delivery completes it. A paper session then trades ten times, and the version is activated. -/
def activatedRun : List ValidationEvent :=
  [.createBacktest ⟨3⟩, .deliver 1 ⟨3⟩, .start 1, .wait (21 * minute), .recover (21 * minute),
      .recover (21 * minute), .requeue 0, .deliver 2 ⟨3⟩, .start 2, .complete 2 passedOutcome,
      .startPaper ⟨2⟩ (reviewAt 6) (reviewAt 16)] ++
    (List.range 11).map (fun k => .evaluate (winningTick (6 + k)) none) ++
    [.completePaper ⟨2⟩ (reviewAt 40), .promote]

def versionState (events : List ValidationEvent) : StrategyState :=
  (run validationStep freshSystem events).store.version.state

/-- The run and what the second recovery then makes of it, evaluated together. -/
theorem activated_states :
    (versionState activatedRun = .active ∧ Along validationStep RequeuesOpen freshSystem activatedRun) ∧
      versionState (activatedRun ++ [.requeue 0]) = .active ∧
      (run validationStep freshSystem (activatedRun ++ [.requeue 0])).store.version.latestBacktestId =
        some ⟨3⟩ ∧
      runState (activatedRun ++ [.requeue 0]) = some .queued := by
  decide +kernel

theorem promotion_safe_activated :
    ∃ backtestId run', PassedLatest (run validationStep freshSystem activatedRun).store backtestId
        run' ∧
      PaperEvidence (run validationStep freshSystem activatedRun).store := by
  obtain ⟨hactive, hg⟩ := activated_states.1
  obtain ⟨backtestId, run', hpassed, -, hpaper, -⟩ :=
    promotion_safe (s := freshSystem) ⟨rfl, rfl⟩ hg (.inl hactive)
  exact ⟨backtestId, run', hpassed, hpaper⟩

/-- **Active behind a queued run**: the second recovery writes what it has read. -/
theorem stale_requeue :
    versionState (activatedRun ++ [.requeue 0]) = .active ∧
      ¬∃ backtestId run', PassedLatest
        (run validationStep freshSystem (activatedRun ++ [.requeue 0])).store backtestId run' := by
  obtain ⟨hactive, hlatest, hqueued⟩ := activated_states.2
  refine ⟨hactive, fun ⟨backtestId, run', hp⟩ => ?_⟩
  have heq : backtestId = ⟨3⟩ := Option.some.inj (hp.latest.symm.trans hlatest)
  subst heq
  rw [runState, hp.found, Option.map_some, hp.passed] at hqueued
  cases hqueued

end Matrades

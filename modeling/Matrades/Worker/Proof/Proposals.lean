import Matrades.Worker.Proof.ProposalParties

/-!
# Decisions on proposals are final

The lock of `_advance_draft` keeps its draft as it was read, and the lock of the run with the limits of
the task and of the recovery keeps the deliveries of a run apart. The rest has no guard: a human
decision and a failure handler write whatever the state is by then, and the duplicate check of `submit`
scans before it inserts.

If a human decision finds the draft as it was read, a submission the versions without its fingerprint,
and the failure handler of a delivery that is not at work an undecided draft that nobody works on
(`DecidesOnce`), then decisions are final (`proposal_decisions_final`). Otherwise a rejected draft has a
version with a queued backtest, an approved one is degraded, and two versions have one fingerprint
(`decided_draft_changes`).
-/

namespace Matrades

open Base

/-- The steps of a research run. -/
def ProposalPhase.research {Spec : Type} : ProposalPhase Spec → Bool
  | recovering _ _ => true
  | phase => phase.delivery

namespace ProposalSystem

variable {Spec Identity : Type}

/-- A step of a party in the phase `phase`. -/
structure Moves (s : ProposalSystem Spec Identity) (phase : ProposalPhase Spec)
    (s' : ProposalSystem Spec Identity) : Prop where
  orderly : s'.Orderly
  keeps : phase.research = true → s.store.KeepsDecided s'.store

section
variable {s : ProposalSystem Spec Identity} (h : s.Orderly) {n : ℕ} {p : ProposalParty Spec}
include h

theorem Orderly.stays (phase : ProposalPhase Spec) : s.Moves phase s :=
  ⟨h, fun _ => .refl _⟩

/-- A party goes on without writing. -/
theorem Orderly.goes (hp : s.alive? n = some p) {phase : ProposalPhase Spec}
    (hsound : phase.Sound s.store p.begunAt)
    (hclaim : ∀ c, phase.claim = some c → s.Grants n c) : s.Moves p.phase (s.setPhase n p phase) :=
  ⟨h.put h.settled (.refl s n) (h.begun n p (alive?_eq_some.1 hp).1) hsound hclaim,
    fun _ => .refl _⟩

/-- It keeps what it has. -/
theorem Orderly.goesOn (hp : s.alive? n = some p) {phase : ProposalPhase Spec}
    (hsound : phase.Sound s.store p.begunAt)
    (hclaim : ∀ c, phase.claim = some c → p.phase.claim = some c) :
    s.Moves p.phase (s.setPhase n p phase) :=
  h.goes hp hsound fun c hc => h.grants ⟨p, hp, hclaim c hc⟩

/-- It has nothing then. -/
theorem Orderly.rests (hp : s.alive? n = some p) {phase : ProposalPhase Spec}
    (hsound : phase.Sound s.store p.begunAt) (hclaim : phase.claim = none) :
    s.Moves p.phase (s.setPhase n p phase) :=
  h.goes hp hsound fun c hc => by rw [hclaim] at hc; cases hc

/-- A party writes. -/
theorem Orderly.writes (hp : s.alive? n = some p) {phase : ProposalPhase Spec}
    {store : ProposalStore Spec Identity} (hsettled : store.Settled) (hrespects : s.Respects n store)
    (hkeeps : p.phase.research = true → s.store.KeepsDecided store)
    (hsound : phase.Sound store p.begunAt)
    (hclaim : ∀ c, phase.claim = some c → s.Grants n c) :
    s.Moves p.phase (s.write n p phase store) :=
  ⟨h.put hsettled hrespects (h.begun n p (alive?_eq_some.1 hp).1) hsound hclaim, hkeeps⟩

/-- The delivery at work fails. -/
theorem Orderly.fails (hp : s.alive? n = some p) {runId : Uuid}
    (hclaim : p.phase.claim = some (.work runId)) (error : String) :
    s.Moves p.phase (s.setPhase n p (.reading runId (.failure true error))) := by
  refine h.goesOn hp (fun _ => started_of_work (h.sound n p hp) hclaim) fun c hc => ?_
  have hwork : c = .work runId := (Option.some.inj hc).symm
  rw [hwork]
  exact hclaim

theorem Orderly.throw (hp : s.alive? n = some p) (error : String) :
    s.Moves p.phase (s.throw n p error) := by
  obtain ⟨begunAt, phase⟩ := p
  unfold ProposalSystem.throw
  cases phase with
  | advancing | queueing | advanced => exact h.rests hp trivial rfl
  | delivered | starting | stored => exact h.rests hp (fun hw => by cases hw) rfl
  | working runId => exact h.fails hp rfl error
  | reading runId write | readingDraft runId write | writing runId write =>
    cases write with
    | failure => exact h.rests hp trivial rfl
    | evidence | findings => exact h.fails hp rfl error
  | deciding | submitting | creating | blocked | blocking | recovering | ended =>
    exact h.rests hp trivial rfl

theorem Orderly.load (hp : s.alive? n = some p) : s.Moves p.phase (s.load n p) := by
  have hsound := h.sound n p hp
  obtain ⟨begunAt, phase⟩ := p
  unfold ProposalSystem.load
  cases phase with
  | blocked draftId failure =>
    dsimp only
    split
    · exact h.rests hp trivial rfl
    · rename_i draft hdraft
      exact h.rests hp (h.settled.seen hdraft) rfl
  | delivered runId =>
    dsimp only
    split
    · rename_i hfree
      split
      · exact h.throw hp _
      rename_i run hrun
      split
      · exact h.rests hp trivial rfl
      rename_i hstate
      rw [not_not] at hstate
      split
      · exact h.throw hp _
      · rename_i draft hdraft
        refine h.goes hp ⟨hrun, hstate, h.settled.seen hdraft⟩ fun c hc => ?_
        cases hc
        exact ⟨not_holds_of_free hfree, fun _ hc => (by cases hc), fun _ hc => (by cases hc)⟩
    · exact h.stays _
  | reading runId write =>
    dsimp only
    split
    · exact h.throw hp _
    · rename_i run hrun
      refine h.goesOn hp ⟨⟨run, hrun, rfl⟩, fun hw => ?_⟩ fun c hc => hc
      obtain ⟨run', hrun', hsince⟩ := hsound hw
      rw [hrun] at hrun'
      cases hrun'
      exact ⟨⟨run, hrun, hsince⟩, hsince⟩
  | readingDraft runId write run =>
    dsimp only
    split
    · exact h.throw hp _
    · rename_i draft hdraft
      exact h.goesOn hp ⟨hsound.1, h.settled.seen hdraft, hsound.2⟩ fun c hc => hc
  | _ => exact h.stays _

theorem Orderly.scan [DecidableEq Spec] [DecidableEq Identity] (fingerprint : Spec → Identity)
    (hp : s.alive? n = some p) : s.Moves p.phase (s.scan fingerprint n p) := by
  have hsound := h.sound n p hp
  obtain ⟨begunAt, phase⟩ := p
  unfold ProposalSystem.scan
  cases phase with
  | submitting draftId loaded specification =>
    dsimp only
    split
    · exact h.rests hp trivial rfl
    · exact h.rests hp hsound rfl
  | advancing draftId loaded specification account =>
    dsimp only
    split
    · exact h.rests hp trivial rfl
    · exact h.goesOn hp hsound fun c hc => hc
  | _ => exact h.stays _

end

/-! ## Commits -/

section
variable [DecidableEq Spec] {s : ProposalSystem Spec Identity} (h : s.Orderly) {n : ℕ}
  {p : ProposalParty Spec}
include h

theorem Orderly.commitDecision {draftId : Uuid} {loaded : StrategyDraft Spec}
    {decision : ProposalDecision Spec} {actor : Uuid} {reason : String}
    (hp : s.alive? n = some p) (hphase : p.phase = .deciding draftId loaded decision actor reason)
    (hfree : s.free n (.draft draftId) = true) {current : StrategyDraft Spec}
    (hcurrent : s.store.drafts.get? draftId = some current) (hread : current.state = loaded.state) :
    s.Moves p.phase (s.write n p .ended
      (s.store.decideProposal draftId loaded decision actor reason s.now)) := by
  have hsound := h.sound n p hp
  rw [hphase] at hsound
  obtain ⟨hseen, hloaded⟩ := hsound
  have hstate : current.state = .awaitingStrategyApproval := hread.trans hloaded
  obtain ⟨hverdicts, hsettled⟩ :=
    h.settled.decideProposal decision actor reason s.now hseen hcurrent hstate hread.symm
  refine h.writes hp hsettled ?_ ?_ trivial fun c hc => by cases hc
  · refine respects_of_draft hverdicts rfl (fun x hx => ProposalStore.writeDraft_other hx _ _ _)
      (not_holds_of_free hfree) fun draft hdraft hopen => ?_
    rw [hcurrent] at hdraft
    cases hdraft
    rw [hstate] at hopen
    cases hopen
  · rw [hphase]
    intro hresearch
    cases hresearch

theorem Orderly.commitBlock {draftId : Uuid} {loaded : StrategyDraft Spec} {failure : String}
    (hp : s.alive? n = some p) (hphase : p.phase = .blocking draftId loaded failure)
    (hfree : s.free n (.draft draftId) = true) :
    s.Moves p.phase (s.write n p .ended (s.store.blockAutomation draftId loaded failure)) := by
  have hsound := h.sound n p hp
  rw [hphase] at hsound
  obtain ⟨hverdicts, hsettled⟩ := h.settled.block failure hsound
  refine h.writes hp hsettled ?_ ?_ trivial fun c hc => by cases hc
  · refine respects_of_draft hverdicts rfl (fun x hx => ProposalStore.writeDraft_other hx _ _ _)
      (not_holds_of_free hfree) fun draft hdraft hopen => ?_
    refine ⟨_, ProposalStore.writeDraft_self hdraft, ?_⟩
    rw [show ∀ data, (draft.update loaded data loaded.state).state = draft.state from
      fun _ => if_pos rfl]
    exact hopen
  · rw [hphase]
    intro hresearch
    cases hresearch

omit [DecidableEq Spec] in
theorem Orderly.commitRequeue {runId : Uuid} {run : StrategyResearchRun}
    (hp : s.alive? n = some p) (hphase : p.phase = .recovering runId run)
    (hfree : s.free n (.run runId) = true) :
    s.Moves p.phase (s.write n p .ended (s.store.requeueRun runId run)) := by
  have hsound := h.sound n p hp
  rw [hphase] at hsound
  obtain ⟨hidle, -⟩ := hsound
  have hgrants := h.grants (n := n) (c := .row (.marketRun runId)) ⟨p, hp, by rw [hphase]; rfl⟩
  obtain ⟨current, draft, hcurrent, hqueued, hdraft, hopen⟩ := hidle
  have hother : ∀ x, x ≠ runId → (s.store.requeueRun runId run).runs.get? x = s.store.runs.get? x :=
    fun x hx => ProposalStore.writeRun_other hx run run.data .queued
  refine h.writes hp (h.settled.requeue ⟨current, draft, hcurrent, hqueued, hdraft, hopen⟩) ?_ ?_ trivial
    fun c hc => by cases hc
  · refine ⟨fun _ h => h, ?_, fun _ _ _ _ => rfl, ?_, ?_, ?_⟩
    · rintro x run' ⟨old, hold, hid⟩
      by_cases hx : x = runId
      · subst hx
        rw [hcurrent] at hold
        cases hold
        refine ⟨_, ProposalStore.writeRun_self hcurrent, ?_⟩
        rw [show (current.update run run.data .queued).data = current.data from if_pos rfl]
        exact hid
      · exact ⟨old, (hother x hx).trans hold, hid⟩
    · intro m x hm hholds
      refine hother x ?_
      rintro rfl
      exact not_holds_of_free hfree m hm hholds
    · intro m x hm hholds
      refine hother x ?_
      rintro rfl
      exact hgrants.recovered x rfl m hm hholds
    · rintro m x hm hholds ⟨old, draft', hold, hstate, hdraft', hopen'⟩
      have hx : x ≠ runId := by
        rintro rfl
        exact hgrants.alone m hm hholds
      exact ⟨old, draft', (hother x hx).trans hold, hstate, hdraft', hopen'⟩
  · exact fun _ _ draft hdraft _ => ⟨draft, hdraft, rfl⟩

/-- **A queued run is started by one delivery.** -/
theorem Orderly.commitStart {runId : Uuid} {run : StrategyResearchRun} {draft : StrategyDraft Spec}
    (hp : s.alive? n = some p) (hphase : p.phase = .starting runId run draft)
    (hfree : s.free n (.draft run.data.draftId) = true) :
    s.Moves p.phase (s.write n p (.working runId) (s.store.startResearch runId run draft s.now)) := by
  have hsound := h.sound n p hp
  rw [hphase] at hsound
  obtain ⟨hrun, hstate, hseen⟩ := hsound
  obtain ⟨current, hcurrent, hopen⟩ := h.settled.researched runId run hrun
  have hresearch := hopen (by rw [hstate]; rfl)
  have hundecided := ProposalState.undecided_of_inResearch hresearch
  have hgrants := h.grants (n := n) (c := .row (.run runId)) ⟨p, hp, by rw [hphase]; rfl⟩
  have halone : ∀ m, ¬s.Holds m (.work runId) := by
    intro m hholds
    obtain ⟨run', hrun', hresearching⟩ := h.worked_run hholds
    rw [hrun] at hrun'
    cases hrun'
    rw [hstate] at hresearching
    cases hresearching
  have hrecovered : ∀ m, ¬s.Holds m (.row (.marketRun runId)) := by
    intro m hholds
    obtain ⟨run', -, hrun', hqueued, -⟩ := h.recovered_run hholds
    rw [hrun] at hrun'
    cases hrun'
    exact hqueued hstate
  let runData := { run.data with startedAt := some s.now }
  let data := { draft.data with lifecycleState := .researching }
  have hdraftState : (current.update draft data .researching).state.inResearch = true := by
    rcases (Stored.update_state : (current.update draft data .researching).state = _ ∨ _) with
      heq | ⟨-, heq⟩
    · rw [heq]
      rfl
    · rw [heq]
      exact hresearch
  obtain ⟨hkeeps, hsettled⟩ := h.settled.writeBoth runData .researching data .researching hrun rfl rfl
    hcurrent hundecided (hseen.not_claims hcurrent hundecided) fun _ => hdraftState
  have hrespects : s.Respects n (s.store.startResearch runId run draft s.now) :=
    respects_writeBoth h runData .researching data .researching hrun rfl rfl hcurrent hkeeps hgrants.alone
      (not_holds_of_free hfree) (fun m _ => halone m)
      fun m _ hholds => absurd hholds (hrecovered m)
  refine h.writes hp hsettled hrespects (fun _ => hkeeps) ?_ fun c hc => ?_
  · refine ⟨_, ProposalStore.writeRun_self hrun, ?_, s.now, ?_, h.begun n p (alive?_eq_some.1 hp).1⟩
    · refine Stored.update_changes ?_
      rw [hstate]
      decide
    · rcases (Stored.update_data : (run.update run runData .researching).data = _ ∨ _) with heq | heq
      · rw [heq]
      · rw [Stored.update]
        dsimp only
        split
        · rename_i hsame
          rw [← hsame]
        · rfl
  · cases hc
    refine ⟨fun m _ => halone m, ?_, fun _ hc => (by cases hc)⟩
    intro r hr m _
    cases hr
    exact hrecovered m

end

/-- Records that party `n` may write. -/
structure Writable (s : ProposalSystem Spec Identity) (n : ℕ)
    (store : ProposalStore Spec Identity) : Prop where
  settled : store.Settled
  respects : s.Respects n store
  keeps : s.store.KeepsDecided store

/-- The research is not decided on, and nobody else is at work on it. -/
structure Alone (s : ProposalSystem Spec Identity) (n : ℕ) (runId draftId : Uuid) : Prop where
  undecided : ∀ draft, s.store.drafts.get? draftId = some draft → draft.state.decided = false
  nobody : ∀ m, m ≠ n → ¬s.Holds m (.work runId)

theorem Writable.extend {s : ProposalSystem Spec Identity} (h : s.Orderly) {n : ℕ}
    {store store' : ProposalStore Spec Identity} (hw : s.Writable n store)
    (hextends : store.Extends store') (hsettled : store'.Settled) : s.Writable n store' :=
  ⟨hsettled, hw.respects.extend h hextends, hw.keeps.extend hextends⟩

section
variable [DecidableEq Spec] {s : ProposalSystem Spec Identity} (h : s.Orderly) {n : ℕ}
  {p : ProposalParty Spec} {runId : Uuid} {run currentRun : StrategyResearchRun}
  {draft current : StrategyDraft Spec}
include h

/-- The run and the draft that a delivery has read, written alone. -/
theorem Orderly.writable (runData : RunData) (runState : ProposalState) (data : DraftData Spec)
    (state : ProposalState)
    (hcurrentRun : s.store.runs.get? runId = some currentRun)
    (hid : currentRun.data.draftId = run.data.draftId)
    (hcurrent : s.store.drafts.get? currentRun.data.draftId = some current)
    (hseen : s.store.Seen run.data.draftId draft) (halone : s.Alone n runId run.data.draftId)
    (hfreeRun : s.free n (.run runId) = true)
    (hfreeDraft : s.free n (.draft run.data.draftId) = true)
    (hrunData : runData.draftId = run.data.draftId) (hclaims : data.claims = draft.data.claims)
    (hopen : (currentRun.update run runData runState).state.unfinished = true →
      (current.update draft data state).state.inResearch = true)
    (hidle : ∀ m, m ≠ n → s.Holds m (.row (.marketRun runId)) →
      (currentRun.update run runData runState).state ≠ .queued ∧
        (current.update draft data state).state.inResearch = true) :
    s.Writable n (s.store.writeBoth runId run runData runState draft data state) ∧
      data.claims = false := by
  have hundecided := halone.undecided current (by rw [← hid]; exact hcurrent)
  have hnot : data.claims = false := by
    rw [hclaims]
    exact hseen.not_claims (by rw [← hid]; exact hcurrent) hundecided
  have hrunData' : runData.draftId = currentRun.data.draftId := hrunData.trans hid.symm
  obtain ⟨hkeeps, hsettled⟩ := h.settled.writeBoth runData runState data state
    hcurrentRun hid.symm hrunData' hcurrent hundecided hnot hopen
  refine ⟨⟨hsettled, ?_, hkeeps⟩, hnot⟩
  exact respects_writeBoth h runData runState data state hcurrentRun hid.symm hrunData' hcurrent hkeeps
    (not_holds_of_free hfreeRun) (not_holds_of_free hfreeDraft) halone.nobody hidle

omit [DecidableEq Spec] in
/-- The delivery at work is alone, on a run that is researching. -/
theorem Orderly.works_alone (hp : s.alive? n = some p)
    (hclaim : p.phase.claim = some (.work runId)) (hrun : s.store.SeenRun runId run) :
    ∃ currentRun current, s.store.runs.get? runId = some currentRun ∧
      currentRun.data.draftId = run.data.draftId ∧ currentRun.StartedSince p.begunAt ∧
      s.store.drafts.get? currentRun.data.draftId = some current ∧
      current.state.inResearch = true ∧ s.Alone n runId run.data.draftId ∧
      ∀ m, m ≠ n → ¬s.Holds m (.row (.marketRun runId)) := by
  have hgrants := h.grants (n := n) ⟨p, hp, hclaim⟩
  obtain ⟨currentRun, hcurrentRun, hsince⟩ := started_of_work (h.sound n p hp) hclaim
  obtain ⟨currentRun', hcurrentRun', hid⟩ := hrun
  rw [hcurrentRun] at hcurrentRun'
  cases hcurrentRun'
  obtain ⟨current, hcurrent, hopen⟩ := h.settled.researched runId currentRun hcurrentRun
  have hresearch := hopen (by rw [hsince.1]; rfl)
  refine ⟨currentRun, current, hcurrentRun, hid, hsince, hcurrent, hresearch, ⟨?_, hgrants.alone⟩,
    hgrants.started runId rfl⟩
  intro draft hdraft
  rw [← hid, hcurrent] at hdraft
  cases hdraft
  exact ProposalState.undecided_of_inResearch hresearch

/-- **The transactions of the delivery at work.** -/
theorem Orderly.commitEvidence {pack holdout : String} (hp : s.alive? n = some p)
    (hphase : p.phase = .writing runId (.evidence pack holdout) run draft)
    (hfreeRun : s.free n (.run runId) = true)
    (hfreeDraft : s.free n (.draft run.data.draftId) = true) :
    s.Moves p.phase (s.write n p (.working runId)
      (s.store.attachEvidence runId run draft pack holdout)) := by
  have hclaim : p.phase.claim = some (.work runId) := by
    rw [hphase]
    rfl
  have hsound := h.sound n p hp
  rw [hphase] at hsound
  obtain ⟨hrun, hseen, hworking⟩ := hsound
  obtain ⟨-, hrunState, hrunStarted⟩ := hworking rfl
  obtain ⟨currentRun, current, hcurrentRun, hid, ⟨hstate, hstarted⟩, hcurrent, hresearch, halone,
    hrecovered⟩ := h.works_alone hp hclaim hrun
  have hsame : ∀ data, (current.update draft data draft.state).state = current.state :=
    fun _ => if_pos rfl
  let runData := { run.data with
    entries := (run.data.entries.set "evidence_pack" pack).set "holdout_evidence" holdout }
  let data := { draft.data with entries := draft.data.entries.set "evidence_pack" pack }
  obtain ⟨hwritable, -⟩ := h.writable runData .researching data draft.state
    hcurrentRun hid hcurrent hseen halone hfreeRun hfreeDraft
    rfl rfl (fun _ => by rw [hsame]; exact hresearch)
    fun m hm hholds => absurd hholds (hrecovered m hm)
  refine h.writes hp hwritable.settled hwritable.respects (fun _ => hwritable.keeps) ?_ fun c hc => ?_
  · refine ⟨_, ProposalStore.writeRun_self hcurrentRun, ?_, ?_⟩
    · rcases (Stored.update_state : (currentRun.update run runData .researching).state = _ ∨ _) with
        heq | ⟨-, heq⟩
      · exact heq
      · exact heq.trans hstate
    · rcases (Stored.update_data : (currentRun.update run runData .researching).data = _ ∨ _) with
        heq | heq
      · rw [heq]
        exact hrunStarted
      · rw [heq]
        exact hstarted
  · cases hc
    exact h.grants ⟨p, hp, hclaim⟩

theorem Orderly.commitFindings {findings : ResearchFindings Spec} (hp : s.alive? n = some p)
    (hphase : p.phase = .writing runId (.findings findings) run draft)
    (hfreeRun : s.free n (.run runId) = true)
    (hfreeDraft : s.free n (.draft run.data.draftId) = true) :
    s.Moves p.phase (s.write n p (.stored runId)
      (s.store.storeFindings runId run draft findings)) := by
  have hclaim : p.phase.claim = some (.work runId) := by
    rw [hphase]
    rfl
  have hsound := h.sound n p hp
  rw [hphase] at hsound
  obtain ⟨hrun, hseen, hworking⟩ := hsound
  obtain ⟨-, hrunState, -⟩ := hworking rfl
  obtain ⟨currentRun, current, hcurrentRun, hid, -, hcurrent, hresearch, halone, hrecovered⟩ :=
    h.works_alone hp hclaim hrun
  have hfinished : ∀ runData state, ProposalState.unfinished state = false →
      (currentRun.update run runData state).state.unfinished = true → False := by
    intro runData state hstate hunfinished
    have hne : state ≠ run.state := by
      rw [hrunState]
      rintro rfl
      cases hstate
    rw [Stored.update_changes hne, hstate] at hunfinished
    cases hunfinished
  have hwritable : s.Writable n (s.store.storeFindings runId run draft findings) := by
    cases findings with
    | noQualifying stages details =>
      let runData := { run.data with stages, entries := run.data.entries.update details }
      let data := { draft.data with
        stages
        lifecycleState := .noQualifyingStrategy
        entries := draft.data.entries.update details }
      exact (h.writable runData .noQualifyingStrategy data .noQualifyingStrategy
        hcurrentRun hid hcurrent hseen halone hfreeRun hfreeDraft rfl
        rfl (fun hunfinished => (hfinished _ _ rfl hunfinished).elim)
        fun m hm hholds => absurd hholds (hrecovered m hm)).1
    | proposal specification stages details alternatives =>
      let runData := { run.data with
        stages
        entries := run.data.entries.update details
        libraryCandidateDraftIds := alternatives.map Prod.fst }
      let data := { draft.data with
        proposedSpecification := some specification
        researchRunId := some runId
        lifecycleState := .awaitingStrategyApproval
        entries := draft.data.entries.update details }
      obtain ⟨hwritable, hclaims⟩ := h.writable runData .awaitingStrategyApproval data
        .awaitingStrategyApproval hcurrentRun hid
        hcurrent hseen halone hfreeRun hfreeDraft rfl rfl
        (fun hunfinished => (hfinished _ _ rfl hunfinished).elim)
        fun m hm hholds => absurd hholds (hrecovered m hm)
      obtain ⟨hextends, hsettled⟩ := ProposalStore.addAlternatives_settled hwritable.settled
        run.data.draftId hclaims alternatives
      exact hwritable.extend h hextends hsettled
  exact h.writes hp hwritable.settled hwritable.respects (fun _ => hwritable.keeps) trivial
    fun c hc => by cases hc

/-- The handler of a failure fails the run and its draft alone. -/
theorem Orderly.commitFailure {working : Bool} {error : String} (hp : s.alive? n = some p)
    (hphase : p.phase = .writing runId (.failure working error) run draft)
    (hfreeRun : s.free n (.run runId) = true)
    (hfreeDraft : s.free n (.draft run.data.draftId) = true)
    (hguard : working = false → s.Alone n runId run.data.draftId) :
    s.Moves p.phase (s.write n p .ended (s.store.markResearchFailed runId run draft error)) := by
  have hsound := h.sound n p hp
  rw [hphase] at hsound
  obtain ⟨hrun, hseen, -⟩ := hsound
  have halone : s.Alone n runId run.data.draftId := by
    cases working with
    | false => exact hguard rfl
    | true =>
      obtain ⟨_, _, _, _, _, _, _, halone, _⟩ := h.works_alone hp (by rw [hphase]; rfl) hrun
      exact halone
  obtain ⟨currentRun, hcurrentRun, hid⟩ := hrun
  obtain ⟨current, hcurrent, hopen⟩ := h.settled.researched runId currentRun hcurrentRun
  have hkept : ∀ data, current.state.inResearch = true →
      (current.update draft data .degraded).state.inResearch = true := by
    intro data hresearch
    rcases (Stored.update_state : (current.update draft data .degraded).state = _ ∨ _) with
      heq | ⟨-, heq⟩
    · rw [heq]
      rfl
    · rw [heq]
      exact hresearch
  let runData := { run.data with
    entries := (run.data.entries.set "state" "DEGRADED").set "failure" error }
  let data := { draft.data with entries := draft.data.entries.set "failure" error }
  have hwritten : (currentRun.update run runData .degraded).state = .degraded ∨
      (currentRun.update run runData .degraded).state = currentRun.state :=
    Stored.update_state.imp id And.right
  obtain ⟨hwritable, -⟩ := h.writable runData .degraded data .degraded
    hcurrentRun hid hcurrent hseen halone hfreeRun hfreeDraft rfl rfl
    (by
      intro hunfinished
      rcases hwritten with heq | heq
      · rw [heq] at hunfinished
        cases hunfinished
      · rw [heq] at hunfinished
        exact hkept _ (hopen hunfinished))
    (by
      intro m _ hholds
      obtain ⟨run', draft', hrun', hqueued, hdraft', hresearch⟩ := h.recovered_run hholds
      rw [hcurrentRun] at hrun'
      cases hrun'
      rw [hcurrent] at hdraft'
      cases hdraft'
      refine ⟨?_, hkept _ hresearch⟩
      rcases hwritten with heq | heq
      · rw [heq]
        decide
      · rw [heq]
        exact hqueued)
  exact h.writes hp hwritable.settled hwritable.respects (fun _ => hwritable.keeps) trivial
    fun c hc => by cases hc

end

/-! ## Submissions -/

section
variable [DecidableEq Spec] [DecidableEq Identity] {s : ProposalSystem Spec Identity} (h : s.Orderly)
  {n : ℕ} {p : ProposalParty Spec} (fingerprint : Spec → Identity)
include h

theorem Orderly.commitSubmit {draftId versionId : Uuid} {loaded : StrategyDraft Spec}
    {specification : Spec} (hp : s.alive? n = some p)
    (hphase : p.phase = .creating draftId loaded specification)
    (hfree : s.free n (.draft draftId) = true) (hnew : s.store.versions.get? versionId = none)
    (hduplicate : s.store.duplicate fingerprint specification = false) :
    s.Moves p.phase (s.write n p .ended
      (s.store.submitVersion fingerprint draftId loaded specification versionId)) := by
  have haccepted := h.sound n p hp
  rw [hphase] at haccepted
  obtain ⟨hverdicts, hsettled⟩ := h.settled.submit fingerprint loaded specification haccepted hnew hduplicate
  refine h.writes hp hsettled ?_ ?_ trivial fun c hc => by cases hc
  · refine respects_of_draft hverdicts rfl
      (fun x hx => ProposalStore.submitVersion_other fingerprint hx loaded specification versionId)
      (not_holds_of_free hfree) fun draft hdraft hopen => ?_
    obtain ⟨draft', hdraft', hstate⟩ := haccepted
    rw [hdraft] at hdraft'
    cases hdraft'
    exact absurd hstate (ProposalState.not_accepted (ProposalState.undecided_of_inResearch hopen))
  · rw [hphase]
    intro hresearch
    cases hresearch

/-- **The automation decides a draft that it has locked.** -/
theorem Orderly.commitAdvance {draftId versionId backtestId : Uuid} {loaded : StrategyDraft Spec}
    {specification : Spec} {account : AutomatedAccount} (hp : s.alive? n = some p)
    (hphase : p.phase = .queueing draftId loaded specification account)
    (hnew : s.store.versions.get? versionId = none)
    (hduplicate : s.store.duplicate fingerprint specification = false) :
    s.Moves p.phase (s.write n p (.advanced draftId) (s.store.advanceDraft fingerprint draftId loaded
      specification account versionId backtestId)) := by
  have hsound := h.sound n p hp
  rw [hphase] at hsound
  obtain ⟨hloaded, hstate⟩ := hsound
  have hgrants := h.grants (n := n) (c := .row (.draft draftId)) ⟨p, hp, by rw [hphase]; rfl⟩
  have hundecided : loaded.state.decided = false := by
    rw [hstate]
    rfl
  let data := ProposalStore.automatedData loaded.data specification account
  have hdraft : (loaded.update loaded data .draft).state = .draft := by
    refine Stored.update_changes ?_
    rw [hstate]
    decide
  obtain ⟨hverdicts, hsettled⟩ := h.settled.writeDraft data .draft
    hloaded (fun _ => by rw [hdraft]; rfl)
    (fun hrejected => by rw [hstate] at hrejected; cases hrejected)
    (fun hopen => by rw [hstate] at hopen; cases hopen) (fun _ => by rw [hdraft]; rfl)
  have haccepted : (s.store.writeDraft draftId loaded data .draft).Accepted draftId :=
    ⟨_, ProposalStore.writeDraft_self hloaded, by rw [hdraft]; rfl⟩
  obtain ⟨hverdicts', hsettled'⟩ := hsettled.submit fingerprint ⟨.draft, data⟩
    specification haccepted hnew hduplicate
  have hstands := hverdicts'.accepted draftId haccepted
  have hnotLogged := h.settled.not_logged hloaded hundecided
  have hverdicts'' : s.store.KeepsVerdicts (s.store.advanceDraft fingerprint draftId loaded
      specification account versionId backtestId) :=
    ⟨(hverdicts.trans hverdicts').accepted, (hverdicts.trans hverdicts').rejected⟩
  have hfingerprints : (s.store.advanceDraft fingerprint draftId loaded specification account versionId
      backtestId).versions.values.map SubmittedVersion.fingerprint =
      ((s.store.writeDraft draftId loaded data .draft).submitVersion fingerprint draftId ⟨.draft, data⟩
        specification versionId).versions.values.map SubmittedVersion.fingerprint :=
    Dict.values_modify fun _ => rfl
  refine h.writes hp ?_ ?_ ?_ trivial fun c hc => by cases hc
  · refine ⟨hsettled'.researched, hsettled'.apart, hsettled'.approved, ?_, ?_, ?_, ?_⟩
    · intro version hversion
      rcases Dict.mem_values_modify hversion with hversion | ⟨old, hold, rfl⟩
      · exact hsettled'.built version hversion
      · exact hsettled'.built old (List.mem_map_of_mem (f := Prod.snd) hold)
    · rw [hfingerprints]
      exact hsettled'.unique
    · exact (hsettled'.log .acceptedByAutomationPolicy hnotLogged hstands).once
    · exact (hsettled'.log .acceptedByAutomationPolicy hnotLogged hstands).logged
  · refine respects_of_draft hverdicts'' rfl (fun x hx => ?_) hgrants.alone fun draft' hdraft' hopen => ?_
    · exact (ProposalStore.submitVersion_other fingerprint hx ⟨.draft, data⟩ specification
        versionId).trans (ProposalStore.writeDraft_other hx loaded data .draft)
    · rw [hloaded] at hdraft'
      cases hdraft'
      rw [hstate] at hopen
      cases hopen
  · rw [hphase]
    intro hresearch
    cases hresearch

end

end ProposalSystem

namespace ProposalStore

variable {Spec Identity : Type} {s : ProposalStore Spec Identity}

theorem readProposal_ok {draftId : Uuid} {action : String} {draft : StrategyDraft Spec}
    {decision : ProposalDecision Spec} (h : s.readProposal draftId action = .ok (draft, decision)) :
    s.drafts.get? draftId = some draft ∧ draft.state = .awaitingStrategyApproval := by
  unfold readProposal at h
  split at h
  · rename_i draft' hdraft
    obtain ⟨hstate, h⟩ := ok_of_raiseIf h
    rw [not_not] at hstate
    split at h
    · cases h
      exact ⟨hdraft, hstate⟩
    · obtain ⟨-, h⟩ := ok_of_raiseIf h
      split at h
      · cases h
        exact ⟨hdraft, hstate⟩
      · cases h
  · cases h

theorem readApproved_ok {draftId : Uuid} {draft : StrategyDraft Spec} {specification : Spec}
    (h : s.readApproved draftId = .ok (draft, specification)) :
    s.drafts.get? draftId = some draft ∧ draft.data.claims = true := by
  unfold readApproved at h
  split at h
  · rename_i draft' hdraft
    dsimp only at h
    split at h
    · rename_i approved _ happroved
      cases h
      refine ⟨hdraft, ?_⟩
      rw [DraftData.claims, Bool.or_eq_true]
      split at happroved
      · rename_i hauthority
        exact .inr (decide_eq_true hauthority)
      · exact .inl happroved
    · cases h
  · cases h

end ProposalStore

namespace ProposalSystem

variable {Spec Identity : Type}

section
variable {s : ProposalSystem Spec Identity} (h : s.Orderly) {n : ℕ}
include h

/-- A request or a task begins. -/
theorem Orderly.enters {phase : ProposalPhase Spec} (hsound : phase.Sound s.store s.now)
    (hclaim : ∀ c, phase.claim = some c → s.Grants n c) : (s.enter n phase).Orderly :=
  h.put h.settled (.refl s n) le_rfl hsound hclaim

theorem Orderly.entersIdle {phase : ProposalPhase Spec} (hsound : phase.Sound s.store s.now)
    (hclaim : phase.claim = none) : (s.enter n phase).Orderly :=
  h.enters hsound fun c hc => by rw [hclaim] at hc; cases hc

theorem Orderly.begin [DecidableEq Spec] [DecidableEq Identity] (task : ProposalTask) :
    (s.begin n task).Orderly ∧ (s.begin n task).store = s.store := by
  unfold ProposalSystem.begin
  cases task with
  | decide draftId action reason actor =>
    dsimp only
    split
    · exact ⟨h.entersIdle trivial rfl, rfl⟩
    · rename_i draft decision hread
      obtain ⟨hdraft, hstate⟩ := ProposalStore.readProposal_ok hread
      exact ⟨h.entersIdle ⟨h.settled.seen hdraft, hstate⟩ rfl, rfl⟩
  | submit draftId =>
    dsimp only
    split
    · exact ⟨h.entersIdle trivial rfl, rfl⟩
    · rename_i draft specification hread
      obtain ⟨hdraft, hclaims⟩ := ProposalStore.readApproved_ok hread
      exact ⟨h.entersIdle (h.settled.seen hdraft hclaims) rfl, rfl⟩
  | advance draftId =>
    dsimp only
    split
    · rename_i hfree
      split
      · exact ⟨h.entersIdle trivial rfl, rfl⟩
      rename_i draft hdraft
      split
      · exact ⟨h.entersIdle trivial rfl, rfl⟩
      rename_i hstate
      rw [not_not] at hstate
      split
      · exact ⟨h.entersIdle trivial rfl, rfl⟩
      · exact ⟨h.entersIdle trivial rfl, rfl⟩
      · refine ⟨h.enters ⟨hdraft, hstate⟩ fun c hc => ?_, rfl⟩
        cases hc
        exact ⟨not_holds_of_free hfree, fun _ hc => (by cases hc), fun _ hc => (by cases hc)⟩
    · exact ⟨h, rfl⟩
  | generate runId => exact ⟨h.entersIdle trivial rfl, rfl⟩
  | prepare runId =>
    dsimp only
    split
    · rename_i hfree
      split
      · exact ⟨h.entersIdle trivial rfl, rfl⟩
      rename_i run hrun
      split
      · rename_i hlost
        obtain ⟨hstate, hany⟩ := hlost
        rw [Option.any_eq_true] at hany
        obtain ⟨startedAt, hstarted, hbefore⟩ := hany
        have hnobody := h.nobody_works hrun hstarted (of_decide_eq_true hbefore)
        obtain ⟨draft, hdraft, hopen⟩ := h.settled.researched runId run hrun
        have hidle : s.store.Idle runId :=
          ⟨run, draft, hrun, by rw [hstate]; decide, hdraft, hopen (by rw [hstate]; rfl)⟩
        refine ⟨h.enters ⟨hidle, hstate⟩ fun c hc => ?_, rfl⟩
        cases hc
        refine ⟨not_holds_of_free hfree, fun _ hc => (by cases hc), fun r hr m _ => ?_⟩
        cases hr
        exact hnobody m
      · exact ⟨h.entersIdle trivial rfl, rfl⟩
    · exact ⟨h, rfl⟩

/-- Records are added by others. -/
theorem Orderly.added {store : ProposalStore Spec Identity} (hextends : s.store.Extends store)
    (hsettled : store.Settled) : Orderly { s with store } where
  settled := hsettled
  begun := h.begun
  sound := by
    intro m p hp
    have hrespects : s.Respects (m + 1) store := (Respects.refl s (m + 1)).extend h hextends
    exact hrespects.sound (Nat.ne_of_lt (Nat.lt_succ_self m)) hp (h.sound m p hp)
  one := h.one
  lost := h.lost

/-- Time passes: deliveries are killed. -/
theorem Orderly.later (duration : Time) : Orderly { s with now := s.now + duration } := by
  have halive : ∀ m p, alive? { s with now := s.now + duration } m = some p → s.alive? m = some p := by
    intro m p hp
    obtain ⟨hget, hlimit⟩ := alive?_eq_some.1 hp
    exact alive?_eq_some.2 ⟨hget, fun hd => lt_of_le_of_lt (Nat.le_add_right _ _) (hlimit hd)⟩
  have hholds : ∀ m c, Holds { s with now := s.now + duration } m c → s.Holds m c :=
    fun m c ⟨p, hp, hc⟩ => ⟨p, halive m p hp, hc⟩
  refine ⟨h.settled, ?_, ?_, ?_, ?_⟩
  · exact fun m p hp => (h.begun m p hp).trans (Nat.le_add_right _ _)
  · exact fun m p hp => h.sound m p (halive m p hp)
  · exact fun m m' c hm hm' => h.one m m' c (hholds m c hm) (hholds m' c hm')
  · exact fun m m' r hm hm' => h.lost m m' r (hholds m _ hm) (hholds m' _ hm')

end

/-! ## Steps -/

section
variable [DecidableEq Spec] [DecidableEq Identity] (fingerprint : Spec → Identity)

/-- What a commit of party `n` must find. -/
def Finds (s : ProposalSystem Spec Identity) (n : ℕ) : ProposalPhase Spec → Prop
  | .deciding draftId loaded _ _ _ => s.free n (.draft draftId) = true →
    ∃ current, s.store.drafts.get? draftId = some current ∧ current.state = loaded.state
  | .creating draftId _ specification => s.free n (.draft draftId) = true →
    s.store.duplicate fingerprint specification = false
  | .queueing _ _ specification _ => s.store.duplicate fingerprint specification = false
  | .writing runId (.failure false _) run _ => s.free n (.run runId) = true →
    s.free n (.draft run.data.draftId) = true → s.Alone n runId run.data.draftId
  | _ => True

/-- **The steps that keep decisions final.** A human decision finds the draft in the state in which it
was read; a submission finds no version with its fingerprint, as its scan did; and the failure handler
of a delivery that is not at work finds an undecided draft, and nobody at work. -/
def DecidesOnce (s : ProposalSystem Spec Identity) : ProposalEvent Spec → Prop
  | .act n (.commit _ _) => ∀ p, s.alive? n = some p → s.Finds fingerprint n p.phase
  | _ => True

/-- Is it a step of a research run? -/
def byResearch (s : ProposalSystem Spec Identity) : ProposalEvent Spec → Bool
  | .act n _ => (s.alive? n).any fun p => p.phase.research
  | .begin _ (.generate _) | .begin _ (.prepare _) | .createDraft _ _ _ | .lose _ => true
  | _ => false

variable {s : ProposalSystem Spec Identity} (h : s.Orderly)
include h

theorem Orderly.commit {n : ℕ} {p : ProposalParty Spec} (hp : s.alive? n = some p)
    (hfinds : s.Finds fingerprint n p.phase) (versionId backtestId : Uuid) :
    s.Moves p.phase (s.commit fingerprint n p versionId backtestId) := by
  unfold ProposalSystem.commit
  obtain ⟨begunAt, phase⟩ := p
  cases phase with
  | deciding draftId loaded decision actor reason =>
    dsimp only
    split
    · rename_i hfree
      obtain ⟨current, hcurrent, hread⟩ := hfinds hfree
      exact h.commitDecision hp rfl hfree hcurrent hread
    · exact h.stays _
  | creating draftId loaded specification =>
    dsimp only
    split
    · exact h.rests hp trivial rfl
    rename_i hnew
    rw [Bool.not_eq_true, Option.isSome_eq_false_iff, Option.isNone_iff_eq_none] at hnew
    split
    · rename_i hfree
      exact h.commitSubmit fingerprint hp rfl hfree hnew (hfinds hfree)
    · exact h.stays _
  | queueing draftId loaded specification account =>
    dsimp only
    split
    · exact h.rests hp trivial rfl
    · rename_i hnew
      rw [Bool.or_eq_true, not_or, Bool.not_eq_true, Option.isSome_eq_false_iff,
        Option.isNone_iff_eq_none] at hnew
      exact h.commitAdvance fingerprint hp rfl hnew.1 hfinds
  | blocking draftId loaded failure =>
    dsimp only
    split
    · exact h.commitBlock hp rfl ‹_›
    · exact h.stays _
  | starting runId run draft =>
    dsimp only
    split
    · exact h.commitStart hp rfl ‹_›
    · exact h.stays _
  | writing runId write run draft =>
    dsimp only
    split
    · rename_i hfree
      rw [Bool.and_eq_true] at hfree
      obtain ⟨hrun, hdraft⟩ := hfree
      cases write with
      | evidence pack holdout => exact h.commitEvidence hp rfl hrun hdraft
      | findings findings => exact h.commitFindings hp rfl hrun hdraft
      | failure working error =>
        refine h.commitFailure hp rfl hrun hdraft ?_
        rintro rfl
        exact hfinds hrun hdraft
    · exact h.stays _
  | recovering runId run =>
    dsimp only
    split
    · exact h.commitRequeue hp rfl ‹_›
    · exact h.stays _
  | _ => exact h.stays _

theorem Orderly.proceed {n : ℕ} {p : ProposalParty Spec} (hp : s.alive? n = some p)
    (action : ProposalAction Spec)
    (hfinds : ∀ v b, action = .commit v b → s.Finds fingerprint n p.phase) :
    s.Moves p.phase (s.proceed fingerprint n p action) := by
  unfold ProposalSystem.proceed
  cases action with
  | scan => exact h.scan fingerprint hp
  | load => exact h.load hp
  | gather pack holdout =>
    obtain ⟨begunAt, phase⟩ := p
    cases phase with
    | working runId => exact h.goesOn hp (fun _ => h.sound n _ hp) fun c hc => hc
    | _ => exact h.stays _
  | find findings =>
    obtain ⟨begunAt, phase⟩ := p
    cases phase with
    | working runId => exact h.goesOn hp (fun _ => h.sound n _ hp) fun c hc => hc
    | _ => exact h.stays _
  | commit versionId backtestId =>
    exact h.commit fingerprint hp (hfinds versionId backtestId rfl) versionId backtestId
  | returns =>
    obtain ⟨begunAt, phase⟩ := p
    cases phase with
    | advanced | stored => exact h.rests hp trivial rfl
    | _ => exact h.stays _
  | throw error => exact h.throw hp error

/-- **The step lemma.** -/
theorem Orderly.step {l : ProposalEvent Spec} (hg : s.DecidesOnce fingerprint l) :
    (s.step fingerprint l).Orderly ∧
      (s.byResearch l = true → s.store.KeepsDecided (s.step fingerprint l).store) := by
  cases l with
  | wait duration => exact ⟨h.later duration, fun hresearch => by cases hresearch⟩
  | createDraft draftId runId accountId =>
    obtain ⟨hextends, hsettled⟩ := ProposalStore.createDraft_settled h.settled draftId runId accountId
    exact ⟨h.added hextends hsettled, fun _ => hextends.keepsDecided⟩
  | setAccount accountId account =>
    refine ⟨h.added ⟨fun _ _ h => h, fun _ _ h => h⟩ ?_, fun hresearch => by cases hresearch⟩
    exact ⟨h.settled.researched, h.settled.apart, h.settled.approved, h.settled.built,
      h.settled.unique, h.settled.once, h.settled.logged⟩
  | begin n task =>
    rw [ProposalSystem.step]
    split
    · exact ⟨h, fun _ => .refl _⟩
    · obtain ⟨horderly, hstore⟩ := h.begin (n := n) task
      refine ⟨horderly, fun _ => ?_⟩
      rw [hstore]
      exact .refl _
  | act n action =>
    rw [ProposalSystem.step]
    split
    · exact ⟨h, fun _ => .refl _⟩
    · rename_i p hp
      have hmoves := h.proceed fingerprint hp action (by
        rintro v b rfl
        exact hg p hp)
      refine ⟨hmoves.orderly, fun hresearch => hmoves.keeps ?_⟩
      rw [byResearch, hp] at hresearch
      exact hresearch
  | lose n =>
    rw [ProposalSystem.step]
    split
    · exact ⟨h, fun _ => .refl _⟩
    · rename_i p hp
      refine ⟨?_, fun _ => .refl _⟩
      exact h.put (p := { p with phase := .ended }) h.settled (.refl s n) (h.begun n p hp) trivial
        fun c hc => by cases hc

end

/-! ## Runs -/

/-- What the claim's property says of the records. -/
structure Final (s : ProposalSystem Spec Identity) : Prop where
  once : (s.store.decisions.map Prod.fst).Nodup
  stands : ∀ e ∈ s.store.decisions, ∃ draft, s.store.drafts.get? e.1 = some draft ∧
    e.2.stands draft.state = true
  rejected : ∀ draftId draft, s.store.drafts.get? draftId = some draft → draft.state = .rejected →
    (∀ version ∈ s.store.versions.values, version.strategyId ≠ draftId) ∧
    ∀ versionId ∈ s.store.backtests.values, ∀ version,
      s.store.versions.get? versionId = some version → version.strategyId ≠ draftId
  unique : (s.store.versions.values.map SubmittedVersion.fingerprint).Nodup

theorem Orderly.final {s : ProposalSystem Spec Identity} (h : s.Orderly) : s.Final := by
  have hbuilt : ∀ draftId draft, s.store.drafts.get? draftId = some draft →
      draft.state = .rejected → ∀ version ∈ s.store.versions.values,
        version.strategyId ≠ draftId := by
    rintro draftId draft hdraft hstate version hversion rfl
    obtain ⟨draft', hdraft', haccepted⟩ := h.settled.built version hversion
    rw [hdraft] at hdraft'
    cases hdraft'
    rw [hstate] at haccepted
    cases haccepted
  refine ⟨h.settled.once, h.settled.logged, fun draftId draft hdraft hstate => ?_, h.settled.unique⟩
  refine ⟨hbuilt draftId draft hdraft hstate, fun versionId _ version hversion => ?_⟩
  exact hbuilt draftId draft hdraft hstate version
    (List.mem_map_of_mem (f := Prod.snd) (Dict.mem_of_lookup hversion))

theorem orderly_start (now : Time) : Orderly (⟨now, {}, Dict.empty⟩ : ProposalSystem Spec Identity) := by
  have hnobody : ∀ n c, ¬Holds (⟨now, {}, Dict.empty⟩ : ProposalSystem Spec Identity) n c := by
    rintro n c ⟨p, hp, -⟩
    cases (alive?_eq_some.1 hp).1
  refine ⟨⟨?_, ?_, ?_, ?_, List.nodup_nil, List.nodup_nil, ?_⟩, ?_, ?_, ?_, ?_⟩
  · exact fun runId run hrun => by cases hrun
  · exact fun r r' run run' hrun => by cases hrun
  · exact fun draftId draft hdraft => by cases hdraft
  · exact fun version hversion => by cases hversion
  · exact fun e he => by cases he
  · exact fun n p hp => by cases hp
  · exact fun n p hp => by cases (alive?_eq_some.1 hp).1
  · exact fun n m c hn => absurd hn (hnobody n c)
  · exact fun n m r hn => absurd hn (hnobody n _)

end ProposalSystem

/-- **Decisions on proposals are final** in every run whose steps meet the condition: no draft is
decided twice, a rejected one has no version and no queued backtest, versions have different
fingerprints, and no step of a research run changes the state of a decided draft. -/
theorem proposal_decisions_final {Spec Identity : Type} [DecidableEq Spec] [DecidableEq Identity]
    (fingerprint : Spec → Identity) (now : Time) (events : List (ProposalEvent Spec))
    (hg : Along (ProposalSystem.step fingerprint) (ProposalSystem.DecidesOnce fingerprint)
      ⟨now, {}, Dict.empty⟩ events) :
    States (ProposalSystem.step fingerprint) ProposalSystem.Final ⟨now, {}, Dict.empty⟩ events ∧
    Along (ProposalSystem.step fingerprint) (fun s l => s.byResearch l = true →
      s.store.KeepsDecided (s.step fingerprint l).store) ⟨now, {}, Dict.empty⟩ events := by
  have keep : ∀ (s : ProposalSystem Spec Identity) l, s.Orderly → s.DecidesOnce fingerprint l →
      (s.step fingerprint l).Orderly := fun s l h hg => (h.step fingerprint hg).1
  have hstart : (⟨now, {}, Dict.empty⟩ : ProposalSystem Spec Identity).Orderly :=
    ProposalSystem.orderly_start now
  constructor
  · exact States.mono (fun s h => h.final) (states_of_inv keep hstart hg)
  · exact along_of_inv keep (fun s l h hg => (h.step fingerprint hg).2) hstart hg

/-! ## Runs of one draft -/

/-- The specification as its canonical text. -/
def canonicalText (specification : String) : String := specification

abbrev TextProposals := ProposalSystem String String

def noProposals : TextProposals := ⟨0, {}, Dict.empty⟩

def runProposals (events : List (ProposalEvent String)) : TextProposals :=
  run (ProposalSystem.step canonicalText) noProposals events

def committed (n : ℕ) : ProposalEvent String := .act n (.commit ⟨10 + n⟩ ⟨20 + n⟩)

/-- Delivery 1 proposes a specification for draft 1 of run 2, of account 3. -/
def proposing : List (ProposalEvent String) :=
  [.setAccount ⟨3⟩ ⟨false, true, none⟩, .createDraft ⟨1⟩ ⟨2⟩ ⟨3⟩, .begin 1 (.generate ⟨2⟩), .act 1 .load,
    committed 1, .act 1 (.gather "pack" "holdout"), .act 1 .load, .act 1 .load, committed 1,
    .act 1 (.find (.proposal "ema cross" Dict.empty Dict.empty [])), .act 1 .load, .act 1 .load,
    committed 1]

def deciding (n : ℕ) (action : String) : ProposalEvent String :=
  .begin n (.decide ⟨1⟩ action "reviewed" ⟨9⟩)

/-- The proposal is approved and submitted; a second submission finds the version. -/
def submitting : List (ProposalEvent String) :=
  [deciding 2 "approve", committed 2, .begin 3 (.submit ⟨1⟩), .act 3 .scan, committed 3,
    .begin 4 (.submit ⟨1⟩), .act 4 .scan]

namespace ProposalSystem

/-- `Finds` without failure handlers of deliveries that are not at work. -/
def finds? (s : TextProposals) : ProposalPhase String → Bool
  | .deciding draftId loaded _ _ _ =>
    (s.store.drafts.get? draftId).any fun current => current.state = loaded.state
  | .creating _ _ specification | .queueing _ _ specification _ =>
    !s.store.duplicate canonicalText specification
  | .writing _ (.failure false _) _ _ => false
  | _ => true

theorem decidesOnce_of_finds {s : TextProposals} {n : ℕ} {v b : Uuid}
    (h : (s.alive? n).all (fun p => s.finds? p.phase) = true) :
    s.DecidesOnce canonicalText (.act n (.commit v b)) := by
  rintro ⟨begunAt, phase⟩ hp
  rw [hp] at h
  have hfinds : s.finds? phase = true := h
  cases phase with
  | deciding draftId loaded =>
    intro _
    obtain ⟨current, hcurrent, hstate⟩ := Option.any_eq_true _ _ |>.1 hfinds
    exact ⟨current, hcurrent, of_decide_eq_true hstate⟩
  | creating =>
    rw [finds?, Bool.not_eq_true'] at hfinds
    exact fun _ => hfinds
  | queueing =>
    rw [finds?, Bool.not_eq_true'] at hfinds
    exact hfinds
  | writing runId write =>
    cases write with
    | failure working =>
      cases working with
      | true => trivial
      | false => cases hfinds
    | _ => trivial
  | _ => trivial

end ProposalSystem

/-- An approval and two submissions. -/
theorem proposal_decisions_final_submitted :
    States (ProposalSystem.step canonicalText) ProposalSystem.Final noProposals
      (proposing ++ submitting) ∧
    Along (ProposalSystem.step canonicalText) (fun s l => s.byResearch l = true →
      s.store.KeepsDecided (s.step canonicalText l).store) noProposals (proposing ++ submitting) := by
  refine proposal_decisions_final canonicalText 0 (proposing ++ submitting) ?_
  refine ⟨trivial, trivial, trivial, trivial, ?_, trivial, trivial, trivial, ?_, trivial, trivial,
    trivial, ?_, trivial, ?_, trivial, trivial, ?_, trivial, trivial, trivial⟩
  all_goals exact ProposalSystem.decidesOnce_of_finds (by decide +kernel)

def draftState (s : TextProposals) : Option ProposalState := (s.store.drafts.get? ⟨1⟩).map Stored.state

/-- **A rejection is written over a submitted draft**: the automation had decided it in between, so the
rejected draft has a version and a queued backtest. A late failure handler takes an approved draft out
of its state. And two submissions of it scan before either creates its version. -/
theorem decided_draft_changes :
    (let s := runProposals (proposing ++ [deciding 2 "REJECT", .begin 3 (.advance ⟨1⟩), .act 3 .scan,
        committed 3, committed 2])
     draftState s = some .rejected ∧
       s.store.decisions = [(⟨1⟩, .acceptedByAutomationPolicy), (⟨1⟩, .rejected)] ∧
       s.store.versions.values.map SubmittedVersion.strategyId = [⟨1⟩] ∧
       s.store.backtests.values = s.store.versions.keys) ∧
    (let approved := proposing ++ [deciding 2 "APPROVE", committed 2]
     let failing := [.act 1 (.throw "OperationalError"), .act 1 .load, .act 1 .load]
     draftState (runProposals (approved ++ failing)) = some .draft ∧
       (runProposals (approved ++ failing)).byResearch (committed 1) = true ∧
       draftState (runProposals (approved ++ failing ++ [committed 1])) = some .degraded) ∧
    let s := runProposals (proposing ++ [deciding 2 "APPROVE", committed 2, .begin 3 (.submit ⟨1⟩),
      .begin 4 (.submit ⟨1⟩), .act 3 .scan, .act 4 .scan, committed 3, committed 4])
    s.store.versions.values.map SubmittedVersion.fingerprint = ["ema cross", "ema cross"] := by
  decide +kernel

end Matrades

import Matrades.Worker.Proposals

/-!
# The records of proposals

What holds of the committed drafts, runs, versions and decisions (`Settled`), and what each
transaction makes of it. A draft is *decided* when it is accepted or rejected, and *in research* while
its run still owes a proposal. A run that is queued or researching has its draft in research, and a
version has an accepted draft.
-/

namespace Matrades

open Base

/-! ## Verdicts -/

namespace ProposalState

def accepted : ProposalState → Bool
  | draft | specified => true
  | _ => false

def decided : ProposalState → Bool
  | draft | specified | rejected => true
  | _ => false

/-- The research still owes a proposal. -/
def inResearch : ProposalState → Bool
  | queued | researching | noQualifyingStrategy | degraded => true
  | _ => false

/-- Is the run to be started, or started? -/
def unfinished : ProposalState → Bool
  | queued | researching => true
  | _ => false

theorem decided_of_accepted {state : ProposalState} (h : state.accepted = true) :
    state.decided = true := by
  cases state <;> first | rfl | cases h

theorem undecided_of_inResearch {state : ProposalState} (h : state.inResearch = true) :
    state.decided = false := by
  cases state <;> first | rfl | cases h

theorem not_accepted {state : ProposalState} (h : state.decided = false) :
    ¬state.accepted = true := by
  intro haccepted
  rw [decided_of_accepted haccepted] at h
  cases h

end ProposalState

/-- Does the data let `submit` build a version, if the policy of the account allows it? -/
def DraftData.claims {Spec : Type} (data : DraftData Spec) : Bool :=
  data.provenance.humanApproval = some .approved ||
    data.provenance.approvalAuthority = some .automationPolicy

/-- The states of a draft that has been decided so. -/
def DecisionEvent.stands : DecisionEvent → ProposalState → Bool
  | rejected, state => state = .rejected
  | accepted, state | acceptedByAutomationPolicy, state => state.accepted

theorem DecisionEvent.decided {event : DecisionEvent} {state : ProposalState}
    (h : event.stands state = true) : state.decided = true := by
  cases event with
  | rejected =>
    rw [of_decide_eq_true h]
    rfl
  | accepted | acceptedByAutomationPolicy => exact ProposalState.decided_of_accepted h

section
variable {D : Type} [DecidableEq D] {current loaded : Stored D} {data : D} {state : ProposalState}

theorem Stored.update_state : (current.update loaded data state).state = state ∨
    state = loaded.state ∧ (current.update loaded data state).state = current.state := by
  rw [Stored.update]
  by_cases h : state = loaded.state
  · exact .inr ⟨h, if_pos h⟩
  · exact .inl (if_neg h)

theorem Stored.update_data : (current.update loaded data state).data = data ∨
    (current.update loaded data state).data = current.data := by
  rw [Stored.update]
  by_cases h : data = loaded.data
  · exact .inr (if_pos h)
  · exact .inl (if_neg h)

theorem Stored.update_changes (h : state ≠ loaded.state) :
    (current.update loaded data state).state = state := if_neg h

end

/-! ## Records -/

namespace ProposalStore

variable {Spec Identity : Type}

/-- The draft is accepted. -/
def Accepted (s : ProposalStore Spec Identity) (draftId : Uuid) : Prop :=
  ∃ draft, s.drafts.get? draftId = some draft ∧ draft.state.accepted = true

/-- The research owes a proposal for the run, which is not queued. -/
def Idle (s : ProposalStore Spec Identity) (runId : Uuid) : Prop :=
  ∃ run draft, s.runs.get? runId = some run ∧ run.state ≠ .queued ∧
    s.drafts.get? run.data.draftId = some draft ∧ draft.state.inResearch = true

/-- What holds of the committed records. -/
structure Settled (s : ProposalStore Spec Identity) : Prop where
  researched : ∀ runId run, s.runs.get? runId = some run →
    ∃ draft, s.drafts.get? run.data.draftId = some draft ∧
      (run.state.unfinished = true → draft.state.inResearch = true)
  apart : ∀ r r' run run', s.runs.get? r = some run → s.runs.get? r' = some run' →
    run.data.draftId = run'.data.draftId → r = r'
  approved : ∀ draftId draft, s.drafts.get? draftId = some draft → draft.data.claims = true →
    draft.state.accepted = true
  built : ∀ version ∈ s.versions.values, s.Accepted version.strategyId
  unique : (s.versions.values.map SubmittedVersion.fingerprint).Nodup
  once : (s.decisions.map Prod.fst).Nodup
  logged : ∀ e ∈ s.decisions, ∃ draft, s.drafts.get? e.1 = some draft ∧ e.2.stands draft.state = true

/-- Decided drafts keep their state. -/
def KeepsDecided (s s' : ProposalStore Spec Identity) : Prop :=
  ∀ draftId draft, s.drafts.get? draftId = some draft → draft.state.decided = true →
    ∃ draft', s'.drafts.get? draftId = some draft' ∧ draft'.state = draft.state

/-- Accepted drafts stay accepted, and rejected ones rejected. -/
structure KeepsVerdicts (s s' : ProposalStore Spec Identity) : Prop where
  accepted : ∀ draftId, s.Accepted draftId → s'.Accepted draftId
  rejected : ∀ draftId draft, s.drafts.get? draftId = some draft → draft.state = .rejected →
    ∃ draft', s'.drafts.get? draftId = some draft' ∧ draft'.state = .rejected

theorem KeepsDecided.refl (s : ProposalStore Spec Identity) : s.KeepsDecided s :=
  fun _ draft h _ => ⟨draft, h, rfl⟩

theorem KeepsDecided.verdicts {s s' : ProposalStore Spec Identity} (h : s.KeepsDecided s') :
    s.KeepsVerdicts s' where
  accepted := by
    intro draftId haccepted
    obtain ⟨draft, hdraft, hstate⟩ := haccepted
    obtain ⟨draft', hdraft', hsame⟩ :=
      h draftId draft hdraft (ProposalState.decided_of_accepted hstate)
    exact ⟨draft', hdraft', by rw [hsame]; exact hstate⟩
  rejected := by
    intro draftId draft hdraft hstate
    obtain ⟨draft', hdraft', hsame⟩ := h draftId draft hdraft (by rw [hstate]; rfl)
    exact ⟨draft', hdraft', by rw [hsame]; exact hstate⟩

theorem KeepsVerdicts.stands {s s' : ProposalStore Spec Identity} (h : s.KeepsVerdicts s')
    {draftId : Uuid} {event : DecisionEvent}
    (hs : ∃ draft, s.drafts.get? draftId = some draft ∧ event.stands draft.state = true) :
    ∃ draft, s'.drafts.get? draftId = some draft ∧ event.stands draft.state = true := by
  obtain ⟨draft, hdraft, hstands⟩ := hs
  cases event with
  | rejected =>
    obtain ⟨draft', hdraft', hstate⟩ := h.rejected draftId draft hdraft (of_decide_eq_true hstands)
    exact ⟨draft', hdraft', decide_eq_true hstate⟩
  | accepted | acceptedByAutomationPolicy => exact h.accepted draftId ⟨draft, hdraft, hstands⟩

/-! ## Writes -/

section
variable [DecidableEq Spec] (s : ProposalStore Spec Identity)

/-- The draft and the run are written together. -/
def writeBoth (runId : Uuid) (run : StrategyResearchRun) (runData : RunData)
    (runState : ProposalState) (draft : StrategyDraft Spec) (data : DraftData Spec)
    (state : ProposalState) : ProposalStore Spec Identity :=
  (s.writeRun runId run runData runState).writeDraft run.data.draftId draft data state

end

section
variable {s : ProposalStore Spec Identity}

theorem writeRun_get? (runId x : Uuid) (loaded : StrategyResearchRun) (data : RunData)
    (state : ProposalState) : (s.writeRun runId loaded data state).runs.get? x =
      if x = runId then (s.runs.get? x).map fun current => current.update loaded data state
      else s.runs.get? x :=
  Dict.get?_modify _ _ _ _

theorem writeRun_cases {runId : Uuid} {loaded current : StrategyResearchRun} {data : RunData}
    {state : ProposalState} (hcurrent : s.runs.get? runId = some current) {x : Uuid}
    {run : StrategyResearchRun}
    (h : (s.writeRun runId loaded data state).runs.get? x = some run) :
    x = runId ∧ run = current.update loaded data state ∨ x ≠ runId ∧ s.runs.get? x = some run := by
  rw [writeRun_get?] at h
  by_cases hx : x = runId
  · subst hx
    rw [if_pos rfl, hcurrent] at h
    exact .inl ⟨rfl, (Option.some.inj h).symm⟩
  · rw [if_neg hx] at h
    exact .inr ⟨hx, h⟩

theorem writeRun_self {runId : Uuid} {loaded current : StrategyResearchRun} {data : RunData}
    {state : ProposalState} (hcurrent : s.runs.get? runId = some current) :
    (s.writeRun runId loaded data state).runs.get? runId = some (current.update loaded data state) := by
  rw [writeRun_get?, if_pos rfl, hcurrent]
  rfl

theorem writeRun_other {runId x : Uuid} (hx : x ≠ runId) (loaded : StrategyResearchRun)
    (data : RunData) (state : ProposalState) :
    (s.writeRun runId loaded data state).runs.get? x = s.runs.get? x := by
  rw [writeRun_get?, if_neg hx]

variable [DecidableEq Spec]

theorem writeDraft_get? (draftId x : Uuid) (loaded : StrategyDraft Spec) (data : DraftData Spec)
    (state : ProposalState) : (s.writeDraft draftId loaded data state).drafts.get? x =
      if x = draftId then (s.drafts.get? x).map fun current => current.update loaded data state
      else s.drafts.get? x :=
  Dict.get?_modify _ _ _ _

/-- A written draft, and the others. -/
theorem writeDraft_cases {draftId : Uuid} {loaded current : StrategyDraft Spec}
    {data : DraftData Spec} {state : ProposalState} (hcurrent : s.drafts.get? draftId = some current)
    {x : Uuid} {draft : StrategyDraft Spec}
    (h : (s.writeDraft draftId loaded data state).drafts.get? x = some draft) :
    x = draftId ∧ draft = current.update loaded data state ∨
      x ≠ draftId ∧ s.drafts.get? x = some draft := by
  rw [writeDraft_get?] at h
  by_cases hx : x = draftId
  · subst hx
    rw [if_pos rfl, hcurrent] at h
    exact .inl ⟨rfl, (Option.some.inj h).symm⟩
  · rw [if_neg hx] at h
    exact .inr ⟨hx, h⟩

theorem writeDraft_self {draftId : Uuid} {loaded current : StrategyDraft Spec}
    {data : DraftData Spec} {state : ProposalState} (hcurrent : s.drafts.get? draftId = some current) :
    (s.writeDraft draftId loaded data state).drafts.get? draftId =
      some (current.update loaded data state) := by
  rw [writeDraft_get?, if_pos rfl, hcurrent]
  rfl

theorem writeDraft_other {draftId x : Uuid} (hx : x ≠ draftId) (loaded : StrategyDraft Spec)
    (data : DraftData Spec) (state : ProposalState) :
    (s.writeDraft draftId loaded data state).drafts.get? x = s.drafts.get? x := by
  rw [writeDraft_get?, if_neg hx]

/-- A draft that is not decided is written. -/
theorem keepsDecided_writeDraft {draftId : Uuid} {loaded : StrategyDraft Spec}
    {data : DraftData Spec} {state : ProposalState}
    (h : ∀ current, s.drafts.get? draftId = some current → current.state.decided = true →
      (current.update loaded data state).state = current.state) :
    s.KeepsDecided (s.writeDraft draftId loaded data state) := by
  intro x draft hdraft hdecided
  by_cases hx : x = draftId
  · subst hx
    exact ⟨_, writeDraft_self hdraft, h draft hdraft hdecided⟩
  · exact ⟨draft, by rw [writeDraft_other hx]; exact hdraft, rfl⟩

end

end ProposalStore

/-- The run was started by a delivery that began then, or later. -/
def StrategyResearchRun.StartedSince (run : StrategyResearchRun) (begunAt : Time) : Prop :=
  run.state = .researching ∧ ∃ startedAt, run.data.startedAt = some startedAt ∧ begunAt ≤ startedAt

namespace ProposalStore

variable {Spec Identity : Type} (s : ProposalStore Spec Identity)

/-- A draft that was read: if its data lets `submit` build a version, the draft is accepted. -/
def Seen (draftId : Uuid) (loaded : StrategyDraft Spec) : Prop :=
  loaded.data.claims = true → s.Accepted draftId

/-- A run that was read is a run of the same draft. -/
def SeenRun (runId : Uuid) (run : StrategyResearchRun) : Prop :=
  ∃ current, s.runs.get? runId = some current ∧ current.data.draftId = run.data.draftId

def Started (runId : Uuid) (begunAt : Time) : Prop :=
  ∃ run, s.runs.get? runId = some run ∧ run.StartedSince begunAt

/-! ## Committed records -/

theorem Settled.frame {s s' : ProposalStore Spec Identity} (h : s.Settled)
    (hverdicts : s.KeepsVerdicts s') (hversions : s'.versions = s.versions)
    (hdecisions : s'.decisions = s.decisions)
    (hresearched : ∀ runId run, s'.runs.get? runId = some run →
      ∃ draft, s'.drafts.get? run.data.draftId = some draft ∧
        (run.state.unfinished = true → draft.state.inResearch = true))
    (hapart : ∀ r r' run run', s'.runs.get? r = some run → s'.runs.get? r' = some run' →
      run.data.draftId = run'.data.draftId → r = r')
    (happroved : ∀ draftId draft, s'.drafts.get? draftId = some draft → draft.data.claims = true →
      draft.state.accepted = true) : s'.Settled where
  researched := hresearched
  apart := hapart
  approved := happroved
  built := by
    intro version hversion
    rw [hversions] at hversion
    exact hverdicts.accepted _ (h.built version hversion)
  unique := by
    rw [hversions]
    exact h.unique
  once := by
    rw [hdecisions]
    exact h.once
  logged := by
    intro e he
    rw [hdecisions] at he
    exact hverdicts.stands (h.logged e he)

/-- A decision that is recorded on a draft without one. -/
theorem Settled.log {s : ProposalStore Spec Identity} (h : s.Settled) {draftId : Uuid}
    (event : DecisionEvent) (hnew : draftId ∉ s.decisions.map Prod.fst)
    (hstands : ∃ draft, s.drafts.get? draftId = some draft ∧ event.stands draft.state = true) :
    Settled { s with decisions := s.decisions ++ [(draftId, event)] } where
  researched := h.researched
  apart := h.apart
  approved := h.approved
  built := h.built
  unique := h.unique
  once := by
    show ((s.decisions ++ [(draftId, event)]).map Prod.fst).Nodup
    rw [List.map_append]
    refine List.nodup_append.2 ⟨h.once, List.nodup_singleton _, ?_⟩
    intro x hx y hy hxy
    rw [List.mem_singleton.1 hy] at hxy
    rw [hxy] at hx
    exact hnew hx
  logged := by
    intro e he
    rcases List.mem_append.1 he with he | he
    · exact h.logged e he
    · rw [List.mem_singleton.1 he]
      exact hstands

/-- An undecided draft has no decision. -/
theorem Settled.not_logged {s : ProposalStore Spec Identity} (h : s.Settled) {draftId : Uuid}
    {draft : StrategyDraft Spec} (hdraft : s.drafts.get? draftId = some draft)
    (hstate : draft.state.decided = false) : draftId ∉ s.decisions.map Prod.fst := by
  intro hmem
  obtain ⟨e, he, rfl⟩ := List.mem_map.1 hmem
  obtain ⟨draft', hdraft', hstands⟩ := h.logged e he
  rw [hdraft] at hdraft'
  cases hdraft'
  rw [DecisionEvent.decided hstands] at hstate
  cases hstate

section
variable [DecidableEq Spec] {s : ProposalStore Spec Identity}

/-- A draft is written; the research goes on. -/
theorem Settled.writeDraft (h : s.Settled) {draftId : Uuid} {loaded current : StrategyDraft Spec}
    (data : DraftData Spec) (state : ProposalState) (hcurrent : s.drafts.get? draftId = some current)
    (haccepted : current.state.accepted = true →
      (current.update loaded data state).state.accepted = true)
    (hrejected : current.state = .rejected → (current.update loaded data state).state = .rejected)
    (hopen : current.state.inResearch = true →
      (current.update loaded data state).state.inResearch = true)
    (hclaims : (current.update loaded data state).data.claims = true →
      (current.update loaded data state).state.accepted = true) :
    s.KeepsVerdicts (s.writeDraft draftId loaded data state) ∧
      (s.writeDraft draftId loaded data state).Settled := by
  have hverdicts : s.KeepsVerdicts (s.writeDraft draftId loaded data state) := by
    constructor
    · rintro x ⟨draft, hdraft, hstate⟩
      by_cases hx : x = draftId
      · subst hx
        rw [hcurrent] at hdraft
        cases hdraft
        exact ⟨_, writeDraft_self hcurrent, haccepted hstate⟩
      · exact ⟨draft, by rw [writeDraft_other hx]; exact hdraft, hstate⟩
    · intro x draft hdraft hstate
      by_cases hx : x = draftId
      · subst hx
        rw [hcurrent] at hdraft
        cases hdraft
        exact ⟨_, writeDraft_self hcurrent, hrejected hstate⟩
      · exact ⟨draft, by rw [writeDraft_other hx]; exact hdraft, hstate⟩
  refine ⟨hverdicts, h.frame hverdicts rfl rfl ?_ h.apart ?_⟩
  · intro runId run hrun
    obtain ⟨draft, hdraft, hresearch⟩ := h.researched runId run hrun
    by_cases hx : run.data.draftId = draftId
    · rw [hx, hcurrent] at hdraft
      cases hdraft
      rw [hx]
      exact ⟨_, writeDraft_self hcurrent, fun hunfinished => hopen (hresearch hunfinished)⟩
    · exact ⟨draft, by rw [writeDraft_other hx]; exact hdraft, hresearch⟩
  · intro x draft hdraft hdraftClaims
    rcases writeDraft_cases hcurrent hdraft with ⟨rfl, rfl⟩ | ⟨-, hdraft⟩
    · exact hclaims hdraftClaims
    · exact h.approved x draft hdraft hdraftClaims

/-- The run and its draft, which is not decided, are written. -/
theorem Settled.writeBoth (h : s.Settled) {runId : Uuid} {run currentRun : StrategyResearchRun}
    {draft current : StrategyDraft Spec} (runData : RunData) (runState : ProposalState)
    (data : DraftData Spec) (state : ProposalState)
    (hcurrentRun : s.runs.get? runId = some currentRun)
    (hid : run.data.draftId = currentRun.data.draftId)
    (hrunData : runData.draftId = currentRun.data.draftId)
    (hcurrent : s.drafts.get? currentRun.data.draftId = some current)
    (hundecided : current.state.decided = false)
    (hclaims : data.claims = false)
    (hopen : (currentRun.update run runData runState).state.unfinished = true →
      (current.update draft data state).state.inResearch = true) :
    s.KeepsDecided (s.writeBoth runId run runData runState draft data state) ∧
      (s.writeBoth runId run runData runState draft data state).Settled := by
  have hdraftId : ∀ run' : StrategyResearchRun,
      run' = currentRun.update run runData runState → run'.data.draftId = currentRun.data.draftId := by
    rintro _ rfl
    rcases (Stored.update_data : (currentRun.update run runData runState).data = _ ∨ _) with heq | heq
    · rw [heq]
      exact hrunData
    · rw [heq]
  have hkeeps : s.KeepsDecided (s.writeBoth runId run runData runState draft data state) := by
    have hwrite : (s.writeRun runId run runData runState).KeepsDecided
        (s.writeBoth runId run runData runState draft data state) := by
      refine keepsDecided_writeDraft fun current' hcurrent' hdecided => ?_
      rw [hid] at hcurrent'
      rw [show (s.writeRun runId run runData runState).drafts = s.drafts from rfl, hcurrent]
        at hcurrent'
      cases hcurrent'
      rw [hundecided] at hdecided
      cases hdecided
    exact hwrite
  refine ⟨hkeeps, h.frame hkeeps.verdicts rfl rfl ?_ ?_ ?_⟩
  · intro x run' hrun'
    rcases writeRun_cases hcurrentRun hrun' with ⟨rfl, hupdated⟩ | ⟨hx, hother⟩
    · refine ⟨current.update draft data state, ?_, ?_⟩
      · rw [hdraftId run' hupdated, ← hid]
        refine writeDraft_self ?_
        rw [hid]
        exact hcurrent
      · rw [hupdated]
        exact hopen
    · obtain ⟨draft', hdraft', hresearch⟩ := h.researched x run' hother
      refine ⟨draft', ?_, hresearch⟩
      have hne : run'.data.draftId ≠ run.data.draftId := by
        rw [hid]
        intro heq
        exact hx (h.apart x runId run' currentRun hother hcurrentRun heq)
      exact (writeDraft_other hne draft data state).trans hdraft'
  · have hback : ∀ x run', (s.writeBoth runId run runData runState draft data state).runs.get? x =
        some run' → ∃ run₀, s.runs.get? x = some run₀ ∧ run₀.data.draftId = run'.data.draftId := by
      intro x run' hrun'
      rcases writeRun_cases hcurrentRun hrun' with ⟨rfl, hupdated⟩ | ⟨-, hother⟩
      · exact ⟨currentRun, hcurrentRun, (hdraftId run' hupdated).symm⟩
      · exact ⟨run', hother, rfl⟩
    intro r r' run₁ run₂ hrun₁ hrun₂ heq
    obtain ⟨run₁', hrun₁', hid₁⟩ := hback r run₁ hrun₁
    obtain ⟨run₂', hrun₂', hid₂⟩ := hback r' run₂ hrun₂
    exact h.apart r r' run₁' run₂' hrun₁' hrun₂' (by rw [hid₁, hid₂, heq])
  · intro x draft' hdraft' hclaims'
    have hcurrent' : (s.writeRun runId run runData runState).drafts.get? run.data.draftId =
        some current := by
      rw [hid]
      exact hcurrent
    rcases writeDraft_cases hcurrent' hdraft' with ⟨rfl, rfl⟩ | ⟨-, hdraft'⟩
    · rcases (Stored.update_data : (current.update draft data state).data = _ ∨ _) with heq | heq
      · rw [heq, hclaims] at hclaims'
        cases hclaims'
      · rw [heq] at hclaims'
        have haccepted := h.approved _ current hcurrent hclaims'
        exact absurd haccepted (ProposalState.not_accepted hundecided)
    · exact h.approved x draft' hdraft' hclaims'

end

end ProposalStore

/-! ## What is written -/

namespace ProposalStore

variable {Spec Identity : Type}

/-- Records are only added. -/
structure Extends (s s' : ProposalStore Spec Identity) : Prop where
  drafts : ∀ draftId draft, s.drafts.get? draftId = some draft → s'.drafts.get? draftId = some draft
  runs : ∀ runId run, s.runs.get? runId = some run → s'.runs.get? runId = some run

theorem Extends.refl (s : ProposalStore Spec Identity) : s.Extends s :=
  ⟨fun _ _ h => h, fun _ _ h => h⟩

theorem Extends.trans {s s' s'' : ProposalStore Spec Identity} (h : s.Extends s')
    (h' : s'.Extends s'') : s.Extends s'' :=
  ⟨fun d draft hd => h'.drafts d draft (h.drafts d draft hd),
    fun r run hr => h'.runs r run (h.runs r run hr)⟩

theorem Extends.keepsDecided {s s' : ProposalStore Spec Identity} (h : s.Extends s') :
    s.KeepsDecided s' :=
  fun draftId draft hdraft _ => ⟨draft, h.drafts draftId draft hdraft, rfl⟩

theorem KeepsDecided.extend {s s' s'' : ProposalStore Spec Identity} (h : s.KeepsDecided s')
    (h' : s'.Extends s'') : s.KeepsDecided s'' := by
  intro draftId draft hdraft hdecided
  obtain ⟨draft', hdraft', hstate⟩ := h draftId draft hdraft hdecided
  exact ⟨draft', h'.drafts draftId draft' hdraft', hstate⟩

theorem KeepsVerdicts.trans {s s' s'' : ProposalStore Spec Identity} (h : s.KeepsVerdicts s')
    (h' : s'.KeepsVerdicts s'') : s.KeepsVerdicts s'' where
  accepted := fun draftId hs => h'.accepted draftId (h.accepted draftId hs)
  rejected := by
    intro draftId draft hdraft hstate
    obtain ⟨draft', hdraft', hstate'⟩ := h.rejected draftId draft hdraft hstate
    exact h'.rejected draftId draft' hdraft' hstate'

/-- A draft that is read from settled records. -/
theorem Settled.seen {s : ProposalStore Spec Identity} (h : s.Settled) {draftId : Uuid}
    {draft : StrategyDraft Spec} (hdraft : s.drafts.get? draftId = some draft) :
    s.Seen draftId draft :=
  fun hclaims => ⟨draft, hdraft, h.approved draftId draft hdraft hclaims⟩

/-- What was read of a draft that is still undecided does not let `submit` build a version. -/
theorem Seen.not_claims {s : ProposalStore Spec Identity} {draftId : Uuid}
    {loaded current : StrategyDraft Spec} (h : s.Seen draftId loaded)
    (hcurrent : s.drafts.get? draftId = some current) (hstate : current.state.decided = false) :
    loaded.data.claims = false := by
  by_contra hclaims
  rw [Bool.not_eq_false] at hclaims
  obtain ⟨draft, hdraft, haccepted⟩ := h hclaims
  rw [hcurrent] at hdraft
  cases hdraft
  exact ProposalState.not_accepted hstate haccepted

/-- A version is built of an accepted draft. -/
theorem Settled.build {s : ProposalStore Spec Identity} (h : s.Settled) {versionId : Uuid}
    {version : SubmittedVersion Spec Identity} (hnew : s.versions.get? versionId = none)
    (haccepted : s.Accepted version.strategyId)
    (hunique : version.fingerprint ∉ s.versions.values.map SubmittedVersion.fingerprint) :
    Settled { s with versions := s.versions.set versionId version } where
  researched := h.researched
  apart := h.apart
  approved := h.approved
  built := by
    intro v hv
    rw [Dict.values_set_new _ hnew] at hv
    rcases List.mem_append.1 hv with hv | hv
    · exact h.built v hv
    · rw [List.mem_singleton.1 hv]
      exact haccepted
  unique := by
    show ((s.versions.set versionId version).values.map SubmittedVersion.fingerprint).Nodup
    rw [Dict.values_set_new _ hnew, List.map_append]
    refine List.nodup_append.2 ⟨h.unique, List.nodup_singleton _, ?_⟩
    intro x hx y hy hxy
    rw [List.mem_singleton.1 hy] at hxy
    rw [hxy] at hx
    exact hunique hx
  once := h.once
  logged := h.logged

section
variable [DecidableEq Spec] [DecidableEq Identity] {s : ProposalStore Spec Identity}

omit [DecidableEq Spec] in
theorem not_duplicate {fingerprint : Spec → Identity} {specification : Spec}
    (h : s.duplicate fingerprint specification = false) :
    fingerprint specification ∉ s.versions.values.map SubmittedVersion.fingerprint := by
  intro hmem
  obtain ⟨version, hversion, heq⟩ := List.mem_map.1 hmem
  have hany := List.any_eq_false.1 h version hversion
  rw [heq] at hany
  simp at hany

/-- **`submit` of an accepted draft.** -/
theorem Settled.submit (h : s.Settled) (fingerprint : Spec → Identity) {draftId versionId : Uuid}
    (loaded : StrategyDraft Spec) (specification : Spec) (haccepted : s.Accepted draftId)
    (hnew : s.versions.get? versionId = none)
    (hduplicate : s.duplicate fingerprint specification = false) :
    s.KeepsVerdicts (s.submitVersion fingerprint draftId loaded specification versionId) ∧
      (s.submitVersion fingerprint draftId loaded specification versionId).Settled := by
  obtain ⟨current, hcurrent, hstate⟩ := haccepted
  let data := { loaded.data with
    lifecycleState := .specified
    versionId := some versionId
    stages := (loaded.data.stages.set "proposal_approval" "ACCEPTED").set "formal_backtest"
      "READY_TO_RUN" }
  have haccepted : (current.update loaded data .specified).state.accepted = true := by
    rcases (Stored.update_state : (current.update loaded data .specified).state = _ ∨ _) with
      heq | ⟨-, heq⟩
    · rw [heq]
      rfl
    · rw [heq]
      exact hstate
  have hwrite := h.writeDraft data .specified hcurrent (fun _ => haccepted)
    (fun hrejected => by rw [hrejected] at hstate; cases hstate)
    (fun hopen => absurd hstate (ProposalState.not_accepted
      (ProposalState.undecided_of_inResearch hopen))) (fun _ => haccepted)
  refine ⟨⟨hwrite.1.accepted, hwrite.1.rejected⟩, hwrite.2.build hnew ?_ ?_⟩
  · exact ⟨_, writeDraft_self hcurrent, haccepted⟩
  · exact not_duplicate hduplicate

omit [DecidableEq Identity] in
theorem submitVersion_other (fingerprint : Spec → Identity) {draftId x : Uuid} (hx : x ≠ draftId)
    (loaded : StrategyDraft Spec) (specification : Spec) (versionId : Uuid) :
    (s.submitVersion fingerprint draftId loaded specification versionId).drafts.get? x =
      s.drafts.get? x :=
  writeDraft_other hx _ _ _

end

section
variable [DecidableEq Spec] {s : ProposalStore Spec Identity}

/-- A human decision on an undecided draft. -/
theorem Settled.decideProposal (h : s.Settled) {draftId : Uuid} {loaded current : StrategyDraft Spec}
    (decision : ProposalDecision Spec) (actor : Uuid) (reason : String) (now : Time)
    (hseen : s.Seen draftId loaded) (hcurrent : s.drafts.get? draftId = some current)
    (hstate : current.state = .awaitingStrategyApproval) (hloaded : loaded.state = current.state) :
    s.KeepsVerdicts (s.decideProposal draftId loaded decision actor reason now) ∧
      (s.decideProposal draftId loaded decision actor reason now).Settled := by
  have hundecided : current.state.decided = false := by
    rw [hstate]
    rfl
  have hnew : ∀ data, (current.update loaded data decision.state).state = decision.state := by
    intro data
    refine Stored.update_changes ?_
    rw [hloaded, hstate]
    cases decision <;> exact fun h => by cases h
  have hclaims : (current.update loaded (decision.data loaded.data actor reason now)
      decision.state).data.claims = true → decision.state.accepted = true := by
    intro hclaims
    cases decision with
    | approve specification => rfl
    | reject =>
      exfalso
      rcases (Stored.update_data : (current.update loaded (ProposalDecision.reject.data loaded.data
          actor reason now) ProposalDecision.reject.state).data = _ ∨ _) with heq | heq
      · have hnot := hseen.not_claims hcurrent hundecided
        rw [heq] at hclaims
        have hauthority : decide (loaded.data.provenance.approvalAuthority =
            some ApprovalAuthority.automationPolicy) = true := hclaims
        rw [(Bool.or_eq_false_iff.1 hnot).2] at hauthority
        cases hauthority
      · rw [heq] at hclaims
        exact ProposalState.not_accepted hundecided (h.approved _ _ hcurrent hclaims)
  have hwrite := h.writeDraft (decision.data loaded.data actor reason now) decision.state hcurrent
    (fun haccepted => absurd haccepted (ProposalState.not_accepted hundecided))
    (fun hrejected => by rw [hstate] at hrejected; cases hrejected)
    (fun hopen => by rw [hstate] at hopen; cases hopen)
    (fun hdata => by rw [hnew]; exact hclaims hdata)
  refine ⟨⟨hwrite.1.accepted, hwrite.1.rejected⟩, hwrite.2.log decision.event (h.not_logged hcurrent hundecided) ?_⟩
  refine ⟨_, writeDraft_self hcurrent, ?_⟩
  rw [hnew]
  cases decision <;> rfl

/-- A failure of the automation is noted. -/
theorem Settled.block (h : s.Settled) {draftId : Uuid} {loaded : StrategyDraft Spec}
    (failure : String) (hseen : s.Seen draftId loaded) :
    s.KeepsVerdicts (s.blockAutomation draftId loaded failure) ∧
      (s.blockAutomation draftId loaded failure).Settled := by
  cases hcurrent : s.drafts.get? draftId with
  | none =>
    have hsame : s.blockAutomation draftId loaded failure = s := by
      show { s with drafts := s.drafts.modify draftId _ } = s
      rw [Dict.modify_of_none hcurrent]
    rw [hsame]
    exact ⟨(KeepsDecided.refl s).verdicts, h⟩
  | some current =>
    have hsame : ∀ data, (current.update loaded data loaded.state).state = current.state :=
      fun _ => if_pos rfl
    refine h.writeDraft _ _ hcurrent ?_ ?_ ?_ ?_
    · rw [hsame]
      exact id
    · rw [hsame]
      exact id
    · rw [hsame]
      exact id
    · intro hclaims
      rw [hsame]
      rcases (Stored.update_data : (current.update loaded { loaded.data with
          entries := loaded.data.entries.set "automation_failure" failure } loaded.state).data = _ ∨ _)
        with heq | heq
      · rw [heq] at hclaims
        obtain ⟨draft, hdraft, haccepted⟩ := hseen hclaims
        rw [hcurrent] at hdraft
        cases hdraft
        exact haccepted
      · rw [heq] at hclaims
        exact h.approved _ _ hcurrent hclaims

omit [DecidableEq Spec] in
/-- The alternative families are new drafts. -/
theorem addAlternative_settled (h : s.Settled) {parentId : Uuid} {parent : DraftData Spec}
    (hclaims : parent.claims = false) (alternative : Uuid × Spec × Dict String String) :
    s.Extends (addAlternative parentId parent s alternative) ∧
      (addAlternative parentId parent s alternative).Settled := by
  have hextends : s.Extends (addAlternative parentId parent s alternative) :=
    ⟨fun _ _ hdraft => Dict.get?_setDefault_some hdraft _ _, fun _ _ hrun => hrun⟩
  refine ⟨hextends, h.frame hextends.keepsDecided.verdicts rfl rfl ?_ h.apart ?_⟩
  · intro runId run hrun
    obtain ⟨draft, hdraft, hopen⟩ := h.researched runId run hrun
    exact ⟨draft, hextends.drafts _ _ hdraft, hopen⟩
  · intro draftId draft hdraft hdraftClaims
    unfold addAlternative at hdraft
    dsimp only at hdraft
    rw [Dict.get?_setDefault] at hdraft
    split at hdraft
    · cases hdraft
      rename_i heq
      subst heq
      cases hold : s.drafts.get? alternative.1 with
      | none =>
        rw [hold] at hdraftClaims
        have hparent : parent.claims = true := hdraftClaims
        rw [hclaims] at hparent
        cases hparent
      | some old =>
        rw [hold] at hdraftClaims
        exact h.approved _ old hold hdraftClaims
    · exact h.approved draftId draft hdraft hdraftClaims

omit [DecidableEq Spec] in
theorem addAlternatives_settled (h : s.Settled) (parentId : Uuid) {parent : DraftData Spec}
    (hclaims : parent.claims = false) (alternatives : List (Uuid × Spec × Dict String String)) :
    s.Extends (alternatives.foldl (addAlternative parentId parent) s) ∧
      (alternatives.foldl (addAlternative parentId parent) s).Settled := by
  induction alternatives generalizing s with
  | nil => exact ⟨.refl s, h⟩
  | cons alternative alternatives ih =>
    obtain ⟨hextends, hsettled⟩ := addAlternative_settled h hclaims alternative
    obtain ⟨hrest, hlast⟩ := ih hsettled
    exact ⟨hextends.trans hrest, hlast⟩

omit [DecidableEq Spec] in
/-- A draft and its run under fresh ids. -/
theorem createDraft_settled (h : s.Settled) (draftId runId accountId : Uuid) :
    s.Extends (s.createDraft draftId runId accountId) ∧
      (s.createDraft draftId runId accountId).Settled := by
  unfold createDraft
  split
  · exact ⟨.refl s, h⟩
  rename_i hfresh
  rw [Bool.or_eq_true, not_or, Bool.not_eq_true, Bool.not_eq_true, Option.isSome_eq_false_iff,
    Option.isSome_eq_false_iff, Option.isNone_iff_eq_none, Option.isNone_iff_eq_none] at hfresh
  obtain ⟨hdraftNew, hrunNew⟩ := hfresh
  have hdrafts : ∀ x draft, s.drafts.get? x = some draft → x ≠ draftId := by
    rintro x draft hx rfl
    rw [hdraftNew] at hx
    cases hx
  have hextends : s.Extends { s with
      drafts := s.drafts.set draftId ⟨.queued, { accountId, researchRunId := some runId }⟩
      runs := s.runs.set runId ⟨.queued, { draftId }⟩ } := by
    constructor
    · intro x draft hdraft
      exact (Dict.get?_set_ne _ _ (hdrafts x draft hdraft)).trans hdraft
    · intro x run hrun
      have hne : x ≠ runId := by
        rintro rfl
        rw [hrunNew] at hrun
        cases hrun
      exact (Dict.get?_set_ne _ _ hne).trans hrun
  have hruns : ∀ x run, (s.runs.set runId ⟨.queued, { draftId }⟩).get? x = some run →
      x = runId ∧ run = ⟨.queued, { draftId }⟩ ∨ s.runs.get? x = some run := by
    intro x run hrun
    rw [Dict.get?_set] at hrun
    split at hrun
    · rename_i heq
      exact .inl ⟨heq, (Option.some.inj hrun).symm⟩
    · exact .inr hrun
  have hother : ∀ x run, s.runs.get? x = some run → run.data.draftId ≠ draftId := by
    intro x run hrun
    obtain ⟨draft, hdraft, -⟩ := h.researched x run hrun
    exact hdrafts _ draft hdraft
  refine ⟨hextends, h.frame hextends.keepsDecided.verdicts rfl rfl ?_ ?_ ?_⟩
  · intro x run hrun
    rcases hruns x run hrun with ⟨rfl, rfl⟩ | hrun
    · exact ⟨_, Dict.get?_set_self _ _ _, fun _ => rfl⟩
    · obtain ⟨draft, hdraft, hopen⟩ := h.researched x run hrun
      exact ⟨draft, hextends.drafts _ _ hdraft, hopen⟩
  · intro r r' run run' hrun hrun' heq
    rcases hruns r run hrun with ⟨rfl, rfl⟩ | hold
    · rcases hruns r' run' hrun' with ⟨rfl, -⟩ | hold'
      · rfl
      · exact absurd heq.symm (hother r' run' hold')
    · rcases hruns r' run' hrun' with ⟨rfl, rfl⟩ | hold'
      · exact absurd heq (hother r run hold)
      · exact h.apart r r' run run' hold hold' heq
  · intro x draft hdraft hclaims
    rw [Dict.get?_set] at hdraft
    split at hdraft
    · cases hdraft
      cases hclaims
    · exact h.approved x draft hdraft hclaims

omit [DecidableEq Spec] in
/-- A lost run is queued again. -/
theorem Settled.requeue (h : s.Settled) {runId : Uuid} {run : StrategyResearchRun}
    (hidle : s.Idle runId) :
    (s.requeueRun runId run).Settled := by
  obtain ⟨current, draft, hcurrent, -, hdraft, hopen⟩ := hidle
  have hsame : (current.update run run.data .queued).data = current.data := if_pos rfl
  have hback : ∀ x run', (s.requeueRun runId run).runs.get? x = some run' →
      (x = runId ∧ run'.data = current.data) ∨ s.runs.get? x = some run' := by
    intro x run' hrun'
    rcases writeRun_cases hcurrent hrun' with ⟨rfl, rfl⟩ | ⟨-, hother⟩
    · exact .inl ⟨rfl, hsame⟩
    · exact .inr hother
  have hkeeps : s.KeepsDecided (s.requeueRun runId run) := fun _ draft hdraft _ => ⟨draft, hdraft, rfl⟩
  refine h.frame hkeeps.verdicts rfl rfl ?_ ?_ h.approved
  · intro x run' hrun'
    rcases hback x run' hrun' with ⟨rfl, hdata⟩ | hother
    · rw [hdata]
      exact ⟨draft, hdraft, fun _ => hopen⟩
    · exact h.researched x run' hother
  · have hid : ∀ x run', (s.requeueRun runId run).runs.get? x = some run' →
        ∃ run₀, s.runs.get? x = some run₀ ∧ run₀.data.draftId = run'.data.draftId := by
      intro x run' hrun'
      rcases hback x run' hrun' with ⟨rfl, hdata⟩ | hother
      · exact ⟨current, hcurrent, by rw [hdata]⟩
      · exact ⟨run', hother, rfl⟩
    intro r r' run₁ run₂ hrun₁ hrun₂ heq
    obtain ⟨run₁', hrun₁', hid₁⟩ := hid r run₁ hrun₁
    obtain ⟨run₂', hrun₂', hid₂⟩ := hid r' run₂ hrun₂
    exact h.apart r r' run₁' run₂' hrun₁' hrun₂' (by rw [hid₁, hid₂, heq])

end

end ProposalStore

end Matrades

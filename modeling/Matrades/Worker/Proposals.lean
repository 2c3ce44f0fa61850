import Matrades.Base.Dict
import Matrades.Base.Run
import Matrades.Shared.Http
import Matrades.Strategies.EntryContext
import Matrades.Strategies.Schema

/-!
# Strategy proposals

`decide_strategy_proposal` and `submit` (`routes/strategies.py`), `_advance_draft`
(`tasks/strategy_autonomy.py`), `generate_strategy_draft` (`tasks/strategies.py`) and the recovery in
`prepare_strategy_research` (`research_pipeline.py`), for the drafts of one owner. A transaction reads a
record in one step and writes it in another. A write waits for the row if another transaction has it
locked, and sets the columns that it changes.
-/

namespace Matrades

open Base

/-! ## Records -/

/-- The states of a draft and of its research run. -/
inductive ProposalState
  | queued | researching | awaitingStrategyApproval | noQualifyingStrategy | degraded
  | draft | specified | rejected
  deriving DecidableEq, Repr

/-- The columns `state` and `data` of a record. -/
structure Stored (D : Type) where
  state : ProposalState
  data : D
  deriving DecidableEq

/-- `ResourceStore.update` of a record that was read as `loaded`: a column is written if its value
differs from the one that was read. -/
def Stored.update {D : Type} [DecidableEq D] (current loaded : Stored D) (data : D)
    (state : ProposalState) : Stored D where
  state := if state = loaded.state then current.state else state
  data := if data = loaded.data then current.data else data

inductive HumanApproval
  | approved | rejected | notRequested
  deriving DecidableEq, Repr

inductive ApprovalAuthority
  | human | automationPolicy
  deriving DecidableEq, Repr

structure Provenance where
  humanApproval : Option HumanApproval := none
  approvalAuthority : Option ApprovalAuthority := none
  decisionActorId : Option Uuid := none
  approvedAt : Option Time := none
  policySavedAt : Option String := none
  deriving DecidableEq

/-- The data of a draft: `accountId` of its research basis, the `stages` of its pipeline, and the other
entries as texts. -/
structure DraftData (Spec : Type) where
  accountId : Uuid
  researchRunId : Option Uuid := none
  specification : Option Spec := none
  proposedSpecification : Option Spec := none
  lifecycleState : ProposalState := .queued
  provenance : Provenance := {}
  stages : Dict String String := Dict.empty
  decisionReason : Option String := none
  versionId : Option Uuid := none
  parentResearchDraftId : Option Uuid := none
  entries : Dict String String := Dict.empty
  deriving DecidableEq

abbrev StrategyDraft (Spec : Type) := Stored (DraftData Spec)

structure RunData where
  draftId : Uuid
  startedAt : Option Time := none
  stages : Dict String String := Dict.empty
  libraryCandidateDraftIds : List Uuid := []
  entries : Dict String String := Dict.empty
  deriving DecidableEq

abbrev StrategyResearchRun := Stored RunData

/-- A version as `submit` builds it. -/
structure SubmittedVersion (Spec Identity : Type) where
  strategyId : Uuid
  specification : Spec
  fingerprint : Identity
  approvalAuthority : ApprovalAuthority
  state : StrategyState := .implemented
  stages : Dict String String
  latestBacktestId : Option Uuid := none

/-- What `automation_policy` reads of an account. -/
structure AutomatedAccount where
  deleted : Bool
  enabled : Bool
  policySavedAt : Option String := none

inductive DecisionEvent
  | rejected | accepted | acceptedByAutomationPolicy
  deriving DecidableEq, Repr

/-- The records of an owner: `backtests` holds the versions of the queued backtests, `decisions` the
audit records of the decisions on drafts. -/
structure ProposalStore (Spec Identity : Type) where
  drafts : Dict Uuid (StrategyDraft Spec) := Dict.empty
  runs : Dict Uuid StrategyResearchRun := Dict.empty
  versions : Dict Uuid (SubmittedVersion Spec Identity) := Dict.empty
  backtests : Dict Uuid Uuid := Dict.empty
  accounts : Dict Uuid AutomatedAccount := Dict.empty
  decisions : List (Uuid × DecisionEvent) := []

/-! ## What the transactions read and write -/

/-- A decision on a proposal; an accepted one has the validated specification. -/
inductive ProposalDecision (Spec : Type)
  | reject
  | approve (specification : Spec)

namespace ProposalDecision

def state {Spec : Type} : ProposalDecision Spec → ProposalState
  | reject => .rejected
  | approve _ => .draft

def event {Spec : Type} : ProposalDecision Spec → DecisionEvent
  | reject => .rejected
  | approve _ => .accepted

/-- What a decision makes of the data of the draft. -/
def data {Spec : Type} (data : DraftData Spec) (actor : Uuid) (reason : String) (now : Time) :
    ProposalDecision Spec → DraftData Spec
  | reject =>
    let stages := (data.stages.set "proposal_approval" "REJECTED").set "formal_backtest" "BLOCKED"
    let provenance := { data.provenance with
      humanApproval := some .rejected
      decisionActorId := some actor }
    { data with lifecycleState := .rejected, decisionReason := some reason, stages, provenance }
  | approve specification =>
    let stages := (data.stages.set "proposal_approval" "ACCEPTED").set "formal_backtest"
      "WAITING_FOR_VERSION"
    let provenance := { data.provenance with
      humanApproval := some .approved
      decisionActorId := some actor
      approvedAt := some now }
    { data with
      specification := some specification
      lifecycleState := .draft
      decisionReason := some reason
      stages
      provenance }

end ProposalDecision

/-- What a research run has found. -/
inductive ResearchFindings (Spec : Type)
  | noQualifying (stages : Dict String String) (details : Dict String String)
  /-- The proposal, and the alternative families with the ids of their drafts. -/
  | proposal (specification : Spec) (stages : Dict String String) (details : Dict String String)
      (alternatives : List (Uuid × Spec × Dict String String))

def ResearchFindings.state {Spec : Type} : ResearchFindings Spec → ProposalState
  | noQualifying _ _ => .noQualifyingStrategy
  | proposal _ _ _ _ => .awaitingStrategyApproval

/-- The transactions of a research run that read the run and its draft and write both. -/
inductive ResearchWrite (Spec : Type)
  | evidence (pack : String) (holdout : String)
  | findings (findings : ResearchFindings Spec)
  /-- The failure handler; `working` if the exception was raised at work. -/
  | failure (working : Bool) (error : String)

namespace ProposalStore

variable {Spec Identity : Type} [DecidableEq Spec] [DecidableEq Identity]

def writeDraft (s : ProposalStore Spec Identity) (draftId : Uuid) (loaded : StrategyDraft Spec)
    (data : DraftData Spec) (state : ProposalState) : ProposalStore Spec Identity :=
  { s with drafts := s.drafts.modify draftId fun current => current.update loaded data state }

def writeRun (s : ProposalStore Spec Identity) (runId : Uuid) (loaded : StrategyResearchRun)
    (data : RunData) (state : ProposalState) : ProposalStore Spec Identity :=
  { s with runs := s.runs.modify runId fun current => current.update loaded data state }

/-- The checks of `decide_strategy_proposal`. -/
def readProposal (s : ProposalStore Spec Identity) (draftId : Uuid) (action : String) :
    Except HttpException (StrategyDraft Spec × ProposalDecision Spec) := do
  let some draft := s.drafts.get? draftId | .error ⟨404, "strategy draft not found"⟩
  raiseIf (draft.state ≠ .awaitingStrategyApproval) ⟨409, "strategy is not awaiting approval"⟩
  if upper action = "REJECT" then .ok (draft, .reject)
  else
    raiseIf (upper action ≠ "APPROVE") ⟨422, "unsupported decision"⟩
    let some specification := draft.data.proposedSpecification | .error internalError
    .ok (draft, .approve specification)

def decideProposal (s : ProposalStore Spec Identity) (draftId : Uuid) (loaded : StrategyDraft Spec)
    (decision : ProposalDecision Spec) (actor : Uuid) (reason : String) (now : Time) :
    ProposalStore Spec Identity :=
  { s.writeDraft draftId loaded (decision.data loaded.data actor reason now) decision.state with
    decisions := s.decisions ++ [(draftId, decision.event)] }

/-- The account exists, is not deleted, and its automation policy is enabled. -/
def automated? (s : ProposalStore Spec Identity) (data : DraftData Spec) :
    Option AutomatedAccount :=
  (s.accounts.get? data.accountId).filter fun account => !account.deleted && account.enabled

/-- The checks of `submit` on the draft. -/
def readApproved (s : ProposalStore Spec Identity) (draftId : Uuid) :
    Except HttpException (StrategyDraft Spec × Spec) := do
  let some draft := s.drafts.get? draftId | .error ⟨404, "strategy draft not found"⟩
  let approved :=
    if draft.data.provenance.approvalAuthority = some .automationPolicy then
      (s.automated? draft.data).isSome
    else draft.data.provenance.humanApproval = some .approved
  match draft.data.specification, approved with
  | some specification, true => .ok (draft, specification)
  | _, _ => .error ⟨422, "approved strategy required"⟩

section
variable (fingerprint : Spec → Identity)

/-- The scan of `submit`: is there a version with the fingerprint of the specification? -/
def duplicate (s : ProposalStore Spec Identity) (specification : Spec) : Bool :=
  s.versions.values.any fun version => version.fingerprint = fingerprint specification

/-- What `submit` writes. -/
def submitVersion (s : ProposalStore Spec Identity) (draftId : Uuid) (loaded : StrategyDraft Spec)
    (specification : Spec) (versionId : Uuid) : ProposalStore Spec Identity :=
  let stages := (loaded.data.stages.set "proposal_approval" "ACCEPTED").set "formal_backtest"
    "READY_TO_RUN"
  let version := {
    strategyId := draftId
    specification
    fingerprint := fingerprint specification
    approvalAuthority := loaded.data.provenance.approvalAuthority.getD .human
    stages }
  let data := { loaded.data with lifecycleState := .specified, versionId := some versionId, stages }
  { s.writeDraft draftId loaded data .specified with versions := s.versions.set versionId version }

/-- What `_advance_draft` makes of the data of the draft. -/
def automatedData (data : DraftData Spec) (specification : Spec) (account : AutomatedAccount) :
    DraftData Spec :=
  let provenance := { data.provenance with
    humanApproval := some .notRequested
    approvalAuthority := some .automationPolicy
    policySavedAt := account.policySavedAt }
  { data with specification := some specification, lifecycleState := .draft, provenance }

/-- What `_advance_draft` writes: the draft is accepted, submitted, and its backtest queued. -/
def advanceDraft (s : ProposalStore Spec Identity) (draftId : Uuid) (loaded : StrategyDraft Spec)
    (specification : Spec) (account : AutomatedAccount) (versionId backtestId : Uuid) :
    ProposalStore Spec Identity :=
  let data := automatedData loaded.data specification account
  let accepted := s.writeDraft draftId loaded data .draft
  let submitted := accepted.submitVersion fingerprint draftId ⟨.draft, data⟩ specification versionId
  { submitted with
    versions := submitted.versions.modify versionId fun version =>
      { version with state := .backtesting, latestBacktestId := some backtestId }
    backtests := submitted.backtests.set backtestId versionId
    decisions := submitted.decisions ++ [(draftId, .acceptedByAutomationPolicy)] }

end

/-- The handler of `_advance_draft`. -/
def blockAutomation (s : ProposalStore Spec Identity) (draftId : Uuid) (loaded : StrategyDraft Spec)
    (failure : String) : ProposalStore Spec Identity :=
  let data := { loaded.data with entries := loaded.data.entries.set "automation_failure" failure }
  s.writeDraft draftId loaded data loaded.state

/-- The first transaction of `_generate_strategy`. -/
def startResearch (s : ProposalStore Spec Identity) (runId : Uuid) (run : StrategyResearchRun)
    (draft : StrategyDraft Spec) (now : Time) : ProposalStore Spec Identity :=
  let s' := s.writeRun runId run { run.data with startedAt := some now } .researching
  s'.writeDraft run.data.draftId draft { draft.data with lifecycleState := .researching } .researching

/-- The transaction that attaches the evidence. -/
def attachEvidence (s : ProposalStore Spec Identity) (runId : Uuid) (run : StrategyResearchRun)
    (draft : StrategyDraft Spec) (pack holdout : String) : ProposalStore Spec Identity :=
  let entries := (run.data.entries.set "evidence_pack" pack).set "holdout_evidence" holdout
  let s' := s.writeRun runId run { run.data with entries } .researching
  let data := { draft.data with entries := draft.data.entries.set "evidence_pack" pack }
  s'.writeDraft run.data.draftId draft data draft.state

/-- A draft of an alternative family, if there is none with its id. -/
def addAlternative (parentId : Uuid) (parent : DraftData Spec) (s : ProposalStore Spec Identity)
    (alternative : Uuid × Spec × Dict String String) : ProposalStore Spec Identity :=
  let data := { parent with
    proposedSpecification := some alternative.2.1
    parentResearchDraftId := some parentId
    entries := parent.entries.update alternative.2.2 }
  { s with drafts := s.drafts.setDefault alternative.1 ⟨.awaitingStrategyApproval, data⟩ }

/-- The last transaction of `_generate_strategy`. -/
def storeFindings (s : ProposalStore Spec Identity) (runId : Uuid) (run : StrategyResearchRun)
    (draft : StrategyDraft Spec) : ResearchFindings Spec → ProposalStore Spec Identity
  | .noQualifying stages details =>
    let runData := { run.data with stages, entries := run.data.entries.update details }
    let s' := s.writeRun runId run runData .noQualifyingStrategy
    let data := { draft.data with
      stages
      lifecycleState := .noQualifyingStrategy
      entries := draft.data.entries.update details }
    s'.writeDraft run.data.draftId draft data .noQualifyingStrategy
  | .proposal specification stages details alternatives =>
    let runData := { run.data with
      stages
      entries := run.data.entries.update details
      libraryCandidateDraftIds := alternatives.map Prod.fst }
    let s' := s.writeRun runId run runData .awaitingStrategyApproval
    let data := { draft.data with
      proposedSpecification := some specification
      researchRunId := some runId
      lifecycleState := .awaitingStrategyApproval
      entries := draft.data.entries.update details }
    let s'' := s'.writeDraft run.data.draftId draft data .awaitingStrategyApproval
    alternatives.foldl (addAlternative run.data.draftId data) s''

/-- `_mark_strategy_research_failed` -/
def markResearchFailed (s : ProposalStore Spec Identity) (runId : Uuid) (run : StrategyResearchRun)
    (draft : StrategyDraft Spec) (error : String) : ProposalStore Spec Identity :=
  let entries := (run.data.entries.set "state" "DEGRADED").set "failure" error
  let s' := s.writeRun runId run { run.data with entries } .degraded
  let data := { draft.data with entries := draft.data.entries.set "failure" error }
  s'.writeDraft run.data.draftId draft data .degraded

def applyResearch (s : ProposalStore Spec Identity) (runId : Uuid) (run : StrategyResearchRun)
    (draft : StrategyDraft Spec) : ResearchWrite Spec → ProposalStore Spec Identity
  | .evidence pack holdout => s.attachEvidence runId run draft pack holdout
  | .findings findings => s.storeFindings runId run draft findings
  | .failure _ error => s.markResearchFailed runId run draft error

/-- The recovery of a run whose worker is lost. -/
def requeueRun (s : ProposalStore Spec Identity) (runId : Uuid) (run : StrategyResearchRun) :
    ProposalStore Spec Identity :=
  s.writeRun runId run run.data .queued

/-- `create_draft` and `prepare_strategy_research`: a draft with its run, both under fresh ids. -/
def createDraft (s : ProposalStore Spec Identity) (draftId runId accountId : Uuid) :
    ProposalStore Spec Identity :=
  if (s.drafts.get? draftId).isSome || (s.runs.get? runId).isSome then s
  else
    { s with
      drafts := s.drafts.set draftId ⟨.queued, { accountId, researchRunId := some runId }⟩
      runs := s.runs.set runId ⟨.queued, { draftId }⟩ }

end ProposalStore

/-! ## Requests, tasks and their steps -/

/-- Rows that a transaction locks until it ends. -/
inductive LockedRow
  | draft (draftId : Uuid)
  | run (runId : Uuid)
  /-- The market run behind a research run. -/
  | marketRun (runId : Uuid)
  deriving DecidableEq

/-- A request or a task under way, with the records it has read. -/
inductive ProposalPhase (Spec : Type)
  | deciding (draftId : Uuid) (loaded : StrategyDraft Spec) (decision : ProposalDecision Spec)
      (actor : Uuid) (reason : String)
  | submitting (draftId : Uuid) (loaded : StrategyDraft Spec) (specification : Spec)
  /-- The scan of `submit` found no duplicate. -/
  | creating (draftId : Uuid) (loaded : StrategyDraft Spec) (specification : Spec)
  | advancing (draftId : Uuid) (loaded : StrategyDraft Spec) (specification : Spec)
      (account : AutomatedAccount)
  /-- The same in `_advance_draft`. -/
  | queueing (draftId : Uuid) (loaded : StrategyDraft Spec) (specification : Spec)
      (account : AutomatedAccount)
  | advanced (draftId : Uuid)
  | blocked (draftId : Uuid) (failure : String)
  | blocking (draftId : Uuid) (loaded : StrategyDraft Spec) (failure : String)
  | delivered (runId : Uuid)
  | starting (runId : Uuid) (run : StrategyResearchRun) (draft : StrategyDraft Spec)
  | working (runId : Uuid)
  | reading (runId : Uuid) (write : ResearchWrite Spec)
  | readingDraft (runId : Uuid) (write : ResearchWrite Spec) (run : StrategyResearchRun)
  | writing (runId : Uuid) (write : ResearchWrite Spec) (run : StrategyResearchRun)
      (draft : StrategyDraft Spec)
  | stored (runId : Uuid)
  | recovering (runId : Uuid) (run : StrategyResearchRun)
  | ended

namespace ProposalPhase

variable {Spec : Type}

def locks : ProposalPhase Spec → Option LockedRow
  | advancing draftId _ _ _ | queueing draftId _ _ _ => some (.draft draftId)
  | starting runId _ _ => some (.run runId)
  | recovering runId _ => some (.marketRun runId)
  | _ => none

/-- Is this a delivery of `generate_strategy_draft`? -/
def delivery : ProposalPhase Spec → Bool
  | delivered _ | starting _ _ _ | working _ | reading _ _ | readingDraft _ _ _ | writing _ _ _ _
  | stored _ => true
  | _ => false

end ProposalPhase

structure ProposalParty (Spec : Type) where
  begunAt : Time
  phase : ProposalPhase Spec

/-- The time limit of `generate_strategy_draft`. -/
def strategyTaskLimit : Time := 600 * second

def strategyRecoveryDelay : Time := 15 * minute

structure ProposalSystem (Spec Identity : Type) where
  now : Time
  store : ProposalStore Spec Identity := {}
  parties : Dict ℕ (ProposalParty Spec) := Dict.empty

/-- What begins. -/
inductive ProposalTask
  | decide (draftId : Uuid) (action reason : String) (actor : Uuid)
  | submit (draftId : Uuid)
  | advance (draftId : Uuid)
  | generate (runId : Uuid)
  | prepare (runId : Uuid)

inductive ProposalAction (Spec : Type)
  | scan
  | load
  | gather (pack holdout : String)
  | find (findings : ResearchFindings Spec)
  /-- The transaction is committed; what it creates has these ids. -/
  | commit (versionId backtestId : Uuid)
  | returns
  | throw (error : String)

inductive ProposalEvent (Spec : Type)
  | wait (duration : Time)
  | createDraft (draftId runId accountId : Uuid)
  | setAccount (accountId : Uuid) (account : AutomatedAccount)
  | begin (n : ℕ) (task : ProposalTask)
  | act (n : ℕ) (action : ProposalAction Spec)
  | lose (n : ℕ)

namespace ProposalSystem

variable {Spec Identity : Type} [DecidableEq Spec] [DecidableEq Identity]

/-- A party that has not been killed. -/
def alive? (s : ProposalSystem Spec Identity) (n : ℕ) : Option (ProposalParty Spec) :=
  (s.parties.get? n).filter fun p => !p.phase.delivery || s.now < p.begunAt + strategyTaskLimit

/-- No other party has the row locked. -/
def free (s : ProposalSystem Spec Identity) (n : ℕ) (row : LockedRow) : Bool :=
  s.parties.keys.all fun m => m = n || (s.alive? m).all fun p => p.phase.locks ≠ some row

def enter (s : ProposalSystem Spec Identity) (n : ℕ) (phase : ProposalPhase Spec) :
    ProposalSystem Spec Identity :=
  { s with parties := s.parties.set n ⟨s.now, phase⟩ }

def setPhase (s : ProposalSystem Spec Identity) (n : ℕ) (p : ProposalParty Spec)
    (phase : ProposalPhase Spec) : ProposalSystem Spec Identity :=
  { s with parties := s.parties.set n { p with phase } }

def write (s : ProposalSystem Spec Identity) (n : ℕ) (p : ProposalParty Spec)
    (phase : ProposalPhase Spec) (store : ProposalStore Spec Identity) :
    ProposalSystem Spec Identity :=
  { s.setPhase n p phase with store }

/-- The first read of a request or a task. -/
def begin (s : ProposalSystem Spec Identity) (n : ℕ) : ProposalTask → ProposalSystem Spec Identity
  | .decide draftId action reason actor =>
    match s.store.readProposal draftId action with
    | .error _ => s.enter n .ended
    | .ok (draft, decision) => s.enter n (.deciding draftId draft decision actor reason)
  | .submit draftId =>
    match s.store.readApproved draftId with
    | .error _ => s.enter n .ended
    | .ok (draft, specification) => s.enter n (.submitting draftId draft specification)
  | .advance draftId =>
    if s.free n (.draft draftId) then
      match s.store.drafts.get? draftId with
      | none => s.enter n .ended
      | some draft =>
        if draft.state ≠ .awaitingStrategyApproval then s.enter n .ended
        else
          match s.store.automated? draft.data, draft.data.proposedSpecification with
          | none, _ => s.enter n .ended
          | some _, none => s.enter n (.blocked draftId "KeyError")
          | some account, some specification =>
            s.enter n (.advancing draftId draft specification account)
    else s
  | .generate runId => s.enter n (.delivered runId)
  | .prepare runId =>
    if s.free n (.marketRun runId) then
      match s.store.runs.get? runId with
      | none => s.enter n .ended
      | some run =>
        if run.state = .researching ∧
            run.data.startedAt.any fun startedAt => startedAt + strategyRecoveryDelay < s.now then
          s.enter n (.recovering runId run)
        else s.enter n .ended
    else s

/-- An exception: the transaction is rolled back, and the handler runs. -/
def throw (s : ProposalSystem Spec Identity) (n : ℕ) (p : ProposalParty Spec) (error : String) :
    ProposalSystem Spec Identity :=
  match p.phase with
  | .advancing draftId _ _ _ | .queueing draftId _ _ _ | .advanced draftId =>
    s.setPhase n p (.blocked draftId error)
  | .delivered runId | .starting runId _ _ | .stored runId =>
    s.setPhase n p (.reading runId (.failure false error))
  | .working runId => s.setPhase n p (.reading runId (.failure true error))
  | .reading runId write | .readingDraft runId write _ | .writing runId write _ _ =>
    match write with
    | .failure _ _ => s.setPhase n p .ended
    | _ => s.setPhase n p (.reading runId (.failure true error))
  | _ => s.setPhase n p .ended

/-- Where a delivery is after one of its transactions. -/
def afterWrite (runId : Uuid) : ResearchWrite Spec → ProposalPhase Spec
  | .evidence _ _ => .working runId
  | .findings _ => .stored runId
  | .failure _ _ => .ended

/-- The next read of a party. -/
def load (s : ProposalSystem Spec Identity) (n : ℕ) (p : ProposalParty Spec) :
    ProposalSystem Spec Identity :=
  match p.phase with
  | .blocked draftId failure =>
    match s.store.drafts.get? draftId with
    | none => s.setPhase n p .ended
    | some draft => s.setPhase n p (.blocking draftId draft failure)
  | .delivered runId =>
    if s.free n (.run runId) then
      match s.store.runs.get? runId with
      | none => s.throw n p "RuntimeError"
      | some run =>
        if run.state ≠ .queued then s.setPhase n p .ended
        else
          match s.store.drafts.get? run.data.draftId with
          | none => s.throw n p "RuntimeError"
          | some draft => s.setPhase n p (.starting runId run draft)
    else s
  | .reading runId write =>
    match s.store.runs.get? runId with
    | none => s.throw n p "RuntimeError"
    | some run => s.setPhase n p (.readingDraft runId write run)
  | .readingDraft runId write run =>
    match s.store.drafts.get? run.data.draftId with
    | none => s.throw n p "RuntimeError"
    | some draft => s.setPhase n p (.writing runId write run draft)
  | _ => s

section
variable (fingerprint : Spec → Identity)

def scan (s : ProposalSystem Spec Identity) (n : ℕ) (p : ProposalParty Spec) :
    ProposalSystem Spec Identity :=
  match p.phase with
  | .submitting draftId loaded specification =>
    if s.store.duplicate fingerprint specification then s.setPhase n p .ended
    else s.setPhase n p (.creating draftId loaded specification)
  | .advancing draftId loaded specification account =>
    if s.store.duplicate fingerprint specification then
      s.setPhase n p (.blocked draftId "HTTPException")
    else s.setPhase n p (.queueing draftId loaded specification account)
  | _ => s

/-- A party writes and commits, unless it waits for a row. An id is not used twice. -/
def commit (s : ProposalSystem Spec Identity) (n : ℕ) (p : ProposalParty Spec)
    (versionId backtestId : Uuid) : ProposalSystem Spec Identity :=
  match p.phase with
  | .deciding draftId loaded decision actor reason =>
    if s.free n (.draft draftId) then
      s.write n p .ended (s.store.decideProposal draftId loaded decision actor reason s.now)
    else s
  | .creating draftId loaded specification =>
    if (s.store.versions.get? versionId).isSome then s.setPhase n p .ended
    else if s.free n (.draft draftId) then
      s.write n p .ended (s.store.submitVersion fingerprint draftId loaded specification versionId)
    else s
  | .queueing draftId loaded specification account =>
    if (s.store.versions.get? versionId).isSome || (s.store.backtests.get? backtestId).isSome then
      s.setPhase n p (.blocked draftId "IntegrityError")
    else
      s.write n p (.advanced draftId)
        (s.store.advanceDraft fingerprint draftId loaded specification account versionId backtestId)
  | .blocking draftId loaded failure =>
    if s.free n (.draft draftId) then
      s.write n p .ended (s.store.blockAutomation draftId loaded failure)
    else s
  | .starting runId run draft =>
    if s.free n (.draft run.data.draftId) then
      s.write n p (.working runId) (s.store.startResearch runId run draft s.now)
    else s
  | .writing runId write run draft =>
    if s.free n (.run runId) && s.free n (.draft run.data.draftId) then
      s.write n p (afterWrite runId write) (s.store.applyResearch runId run draft write)
    else s
  | .recovering runId run =>
    if s.free n (.run runId) then s.write n p .ended (s.store.requeueRun runId run) else s
  | _ => s

/-- The step of a party that is alive. -/
def proceed (s : ProposalSystem Spec Identity) (n : ℕ) (p : ProposalParty Spec) :
    ProposalAction Spec → ProposalSystem Spec Identity
  | .scan => s.scan fingerprint n p
  | .load => s.load n p
  | .gather pack holdout =>
    match p.phase with
    | .working runId => s.setPhase n p (.reading runId (.evidence pack holdout))
    | _ => s
  | .find findings =>
    match p.phase with
    | .working runId => s.setPhase n p (.reading runId (.findings findings))
    | _ => s
  | .commit versionId backtestId => s.commit fingerprint n p versionId backtestId
  | .returns =>
    match p.phase with
    | .advanced _ | .stored _ => s.setPhase n p .ended
    | _ => s
  | .throw error => s.throw n p error

def step (s : ProposalSystem Spec Identity) : ProposalEvent Spec → ProposalSystem Spec Identity
  | .wait duration => { s with now := s.now + duration }
  | .createDraft draftId runId accountId =>
    { s with store := s.store.createDraft draftId runId accountId }
  | .setAccount accountId account =>
    { s with store := { s.store with accounts := s.store.accounts.set accountId account } }
  | .begin n task => if (s.parties.get? n).isSome then s else s.begin n task
  | .act n action =>
    match s.alive? n with
    | none => s
    | some p => s.proceed fingerprint n p action
  | .lose n =>
    match s.parties.get? n with
    | none => s
    | some p => s.setPhase n p .ended

end

end ProposalSystem

end Matrades

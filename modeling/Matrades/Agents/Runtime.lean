import Matrades.Shared.PyValue
import Matrades.Base.Result

/-!
# Agent executions

`AgentRuntimeRouter.execute` of `modules/agents/runtime.py`, with the profiles, prompts and permissions it
reads. A router has at most one client for each runtime. The clock and the client are given by a
`RuntimeWorld`: the readings of `monotonic()` are numbered, and the client is asked with the number of the
reading that preceded it, the invocation and the time it is allowed (`asyncio.wait_for`, whose `TimeoutError`
is a raised reply with an empty text). `str` is the text of a value that is not one.

The loop over the profile and its fallbacks ends in one of four ways (`Ends`): a candidate answers with an
object before the deadline, the deadline passes, an exception escapes, or every candidate has failed
(`tryCandidates_ends`). Which of them is decided by the candidates that fail in turn (`FailInTurn`).
-/

namespace Matrades

open Base

abbrev PyDict := List (String × PyValue)

/-- `fields.get(key)` -/
def PyDict.get (fields : PyDict) (key : String) : PyValue := (fields.lookup key).getD .none

inductive RuntimeType
  | codexAppServer
  | litellmGateway
  deriving DecidableEq, Repr

inductive ExecutionStatus
  | succeeded
  | degraded
  | blocked
  | failed
  deriving DecidableEq, Repr

def ExecutionStatus.value : ExecutionStatus → String
  | .succeeded => "SUCCEEDED"
  | .degraded => "DEGRADED"
  | .blocked => "BLOCKED"
  | .failed => "FAILED"

structure ModelProfile where
  id : Uuid
  runtime : RuntimeType
  model : String
  fallbackProfileIds : List Uuid := []
  parameters : PyDict := []
  capabilities : List String := []
  active : Bool := true

structure AgentDefinition where
  logicalId : String
  runtime : RuntimeType := .codexAppServer
  profileId : Option Uuid := none
  systemPromptOverride : Option String := none
  userPromptOverride : Option String := none
  permissionSetVersion : String := "v1"
  requiredLanes : List ResearchLaneKey := []

/-! ## Prompts and permissions -/

structure PromptSet where
  system : Option String := none
  user : Option String := none

structure ResolvedPrompts where
  system : String
  user : String
  systemSource : String
  userSource : String
  deriving DecidableEq, Repr

/-- The exceptions of an execution with their texts. `other` stands for what no handler names. -/
inductive AgentError
  | valueError (message : String)
  | keyError (key : String)
  | runtimeError (message : String)
  | timeoutError (message : String)
  | other (name message : String)
  deriving DecidableEq, Repr

/-- `type(exc).__name__` -/
def AgentError.name : AgentError → String
  | .valueError _ => "ValueError"
  | .keyError _ => "KeyError"
  | .runtimeError _ => "RuntimeError"
  | .timeoutError _ => "TimeoutError"
  | .other name _ => name

/-- `str(exc)` -/
def AgentError.message : AgentError → String
  | .valueError message => message
  | .keyError key => key
  | .runtimeError message => message
  | .timeoutError message => message
  | .other _ message => message

/-- The first text that is given, with the name of the set it comes from. -/
def resolvePrompt (agent orchestrator platform : Option String) : Option (String × String) :=
  match agent, orchestrator, platform with
  | some text, _, _ => some (text, "agent")
  | none, some text, _ => some (text, "orchestrator")
  | none, none, some text => some (text, "platform")
  | none, none, none => none

def resolvePrompts (agent orchestrator platform : PromptSet) : Except AgentError ResolvedPrompts :=
  match resolvePrompt agent.system orchestrator.system platform.system,
      resolvePrompt agent.user orchestrator.user platform.user with
  | some (system, systemSource), some (user, userSource) =>
    .ok ⟨system, user, systemSource, userSource⟩
  | _, _ => .error (.valueError "platform prompts must complete both independent chains")

/-- `PROHIBITED` -/
def prohibited : List String :=
  ["broker.write", "order.create", "position.modify", "policy.hard.write", "guardrail.reduce",
    "credential.read_raw", "strategy.activate"]

/-- A set of tools that an agent may have: `__post_init__` refuses the prohibited ones. -/
structure PermissionSet where
  version : String
  tools : List String
  allowed : ∀ tool ∈ tools, tool ∉ prohibited

theorem no_tools_allowed : ∀ tool ∈ ([] : List String), tool ∉ prohibited := by simp

/-! ## Typed context -/

def validateTypedContext (str : PyValue → String) (agent : AgentDefinition) (payload : PyDict) :
    Except AgentError Unit :=
  if agent.requiredLanes = [] then .ok ()
  else
    match payload.get "lane" with
    | .dict lane =>
      let laneKey := str (PyDict.get lane "asset_class") ++ ":" ++ str (PyDict.get lane "instrument_type")
      if laneKey ∉ agent.requiredLanes.map ResearchLaneKey.asString then
        .error (.valueError "agent invocation lane is outside the configured capability")
      else if !(payload.get "source_cut_refs").truthy && !(payload.get "evidence_refs").truthy then
        .error (.valueError "typed agent invocation requires source-cut evidence references")
      else .ok ()
    | _ => .error (.valueError "typed agent invocation requires a lane envelope")

/-! ## One execution -/

/-- What a client is asked. -/
structure Invocation where
  input : PyDict
  agentRole : String
  model : String
  reasoningEffort : PyValue
  orchestratorModel : Option String
  orchestratorReasoningEffort : PyValue
  system : String
  user : String
  tools : List String
  outputSchema : PyValue

/-- The evidence that a `RuntimeResult` carries beside its fields. -/
structure RuntimeEvidence where
  actualModel : Option String := none
  modelEvidenceSource : Option String := none
  orchestratorModel : Option String := none
  deriving DecidableEq, Repr

inductive Reply
  | object (fields : PyDict) (evidence : Option RuntimeEvidence)
  /-- A value that is not an object. -/
  | other
  /-- A `TimeoutError`, `ValueError` or `RuntimeError` with its text. -/
  | raised (text : String)
  /-- Any other exception. -/
  | escapes (name message : String)

structure RuntimeWorld where
  monotonic : ℕ → ℚ
  invoke : ℕ → Invocation → ℚ → Reply

structure AgentExecution where
  logicalId : String
  selectedRuntime : RuntimeType
  actualRuntime : RuntimeType
  selectionSource : String
  configuredModel : String
  requestedModel : Option String
  actualModel : Option String
  modelVerified : Bool
  modelEvidenceSource : Option String
  orchestratorModel : Option String
  fallbackReason : Option String
  resolvedSystemPrompt : String
  resolvedUserPrompt : String
  tools : List String
  status : ExecutionStatus
  durationMs : ℤ
  error : Option String

/-- The variables of the loop over the candidates, with the number of readings of the clock. -/
structure Attempts where
  actual : ModelProfile
  status : ExecutionStatus
  result : Option PyDict := none
  evidence : Option RuntimeEvidence := none
  error : Option String := none
  fallbackReason : Option String := none
  readings : ℕ := 1

section
variable (world : RuntimeWorld) (profile : ModelProfile) (request : ModelProfile → Invocation)
  (deadline : ℚ)

/-- `except (TimeoutError, ValueError, RuntimeError) as exc` -/
def Attempts.failedWith (t : Attempts) (text : String) : Attempts :=
  { t with
    result := none
    error := some text
    fallbackReason := if t.actual.id = profile.id then some text else t.fallbackReason }

def tryCandidates : Attempts → List ModelProfile → Except AgentError Attempts
  | t, [] => .ok t
  | t, actual :: rest =>
    let remaining := deadline - world.monotonic t.readings
    let next := { t with actual, readings := t.readings + 1 }
    if remaining ≤ 0 then
      .ok { next with result := none, error := some "agent runtime deadline exceeded" }
    else
      match world.invoke t.readings (request actual) remaining with
      | .object fields evidence =>
        .ok { next with result := some fields, evidence, status := .succeeded, error := none }
      | .other => tryCandidates (next.failedWith profile "invalid runtime response schema") rest
      | .raised text => tryCandidates (next.failedWith profile text) rest
      | .escapes name message => .error (.other name message)

end

/-- `profiles[id]` -/
def profileAt (profiles : Uuid → Option ModelProfile) (id : Uuid) : Except AgentError ModelProfile :=
  orError (profiles id) (.keyError ("UUID('" ++ id.str ++ "')"))

/-- What the router is given for one execution. -/
structure ExecutionRequest where
  agent : AgentDefinition
  profiles : Uuid → Option ModelProfile
  prompts : ResolvedPrompts
  permissions : PermissionSet
  payload : PyDict
  deadlineSeconds : ℚ := 30
  orchestratorProfile : Option ModelProfile := none

namespace ExecutionRequest

variable (r : ExecutionRequest)

/-- The invocation of the profile `actual`. -/
def invocation (actual : ModelProfile) : Invocation where
  input := r.payload
  agentRole := r.agent.logicalId
  model := actual.model
  reasoningEffort := actual.parameters.get "reasoning_effort"
  orchestratorModel := r.orchestratorProfile.map ModelProfile.model
  orchestratorReasoningEffort :=
    match r.orchestratorProfile with
    | some orchestrator => orchestrator.parameters.get "reasoning_effort"
    | none => .none
  system := r.prompts.system
  user := r.prompts.user
  tools := r.permissions.tools
  outputSchema := r.payload.get "output_schema"

/-- The profile of the agent and its fallbacks, or why the request is refused. -/
def candidates (str : PyValue → String) : Except AgentError (ModelProfile × List ModelProfile) := do
  validateTypedContext str r.agent r.payload
  let profile ←
    match r.agent.profileId with
    | some id => profileAt r.profiles id
    | none => .error (.keyError "None")
  if profile.runtime ≠ r.agent.runtime then .error (.valueError "runtime/profile mismatch")
  else if r.agent.runtime = .codexAppServer ∧
      (r.orchestratorProfile.any fun o => o.runtime ≠ .codexAppServer) = true then
    .error (.valueError "Codex specialists require a Codex orchestrator profile")
  else
    let fallbacks ← profile.fallbackProfileIds.mapM (profileAt r.profiles)
    if (profile :: fallbacks).any (fun item => item.runtime ≠ r.agent.runtime) then
      .error (.valueError "cross-runtime fallback prohibited")
    else .ok (profile, fallbacks)

/-- The record of an execution. -/
def record (world : RuntimeWorld) (profile : ModelProfile) (t : Attempts) (status : ExecutionStatus) :
    AgentExecution where
  logicalId := r.agent.logicalId
  selectedRuntime := r.agent.runtime
  actualRuntime := r.agent.runtime
  selectionSource :=
    match profile.parameters.get "assignment" with
    | .str "native_agent" => "native_agent"
    | _ => "agent_profile"
  configuredModel := profile.model
  requestedModel := some t.actual.model
  actualModel := t.evidence.bind RuntimeEvidence.actualModel
  modelVerified := (t.evidence.bind RuntimeEvidence.actualModel).any (· ≠ "")
  modelEvidenceSource := t.evidence.bind RuntimeEvidence.modelEvidenceSource
  orchestratorModel := t.evidence.bind RuntimeEvidence.orchestratorModel
  fallbackReason := if t.actual.id ≠ profile.id then t.fallbackReason else none
  resolvedSystemPrompt := r.prompts.system
  resolvedUserPrompt := r.prompts.user
  tools := r.permissions.tools
  status
  durationMs := ⌊(world.monotonic t.readings - world.monotonic 0) * 1000⌋
  error := t.error

/-- `AgentRuntimeRouter.execute`; `available` says for which runtimes the router has a client. -/
def execute (str : PyValue → String) (available : RuntimeType → Bool) (world : RuntimeWorld) :
    Except AgentError (AgentExecution × Option PyDict) := do
  let (profile, fallbacks) ← r.candidates str
  let deadline := world.monotonic 0 + max 1 r.deadlineSeconds
  if !available r.agent.runtime then
    let t : Attempts := { actual := profile, status := .blocked, error := some "selected runtime unavailable" }
    .ok (r.record world profile t t.status, t.result)
  else
    let t ← tryCandidates world profile r.invocation deadline
      { actual := profile, status := .failed } (profile :: fallbacks)
    .ok (r.record world profile t (if t.result.isNone then .degraded else t.status), t.result)

end ExecutionRequest

/-! ## How the loop ends -/

/-- The text of an answer that failed. -/
def Reply.failure : Reply → Option String
  | .other => some "invalid runtime response schema"
  | .raised text => some text
  | _ => none

section
variable (world : RuntimeWorld) (profile : ModelProfile) (request : ModelProfile → Invocation)
  (deadline : ℚ)

/-- The candidate is asked at the reading `n`, before the deadline, and answers `reply`. -/
def AnswersAt (n : ℕ) (c : ModelProfile) (reply : Reply) : Prop :=
  world.monotonic n < deadline ∧
    world.invoke n (request c) (deadline - world.monotonic n) = reply

/-- The candidates are asked one after the other from the reading `n` on, and fail with the texts. -/
def FailInTurn : ℕ → List (ModelProfile × String) → Prop
  | _, [] => True
  | n, (c, text) :: rest =>
    (∃ reply, AnswersAt world request deadline n c reply ∧ reply.failure = some text) ∧
      FailInTurn (n + 1) rest

/-- The loop's variables after a candidate has failed. -/
def Attempts.fail (t : Attempts) (failed : ModelProfile × String) : Attempts :=
  { t with actual := failed.1, readings := t.readings + 1 }.failedWith profile failed.2

def Attempts.failAll (t : Attempts) (failed : List (ModelProfile × String)) : Attempts :=
  failed.foldl (Attempts.fail profile) t

inductive Ends (t : Attempts) (cs : List ModelProfile) : Except AgentError Attempts → Prop
  | answered (failed : List (ModelProfile × String)) (c : ModelProfile) (after : List ModelProfile)
      (fields : PyDict) (evidence : Option RuntimeEvidence)
      (hcs : cs = failed.map Prod.fst ++ c :: after)
      (hfailed : FailInTurn world request deadline t.readings failed)
      (hanswer : AnswersAt world request deadline (t.readings + failed.length) c (.object fields evidence)) :
      Ends t cs (.ok { t.failAll profile failed with
        actual := c, readings := t.readings + failed.length + 1, result := some fields, evidence,
        status := .succeeded, error := none })
  | late (failed : List (ModelProfile × String)) (c : ModelProfile) (after : List ModelProfile)
      (hcs : cs = failed.map Prod.fst ++ c :: after)
      (hfailed : FailInTurn world request deadline t.readings failed)
      (hlate : deadline ≤ world.monotonic (t.readings + failed.length)) :
      Ends t cs (.ok { t.failAll profile failed with
        actual := c, readings := t.readings + failed.length + 1, result := none,
        error := some "agent runtime deadline exceeded" })
  | escaped (failed : List (ModelProfile × String)) (c : ModelProfile) (after : List ModelProfile)
      (name message : String) (hcs : cs = failed.map Prod.fst ++ c :: after)
      (hfailed : FailInTurn world request deadline t.readings failed)
      (hanswer : AnswersAt world request deadline (t.readings + failed.length) c (.escapes name message)) :
      Ends t cs (.error (.other name message))
  | exhausted (failed : List (ModelProfile × String)) (hcs : cs = failed.map Prod.fst)
      (hfailed : FailInTurn world request deadline t.readings failed) :
      Ends t cs (.ok (t.failAll profile failed))

variable {world profile request deadline}

@[simp] theorem Attempts.fail_readings (t : Attempts) (failed : ModelProfile × String) :
    (t.fail profile failed).readings = t.readings + 1 := rfl

@[simp] theorem Attempts.fail_result (t : Attempts) (failed : ModelProfile × String) :
    (t.fail profile failed).result = none := rfl

theorem Attempts.failAll_cons (t : Attempts) (failed : ModelProfile × String)
    (rest : List (ModelProfile × String)) :
    t.failAll profile (failed :: rest) = (t.fail profile failed).failAll profile rest := rfl

/-- A failed candidate in front of the others. -/
theorem Ends.cons {t : Attempts} {c : ModelProfile} {text : String} {reply : Reply}
    {cs : List ModelProfile} {end' : Except AgentError Attempts}
    (hreply : AnswersAt world request deadline t.readings c reply) (hfailure : reply.failure = some text)
    (h : Ends world profile request deadline (t.fail profile (c, text)) cs end') :
    Ends world profile request deadline t (c :: cs) end' := by
  have hhead : ∃ reply, AnswersAt world request deadline t.readings c reply ∧ reply.failure = some text :=
    ⟨reply, hreply, hfailure⟩
  have hplace : ∀ failed : List (ModelProfile × String),
      (t.fail profile (c, text)).readings + failed.length = t.readings + ((c, text) :: failed).length := by
    intro failed
    simp only [Attempts.fail_readings, List.length_cons]
    omega
  cases h with
  | answered failed d after fields evidence hcs hfailed hanswer =>
    rw [hplace] at hanswer ⊢
    exact .answered ((c, text) :: failed) d after fields evidence (by rw [hcs]; rfl) ⟨hhead, hfailed⟩
      hanswer
  | late failed d after hcs hfailed hlate =>
    rw [hplace] at hlate ⊢
    exact .late ((c, text) :: failed) d after (by rw [hcs]; rfl) ⟨hhead, hfailed⟩ hlate
  | escaped failed d after name message hcs hfailed hanswer =>
    rw [hplace] at hanswer
    exact .escaped ((c, text) :: failed) d after name message (by rw [hcs]; rfl) ⟨hhead, hfailed⟩ hanswer
  | exhausted failed hcs hfailed =>
    exact .exhausted ((c, text) :: failed) (by rw [hcs]; rfl) ⟨hhead, hfailed⟩

theorem tryCandidates_ends (t : Attempts) (cs : List ModelProfile) :
    Ends world profile request deadline t cs (tryCandidates world profile request deadline t cs) := by
  induction cs generalizing t with
  | nil => exact .exhausted [] rfl trivial
  | cons c cs ih =>
    unfold tryCandidates
    simp only
    split
    next hlate => exact .late [] c cs rfl trivial (sub_nonpos.1 hlate)
    next hlate =>
      have hbefore : world.monotonic t.readings < deadline := sub_pos.1 (not_le.1 hlate)
      split
      next fields evidence hreply => exact .answered [] c cs fields evidence rfl trivial ⟨hbefore, hreply⟩
      next hreply => exact .cons ⟨hbefore, hreply⟩ rfl (ih _)
      next text hreply => exact .cons ⟨hbefore, hreply⟩ rfl (ih _)
      next name message hreply => exact .escaped [] c cs name message rfl trivial ⟨hbefore, hreply⟩

/-- Candidates that fail in turn are passed over. -/
theorem tryCandidates_failAll {t : Attempts} {failed : List (ModelProfile × String)}
    (h : FailInTurn world request deadline t.readings failed) (cs : List ModelProfile) :
    tryCandidates world profile request deadline t (failed.map Prod.fst ++ cs) =
      tryCandidates world profile request deadline (t.failAll profile failed) cs := by
  induction failed generalizing t with
  | nil => rfl
  | cons f failed ih =>
    obtain ⟨c, text⟩ := f
    obtain ⟨⟨reply, ⟨hbefore, hreply⟩, hfailure⟩, hrest⟩ := h
    have hstep : tryCandidates world profile request deadline t (c :: (failed.map Prod.fst ++ cs)) =
        tryCandidates world profile request deadline (t.fail profile (c, text))
          (failed.map Prod.fst ++ cs) := by
      rw [tryCandidates, if_neg (not_le.2 (sub_pos.2 hbefore)), hreply]
      cases reply with
      | object fields evidence => cases hfailure
      | other =>
        cases hfailure
        rfl
      | raised text' =>
        cases hfailure
        rfl
      | escapes name message => cases hfailure
    rw [Attempts.failAll_cons, ← ih hrest, ← hstep]
    rfl

theorem tryCandidates_answers {t : Attempts} {c : ModelProfile} {after : List ModelProfile}
    {fields : PyDict} {evidence : Option RuntimeEvidence}
    (h : AnswersAt world request deadline t.readings c (.object fields evidence)) :
    tryCandidates world profile request deadline t (c :: after) =
      .ok { t with
        actual := c, readings := t.readings + 1, result := some fields, evidence,
        status := .succeeded, error := none } := by
  rw [tryCandidates, if_neg (not_le.2 (sub_pos.2 h.1)), h.2]

theorem Attempts.failAll_readings (t : Attempts) (failed : List (ModelProfile × String)) :
    (t.failAll profile failed).readings = t.readings + failed.length := by
  induction failed generalizing t with
  | nil => rfl
  | cons f failed ih =>
    rw [Attempts.failAll_cons, ih, Attempts.fail_readings, List.length_cons]
    omega

theorem Attempts.failAll_result {t : Attempts} (h : t.result = none)
    (failed : List (ModelProfile × String)) : (t.failAll profile failed).result = none := by
  induction failed generalizing t with
  | nil => exact h
  | cons f failed ih =>
    rw [Attempts.failAll_cons]
    exact ih (Attempts.fail_result t f)

/-- Some candidate failed, so there is an error. -/
theorem Attempts.failAll_error {t : Attempts} {failed : List (ModelProfile × String)} (h : failed ≠ []) :
    (t.failAll profile failed).error = (failed.getLast h).2 := by
  induction failed generalizing t with
  | nil => exact absurd rfl h
  | cons f failed ih =>
    rw [Attempts.failAll_cons]
    by_cases hrest : failed = []
    · subst hrest
      rfl
    · rw [ih hrest, List.getLast_cons hrest]

/-- Why the candidate with the profile's own identifier failed, the last time it did. -/
def ownReason (profile : ModelProfile) (failed : List (ModelProfile × String)) : Option String :=
  ((failed.filter fun f => f.1.id = profile.id).getLast?).map Prod.snd

theorem ownReason_cons (f : ModelProfile × String) (failed : List (ModelProfile × String)) :
    ownReason profile (f :: failed) =
      (ownReason profile failed).or (if f.1.id = profile.id then some f.2 else none) := by
  unfold ownReason
  by_cases hf : f.1.id = profile.id
  · rw [List.filter_cons_of_pos (by simpa using hf), List.getLast?_cons, if_pos hf]
    cases (failed.filter fun f => f.1.id = profile.id).getLast? <;> rfl
  · rw [List.filter_cons_of_neg (by simpa using hf), if_neg hf, Option.or_none]

theorem Attempts.failAll_fallbackReason (t : Attempts) (failed : List (ModelProfile × String)) :
    (t.failAll profile failed).fallbackReason = (ownReason profile failed).or t.fallbackReason := by
  induction failed generalizing t with
  | nil => rfl
  | cons f failed ih =>
    have hfail : (t.fail profile f).fallbackReason =
        (if f.1.id = profile.id then some f.2 else none).or t.fallbackReason := by
      show (if f.1.id = profile.id then some f.2 else t.fallbackReason) = _
      by_cases hf : f.1.id = profile.id
      · rw [if_pos hf, if_pos hf, Option.some_or]
      · rw [if_neg hf, if_neg hf, Option.none_or]
    rw [Attempts.failAll_cons, ih, hfail, ownReason_cons, Option.or_assoc]

end

/-! ## The first answer -/

namespace ExecutionRequest

section
variable (r : ExecutionRequest) (world : RuntimeWorld)

def deadline : ℚ := world.monotonic 0 + max 1 r.deadlineSeconds

/-- `c` answers in time after all candidates before it have failed in time. -/
structure FirstAnswer (candidates : List ModelProfile) (failed : List (ModelProfile × String))
    (c : ModelProfile) (fields : PyDict) (evidence : Option RuntimeEvidence) : Prop where
  order : ∃ after, candidates = failed.map Prod.fst ++ c :: after
  failedBefore : FailInTurn world r.invocation (r.deadline world) 1 failed
  answer : AnswersAt world r.invocation (r.deadline world) (1 + failed.length) c (.object fields evidence)

end

variable {r : ExecutionRequest} {str : PyValue → String} {available : RuntimeType → Bool}
  {world : RuntimeWorld} {profile : ModelProfile} {fallbacks : List ModelProfile}
  {execution : AgentExecution} {result : Option PyDict}

theorem candidates_of_execute (h : r.execute str available world = .ok (execution, result)) :
    ∃ profile fallbacks, r.candidates str = .ok (profile, fallbacks) := by
  obtain ⟨⟨profile, fallbacks⟩, hc, -⟩ := ok_of_bind h
  exact ⟨profile, fallbacks, hc⟩

/-- The two ways to end without an exception. -/
theorem of_execute (hc : r.candidates str = .ok (profile, fallbacks))
    (h : r.execute str available world = .ok (execution, result)) :
    available r.agent.runtime = false ∧ result = none ∧ execution.status = .blocked ∧
        execution.error = some "selected runtime unavailable" ∨
      available r.agent.runtime = true ∧ ∃ t,
        tryCandidates world profile r.invocation (r.deadline world) ⟨profile, .failed, none, none, none, none, 1⟩
          (profile :: fallbacks) = .ok t ∧
        execution = r.record world profile t (if t.result.isNone then .degraded else t.status) ∧
        result = t.result := by
  unfold execute at h
  rw [bind_ok_eq hc] at h
  cases ha : available r.agent.runtime with
  | false =>
    simp only [ha] at h
    cases h
    exact .inl ⟨rfl, rfl, rfl, rfl⟩
  | true =>
    simp only [ha] at h
    obtain ⟨t, ht, h⟩ := ok_of_bind h
    cases h
    exact .inr ⟨rfl, t, ht, rfl, rfl⟩

/-- An execution either gives a result, has succeeded and reports no error, or gives none and says why. -/
theorem result_of_execute (hc : r.candidates str = .ok (profile, fallbacks))
    (h : r.execute str available world = .ok (execution, result)) :
    (∃ fields, result = some fields) ∧ execution.status = .succeeded ∧ execution.error = none ∨
      result = none ∧ (execution.status = .blocked ∨ execution.status = .degraded) ∧
        ∃ text, execution.error = some text := by
  rcases of_execute hc h with ⟨-, hnone, hstatus, herror⟩ | ⟨-, t, ht, hrecord, hresult⟩
  · exact .inr ⟨hnone, .inl hstatus, _, herror⟩
  · have hends : Ends world profile r.invocation (r.deadline world)
        ⟨profile, .failed, none, none, none, none, 1⟩ (profile :: fallbacks) (.ok t) := by
      rw [← ht]
      exact tryCandidates_ends _ _
    subst hrecord hresult
    cases hends with
    | answered failed c after fields evidence hcs hfailed hanswer => exact .inl ⟨⟨fields, rfl⟩, rfl, rfl⟩
    | late failed c after hcs hfailed hlate => exact .inr ⟨rfl, .inr rfl, _, rfl⟩
    | exhausted failed hcs hfailed =>
      have hne : failed ≠ [] := by
        rintro rfl
        cases hcs
      have hnone : (Attempts.failAll profile ⟨profile, .failed, none, none, none, none, 1⟩ failed).result =
          none := Attempts.failAll_result rfl failed
      refine .inr ⟨hnone, .inr ?_, _, Attempts.failAll_error hne⟩
      simp only [record, hnone, Option.isNone_none, if_true]

/-- What the first answer leads to. -/
theorem execute_of_firstAnswer (hc : r.candidates str = .ok (profile, fallbacks))
    (ha : available r.agent.runtime = true) {failed : List (ModelProfile × String)} {c : ModelProfile}
    {fields : PyDict} {evidence : Option RuntimeEvidence}
    (hfirst : r.FirstAnswer world (profile :: fallbacks) failed c fields evidence) :
    r.execute str available world = .ok
      (r.record world profile
        { actual := c, status := .succeeded, result := some fields, evidence, error := none,
          fallbackReason := ownReason profile failed, readings := failed.length + 2 } .succeeded,
        some fields) := by
  obtain ⟨⟨after, horder⟩, hfailed, hanswer⟩ := hfirst
  have hloop : tryCandidates world profile r.invocation (r.deadline world)
      ⟨profile, .failed, none, none, none, none, 1⟩ (profile :: fallbacks) =
      .ok { actual := c, status := .succeeded, result := some fields, evidence, error := none,
            fallbackReason := ownReason profile failed, readings := failed.length + 2 } := by
    rw [horder, tryCandidates_failAll hfailed, tryCandidates_answers
      (by rw [Attempts.failAll_readings]; exact hanswer)]
    have hreason : (Attempts.failAll profile ⟨profile, .failed, none, none, none, none, 1⟩
        failed).fallbackReason = ownReason profile failed := by
      rw [Attempts.failAll_fallbackReason, Option.or_none]
    simp only [Attempts.failAll_readings, hreason]
    congr 2
    omega
  unfold execute
  rw [bind_ok_eq hc]
  simp only [ha]
  rw [show world.monotonic 0 + max 1 r.deadlineSeconds = r.deadline world from rfl]
  exact bind_ok_eq hloop _

/-- A profile with a fallback, and a client whose first answer times out. -/
def fallbackRequest : ExecutionRequest where
  agent := { logicalId := "technical_analyst", profileId := some (Uuid.ofNat 1) }
  profiles := fun id =>
    if id = Uuid.ofNat 1 then
      some { id, runtime := .codexAppServer, model := "first", fallbackProfileIds := [Uuid.ofNat 2] }
    else some { id, runtime := .codexAppServer, model := "second" }
  prompts := ⟨"system", "user", "platform", "platform"⟩
  permissions := ⟨"v1", [], no_tools_allowed⟩
  payload := []

def timeoutThenAnswer : RuntimeWorld where
  monotonic := fun n => 10 * n
  invoke := fun n _ _ => if n = 1 then .raised "" else .object [("ok", .bool true)] none

end ExecutionRequest

end Matrades

import Matrades.Agents.Runtime
import Matrades.Base.RequestReply
import Matrades.Base.Dict

/-!
# Requests of the backend to the agent worker

`RedisAgentGateway.invoke` of `modules/agents/rpc.py` pushes a request on the list `matrades:agent:requests`
and waits on a list of its own, whose key is made of the request's identifier; the slots of
`apps/agent_worker/app/main.py` take the requests and push their responses. The two lists are an `Exchange`
of `Base/RequestReply`, its identifiers those of the requests. `respondTo` is what a slot does with one request:
it loads the owner's configuration and has its router execute the agent.
-/

namespace Matrades

open Base

/-- `REQUIRED_AGENT_IDS` -/
def requiredAgentIds : List String :=
  ["orchestrator", "forex_research", "metals_research", "crypto_research", "stocks_research",
    "technical_analyst", "fundamental_analyst", "sentiment_analyst", "regime_analyst",
    "strategy_selector", "strategy_researcher", "strategy_assistant", "critic", "trade_monitor",
    "journal", "performance", "knowledge_assistant"]

def platformPrompts : PromptSet where
  system := some ("You are a bounded Matrades logical agent. Use only supplied structured evidence, cite " ++
    "evidence references, state uncertainty, and never create broker, policy, risk, or " ++
    "strategy activation authority.")
  user := some "Return only a JSON object conforming to the requested output schema."

structure AgentRequest where
  requestId : Uuid
  logicalId : String
  payload : PyDict
  outputSchema : PyDict
  ownerId : Option Uuid

structure RpcResponse where
  result : Option PyDict := none
  error : Option String := none
  execution : Option AgentExecution := none

/-! ## The worker -/

/-- What a slot finds when it serves a request: the records of each owner, in the order in which the store
lists them, the native roles (`none` is the platform's default), the settings, the clients and the clock. -/
structure ServeWorld where
  storedProfiles : Uuid → List ModelProfile
  storedAgents : Uuid → List AgentDefinition
  nativeProfile : Option String → Except AgentError ModelProfile
  defaultOwnerId : Uuid := Uuid.ofNat 1
  researchAgentTimeoutSeconds : ℚ := 180
  str : PyValue → String
  available : RuntimeType → Bool
  runtime : RuntimeWorld
  /-- Why the execution could not be stored. -/
  storeError : Option AgentError := none

/-- The last profile with an identifier. -/
def lastProfile (profiles : List ModelProfile) (id : Uuid) : Option ModelProfile :=
  profiles.reverse.find? fun profile => profile.id = id

def loadProfiles (world : ServeWorld) (ownerId : Uuid) : Except AgentError (Uuid → Option ModelProfile) := do
  let default ← world.nativeProfile none
  let native ← requiredAgentIds.mapM fun logicalId => world.nativeProfile (some logicalId)
  let stored := (world.storedProfiles ownerId).map fun profile =>
    { profile with parameters := Dict.setEntries "assignment" (.str "agent_profile") profile.parameters }
  .ok (lastProfile (default :: native ++ stored))

def loadAgents (world : ServeWorld) (ownerId : Uuid) (logicalId : String) : Option AgentDefinition :=
  let defaults := requiredAgentIds.map fun id => ({ logicalId := id } : AgentDefinition)
  (defaults ++ world.storedAgents ownerId).reverse.find? fun agent => agent.logicalId = logicalId

/-- `agent.profile_id or _default_profile(logical_id).id` -/
def agentProfileId (world : ServeWorld) (agent : AgentDefinition) (logicalId : String) :
    Except AgentError Uuid :=
  match agent.profileId with
  | some id => .ok id
  | none => do
    let profile ← world.nativeProfile (some logicalId)
    .ok profile.id

def agentAt (world : ServeWorld) (ownerId : Uuid) (logicalId : String) : Except AgentError AgentDefinition :=
  orError (loadAgents world ownerId logicalId) (.keyError ("'" ++ logicalId ++ "'"))

/-- The execution that a slot asks its router for. -/
def executionRequest (world : ServeWorld) (request : AgentRequest) : Except AgentError ExecutionRequest := do
  if request.logicalId ∉ requiredAgentIds then .error (.valueError "unknown logical agent")
  else
    let ownerId := request.ownerId.getD world.defaultOwnerId
    let profiles ← loadProfiles world ownerId
    let agent ← agentAt world ownerId request.logicalId
    let profileId ← agentProfileId world agent request.logicalId
    let orchestrator ← agentAt world ownerId "orchestrator"
    let prompts ← resolvePrompts ⟨agent.systemPromptOverride, agent.userPromptOverride⟩
      ⟨orchestrator.systemPromptOverride, orchestrator.userPromptOverride⟩ platformPrompts
    let orchestratorProfileId ← agentProfileId world orchestrator "orchestrator"
    let orchestratorProfile ← profileAt profiles orchestratorProfileId
    .ok
      { agent := { agent with profileId := some profileId }
        profiles
        prompts
        permissions := ⟨agent.permissionSetVersion, [], no_tools_allowed⟩
        payload := Dict.setEntries "output_schema" (.dict request.outputSchema) request.payload
        deadlineSeconds := max 1 (world.researchAgentTimeoutSeconds - 5)
        orchestratorProfile := some orchestratorProfile }

/-- The execution of a request, stored. -/
def serveRequest (world : ServeWorld) (request : AgentRequest) :
    Except AgentError (AgentExecution × Option PyDict) := do
  let execution ← executionRequest world request
  let outcome ← execution.execute world.str world.available world.runtime
  match world.storeError with
  | some e => .error e
  | none => .ok outcome

/-- `execution.error or "agent runtime returned no structured result"` -/
def failureDetail (execution : AgentExecution) : String :=
  match execution.error with
  | some "" | none => "agent runtime returned no structured result"
  | some text => text

/-- The response to a request. -/
def respondTo (world : ServeWorld) (request : AgentRequest) : RpcResponse :=
  match serveRequest world request with
  | .ok (execution, some result) => { result, execution }
  | .ok (execution, none) =>
    { error := execution.status.value ++ ": " ++ failureDetail execution, execution }
  | .error e => { error := e.name ++ ": " ++ e.message }

/-! ## The callers -/

/-- What `invoke` returns: the whole response with `include_execution`, else its result. -/
inductive Invoked
  | body (response : RpcResponse)
  | result (fields : PyDict)

/-- The end of `invoke`, with what `BLPOP` gave. -/
def finishInvoke (includeExecution : Bool) (request : AgentRequest) :
    Option RpcResponse → Except AgentError Invoked
  | none => .error (.timeoutError (request.logicalId ++ " did not respondTo before the deadline"))
  | some response =>
    if includeExecution then .ok (.body response)
    else if response.error.getD "" ≠ "" then .error (.runtimeError (response.error.getD ""))
    else
      match response.result with
      | some fields => .ok (.result fields)
      | none => .error (.valueError (request.logicalId ++ " returned an invalid response"))

/-! ## The system -/

abbrev RpcState := Exchange Uuid AgentRequest RpcResponse

inductive RpcLabel
  /-- `LPUSH`; the caller waits from then on. -/
  | invoke (request : AgentRequest)
  /-- `BRPOP` of an idle slot. -/
  | brpop (slot : ℕ)
  /-- The slot has served its request and pushes the response. -/
  | serve (slot : ℕ) (world : ServeWorld)
  | crash (slot : ℕ)
  /-- `BLPOP` of a caller gets a response. -/
  | blpop (requestId : Uuid)
  /-- `BLPOP` gets none in time. -/
  | timeout (requestId : Uuid)
  /-- The response list is deleted, or expires. -/
  | delete (requestId : Uuid)

def RpcLabel.event : RpcLabel → Exchange.Event Uuid AgentRequest RpcResponse
  | .invoke request => .issue request
  | .brpop slot => .take slot
  | .serve slot world => .answer slot (respondTo world)
  | .crash slot => .crash slot
  | .blpop requestId => .receive requestId
  | .timeout requestId => .leave requestId
  | .delete requestId => .drop requestId

def rpcStep (s : RpcState) (label : RpcLabel) : RpcState := s.step AgentRequest.requestId label.event

/-- The identifier of a new request is new, as `uuid4()` makes it. -/
def NewRequest (s : RpcState) (label : RpcLabel) : Prop := s.Fresh AgentRequest.requestId label.event

/-! ## What a caller gets -/

/-- Only an execution that has succeeded gives a result. -/
theorem succeeded_of_serveRequest {world : ServeWorld} {request : AgentRequest} {execution : AgentExecution}
    {fields : PyDict} (h : serveRequest world request = .ok (execution, some fields)) :
    execution.status = .succeeded := by
  obtain ⟨executed, -, h⟩ := ok_of_bind h
  obtain ⟨outcome, houtcome, h⟩ := ok_of_bind h
  have hsame : outcome = (execution, some fields) := by
    split at h
    next => cases h
    next => exact Except.ok.inj h
  rw [hsame] at houtcome
  obtain ⟨profile, fallbacks, hc⟩ := ExecutionRequest.candidates_of_execute houtcome
  rcases ExecutionRequest.result_of_execute hc houtcome with ⟨-, hstatus, -⟩ | ⟨hnone, -⟩
  · exact hstatus
  · cases hnone

/-- The result that `invoke` returns is the result of the execution. -/
theorem result_of_respondTo {world : ServeWorld} {request : AgentRequest} {fields : PyDict}
    (h : finishInvoke false request (some (respondTo world request)) = .ok (.result fields)) :
    ∃ execution, serveRequest world request = .ok (execution, some fields) := by
  have hresult : (respondTo world request).result = some fields := by
    unfold finishInvoke at h
    simp only [Bool.false_eq_true, if_false] at h
    split at h
    · cases h
    · split at h
      next fields' hfields =>
        cases h
        exact hfields
      next => cases h
  unfold respondTo at hresult
  split at hresult
  next execution result hserve =>
    cases hresult
    exact ⟨execution, hserve⟩
  next => cases hresult
  next => cases hresult

/-- **Each request is executed at most once, and its caller gets its own answer.** In every interleaving of
callers and slots, with crashes, time-outs and lost responses, the requests that the slots have taken and those
on the queue are the requests issued, in their order; no request is answered twice, and no call ends twice. A
call that ends with a response got the one a slot made for its request; the fields it returns come from an
execution of this request, with the configuration of its owner, that has succeeded. -/
theorem requests_answered_once {labels : List RpcLabel} (hnew : Along rpcStep NewRequest {} labels) :
    let s := run rpcStep {} labels
    s.taken ++ s.queue.reverse = s.issued ∧ (s.issued.map AgentRequest.requestId).Nodup ∧
      (s.answered.map (·.1.requestId)).Nodup ∧ (s.closed.map (·.1.requestId)).Nodup ∧
      ∀ request response, (request, some response) ∈ s.closed →
        request ∈ s.taken ∧ ∃ slot world, .serve slot world ∈ labels ∧ response = respondTo world request ∧
          ∀ fields, finishInvoke false request (some response) = .ok (.result fields) →
            ∃ execution, serveRequest world request = .ok (execution, some fields) ∧
              execution.status = .succeeded := by
  intro s
  have h : s.Delivery AgentRequest.requestId := Exchange.delivery_run hnew
  refine ⟨h.order, h.unique, h.answeredOnce, h.closedOnce, fun request response hclosed => ?_⟩
  have hanswered := h.closedAnswered request response hclosed
  refine ⟨h.answeredTaken _ hanswered, ?_⟩
  rcases Exchange.answered_from hanswered with
    hnone | ⟨label, hlabel, w, reply, hevent, hresponse⟩
  · cases hnone
  · cases label with
    | serve slot world =>
      cases hevent
      refine ⟨_, world, hlabel, hresponse, fun fields hfields => ?_⟩
      rw [hresponse] at hfields
      obtain ⟨execution, hserve⟩ := result_of_respondTo hfields
      exact ⟨execution, hserve, succeeded_of_serveRequest hserve⟩
    | _ => cases hevent

/-- A worker with the native roles only, whose client answers at once. -/
def nativeWorld : ServeWorld where
  storedProfiles := fun _ => []
  storedAgents := fun _ => []
  nativeProfile := fun logicalId =>
    .ok { id := Uuid.ofNat (if logicalId.isNone then 0 else 1), runtime := .codexAppServer, model := "native" }
  str := fun _ => ""
  available := fun _ => true
  runtime := { monotonic := fun _ => 0, invoke := fun _ _ _ => .object [("ok", .bool true)] none }

def criticRequest : AgentRequest := ⟨Uuid.ofNat 7, "critic", [], [], none⟩

def oneCall : List RpcLabel :=
  [.invoke criticRequest, .brpop 0, .serve 0 nativeWorld, .blpop (Uuid.ofNat 7), .delete (Uuid.ofNat 7)]

theorem critic_served : ∃ execution,
    serveRequest nativeWorld criticRequest = .ok (execution, some [("ok", .bool true)]) := by
  obtain ⟨r, profile, hr, hc⟩ : ∃ r profile, executionRequest nativeWorld criticRequest = .ok r ∧
      r.candidates nativeWorld.str = .ok (profile, []) := ⟨_, _, rfl, rfl⟩
  have hdeadline : (0 : ℚ) < r.deadline nativeWorld.runtime := by
    unfold ExecutionRequest.deadline
    rw [show nativeWorld.runtime.monotonic 0 = 0 from rfl, zero_add]
    exact lt_of_lt_of_le one_pos (le_max_left _ _)
  have hclient : nativeWorld.available r.agent.runtime = true := rfl
  have hexecuted := ExecutionRequest.execute_of_firstAnswer hc hclient
    (⟨⟨[], rfl⟩, trivial, hdeadline, rfl⟩ : r.FirstAnswer nativeWorld.runtime (profile :: []) [] profile
      [("ok", .bool true)] none)
  have hserved : serveRequest nativeWorld criticRequest = _ := (bind_ok_eq hr _).trans (bind_ok_eq hexecuted _)
  exact ⟨_, hserved⟩

theorem oneCall_answered : ∃ execution,
    serveRequest nativeWorld criticRequest = .ok (execution, some [("ok", .bool true)]) ∧
      execution.status = .succeeded := by
  have hnew : Along rpcStep NewRequest {} oneCall := by
    refine ⟨?_, trivial, trivial, trivial, trivial, trivial⟩
    show Uuid.ofNat 7 ∉ []
    exact List.not_mem_nil
  have hclosed : (criticRequest, some (respondTo nativeWorld criticRequest)) ∈
      (run rpcStep {} oneCall).closed := List.mem_singleton.2 rfl
  obtain ⟨-, -, -, -, h⟩ := requests_answered_once hnew
  obtain ⟨-, slot, world, hserve, -, hresult⟩ := h _ _ hclosed
  have hworld : slot = 0 ∧ world = nativeWorld := by simpa [oneCall] using hserve
  obtain ⟨-, rfl⟩ := hworld
  obtain ⟨execution, hexecution⟩ := critic_served
  refine hresult _ ?_
  unfold respondTo
  rw [hexecution]
  rfl

end Matrades

import Matrades.Agents.Runtime

/-!
# Turns of the Codex App Server

The JSONL client of `adapters/agent_runtime/codex_app_server/client.py`. The server writes responses and
notifications on one stream; a request reads until the response with its identifier, keeps the notifications
that come before it and skips other responses (`request`), and a turn is read from the notifications kept and
then from the stream (`invokeThread`). The frames of the stream are given; `AppServerEnv` has what the client
asks of values: their texts, whether two are equal, the pairs and the texts of a collection, and the reading of
JSON.

Which messages a turn reacts to is `relevant`: items of its thread and its turn, its own end, and every
`error`. The outcome of a turn is decided by these alone (`invokeThread_relevant`).
-/

namespace Matrades

open Base

structure AppServerEnv where
  str : PyValue → String
  same : PyValue → PyValue → Bool
  /-- `dict(value)` -/
  dictOf : PyValue → Except AgentError PyDict
  /-- The identifiers that `child_ids.update(value or [])` adds. -/
  threadIds : PyValue → Except AgentError (List String)
  /-- `json.loads(text.strip())`, if it is JSON. -/
  parse : String → Option PyValue

/-- What one `readline()` of the server's output gives. -/
inductive Frame
  | message (fields : PyDict)
  | notObject
  | malformed
  | overLimit
  | closed (stderr : String)
  /-- No line in the time allowed. -/
  | silent

/-- The client: its process, the last identifier, the notifications kept, and the stream still to be read. -/
structure AppServer where
  running : Bool := true
  requestId : ℕ := 0
  pending : List PyDict := []
  stdout : List Frame := []
  /-- The requests written, with their identifiers. -/
  written : List (String × ℕ) := []

/-! ## Fields -/

/-- `value.get(key, default)` -/
def fieldOr (value : PyValue) (key : String) (default : PyValue) : Except AgentError PyValue :=
  match value with
  | .dict fields => .ok ((fields.lookup key).getD default)
  | _ => .error (.other "AttributeError" "")

/-- `value[key]` -/
def itemAt (value : PyValue) (key : String) : Except AgentError PyValue :=
  match value with
  | .dict fields => orError (fields.lookup key) (.keyError ("'" ++ key ++ "'"))
  | _ => .error (.other "TypeError" "")

/-- `value in {…}` -/
def inTexts (value : PyValue) (texts : List String) : Except AgentError Bool :=
  match value with
  | .str s => .ok (s ∈ texts)
  | .list _ => .error (.other "TypeError" "unhashable type: 'list'")
  | .dict _ => .error (.other "TypeError" "unhashable type: 'dict'")
  | _ => .ok false

/-- `value == text` -/
def isText (value : PyValue) (text : String) : Bool :=
  match value with
  | .str s => s = text
  | _ => false

/-- `value == n` -/
def isNumber (value : PyValue) (n : ℕ) : Bool :=
  match value with
  | .int m => m = n
  | .float (.finite q) => q = n
  | .bool b => (if b then 1 else 0) = n
  | _ => false

theorem isNumber_unique {value : PyValue} {n m : ℕ} (hn : isNumber value n = true)
    (hm : isNumber value m = true) : n = m := by
  cases value with
  | int i =>
    simp only [isNumber, decide_eq_true_eq] at hn hm
    omega
  | float x =>
    cases x with
    | finite q =>
      simp only [isNumber, decide_eq_true_eq] at hn hm
      exact_mod_cast hn.symm.trans hm
    | _ => cases hn
  | bool b =>
    simp only [isNumber, decide_eq_true_eq] at hn hm
    exact hn.symm.trans hm
  | _ => cases hn

/-! ## Requests -/

namespace Frame

/-- `_read_message` -/
def read (closedMessage : String) (includeStderr : Bool) : Frame → Except AgentError PyDict
  | message fields => .ok fields
  | notObject => .error (.valueError "Codex app-server JSONL message must be an object")
  | malformed => .error (.valueError "Codex app-server emitted malformed JSONL")
  | overLimit =>
    .error (.runtimeError "Codex app-server JSONL frame exceeded the 8388608-byte safety limit")
  | closed stderr =>
    .error (.runtimeError (closedMessage ++ if includeStderr && stderr ≠ "" then ": " ++ stderr else ""))
  | silent => .error (.timeoutError "")

/-- The client stops the server after a frame that it cannot use. -/
def stops : Frame → Bool
  | notObject | malformed | overLimit => true
  | _ => false

end Frame

namespace AppServer

/-- `stop()`: the process and its output are gone. -/
def stop (s : AppServer) : AppServer := { s with running := false, stdout := [] }

/-- The client after a frame, with the rest of the stream. -/
def after (s : AppServer) (frame : Frame) (rest : List Frame) : AppServer :=
  if frame.stops then s.stop else { s with stdout := rest }

/-- Does the message answer the request? -/
def answers (requestId : ℕ) (message : PyDict) : Bool := isNumber (message.get "id") requestId

variable (env : AppServerEnv)

/-- The loop of `_request`. -/
def awaitResponse (requestId : ℕ) : AppServer → List Frame → Except AgentError PyDict × AppServer
  | s, [] => (.error (.timeoutError ""), { s with stdout := [] })
  | s, frame :: rest =>
    match frame.read "Codex app-server closed its stdout" false with
    | .error e => (.error e, s.after frame rest)
    | .ok message =>
      if !answers requestId message then
        if (message.get "method").truthy then
          awaitResponse requestId { s with pending := s.pending ++ [message] } rest
        else awaitResponse requestId s rest
      else
        match message.lookup "error" with
        | some error => (.error (.runtimeError (env.str error)), { s with stdout := rest })
        | none => (env.dictOf ((message.lookup "result").getD (.dict [])), { s with stdout := rest })

/-- `_request` -/
def request (method : String) (s : AppServer) : Except AgentError PyDict × AppServer :=
  let requestId := s.requestId + 1
  if !s.running then (.error (.runtimeError "Codex app-server is unavailable"), { s with requestId })
  else
    awaitResponse env requestId
      { s with requestId, written := s.written ++ [(method, requestId)] } s.stdout

/-! ## Turns -/

/-- What a turn has collected. -/
structure Turn where
  finalMessages : List String := []
  unphasedMessages : List String := []
  delegated : Bool := false
  childIds : List String := []
  collaborationEvents : List String := []

section
variable (threadId turnId : PyValue)

/-- A completed item of the turn. -/
def onItem (t : Turn) (item : PyValue) : Except AgentError Turn := do
  let type ← fieldOr item "type" .none
  let collaboration ← inTexts type ["collabToolCall", "collabAgentToolCall"]
  let t ←
    if collaboration then do
      let tool ← fieldOr item "tool" (.str "")
      let status ← fieldOr item "status" (.str "")
      let event := String.ofList ((env.str tool ++ ":" ++ env.str status).toList.take 80)
      let t := { t with collaborationEvents := t.collaborationEvents ++ [event] }
      if env.str tool ∈ ["spawn_agent", "spawnAgent"] ∧ env.str status ∈ ["completed", "succeeded"] then do
        let receivers ← fieldOr item "receiverThreadIds" .none
        let ids ← env.threadIds receivers
        .ok { t with delegated := true, childIds := t.childIds ++ ids }
      else .ok t
    else .ok t
  let text ← fieldOr item "text" .none
  if isText type "agentMessage" && text.truthy then do
    let phase ← fieldOr item "phase" .none
    if isText phase "final_answer" then
      .ok { t with finalMessages := t.finalMessages ++ [env.str text] }
    else if !phase.truthy then
      .ok { t with unphasedMessages := t.unphasedMessages ++ [env.str text] }
    else .ok t
  else .ok t

/-- One message of the loop of `_invoke_thread`: what has been collected, and whether the turn is over. -/
def onMessage (t : Turn) (message : PyDict) : Except AgentError (Turn × Bool) :=
  let method := message.get "method"
  let params := (message.lookup "params").getD (.dict [])
  if isText method "item/completed" then do
    let thread ← fieldOr params "threadId" threadId
    if !env.same thread threadId then .ok (t, false)
    else do
      let turn ← fieldOr params "turnId" turnId
      if !env.same turn turnId then .ok (t, false)
      else do
        let item ← fieldOr params "item" (.dict [])
        let t ← onItem env t item
        .ok (t, false)
  else if isText method "turn/completed" then do
    let completed ← fieldOr params "turn" (.dict [])
    let id ← fieldOr completed "id" .none
    if !env.same id turnId then .ok (t, false)
    else do
      let status ← fieldOr completed "status" .none
      let well ← inTexts status ["completed", "succeeded"]
      if well then .ok (t, true)
      else do
        let error ← fieldOr completed "error" .none
        .error (.runtimeError (env.str (if error.truthy then error else status)))
  else if isText method "error" then do
    let error ← fieldOr params "error" params
    .error (.runtimeError (env.str error))
  else .ok (t, false)

/-- The loop over the stream. -/
def turnFrames (s : AppServer) : Turn → List Frame → Except AgentError Turn × AppServer
  | _, [] => (.error (.timeoutError ""), { s with pending := [], stdout := [] })
  | t, frame :: rest =>
    match frame.read "Codex app-server exited before turn completion" true with
    | .error e => (.error e, { s with pending := [] }.after frame rest)
    | .ok message =>
      match onMessage env threadId turnId t message with
      | .error e => (.error e, { s with pending := [], stdout := rest })
      | .ok (t, true) => (.ok t, { s with pending := [], stdout := rest })
      | .ok (t, false) => turnFrames s t rest

/-- The loop over the notifications kept, and then over the stream. -/
def turnLoop (s : AppServer) (frames : List Frame) : Turn → List PyDict → Except AgentError Turn × AppServer
  | t, [] => turnFrames env threadId turnId s t frames
  | t, message :: pending =>
    match onMessage env threadId turnId t message with
    | .error e => (.error e, { s with pending, stdout := frames })
    | .ok (t, true) => (.ok t, { s with pending, stdout := frames })
    | .ok (t, false) => turnLoop s frames t pending

end

/-- `', '.join(collaboration_events) or 'none'` -/
def eventTexts (events : List String) : String :=
  if String.intercalate ", " events = "" then "none" else String.intercalate ", " events

/-- The result of a turn that is over. -/
def finishTurn (logicalId : String) (t : Turn) : Except AgentError PyDict :=
  if logicalId ≠ "" ∧ logicalId ≠ "orchestrator" ∧ t.delegated = false then
    .error (.runtimeError ("Codex did not complete native spawn_agent delegation for " ++ logicalId ++
      " (collaboration events: " ++ eventTexts t.collaborationEvents ++ ")"))
  else
    let text := (t.finalMessages.getLast?.or t.unphasedMessages.getLast?).getD ""
    match env.parse text with
    | none => .error (.valueError "Codex response was not valid structured JSON")
    | some (.dict result) =>
      if 1 < t.childIds.dedup.length then
        .error (.runtimeError "Codex spawned more than one specialist for a bounded request")
      else .ok result
    | some _ => .error (.valueError "Codex response must be a JSON object")

/-- `_invoke_thread`, up to the evidence of the child's model. -/
def invokeThread (logicalId : String) (threadId : PyValue) (s : AppServer) :
    Except AgentError PyDict × AppServer :=
  match request env "turn/start" s with
  | (.error e, s) => (.error e, s)
  | (.ok response, s) =>
    match itemAt (.dict response) "turn" >>= fun turn => itemAt turn "id" with
    | .error e => (.error e, s)
    | .ok turnId =>
      let (t, s) := turnLoop env threadId turnId s s.stdout {} s.pending
      (t >>= finishTurn env logicalId, s)

/-! ## What a turn reacts to -/

section
variable (threadId turnId : PyValue)

/-- The value under a key, or the default; `none` where the value has no keys. -/
def keyOr (value : PyValue) (key : String) (default : PyValue) : Option PyValue :=
  match value with
  | .dict fields => some ((fields.lookup key).getD default)
  | _ => none

/-- An item of another thread or turn, the end of another turn, or a message of another kind. -/
def foreign (message : PyDict) : Bool :=
  let method := message.get "method"
  let params := (message.lookup "params").getD (.dict [])
  if isText method "item/completed" then
    match keyOr params "threadId" threadId, keyOr params "turnId" turnId with
    | some thread, some turn => !(env.same thread threadId && env.same turn turnId)
    | _, _ => false
  else if isText method "turn/completed" then
    match (keyOr params "turn" (.dict [])).bind fun completed => keyOr completed "id" .none with
    | some id => !env.same id turnId
    | none => false
  else !isText method "error"

/-- A message that the turn reacts to, or a frame that is none. -/
def relevant : Frame → Bool
  | .message message => !foreign env threadId turnId message
  | _ => true

variable {env threadId turnId}

theorem fieldOr_of_keyOr {value : PyValue} {key : String} {default found : PyValue}
    (h : keyOr value key default = some found) : fieldOr value key default = .ok found := by
  cases value with
  | dict fields => exact congrArg Except.ok (Option.some.inj h)
  | _ => cases h

theorem onMessage_foreign {message : PyDict} (h : foreign env threadId turnId message = true) (t : Turn) :
    onMessage env threadId turnId t message = .ok (t, false) := by
  unfold foreign at h
  unfold onMessage
  simp only at h ⊢
  split at h
  next hitem =>
    split at h
    next thread turn hthread hturn =>
      rw [if_pos hitem, bind_ok_eq (fieldOr_of_keyOr hthread)]
      cases hsame : env.same thread threadId with
      | false => rfl
      | true =>
        rw [hsame, Bool.true_and, Bool.not_eq_true'] at h
        simp only [Bool.not_true, Bool.false_eq_true, if_false]
        rw [bind_ok_eq (fieldOr_of_keyOr hturn), h]
        rfl
    next => cases h
  next hitem =>
    rw [if_neg hitem]
    split at h
    next hended =>
      split at h
      next id hid =>
        obtain ⟨completed, hcompleted, hid⟩ := Option.bind_eq_some_iff.1 hid
        rw [Bool.not_eq_true'] at h
        rw [if_pos hended, bind_ok_eq (fieldOr_of_keyOr hcompleted), bind_ok_eq (fieldOr_of_keyOr hid), h]
        rfl
      next => cases h
    next hended =>
      rw [Bool.not_eq_true'] at h
      rw [if_neg hended, h, if_neg Bool.false_ne_true]

/-- A message without a method is foreign. -/
theorem foreign_of_no_method {message : PyDict} (h : (message.get "method").truthy = false) :
    foreign env threadId turnId message = true := by
  have hno : ∀ text, text ≠ "" → isText (message.get "method") text = false := by
    intro text htext
    cases hm : message.get "method" with
    | str m =>
      rw [hm] at h
      have hempty : m = "" := by simpa [PyValue.truthy] using h
      simp [isText, hempty, Ne.symm htext]
    | _ => rfl
  unfold foreign
  simp only [hno "item/completed" (by decide), hno "turn/completed" (by decide), hno "error" (by decide),
    Bool.false_eq_true, if_false, Bool.not_false]

/-- The loop reads the notifications kept as if they came first on the stream. -/
theorem turnLoop_eq (s : AppServer) (t : Turn) (pending : List PyDict) (frames : List Frame) :
    (turnLoop env threadId turnId s frames t pending).1 =
      (turnFrames env threadId turnId s t (pending.map .message ++ frames)).1 := by
  induction pending generalizing t with
  | nil => rfl
  | cons message pending ih =>
    rw [List.map_cons, List.cons_append, turnLoop, turnFrames, Frame.read]
    simp only
    split
    next => rfl
    next => rfl
    next => exact ih _

/-- What a turn collects does not depend on the rest of the client. -/
theorem turnFrames_state (s s' : AppServer) (t : Turn) (frames : List Frame) :
    (turnFrames env threadId turnId s t frames).1 = (turnFrames env threadId turnId s' t frames).1 := by
  induction frames generalizing t with
  | nil => rfl
  | cons frame rest ih =>
    rw [turnFrames, turnFrames]
    split
    next => rfl
    next =>
      split
      next => rfl
      next => rfl
      next => exact ih _

/-- Frames that the turn does not react to can be left out. -/
theorem turnFrames_filter (s : AppServer) (t : Turn) (frames : List Frame) :
    (turnFrames env threadId turnId s t frames).1 =
      (turnFrames env threadId turnId s t (frames.filter (relevant env threadId turnId))).1 := by
  induction frames generalizing t with
  | nil => rfl
  | cons frame rest ih =>
    cases hrelevant : relevant env threadId turnId frame with
    | true =>
      rw [List.filter_cons_of_pos hrelevant, turnFrames, turnFrames]
      split
      next => rfl
      next =>
        split
        next => rfl
        next => rfl
        next => exact ih _
    | false =>
      rw [List.filter_cons_of_neg (by rw [hrelevant]; exact Bool.false_ne_true)]
      cases frame with
      | message message =>
        rw [relevant, Bool.not_eq_false'] at hrelevant
        rw [turnFrames, Frame.read]
        simp only
        rw [onMessage_foreign hrelevant]
        exact ih t
      | _ => cases hrelevant

end

/-! ## Requests among other messages -/

/-- The notifications among frames: what `_request` keeps. -/
def notifications (frames : List Frame) : List PyDict :=
  frames.filterMap fun frame =>
    match frame with
    | .message message => if (message.get "method").truthy then some message else none
    | _ => none

variable {env}

/-- A response is found behind messages that do not answer the request; the notifications among them are
kept in their order. -/
theorem awaitResponse_eq {requestId : ℕ} {before after : List Frame} {response : PyDict} (s : AppServer)
    (hbefore : ∀ frame ∈ before, ∃ message, frame = .message message ∧ answers requestId message = false)
    (hresponse : answers requestId response = true) (hok : response.lookup "error" = none) :
    awaitResponse env requestId s (before ++ .message response :: after) =
      (env.dictOf ((response.lookup "result").getD (.dict [])),
        { s with pending := s.pending ++ notifications before, stdout := after }) := by
  induction before generalizing s with
  | nil =>
    rw [List.nil_append, awaitResponse, Frame.read]
    simp only [hresponse, hok, Bool.not_true, Bool.false_eq_true, if_false]
    rw [show notifications [] = [] from rfl, List.append_nil]
  | cons frame before ih =>
    obtain ⟨message, rfl, hother⟩ := hbefore frame List.mem_cons_self
    have hrest := fun f hf => hbefore f (List.mem_cons_of_mem _ hf)
    rw [List.cons_append, awaitResponse, Frame.read]
    simp only [hother, Bool.not_false, if_true]
    split
    next hmethod =>
      rw [ih _ hrest]
      have hkept : notifications (.message message :: before) = message :: notifications before := by
        rw [notifications, List.filterMap_cons_some (b := message) (by simp only [hmethod, if_true])]
        rfl
      rw [hkept, List.append_assoc]
      rfl
    next hmethod =>
      rw [ih _ hrest]
      have hskipped : notifications (.message message :: before) = notifications before := by
        rw [notifications, List.filterMap_cons_none (by simp only [if_neg hmethod])]
        rfl
      rw [hskipped]

/-- Only the notifications among the frames before a response matter to a turn. -/
theorem filter_notifications {threadId turnId : PyValue} {before : List Frame}
    (hmessages : ∀ frame ∈ before, ∃ message, frame = .message message) :
    ((notifications before).map Frame.message).filter (relevant env threadId turnId) =
      before.filter (relevant env threadId turnId) := by
  induction before with
  | nil => rfl
  | cons frame before ih =>
    obtain ⟨message, rfl⟩ := hmessages frame List.mem_cons_self
    have hrest := ih fun f hf => hmessages f (List.mem_cons_of_mem _ hf)
    cases hmethod : (message.get "method").truthy with
    | true =>
      have hkept : notifications (.message message :: before) = message :: notifications before := by
        rw [notifications, List.filterMap_cons_some (b := message) (by simp only [hmethod, if_true])]
        rfl
      rw [hkept, List.map_cons, List.filter_cons, List.filter_cons, hrest]
    | false =>
      have hskipped : notifications (.message message :: before) = notifications before := by
        rw [notifications, List.filterMap_cons_none (by simp [hmethod])]
        rfl
      have hforeign : ¬relevant env threadId turnId (.message message) = true := by
        rw [relevant, foreign_of_no_method hmethod]
        exact Bool.false_ne_true
      rw [hskipped, hrest, List.filter_cons_of_neg hforeign]

/-- Values that are texts. -/
def textEnv : AppServerEnv where
  str := fun value => match value with
    | .str s => s
    | _ => ""
  same := fun value other => match other with
    | .str s => isText value s
    | _ => false
  dictOf := fun value => match value with
    | .dict fields => .ok fields
    | _ => .error (.other "TypeError" "")
  threadIds := fun _ => .ok []
  parse := fun text => some (.dict [("text", .str text)])

/-- An item of the thread and turn, with its text. -/
def answerItem (threadId turnId text : String) : PyDict :=
  [("method", .str "item/completed"),
    ("params", .dict
      [("threadId", .str threadId), ("turnId", .str turnId),
        ("item", .dict
          [("type", .str "agentMessage"), ("phase", .str "final_answer"), ("text", .str text)])])]

def turnEnd (turnId : String) : PyDict :=
  [("method", .str "turn/completed"),
    ("params", .dict [("turn", .dict [("id", .str turnId), ("status", .str "completed")])])]

def startResponse : PyDict := [("id", .int 1), ("result", .dict [("turn", .dict [("id", .str "t1")])])]

/-- The answer comes before the response that starts the turn, among messages of other turns. -/
def busyServer : AppServer where
  pending := [answerItem "b" "t0" "other"]
  stdout := [.message [("id", .int 9)], .message (answerItem "a" "t1" "own"), .message startResponse,
    .message (turnEnd "t0"), .message (answerItem "a" "t0" "late"), .message (turnEnd "t1")]

end AppServer

end Matrades

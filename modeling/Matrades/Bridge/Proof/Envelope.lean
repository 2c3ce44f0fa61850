import Matrades.Base.Run
import Matrades.Bridge.Commands

/-!
# The envelope of a polled command

The queue keeps a command as it was accepted: only its state and its lease change
(`run_pending_accepted`). What a poll returns for it is `flatten`, where the entries of the payload
win; an object carries the command's own fields exactly if the payload binds none of their keys to
another value (`intact_flatten_iff`).
-/

namespace Matrades

open Base

/-- The fields that identify and authorize a command. -/
def envelopeKeys : List String :=
  ["command_id", "account_id", "action", "idempotency_key", "authorization_id",
    "authorization_digest", "expected_broker_version"]

/-- The object carries the fields of the command. -/
def Intact (c : BridgeCommand) (object : Dict String Json) : Prop :=
  ∀ key ∈ envelopeKeys, object.get? key = (envelope c).get? key

/-- The payload binds no envelope key to another value than the command's. -/
def NoOverride (c : BridgeCommand) : Prop :=
  ∀ key ∈ envelopeKeys, ∀ value, c.payload.get? key = some value →
    (envelope c).get? key = some value

/-- The same command, its state and lease aside. -/
def BridgeCommand.Same (c d : BridgeCommand) : Prop :=
  d = { c with state := d.state, leaseExpiresAt := d.leaseExpiresAt }

theorem BridgeCommand.Same.trans {a b c : BridgeCommand} (h : a.Same b) (h' : b.Same c) :
    a.Same c := by
  unfold BridgeCommand.Same at *
  rw [h', h]

theorem same_leased (c : BridgeCommand) (deadline : Time) :
    c.Same (BridgeCommandQueue.leased deadline c) := rfl

theorem intact_flatten_iff (c : BridgeCommand) : Intact c (flatten c) ↔ NoOverride c := by
  refine forall₂_congr fun key _ => ?_
  rw [flatten, Dict.get?_update]
  cases c.payload.get? key with
  | none => simp
  | some value => simp [eq_comm]

theorem envelope_same {c d : BridgeCommand} (h : c.Same d) :
    ∀ key ∈ envelopeKeys, (envelope d).get? key = (envelope c).get? key := by
  unfold BridgeCommand.Same at h
  rw [h]
  simp [envelopeKeys, envelope, Dict.ofList, Dict.get?_set]

/-- Leasing a command does not change what its object has to carry. -/
theorem intact_leased_iff (c : BridgeCommand) (deadline : Time) :
    Intact c (flatten (BridgeCommandQueue.leased deadline c)) ↔ NoOverride c := by
  have henv := envelope_same (same_leased c deadline)
  rw [← intact_flatten_iff]
  refine forall₂_congr fun key hkey => ?_
  rw [flatten, flatten, Dict.get?_update, Dict.get?_update, henv key hkey]
  rfl

/-! ## The queue keeps what it accepted -/

/-- A request to the bridge's command routes, or a restart from the persisted state or without. -/
inductive BridgeRequest
  | enqueue (c : BridgeCommand)
  | poll (now : Time) (accountId : Uuid) (limit : Int)
  | receipt (r : BridgeReceipt)
  | restart (persisted : Bool)

def BridgeCommandQueue.step (q : BridgeCommandQueue) : BridgeRequest → BridgeCommandQueue
  | .enqueue c =>
    match enqueueCommand q c with
    | .ok (q', _) => q'
    | .error _ => q
  | .poll now accountId limit => (pollCommands q now accountId limit).1
  | .receipt r => (q.receipt r).1
  | .restart persisted => if persisted then q else { BridgeCommandQueue.empty with
      leaseSeconds := q.leaseSeconds }

/-- The pending commands are commands of `cs`, up to state and lease. -/
def BridgeCommandQueue.From (cs : BridgeCommand → Prop) (q : BridgeCommandQueue) : Prop :=
  ∀ c ∈ q.pending.values, ∃ accepted, cs accepted ∧ accepted.Same c

/-- An entry after a poll is one from before, leased if it was available. -/
theorem pollEntries_values {now deadline : Time} {accountId : Uuid} {limit : Int} {taken : Nat}
    {es : List (Uuid × BridgeCommand)} {e : Uuid × BridgeCommand}
    (h : e ∈ (BridgeCommandQueue.pollEntries now deadline accountId limit taken es).1) :
    ∃ c, (e.1, c) ∈ es ∧ (e.2 = c ∨ (BridgeCommandQueue.available now accountId c = true ∧
      e.2 = BridgeCommandQueue.leased deadline c)) := by
  induction es generalizing taken with
  | nil => cases h
  | cons e' es ih =>
    obtain ⟨id, c⟩ := e'
    have hrest {taken' : Nat}
        (h : e ∈ (BridgeCommandQueue.pollEntries now deadline accountId limit taken' es).1) :
        ∃ c', (e.1, c') ∈ (id, c) :: es ∧ (e.2 = c' ∨
          (BridgeCommandQueue.available now accountId c' = true ∧
            e.2 = BridgeCommandQueue.leased deadline c')) := by
      obtain ⟨c', hmem, hc'⟩ := ih h
      exact ⟨c', List.mem_cons_of_mem _ hmem, hc'⟩
    unfold BridgeCommandQueue.pollEntries at h
    split at h
    · rename_i havail
      split at h
      · rcases List.mem_cons.1 h with rfl | h
        · exact ⟨c, List.mem_cons_self, .inr ⟨havail, rfl⟩⟩
        · exact ⟨e.2, List.mem_cons_of_mem _ h, .inl rfl⟩
      · rcases List.mem_cons.1 h with rfl | h
        · exact ⟨c, List.mem_cons_self, .inr ⟨havail, rfl⟩⟩
        · exact hrest h
    · rcases List.mem_cons.1 h with rfl | h
      · exact ⟨c, List.mem_cons_self, .inl rfl⟩
      · exact hrest h

theorem pollEntries_selected {now deadline : Time} {accountId : Uuid} {limit : Int} {taken : Nat}
    {es : List (Uuid × BridgeCommand)} {c : BridgeCommand}
    (h : c ∈ (BridgeCommandQueue.pollEntries now deadline accountId limit taken es).2) :
    ∃ id, (id, c) ∈ es ∧ BridgeCommandQueue.available now accountId c = true := by
  induction es generalizing taken with
  | nil => cases h
  | cons e' es ih =>
    obtain ⟨id, d⟩ := e'
    have hrest {taken' : Nat}
        (h : c ∈ (BridgeCommandQueue.pollEntries now deadline accountId limit taken' es).2) :
        ∃ id', (id', c) ∈ (id, d) :: es ∧ BridgeCommandQueue.available now accountId c = true := by
      obtain ⟨id', hmem, havail⟩ := ih h
      exact ⟨id', List.mem_cons_of_mem _ hmem, havail⟩
    unfold BridgeCommandQueue.pollEntries at h
    split at h
    · rename_i havail
      split at h
      · rw [List.mem_singleton.1 h]
        exact ⟨id, List.mem_cons_self, havail⟩
      · rcases List.mem_cons.1 h with rfl | h
        · exact ⟨id, List.mem_cons_self, havail⟩
        · exact hrest h
    · exact hrest h

theorem enqueueCommand_values {q q' : BridgeCommandQueue} {c d : BridgeCommand}
    (h : enqueueCommand q c = .ok (q', d)) : c.isAuthorized = true ∧
      ∀ e ∈ q'.pending.values, e = c ∨ e ∈ q.pending.values := by
  unfold enqueueCommand at h
  split at h
  · cases h
  rename_i hauth
  refine ⟨by simpa using hauth, ?_⟩
  split at h
  · rename_i answer henq
    cases h
    unfold BridgeCommandQueue.enqueue at henq
    split at henq
    · split at henq
      · cases henq
      · cases henq
        exact fun e he => .inr he
    · cases henq
      exact fun e he => Dict.mem_values_set he
  · cases h

/-- One request keeps the queue within `cs`, if what it enqueues is. -/
theorem step_from {cs : BridgeCommand → Prop} {q : BridgeCommandQueue} {request : BridgeRequest}
    (hq : q.From cs) (hc : ∀ c, request = .enqueue c → c.isAuthorized = true → cs c) :
    (BridgeCommandQueue.step q request).From cs := by
  cases request with
  | enqueue c =>
    unfold BridgeCommandQueue.step
    dsimp only
    split
    · rename_i q' d henq
      intro e he
      obtain ⟨hauth, hvalues⟩ := enqueueCommand_values henq
      rcases hvalues e he with rfl | he
      · exact ⟨e, hc e rfl hauth, rfl⟩
      · exact hq e he
    · exact hq
  | poll now accountId limit =>
    intro e he
    obtain ⟨⟨id, e⟩, hmem, rfl⟩ := List.mem_map.1 he
    obtain ⟨c, hc, hsame'⟩ := pollEntries_values hmem
    obtain ⟨accepted, ha, hsame⟩ := hq c (List.mem_map_of_mem (f := Prod.snd) hc)
    refine ⟨accepted, ha, hsame.trans ?_⟩
    dsimp only at hsame'
    rcases hsame' with rfl | ⟨_, rfl⟩ <;> rfl
  | receipt r =>
    intro e he
    unfold BridgeCommandQueue.step BridgeCommandQueue.receipt at he
    dsimp only at he
    split at he
    · exact hq e he
    · rcases Dict.mem_values_modify he with he | ⟨c, hc, rfl⟩
      · exact hq e he
      · obtain ⟨accepted, ha, hsame⟩ := hq c (List.mem_map_of_mem (f := Prod.snd) hc)
        exact ⟨accepted, ha, hsame.trans rfl⟩
  | restart persisted =>
    unfold BridgeCommandQueue.step
    dsimp only
    split
    · exact hq
    · intro e he
      cases he

/-- Whatever is pending after a run was enqueued in it, with a server authorization. -/
theorem run_pending_accepted (requests : List BridgeRequest) :
    (run BridgeCommandQueue.step .empty requests).From
      fun c => BridgeRequest.enqueue c ∈ requests ∧ c.isAuthorized = true := by
  have hall : ∀ ls : List BridgeRequest, (∀ r ∈ ls, r ∈ requests) →
      Along BridgeCommandQueue.step (fun _ r => r ∈ requests) .empty ls := by
    intro ls
    generalize BridgeCommandQueue.empty = q
    induction ls generalizing q with
    | nil => exact fun _ => trivial
    | cons l ls ih =>
      intro h
      exact ⟨h l (by simp), ih _ fun r hr => h r (by simp [hr])⟩
  refine run_inv (fun q r hq hr => ?_) (fun c hc => by cases hc) (hall requests fun _ h => h)
  exact step_from hq fun c hc hauth => ⟨hc ▸ hr, hauth⟩

/-! ## What a poll returns -/

/-- **Envelope integrity of a poll**: after every run of requests, each object a poll returns stands
for a command the bridge accepted in the run, and carries that command's identity and authorization
if and only if the command's payload binds none of these keys to another value. -/
theorem polled_objects_intact_iff (requests : List BridgeRequest) (now : Time) (accountId : Uuid)
    (limit : Int) :
    let q := run BridgeCommandQueue.step .empty requests
    List.Forall₂
      (fun c object =>
        (∃ accepted, (BridgeRequest.enqueue accepted ∈ requests ∧ accepted.isAuthorized = true) ∧
          accepted.Same c) ∧
        (Intact c object ↔ NoOverride c))
      (q.selected now accountId (min limit 50)) (pollCommands q now accountId limit).2 := by
  intro q
  have hobjects : (pollCommands q now accountId limit).2 =
      (q.selected now accountId (min limit 50)).map
        fun c => flatten (BridgeCommandQueue.leased (q.leaseEnd now) c) := by
    simp [pollCommands, BridgeCommandQueue.poll, BridgeCommandQueue.selected]
  rw [hobjects, List.forall₂_map_right_iff]
  refine List.forall₂_same.2 fun c hc => ⟨?_, intact_leased_iff c _⟩
  obtain ⟨id, hmem, _⟩ := pollEntries_selected hc
  exact run_pending_accepted requests c (List.mem_map_of_mem (f := Prod.snd) hmem)

/-- A stop change whose postcondition names another action. -/
def overridingCommand : BridgeCommand where
  commandId := .ofNat 30
  accountId := .ofNat 1
  action := "SET_OR_CHANGE_STOP_LOSS"
  idempotencyKey := "management:30"
  payload := .ofList [("stop_loss", .str "1.05"), ("action", .str "FULL_EXIT")]
  authorizationId := some (.ofNat 40)
  authorizationDigest := some "d1"
  expectedBrokerVersion := none

/-- **The payload can replace the envelope**: the stop change is polled as a full exit. -/
theorem overriding_command_polled :
    let q := run BridgeCommandQueue.step .empty [.enqueue overridingCommand]
    q.selected 0 (.ofNat 1) 20 = [overridingCommand] ∧
    (pollCommands q 0 (.ofNat 1) 20).2.map (fun o => o.get? "action") = [some (.str "FULL_EXIT")] ∧
    ∀ object ∈ (pollCommands q 0 (.ofNat 1) 20).2, ¬Intact overridingCommand object := by
  refine ⟨rfl, rfl, fun object hobject hintact => ?_⟩
  have haction := hintact "action" (by simp [envelopeKeys])
  rw [List.mem_singleton.1 hobject] at haction
  have hread : (some (Json.str "FULL_EXIT")) = some (.str "SET_OR_CHANGE_STOP_LOSS") := haction
  simp at hread

end Matrades

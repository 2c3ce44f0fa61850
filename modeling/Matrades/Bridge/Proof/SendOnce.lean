import Matrades.Bridge.Delivery

/-!
# At most one order request per command id

The advisor executes a command, then remembers its id. Once the id is remembered in a global
variable, no step and no restart sends for it again; between the two steps only the phase of the
advisor knows of the request. `Tracked` is the invariant: every id sent for is remembered, or is the
one just executed. It holds along every run that does not restart in that gap and whose commands
carry ids the advisor can remember (`sends_at_most_once`); a restart in the gap sends twice
(`restart_resends`).
-/

namespace Matrades

open Base

/-- The id `OrderSend` was just called for, which is not yet remembered. -/
def AdvisorPhase.gap : AdvisorPhase → Option (List Char)
  | .executed id true _ _ => some id
  | _ => none

/-- The id of the command the advisor reads next. -/
def AdvisorPhase.nextId : AdvisorPhase → Option (List Char)
  | .scanning rest => (nextCommand rest).map fun found => jsonString found.1 "command_id"
  | _ => none

/-- An id the advisor can remember over a restart. -/
def Rememberable (commandId : List Char) : Prop :=
  commandId ≠ [] ∧ commandId.length ≤ Advisor.maxIdLength

instance (commandId : List Char) : Decidable (Rememberable commandId) :=
  inferInstanceAs (Decidable (_ ∧ _))

/-- No restart between an order request and the record of its id, and no command text with an id
that cannot be remembered. -/
def Delivery.Guarded (s : Delivery) : Delivery.Label → Prop
  | .restart => s.advisor.phase.gap = none
  | .advance .. => ∀ id ∈ s.advisor.phase.nextId, Rememberable id
  | _ => True

instance (s : Delivery) (l : Delivery.Label) : Decidable (s.Guarded l) :=
  match l with
  | .restart => inferInstanceAs (Decidable (s.advisor.phase.gap = none))
  | .advance .. => inferInstanceAs (Decidable (∀ id ∈ s.advisor.phase.nextId, Rememberable id))
  | .enqueue _ => .isTrue trivial
  | .poll .. => .isTrue trivial

/-- Every id sent for was sent for once, and is remembered or just executed. -/
structure Delivery.Tracked (s : Delivery) : Prop where
  once : ∀ id, s.sendsOf id ≤ 1
  known : ∀ id, 0 < s.sendsOf id → id ∈ s.advisor.globals ∨ s.advisor.phase.gap = some id
  fresh : ∀ id sent receipt rest, s.advisor.phase = .executed id sent receipt rest →
    s.advisor.wasProcessed id = false ∧ Rememberable id

/-- A step that sends nothing, forgets no global and leaves the gap only by remembering. -/
theorem Delivery.Tracked.keep {s s' : Delivery} (hs : s.Tracked) (hsends : s'.sends = s.sends)
    (hknown : ∀ id, id ∈ s.advisor.globals ∨ s.advisor.phase.gap = some id →
      id ∈ s'.advisor.globals ∨ s'.advisor.phase.gap = some id)
    (hfresh : ∀ id sent receipt rest, s'.advisor.phase = .executed id sent receipt rest →
      s'.advisor.wasProcessed id = false ∧ Rememberable id) : s'.Tracked := by
  have hcount : ∀ id, s'.sendsOf id = s.sendsOf id := by
    intro id
    rw [Delivery.sendsOf, hsends, Delivery.sendsOf]
  refine ⟨fun id => hcount id ▸ hs.once id, fun id h => ?_, hfresh⟩
  rw [hcount] at h
  exact hknown id (hs.known id h)

theorem mem_globals_remember {a : Advisor} {id commandId : List Char} (h : id ∈ a.globals) :
    id ∈ (a.rememberProcessed commandId).globals := by
  unfold Advisor.rememberProcessed
  split
  · exact h
  · dsimp only
    split
    · exact List.mem_append_left _ h
    · exact h

theorem remembered_of_fresh {a : Advisor} {id : List Char} (hnew : a.wasProcessed id = false)
    (hid : Rememberable id) : id ∈ (a.rememberProcessed id).globals := by
  unfold Advisor.rememberProcessed
  rw [if_neg (by simp [hid.1, hnew])]
  simp [hid.2]

/-- What a step of the advisor can do: read on, execute a new command, or remember an id. -/
theorem advance_cases (a : Advisor) (t : Terminal) (answer : SendResult) :
    ((a.advance t answer).2.sent = none ∧ (a.advance t answer).1.globals = a.globals ∧
      (∀ id, a.phase.gap ≠ some id) ∧
      ∀ id sent receipt rest, (a.advance t answer).1.phase ≠ .executed id sent receipt rest) ∨
    (∃ rest command rest', a.phase = .scanning rest ∧ nextCommand rest = some (command, rest') ∧
      a.wasProcessed (jsonString command "command_id") = false ∧
      (∃ receipt, (a.advance t answer).1 = a.inPhase (.executed (jsonString command "command_id")
        (requestFor t command).toOption.isSome receipt rest')) ∧
      (a.advance t answer).2.sent =
        (requestFor t command).toOption.map fun r => (jsonString command "command_id", r)) ∨
    (∃ id rest, a.phase = .refused id rest ∧ (a.advance t answer).2.sent = none ∧
      (a.advance t answer).1 = (a.rememberProcessed id).inPhase (.scanning rest)) ∨
    (∃ id sent receipt rest, a.phase = .executed id sent receipt rest ∧
      (a.advance t answer).2.sent = none ∧
      (a.advance t answer).1 = (a.rememberProcessed id).inPhase (.remembered receipt rest)) := by
  unfold Advisor.advance
  cases hphase : a.phase with
  | idle => exact .inl ⟨rfl, rfl, nofun, by simp [hphase]⟩
  | scanning rest =>
    dsimp only
    cases hnext : nextCommand rest with
    | none => exact .inl ⟨rfl, rfl, nofun, nofun⟩
    | some found =>
      obtain ⟨command, rest'⟩ := found
      dsimp only
      by_cases hscope : a.inScope command = false
      · rw [if_pos hscope]
        exact .inl ⟨rfl, rfl, nofun, nofun⟩
      rw [if_neg hscope]
      by_cases hproc : a.wasProcessed (jsonString command "command_id") = true
      · rw [if_pos hproc]
        exact .inl ⟨rfl, rfl, nofun, nofun⟩
      rw [if_neg hproc]
      exact .inr (.inl ⟨rest, command, rest', rfl, hnext, by simpa using hproc, ⟨_, rfl⟩, rfl⟩)
  | refused commandId rest => exact .inr (.inr (.inl ⟨commandId, rest, rfl, rfl, rfl⟩))
  | executed commandId sent receipt rest =>
    exact .inr (.inr (.inr ⟨commandId, sent, receipt, rest, rfl, rfl, rfl⟩))
  | remembered receipt rest => exact .inl ⟨rfl, rfl, nofun, nofun⟩

/-- Executing a command with a new id: it is sent for at most once more, the first time. -/
theorem tracked_execute {s s' : Delivery} {t : Terminal} {id : List Char} {command : List Char}
    (hs : s.Tracked) (hnone : ∀ id, s.advisor.phase.gap ≠ some id)
    (hnew : s.advisor.wasProcessed id = false) (hid : Rememberable id)
    (hadvisor : ∃ receipt rest, s'.advisor = s.advisor.inPhase (.executed id
      (requestFor t command).toOption.isSome receipt rest))
    (hsends : s'.sends = s.sends ++ ((requestFor t command).toOption.map fun r => (id, r)).toList) :
    s'.Tracked := by
  obtain ⟨receipt, rest, hadvisor⟩ := hadvisor
  have hfresh : ∀ id' sent receipt' rest', s'.advisor.phase = .executed id' sent receipt' rest' →
      s'.advisor.wasProcessed id' = false ∧ Rememberable id' := by
    rw [hadvisor]
    rintro id' sent receipt' rest' hexec
    cases hexec
    exact ⟨hnew, hid⟩
  -- an id sent for before is remembered, so it is not this one
  have hzero : s.sendsOf id = 0 := by
    by_contra hpos
    have hmem := (hs.known id (Nat.pos_of_ne_zero hpos)).resolve_right (hnone id)
    simp [Advisor.wasProcessed, hmem] at hnew
  cases hreq : (requestFor t command).toOption with
  | none =>
    rw [hreq] at hsends
    refine hs.keep (by simpa using hsends) (fun id' h => ?_) hfresh
    rw [hadvisor]
    exact .inl (h.resolve_right (hnone id'))
  | some request =>
    have hcount : ∀ id', s'.sendsOf id' = s.sendsOf id' + if id' = id then 1 else 0 := by
      intro id'
      rw [Delivery.sendsOf, hsends, hreq]
      simp only [Option.map_some, Option.toList_some, List.map_append, List.map_cons, List.map_nil,
        List.count_append, Delivery.sendsOf]
      by_cases he : id' = id
      · simp [he]
      · simp [he, Ne.symm he]
    refine ⟨fun id' => ?_, fun id' h => ?_, hfresh⟩
    · rw [hcount]
      by_cases he : id' = id
      · rw [he, hzero, if_pos rfl]
      · rw [if_neg he]
        exact hs.once id'
    · rw [hadvisor]
      by_cases he : id' = id
      · refine .inr ?_
        rw [he, hreq]
        rfl
      · rw [hcount, if_neg he] at h
        exact .inl ((hs.known id' h).resolve_right (hnone id'))

/-- One step of the advisor keeps the ids tracked. -/
theorem tracked_advance {s : Delivery} {t : Terminal} {answer : SendResult} {delivered : Bool}
    (hs : s.Tracked) (hg : s.Guarded (.advance t answer delivered)) :
    (s.step (.advance t answer delivered)).Tracked := by
  rcases advance_cases s.advisor t answer with ⟨hsent, hglobals, hnone, hphase⟩ |
    ⟨rest, command, rest', hphase, hnext, hnew, ⟨receipt, hadvisor⟩, hsent⟩ |
    ⟨commandId, rest, hphase, hsent, hadvisor⟩ |
    ⟨commandId, sent, receipt, rest, hphase, hsent, hadvisor⟩
  · refine hs.keep (by simp [Delivery.step, hsent]) (fun id h => ?_)
      (fun id sent receipt rest h => absurd h (hphase id sent receipt rest))
    refine .inl ?_
    simp only [Delivery.step, hglobals]
    exact h.resolve_right (hnone id)
  · refine tracked_execute hs (fun id h => ?_) hnew (hg _ (by simp [hphase, AdvisorPhase.nextId, hnext]))
      ⟨receipt, rest', hadvisor⟩ (by simp only [Delivery.step, hsent])
    rw [hphase] at h
    cases h
  · refine hs.keep (by simp [Delivery.step, hsent]) (fun id h => ?_) (by simp [Delivery.step, hadvisor])
    rw [hphase] at h
    refine .inl ?_
    simp only [Delivery.step, hadvisor]
    exact mem_globals_remember (h.resolve_right nofun)
  · obtain ⟨hnew, hid⟩ := hs.fresh commandId sent receipt rest hphase
    refine hs.keep (by simp [Delivery.step, hsent]) (fun id h => ?_) (by simp [Delivery.step, hadvisor])
    rw [hphase] at h
    refine .inl ?_
    simp only [Delivery.step, hadvisor]
    rcases h with hmem | hgap
    · exact mem_globals_remember hmem
    · cases sent
      · cases hgap
      · cases hgap
        exact remembered_of_fresh hnew hid

/-- Every guarded step keeps the ids tracked. -/
theorem tracked_step {s : Delivery} {l : Delivery.Label} (hs : s.Tracked) (hg : s.Guarded l) :
    (s.step l).Tracked := by
  cases l with
  | enqueue c =>
    unfold Delivery.step
    dsimp only
    split
    · exact ⟨hs.once, hs.known, hs.fresh⟩
    · exact hs
  | poll now delivered =>
    unfold Delivery.step
    cases hphase : s.advisor.phase with
    | idle =>
      refine hs.keep rfl (fun id h => ?_) (fun id sent receipt rest hexec => ?_)
      · rw [hphase] at h
        exact .inl (h.resolve_right nofun)
      · cases delivered <;> cases hexec
    | _ => exact hs
  | advance t answer delivered => exact tracked_advance hs hg
  | restart =>
    refine hs.keep rfl (fun id h => ?_) nofun
    exact .inl (h.resolve_right fun hgap => by rw [hg] at hgap; cases hgap)

theorem tracked_start (accountId : Uuid) (queue : BridgeCommandQueue)
    (globals : List (List Char)) : (Delivery.start accountId queue globals).Tracked :=
  ⟨fun _ => Nat.zero_le 1, fun _ h => absurd h (lt_irrefl 0), nofun⟩

/-- **At most one order request per command id**: along every run in which the terminal does not
restart between an order request and the record of its id, and every command text carries an id the
advisor can remember, each id is sent for at most once, in every state reached. -/
theorem sends_at_most_once {accountId : Uuid} {queue : BridgeCommandQueue}
    {globals : List (List Char)} {ls : List Delivery.Label}
    (hg : Along Delivery.step Delivery.Guarded (.start accountId queue globals) ls) :
    States Delivery.step (fun s => ∀ id, s.sendsOf id ≤ 1) (.start accountId queue globals) ls :=
  (states_of_inv (fun _ _ => tracked_step) (tracked_start accountId queue globals) hg).mono
    fun _ h => h.once

/-! ## A restart in the gap -/

/-- A terminal without positions that accepts every symbol. -/
def quietTerminal : Terminal where
  positions := []
  nodup := List.nodup_nil
  symbolSelect := fun _ => true
  bid := fun _ => 1085 / 1000
  ask := fun _ => 1085 / 1000
  point := fun _ => 1 / 100000
  orderCalcProfit := fun _ _ _ _ _ => some (-500)

def filledAnswer : SendResult := ⟨true, retcodeDone, 77, 0⟩

/-- An authorized entry. -/
def entryCommand : BridgeCommand where
  commandId := .ofNat 30
  accountId := .ofNat 1
  action := "PLACE_ORDER"
  idempotencyKey := "entry:30"
  payload := .ofList [("instrument", .str "EURUSD"), ("direction", .str "BUY"),
    ("quantity", .str "1"), ("stop_loss", .str "1.08"), ("take_profit", .str "1.1"),
    ("max_loss_account_currency", .str "600")]
  authorizationId := some (.ofNat 40)
  authorizationDigest := some "d1"
  expectedBrokerVersion := none

def entryId : List Char := (Uuid.ofNat 30).chars

def start : Delivery := .start (.ofNat 1) .empty []

/-- The entry is polled and sent; the terminal restarts before the id is recorded. The lease runs
out, the entry is polled and sent again. -/
def restartRun : List Delivery.Label := [
  .enqueue entryCommand,
  .poll 0 true, .advance quietTerminal filledAnswer true, .restart,
  .poll (40 * second) true, .advance quietTerminal filledAnswer true]

/-- **A restart between the order request and its record sends twice.** -/
theorem restart_resends : (run Delivery.step start restartRun).sendsOf entryId = 2 := by
  decide +kernel

/-- With the id recorded before the restart, the second poll sends nothing. -/
theorem recorded_sends_once :
    States Delivery.step (fun s => ∀ id, s.sendsOf id ≤ 1) start [
      .enqueue entryCommand,
      .poll 0 true, .advance quietTerminal filledAnswer true,
      .advance quietTerminal filledAnswer true, .restart,
      .poll (40 * second) true, .advance quietTerminal filledAnswer true] :=
  sends_at_most_once (by decide +kernel)

end Matrades

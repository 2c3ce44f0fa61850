import Matrades.Bridge.Proof.Envelope

/-!
# Finality and leases of the bridge's queue

A run of calls on the queue under a clock that does not go back, restarts from the persisted state
among them, with a log of what was polled, until when, and what was settled by a receipt. A command
that a poll may take respects the log: nothing in the log settles its id, and every earlier lease of
its id has run out or is the command's own (`Held`). Polls keep this. A command stored under a used
id and a first receipt with an open state need not, and these two are all that breaks finality and
the separation of the leases (`queue_final`, `requeued_command_polled`).
-/

namespace Matrades

open Base

/-- What has become of a command id. -/
inductive QueueEvent
  | polled (commandId : Uuid) (time : Time) (deadline : Time)
  | settled (commandId : Uuid)
  deriving DecidableEq

/-- A later event is compatible with an earlier one: nothing is polled once it is settled, and not
before its earlier lease has run out. -/
def QueueEvent.Before : QueueEvent → QueueEvent → Prop
  | .settled id, .polled id' _ _ => id ≠ id'
  | .polled id _ deadline, .polled id' time _ => id = id' → deadline ≤ time
  | _, _ => True

instance : (e e' : QueueEvent) → Decidable (e.Before e')
  | .settled id, .polled id' _ _ => inferInstanceAs (Decidable (id ≠ id'))
  | .polled id _ deadline, .polled id' time _ => inferInstanceAs (Decidable (id = id' → deadline ≤ time))
  | .settled _, .settled _ | .polled .., .settled _ => .isTrue trivial

structure QueueRun where
  queue : BridgeCommandQueue
  clock : Time
  /-- The events so far, the first one first. -/
  log : List QueueEvent

namespace QueueRun

def start (leaseSeconds : Nat) : QueueRun where
  queue := { BridgeCommandQueue.empty with leaseSeconds }
  clock := 0
  log := []

/-- A call of the queue, or a restart, each `elapsed` after the one before. -/
inductive Label
  | enqueue (elapsed : Time) (c : BridgeCommand)
  | poll (elapsed : Time) (accountId : Uuid) (limit : Int)
  | receipt (elapsed : Time) (r : BridgeReceipt)
  | restart (elapsed : Time)

def Label.elapsed : Label → Time
  | enqueue t _ => t
  | poll t _ _ => t
  | receipt t _ => t
  | restart t => t

def enqueue (q : BridgeCommandQueue) (c : BridgeCommand) : BridgeCommandQueue :=
  match q.enqueue c with
  | .ok (q', _) => q'
  | .error _ => q

/-- The event of a command a poll at `now` takes. -/
def taken (q : BridgeCommandQueue) (now : Time) (c : BridgeCommand) : QueueEvent :=
  .polled c.commandId now (q.leaseEnd now)

/-- The event of a receipt that is accepted. -/
def accepted (q : BridgeCommandQueue) (r : BridgeReceipt) : List QueueEvent :=
  match q.receipts.get? r.commandId with
  | some _ => []
  | none => [.settled r.commandId]

/-- The call at the time `now`. -/
def call (s : QueueRun) (now : Time) : Label → QueueRun
  | .enqueue _ c => ⟨enqueue s.queue c, now, s.log⟩
  | .poll _ accountId limit =>
    ⟨(s.queue.poll now accountId limit).1, now,
      s.log ++ (s.queue.selected now accountId limit).map (taken s.queue now)⟩
  | .receipt _ r => ⟨(s.queue.receipt r).1, now, s.log ++ accepted s.queue r⟩
  | .restart _ => ⟨s.queue.reload, now, s.log⟩

def step (s : QueueRun) (l : Label) : QueueRun := s.call (s.clock + l.elapsed) l

/-- Nothing is polled after its receipt, and no command twice within a lease. -/
def Final (s : QueueRun) : Prop := s.log.Pairwise QueueEvent.Before

instance (s : QueueRun) : Decidable s.Final := inferInstanceAs (Decidable (List.Pairwise _ _))

end QueueRun

/-! ## What the log permits -/

/-- The states a poll takes a command in. -/
def openStates : List String := ["QUEUED", "LEASED"]

/-- A running lease of the command reaches to the deadline. -/
def BridgeCommand.LeasedTo (c : BridgeCommand) (deadline : Time) : Prop :=
  c.state = "LEASED" ∧ ∃ l ∈ c.leaseExpiresAt, deadline ≤ l

instance (c : BridgeCommand) (deadline : Time) : Decidable (c.LeasedTo deadline) :=
  inferInstanceAs (Decidable (_ ∧ ∃ l ∈ c.leaseExpiresAt, deadline ≤ l))

/-- The event permits that the open command is polled from `now` on. -/
def QueueEvent.Permits (now : Time) (c : BridgeCommand) : QueueEvent → Prop
  | .settled id => id ≠ c.commandId
  | .polled id _ deadline => id = c.commandId → deadline ≤ now ∨ c.LeasedTo deadline

instance (now : Time) (c : BridgeCommand) : (e : QueueEvent) → Decidable (e.Permits now c)
  | .settled id => inferInstanceAs (Decidable (id ≠ c.commandId))
  | .polled id _ deadline =>
    inferInstanceAs (Decidable (id = c.commandId → deadline ≤ now ∨ c.LeasedTo deadline))

/-- The command is closed, or all that has happened permits to poll it. -/
def QueueRun.Held (log : List QueueEvent) (now : Time) (c : BridgeCommand) : Prop :=
  c.state ∈ openStates → ∀ e ∈ log, e.Permits now c

instance (log : List QueueEvent) (now : Time) (c : BridgeCommand) :
    Decidable (QueueRun.Held log now c) :=
  inferInstanceAs (Decidable (c.state ∈ openStates → _))

/-- A command that is stored anew is held, and a first receipt of a pending command closes it. -/
def QueueRun.Guarded (s : QueueRun) : QueueRun.Label → Prop
  | .enqueue elapsed c =>
    s.queue.withKey c.idempotencyKey = none → QueueRun.Held s.log (s.clock + elapsed) c
  | .receipt _ r =>
    s.queue.receipts.get? r.commandId = none → r.commandId ∈ s.queue.pending.keys →
      r.state ∉ openStates
  | _ => True

instance QueueRun.decidableGuarded (s : QueueRun) : (l : QueueRun.Label) → Decidable (s.Guarded l)
  | .enqueue elapsed c => inferInstanceAs (Decidable
      (s.queue.withKey c.idempotencyKey = none → QueueRun.Held s.log (s.clock + elapsed) c))
  | .receipt _ r => inferInstanceAs (Decidable
      (s.queue.receipts.get? r.commandId = none → r.commandId ∈ s.queue.pending.keys →
        r.state ∉ openStates))
  | .poll .. | .restart _ => .isTrue trivial

/-! ## The loop of a poll -/

section
variable {now deadline : Time} {accountId : Uuid} {limit : Int}

theorem selected_sublist (taken : Nat) (es : List (Uuid × BridgeCommand)) :
    (BridgeCommandQueue.pollEntries now deadline accountId limit taken es).2.Sublist
      (es.map Prod.snd) := by
  induction es generalizing taken with
  | nil => exact List.nil_sublist _
  | cons e es ih =>
    obtain ⟨id, c⟩ := e
    unfold BridgeCommandQueue.pollEntries
    split
    · split
      · exact List.Sublist.cons_cons _ (List.nil_sublist _)
      · exact List.Sublist.cons_cons _ (ih _)
    · exact List.Sublist.cons _ (ih _)

/-- After a poll an entry is one it has leased, or one from before whose id it did not take. -/
theorem pollEntries_entry {taken : Nat} {es : List (Uuid × BridgeCommand)}
    (hnodup : (es.map Prod.fst).Nodup) (hkeyed : ∀ e ∈ es, e.2.commandId = e.1)
    {e : Uuid × BridgeCommand}
    (h : e ∈ (BridgeCommandQueue.pollEntries now deadline accountId limit taken es).1) :
    (∃ c ∈ (BridgeCommandQueue.pollEntries now deadline accountId limit taken es).2,
      (e.1, c) ∈ es ∧ e.2 = BridgeCommandQueue.leased deadline c) ∨
    (e ∈ es ∧ ∀ c ∈ (BridgeCommandQueue.pollEntries now deadline accountId limit taken es).2,
      c.commandId ≠ e.1) := by
  induction es generalizing taken with
  | nil => cases h
  | cons e' es ih =>
    obtain ⟨id, c⟩ := e'
    rw [List.map_cons, List.nodup_cons] at hnodup
    have hkeyed' : ∀ e ∈ es, e.2.commandId = e.1 := fun e he => hkeyed e (List.mem_cons_of_mem _ he)
    have hid : c.commandId = id := hkeyed (id, c) List.mem_cons_self
    -- the commands taken later have other ids
    have hother {taken' : Nat} : ∀ d ∈ (BridgeCommandQueue.pollEntries now deadline accountId limit
        taken' es).2, d.commandId ≠ id := by
      intro d hd hsame
      obtain ⟨id', hmem, _⟩ := pollEntries_selected hd
      refine hnodup.1 (List.mem_map.2 ⟨(id', d), hmem, ?_⟩)
      rw [← hsame]
      exact (hkeyed' _ hmem).symm
    have hkey : ∀ e ∈ es, e.1 ≠ id := by
      rintro e he rfl
      exact hnodup.1 (List.mem_map.2 ⟨e, he, rfl⟩)
    have hrest {taken' : Nat}
        (h : e ∈ (BridgeCommandQueue.pollEntries now deadline accountId limit taken' es).1) :
        (∃ d ∈ (BridgeCommandQueue.pollEntries now deadline accountId limit taken' es).2,
          (e.1, d) ∈ (id, c) :: es ∧ e.2 = BridgeCommandQueue.leased deadline d) ∨
        (e ∈ es ∧ ∀ d ∈ (BridgeCommandQueue.pollEntries now deadline accountId limit taken' es).2,
          d.commandId ≠ e.1) := by
      rcases ih hnodup.2 hkeyed' h with ⟨d, hd, hmem, hleased⟩ | hkept
      · exact .inl ⟨d, hd, List.mem_cons_of_mem _ hmem, hleased⟩
      · exact .inr hkept
    unfold BridgeCommandQueue.pollEntries at h ⊢
    split at h
    · rename_i havail
      simp only [havail, if_true]
      split at h
      · rename_i hlimit
        simp only [hlimit, if_true]
        rcases List.mem_cons.1 h with rfl | h
        · exact .inl ⟨c, List.mem_singleton_self c, List.mem_cons_self, rfl⟩
        · refine .inr ⟨List.mem_cons_of_mem _ h, fun d hd => ?_⟩
          rw [List.mem_singleton.1 hd, hid]
          exact (hkey e h).symm
      · rename_i hlimit
        simp only [hlimit, if_false]
        rcases List.mem_cons.1 h with rfl | h
        · exact .inl ⟨c, List.mem_cons_self, List.mem_cons_self, rfl⟩
        · rcases hrest h with ⟨d, hd, hmem, hleased⟩ | ⟨hmem, hnot⟩
          · exact .inl ⟨d, List.mem_cons_of_mem _ hd, hmem, hleased⟩
          · refine .inr ⟨List.mem_cons_of_mem _ hmem, fun d hd => ?_⟩
            rcases List.mem_cons.1 hd with rfl | hd
            · rw [hid]
              exact (hkey e hmem).symm
            · exact hnot d hd
    · rename_i havail
      simp only [havail]
      rcases List.mem_cons.1 h with rfl | h
      · exact .inr ⟨List.mem_cons_self, hother⟩
      · rcases hrest h with hleased | ⟨hmem, hnot⟩
        · exact .inl hleased
        · exact .inr ⟨List.mem_cons_of_mem _ hmem, hnot⟩

end

/-! ## The invariant -/

namespace QueueRun

/-- The queue and its log agree. -/
structure Inv (s : QueueRun) : Prop where
  keyed : ∀ e ∈ s.queue.pending.entries, e.2.commandId = e.1
  settled : ∀ e ∈ s.queue.receipts.entries, e.2.commandId = e.1
  held : ∀ c ∈ s.queue.pending.values, Held s.log s.clock c
  final : s.Final

theorem inv_start (leaseSeconds : Nat) : (start leaseSeconds).Inv := by
  constructor <;> simp [start, BridgeCommandQueue.empty, Dict.empty, Dict.values, Final]

end QueueRun

section
variable {log : List QueueEvent} {now later : Time} {c : BridgeCommand}

theorem permits_later {e : QueueEvent} (h : now ≤ later) (he : e.Permits now c) :
    e.Permits later c := by
  cases e with
  | settled id => exact he
  | polled id time deadline =>
    intro hid
    rcases he hid with hover | hleased
    · exact .inl (Nat.le_trans hover h)
    · exact .inr hleased

theorem held_later (h : now ≤ later) (hc : QueueRun.Held log now c) :
    QueueRun.Held log later c :=
  fun hopen e he => permits_later h (hc hopen e he)

/-- Events of other ids do not touch a held command. -/
theorem held_append {events : List QueueEvent} (hc : QueueRun.Held log now c)
    (hother : c.state ∈ openStates → ∀ e ∈ events, e.Permits now c) :
    QueueRun.Held (log ++ events) now c := by
  intro hopen e he
  rcases List.mem_append.1 he with he | he
  · exact hc hopen e he
  · exact hother hopen e he

theorem open_of_available {accountId : Uuid}
    (h : BridgeCommandQueue.available now accountId c = true) : c.state ∈ openStates := by
  simp only [BridgeCommandQueue.available, Bool.and_eq_true, Bool.or_eq_true,
    decide_eq_true_eq] at h
  rcases h.1.2 with hqueued | hleased
  · simp [openStates, hqueued]
  · simp [openStates, hleased]

/-- An available command has no running lease. -/
theorem lease_over {accountId : Uuid} {deadline : Time}
    (h : BridgeCommandQueue.available now accountId c = true) (hleased : c.LeasedTo deadline) :
    deadline ≤ now := by
  obtain ⟨hstate, l, hl, hle⟩ := hleased
  have hlease : c.leaseExpiresAt = some l := hl
  simp only [BridgeCommandQueue.available, hstate, hlease, Bool.and_eq_true, Bool.not_eq_true',
    Bool.and_eq_false_iff, Option.any_some, decide_eq_false_iff_not, not_lt] at h
  rcases h.2 with hnot | hover
  · simp at hnot
  · exact Nat.le_trans hle hover

/-- What a poll takes comes after all that has happened. -/
theorem before_taken {q : BridgeCommandQueue} {accountId : Uuid}
    (hc : QueueRun.Held log now c) (h : BridgeCommandQueue.available now accountId c = true) :
    ∀ e ∈ log, e.Before (QueueRun.taken q now c) := by
  intro e he
  have hpermits := hc (open_of_available h) e he
  cases e with
  | settled id => exact hpermits
  | polled id time deadline =>
    intro hid
    rcases hpermits hid with hover | hleased
    · exact hover
    · exact lease_over h hleased

end

/-- The queue's commands after a poll respect the log with what it took. -/
theorem held_poll {s : QueueRun} (hi : s.Inv) {now : Time} (hnow : s.clock ≤ now)
    (accountId : Uuid) (limit : Int) {c : BridgeCommand}
    (hc : c ∈ (s.queue.poll now accountId limit).1.pending.values) :
    QueueRun.Held
      (s.log ++ (s.queue.selected now accountId limit).map (QueueRun.taken s.queue now)) now c := by
  obtain ⟨e, he, rfl⟩ := List.mem_map.1 hc
  rcases pollEntries_entry s.queue.pending.nodup hi.keyed he with
    ⟨d, hd, hmem, hleased⟩ | ⟨hmem, hnot⟩
  · have hheld : QueueRun.Held s.log now d :=
      held_later hnow (hi.held d (List.mem_map_of_mem (f := Prod.snd) hmem))
    obtain ⟨_, _, havail⟩ := pollEntries_selected hd
    intro _ event hevent
    rw [hleased]
    rcases List.mem_append.1 hevent with hold | hnew
    · have hpermits := hheld (open_of_available havail) event hold
      cases event with
      | settled id => exact hpermits
      | polled id time deadline =>
        intro hid
        rcases hpermits hid with hover | hrunning
        · exact .inl hover
        · exact .inl (lease_over havail hrunning)
    · -- the new events all end with the lease the command has now
      obtain ⟨d', _, rfl⟩ := List.mem_map.1 hnew
      exact fun _ => .inr ⟨rfl, _, rfl, Nat.le_refl _⟩
  · have hheld : QueueRun.Held s.log now e.2 :=
      held_later hnow (hi.held e.2 (List.mem_map_of_mem (f := Prod.snd) hmem))
    refine held_append hheld fun _ event hevent => ?_
    obtain ⟨d, hd, rfl⟩ := List.mem_map.1 hevent
    intro hid
    exact absurd (hid.trans (hi.keyed e hmem)) (hnot d hd)

theorem final_poll {s : QueueRun} (hi : s.Inv) {now : Time} (hnow : s.clock ≤ now)
    (accountId : Uuid) (limit : Int) :
    (s.log ++ (s.queue.selected now accountId limit).map
      (QueueRun.taken s.queue now)).Pairwise QueueEvent.Before := by
  refine List.pairwise_append.2 ⟨hi.final, ?_, ?_⟩
  · -- one poll takes no id twice
    have hids : ((s.queue.selected now accountId limit).map (·.commandId)).Nodup := by
      have hsub : ((s.queue.selected now accountId limit).map BridgeCommand.commandId).Sublist
          ((s.queue.pending.entries.map Prod.snd).map BridgeCommand.commandId) :=
        (selected_sublist 0 s.queue.pending.entries).map BridgeCommand.commandId
      refine hsub.nodup ?_
      have hkeys : (s.queue.pending.entries.map Prod.snd).map BridgeCommand.commandId =
          s.queue.pending.entries.map Prod.fst := by
        rw [List.map_map]
        exact List.map_congr_left hi.keyed
      rw [hkeys]
      exact s.queue.pending.nodup
    rw [List.pairwise_map]
    refine (List.pairwise_map.1 hids).imp fun hne => ?_
    exact fun hid => absurd hid hne
  · intro e he e' he'
    obtain ⟨c, hc, rfl⟩ := List.mem_map.1 he'
    obtain ⟨id, hmem, havail⟩ := pollEntries_selected hc
    exact before_taken (held_later hnow (hi.held c (List.mem_map_of_mem (f := Prod.snd) hmem))) havail
      e he

/-! ## One call -/

namespace QueueRun

variable {s : QueueRun}

/-- What storing a command leaves behind: the queue as it was, or with the command under its id. -/
theorem enqueue_cases (q : BridgeCommandQueue) (c : BridgeCommand) :
    enqueue q c = q ∨ (q.withKey c.idempotencyKey = none ∧
      enqueue q c = { q with pending := q.pending.set c.commandId c }) := by
  unfold enqueue BridgeCommandQueue.enqueue
  cases hkey : q.withKey c.idempotencyKey with
  | some existing =>
    refine .inl ?_
    by_cases h : Json.eqvDict existing.payload c.payload = false ∨ existing.action ≠ c.action
    · simp [h]
    · simp [h]
  | none => exact .inr ⟨rfl, rfl⟩

theorem Inv.enqueue (hi : s.Inv) {elapsed : Time} {c : BridgeCommand}
    (hg : s.Guarded (.enqueue elapsed c)) : (s.step (.enqueue elapsed c)).Inv := by
  have hlater : s.clock ≤ s.clock + elapsed := Nat.le_add_right _ _
  rcases enqueue_cases s.queue c with hsame | ⟨hnew, hset⟩
  · refine ⟨?_, ?_, ?_, hi.final⟩ <;> simp only [step, call, hsame]
    · exact hi.keyed
    · exact hi.settled
    · exact fun d hd => held_later hlater (hi.held d hd)
  · refine ⟨?_, ?_, ?_, hi.final⟩ <;> simp only [step, call, hset]
    · intro e he
      rcases Dict.mem_setEntries he with rfl | he
      · rfl
      · exact hi.keyed e he
    · exact hi.settled
    · intro d hd
      rcases Dict.mem_values_set hd with rfl | hd
      · exact hg hnew
      · exact held_later hlater (hi.held d hd)

theorem Inv.poll (hi : s.Inv) (elapsed : Time) (accountId : Uuid) (limit : Int) :
    (s.step (.poll elapsed accountId limit)).Inv := by
  have hlater : s.clock ≤ s.clock + elapsed := Nat.le_add_right _ _
  refine ⟨fun e he => ?_, hi.settled, fun c hc => held_poll hi hlater accountId limit hc,
    final_poll hi hlater accountId limit⟩
  rcases pollEntries_entry s.queue.pending.nodup hi.keyed he with
    ⟨d, _, hmem, hleased⟩ | ⟨hmem, _⟩
  · rw [hleased]
    exact hi.keyed (e.1, d) hmem
  · exact hi.keyed e hmem

/-- A command that a receipt has changed is closed, under the guard; the others keep their ids. -/
theorem held_receipt (hi : s.Inv) {elapsed : Time} {r : BridgeReceipt}
    (hg : s.Guarded (.receipt elapsed r)) (hnew : s.queue.receipts.get? r.commandId = none)
    {e : Uuid × BridgeCommand} (he : e ∈ (s.queue.pending.modify r.commandId fun c =>
      { c with state := r.state, leaseExpiresAt := none }).entries) :
    e.2.commandId = e.1 ∧ Held (s.log ++ [.settled r.commandId]) (s.clock + elapsed) e.2 := by
  obtain ⟨old, hold, rfl⟩ := List.mem_map.1 he
  have hkey := hi.keyed old hold
  by_cases hid : old.1 = r.commandId
  · rw [if_pos hid]
    refine ⟨hkey, fun hopen => absurd hopen ?_⟩
    exact hg hnew (hid ▸ List.mem_map_of_mem (f := Prod.fst) hold)
  · rw [if_neg hid]
    refine ⟨hkey, held_append ?_ fun _ event hevent => ?_⟩
    · exact held_later (Nat.le_add_right _ _) (hi.held old.2 (List.mem_map_of_mem (f := Prod.snd) hold))
    · rw [List.mem_singleton.1 hevent]
      exact fun hsame => hid (hkey.symm.trans hsame.symm)

/-- A receipt changes nothing, or is the first one of its id. -/
theorem receipt_cases (s : QueueRun) (elapsed : Time) (r : BridgeReceipt) :
    s.step (.receipt elapsed r) = ⟨s.queue, s.clock + elapsed, s.log⟩ ∨
    (s.queue.receipts.get? r.commandId = none ∧ s.step (.receipt elapsed r) =
      ⟨{ s.queue with
          receipts := s.queue.receipts.set r.commandId r
          pending := s.queue.pending.modify r.commandId fun c =>
            { c with state := r.state, leaseExpiresAt := none } },
        s.clock + elapsed, s.log ++ [.settled r.commandId]⟩) := by
  simp only [step, call, accepted, BridgeCommandQueue.receipt, Label.elapsed]
  cases hnew : s.queue.receipts.get? r.commandId with
  | some existing => exact .inl (by simp)
  | none => exact .inr ⟨rfl, rfl⟩

theorem Inv.receipt (hi : s.Inv) {elapsed : Time} {r : BridgeReceipt}
    (hg : s.Guarded (.receipt elapsed r)) : (s.step (.receipt elapsed r)).Inv := by
  rcases receipt_cases s elapsed r with hsame | ⟨hnew, hfirst⟩
  · rw [hsame]
    exact ⟨hi.keyed, hi.settled,
      fun c hc => held_later (Nat.le_add_right _ _) (hi.held c hc), hi.final⟩
  · rw [hfirst]
    refine ⟨fun e he => (held_receipt hi hg hnew he).1, fun e he => ?_, fun c hc => ?_, ?_⟩
    · rcases Dict.mem_setEntries he with rfl | he
      · rfl
      · exact hi.settled e he
    · obtain ⟨e, he, rfl⟩ := List.mem_map.1 hc
      exact (held_receipt hi hg hnew he).2
    · refine List.pairwise_append.2 ⟨hi.final, List.pairwise_singleton _ _, fun e _ e' he' => ?_⟩
      rw [List.mem_singleton.1 he']
      cases e <;> trivial

/-- A reload finds the queue as it was. -/
theorem Inv.reload (hi : s.Inv) : s.queue.reload = s.queue := by
  unfold BridgeCommandQueue.reload
  rw [Dict.ofList_values hi.keyed, Dict.ofList_values hi.settled]

theorem Inv.restart (hi : s.Inv) (elapsed : Time) : (s.step (.restart elapsed)).Inv := by
  have hqueue : s.step (.restart elapsed) = ⟨s.queue, s.clock + elapsed, s.log⟩ := by
    simp only [step, call, hi.reload, Label.elapsed]
  rw [hqueue]
  exact ⟨hi.keyed, hi.settled, fun c hc => held_later (Nat.le_add_right _ _) (hi.held c hc), hi.final⟩

theorem Inv.step (hi : s.Inv) {l : Label} (hg : s.Guarded l) : (s.step l).Inv := by
  cases l with
  | enqueue elapsed c => exact hi.enqueue hg
  | poll elapsed accountId limit => exact hi.poll elapsed accountId limit
  | receipt elapsed r => exact hi.receipt hg
  | restart elapsed => exact hi.restart elapsed

end QueueRun

/-! ## Runs -/

/-- **Finality and separate leases**: along every run of calls and restarts in which a command that
is stored anew is held by what has happened, and every first receipt of a pending command closes it,
no command is polled after its receipt, and none twice before its earlier lease has run out. -/
theorem queue_final (leaseSeconds : Nat) (ls : List QueueRun.Label)
    (hg : Along QueueRun.step QueueRun.Guarded (QueueRun.start leaseSeconds) ls) :
    States QueueRun.step QueueRun.Final (QueueRun.start leaseSeconds) ls :=
  (states_of_inv (fun _ _ hi hl => hi.step hl) (QueueRun.inv_start leaseSeconds) hg).mono
    fun _ hi => hi.final

/-- An entry of the account. -/
def queuedEntry (idempotencyKey : String) : BridgeCommand where
  commandId := .ofNat 30
  accountId := .ofNat 1
  action := "PLACE_ORDER"
  idempotencyKey := idempotencyKey
  payload := .empty
  authorizationId := some (.ofNat 40)
  authorizationDigest := some "d1"
  expectedBrokerVersion := none

/-- The broker's receipt of the entry. -/
def entryReceipt (idempotencyKey state : String) : BridgeReceipt :=
  ⟨.ofNat 30, .ofNat 1, idempotencyKey, state, "CONFIRMED", none, none⟩

/-- A command is polled, polled again after its lease, over a restart, and settled. -/
theorem queue_final_settled : States QueueRun.step QueueRun.Final (QueueRun.start 30) [
    .enqueue 0 (queuedEntry "entry-0001"), .poll 0 (.ofNat 1) 20, .restart 0,
    .poll (31 * second) (.ofNat 1) 20, .receipt 0 (entryReceipt "entry-0001" "ACKNOWLEDGED"),
    .poll (31 * second) (.ofNat 1) 20] :=
  queue_final 30 _ (by decide +kernel)

/-- **A settled command is polled again** once its id is queued under another key. -/
theorem requeued_command_polled :
    ¬(run QueueRun.step (QueueRun.start 30) [
      .enqueue 0 (queuedEntry "entry-0001"), .poll 0 (.ofNat 1) 20,
      .receipt 0 (entryReceipt "entry-0001" "ACKNOWLEDGED"),
      .enqueue 0 (queuedEntry "entry-0002"), .poll 0 (.ofNat 1) 20]).Final := by
  decide +kernel

/-- So is one whose receipt carries an open state. -/
example : ¬(run QueueRun.step (QueueRun.start 30) [
    .enqueue 0 (queuedEntry "entry-0001"), .poll 0 (.ofNat 1) 20,
    .receipt 0 (entryReceipt "entry-0001" "QUEUED"), .poll 0 (.ofNat 1) 20]).Final := by
  decide

end Matrades

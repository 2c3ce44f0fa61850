import Matrades.Base.Run
import Matrades.Trading.Ledger
import Matrades.Trading.Proof.Queueing

/-!
# One key, one intent

An intent is an account, an action, the ids of the targets and the expected postcondition. Every gate
compares the postcondition, the bridge the action as well, and none the account or the targets. So a
gate tells two intents apart exactly where what it compares does (`one_intent_iff`); the gates accept
the same pairs there, since each accepts a stored key for its intent and for no other.
-/

namespace Matrades

open Base

/-- The account, the action and the targets are the same. -/
def ExecutionCommand.SameScope (e c : ExecutionCommand) : Prop :=
  e.accountId = c.accountId ∧ e.action = c.action ∧ e.targetOrderId = c.targetOrderId ∧
    e.targetPositionId = c.targetPositionId

/-- The expected postconditions are equal. -/
def ExecutionCommand.SamePostcondition (e c : ExecutionCommand) : Prop :=
  Json.eqvDict e.requestedPostcondition c.requestedPostcondition = true

/-- The commands carry one economic intent. -/
def ExecutionCommand.SameIntent (e c : ExecutionCommand) : Prop :=
  e.SameScope c ∧ e.SamePostcondition c

namespace Gates

/-- The key is accepted for the intent it is stored with and for no other, and every stored command
stays as it is. -/
def OneIntent (s : Gates) (l : Label) : Prop :=
  (∀ e ∈ s.stored l.place, s.accepts l = true ↔ e.SameIntent l.command) ∧
  ∀ place e, s.stored place = some e → (s.step l).stored place = some e

/-- The gate tells the stored intent from the presented one by what it compares. -/
def Distinguishes (s : Gates) : Label → Prop
  | .put c => ∀ e ∈ s.stored (.ledger c.idempotencyKey), e.SamePostcondition c → e.SameScope c
  | .persist _ ownerId c => ∀ e ∈ s.stored (.database ownerId c.idempotencyKey),
    match Table.get? s.db.commands c.id ownerId with
    | some row => row.data.command.idempotencyKey = c.idempotencyKey ↔ e.SameIntent c
    | none => e.SamePostcondition c → e.SameScope c
  | .enqueue c _ => ∀ e ∈ s.stored (.bridge c.idempotencyKey),
    e.SamePostcondition c → e.action = c.action → e.SameScope c

/-- A key that is new to the ledger or the bridge brings an id that is new to it. -/
def NewIds (s : Gates) : Label → Prop
  | .put c => s.stored (.ledger c.idempotencyKey) = none → s.ledger.commands.get? c.id = none
  | .persist .. => True
  | .enqueue c _ => s.stored (.bridge c.idempotencyKey) = none → s.sent.get? c.id = none

/-! ## The invariant -/

structure Inv (s : Gates) : Prop where
  /-- The ledger's two dictionaries agree. -/
  ledger : ∀ key id, s.ledger.byIdempotency.get? key = some id ↔
    ∃ e, s.ledger.commands.get? id = some e ∧ e.idempotencyKey = key
  /-- An owner has one command with a key. -/
  database : ∀ r ∈ s.db.commands, ∀ r' ∈ s.db.commands, r.ownerId = r'.ownerId →
    r.data.command.idempotencyKey = r'.data.command.idempotencyKey → r = r'
  bridge : s.queue.pending.entries =
    s.sent.entries.map (Prod.map id fun sent => bridgeCommand sent.1 sent.2)
  /-- The bridge has one command with a key. -/
  keys : (s.sent.values.map fun p => p.1.idempotencyKey).Nodup

theorem inv_start : start.Inv where
  ledger key id := by simp [start, ExecutionLedger.empty]
  database r hr := absurd hr List.not_mem_nil
  bridge := by simp [start, BridgeCommandQueue.empty, Dict.empty]
  keys := by simp [start, Dict.values, Dict.empty]

variable {s : Gates}

/-! ## The ledger -/

theorem existing?_record (ledger : ExecutionLedger) (c : ExecutionCommand) (key : String) :
    (ledger.record c).existing? key = if key = c.idempotencyKey then some c else
      (ledger.byIdempotency.get? key).bind fun id =>
        if id = c.id then some c else ledger.commands.get? id := by
  unfold ExecutionLedger.existing? ExecutionLedger.record
  dsimp only
  rw [Dict.get?_set]
  split
  · rw [Option.bind_some, Dict.get?_set_self]
  · exact congrArg _ (funext fun id => Dict.get?_set _ _ _ _)

/-- A stored key is answered with its command, or refused. -/
theorem put_stored {ledger : ExecutionLedger} {c e : ExecutionCommand}
    (he : ledger.existing? c.idempotencyKey = some e) :
    (e.SamePostcondition c ∧ ledger.put c = .ok (ledger, e)) ∨
      (¬e.SamePostcondition c ∧ ∃ error, ledger.put c = .error error) := by
  unfold ExecutionLedger.put ExecutionCommand.SamePostcondition
  rw [he]
  dsimp only
  split
  · rename_i hdiffers
    exact .inr ⟨by simp [hdiffers], _, rfl⟩
  · rename_i hsame
    exact .inl ⟨by simpa using hsame, rfl⟩

theorem accepts_put {c e : ExecutionCommand}
    (he : s.stored (.ledger c.idempotencyKey) = some e) :
    s.accepts (.put c) = true ↔ e.SamePostcondition c := by
  unfold accepts
  rcases put_stored he with ⟨hsame, hput⟩ | ⟨hdiffers, error, hput⟩
  · simp [hput, hsame, Except.isOk, Except.toBool]
  · simp [hput, hdiffers, Except.isOk, Except.toBool]

theorem step_put_stored {c e : ExecutionCommand}
    (he : s.stored (.ledger c.idempotencyKey) = some e) : s.step (.put c) = s := by
  unfold step
  rcases put_stored he with ⟨_, hput⟩ | ⟨_, error, hput⟩
  · simp only [hput]
  · simp only [hput]

theorem step_put_new {c : ExecutionCommand} (hnew : s.stored (.ledger c.idempotencyKey) = none) :
    s.step (.put c) = { s with ledger := s.ledger.record c } := by
  have hnone : s.ledger.existing? c.idempotencyKey = none := hnew
  unfold step ExecutionLedger.put
  dsimp only
  rw [hnone]

/-- A key that leads to an id has its command. -/
theorem Inv.existing? (hi : s.Inv) {key : String} {id : Uuid}
    (hid : s.ledger.byIdempotency.get? key = some id) :
    ∃ e, s.ledger.existing? key = some e ∧ s.ledger.commands.get? id = some e ∧
      e.idempotencyKey = key := by
  obtain ⟨e, he, hkey⟩ := (hi.ledger key id).1 hid
  refine ⟨e, ?_, he, hkey⟩
  rw [ExecutionLedger.existing?, hid, Option.bind_some, he]

theorem Inv.ledger_new (hi : s.Inv) {c : ExecutionCommand}
    (hnew : s.stored (.ledger c.idempotencyKey) = none) :
    s.ledger.byIdempotency.get? c.idempotencyKey = none := by
  cases hid : s.ledger.byIdempotency.get? c.idempotencyKey with
  | none => rfl
  | some id =>
    obtain ⟨e, he, _⟩ := hi.existing? hid
    have hnone : s.ledger.existing? c.idempotencyKey = none := hnew
    rw [hnone] at he
    cases he

/-- A new key leaves the other keys' commands exactly if its id is new. -/
theorem put_keeps_iff (hi : s.Inv) {c : ExecutionCommand}
    (hnew : s.stored (.ledger c.idempotencyKey) = none) :
    (∀ key e, s.ledger.existing? key = some e → (s.ledger.record c).existing? key = some e) ↔
      s.ledger.commands.get? c.id = none := by
  have hnone := hi.ledger_new hnew
  constructor
  · intro hkeeps
    by_contra hold
    obtain ⟨e, he⟩ := Option.ne_none_iff_exists'.1 hold
    -- the key of the command with the id is another one, and it is answered with the new command
    have hid : s.ledger.byIdempotency.get? e.idempotencyKey = some c.id :=
      (hi.ledger _ _).2 ⟨e, he, rfl⟩
    have hother : e.idempotencyKey ≠ c.idempotencyKey := by
      intro hsame
      rw [hsame, hnone] at hid
      cases hid
    have hbefore : s.ledger.existing? e.idempotencyKey = some e := by
      rw [ExecutionLedger.existing?, hid, Option.bind_some, he]
    have hafter := hkeeps _ _ hbefore
    rw [existing?_record, if_neg hother, hid, Option.bind_some, if_pos rfl] at hafter
    rw [Option.some.inj hafter] at hother
    exact hother rfl
  · intro hfree key e he
    obtain ⟨id, hid, hcommand⟩ := Option.bind_eq_some_iff.1 he
    have hother : key ≠ c.idempotencyKey := by
      intro hsame
      rw [hsame, hnone] at hid
      cases hid
    have hsite : id ≠ c.id := by
      rintro rfl
      rw [hfree] at hcommand
      cases hcommand
    rw [existing?_record, if_neg hother, hid, Option.bind_some, if_neg hsite, hcommand]

theorem Inv.put (hi : s.Inv) {c : ExecutionCommand} (hids : NewIds s (.put c)) :
    (s.step (.put c)).Inv := by
  cases he : s.stored (.ledger c.idempotencyKey) with
  | some e =>
    rw [step_put_stored he]
    exact hi
  | none =>
    rw [step_put_new he]
    refine { hi with ledger := fun key id => ?_ }
    have hfree : s.ledger.commands.get? c.id = none := hids he
    have hkeyless := hi.ledger_new he
    simp only [ExecutionLedger.record]
    rw [Dict.get?_set, Dict.get?_set]
    by_cases hkey : key = c.idempotencyKey
    · rw [if_pos hkey]
      constructor
      · intro h
        rw [if_pos (Option.some.inj h).symm]
        exact ⟨c, rfl, hkey.symm⟩
      · rintro ⟨e, he', hekey⟩
        by_cases hid : id = c.id
        · rw [hid]
        · rw [if_neg hid] at he'
          have hbound := (hi.ledger key id).2 ⟨e, he', hekey⟩
          rw [hkey, hkeyless] at hbound
          cases hbound
    · rw [if_neg hkey, hi.ledger]
      by_cases hid : id = c.id
      · rw [if_pos hid, hid, hfree]
        constructor
        · rintro ⟨e, he', _⟩
          cases he'
        · rintro ⟨e, he', hekey⟩
          rw [← Option.some.inj he'] at hekey
          exact absurd hekey.symm hkey
      · rw [if_neg hid]

/-! ## The bridge -/

theorem value_injective : Function.Injective ExecutionAction.value := by
  intro x y h
  cases x <;> cases y <;> first | rfl | simp [ExecutionAction.value] at h

/-- The bridge finds what the command under the key was translated to. -/
theorem Inv.withKey (hi : s.Inv) (key : String) :
    s.queue.withKey key = (s.sent.values.find? fun p => p.1.idempotencyKey = key).map
      fun p => bridgeCommand p.1 p.2 := by
  unfold BridgeCommandQueue.withKey Dict.values
  rw [hi.bridge, List.map_map]
  have hvalues : (Prod.snd ∘ Prod.map id fun sent : ExecutionCommand × ExecutionAuthorization =>
      bridgeCommand sent.1 sent.2) = (fun sent => bridgeCommand sent.1 sent.2) ∘
        (Prod.snd : Uuid × ExecutionCommand × ExecutionAuthorization → _) := rfl
  rw [hvalues, ← List.map_map, List.find?_map]
  rfl

/-- A pending key is answered with its command, or refused. -/
theorem enqueue_pending {q : BridgeCommandQueue} {b existing : BridgeCommand}
    (hfound : q.withKey b.idempotencyKey = some existing) :
    (Json.eqvDict existing.payload b.payload = true ∧ existing.action = b.action ∧
      q.enqueue b = .ok (q, existing)) ∨
    (¬(Json.eqvDict existing.payload b.payload = true ∧ existing.action = b.action) ∧
      ∃ error, q.enqueue b = .error error) := by
  unfold BridgeCommandQueue.enqueue
  rw [hfound]
  dsimp only
  split
  · rename_i hdiffers
    refine .inr ⟨?_, _, rfl⟩
    rintro ⟨hsame, haction⟩
    rcases hdiffers with hdiffers | hdiffers
    · rw [hdiffers] at hsame
      cases hsame
    · exact hdiffers haction
  · rename_i hsame
    rw [not_or, not_not] at hsame
    exact .inl ⟨by simpa using hsame.1, hsame.2, rfl⟩

theorem enqueue_stored (hi : s.Inv) {c e : ExecutionCommand} (a : ExecutionAuthorization)
    (he : s.stored (.bridge c.idempotencyKey) = some e) :
    (e.SamePostcondition c ∧ e.action = c.action ∧
      ∃ answer, s.queue.enqueue (bridgeCommand c a) = .ok (s.queue, answer)) ∨
    (¬(e.SamePostcondition c ∧ e.action = c.action) ∧
      ∃ error, s.queue.enqueue (bridgeCommand c a) = .error error) := by
  obtain ⟨p, hp, rfl⟩ := Option.map_eq_some_iff.1 he
  have hfound := hi.withKey c.idempotencyKey
  rw [hp, Option.map_some] at hfound
  have haction : (bridgeCommand p.1 p.2).action = (bridgeCommand c a).action ↔
      p.1.action = c.action := value_injective.eq_iff
  rcases @enqueue_pending s.queue (bridgeCommand c a) _ hfound with
    ⟨hsame, hvalue, hqueue⟩ | ⟨hdiffers, error, hqueue⟩
  · exact .inl ⟨hsame, haction.1 hvalue, _, hqueue⟩
  · refine .inr ⟨fun hsame => hdiffers ⟨hsame.1, haction.2 hsame.2⟩, error, hqueue⟩

theorem accepts_enqueue (hi : s.Inv) {c e : ExecutionCommand} {a : ExecutionAuthorization}
    (he : s.stored (.bridge c.idempotencyKey) = some e) :
    s.accepts (.enqueue c a) = true ↔ e.SamePostcondition c ∧ e.action = c.action := by
  unfold accepts
  rcases enqueue_stored hi a he with ⟨hsame, haction, answer, hqueue⟩ | ⟨hdiffers, error, hqueue⟩
  · simp [hqueue, hsame, haction, Except.isOk, Except.toBool]
  · simp [hqueue, hdiffers, Except.isOk, Except.toBool]

theorem step_enqueue_stored (hi : s.Inv) {c e : ExecutionCommand} (a : ExecutionAuthorization)
    (he : s.stored (.bridge c.idempotencyKey) = some e) : s.step (.enqueue c a) = s := by
  unfold step
  rcases enqueue_stored hi a he with ⟨_, _, answer, hqueue⟩ | ⟨_, error, hqueue⟩
  · simp only [hqueue, he]
  · simp only [hqueue]

/-- The bridge with a command under a new key. -/
def send (s : Gates) (c : ExecutionCommand) (a : ExecutionAuthorization) : Gates :=
  { s with
    queue := { s.queue with pending := s.queue.pending.set c.id (bridgeCommand c a) }
    sent := s.sent.set c.id (c, a) }

theorem unsent {c : ExecutionCommand} (hnew : s.stored (.bridge c.idempotencyKey) = none) :
    ∀ p ∈ s.sent.values, p.1.idempotencyKey ≠ c.idempotencyKey := by
  intro p hp
  have hnone := List.find?_eq_none.1 (Option.map_eq_none_iff.1 hnew) p hp
  simpa using hnone

theorem step_enqueue_new (hi : s.Inv) {c : ExecutionCommand} (a : ExecutionAuthorization)
    (hnew : s.stored (.bridge c.idempotencyKey) = none) :
    s.step (.enqueue c a) = s.send c a := by
  have hnone : s.queue.withKey c.idempotencyKey = none := by
    rw [hi.withKey, Option.map_eq_none_iff.1 hnew, Option.map_none]
  unfold step BridgeCommandQueue.enqueue
  dsimp only
  rw [show (bridgeCommand c a).idempotencyKey = c.idempotencyKey from rfl, hnone]
  dsimp only
  rw [hnew]
  rfl

/-- A new key leaves the other keys' commands exactly if its id is new. -/
theorem send_keeps_iff (hi : s.Inv) {c : ExecutionCommand} {a : ExecutionAuthorization}
    (hnew : s.stored (.bridge c.idempotencyKey) = none) :
    (∀ key e, s.stored (.bridge key) = some e → (s.send c a).stored (.bridge key) = some e) ↔
      s.sent.get? c.id = none := by
  have hunsent := unsent hnew
  have hkeys : (s.sent.entries.map fun e => e.2.1.idempotencyKey).Nodup := by
    have hkeys := hi.keys
    rw [Dict.values, List.map_map] at hkeys
    exact hkeys
  constructor
  · intro hkeeps
    by_contra hold
    obtain ⟨p, hp⟩ := Option.ne_none_iff_exists'.1 hold
    have hentry : (c.id, p) ∈ s.sent.entries := Dict.mem_of_lookup hp
    have hvalue : p ∈ s.sent.values := List.mem_map_of_mem hentry
    have hbefore : s.stored (.bridge p.1.idempotencyKey) = some p.1 := by
      have hfind : (s.sent.values.find? fun q => q.1.idempotencyKey = p.1.idempotencyKey) = some p :=
        Table.find?_only hvalue (by simp) fun q hq hkey =>
          List.inj_on_of_nodup_map hi.keys hq hvalue (by simpa using hkey)
      exact congrArg (Option.map Prod.fst) hfind
    -- the command with the id was the only one with its key
    obtain ⟨q, hq, _⟩ := Option.map_eq_some_iff.1 (hkeeps _ _ hbefore)
    have hkey : q.1.idempotencyKey = p.1.idempotencyKey := by simpa using List.find?_some hq
    obtain ⟨e, he, rfl⟩ := List.mem_map.1 (List.mem_of_find?_eq_some hq)
    rcases Dict.mem_set he with rfl | ⟨he, hother⟩
    · exact hunsent p hvalue hkey.symm
    · have hsame : e = (c.id, p) := List.inj_on_of_nodup_map hkeys he hentry hkey
      rw [hsame] at hother
      exact hother rfl
  · intro hfree key e he
    obtain ⟨p, hp, rfl⟩ := Option.map_eq_some_iff.1 he
    show ((s.sent.set c.id (c, a)).values.find? _).map Prod.fst = _
    rw [Dict.values_set_new _ hfree, List.find?_append, hp]
    rfl

theorem Inv.enqueue (hi : s.Inv) {c : ExecutionCommand} {a : ExecutionAuthorization}
    (hids : NewIds s (.enqueue c a)) : (s.step (.enqueue c a)).Inv := by
  cases he : s.stored (.bridge c.idempotencyKey) with
  | some e =>
    rw [step_enqueue_stored hi a he]
    exact hi
  | none =>
    rw [step_enqueue_new hi a he]
    refine { hi with bridge := ?_, keys := ?_ }
    · have hset := Dict.map_setEntries (fun sent : ExecutionCommand × ExecutionAuthorization =>
        bridgeCommand sent.1 sent.2) c.id (c, a) s.sent.entries
      rw [← hi.bridge] at hset
      exact hset.symm
    · show ((s.sent.set c.id (c, a)).values.map fun p => p.1.idempotencyKey).Nodup
      rw [Dict.values_set_new _ (hids he), List.map_append]
      refine List.Nodup.append hi.keys (List.nodup_singleton _) fun key hkey hnew => ?_
      obtain ⟨p, hp, rfl⟩ := List.mem_map.1 hkey
      exact unsent he p hp (List.mem_singleton.1 hnew)

/-! ## The database -/

/-- What `persist_command` compares: a command whose id is stored by its key, any other by its
postcondition. -/
def Persisted (s : Gates) (ownerId : Uuid) (c e : ExecutionCommand) : Prop :=
  match Table.get? s.db.commands c.id ownerId with
  | some row => row.data.command.idempotencyKey = c.idempotencyKey
  | none => e.SamePostcondition c

theorem storable_iff {c e : ExecutionCommand} {ownerId : Uuid}
    (he : s.stored (.database ownerId c.idempotencyKey) = some e) :
    Storable s.db ownerId c ↔ s.Persisted ownerId c e := by
  obtain ⟨item, hitem, rfl⟩ := Option.map_eq_some_iff.1 he
  unfold Storable Persisted
  cases Table.get? s.db.commands c.id ownerId with
  | some row => rfl
  | none =>
    unfold keyedCommand?
    dsimp only
    rw [hitem]
    rfl

theorem accepts_persist {c e : ExecutionCommand} {env : Env} {ownerId : Uuid}
    (he : s.stored (.database ownerId c.idempotencyKey) = some e) :
    s.accepts (.persist env ownerId c) = true ↔ s.Persisted ownerId c e := by
  rw [← storable_iff he]
  unfold accepts
  rcases persistCommand_run env ownerId c s.db with ⟨hstorable, hrun⟩ | ⟨hnot, error, hrun⟩
  · simp [Tx.unitOfWork_of_ok hrun, hstorable, Except.isOk, Except.toBool]
  · simp [Tx.unitOfWork_of_error hrun, hnot, Except.isOk, Except.toBool]

/-- Nothing is stored, or a command under a new key. -/
theorem step_persist (s : Gates) (env : Env) (ownerId : Uuid) (c : ExecutionCommand) :
    s.step (.persist env ownerId c) = s ∨
      (s.stored (.database ownerId c.idempotencyKey) = none ∧
        s.step (.persist env ownerId c) = { s with db := s.db.addCommand env ownerId c }) := by
  have hstep : s.step (.persist env ownerId c) =
      { s with db := (Tx.unitOfWork (persistCommand env ownerId c) s.db).state } := rfl
  rw [hstep]
  rcases persistCommand_run env ownerId c s.db with ⟨_, hrun⟩ | ⟨_, error, hrun⟩
  · rw [Tx.unitOfWork_of_ok hrun, Database.withCommand]
    by_cases hknown : (persistedRecord s.db ownerId c).isSome
    · rw [if_pos hknown]
      exact .inl rfl
    · rw [if_neg hknown]
      refine .inr ⟨?_, rfl⟩
      have hnone := Option.not_isSome_iff_eq_none.1 hknown
      exact Option.map_eq_none_iff.2 (Option.or_eq_none_iff.1 hnone).2
  · rw [Tx.unitOfWork_of_error hrun]
    exact .inl rfl

theorem Inv.persist (hi : s.Inv) (env : Env) (ownerId : Uuid) (c : ExecutionCommand) :
    (s.step (.persist env ownerId c)).Inv := by
  rcases step_persist s env ownerId c with hsame | ⟨hnew, hstep⟩
  · rw [hsame]
    exact hi
  · rw [hstep]
    have hnone := List.find?_eq_none.1 (Option.map_eq_none_iff.1 hnew)
    have hother : ∀ r ∈ s.db.commands, r.ownerId = ownerId →
        r.data.command.idempotencyKey ≠ c.idempotencyKey := by
      intro r hr howner
      simpa using hnone r (Table.mem_listed.2 ⟨hr, howner, rfl⟩)
    refine { hi with database := fun r hr r' hr' howner hkey => ?_ }
    rcases List.mem_append.1 hr with hr | hr <;> rcases List.mem_append.1 hr' with hr' | hr'
    · exact hi.database r hr r' hr' howner hkey
    · rw [List.mem_singleton.1 hr'] at howner hkey
      exact absurd hkey (hother r hr howner)
    · rw [List.mem_singleton.1 hr] at howner hkey
      exact absurd hkey.symm (hother r' hr' howner.symm)
    · rw [List.mem_singleton.1 hr, List.mem_singleton.1 hr']

/-- No owner's stored command is changed. -/
theorem persist_keeps (hi : s.Inv) (env : Env) (ownerId : Uuid) (c : ExecutionCommand)
    (owner : Uuid) {key : String} {e : ExecutionCommand}
    (he : s.stored (.database owner key) = some e) :
    (s.step (.persist env ownerId c)).stored (.database owner key) = some e := by
  have hnext := hi.persist env ownerId c
  rcases step_persist s env ownerId c with hsame | ⟨_, hstep⟩
  · rw [hsame]
    exact he
  · rw [hstep] at hnext ⊢
    obtain ⟨row, hrow, rfl⟩ := Option.map_eq_some_iff.1 he
    have hkey : row.data.command.idempotencyKey = key := by simpa using List.find?_some hrow
    obtain ⟨hmem, howner, _⟩ := Table.mem_listed.1 (List.mem_of_find?_eq_some hrow)
    have hafter : row ∈ (s.db.addCommand env ownerId c).commands := List.mem_append_left _ hmem
    have hfind : ((listedCommands (s.db.addCommand env ownerId c) owner).find? fun item =>
        item.data.command.idempotencyKey = key) = some row := by
      refine Table.find?_only (Table.mem_listed.2 ⟨hafter, howner, rfl⟩) (by simpa using hkey) ?_
      intro r hr hrkey
      obtain ⟨hr, hrowner, _⟩ := Table.mem_listed.1 hr
      exact hnext.database r hr row hafter (hrowner.trans howner.symm)
        ((of_decide_eq_true hrkey).trans hkey.symm)
    exact congrArg (Option.map _) hfind

/-! ## One step -/

theorem oneIntent_stored {l : Label} {e : ExecutionCommand} (he : s.stored l.place = some e)
    (hstep : s.step l = s) : s.OneIntent l ↔ (s.accepts l = true ↔ e.SameIntent l.command) := by
  unfold OneIntent
  rw [he, hstep]
  simp

theorem oneIntent_new {l : Label} (hnew : s.stored l.place = none) :
    s.OneIntent l ↔ ∀ place e, s.stored place = some e → (s.step l).stored place = some e := by
  unfold OneIntent
  rw [hnew]
  simp

/-- A gate that compares `compared`, and more than that with the postcondition, errs where the
scopes differ. -/
theorem compares_iff {accepted compared : Prop} {e c : ExecutionCommand}
    (h : accepted ↔ e.SamePostcondition c ∧ compared) (hscope : e.SameScope c → compared) :
    (accepted ↔ e.SameIntent c) ↔ (e.SamePostcondition c → compared → e.SameScope c) := by
  rw [h]
  constructor
  · intro hintent hsame hcompared
    exact (hintent.1 ⟨hsame, hcompared⟩).1
  · intro htells
    constructor
    · rintro ⟨hsame, hcompared⟩
      exact ⟨htells hsame hcompared, hsame⟩
    · rintro ⟨hscoped, hsame⟩
      exact ⟨hsame, hscope hscoped⟩

theorem put_iff (hi : s.Inv) (c : ExecutionCommand) :
    s.OneIntent (.put c) ↔ s.Distinguishes (.put c) ∧ s.NewIds (.put c) := by
  cases he : s.stored (.ledger c.idempotencyKey) with
  | some e =>
    have haccepts : s.accepts (.put c) = true ↔ e.SamePostcondition c ∧ True := by
      rw [accepts_put he, and_true]
    have hcompares := compares_iff haccepts fun _ => trivial
    rw [oneIntent_stored he (step_put_stored he)]
    simp only [Distinguishes, NewIds, he, Label.command]
    simpa using hcompares
  | none =>
    rw [oneIntent_new he, step_put_new he]
    simp only [Distinguishes, NewIds, he]
    rw [← put_keeps_iff hi he]
    constructor
    · intro hkeeps
      exact ⟨fun e hmem => absurd hmem (Option.not_mem_none e), fun _ key e hkey => hkeeps (.ledger key) e hkey⟩
    · rintro ⟨_, hkeeps⟩ place e hplace
      cases place with
      | ledger key => exact hkeeps trivial key e hplace
      | database ownerId key => exact hplace
      | bridge key => exact hplace

theorem enqueue_iff (hi : s.Inv) (c : ExecutionCommand) (a : ExecutionAuthorization) :
    s.OneIntent (.enqueue c a) ↔ s.Distinguishes (.enqueue c a) ∧ s.NewIds (.enqueue c a) := by
  cases he : s.stored (.bridge c.idempotencyKey) with
  | some e =>
    have hcompares := compares_iff (@accepts_enqueue s hi c e a he) fun hscope => hscope.2.1
    rw [oneIntent_stored he (step_enqueue_stored hi a he)]
    simp only [Distinguishes, NewIds, he, Label.command]
    simpa using hcompares
  | none =>
    rw [oneIntent_new he, step_enqueue_new hi a he]
    simp only [Distinguishes, NewIds, he]
    rw [← @send_keeps_iff s hi c a he]
    constructor
    · intro hkeeps
      exact ⟨fun e hmem => absurd hmem (Option.not_mem_none e), fun _ key e hkey => hkeeps (.bridge key) e hkey⟩
    · rintro ⟨_, hkeeps⟩ place e hplace
      cases place with
      | ledger key => exact hplace
      | database ownerId key => exact hplace
      | bridge key => exact hkeeps trivial key e hplace

theorem persist_iff (hi : s.Inv) (env : Env) (ownerId : Uuid) (c : ExecutionCommand) :
    s.OneIntent (.persist env ownerId c) ↔ s.Distinguishes (.persist env ownerId c) := by
  have hkeeps : ∀ place e, s.stored place = some e →
      (s.step (.persist env ownerId c)).stored place = some e := by
    intro place e hplace
    cases place with
    | ledger key => exact hplace
    | database owner key => exact persist_keeps hi env ownerId c owner hplace
    | bridge key => exact hplace
  cases he : s.stored (.database ownerId c.idempotencyKey) with
  | none =>
    rw [oneIntent_new he]
    simp only [Distinguishes, he]
    exact ⟨fun _ e hmem => absurd hmem (Option.not_mem_none e), fun _ => hkeeps⟩
  | some e =>
    have hstep : s.step (.persist env ownerId c) = s := by
      rcases step_persist s env ownerId c with hsame | ⟨hnew, _⟩
      · exact hsame
      · rw [hnew] at he
        cases he
    rw [oneIntent_stored he hstep, accepts_persist he]
    simp only [Distinguishes, he, Persisted, Label.command]
    cases Table.get? s.db.commands c.id ownerId with
    | some row => simp
    | none =>
      have hcompares := @compares_iff (e.SamePostcondition c) True e c (by simp) fun _ => trivial
      simpa using hcompares

theorem oneIntent_iff (hi : s.Inv) (l : Label) :
    s.OneIntent l ↔ s.Distinguishes l ∧ s.NewIds l := by
  cases l with
  | put c => exact put_iff hi c
  | persist env ownerId c => exact (persist_iff hi env ownerId c).trans (and_iff_left trivial).symm
  | enqueue c a => exact enqueue_iff hi c a

theorem Inv.step (hi : s.Inv) {l : Label} (hids : s.NewIds l) : (s.step l).Inv := by
  cases l with
  | put c => exact hi.put hids
  | persist env ownerId c => exact hi.persist env ownerId c
  | enqueue c a => exact hi.enqueue hids

/-! ## Runs -/

/-- **One key means one intent exactly where the gates can tell**: along a run of submissions every
stored key is accepted for the intent it is stored with and for no other, and stored commands stay,
exactly if every submission that agrees with the stored command in what its gate compares agrees with
it in account, action and targets too, and every new key brings a new id. -/
theorem one_intent_iff (ls : List Label) :
    Along step OneIntent start ls ↔
      Along step (fun s l => s.Distinguishes l ∧ s.NewIds l) start ls :=
  along_iff_of_inv (fun _ _ hi hg => hi.step hg.2) (fun _ l hi => oneIntent_iff hi l) inv_start

end Gates

/-- An intent to leave a position of an account. -/
def exitIntent (id : Nat) (account : Nat) (action : ExecutionAction) : ExecutionCommand where
  id := ⟨id⟩
  accountId := ⟨account⟩
  action
  idempotencyKey := "exit-0001"
  requestedPostcondition := .ofList [("quantity", .str "1")]

/-- **Intents are conflated**: the ledger takes the full exit of account 2 for the one of account 1. -/
theorem foreign_exit_conflated :
    ¬Along Gates.step Gates.OneIntent Gates.start [
      .put (exitIntent 30 1 .fullExit), .put (exitIntent 31 2 .fullExit)] := by
  have hput : (Gates.start.step (.put (exitIntent 30 1 .fullExit))).stored
      (.ledger "exit-0001") = some (exitIntent 30 1 .fullExit) := rfl
  intro h
  have hintent := (h.2.1.1 _ hput).1 (by decide)
  exact absurd hintent.1.1 (by decide)

end Matrades

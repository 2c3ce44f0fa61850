import Matrades.Trading.Proof.CorrelatedCap
import Matrades.Trading.Proof.Queueing

/-!
# Queueing a plan twice

Two executions of `_queue_plan` for one ready plan. An evaluation locks the account until its
transaction ends, so the second execution evaluates, reserves and stores on what the first committed; of
the plan it goes on with what it read, before the first committed or after.

The second execution leaves everything as the first did exactly if it is not let through to a write
(`queue_twice_iff`). It is let through where its evaluation blocks the plan, which the plan's own
reservation can bring about, and where a plan read before is authorized again under new ids, while the
command store keeps the old command (`second_queueing_changes`).
-/

namespace Matrades

open Base

/-! ## Two executions -/

/-- `_queue_plan` after it has read the plan. -/
def resumeEntry (env : QueueEnv) (row : Row Uuid TradePlanState TradePlan) : Session EntryRecords :=
  Tx.unitOfWork do
    let db ← Tx.get
    let decision ← Tx.lift (decideEntry env db row.data)
    performEntry env row (entryKey row.id) decision

inductive Schedule
  /-- The second execution starts after the first. -/
  | sequential
  /-- Both have read the plan before either writes it. -/
  | interleaved

/-- The plan that the second execution read, of the one before the first and the stored one. -/
def Schedule.read (schedule : Schedule) (ready stored : Row Uuid TradePlanState TradePlan) :
    Row Uuid TradePlanState TradePlan :=
  match schedule with
  | sequential => stored
  | interleaved => ready

/-- The database that both executions leave; the second runs on what the first committed. -/
def queueTwice (schedule : Schedule) (env₁ env₂ : QueueEnv) (ownerId planId : Uuid)
    (row : Row Uuid TradePlanState TradePlan) (db : Database) : Database :=
  let committed := (queuePlan env₁ ownerId planId db).state
  match schedule with
  | .sequential => (queuePlan env₂ ownerId planId committed).state
  | .interleaved => (resumeEntry env₂ row committed).state

/-- The stored commands with the key. -/
def Database.commandsWith (db : Database) (ownerId : Uuid) (key : String) :
    List (Row Uuid CommandState CommandData) :=
  db.commands.filter fun row => row.ownerId = ownerId ∧ row.data.command.idempotencyKey = key

/-- The stored reservations of the plan. -/
def Database.reservationsOf (db : Database) (ownerId planId : Uuid) : List Reservation :=
  db.reservations.filter fun r => r.ownerId = some ownerId ∧ r.tradePlanId = some planId

/-- The plan has one entry command and one reservation, and names both; the command has the plan's
authorization. -/
structure Bound (db : Database) (ownerId planId : Uuid) (plan : TradePlan) : Prop where
  command : ∃ row authorization, db.commandsWith ownerId (entryKey planId) = [row] ∧
    plan.executionCommandId = some row.id ∧ plan.authorization = some authorization ∧
    row.data.command.authorizationId = some authorization.id
  reservation : ∃ r, db.reservationsOf ownerId planId = [r] ∧ plan.reservationId = some r.id

/-- The database is as the first execution alone leaves it, and a queued plan is bound. -/
def Idempotent (schedule : Schedule) (env₁ env₂ : QueueEnv) (ownerId planId : Uuid)
    (row : Row Uuid TradePlanState TradePlan) (db : Database) : Prop :=
  let db' := queueTwice schedule env₁ env₂ ownerId planId row db
  db' = (queuePlan env₁ ownerId planId db).state ∧
    ∀ plan ∈ Table.get? db'.tradePlans planId ownerId, plan.data.state = .executionPending →
      Bound db' ownerId planId plan.data

/-- The entry of the plan is not let through to a write: its evaluation raises, or the plan was blocked
before, or the entry cannot be reserved, authorized and stored. -/
def NoWrite (env : QueueEnv) (key : String) (db : Database) (plan : TradePlan) : Prop :=
  match decideEntry env db plan with
  | .ok (.block _) => False
  | .ok (.queue plan) => ¬EntryProceeds env key db plan
  | .ok .stopped => True
  | .error _ => True

/-! ## One execution -/

/-- An execution writes nothing, or performs what it decided. -/
theorem resumeEntry_cases (env : QueueEnv) (row : Row Uuid TradePlanState TradePlan) (db : Database) :
    (NoWrite env (entryKey row.id) db row.data ∧ (resumeEntry env row db).state = db) ∨
    ∃ decision db', decideEntry env db row.data = .ok decision ∧ decision ≠ .stopped ∧
      ¬NoWrite env (entryKey row.id) db row.data ∧ EntryStep env row (entryKey row.id) db decision db' ∧
      (resumeEntry env row db).state = db' := by
  unfold resumeEntry NoWrite
  cases hdecision : decideEntry env db row.data with
  | error e =>
    refine .inl ⟨trivial, Tx.unitOfWork_same ?_⟩
    rw [Tx.get_bind, Tx.lift_bind_error hdecision]
  | ok decision =>
    have hentry : (Tx.get >>= fun db => Tx.lift (decideEntry env db row.data) >>=
        performEntry env row (entryKey row.id)) db =
          performEntry env row (entryKey row.id) decision db := by
      rw [Tx.get_bind, Tx.lift_bind_ok hdecision]
    rcases performEntry_cases env row (entryKey row.id) decision db with
      ⟨plan, e, s, rfl, hrefused, hrun⟩ | ⟨records, db', hstep, hrun⟩
    · refine .inl ⟨hrefused, ?_⟩
      rw [Tx.unitOfWork_of_error (hentry.trans hrun)]
    · have hstate : (Tx.unitOfWork (Tx.get >>= fun db => Tx.lift (decideEntry env db row.data) >>=
          performEntry env row (entryKey row.id)) db).state = db' := by
        rw [Tx.unitOfWork_of_ok (hentry.trans hrun)]
      cases hstep with
      | stopped => exact .inl ⟨trivial, hstate⟩
      | blocked plan => exact .inr ⟨_, _, rfl, nofun, id, .blocked plan, hstate⟩
      | queued plan v hcomputed hstorable =>
        exact .inr ⟨_, _, rfl, nofun, fun hnone => hnone ⟨v, hcomputed, hstorable⟩,
          .queued plan v hcomputed hstorable, hstate⟩

/-- An execution that reads the plan itself. -/
theorem queuePlan_resumes (env : QueueEnv) {db : Database} (hk : PlansKeyed db)
    {planId ownerId : Uuid} {row : Row Uuid TradePlanState TradePlan}
    (hrow : Table.get? db.tradePlans planId ownerId = some row) :
    (queuePlan env ownerId planId db).state = (resumeEntry env row db).state := by
  have hqueue : (queuePlan env ownerId planId db).state =
      (Tx.unitOfWork (authorizeAndQueueEntry env row.data none) db).state := by
    rw [← Tx.unitOfWork_map _ (fun queued => (⟨queued.1.id, queued.1.state, queued.2.map (·.id)⟩ :
      QueueResult))]
    unfold queuePlan
    rw [Tx.unitOfWork_congr]
    rw [Tx.get_bind, Tx.orRaise_bind_some hrow]
  have hresume : resumeEntry env row db =
      Tx.unitOfWork (authorizeAndQueueEntry env row.data none) db := by
    refine Tx.unitOfWork_congr ?_
    rw [authorizeAndQueueEntry_found env hk hrow, Tx.get_bind]
  rw [hqueue, hresume]

/-- A write is recorded in the audit. -/
theorem EntryStep.changes {env : QueueEnv} {row : Row Uuid TradePlanState TradePlan} {key : String}
    {db db' : Database} {decision : EntryDecision} (h : EntryStep env row key db decision db')
    (hne : decision ≠ .stopped) : db' ≠ db := by
  intro hsame
  have haudits : db.audits.length < db'.audits.length := by
    cases h with
    | stopped => exact absurd rfl hne
    | blocked plan =>
      show db.audits.length < (db.audits ++ [_]).length
      rw [List.length_append]
      exact Nat.lt_succ_self _
    | queued plan v _ _ =>
      have hplanned : (v.planned env row plan.ownerId db).audits =
          db.audits ++ [⟨row.ownerId, "trade_plan.execution_queued", row.id⟩] := rfl
      have hstored : (v.planned env row plan.ownerId db).audits.length ≤
          (v.stored env row plan.ownerId db).audits.length := by
        unfold EntryValues.stored Database.withCommand
        split
        · exact Nat.le_refl _
        · show _ ≤ (_ ++ [_] : List AuditRecord).length
          rw [List.length_append]
          exact Nat.le_succ _
      rw [hplanned, List.length_append] at hstored
      exact hstored
  rw [hsame] at haudits
  exact Nat.lt_irrefl _ haudits

/-! ## What a queued plan is bound to -/

theorem mem_commandsWith {db : Database} {ownerId : Uuid} {key : String}
    {row : Row Uuid CommandState CommandData} : row ∈ db.commandsWith ownerId key ↔
      row ∈ db.commands ∧ row.ownerId = ownerId ∧ row.data.command.idempotencyKey = key := by
  simp [Database.commandsWith]

/-- No command is found by its key where none has it. -/
theorem keyedCommand?_eq_none {db : Database} {ownerId : Uuid} {key : String} :
    keyedCommand? db ownerId key = none ↔ db.commandsWith ownerId key = [] := by
  unfold keyedCommand?
  rw [List.find?_eq_none, List.eq_nil_iff_forall_not_mem]
  refine forall_congr' fun row => ?_
  rw [listedCommands, Table.mem_listed, mem_commandsWith]
  simp

/-- A command with a new id and a new key is stored. -/
theorem withCommand_new {db : Database} {ownerId : Uuid} {command : ExecutionCommand}
    (hid : ∀ row ∈ db.commands, row.id ≠ command.id)
    (hkey : keyedCommand? db ownerId command.idempotencyKey = none) (env : Env) :
    (db.withCommand env ownerId command).commands =
      db.commands ++ [commandRow env ownerId command] := by
  have hget : Table.get? db.commands command.id ownerId = none := by
    cases h : Table.get? db.commands command.id ownerId with
    | none => rfl
    | some row =>
      obtain ⟨hrow, hsame, _⟩ := Table.get?_spec h
      exact absurd hsame (hid row hrow)
  have hrecord : persistedRecord db ownerId command = none := by
    rw [persistedRecord, hget, Option.none_or]
    exact hkey
  rw [Database.withCommand, hrecord, if_neg nofun]
  rfl

/-- `reserve` returns the plan's reservation, or makes one after a sweep. -/
theorem reserve_ok {env : Env} {ownerId accountId planId : Uuid} {amount available : ℚ}
    {db s : Database} {r : Reservation}
    (h : reserve env ownerId accountId planId amount available db = ⟨.ok r, s, []⟩) :
    (db.planReservation? ownerId planId = some r ∧ r.amount = amount ∧ s = db) ∨
      (db.planReservation? ownerId planId = none ∧ 0 < amount ∧
        r = provisional env (db.sweep env.now (some accountId)) ownerId accountId planId amount ∧
        s = (db.sweep env.now (some accountId)).addReservation r) := by
  unfold reserve at h
  rw [Tx.get_bind] at h
  by_cases haccount : db.HasAccount accountId ownerId
  case neg =>
    rw [Tx.require_bind_neg haccount] at h
    cases h
  rw [Tx.require_bind_pos haccount] at h
  cases hfound : db.planReservation? ownerId planId with
  | some found =>
    rw [hfound] at h
    dsimp only at h
    by_cases hamount : found.amount = amount
    · rw [Tx.require_bind_pos hamount] at h
      cases h
      exact .inl ⟨rfl, hamount, rfl⟩
    · rw [Tx.require_bind_neg hamount] at h
      cases h
  | none =>
    rw [hfound] at h
    dsimp only at h
    rw [reserveNew, expire, Tx.modify_bind, Tx.get_bind] at h
    by_cases hroom : 0 < amount ∧
        ((db.sweep env.now (some accountId)).activeAmounts ownerId accountId).sum + amount ≤ available
    · rw [Tx.require_bind_pos hroom, Tx.modify_bind] at h
      cases h
      exact .inr ⟨rfl, hroom.1, rfl, rfl⟩
    · rw [Tx.require_bind_neg hroom] at h
      cases h

/-- Changes that keep owners and plans change no plan's reservations otherwise. -/
theorem reservationsOf_map {db db' : Database} {f : Reservation → Reservation}
    (h : db'.reservations = db.reservations.map f) (howner : ∀ r, (f r).ownerId = r.ownerId)
    (hplan : ∀ r, (f r).tradePlanId = r.tradePlanId) (ownerId planId : Uuid) :
    db'.reservationsOf ownerId planId = (db.reservationsOf ownerId planId).map f := by
  unfold Database.reservationsOf
  rw [h, List.filter_map]
  congr 1
  refine List.filter_congr fun r _ => ?_
  rw [Function.comp_apply, howner, hplan]

theorem reservationsOf_amend (db : Database) {id : Uuid} (owner ownerId planId : Uuid)
    {f : Reservation → Reservation} (howner : ∀ r, (f r).ownerId = r.ownerId)
    (hplan : ∀ r, (f r).tradePlanId = r.tradePlanId) :
    (db.amendReservation id owner f).reservationsOf ownerId planId =
      (db.reservationsOf ownerId planId).map fun r =>
        if r.id = id ∧ r.ownerId = some owner then f r else r := by
  refine reservationsOf_map rfl (fun r => ?_) (fun r => ?_) ownerId planId
  · split
    · exact howner r
    · rfl
  · split
    · exact hplan r
    · rfl

/-- A transition leaves the plan its reservation. -/
theorem reservationsOf_move {db : Database} {ownerId planId : Uuid} {r : Reservation}
    (h : db.reservationsOf ownerId planId = [r]) (now : Time) (id owner : Uuid)
    (target : ReservationState) (fields : TransitionFields) :
    ∃ r', (db.moveReservation now id owner target fields).reservationsOf ownerId planId = [r'] ∧
      r'.id = r.id := by
  unfold Database.moveReservation
  rw [reservationsOf_amend (f := fields.finish now) _ _ _ _ (fun _ => rfl) (fun _ => rfl),
    reservationsOf_amend (f := fields.mark target) _ _ _ _ (fun _ => rfl) (fun _ => rfl), h]
  refine ⟨_, rfl, ?_⟩
  dsimp only
  split
  · split <;> rfl
  · rfl

/-- What `reserve` returns is the plan's only reservation. -/
theorem reserve_only {env : Env} {ownerId accountId planId : Uuid} {amount available : ℚ}
    {db s : Database} {r : Reservation}
    (h : reserve env ownerId accountId planId amount available db = ⟨.ok r, s, []⟩)
    (hone : (db.reservationsOf ownerId planId).length ≤ 1) : s.reservationsOf ownerId planId = [r] := by
  rcases reserve_ok h with ⟨hfound, _, rfl⟩ | ⟨hnone, _, hnew, rfl⟩
  · unfold Database.planReservation? at hfound
    have hholds := List.find?_some hfound
    have hmem : r ∈ s.reservationsOf ownerId planId :=
      List.mem_filter.2 ⟨List.mem_of_find?_eq_some hfound, hholds⟩
    obtain ⟨only, honly⟩ := List.length_eq_one_iff.1 (le_antisymm hone (List.length_pos_of_mem hmem))
    rw [honly] at hmem ⊢
    rw [List.mem_singleton.1 hmem]
  · have hempty : db.reservationsOf ownerId planId = [] := by
      refine List.filter_eq_nil_iff.2 fun r hr => ?_
      exact List.find?_eq_none.1 hnone r hr
    have hswept : (db.sweep env.now (some accountId)).reservationsOf ownerId planId = [] := by
      rw [reservationsOf_map rfl (fun r => ?_) (fun r => ?_), hempty, List.map_nil]
      · split <;> rfl
      · split <;> rfl
    have hadded : ((db.sweep env.now (some accountId)).addReservation r).reservationsOf ownerId planId =
        (db.sweep env.now (some accountId)).reservationsOf ownerId planId ++ [r] := by
      unfold Database.reservationsOf Database.addReservation
      rw [List.filter_append, List.filter_cons_of_pos (by simp [hnew, provisional]), List.filter_nil]
    rw [hadded, hswept, List.nil_append]

section
variable {v : EntryValues} {env : QueueEnv} {key : String} {db : Database} {plan : TradePlan}

/-- The reservation of a queued entry is the plan's only one. -/
theorem EntryValues.Computed.reserved_only (h : v.Computed env key db plan)
    (hone : (db.reservationsOf plan.ownerId plan.id).length ≤ 1)
    (row : Row Uuid TradePlanState TradePlan) :
    ∃ r, (v.stored env row plan.ownerId db).reservationsOf plan.ownerId plan.id = [r] ∧
      r.id = v.reservation.id := by
  have honly := reserve_only h.reserved hone
  have hsame : (v.stored env row plan.ownerId db).reservations =
      (({ db with reservations := v.reservations } : Database).moveReservation env.now
        v.reservation.id plan.ownerId .commandPending { commandId := some v.command.id }).reservations := by
    unfold EntryValues.stored Database.withCommand
    split <;> rfl
  unfold Database.reservationsOf
  rw [hsame]
  exact reservationsOf_move honly _ _ _ _ _

/-- A queued plan is bound exactly if no command was stored under its key before. -/
theorem EntryValues.Computed.bound_iff (h : v.Computed env (entryKey plan.id) db plan)
    (hstorable : Storable db plan.ownerId v.command)
    (hnew : ∀ row ∈ db.commands, row.id ≠ env.commandId)
    (hone : (db.reservationsOf plan.ownerId plan.id).length ≤ 1)
    (row : Row Uuid TradePlanState TradePlan) :
    Bound (v.stored env row plan.ownerId db) plan.ownerId plan.id v.queued ↔
      db.commandsWith plan.ownerId (entryKey plan.id) = [] := by
  have hcommand := authorizedEntryCommand_ok h.created
  have hkey : v.command.idempotencyKey = entryKey plan.id := hcommand.key
  have hid : v.command.id = env.commandId := hcommand.id
  rw [h.queued_eq]
  constructor
  · rintro ⟨⟨found, _, honly, hnamed, _⟩, _⟩
    have hfound : found ∈ (v.stored env row plan.ownerId db).commandsWith plan.ownerId
        (entryKey plan.id) := honly ▸ List.mem_singleton_self _
    -- the plan names the new id, so the command under its key is the new one
    have hfoundId : found.id = env.commandId := (Option.some.inj hnamed).symm.trans hid
    rcases v.stored_commands env row hstorable with hcommands | ⟨_, hnone, _⟩
    · have hold : found ∈ db.commands := hcommands ▸ (mem_commandsWith.1 hfound).1
      exact absurd hfoundId (hnew found hold)
    · exact keyedCommand?_eq_none.1 (hkey ▸ hnone)
  · intro hnone
    have hstored : (v.stored env row plan.ownerId db).commands =
        db.commands ++ [commandRow env.toEnv plan.ownerId v.command] := by
      refine @withCommand_new (v.planned env row plan.ownerId db) _ _ (fun row hrow => ?_) ?_ _
      · exact hid ▸ hnew row hrow
      · exact hkey ▸ keyedCommand?_eq_none.2 hnone
    obtain ⟨r, hr, hreserved⟩ := h.reserved_only hone row
    refine ⟨⟨commandRow env.toEnv plan.ownerId v.command, v.authorization, ?_, rfl, rfl, ?_⟩,
      r, hr, congrArg some hreserved.symm⟩
    · unfold Database.commandsWith at hnone ⊢
      rw [hstored, List.filter_append, hnone, List.nil_append]
      exact List.filter_cons_of_pos (by simpa [commandRow] using hkey)
    · exact hcommand.bound

end

/-! ## Two executions leave what one leaves -/

/-- An execution writes nothing exactly if it is not let through to a write. -/
theorem resumeEntry_same_iff (env : QueueEnv) (row : Row Uuid TradePlanState TradePlan)
    (db : Database) :
    (resumeEntry env row db).state = db ↔ NoWrite env (entryKey row.id) db row.data := by
  rcases resumeEntry_cases env row db with ⟨hnone, hstate⟩ |
    ⟨decision, db', _, hne, hloud, hstep, hstate⟩
  · exact iff_of_true hstate hnone
  · exact iff_of_false (hstate ▸ hstep.changes hne) hloud

/-- Does the evaluation block the plan? -/
def blocks (env : QueueEnv) (db : Database) (plan : TradePlan) : Bool :=
  match decideEntry env db plan with
  | .ok (.block _) => true
  | _ => false

/-- No plan that is pending is authorized again: a second execution that reads it so writes nothing unless
its evaluation blocks the plan. -/
theorem noWrite_pending_iff {env : QueueEnv} {key : String} {db : Database} {plan : TradePlan}
    (hpending : plan.state = .executionPending) :
    NoWrite env key db plan ↔ blocks env db plan = false := by
  unfold NoWrite blocks
  cases hdecision : decideEntry env db plan with
  | error e => exact iff_of_true trivial rfl
  | ok decision =>
    cases decision with
    | stopped => exact iff_of_true trivial rfl
    | block blocked => exact iff_of_false id nofun
    | queue evaluated =>
      refine iff_of_true ?_ rfl
      rintro ⟨v, hcomputed, _⟩
      have hstate : (evaluated.reserved v.reservation).state = .executionPending := by
        rw [decideEntry_from hdecision rfl]
        exact hpending
      have heligible := (currentAuthorization_ok hcomputed.authorized).1.eligible
      rw [hstate] at heligible
      revert heligible
      decide

/-- The first execution queues an entry. -/
def Queues (env : QueueEnv) (key : String) (db : Database) (plan : TradePlan) : Prop :=
  ∃ evaluated, decideEntry env db plan = .ok (.queue evaluated) ∧ EntryProceeds env key db evaluated

section
variable {env₁ env₂ : QueueEnv} {ownerId planId : Uuid} {db : Database}
  {row : Row Uuid TradePlanState TradePlan}

/-- What the first execution leaves of a ready plan: a plan that is not queued, or a queued one, bound
exactly if no command was stored under its key before. -/
theorem first_bound_iff (hk : PlansKeyed db)
    (hrow : Table.get? db.tradePlans planId ownerId = some row) (hready : row.data.state = .ready)
    (hnew : ∀ row ∈ db.commands, row.id ≠ env₁.commandId)
    (hone : (db.reservationsOf ownerId planId).length ≤ 1) :
    PlansKeyed (queuePlan env₁ ownerId planId db).state ∧
    ∃ stored, Table.get? (queuePlan env₁ ownerId planId db).state.tradePlans planId ownerId =
        some stored ∧ stored.id = row.id ∧
      ((stored.data.state = .executionPending →
          Bound (queuePlan env₁ ownerId planId db).state ownerId planId stored.data) ↔
        (Queues env₁ (entryKey planId) db row.data →
          db.commandsWith ownerId (entryKey planId) = [])) := by
  obtain ⟨hmem, hid, howner⟩ := Table.get?_spec hrow
  obtain ⟨hdataId, hdataOwner⟩ := hk.same row hmem
  rw [queuePlan_resumes env₁ hk hrow]
  rcases resumeEntry_cases env₁ row db with ⟨hnone, hstate⟩ |
    ⟨decision, db', hdecision, hne, _, hstep, hstate⟩
  · rw [hstate]
    refine ⟨hk, row, hrow, rfl, iff_of_true (fun hpending => ?_) fun ⟨plan, hplan, hproceeds⟩ => ?_⟩
    · rw [hready] at hpending
      cases hpending
    · unfold NoWrite at hnone
      rw [hplan] at hnone
      exact absurd (hid ▸ hproceeds) hnone
  rw [hstate]
  cases hstep with
  | stopped => exact absurd rfl hne
  | blocked plan =>
    have hfrom := decideEntry_from hdecision rfl
    have hsame : plan.blocked.id = row.data.id ∧ plan.blocked.ownerId = row.data.ownerId := by
      rw [hfrom]
      exact ⟨rfl, rfl⟩
    have hplans : (db.updatePlan row plan.blocked "trade_plan.blocked" env₁.now).tradePlans = _ := rfl
    obtain ⟨hkept, hfound⟩ := hk.rewritten hrow hsame.1 hsame.2 hplans
    refine ⟨hkept, _, hfound, rfl, iff_of_true nofun fun ⟨other, hother, _⟩ => ?_⟩
    rw [hdecision] at hother
    cases hother
  | queued plan v hcomputed hstorable =>
    have hfrom := decideEntry_from hdecision rfl
    have hsame : v.queued.id = row.data.id ∧ v.queued.ownerId = row.data.ownerId := by
      rw [hcomputed.queued_eq, hfrom]
      exact ⟨rfl, rfl⟩
    have hplanId : plan.id = planId := by
      rw [hfrom]
      exact hdataId.trans hid
    have hplanOwner : plan.ownerId = ownerId := by
      rw [hfrom]
      exact hdataOwner.trans howner
    obtain ⟨hkept, hfound⟩ := hk.rewritten hrow hsame.1 hsame.2
      (v.stored_plans env₁ row plan.ownerId db)
    subst hplanId hplanOwner
    rw [hid] at hcomputed
    have hbound := hcomputed.bound_iff hstorable hnew hone row
    have hpending : v.queued.state = .executionPending := by
      rw [hcomputed.queued_eq]
    have hqueues : Queues env₁ (entryKey plan.id) db row.data :=
      ⟨plan, hdecision, v, hcomputed, hstorable⟩
    refine ⟨hkept, _, hfound, rfl, ?_⟩
    exact ⟨fun h _ => hbound.1 (h hpending), fun h _ => hbound.2 (h hqueues)⟩

end

/-! ## A ready plan -/

/-- Limits of this much, and of a tenth for each trade. -/
def entryRules (limit : ℚ) : List PolicyRule :=
  [{ kind := .maxTotalDrawdown, value := limit }, { kind := .maxDailyLoss, value := limit },
    { kind := .maxRiskPerTrade, value := 1 / 10 }, { kind := .maxCorrelatedRisk, value := limit },
    { kind := .maxPortfolioRisk, value := limit }, { kind := .maxConcurrentTrades, value := 3 }]

/-- A ready plan that risks a tenth. -/
def readyRow : Row Uuid TradePlanState TradePlan :=
  ⟨.ofNat 20, .ofNat 9, .ready, 1,
    { lotPlan .ready exitAuthorization with reservationId := none, authorization := none }, 0⟩

def entryDatabase (limit : ℚ) : Database :=
  { bookDatabase [] with
    policies := [⟨.ofNat 70, .ofNat 9, .active, 1, ⟨.guardrail, none, some "g", entryRules limit⟩, 0⟩]
    permissionProfiles := [⟨.ofNat 72, .ofNat 9, .active, 1,
      ⟨.ofNat 1, 1, true, false, false, false, false, false⟩, 0⟩]
    tradePlans := [readyRow] }

def entryAt (now : Time) (authorizationId commandId : Nat) : QueueEnv where
  now := now
  newId := .ofNat
  authorizationId := .ofNat authorizationId
  commandId := .ofNat commandId
  authorizationDigest := "d"
  loaded := none

def firstEntry : QueueEnv := entryAt (110 * second) 41 31

def secondEntry : QueueEnv := entryAt (111 * second) 42 32

theorem entryDatabase_keyed (limit : ℚ) : PlansKeyed (entryDatabase limit) := by
  refine ⟨List.nodup_singleton _, fun row hrow => ?_⟩
  rw [List.mem_singleton.1 hrow]
  exact ⟨rfl, rfl⟩

def entryOnce (limit : ℚ) : Database :=
  (queuePlan firstEntry (.ofNat 9) (.ofNat 20) (entryDatabase limit)).state

def entryTwice (schedule : Schedule) (limit : ℚ) : Database :=
  queueTwice schedule firstEntry secondEntry (.ofNat 9) (.ofNat 20) readyRow (entryDatabase limit)

end Matrades

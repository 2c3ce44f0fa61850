import Matrades.Base.Run
import Matrades.Risk.Proof.ReservationLife
import Matrades.Routes.Proof.Ingestion
import Matrades.Worker.Proof.Management

/-!
# At most one submission per command

The tasks of the worker, the ingestion of snapshots and the operations on reservations, one
transaction after another, with every adapter call recorded under the command id of its task. A
command is sealed once none of its rows may be leased; every transaction keeps it so. A dispatch that
calls the adapter seals its command only if what comes after the call commits: exactly the runs
where it always does submit at most once and never make the command leasable again
(`submitted_once_iff`). A reservation that expired before the call makes the task fail after it, and
the redelivered task calls again (`expired_reservation_resubmits`).
-/

namespace Matrades

open Base

structure TaskSystem where
  db : Database
  /-- The adapter calls so far, with the command id of the task. -/
  calls : List (Uuid × BrokerCall)

namespace TaskSystem

inductive Label
  | lease (env : TaskEnv) (ownerId commandId : Uuid)
  | dispatch (env : TaskEnv) (answer : AdapterAnswer) (ownerId commandId : Uuid)
  | ingest (env : Env) (ownerId : Uuid) (snapshot : BrokerSnapshot)
  | reservation (op : ReservationOp)

/-- One transaction, whose calls are recorded under the id. -/
def after {α : Type} (s : TaskSystem) (commandId : Uuid)
    (o : Outcome Database BrokerCall TaskError α) : TaskSystem :=
  ⟨o.state, s.calls ++ o.emitted.map fun call => (commandId, call)⟩

def step (s : TaskSystem) : Label → TaskSystem
  | .lease env ownerId commandId => s.after commandId (leaseTask env ownerId commandId s.db)
  | .dispatch env answer ownerId commandId =>
    s.after commandId (dispatchTask env answer ownerId commandId s.db)
  | .ingest env ownerId snapshot =>
    ⟨(ingestBrokerSnapshot env ownerId snapshot s.db).state, s.calls⟩
  | .reservation op => ⟨ReservationOp.step s.db op, s.calls⟩

/-- How often the adapter was called for the command. -/
def callsOf (s : TaskSystem) (commandId : Uuid) : Nat := (s.calls.map Prod.fst).count commandId

end TaskSystem

/-- No row of the command may be leased. -/
def Sealed (db : Database) (commandId : Uuid) : Prop :=
  ∀ row ∈ db.commands, row.id = commandId → row.state ∉ leasableStates

/-- The adapter was called at most once for the command, and after a call it is sealed. -/
structure SubmittedOnce (commandId : Uuid) (s : TaskSystem) : Prop where
  once : s.callsOf commandId ≤ 1
  closed : 0 < s.callsOf commandId → Sealed s.db commandId

/-- If the step is a dispatch of the command that calls the adapter, what follows the call goes
through: the worker lives, meets no fault, and a reservation it has to move is there and active. -/
def Recorded (commandId : Uuid) (s : TaskSystem) : TaskSystem.Label → Prop
  | .dispatch env answer ownerId id => id = commandId → ∀ row plan authorization,
      Dispatchable env s.db ownerId id row plan authorization →
        ∃ state ∈ answer.reported, Settles env s.db ownerId plan.data state
  | _ => True

/-! ## Sealed commands stay sealed -/

theorem sealed_of_commands {db db' : Database} {commandId : Uuid} (h : db'.commands = db.commands)
    (hs : Sealed db commandId) : Sealed db' commandId := by
  unfold Sealed
  rw [h]
  exact hs

theorem sealed_update {db : Database} {commandId : Uuid} {row : Row Uuid CommandState CommandData}
    {data : CommandData} {state : CommandState} {eventType : String} {now : Time}
    (hstate : state ∉ leasableStates) (hs : Sealed db commandId) :
    Sealed (db.updateCommand row data state eventType now) commandId := by
  intro r hr hid
  rcases Table.mem_revise hr with ⟨hr, _⟩ | ⟨_, hnew, _⟩
  · exact hs r hr hid
  · rw [hnew]
    exact hstate

/-- An update into another state seals. -/
theorem sealed_by_update (db : Database) {row : Row Uuid CommandState CommandData}
    {data : CommandData} {state : CommandState} {eventType : String} {now : Time}
    (hstate : state ∉ leasableStates) :
    Sealed (db.updateCommand row data state eventType now) row.id := by
  intro r hr hid
  rcases Table.mem_revise hr with ⟨_, hne⟩ | ⟨_, hnew, _⟩
  · exact absurd hid hne
  · rw [hnew]
    exact hstate

theorem not_leasable_of_ingested {state : CommandState} (h : state ∈ ingestedStates) :
    state ∉ leasableStates := by
  simp only [ingestedStates, List.mem_cons, List.not_mem_nil, or_false] at h
  rcases h with rfl | rfl | rfl | rfl | rfl <;> decide

theorem not_leasable_of_reported {answer : AdapterAnswer} {state : CommandState}
    (h : answer.reported = some state) : state ∉ leasableStates := by
  rcases reported_cases h with rfl | rfl | rfl <;> decide

theorem sealed_order (db : Database) (ownerId : Uuid) (snapshot : BrokerSnapshot)
    (commandId : Uuid) : CommandOrder (IngestWrite db ownerId snapshot)
      fun db db' => Sealed db commandId → Sealed db' commandId where
  refl _ := id
  trans h h' hs := h' (h hs)
  frame := sealed_of_commands
  settle _ _ hwrite := sealed_update (not_leasable_of_ingested hwrite.state)

theorem keepsCommands_order :
    CommandOrder (fun _ _ => False) fun db db' => db'.commands = db.commands where
  refl _ := rfl
  trans h h' := h'.trans h
  frame := id
  settle _ _ h := h.elim

/-- The operations on reservations leave the commands alone. -/
theorem reservationStep_commands (db : Database) (op : ReservationOp) :
    (ReservationOp.step db op).commands = db.commands := by
  have hR := keepsCommands_order
  have hO := hR.toStoreOrder
  have hsession : Tx.Within (fun db db' : Database => db'.commands = db.commands) op.session := by
    unfold ReservationOp.session
    cases op with
    | reserve env ownerId accountId tradePlanId amount available =>
      refine Tx.within_bind hO ?_ fun _ => Tx.within_pure hO _
      unfold reserve
      refine Tx.within_bind hO (Tx.within_get hO) fun db => ?_
      refine Tx.within_bind hO (Tx.within_require hO _ _) fun _ => ?_
      split
      · exact Tx.within_bind hO (Tx.within_require hO _ _) fun _ => Tx.within_pure hO _
      · unfold reserveNew expire
        refine Tx.within_bind hO (within_frame hR fun _ => rfl) fun _ => ?_
        refine Tx.within_bind hO (Tx.within_get hO) fun db => ?_
        refine Tx.within_bind hO (Tx.within_require hO _ _) fun _ => ?_
        exact Tx.within_bind hO (within_frame hR fun _ => rfl) fun _ => Tx.within_pure hO _
    | getActive env reservationId ownerId accountId =>
      refine Tx.within_bind hO ?_ fun _ => Tx.within_pure hO _
      unfold getActive expire
      refine Tx.within_bind hO (within_frame hR fun _ => rfl) fun _ => ?_
      exact Tx.within_bind hO (Tx.within_get hO) fun _ => Tx.within_pure hO _
    | transition env reservationId ownerId target fields =>
      exact Tx.within_bind hO (transitionReservation_frame hR _ _ _ _ _) fun _ => Tx.within_pure hO _
    | splitPartialFill env reservationId ownerId filled position remaining =>
      exact Tx.within_bind hO (splitPartialFill_frame hR _ _ _ _ _ _) fun _ => Tx.within_pure hO _
    | expire env accountId => exact within_frame hR fun _ => rfl
  exact (Tx.within_unitOfWork hO hsession db).1

/-- A lease seals, or leaves the database alone. -/
theorem leaseTask_cases (env : TaskEnv) (db : Database) (ownerId commandId : Uuid) :
    (leaseTask env ownerId commandId db).emitted = [] ∧
      ((leaseTask env ownerId commandId db).state = db ∨
        ∃ row ∈ db.commands, (leaseTask env ownerId commandId db).state = db.leaseRow env row) := by
  by_cases hleases : ∃ row, Table.get? db.commands commandId ownerId = some row ∧
      row.state ∈ leasableStates ∧ .lease ∉ env.faults ∧ .commit ∉ env.faults
  · obtain ⟨row, hrow, hstate, hlease, hcommit⟩ := hleases
    rw [leaseTask_leases hrow hstate hlease hcommit]
    exact ⟨rfl, .inr ⟨row, (Table.get?_spec hrow).1, rfl⟩⟩
  · obtain ⟨r, hrun, _⟩ := leaseTask_idle hleases
    rw [hrun]
    exact ⟨rfl, .inl rfl⟩

/-- What a committed dispatch leaves of the commands. -/
theorem settled_commands (db : Database) (env : TaskEnv) (ownerId : Uuid) (ready : Ready)
    (outcome : ExecutionCommand) :
    (db.settled env ownerId ready outcome).commands =
      (db.recordOutcome env ready.row outcome).commands := by
  unfold Database.settled Database.settleReserved
  cases ready.plan.data.reservationId <;> cases reservationMove outcome <;> dsimp only <;>
    split <;> rfl

/-- And of the snapshots. -/
theorem settled_snapshots (db : Database) (env : TaskEnv) (ownerId : Uuid) (ready : Ready)
    (outcome : ExecutionCommand) :
    (db.settled env ownerId ready outcome).brokerSnapshots = db.brokerSnapshots := by
  unfold Database.settled Database.settleReserved
  cases ready.plan.data.reservationId <;> cases reservationMove outcome <;> dsimp only <;>
    split <;> rfl

/-- And of the reservations: the plan's is moved, if the outcome moves it. -/
theorem settled_rows (db : Database) (env : TaskEnv) (ownerId : Uuid) (ready : Ready)
    (outcome : ExecutionCommand) :
    (db.settled env ownerId ready outcome).reservations = db.reservations ∨
      ∃ id ∈ ready.plan.data.reservationId, ∃ move, reservationMove outcome = some move ∧
        (db.settled env ownerId ready outcome).reservations =
          (db.moveReservation env.now id ownerId move.1 move.2).reservations := by
  have hmoved : (db.settled env ownerId ready outcome).reservations =
      ((db.recordOutcome env ready.row outcome).settleReserved env ownerId ready.plan.data
        outcome).reservations := by
    unfold Database.settled
    dsimp only
    split <;> rfl
  rw [hmoved]
  unfold Database.settleReserved
  split
  · rename_i id target fields hid hmove
    exact .inr ⟨id, hid, (target, fields), hmove, rfl⟩
  · exact .inl rfl

/-! ## One transaction -/

theorem callsOf_after {α : Type} (s : TaskSystem) (id commandId : Uuid)
    (o : Outcome Database BrokerCall TaskError α) :
    (s.after id o).callsOf commandId =
      s.callsOf commandId + if id = commandId then o.emitted.length else 0 := by
  have htags : (o.emitted.map fun call => (id, call)).map Prod.fst =
      List.replicate o.emitted.length id := by
    rw [List.map_map]
    exact List.map_const'
  unfold TaskSystem.callsOf TaskSystem.after
  rw [List.map_append, List.count_append, htags, List.count_replicate]
  simp [beq_iff_eq]

/-- A step that calls nobody for the command and unseals nothing. -/
theorem SubmittedOnce.keep {commandId : Uuid} {s s' : TaskSystem} (hs : SubmittedOnce commandId s)
    (hcalls : s'.callsOf commandId = s.callsOf commandId)
    (hsealed : Sealed s.db commandId → Sealed s'.db commandId) : SubmittedOnce commandId s' where
  once := hcalls ▸ hs.once
  closed h := hsealed (hs.closed (hcalls ▸ h))

/-- A dispatch is ready with one row, one plan and one authorization only. -/
theorem Dispatchable.unique {env : TaskEnv} {db : Database} {ownerId commandId : Uuid}
    {row row' : Row Uuid CommandState CommandData} {plan plan' : Row Uuid TradePlanState TradePlan}
    {authorization authorization' : ExecutionAuthorization}
    (h : Dispatchable env db ownerId commandId row plan authorization)
    (h' : Dispatchable env db ownerId commandId row' plan' authorization') :
    row = row' ∧ plan = plan' ∧ authorization = authorization' := by
  obtain rfl : row = row' := Option.some.inj (h.found.symm.trans h'.found)
  have hplanned : (plan, authorization) = (plan', authorization') :=
    Except.ok.inj (h.planned.symm.trans h'.planned)
  exact ⟨rfl, congrArg Prod.fst hplanned, congrArg Prod.snd hplanned⟩

/-- The dispatch of a ready command keeps the command submitted once exactly if it is recorded. -/
theorem submittedOnce_dispatch_iff {s : TaskSystem} {env : TaskEnv} {answer : AdapterAnswer}
    {ownerId commandId : Uuid} {row : Row Uuid CommandState CommandData}
    {plan : Row Uuid TradePlanState TradePlan} {authorization : ExecutionAuthorization}
    (hs : SubmittedOnce commandId s)
    (hready : Dispatchable env s.db ownerId commandId row plan authorization) :
    SubmittedOnce commandId (s.step (.dispatch env answer ownerId commandId)) ↔
      ∃ state ∈ answer.reported, Settles env s.db ownerId plan.data state := by
  obtain ⟨hrow, hid, _⟩ := Table.get?_spec hready.found
  have hopen : ¬Sealed s.db commandId := fun hsealed => hsealed row hrow hid hready.leasable
  have hnone : s.callsOf commandId = 0 := by
    by_contra hcalled
    exact hopen (hs.closed (Nat.pos_of_ne_zero hcalled))
  obtain ⟨hsent, hends⟩ := dispatchTask_sends answer hready
  have hcalls : (s.step (.dispatch env answer ownerId commandId)).callsOf commandId = 1 := by
    rw [TaskSystem.step, callsOf_after, hsent, hnone]
    simp
  rcases hends with ⟨outcome, hfinish, hsettles, hstate⟩ | ⟨hnot, hstate⟩
  · have hreported := finishDispatch_reported hfinish
    refine ⟨fun _ => ⟨outcome.state, hreported, hsettles⟩, fun _ => ⟨hcalls.le, fun _ => ?_⟩⟩
    have hrecorded : Sealed ((s.db.leaseRow env row).recordOutcome env (leasedRow env row) outcome)
        (leasedRow env row).id := sealed_by_update _ (not_leasable_of_reported hreported)
    have hdb : (s.step (.dispatch env answer ownerId commandId)).db =
        (s.db.leaseRow env row).settled env ownerId ⟨leasedRow env row, plan, authorization⟩ outcome :=
      hstate
    rw [hdb, ← hid]
    exact sealed_of_commands (settled_commands _ _ _ _ _) hrecorded
  · have hdb : (s.step (.dispatch env answer ownerId commandId)).db = s.db := hstate
    constructor
    · intro h
      have hsealed := h.closed (by rw [hcalls]; exact Nat.one_pos)
      rw [hdb] at hsealed
      exact absurd hsealed hopen
    · rintro ⟨state, hreported, hsettles⟩
      exact absurd hsettles (hnot state hreported)

/-- The dispatch of another command keeps this one sealed. -/
theorem sealed_dispatch {env : TaskEnv} {answer : AdapterAnswer} {db : Database}
    {ownerId id commandId : Uuid} (h : Sealed db commandId) :
    Sealed (dispatchTask env answer ownerId id db).state commandId := by
  rcases dispatchTask_cases env answer ownerId id db with hstate |
    ⟨row, plan, authorization, outcome, _, hfinish, _, hstate⟩
  · rw [hstate]
    exact h
  · rw [hstate]
    refine sealed_of_commands (settled_commands _ _ _ _ _) (sealed_update ?_ (sealed_update ?_ h))
    · exact not_leasable_of_reported (finishDispatch_reported hfinish)
    · decide

theorem submittedOnce_step_iff {commandId : Uuid} {s : TaskSystem} {l : TaskSystem.Label}
    (hs : SubmittedOnce commandId s) :
    SubmittedOnce commandId (s.step l) ↔ Recorded commandId s l := by
  cases l with
  | lease env ownerId id =>
    refine iff_of_true (hs.keep ?_ fun h => ?_) trivial
    · rw [TaskSystem.step, callsOf_after, (leaseTask_cases env s.db ownerId id).1]
      simp
    · rcases (leaseTask_cases env s.db ownerId id).2 with hstate | ⟨row, _, hstate⟩
      · exact sealed_of_commands (congrArg Database.commands hstate) h
      · exact sealed_of_commands (congrArg Database.commands hstate) (sealed_update (by decide) h)
  | dispatch env answer ownerId id =>
    by_cases hid : id = commandId
    case neg =>
      refine iff_of_true (hs.keep ?_ sealed_dispatch) fun h => absurd h hid
      rw [TaskSystem.step, callsOf_after, if_neg hid]
      rfl
    subst hid
    by_cases hready : ∃ row plan authorization,
        Dispatchable env s.db ownerId id row plan authorization
    · obtain ⟨row, plan, authorization, hready⟩ := hready
      rw [submittedOnce_dispatch_iff hs hready]
      constructor
      · rintro hsettles _ row' plan' authorization' hready'
        obtain ⟨rfl, rfl, rfl⟩ := hready.unique hready'
        exact hsettles
      · intro h
        exact h rfl row plan authorization hready
    · refine iff_of_true (hs.keep ?_ sealed_dispatch) fun _ row plan authorization hd =>
        absurd ⟨row, plan, authorization, hd⟩ hready
      rw [TaskSystem.step, callsOf_after, (dispatchTask_unready answer hready).1]
      simp
  | ingest env ownerId snapshot =>
    exact iff_of_true (hs.keep rfl
      (ingest_within (sealed_order s.db ownerId snapshot commandId) env).1) trivial
  | reservation op =>
    exact iff_of_true (hs.keep rfl (sealed_of_commands (reservationStep_commands s.db op))) trivial

/-! ## Runs -/

/-- **When a command is submitted at most once**: over any run of tasks, ingestions and reservation
operations, exactly if every dispatch of it that calls the adapter is recorded. -/
theorem submitted_once_iff (db : Database) (commandId : Uuid) (ls : List TaskSystem.Label) :
    States TaskSystem.step (SubmittedOnce commandId) ⟨db, []⟩ ls ↔
      Along TaskSystem.step (Recorded commandId) ⟨db, []⟩ ls :=
  states_iff_along (fun _ _ hs _ => submittedOnce_step_iff hs) ⟨by simp [TaskSystem.callsOf], nofun⟩
    (along_of_forall (P := fun _ _ => True) (fun _ _ => trivial) _ _)

/-! ## A reservation that expired before the call -/

def lotEntryAuthorization : ExecutionAuthorization :=
  ⟨.ofNat 40, .ofNat 1, .placeOrder, 1, 0, 0, "d", 150 * second⟩

/-- The plan of the entry, queued for execution. -/
def pendingPlan : TradePlan := lotPlan .executionPending lotEntryAuthorization

/-- The queued entry. -/
def lotEntry : ExecutionCommand where
  id := .ofNat 30
  accountId := .ofNat 1
  action := .placeOrder
  tradePlanId := some (.ofNat 20)
  authorizationId := some (.ofNat 40)
  idempotencyKey := "entry:20"
  requestedPostcondition := entryPostcondition pendingPlan
  state := .queued

/-- The entry's reservation lives until second 105. -/
def lotEntryDatabase : Database :=
  lotDatabase pendingPlan lotEntry { lotReservation .commandPending with expiresAt := 105 * second }

/-- A sweep in second 106, then the task and its redelivery; the bridge takes the command. -/
def expiredReservation : List TaskSystem.Label := [
  .reservation (.expire ⟨106 * second, .ofNat⟩ (some (.ofNat 1))),
  .dispatch lotEnv (.responds {}) (.ofNat 9) (.ofNat 30),
  .dispatch lotEnv (.responds {}) (.ofNat 9) (.ofNat 30)]

/-- **A command can be submitted twice**: the transition of the expired reservation raises after the
call, the transaction is rolled back, and the command is queued as before. -/
theorem expired_reservation_resubmits :
    (run TaskSystem.step ⟨lotEntryDatabase, []⟩ (expiredReservation.take 2)).db.commands.map (·.state) =
        [.queued] ∧
      (run TaskSystem.step ⟨lotEntryDatabase, []⟩ expiredReservation).callsOf (.ofNat 30) = 2 ∧
      ¬States TaskSystem.step (SubmittedOnce (.ofNat 30)) ⟨lotEntryDatabase, []⟩ expiredReservation := by
  have htwice : (run TaskSystem.step ⟨lotEntryDatabase, []⟩ expiredReservation).callsOf (.ofNat 30) =
      2 := by decide +kernel
  refine ⟨by decide +kernel, htwice, fun h => ?_⟩
  have hlast := h.last.once
  rw [htwice] at hlast
  exact absurd hlast (by decide)

end Matrades

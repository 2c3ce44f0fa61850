import Matrades.Worker.Execution

/-!
# What a dispatch does

A dispatch either finds its command ready (`Dispatchable`, a condition on the database before it) or
leaves the database alone and calls nobody. A ready command is sent once. What happens after the
call is decided by the adapter's answer, the plan's reservation and the faults (`Settles`): where all
is well the outcome is recorded, otherwise the transaction takes everything back but the call.
-/

namespace Matrades

open Base

/-! ## Which dispatches send -/

/-- The dispatch reaches the adapter with this row, plan and authorization. -/
structure Dispatchable (env : TaskEnv) (db : Database) (ownerId commandId : Uuid)
    (row : Row Uuid CommandState CommandData) (plan : Row Uuid TradePlanState TradePlan)
    (authorization : ExecutionAuthorization) : Prop where
  found : Table.get? db.commands commandId ownerId = some row
  leasable : row.state ∈ leasableStates
  planned : dispatchPlan env.now db ownerId row.data.command = .ok (plan, authorization)
  leases : .lease ∉ env.faults
  connected : ∃ connection, bridgeConnection db ownerId = .ok connection

/-- The command as the adapter gets it: leased, with a new attempt. -/
def sentCommand (env : TaskEnv) (row : Row Uuid CommandState CommandData) : ExecutionCommand :=
  let command := (leasedData env row.data).command
  { command with
    attempts := command.attempts ++ [{ attempt := command.attempts.length + 1, state := .dispatching }] }

theorem not_replayed_of_leasable {state : CommandState} (h : state ∈ leasableStates) :
    state ∉ replayedStates := by
  simp only [leasableStates, List.mem_cons, List.not_mem_nil, or_false] at h
  rcases h with rfl | rfl <;> decide

theorem leaseCommand_leases {env : TaskEnv} {db : Database} {ownerId commandId : Uuid}
    {row : Row Uuid CommandState CommandData}
    (hrow : Table.get? db.commands commandId ownerId = some row) (hstate : row.state ∈ leasableStates)
    (hlease : .lease ∉ env.faults) :
    leaseCommand env ownerId commandId db =
      ⟨.ok (some (leasedRow env row)), db.leaseRow env row, []⟩ := by
  rw [leaseCommand, Tx.get_bind]
  simp only [hrow, if_pos hstate, TaskEnv.pass]
  rw [Tx.require_bind_pos hlease, Tx.modify_bind]
  rfl

/-- A lease that is not taken changes nothing. -/
theorem leaseCommand_idle {env : TaskEnv} {db : Database} {ownerId commandId : Uuid}
    (h : ∀ row, Table.get? db.commands commandId ownerId = some row → row.state ∈ leasableStates →
      .lease ∈ env.faults) :
    leaseCommand env ownerId commandId db = ⟨.ok none, db, []⟩ ∨
      leaseCommand env ownerId commandId db = ⟨.error .infrastructure, db, []⟩ := by
  cases hrow : Table.get? db.commands commandId ownerId with
  | none =>
    left
    rw [leaseCommand, Tx.get_bind]
    simp only [hrow, Tx.pure_run]
  | some row =>
    by_cases hstate : row.state ∈ leasableStates
    · right
      have hfault : ¬.lease ∉ env.faults := fun hn => hn (h row hrow hstate)
      rw [leaseCommand, Tx.get_bind]
      simp only [hrow, if_pos hstate, TaskEnv.pass]
      rw [Tx.require_bind_neg hfault]
    · left
      rw [leaseCommand, Tx.get_bind]
      simp only [hrow, if_neg hstate, Tx.pure_run]

/-- A lease that is taken and committed. -/
theorem leaseTask_leases {env : TaskEnv} {db : Database} {ownerId commandId : Uuid}
    {row : Row Uuid CommandState CommandData}
    (hrow : Table.get? db.commands commandId ownerId = some row) (hstate : row.state ∈ leasableStates)
    (hlease : .lease ∉ env.faults) (hcommit : .commit ∉ env.faults) :
    leaseTask env ownerId commandId db = ⟨.ok true, db.leaseRow env row, []⟩ := by
  refine Tx.unitOfWork_of_ok ?_
  rw [Tx.bind_next (leaseCommand_leases hrow hstate hlease), TaskEnv.pass,
    Tx.require_bind_pos hcommit]
  rfl

/-- A lease that is not taken, or not committed. -/
theorem leaseTask_idle {env : TaskEnv} {db : Database} {ownerId commandId : Uuid}
    (h : ¬∃ row, Table.get? db.commands commandId ownerId = some row ∧ row.state ∈ leasableStates ∧
      .lease ∉ env.faults ∧ .commit ∉ env.faults) :
    ∃ r, leaseTask env ownerId commandId db = ⟨r, db, []⟩ ∧ r ≠ .ok true := by
  by_cases hready : ∃ row, Table.get? db.commands commandId ownerId = some row ∧
      row.state ∈ leasableStates ∧ .lease ∉ env.faults
  · obtain ⟨row, hrow, hstate, hlease⟩ := hready
    have hcommit : ¬.commit ∉ env.faults := fun hc => h ⟨row, hrow, hstate, hlease, hc⟩
    refine ⟨.error .infrastructure, Tx.unitOfWork_of_error (r := db.leaseRow env row) ?_, nofun⟩
    rw [Tx.bind_next (leaseCommand_leases hrow hstate hlease), TaskEnv.pass,
      Tx.require_bind_neg hcommit]
  · have hidle : ∀ row, Table.get? db.commands commandId ownerId = some row →
        row.state ∈ leasableStates → .lease ∈ env.faults := by
      intro row hrow hstate
      by_contra hfault
      exact hready ⟨row, hrow, hstate, hfault⟩
    rcases leaseCommand_idle hidle with hlease | hlease
    · by_cases hcommit : .commit ∉ env.faults
      · refine ⟨.ok false, Tx.unitOfWork_of_ok ?_, nofun⟩
        rw [Tx.bind_next hlease, TaskEnv.pass, Tx.require_bind_pos hcommit]
        rfl
      · refine ⟨.error .infrastructure, Tx.unitOfWork_of_error (r := db) ?_, nofun⟩
        rw [Tx.bind_next hlease, TaskEnv.pass, Tx.require_bind_neg hcommit]
    · exact ⟨_, Tx.unitOfWork_of_error (Tx.bind_error hlease), nofun⟩

/-- A command that is not replayed and whose checks pass goes on to its lease. -/
theorem prepareDispatch_planned {env : TaskEnv} {db : Database} {ownerId commandId : Uuid}
    {row : Row Uuid CommandState CommandData} {plan : Row Uuid TradePlanState TradePlan}
    {authorization : ExecutionAuthorization}
    (hrow : Table.get? db.commands commandId ownerId = some row)
    (hfresh : row.state ∉ replayedStates)
    (hplan : dispatchPlan env.now db ownerId row.data.command = .ok (plan, authorization)) :
    prepareDispatch env ownerId commandId db =
      leaseReady env ownerId commandId row.state plan authorization db := by
  rw [prepareDispatch, Tx.get_bind, Tx.orRaise_bind_some hrow, if_neg hfresh,
    Tx.lift_bind_ok hplan]

theorem prepareDispatch_ready {env : TaskEnv} {db : Database} {ownerId commandId : Uuid}
    {row : Row Uuid CommandState CommandData} {plan : Row Uuid TradePlanState TradePlan}
    {authorization : ExecutionAuthorization}
    (h : Dispatchable env db ownerId commandId row plan authorization) :
    prepareDispatch env ownerId commandId db =
      ⟨.ok (.inr ⟨leasedRow env row, plan, authorization⟩), db.leaseRow env row, []⟩ := by
  obtain ⟨connection, hconnection⟩ := h.connected
  have hlease := leaseCommand_leases h.found h.leasable h.leases
  have hconnected : bridgeConnection (db.leaseRow env row) ownerId = .ok connection := hconnection
  rw [prepareDispatch_planned h.found (not_replayed_of_leasable h.leasable) h.planned]
  rw [leaseReady, Tx.bind_next hlease]
  simp only
  rw [Tx.get_bind, Tx.lift_bind_ok hconnected]
  rfl

/-- What a task may do that does not get as far as the call. -/
def EndsEarly {κ : Type} (db : Database)
    (o : Outcome Database BrokerCall TaskError (DispatchResult ⊕ κ)) : Prop :=
  (∃ e s, o = ⟨.error e, s, []⟩) ∨ ∃ r, o = ⟨.ok (.inl r), db, []⟩

theorem leaseReady_idle {env : TaskEnv} {db : Database} {ownerId commandId : Uuid}
    {row : Row Uuid CommandState CommandData} {plan : Row Uuid TradePlanState TradePlan}
    {authorization : ExecutionAuthorization}
    (hrow : Table.get? db.commands commandId ownerId = some row)
    (hplan : dispatchPlan env.now db ownerId row.data.command = .ok (plan, authorization))
    (h : ¬Dispatchable env db ownerId commandId row plan authorization) :
    EndsEarly db (leaseReady env ownerId commandId row.state plan authorization db) := by
  by_cases hleases : row.state ∈ leasableStates ∧ .lease ∉ env.faults
  · have hlease := leaseCommand_leases hrow hleases.1 hleases.2
    cases hconnection : bridgeConnection db ownerId with
    | error e =>
      have hc : bridgeConnection (db.leaseRow env row) ownerId = .error e := hconnection
      refine .inl ⟨e, db.leaseRow env row, ?_⟩
      rw [leaseReady, Tx.bind_next hlease]
      simp only
      rw [Tx.get_bind, Tx.lift_bind_error hc]
    | ok connection =>
      exact absurd ⟨hrow, hleases.1, hplan, hleases.2, connection, hconnection⟩ h
  · have hfault : ∀ row', Table.get? db.commands commandId ownerId = some row' →
        row'.state ∈ leasableStates → .lease ∈ env.faults := by
      intro row' hrow' hstate
      obtain rfl : row = row' := Option.some.inj (hrow.symm.trans hrow')
      by_contra hn
      exact hleases ⟨hstate, hn⟩
    rcases leaseCommand_idle hfault with hidle | hidle
    · exact .inr ⟨.notLeased row.state, by rw [leaseReady, Tx.bind_next hidle]; rfl⟩
    · exact .inl ⟨.infrastructure, db, by rw [leaseReady, Tx.bind_error hidle]⟩

/-- Without a ready command nothing is changed, unless an error takes the change back. -/
theorem prepareDispatch_idle {env : TaskEnv} {db : Database} {ownerId commandId : Uuid}
    (h : ∀ row plan authorization, ¬Dispatchable env db ownerId commandId row plan authorization) :
    EndsEarly db (prepareDispatch env ownerId commandId db) := by
  cases hrow : Table.get? db.commands commandId ownerId with
  | none =>
    exact .inl ⟨_, db, by rw [prepareDispatch, Tx.get_bind, Tx.orRaise_bind_none hrow]⟩
  | some row =>
    by_cases hreplayed : row.state ∈ replayedStates
    · refine .inr ⟨.replayed row.state, ?_⟩
      rw [prepareDispatch, Tx.get_bind, Tx.orRaise_bind_some hrow, if_pos hreplayed]
      rfl
    cases hplan : dispatchPlan env.now db ownerId row.data.command with
    | error e =>
      refine .inl ⟨e, db, ?_⟩
      rw [prepareDispatch, Tx.get_bind, Tx.orRaise_bind_some hrow, if_neg hreplayed,
        Tx.lift_bind_error hplan]
    | ok found =>
      rw [prepareDispatch_planned hrow hreplayed hplan]
      exact leaseReady_idle hrow hplan (h row found.1 found.2)

/-- A dispatch without a ready command does nothing. -/
theorem dispatchTask_idle {env : TaskEnv} {db : Database} {ownerId commandId : Uuid}
    (answer : AdapterAnswer)
    (h : ∀ row plan authorization, ¬Dispatchable env db ownerId commandId row plan authorization) :
    (dispatchTask env answer ownerId commandId db).emitted = [] ∧
      (dispatchTask env answer ownerId commandId db).state = db := by
  unfold dispatchTask
  rcases prepareDispatch_idle h with ⟨e, s, hp⟩ | ⟨r, hp⟩
  · rw [Tx.unitOfWork_of_error (Tx.bind_error hp)]
    exact ⟨rfl, rfl⟩
  · have hrun : (prepareDispatch env ownerId commandId >>= sendReady env answer ownerId) db =
        ⟨.ok r, db, []⟩ := Tx.bind_next hp
    rw [Tx.unitOfWork_of_ok hrun]
    exact ⟨rfl, rfl⟩

/-- A task without a dispatchable command calls nothing and changes nothing. -/
theorem dispatchTask_unready {env : TaskEnv} {db : Database} {ownerId commandId : Uuid}
    (answer : AdapterAnswer)
    (h : ¬∃ row plan authorization, Dispatchable env db ownerId commandId row plan authorization) :
    (dispatchTask env answer ownerId commandId db).emitted = [] ∧
      (dispatchTask env answer ownerId commandId db).state = db :=
  dispatchTask_idle answer fun row plan authorization hd => h ⟨row, plan, authorization, hd⟩

/-- Without a dispatchable command a task that commits has written nothing before the call. -/
theorem prepareDispatch_unready {env : TaskEnv} {answer : AdapterAnswer} {db : Database}
    {ownerId commandId : Uuid} {r : DispatchResult}
    (h : ¬∃ row plan authorization, Dispatchable env db ownerId commandId row plan authorization)
    (hr : (dispatchTask env answer ownerId commandId db).result = .ok r) :
    (prepareDispatch env ownerId commandId db).state = db := by
  rcases prepareDispatch_idle fun row plan authorization hd => h ⟨row, plan, authorization, hd⟩ with
    ⟨e, s, hp⟩ | ⟨r, hp⟩
  · rw [dispatchTask, Tx.unitOfWork_of_error (Tx.bind_error hp)] at hr
    cases hr
  · rw [hp]

/-! ## After the call -/

/-- The state a dispatch reports for the answer, where the worker lives to report it. -/
def AdapterAnswer.reported : AdapterAnswer → Option CommandState
  | .responds response => some (if response.rejected then .rejected else .acknowledged)
  | .raises _ => some .outcomeUnknown
  | .dies => none

/-- The recording of an outcome in this state goes through: no fault is met, and a reservation that
has to move is there and not terminal. -/
structure Settles (env : TaskEnv) (db : Database) (ownerId : Uuid) (plan : TradePlan)
    (state : CommandState) : Prop where
  closes : .close ∉ env.faults
  persists : .persist ∉ env.faults
  reserves : state = .rejected ∨ state = .acknowledged → ∀ reservationId ∈ plan.reservationId,
    .reservation ∉ env.faults ∧
      ∃ r, db.reservation? reservationId ownerId = some r ∧ r.state.isActive = true
  plans : state = .acknowledged ∧ plan.state = .executionPending → .plan ∉ env.faults
  commits : .commit ∉ env.faults

theorem finishDispatch_reported {answer : AdapterAnswer} {command outcome : ExecutionCommand}
    (h : finishDispatch command answer = .ok outcome) : answer.reported = some outcome.state := by
  cases answer with
  | responds response =>
    cases h
    cases hr : response.rejected <;> simp [AdapterAnswer.reported, afterResponse, hr]
  | raises exception => cases h; rfl
  | dies => cases h

/-- The database with the outcome's transition of the reservation, if there is one. -/
def Database.settleReserved (db : Database) (env : TaskEnv) (ownerId : Uuid) (plan : TradePlan)
    (outcome : ExecutionCommand) : Database :=
  match plan.reservationId, reservationMove outcome with
  | some reservationId, some (target, fields) =>
    db.moveReservation env.now reservationId ownerId target fields
  | _, _ => db

/-- The database a dispatch commits after the call. -/
def Database.settled (db : Database) (env : TaskEnv) (ownerId : Uuid) (ready : Ready)
    (outcome : ExecutionCommand) : Database :=
  let moved := (db.recordOutcome env ready.row outcome).settleReserved env ownerId ready.plan.data
    outcome
  if outcome.state = .acknowledged ∧ ready.plan.data.state = .executionPending then
    moved.executePlan env ready.plan
  else moved

theorem reservationMove_isSome {outcome : ExecutionCommand} {move : ReservationState × TransitionFields}
    (h : reservationMove outcome = some move) :
    (outcome.state = .rejected ∨ outcome.state = .acknowledged) ∧ move.2.amount = none := by
  unfold reservationMove at h
  split at h
  · cases h; exact ⟨.inl ‹_›, rfl⟩
  · cases h; exact ⟨.inr ‹_›, rfl⟩
  · cases h

theorem reservationMove_eq_none {outcome : ExecutionCommand} (h : reservationMove outcome = none) :
    ¬(outcome.state = .rejected ∨ outcome.state = .acknowledged) := by
  unfold reservationMove at h
  split at h
  · cases h
  · cases h
  · rename_i h₁ h₂
    rintro (hs | hs)
    · exact h₁ hs
    · exact h₂ hs

/-- The reservation's part goes through where no fault is met and the reservation is active. -/
theorem settleReservation_run (env : TaskEnv) (db : Database) (ownerId : Uuid) (plan : TradePlan)
    (outcome : ExecutionCommand) :
    ((outcome.state = .rejected ∨ outcome.state = .acknowledged →
        ∀ reservationId ∈ plan.reservationId, .reservation ∉ env.faults ∧
          ∃ r, db.reservation? reservationId ownerId = some r ∧ r.state.isActive = true) ∧
      settleReservation env ownerId plan outcome db =
        ⟨.ok (), db.settleReserved env ownerId plan outcome, []⟩) ∨
    (¬(outcome.state = .rejected ∨ outcome.state = .acknowledged →
        ∀ reservationId ∈ plan.reservationId, .reservation ∉ env.faults ∧
          ∃ r, db.reservation? reservationId ownerId = some r ∧ r.state.isActive = true) ∧
      ∃ e s, settleReservation env ownerId plan outcome db = ⟨.error e, s, []⟩) := by
  unfold settleReservation Database.settleReserved
  cases hid : plan.reservationId with
  | none => exact .inl ⟨by simp, rfl⟩
  | some reservationId =>
    cases hmove : reservationMove outcome with
    | none => exact .inl ⟨fun h => absurd h (reservationMove_eq_none hmove), rfl⟩
    | some move =>
      obtain ⟨target, fields⟩ := move
      obtain ⟨hstate, hamount⟩ := reservationMove_isSome hmove
      dsimp only
      by_cases hfault : .reservation ∉ env.faults
      case neg =>
        refine .inr ⟨fun h => hfault (h hstate reservationId rfl).1, .infrastructure, db, ?_⟩
        rw [TaskEnv.pass, Tx.require_bind_neg hfault]
      by_cases hactive : ∃ r, db.reservation? reservationId ownerId = some r ∧ r.state.isActive = true
      · refine .inl ⟨fun _ id hid => ?_, ?_⟩
        · cases hid
          exact ⟨hfault, hactive⟩
        · obtain ⟨r, hr, ha⟩ := hactive
          rw [TaskEnv.pass, Tx.require_bind_pos hfault,
            Tx.bind_next (transitionReservation_ok hr ha hamount)]
          rfl
      · obtain ⟨e, he⟩ : ∃ e, transitionReservation env.now reservationId ownerId target fields db =
            ⟨.error e, db, []⟩ := transitionReservation_error hactive
        refine .inr ⟨fun h => hactive (h hstate reservationId rfl).2, e, db, ?_⟩
        rw [TaskEnv.pass, Tx.require_bind_pos hfault, Tx.bind_error he]

/-- The recording of an outcome commits exactly if it settles. -/
theorem settleDispatch_run (env : TaskEnv) (db : Database) (ownerId : Uuid) (ready : Ready)
    (outcome : ExecutionCommand) :
    (Settles env db ownerId ready.plan.data outcome.state ∧
      settleDispatch env ownerId ready outcome db =
        ⟨.ok (.dispatched outcome.state), db.settled env ownerId ready outcome, []⟩) ∨
    (¬Settles env db ownerId ready.plan.data outcome.state ∧
      ∃ e s, settleDispatch env ownerId ready outcome db = ⟨.error e, s, []⟩) := by
  unfold settleDispatch TaskEnv.pass
  by_cases hclose : .close ∉ env.faults
  case neg => exact .inr ⟨fun h => hclose h.closes, _, _, Tx.require_bind_neg hclose _ _ _⟩
  rw [Tx.require_bind_pos hclose]
  by_cases hpersist : .persist ∉ env.faults
  case neg => exact .inr ⟨fun h => hpersist h.persists, _, _, Tx.require_bind_neg hpersist _ _ _⟩
  rw [Tx.require_bind_pos hpersist, Tx.modify_bind]
  rcases settleReservation_run env (db.recordOutcome env ready.row outcome) ownerId ready.plan.data
    outcome with ⟨hreserves, hrun⟩ | ⟨hreserves, e, s, hrun⟩
  case inr => exact .inr ⟨fun h => hreserves h.reserves, e, s, Tx.bind_error hrun⟩
  rw [Tx.bind_next hrun]
  unfold settlePlan TaskEnv.pass Database.settled
  by_cases hplan : outcome.state = .acknowledged ∧ ready.plan.data.state = .executionPending
  · rw [if_pos hplan, if_pos hplan]
    by_cases hfault : .plan ∉ env.faults
    case neg =>
      refine .inr ⟨fun h => hfault (h.plans hplan), ?_⟩
      exact ⟨_, _, Tx.bind_error (Tx.require_bind_neg hfault _ _ _)⟩
    have hstep : (Tx.require (.plan ∉ env.faults) .infrastructure >>= fun _ =>
        Tx.modify fun db => db.executePlan env ready.plan : Session Unit)
        ((db.recordOutcome env ready.row outcome).settleReserved env ownerId ready.plan.data outcome) =
        ⟨.ok (), _, []⟩ := Tx.require_bind_pos hfault _ _ _
    rw [Tx.bind_next hstep]
    by_cases hcommit : .commit ∉ env.faults
    case neg => exact .inr ⟨fun h => hcommit h.commits, _, _, Tx.require_bind_neg hcommit _ _ _⟩
    rw [Tx.require_bind_pos hcommit]
    exact .inl ⟨⟨hclose, hpersist, hreserves, fun _ => hfault, hcommit⟩, rfl⟩
  · rw [if_neg hplan, if_neg hplan, Tx.bind_next (Tx.pure_run () _)]
    by_cases hcommit : .commit ∉ env.faults
    case neg => exact .inr ⟨fun h => hcommit h.commits, _, _, Tx.require_bind_neg hcommit _ _ _⟩
    rw [Tx.require_bind_pos hcommit]
    exact .inl ⟨⟨hclose, hpersist, hreserves, fun h => absurd h hplan, hcommit⟩, rfl⟩

/-! ## The whole dispatch -/

theorem dispatch_run {command : ExecutionCommand} (h : command.state = .dispatching)
    (answer : AdapterAnswer) (authorization : ExecutionAuthorization) (db : Database) :
    let sent := { command with attempts := command.attempts ++
      [{ attempt := command.attempts.length + 1, state := .dispatching }] }
    dispatch answer command authorization db =
      ⟨finishDispatch sent answer, db, [⟨sent, authorization⟩]⟩ := by
  intro sent
  have hbegin : beginDispatch command = .ok (.inr sent) := by
    simp [beginDispatch, h, transition, bind, Except.bind, pure, Except.pure, sent]
  rw [dispatch, Tx.lift_bind_ok hbegin]
  rfl

/-- The run of a dispatch of a ready command: it commits the outcome, or takes all back but the
call. -/
theorem dispatchTask_run {env : TaskEnv} {db : Database} {ownerId commandId : Uuid}
    {row : Row Uuid CommandState CommandData} {plan : Row Uuid TradePlanState TradePlan}
    {authorization : ExecutionAuthorization} (answer : AdapterAnswer)
    (h : Dispatchable env db ownerId commandId row plan authorization) :
    (∃ outcome, finishDispatch (sentCommand env row) answer = .ok outcome ∧
      Settles env db ownerId plan.data outcome.state ∧
      dispatchTask env answer ownerId commandId db = ⟨.ok (.dispatched outcome.state),
        (db.leaseRow env row).settled env ownerId ⟨leasedRow env row, plan, authorization⟩ outcome,
        [⟨sentCommand env row, authorization⟩]⟩) ∨
    ((∀ state ∈ answer.reported, ¬Settles env db ownerId plan.data state) ∧
      ∃ e, dispatchTask env answer ownerId commandId db =
        ⟨.error e, db, [⟨sentCommand env row, authorization⟩]⟩) := by
  have hsent : dispatch answer (leasedData env row.data).command authorization (db.leaseRow env row) =
      ⟨finishDispatch (sentCommand env row) answer, db.leaseRow env row,
        [⟨sentCommand env row, authorization⟩]⟩ := dispatch_run rfl answer authorization _
  have hready := prepareDispatch_ready h
  unfold dispatchTask
  cases hfinish : finishDispatch (sentCommand env row) answer with
  | error e =>
    have hdies : answer.reported = none := by
      cases answer with
      | dies => rfl
      | responds response => cases hfinish
      | raises exception => cases hfinish
    rw [hfinish] at hsent
    have hrun : (prepareDispatch env ownerId commandId >>= sendReady env answer ownerId) db =
        ⟨.error e, db.leaseRow env row, [⟨sentCommand env row, authorization⟩]⟩ := by
      rw [Tx.bind_next hready]
      exact Tx.bind_error hsent
    exact .inr ⟨by simp [hdies], e, Tx.unitOfWork_of_error hrun⟩
  | ok outcome =>
    rw [hfinish] at hsent
    have hrun : ∀ result s, settleDispatch env ownerId ⟨leasedRow env row, plan, authorization⟩ outcome
        (db.leaseRow env row) = ⟨result, s, []⟩ →
        (prepareDispatch env ownerId commandId >>= sendReady env answer ownerId) db =
          ⟨result, s, [⟨sentCommand env row, authorization⟩]⟩ := by
      intro result s hsettle
      rw [Tx.bind_next hready]
      exact (Tx.bind_ok hsent).trans (by rw [hsettle]; rfl)
    rcases settleDispatch_run env (db.leaseRow env row) ownerId ⟨leasedRow env row, plan, authorization⟩
      outcome with ⟨hsettles, hsettle⟩ | ⟨hsettles, e, s, hsettle⟩
    · exact .inl ⟨outcome, rfl, ⟨hsettles.closes, hsettles.persists, hsettles.reserves,
        hsettles.plans, hsettles.commits⟩, Tx.unitOfWork_of_ok (hrun _ _ hsettle)⟩
    · refine .inr ⟨fun state hs hset => ?_, e, Tx.unitOfWork_of_error (hrun _ _ hsettle)⟩
      obtain rfl : outcome.state = state :=
        Option.some.inj ((finishDispatch_reported hfinish).symm.trans hs)
      exact hsettles ⟨hset.closes, hset.persists, hset.reserves, hset.plans, hset.commits⟩

/-- **What a dispatch of a ready command does**: it sends the command once, and either records the
outcome or leaves the database as it was. -/
theorem dispatchTask_sends {env : TaskEnv} {db : Database} {ownerId commandId : Uuid}
    {row : Row Uuid CommandState CommandData} {plan : Row Uuid TradePlanState TradePlan}
    {authorization : ExecutionAuthorization} (answer : AdapterAnswer)
    (h : Dispatchable env db ownerId commandId row plan authorization) :
    (dispatchTask env answer ownerId commandId db).emitted = [⟨sentCommand env row, authorization⟩] ∧
      ((∃ outcome, finishDispatch (sentCommand env row) answer = .ok outcome ∧
          Settles env db ownerId plan.data outcome.state ∧
          (dispatchTask env answer ownerId commandId db).state =
            (db.leaseRow env row).settled env ownerId ⟨leasedRow env row, plan, authorization⟩
              outcome) ∨
        ((∀ state ∈ answer.reported, ¬Settles env db ownerId plan.data state) ∧
          (dispatchTask env answer ownerId commandId db).state = db)) := by
  rcases dispatchTask_run answer h with ⟨outcome, hfinish, hsettles, hrun⟩ | ⟨hnot, e, hrun⟩
  · rw [hrun]
    exact ⟨rfl, .inl ⟨outcome, hfinish, hsettles, rfl⟩⟩
  · rw [hrun]
    exact ⟨rfl, .inr ⟨hnot, rfl⟩⟩

/-- A task leaves the database alone, or records the outcome of a dispatchable command. -/
theorem dispatchTask_cases (env : TaskEnv) (answer : AdapterAnswer) (ownerId commandId : Uuid)
    (db : Database) : (dispatchTask env answer ownerId commandId db).state = db ∨
      ∃ row plan authorization outcome, Dispatchable env db ownerId commandId row plan authorization ∧
        finishDispatch (sentCommand env row) answer = .ok outcome ∧
        Settles env db ownerId plan.data outcome.state ∧
        (dispatchTask env answer ownerId commandId db).state =
          (db.leaseRow env row).settled env ownerId ⟨leasedRow env row, plan, authorization⟩ outcome := by
  by_cases hready : ∃ row plan authorization,
      Dispatchable env db ownerId commandId row plan authorization
  · obtain ⟨row, plan, authorization, hready⟩ := hready
    rcases (dispatchTask_sends answer hready).2 with ⟨outcome, hfinish, hsettles, hstate⟩ | ⟨_, hstate⟩
    · exact .inr ⟨row, plan, authorization, outcome, hready, hfinish, hsettles, hstate⟩
    · exact .inl hstate
  · exact .inl (dispatchTask_unready answer hready).2

end Matrades

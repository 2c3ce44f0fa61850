import Matrades.Trading.Coordinator

/-!
# What a queueing does

Each queueing is one transaction that is refused and leaves the database alone, or commits. What it
commits is said once: `queueEntry_cases` for an evaluated entry, `queuePlan_cases` for `_queue_plan`, and
`manageTask_cases` for a management action. Only plans, commands and reservations change.
-/

namespace Matrades

open Base

/-! ## Reservations -/

/-- At most the reservations differ. -/
def OnlyReservations (db db' : Database) : Prop :=
  db' = { db with reservations := db'.reservations }

theorem onlyReservations_order : Tx.StoreOrder OnlyReservations where
  refl _ := rfl
  trans {a b c} h h' := by
    unfold OnlyReservations at *
    rw [h', h]

theorem onlyReservations_modify {f : Database → Database}
    (h : ∀ db, f db = { db with reservations := (f db).reservations }) :
    Tx.Within OnlyReservations (Tx.modify f : Session Unit) :=
  Tx.within_modify h

theorem reserve_within (env : Env) (ownerId accountId planId : Uuid) (amount available : ℚ) :
    Tx.Within OnlyReservations (reserve env ownerId accountId planId amount available) := by
  have hO := onlyReservations_order
  unfold reserve
  refine Tx.within_bind hO (Tx.within_get hO) fun db => ?_
  refine Tx.within_bind hO (Tx.within_require hO _ _) fun _ => ?_
  split
  · exact Tx.within_bind hO (Tx.within_require hO _ _) fun _ => Tx.within_pure hO _
  · unfold reserveNew expire
    refine Tx.within_bind hO (onlyReservations_modify fun _ => rfl) fun _ => ?_
    refine Tx.within_bind hO (Tx.within_get hO) fun db => ?_
    refine Tx.within_bind hO (Tx.within_require hO _ _) fun _ => ?_
    exact Tx.within_bind hO (onlyReservations_modify fun _ => rfl) fun _ => Tx.within_pure hO _

/-- The run of a reservation. -/
theorem reserve_run (env : Env) (ownerId accountId planId : Uuid) (amount available : ℚ)
    (db : Database) : ∃ r reservations, reserve env ownerId accountId planId amount available db =
      ⟨r, { db with reservations }, []⟩ := by
  obtain ⟨hstate, hsilent⟩ := reserve_within env ownerId accountId planId amount available db
  generalize hrun : reserve env ownerId accountId planId amount available db = o at hstate hsilent
  obtain ⟨r, s, ws⟩ := o
  dsimp only at hstate hsilent
  exact ⟨r, s.reservations, by rw [← hstate, hsilent]⟩

/-- The run of a transition without an amount. -/
theorem transitionReservation_run (now : Time) (reservationId ownerId : Uuid)
    (target : ReservationState) {fields : TransitionFields} (hamount : fields.amount = none)
    (db : Database) :
    (∃ e, transitionReservation now reservationId ownerId target fields db = ⟨.error e, db, []⟩) ∨
      ∃ r, db.reservation? reservationId ownerId = some r ∧ r.state.isActive = true ∧
        transitionReservation now reservationId ownerId target fields db =
          ⟨.ok (fields.finish now (fields.mark target r)),
            db.moveReservation now reservationId ownerId target fields, []⟩ := by
  by_cases hactive : ∃ r, db.reservation? reservationId ownerId = some r ∧ r.state.isActive = true
  · obtain ⟨r, hr, hactive⟩ := hactive
    exact .inr ⟨r, hr, hactive, transitionReservation_ok hr hactive hamount⟩
  · exact .inl (transitionReservation_error hactive)

/-! ## Storing a command -/

/-- The command's payload is the stored one's. -/
def SamePayload (row : Row Uuid CommandState CommandData) (command : ExecutionCommand) : Prop :=
  Json.eqvDict row.data.command.requestedPostcondition command.requestedPostcondition = true

/-- The stored command with the key. -/
def keyedCommand? (db : Database) (ownerId : Uuid) (key : String) :
    Option (Row Uuid CommandState CommandData) :=
  (listedCommands db ownerId).find? fun item => item.data.command.idempotencyKey = key

/-- The command may be stored: its id is bound to its key, or its key to its payload, or both are
new. -/
def Storable (db : Database) (ownerId : Uuid) (command : ExecutionCommand) : Prop :=
  match Table.get? db.commands command.id ownerId with
  | some existing => existing.data.command.idempotencyKey = command.idempotencyKey
  | none =>
    match keyedCommand? db ownerId command.idempotencyKey with
    | some item => SamePayload item command
    | none => ∀ row ∈ db.commands, row.id ≠ command.id

/-- The database after the command is stored or found. -/
def Database.withCommand (db : Database) (env : Env) (ownerId : Uuid) (command : ExecutionCommand) :
    Database :=
  if (persistedRecord db ownerId command).isSome then db else db.addCommand env ownerId command

/-- A command is stored or found exactly if it may be. -/
theorem persistCommand_run (env : Env) (ownerId : Uuid) (command : ExecutionCommand)
    (db : Database) :
    (Storable db ownerId command ∧
      persistCommand env ownerId command db = ⟨.ok (), db.withCommand env ownerId command, []⟩) ∨
    (¬Storable db ownerId command ∧
      ∃ e, persistCommand env ownerId command db = ⟨.error e, db, []⟩) := by
  rw [persistCommand, Tx.get_bind]
  unfold Storable Database.withCommand persistedRecord
  cases hown : Table.get? db.commands command.id ownerId with
  | some existing =>
    dsimp only
    rw [Option.some_or, Option.isSome_some, if_pos rfl]
    by_cases hkey : existing.data.command.idempotencyKey = command.idempotencyKey
    · rw [Tx.require_pos hkey]
      exact .inl ⟨hkey, rfl⟩
    · rw [Tx.require_neg hkey]
      exact .inr ⟨hkey, _, rfl⟩
  | none =>
    dsimp only
    rw [Option.none_or]
    unfold keyedCommand?
    cases hkeyed : (listedCommands db ownerId).find? fun item =>
        item.data.command.idempotencyKey = command.idempotencyKey with
    | some item =>
      dsimp only
      rw [Option.isSome_some, if_pos rfl]
      by_cases hsame : Json.eqvDict item.data.command.requestedPostcondition
          command.requestedPostcondition = true
      · rw [Tx.require_pos hsame]
        exact .inl ⟨hsame, rfl⟩
      · rw [Tx.require_neg hsame]
        exact .inr ⟨hsame, _, rfl⟩
    | none =>
      dsimp only
      rw [Option.isSome_none, if_neg nofun]
      by_cases hfresh : ∀ row ∈ db.commands, row.id ≠ command.id
      · rw [Tx.require_bind_pos hfresh]
        exact .inl ⟨hfresh, rfl⟩
      · rw [Tx.require_bind_neg hfresh]
        exact .inr ⟨hfresh, _, rfl⟩

/-- A new command is stored under a new id and a new key, any other is found. -/
theorem withCommand_commands {db : Database} {ownerId : Uuid} {command : ExecutionCommand}
    (h : Storable db ownerId command) (env : Env) :
    (db.withCommand env ownerId command).commands = db.commands ∨
      ((∀ row ∈ db.commands, row.id ≠ command.id) ∧
        keyedCommand? db ownerId command.idempotencyKey = none ∧
        (db.withCommand env ownerId command).commands =
          db.commands ++ [commandRow env ownerId command]) := by
  unfold Storable at h
  unfold Database.withCommand persistedRecord
  cases hown : Table.get? db.commands command.id ownerId with
  | some existing =>
    rw [Option.some_or, Option.isSome_some, if_pos rfl]
    exact .inl rfl
  | none =>
    rw [Option.none_or]
    rw [hown] at h
    dsimp only at h
    cases hkeyed : keyedCommand? db ownerId command.idempotencyKey with
    | some item =>
      have hfound : ((listedCommands db ownerId).find? fun item =>
          item.data.command.idempotencyKey = command.idempotencyKey).isSome = true :=
        Option.isSome_iff_exists.2 ⟨item, hkeyed⟩
      rw [if_pos hfound]
      exact .inl rfl
    | none =>
      have hnone : ((listedCommands db ownerId).find? fun item =>
          item.data.command.idempotencyKey = command.idempotencyKey).isSome = false :=
        Option.isSome_eq_false_iff.2 (Option.isNone_iff_eq_none.2 hkeyed)
      rw [hkeyed] at h
      rw [hnone, if_neg nofun]
      exact .inr ⟨h, rfl, rfl⟩

@[simp] theorem withCommand_plans (db : Database) (env : Env) (ownerId : Uuid)
    (command : ExecutionCommand) :
    (db.withCommand env ownerId command).tradePlans = db.tradePlans := by
  unfold Database.withCommand
  split <;> rfl

@[simp] theorem withCommand_switches (db : Database) (env : Env) (ownerId : Uuid)
    (command : ExecutionCommand) :
    (db.withCommand env ownerId command).killSwitches = db.killSwitches := by
  unfold Database.withCommand
  split <;> rfl

@[simp] theorem withCommand_permissions (db : Database) (env : Env) (ownerId : Uuid)
    (command : ExecutionCommand) :
    (db.withCommand env ownerId command).permissionProfiles = db.permissionProfiles := by
  unfold Database.withCommand
  split <;> rfl

/-- Storing a command with the record of it. -/
theorem persistedCommand_stores {db : Database} {ownerId : Uuid} {command : ExecutionCommand}
    (h : Storable db ownerId command) (env : Env) :
    persistedCommand env ownerId command db =
      ⟨.ok (persistedRecord (db.withCommand env ownerId command) ownerId command),
        db.withCommand env ownerId command, []⟩ := by
  rcases persistCommand_run env ownerId command db with ⟨_, hrun⟩ | ⟨hnot, _⟩
  · exact Tx.bind_next hrun
  · exact absurd h hnot

theorem persistedCommand_refused {db : Database} {ownerId : Uuid} {command : ExecutionCommand}
    (h : ¬Storable db ownerId command) (env : Env) :
    ∃ e, persistedCommand env ownerId command db = ⟨.error e, db, []⟩ := by
  rcases persistCommand_run env ownerId command db with ⟨hstorable, _⟩ | ⟨_, e, hrun⟩
  · exact absurd hstorable h
  · exact ⟨e, Tx.bind_error hrun⟩

/-! ## Authorizing -/

/-- What an authorization requires. -/
structure MayAuthorize (env : QueueEnv) (plan : TradePlan) (action : ExecutionAction)
    (permissions : ExecutionPermissionProfile) (platformKill accountKill : KillSwitchState) :
    Prop where
  eligible : plan.state ∈ eligiblePlanStates action
  unexpired : action = .placeOrder → env.now < plan.expiresAt
  risk : plan.risk.decision ≠ .hardBlock
  allowed : permissions.allows action = true
  platformOff : platformKill.active = false
  accountOff : accountKill.active = false

theorem authorizeAction_ok_iff {env : QueueEnv} {plan : TradePlan} {action : ExecutionAction}
    {permissions : ExecutionPermissionProfile} {platformKill accountKill : KillSwitchState}
    {authorization : ExecutionAuthorization} :
    authorizeAction env plan action permissions platformKill accountKill = .ok authorization ↔
      MayAuthorize env plan action permissions platformKill accountKill ∧
        authorization = newAuthorization env plan action permissions platformKill accountKill := by
  unfold authorizeAction
  constructor
  · intro h
    obtain ⟨heligible, h⟩ := ok_of_guard h
    obtain ⟨hexpired, h⟩ := ok_of_guard h
    obtain ⟨hrisk, h⟩ := ok_of_guard h
    obtain ⟨hallowed, h⟩ := ok_of_guard h
    obtain ⟨hkill, h⟩ := ok_of_guard h
    simp only [not_or, Bool.not_eq_true] at hkill
    cases h
    refine ⟨⟨not_not.1 heligible, fun haction => ?_, hrisk, by simpa using hallowed, hkill.1, hkill.2⟩,
      rfl⟩
    exact not_le.1 fun hle => hexpired ⟨haction, hle⟩
  · rintro ⟨h, rfl⟩
    have hexpired : ¬(action = .placeOrder ∧ plan.expiresAt ≤ env.now) := fun ⟨haction, hle⟩ =>
      absurd (h.unexpired haction) (not_lt.2 hle)
    rw [if_neg (not_not.2 h.eligible), if_neg hexpired, if_neg h.risk, if_neg (by simp [h.allowed]),
      if_neg (by simp [h.platformOff, h.accountOff])]

/-- What a new authorization carries of the switches and of the plan. -/
theorem currentAuthorization_ok {env : QueueEnv} {db : Database} {ownerId : Uuid} {plan : TradePlan}
    {action : ExecutionAction} {authorization : ExecutionAuthorization}
    (h : currentAuthorization env db ownerId plan action = .ok authorization) :
    MayAuthorize env plan action (currentPermissions db ownerId plan.accountId)
        (currentKillSwitches db ownerId plan.accountId).1
        (currentKillSwitches db ownerId plan.accountId).2 ∧
      authorization = newAuthorization env plan action (currentPermissions db ownerId plan.accountId)
        (currentKillSwitches db ownerId plan.accountId).1
        (currentKillSwitches db ownerId plan.accountId).2 :=
  authorizeAction_ok_iff.1 h

/-- The plans differ at most in what an evaluation sets. -/
def TradePlan.SizedFrom (plan' plan : TradePlan) : Prop :=
  plan' = { plan with
    risk := plan'.risk, construction := plan'.construction, ticket := plan'.ticket }

theorem ticketedPlan_from {plan plan' : TradePlan} {approval : Approval}
    {terms : Option LiveTradeTerms} (h : ticketedPlan plan approval terms = .ok plan') :
    plan'.SizedFrom plan := by
  unfold ticketedPlan at h
  split at h
  · obtain ⟨ticket, _, h⟩ := ok_of_bind h
    cases h
    rfl
  · cases h
    rfl

/-- The plan of a decision, if it has one. -/
def EntryDecision.plan? : EntryDecision → Option TradePlan
  | stopped => none
  | block plan => some plan
  | queue plan => some plan

theorem evaluateEntry_from {env : QueueEnv} {db : Database} {plan plan' : TradePlan}
    {terms : Option LiveTradeTerms} {decision : EntryDecision}
    (h : evaluateEntry env db plan terms = .ok decision) (hplan : decision.plan? = some plan') :
    plan'.SizedFrom plan := by
  unfold evaluateEntry at h
  obtain ⟨approval, _, h⟩ := ok_of_bind h
  split at h
  · cases h
    cases hplan
    rfl
  · split at h
    · cases h
      cases hplan
      rfl
    · cases h
      cases hplan
      exact ticketedPlan_from ‹_›

theorem decideEntry_from {env : QueueEnv} {db : Database} {plan plan' : TradePlan}
    {decision : EntryDecision} (h : decideEntry env db plan = .ok decision)
    (hplan : decision.plan? = some plan') : plan'.SizedFrom plan := by
  unfold decideEntry at h
  split at h
  · cases h
    cases hplan
  obtain ⟨snapshot, _, h⟩ := ok_of_bind h
  split at h
  · exact evaluateEntry_from h hplan
  · split at h
    · cases h
      cases hplan
      rfl
    · exact evaluateEntry_from h hplan

/-- The plan of a queued entry. -/
theorem authorizedEntryPlan_ok {plan queued : TradePlan} {authorization : ExecutionAuthorization}
    {commandId : Uuid} (haction : authorization.action = .placeOrder)
    (h : authorizedEntryPlan plan authorization commandId = .ok queued) :
    queued = { plan with
      state := .executionPending, version := plan.version + 1
      authorization := some authorization, executionCommandId := some commandId } := by
  have hstate : (plan.authorize authorization).state = .authorized := if_pos haction
  have hmove : transitionTradePlan (plan.authorize authorization) .executionPending =
      .ok { plan.authorize authorization with
        state := .executionPending, version := plan.version + 1 } := by
    rw [transitionTradePlan, hstate, if_neg (by decide), if_pos (by decide)]
    rfl
  obtain ⟨moved, hmoved, h⟩ := ok_of_bind h
  rw [hmove] at hmoved
  cases hmoved
  cases h
  rfl

/-! ## The new commands -/

theorem queuedCommand_ok {command : ExecutionCommand} (h : command.state = .created) :
    queuedCommand command = .ok { command with state := .queued, version := command.version + 2 } := by
  have hauthorized : transition command .authorized =
      .ok { command with state := .authorized, version := command.version + 1 } := by
    rw [transition, h, if_neg (by decide), if_pos (by decide)]
  rw [queuedCommand, bind_ok_eq hauthorized]
  rfl

/-- The command of an entry. -/
structure EntryCommand (plan : TradePlan) (authorization : ExecutionAuthorization) (id : Uuid)
    (key : String) (command : ExecutionCommand) : Prop where
  id : command.id = id
  account : command.accountId = plan.accountId
  sameAccount : authorization.accountId = plan.accountId
  action : command.action = authorization.action
  planId : command.tradePlanId = some plan.id
  bound : command.authorizationId = some authorization.id
  key : command.idempotencyKey = key
  payload : command.requestedPostcondition = entryPostcondition plan
  state : command.state = .queued

theorem authorizedEntryCommand_ok {env : QueueEnv} {plan : TradePlan}
    {authorization : ExecutionAuthorization} {key : String} {command : ExecutionCommand}
    (h : authorizedEntryCommand env plan authorization key = .ok command) :
    EntryCommand (plan.authorize authorization) authorization env.commandId key command := by
  obtain ⟨created, hcreated, h⟩ := ok_of_bind h
  obtain ⟨haccount, hcreated⟩ := ok_of_guard hcreated
  obtain ⟨_, hcreated⟩ := ok_of_guard hcreated
  obtain ⟨_, hcreated⟩ := ok_of_guard hcreated
  cases hcreated
  rw [queuedCommand_ok rfl] at h
  cases h
  exact ⟨rfl, rfl, not_not.1 haccount, rfl, rfl, rfl, rfl, rfl, rfl⟩

/-- The command of a management request. -/
structure ManagedCommand (plan : TradePlan) (authorization : ExecutionAuthorization) (id : Uuid)
    (request : ManagementRequest) (command : ExecutionCommand) : Prop where
  id : command.id = id
  account : command.accountId = plan.accountId
  action : command.action = authorization.action
  planId : command.tradePlanId = some plan.id
  bound : command.authorizationId = some authorization.id
  key : command.idempotencyKey = request.idempotencyKey
  keyLength : 8 ≤ request.idempotencyKey.length
  payload : command.requestedPostcondition = request.postcondition
  state : command.state = .queued

theorem createActionCommand_ok {now : Time} {id : Uuid} {plan : TradePlan}
    {authorization : ExecutionAuthorization} {request : ManagementRequest}
    {command : ExecutionCommand}
    (h : (createActionCommand now id plan authorization request >>= queuedCommand) = .ok command) :
    ManagedCommand plan authorization id request command := by
  obtain ⟨created, hcreated, h⟩ := ok_of_bind h
  obtain ⟨_, hcreated⟩ := ok_of_guard hcreated
  obtain ⟨_, hcreated⟩ := ok_of_guard hcreated
  obtain ⟨hkey, hcreated⟩ := ok_of_guard hcreated
  cases hcreated
  rw [queuedCommand_ok rfl] at h
  cases h
  exact ⟨rfl, rfl, rfl, rfl, rfl, rfl, not_lt.1 hkey, rfl, rfl⟩

/-! ## An evaluated entry -/

/-- The values of a queued entry. -/
structure EntryValues where
  reservation : Reservation
  /-- The table of reservations with it. -/
  reservations : List Reservation
  authorization : ExecutionAuthorization
  command : ExecutionCommand
  /-- The plan as it is stored. -/
  queued : TradePlan

namespace EntryValues

/-- The values are those that the code computes for the plan. -/
structure Computed (v : EntryValues) (env : QueueEnv) (key : String) (db : Database)
    (plan : TradePlan) : Prop where
  reserved : reserve env.toEnv plan.ownerId plan.accountId plan.id
    plan.risk.snapshot.candidateTradeRisk plan.risk.snapshot.remainingPortfolioRiskCapacity db =
      ⟨.ok v.reservation, { db with reservations := v.reservations }, []⟩
  active : ∃ r, ({ db with reservations := v.reservations } : Database).reservation?
    v.reservation.id plan.ownerId = some r ∧ r.state.isActive = true
  authorized : currentAuthorization env db plan.ownerId (plan.reserved v.reservation) .placeOrder =
    .ok v.authorization
  created : authorizedEntryCommand env (plan.reserved v.reservation) v.authorization key =
    .ok v.command
  moved : authorizedEntryPlan (plan.reserved v.reservation) v.authorization v.command.id =
    .ok v.queued

/-- The database with the reservation and the plan of the entry. -/
def planned (v : EntryValues) (env : QueueEnv) (row : Row Uuid TradePlanState TradePlan)
    (ownerId : Uuid) (db : Database) : Database :=
  (({ db with reservations := v.reservations } : Database).moveReservation env.now v.reservation.id
    ownerId .commandPending { commandId := some v.command.id }).updatePlan row v.queued
    "trade_plan.execution_queued" env.now

/-- The database with the entry. -/
def stored (v : EntryValues) (env : QueueEnv) (row : Row Uuid TradePlanState TradePlan)
    (ownerId : Uuid) (db : Database) : Database :=
  (v.planned env row ownerId db).withCommand env.toEnv ownerId v.command

end EntryValues

namespace EntryValues

variable {v : EntryValues} {env : QueueEnv} {key : String} {db : Database} {plan : TradePlan}

/-- The plan of a queued entry, as it is stored. -/
theorem Computed.queued_eq (h : v.Computed env key db plan) : v.queued = { plan with
    state := .executionPending, version := plan.version + 1
    reservationId := some v.reservation.id, authorization := some v.authorization
    executionCommandId := some v.command.id } := by
  have haction : v.authorization.action = .placeOrder := by
    rw [(currentAuthorization_ok h.authorized).2]
    rfl
  exact authorizedEntryPlan_ok haction h.moved

@[simp] theorem stored_plans (v : EntryValues) (env : QueueEnv)
    (row : Row Uuid TradePlanState TradePlan) (ownerId : Uuid) (db : Database) :
    (v.stored env row ownerId db).tradePlans =
      (db.updatePlan row v.queued "trade_plan.execution_queued" env.now).tradePlans :=
  withCommand_plans _ _ _ _

theorem stored_commands (v : EntryValues) (env : QueueEnv) (row : Row Uuid TradePlanState TradePlan)
    {ownerId : Uuid} {db : Database} (h : Storable db ownerId v.command) :
    (v.stored env row ownerId db).commands = db.commands ∨
      ((∀ row ∈ db.commands, row.id ≠ v.command.id) ∧
        keyedCommand? db ownerId v.command.idempotencyKey = none ∧
        (v.stored env row ownerId db).commands =
          db.commands ++ [commandRow env.toEnv ownerId v.command]) := by
  have hsame : Storable (v.planned env row ownerId db) ownerId v.command := h
  exact withCommand_commands hsame env.toEnv

@[simp] theorem stored_permissions (v : EntryValues) (env : QueueEnv)
    (row : Row Uuid TradePlanState TradePlan) (ownerId : Uuid) (db : Database) :
    (v.stored env row ownerId db).permissionProfiles = db.permissionProfiles :=
  withCommand_permissions _ _ _ _

@[simp] theorem stored_switches (v : EntryValues) (env : QueueEnv)
    (row : Row Uuid TradePlanState TradePlan) (ownerId : Uuid) (db : Database) :
    (v.stored env row ownerId db).killSwitches = db.killSwitches :=
  withCommand_switches _ _ _ _

end EntryValues

/-- The entry of the plan can be reserved, authorized and stored. -/
def EntryProceeds (env : QueueEnv) (key : String) (db : Database) (plan : TradePlan) : Prop :=
  ∃ v : EntryValues, v.Computed env key db plan ∧ Storable db plan.ownerId v.command

/-- No switch and no permission is in the reservations. -/
theorem currentAuthorization_reserved (env : QueueEnv) (db : Database)
    (reservations : List Reservation) (plan : TradePlan) (reservation : Reservation) :
    currentAuthorization env { db with reservations } (plan.reserved reservation).ownerId
        (plan.reserved reservation) .placeOrder =
      currentAuthorization env db plan.ownerId (plan.reserved reservation) .placeOrder := rfl

/-- An entry that can be performed is stored. -/
theorem queueEntry_stores {v : EntryValues} {env : QueueEnv} {key : String} {db : Database}
    {plan : TradePlan} (h : v.Computed env key db plan) (hstorable : Storable db plan.ownerId v.command)
    (row : Row Uuid TradePlanState TradePlan) :
    queueEntry env row plan key db =
      ⟨.ok (Table.revised row v.queued v.queued.state env.now,
          persistedRecord (v.stored env row plan.ownerId db) plan.ownerId v.command),
        v.stored env row plan.ownerId db, []⟩ := by
  obtain ⟨r, hr, hactive⟩ := h.active
  have hsame : Storable (v.planned env row plan.ownerId db) plan.ownerId v.command := hstorable
  have hpersist := persistedCommand_stores hsame env.toEnv
  rw [queueEntry, Tx.bind_next h.reserved, queueReserved, Tx.get_bind, currentAuthorization_reserved,
    Tx.lift_bind_ok h.authorized, Tx.lift_bind_ok h.created]
  have hnone : ({ commandId := some v.command.id } : TransitionFields).amount = none := rfl
  have hmove := @transitionReservation_ok _ env.now _ _ .commandPending _ _ hr hactive hnone
  exact (Tx.bind_next hmove).trans ((Tx.lift_bind_ok h.moved _ _).trans
    ((Tx.modify_bind _ _ _).trans (Tx.bind_next hpersist)))

/-- An entry that cannot be performed is refused. -/
theorem queueEntry_refused {env : QueueEnv} {key : String} {db : Database} {plan : TradePlan}
    (h : ¬EntryProceeds env key db plan) (row : Row Uuid TradePlanState TradePlan) :
    ∃ e s, queueEntry env row plan key db = ⟨.error e, s, []⟩ := by
  obtain ⟨r, reservations, hreserve⟩ := reserve_run env.toEnv plan.ownerId plan.accountId plan.id
    plan.risk.snapshot.candidateTradeRisk plan.risk.snapshot.remainingPortfolioRiskCapacity db
  rw [queueEntry]
  cases r with
  | error e => exact ⟨e, _, Tx.bind_error hreserve⟩
  | ok reservation =>
    rw [Tx.bind_next hreserve, queueReserved, Tx.get_bind, currentAuthorization_reserved]
    cases hauthorized : currentAuthorization env db plan.ownerId (plan.reserved reservation)
      .placeOrder with
    | error e => exact ⟨e, _, Tx.lift_bind_error rfl _ _⟩
    | ok authorization =>
      rw [Tx.lift_bind_ok rfl]
      cases hcreated : authorizedEntryCommand env (plan.reserved reservation) authorization key with
      | error e => exact ⟨e, _, Tx.lift_bind_error rfl _ _⟩
      | ok command =>
        rw [Tx.lift_bind_ok rfl]
        have hnone : ({ commandId := some command.id } : TransitionFields).amount = none := rfl
        rcases transitionReservation_run env.now reservation.id plan.ownerId .commandPending hnone
          { db with reservations } with ⟨e, hrun⟩ | ⟨r, hr, hactive, hrun⟩
        · exact ⟨e, _, Tx.bind_error hrun⟩
        cases hmoved : authorizedEntryPlan (plan.reserved reservation) authorization command.id with
        | error e => exact ⟨e, _, (Tx.bind_next hrun).trans (Tx.lift_bind_error rfl _ _)⟩
        | ok queued =>
          let v : EntryValues := ⟨reservation, reservations, authorization, command, queued⟩
          have hrefused : ¬Storable (v.planned env row plan.ownerId db) plan.ownerId command :=
            fun hstorable => h ⟨v, ⟨hreserve, ⟨r, hr, hactive⟩, hauthorized, hcreated, hmoved⟩,
              hstorable⟩
          obtain ⟨e, hpersist⟩ := persistedCommand_refused hrefused env.toEnv
          exact ⟨e, _, (Tx.bind_next hrun).trans
            ((Tx.lift_bind_ok rfl _ _).trans ((Tx.modify_bind _ _ _).trans (Tx.bind_error hpersist)))⟩

/-! ## `_queue_plan` -/

/-- One row for each id, and each plan is stored under its own id and owner. -/
structure PlansKeyed (db : Database) : Prop where
  unique : (db.tradePlans.map (·.id)).Nodup
  same : ∀ row ∈ db.tradePlans, row.data.id = row.id ∧ row.data.ownerId = row.ownerId

theorem PlansKeyed.of_plans {db db' : Database} (hk : PlansKeyed db)
    (h : db'.tradePlans = db.tradePlans) : PlansKeyed db' := ⟨h ▸ hk.unique, h ▸ hk.same⟩

theorem PlansKeyed.update {db : Database} (hk : PlansKeyed db)
    {row : Row Uuid TradePlanState TradePlan} (hrow : row ∈ db.tradePlans) {plan : TradePlan}
    (hid : plan.id = row.id) (howner : plan.ownerId = row.ownerId) (eventType : String)
    (now : Time) : PlansKeyed (db.updatePlan row plan eventType now) := by
  have hids : (db.updatePlan row plan eventType now).tradePlans.map (·.id) =
      db.tradePlans.map (·.id) := Table.ids_revise _ _ _ _ _
  refine ⟨hids ▸ hk.unique, fun r hr => ?_⟩
  rcases Table.mem_revise_row hk.unique hrow hr with ⟨hr, _⟩ | rfl
  · exact hk.same r hr
  · exact ⟨hid, howner⟩

/-- A write of the plan under its own id and owner is found as it was written. -/
theorem PlansKeyed.rewritten {db db' : Database} (hk : PlansKeyed db) {planId ownerId : Uuid}
    {row : Row Uuid TradePlanState TradePlan} {plan : TradePlan} {eventType : String} {now : Time}
    (hrow : Table.get? db.tradePlans planId ownerId = some row) (hid : plan.id = row.data.id)
    (howner : plan.ownerId = row.data.ownerId)
    (hplans : db'.tradePlans = (db.updatePlan row plan eventType now).tradePlans) :
    PlansKeyed db' ∧ Table.get? db'.tradePlans planId ownerId =
      some (Table.revised row plan plan.state now) := by
  have hmem := (Table.get?_spec hrow).1
  obtain ⟨hid', howner'⟩ := hk.same row hmem
  refine ⟨(hk.update hmem (hid.trans hid') (howner.trans howner') eventType now).of_plans hplans, ?_⟩
  rw [hplans]
  exact Table.get?_revise hrow _ _ _

/-- A stored plan is found by its own id and owner. -/
theorem PlansKeyed.found {db : Database} (hk : PlansKeyed db) {planId ownerId : Uuid}
    {row : Row Uuid TradePlanState TradePlan}
    (h : Table.get? db.tradePlans planId ownerId = some row) :
    Table.get? db.tradePlans row.data.id row.data.ownerId = some row := by
  obtain ⟨hmem, hid, howner⟩ := Table.get?_spec h
  obtain ⟨hid', howner'⟩ := hk.same row hmem
  rw [hid', howner', hid, howner]
  exact h

/-- A plan is found again by its own id. -/
theorem PlansKeyed.found_own {db : Database} (hk : PlansKeyed db) {planId ownerId : Uuid}
    {row : Row Uuid TradePlanState TradePlan}
    (h : Table.get? db.tradePlans planId ownerId = some row) :
    Table.get? db.tradePlans row.data.id ownerId = some row := by
  obtain ⟨hmem, -, howner⟩ := Table.get?_spec h
  rw [← howner, ← (hk.same row hmem).2]
  exact hk.found h

/-- A plan that is found has the id it is asked for. -/
theorem PlansKeyed.data_id {db : Database} (hk : PlansKeyed db) {planId ownerId : Uuid}
    {row : Row Uuid TradePlanState TradePlan} (h : Table.get? db.tradePlans planId ownerId = some row) : row.data.id = planId := by
  obtain ⟨hmem, hid, -⟩ := Table.get?_spec h
  exact (hk.same row hmem).1.trans hid

theorem persistTradePlan_found {env : Env} {db : Database} {plan : TradePlan}
    {row : Row Uuid TradePlanState TradePlan}
    (h : Table.get? db.tradePlans plan.id plan.ownerId = some row) :
    persistTradePlan env plan db = ⟨.ok row, db, []⟩ := by
  rw [persistTradePlan, Tx.get_bind, h]
  rfl

/-- What an entry commits from its first write on: nothing, a blocked plan, or a queued entry. -/
inductive EntryStep (env : QueueEnv) (row : Row Uuid TradePlanState TradePlan) (key : String)
    (db : Database) : EntryDecision → Database → Prop
  | stopped : EntryStep env row key db .stopped db
  | blocked (plan : TradePlan) : EntryStep env row key db (.block plan)
      (db.updatePlan row plan.blocked "trade_plan.blocked" env.now)
  | queued (plan : TradePlan) (v : EntryValues) (hcomputed : v.Computed env key db plan)
      (hstorable : Storable db plan.ownerId v.command) :
      EntryStep env row key db (.queue plan) (v.stored env row plan.ownerId db)

theorem performEntry_cases (env : QueueEnv) (row : Row Uuid TradePlanState TradePlan)
    (key : String) (decision : EntryDecision) (db : Database) :
    (∃ plan e s, decision = .queue plan ∧ ¬EntryProceeds env key db plan ∧
      performEntry env row key decision db = ⟨.error e, s, []⟩) ∨
    ∃ records db', EntryStep env row key db decision db' ∧
      performEntry env row key decision db = ⟨.ok records, db', []⟩ := by
  cases decision with
  | stopped => exact .inr ⟨_, _, .stopped, rfl⟩
  | block plan => exact .inr ⟨_, _, .blocked plan, rfl⟩
  | queue plan =>
    by_cases hproceeds : EntryProceeds env key db plan
    · obtain ⟨v, hcomputed, hstorable⟩ := hproceeds
      exact .inr ⟨_, _, .queued plan v hcomputed hstorable, queueEntry_stores hcomputed hstorable row⟩
    · obtain ⟨e, s, hrun⟩ := queueEntry_refused hproceeds row
      exact .inl ⟨plan, e, s, rfl, hproceeds, hrun⟩

/-- A stored plan is decided on, and the decision performed. -/
theorem authorizeAndQueueEntry_found (env : QueueEnv) {db : Database} (hk : PlansKeyed db)
    {planId ownerId : Uuid} {row : Row Uuid TradePlanState TradePlan}
    (hrow : Table.get? db.tradePlans planId ownerId = some row) :
    authorizeAndQueueEntry env row.data none db =
      (Tx.lift (decideEntry env db row.data) >>= performEntry env row (entryKey row.id)) db := by
  have hid : row.data.id = row.id := (hk.same row (Table.get?_spec hrow).1).1
  rw [authorizeAndQueueEntry, Tx.bind_next (persistTradePlan_found (hk.found hrow)), Tx.get_bind, ← hid]
  rfl

/-- A queueing of a stored plan is refused, or decides on the plan and performs its decision. -/
theorem queuePlan_cases (env : QueueEnv) (ownerId planId : Uuid) {db : Database}
    (hk : PlansKeyed db) :
    (∃ e, queuePlan env ownerId planId db = ⟨.error e, db, []⟩) ∨
    ∃ row decision db' result, Table.get? db.tradePlans planId ownerId = some row ∧
      decideEntry env db row.data = .ok decision ∧
      EntryStep env row (entryKey row.id) db decision db' ∧
      queuePlan env ownerId planId db = ⟨.ok result, db', []⟩ := by
  unfold queuePlan
  cases hrow : Table.get? db.tradePlans planId ownerId with
  | none =>
    refine .inl ⟨.runtimeError "trade plan not found", Tx.unitOfWork_of_error (r := db) ?_⟩
    rw [Tx.get_bind, Tx.orRaise_bind_none hrow]
  | some row =>
    have hentry := authorizeAndQueueEntry_found env hk hrow
    cases hdecision : decideEntry env db row.data with
    | error e =>
      refine .inl ⟨e, Tx.unitOfWork_of_error (r := db) ?_⟩
      rw [Tx.get_bind, Tx.orRaise_bind_some hrow]
      exact Tx.bind_error (hentry.trans (Tx.lift_bind_error hdecision _ _))
    | ok decision =>
      rw [Tx.lift_bind_ok hdecision] at hentry
      rcases performEntry_cases env row (entryKey row.id) decision db with ⟨_, e, s, _, _, hrun⟩ |
        ⟨records, db', hstep, hrun⟩
      · refine .inl ⟨e, Tx.unitOfWork_of_error (r := s) ?_⟩
        rw [Tx.get_bind, Tx.orRaise_bind_some hrow]
        exact Tx.bind_error (hentry.trans hrun)
      · refine .inr ⟨row, decision, db', ⟨records.1.id, records.1.state, records.2.map (·.id)⟩, rfl,
          hdecision, hstep, Tx.unitOfWork_of_ok ?_⟩
        rw [Tx.get_bind, Tx.orRaise_bind_some hrow]
        exact Tx.bind_next (hentry.trans hrun)

/-! ## Managing -/

/-- The values of a queued management command. -/
structure ManagementValues where
  authorization : ExecutionAuthorization
  command : ExecutionCommand

namespace ManagementValues

/-- The values are those that the code computes for the stored plan. -/
structure Computed (v : ManagementValues) (env : QueueEnv) (ownerId : Uuid)
    (request : ManagementRequest) (db : Database) (plan : TradePlan) : Prop where
  fresh : ∃ snapshot, currentBrokerSnapshot env.now db ownerId plan.accountId = .ok snapshot
  authorized : currentAuthorization env db ownerId plan request.action = .ok v.authorization
  created : (createActionCommand env.now env.commandId (plan.manage v.authorization) v.authorization
    request >>= queuedCommand) = .ok v.command

/-- The database with the plan of the command. -/
def planned (v : ManagementValues) (env : QueueEnv) (row : Row Uuid TradePlanState TradePlan)
    (db : Database) : Database :=
  db.updatePlan row (row.data.manage v.authorization) "trade_plan.management_authorized" env.now

/-- The database with the command. -/
def stored (v : ManagementValues) (env : QueueEnv) (row : Row Uuid TradePlanState TradePlan)
    (ownerId : Uuid) (db : Database) : Database :=
  (v.planned env row db).withCommand env.toEnv ownerId v.command

@[simp] theorem stored_plans (v : ManagementValues) (env : QueueEnv)
    (row : Row Uuid TradePlanState TradePlan) (ownerId : Uuid) (db : Database) :
    (v.stored env row ownerId db).tradePlans = (v.planned env row db).tradePlans :=
  withCommand_plans _ _ _ _

theorem stored_commands (v : ManagementValues) (env : QueueEnv)
    (row : Row Uuid TradePlanState TradePlan) {ownerId : Uuid} {db : Database}
    (h : Storable db ownerId v.command) : (v.stored env row ownerId db).commands = db.commands ∨
      ((∀ row ∈ db.commands, row.id ≠ v.command.id) ∧
        keyedCommand? db ownerId v.command.idempotencyKey = none ∧
        (v.stored env row ownerId db).commands =
          db.commands ++ [commandRow env.toEnv ownerId v.command]) := by
  have hsame : Storable (v.planned env row db) ownerId v.command := h
  exact withCommand_commands hsame env.toEnv

@[simp] theorem stored_permissions (v : ManagementValues) (env : QueueEnv)
    (row : Row Uuid TradePlanState TradePlan) (ownerId : Uuid) (db : Database) :
    (v.stored env row ownerId db).permissionProfiles = db.permissionProfiles :=
  withCommand_permissions _ _ _ _

@[simp] theorem stored_switches (v : ManagementValues) (env : QueueEnv)
    (row : Row Uuid TradePlanState TradePlan) (ownerId : Uuid) (db : Database) :
    (v.stored env row ownerId db).killSwitches = db.killSwitches :=
  withCommand_switches _ _ _ _

end ManagementValues

/-- The database with the command of a plan that the caller holds, stored in the row of its id. -/
def ManagementValues.storedFor (v : ManagementValues) (env : QueueEnv)
    (row : Row Uuid TradePlanState TradePlan) (plan : TradePlan) (ownerId : Uuid) (db : Database) :
    Database :=
  (db.updatePlan row (plan.manage v.authorization) "trade_plan.management_authorized"
    env.now).withCommand env.toEnv ownerId v.command

section
variable {env : QueueEnv} {ownerId : Uuid} {request : ManagementRequest} {db : Database}
  {plan : TradePlan} {row : Row Uuid TradePlanState TradePlan}

/-- A management command that can be authorized and stored is. -/
theorem authorizeAndQueueManagement_stores {v : ManagementValues}
    (h : v.Computed env ownerId request db plan)
    (hrow : Table.get? db.tradePlans plan.id ownerId = some row)
    (hstorable : Storable db ownerId v.command) :
    authorizeAndQueueManagement env ownerId plan request db =
      ⟨.ok (persistedRecord (v.storedFor env row plan ownerId db) ownerId v.command),
        v.storedFor env row plan ownerId db, []⟩ := by
  obtain ⟨snapshot, hfresh⟩ := h.fresh
  obtain ⟨created, hcreated, hqueued⟩ := ok_of_bind h.created
  have hsame : Storable (db.updatePlan row (plan.manage v.authorization)
      "trade_plan.management_authorized" env.now) ownerId v.command := hstorable
  rw [authorizeAndQueueManagement, Tx.get_bind, Tx.lift_bind_ok hfresh, Tx.lift_bind_ok h.authorized,
    Tx.orRaise_bind_some hrow, Tx.modify_bind, Tx.lift_bind_ok hcreated, Tx.lift_bind_ok hqueued]
  rcases persistCommand_run env.toEnv ownerId v.command (db.updatePlan row
    (plan.manage v.authorization) "trade_plan.management_authorized" env.now) with ⟨-, hrun⟩ | ⟨hnot, -⟩
  · exact Tx.bind_next hrun
  · exact absurd hsame hnot

/-- Any other is refused. -/
theorem authorizeAndQueueManagement_refused (request : ManagementRequest)
    (hrow : Table.get? db.tradePlans plan.id ownerId = some row)
    (h : ∀ v : ManagementValues, v.Computed env ownerId request db plan →
      ¬Storable db ownerId v.command) :
    ∃ e s, authorizeAndQueueManagement env ownerId plan request db = ⟨.error e, s, []⟩ := by
  rw [authorizeAndQueueManagement, Tx.get_bind]
  cases hfresh : currentBrokerSnapshot env.now db ownerId plan.accountId with
  | error e => exact ⟨e, _, Tx.lift_bind_error rfl _ _⟩
  | ok snapshot =>
    rw [Tx.lift_bind_ok rfl]
    cases hauthorized : currentAuthorization env db ownerId plan request.action with
    | error e => exact ⟨e, _, Tx.lift_bind_error rfl _ _⟩
    | ok authorization =>
      rw [Tx.lift_bind_ok rfl, Tx.orRaise_bind_some hrow, Tx.modify_bind]
      cases hcreated : createActionCommand env.now env.commandId (plan.manage authorization)
        authorization request with
      | error e => exact ⟨e, _, Tx.lift_bind_error rfl _ _⟩
      | ok created =>
        rw [Tx.lift_bind_ok rfl]
        cases hqueued : queuedCommand created with
        | error e => exact ⟨e, _, Tx.lift_bind_error rfl _ _⟩
        | ok command =>
          rw [Tx.lift_bind_ok rfl]
          have hboth : (createActionCommand env.now env.commandId (plan.manage authorization)
              authorization request >>= queuedCommand) = .ok command := by
            rw [hcreated]
            exact hqueued
          have hnot : ¬Storable (db.updatePlan row (plan.manage authorization)
              "trade_plan.management_authorized" env.now) ownerId command :=
            h ⟨authorization, command⟩ ⟨⟨snapshot, hfresh⟩, hauthorized, hboth⟩
          obtain ⟨e, hrun⟩ := persistedCommand_refused hnot env.toEnv
          exact ⟨e, _, hrun⟩

end

theorem authorizeAndQueueManagement_cases (env : QueueEnv) (ownerId : Uuid)
    (request : ManagementRequest) {db : Database} {row : Row Uuid TradePlanState TradePlan}
    (hrow : Table.get? db.tradePlans row.data.id ownerId = some row) :
    (∃ e s, authorizeAndQueueManagement env ownerId row.data request db = ⟨.error e, s, []⟩) ∨
    ∃ (v : ManagementValues) (record : _), v.Computed env ownerId request db row.data ∧
      Storable db ownerId v.command ∧ authorizeAndQueueManagement env ownerId row.data request db =
        ⟨.ok record, v.stored env row ownerId db, []⟩ := by
  by_cases h : ∃ v : ManagementValues, v.Computed env ownerId request db row.data ∧
      Storable db ownerId v.command
  · obtain ⟨v, hcomputed, hstorable⟩ := h
    exact .inr ⟨v, _, hcomputed, hstorable,
      authorizeAndQueueManagement_stores hcomputed hrow hstorable⟩
  · exact .inl (authorizeAndQueueManagement_refused request hrow fun v hcomputed hstorable =>
      h ⟨v, hcomputed, hstorable⟩)

/-- A management request is refused, or authorized and stored. -/
theorem manageTask_cases (env : QueueEnv) (ownerId planId : Uuid) (request : ManagementRequest)
    {db : Database} (hk : PlansKeyed db) :
    (∃ e, manageTask env ownerId planId request db = ⟨.error e, db, []⟩) ∨
    ∃ (row : Row Uuid TradePlanState TradePlan) (v : ManagementValues) (record : _),
      Table.get? db.tradePlans planId ownerId = some row ∧ request.action ≠ .placeOrder ∧
      v.Computed env ownerId request db row.data ∧ Storable db ownerId v.command ∧
      manageTask env ownerId planId request db = ⟨.ok record, v.stored env row ownerId db, []⟩ := by
  unfold manageTask
  by_cases haction : request.action = .placeOrder
  · refine .inl ⟨.httpError 422 "entry uses Trade Plans", Tx.unitOfWork_of_error (r := db) ?_⟩
    exact Tx.require_bind_neg (fun h => h haction) _ _ _
  cases hrow : Table.get? db.tradePlans planId ownerId with
  | none =>
    refine .inl ⟨.httpError 404 "Trade Plan not found", Tx.unitOfWork_of_error (r := db) ?_⟩
    rw [Tx.require_bind_pos haction, Tx.get_bind, Tx.orRaise_bind_none hrow]
  | some row =>
    rcases authorizeAndQueueManagement_cases env ownerId request (hk.found_own hrow) with ⟨e, s, hrun⟩ |
      ⟨v, record, hcomputed, hstorable, hrun⟩
    · refine .inl ⟨e, Tx.unitOfWork_of_error (r := s) ?_⟩
      rw [Tx.require_bind_pos haction, Tx.get_bind, Tx.orRaise_bind_some hrow, hrun]
    · refine .inr ⟨row, v, record, rfl, haction, hcomputed, hstorable, Tx.unitOfWork_of_ok ?_⟩
      rw [Tx.require_bind_pos haction, Tx.get_bind, Tx.orRaise_bind_some hrow, hrun]

end Matrades

import Matrades.Routes.ManagementActions
import Matrades.Trading.Proof.QueueTwice
import Matrades.Trading.Proof.Freshness
import Matrades.Trading.Proof.OneAuthorization

/-!
# Repeated management actions

The recommendation of an action is created under an id computed from the request, so a repetition meets
its own primary key and raises, whatever the command store would have answered. A list of equal requests
is idempotent exactly if it has one request and that one is accepted (`requests_idempotent_iff`).
-/

namespace Matrades

open Base

/-! ## Idempotence -/

/-- The id of the action that the request asks for. -/
def ActionEnv.requested (env : ActionEnv) (ownerId : Uuid) (payload : ManagementActionInput) : Uuid :=
  env.actionId ownerId payload.tradePlanId payload

/-- The store that a request leaves. -/
def actionStep (ownerId : Uuid) (payload : ManagementActionInput) (s : ActionStore) (env : ActionEnv) :
    ActionStore :=
  (queueManagementAction env ownerId payload s).state

/-- The request returns the command. -/
def Answers (ownerId : Uuid) (payload : ManagementActionInput) (commandId : Uuid) (s : ActionStore)
    (env : ActionEnv) : Prop :=
  ∃ record, (queueManagementAction env ownerId payload s).result = .ok (some record) ∧
    record.id = commandId

/-- The store has one recommendation and one command of the action. -/
structure OneAction (ownerId actionId commandId : Uuid) (s : ActionStore) : Prop where
  recommendation : ∃ row, s.recommendations.filter (·.id = actionId) = [row]
  command : ∃ row, s.db.commandsWith ownerId (managementKey actionId) = [row] ∧ row.id = commandId

/-- Every request returns the one command, and they leave one recommendation and one command. -/
def RequestsIdempotent (ownerId : Uuid) (payload : ManagementActionInput) (actionId : Uuid)
    (s : ActionStore) (requests : List ActionEnv) : Prop :=
  ∃ commandId, Along (actionStep ownerId payload) (Answers ownerId payload commandId) s requests ∧
    OneAction ownerId actionId commandId (run (actionStep ownerId payload) s requests)

/-- The plan is stored and its broker snapshot fresh, the action may be authorized. -/
structure Requestable (env : QueueEnv) (ownerId planId : Uuid) (action : ExecutionAction)
    (db : Database) (row : Row Uuid TradePlanState TradePlan) : Prop where
  managed : action ≠ .placeOrder
  stored : Table.get? db.tradePlans planId ownerId = some row
  fresh : ∃ snapshot, db.Authority ownerId row.data.accountId snapshot ∧
    validateSnapshot env.now snapshot = .ok ()
  authorized : MayAuthorize env row.data action (currentPermissions db ownerId row.data.accountId)
    (currentKillSwitches db ownerId row.data.accountId).1
    (currentKillSwitches db ownerId row.data.accountId).2

/-- The action was not requested before, and its key has no command, or one with the payload. -/
structure Unrequested (ownerId : Uuid) (payload : ManagementActionInput) (actionId : Uuid)
    (s : ActionStore) : Prop where
  recommendation : ∀ row ∈ s.recommendations, row.id ≠ actionId
  command : s.db.commandsWith ownerId (managementKey actionId) = [] ∨
    ∃ row, s.db.commandsWith ownerId (managementKey actionId) = [row] ∧
      Json.eqvDict row.data.command.requestedPostcondition payload.requestedPostcondition = true

/-! ## The command of a request -/

theorem managementKey_length (actionId : Uuid) : 8 ≤ (managementKey actionId).length := by
  show 8 ≤ ("management:" ++ actionId.str).length
  rw [String.length_append]
  have hprefix : "management:".length = 11 := rfl
  omega

/-- The command of an action that may be authorized. -/
theorem managed_command (env : QueueEnv) (plan : TradePlan) (permissions : ExecutionPermissionProfile)
    (platformKill accountKill : KillSwitchState) (payload : ManagementActionInput) (actionId : Uuid) :
    let authorization := newAuthorization env plan payload.action permissions platformKill accountKill
    ∃ command, (createActionCommand env.now env.commandId (plan.manage authorization) authorization
      (payload.request actionId) >>= queuedCommand) = .ok command := by
  intro authorization
  have haccount : ¬authorization.accountId ≠ (plan.manage authorization).accountId := not_not.2 rfl
  have hexpires : ¬authorization.expiresAt ≤ env.now := by
    show ¬env.now + authorizationTtl ≤ env.now
    simp [authorizationTtl, second]
  have hlength : ¬(payload.request actionId).idempotencyKey.length < 8 :=
    not_lt.2 (managementKey_length actionId)
  unfold createActionCommand
  rw [if_neg haccount, if_neg hexpires, if_neg hlength]
  exact ⟨_, (bind_ok_eq rfl _).trans (queuedCommand_ok rfl)⟩

/-- The record of a stored command: a new one is the only one with its key, and an old one carries the
payload. -/
theorem withCommand_keyed {db : Database} {ownerId : Uuid} {command : ExecutionCommand}
    (hid : ∀ row ∈ db.commands, row.id ≠ command.id) (hstorable : Storable db ownerId command)
    (env : Env) :
    let stored := db.withCommand env ownerId command
    ∃ record, persistedRecord stored ownerId command = some record ∧
      ((db.commandsWith ownerId command.idempotencyKey = [] ∧
          stored.commandsWith ownerId command.idempotencyKey = [record]) ∨
        (record ∈ db.commandsWith ownerId command.idempotencyKey ∧ SamePayload record command ∧
          stored.commandsWith ownerId command.idempotencyKey =
            db.commandsWith ownerId command.idempotencyKey)) := by
  intro stored
  have hget : Table.get? db.commands command.id ownerId = none := by
    refine List.find?_eq_none.2 fun row hrow => ?_
    simp [hid row hrow]
  cases hkeyed : keyedCommand? db ownerId command.idempotencyKey with
  | none =>
    have hcommands : stored.commands = db.commands ++ [commandRow env ownerId command] :=
      withCommand_new hid hkeyed env
    have hnone := keyedCommand?_eq_none.1 hkeyed
    refine ⟨commandRow env ownerId command, ?_, .inl ⟨hnone, ?_⟩⟩
    · have hfound : Table.get? stored.commands command.id ownerId =
          some (commandRow env ownerId command) := by
        unfold Table.get? at hget ⊢
        rw [hcommands, List.find?_append, hget]
        simp [commandRow]
      rw [persistedRecord, hfound]
      rfl
    · unfold Database.commandsWith at hnone ⊢
      rw [hcommands, List.filter_append, hnone]
      simp [commandRow]
  | some item =>
    have hrecord : persistedRecord db ownerId command = some item := by
      rw [persistedRecord, hget, Option.none_or]
      exact hkeyed
    have hsame : stored = db := by
      show db.withCommand env ownerId command = db
      rw [Database.withCommand, hrecord]
      rfl
    have hitem : item ∈ db.commandsWith ownerId command.idempotencyKey := by
      have hlisted := Table.mem_listed.1 (List.mem_of_find?_eq_some hkeyed)
      exact mem_commandsWith.2 ⟨hlisted.1, hlisted.2.1, by simpa using List.find?_some hkeyed⟩
    have hpayload : SamePayload item command := by
      unfold Storable at hstorable
      rw [hget, hkeyed] at hstorable
      exact hstorable
    rw [hsame]
    exact ⟨item, hrecord, .inr ⟨hitem, hpayload, rfl⟩⟩

/-! ## One request -/

section
variable {env : ActionEnv} {ownerId : Uuid} {payload : ManagementActionInput} {s : ActionStore}

/-- The store with the recommendation of the request. -/
def ActionStore.selected (s : ActionStore) (env : ActionEnv) (ownerId planId : Uuid)
    (payload : ManagementActionInput) : ActionStore :=
  s.addRecommendation env.now ownerId (env.actionId ownerId planId payload) (payload.record planId)

/-- The store that an accepted request leaves. -/
def ActionStore.acted (s : ActionStore) (env : ActionEnv) (ownerId : Uuid)
    (payload : ManagementActionInput) (row : Row Uuid TradePlanState TradePlan) (v : ManagementValues)
    (record : Option (Row Uuid CommandState CommandData)) : ActionStore :=
  let selected := s.selected env ownerId row.data.id payload
  (selected.withDatabase (v.stored env.toQueueEnv row ownerId selected.db)).queueRecommendation env.now
    ownerId (env.actionId ownerId row.data.id payload)
    { payload.record row.data.id with executionCommandId := record.map (·.id) }

/-- What an accepted request meets. -/
structure AcceptsAction (env : ActionEnv) (ownerId : Uuid) (payload : ManagementActionInput)
    (s : ActionStore) (row : Row Uuid TradePlanState TradePlan) (v : ManagementValues) : Prop where
  managed : payload.action ≠ .placeOrder
  found : Table.get? s.db.tradePlans payload.tradePlanId ownerId = some row
  created : ∀ r ∈ s.recommendations, r.id ≠ env.actionId ownerId row.data.id payload
  computed : v.Computed env.toQueueEnv ownerId
    (payload.request (env.actionId ownerId row.data.id payload)) s.db row.data
  storable : Storable s.db ownerId v.command

/-- A request is refused and leaves the store, or is accepted. -/
theorem queueManagementAction_cases (env : ActionEnv) (ownerId : Uuid)
    (payload : ManagementActionInput) (hk : PlansKeyed s.db) :
    (∃ e, queueManagementAction env ownerId payload s = ⟨.error e, s, []⟩) ∨
    ∃ row v, AcceptsAction env ownerId payload s row v := by
  unfold queueManagementAction
  by_cases hmanaged : payload.action = .placeOrder
  · refine .inl ⟨.httpError 422 "entry uses Trade Plans", Tx.unitOfWork_of_error (r := s) ?_⟩
    exact Tx.require_bind_neg (not_not.2 hmanaged) _ _ _
  cases hrow : Table.get? s.db.tradePlans payload.tradePlanId ownerId with
  | none =>
    refine .inl ⟨.httpError 404 "Trade Plan not found", Tx.unitOfWork_of_error (r := s) ?_⟩
    rw [Tx.require_bind_pos hmanaged, Tx.get_bind, Tx.orRaise_bind_none hrow]
  | some row =>
    by_cases hnew : ∀ r ∈ s.recommendations, r.id ≠ env.actionId ownerId row.data.id payload
    · let selected := s.selected env ownerId row.data.id payload
      have hfound : Table.get? selected.db.tradePlans row.data.id ownerId = some row :=
        hk.found_own hrow
      rcases authorizeAndQueueManagement_cases env.toQueueEnv ownerId
        (payload.request (env.actionId ownerId row.data.id payload)) hfound with
        ⟨e, db', hrun⟩ | ⟨v, record, hcomputed, hstorable, -⟩
      · refine .inl ⟨e, Tx.unitOfWork_of_error (r := selected.withDatabase db') ?_⟩
        rw [Tx.require_bind_pos hmanaged, Tx.get_bind, Tx.orRaise_bind_some hrow,
          Tx.require_bind_pos hnew, Tx.modify_bind]
        exact Tx.zoom_bind_error _ _ hrun
      · exact .inr ⟨row, v, hmanaged, hrow, hnew, ⟨hcomputed.fresh, hcomputed.authorized, hcomputed.created⟩,
          hstorable⟩
    · refine .inl ⟨.infrastructure, Tx.unitOfWork_of_error (r := s) ?_⟩
      rw [Tx.require_bind_pos hmanaged, Tx.get_bind, Tx.orRaise_bind_some hrow,
        Tx.require_bind_neg hnew]

/-- An accepted request returns the record of its command. -/
theorem queueManagementAction_accepts {row : Row Uuid TradePlanState TradePlan}
    {v : ManagementValues} (h : AcceptsAction env ownerId payload s row v) (hk : PlansKeyed s.db) :
    let record := persistedRecord (v.stored env.toQueueEnv row ownerId
      (s.selected env ownerId row.data.id payload).db) ownerId v.command
    queueManagementAction env ownerId payload s =
      ⟨.ok record, s.acted env ownerId payload row v record, []⟩ := by
  intro record
  let selected := s.selected env ownerId row.data.id payload
  have hfound : Table.get? selected.db.tradePlans row.data.id ownerId = some row :=
    hk.found_own h.found
  have hcomputed : v.Computed env.toQueueEnv ownerId
      (payload.request (env.actionId ownerId row.data.id payload)) selected.db row.data :=
    ⟨h.computed.fresh, h.computed.authorized, h.computed.created⟩
  have hstorable : Storable selected.db ownerId v.command := h.storable
  refine Tx.unitOfWork_of_ok ?_
  rw [Tx.require_bind_pos h.managed, Tx.get_bind, Tx.orRaise_bind_some h.found,
    Tx.require_bind_pos h.created, Tx.modify_bind]
  exact (Tx.zoom_bind_next _ _ (authorizeAndQueueManagement_stores hcomputed hfound hstorable)).trans
    (Tx.modify_bind _ _ _)

end

/-! ## Repetitions -/

section
variable {env : ActionEnv} {ownerId : Uuid} {payload : ManagementActionInput} {s : ActionStore}
  {row : Row Uuid TradePlanState TradePlan} {v : ManagementValues}

theorem AcceptsAction.requested (h : AcceptsAction env ownerId payload s row v) (hk : PlansKeyed s.db) :
    env.actionId ownerId row.data.id payload = env.requested ownerId payload := by
  rw [hk.data_id h.found]
  rfl

/-- An accepted request is returned by none but accepted ones. -/
theorem Answers.accepted {commandId : Uuid} (h : Answers ownerId payload commandId s env)
    (hk : PlansKeyed s.db) : ∃ row v, AcceptsAction env ownerId payload s row v := by
  obtain ⟨record, hresult, -⟩ := h
  rcases queueManagementAction_cases env ownerId payload hk with ⟨e, hrun⟩ | haccepts
  · rw [hrun] at hresult
    cases hresult
  · exact haccepts

theorem acted_plansKeyed (h : AcceptsAction env ownerId payload s row v) (hk : PlansKeyed s.db)
    (record : Option (Row Uuid CommandState CommandData)) :
    PlansKeyed (s.acted env ownerId payload row v record).db := by
  have hmem := (Table.get?_spec h.found).1
  obtain ⟨hid, howner⟩ := hk.same row hmem
  have hselected : PlansKeyed (s.selected env ownerId row.data.id payload).db := hk.of_plans rfl
  have hupdated := @PlansKeyed.update _ hselected row hmem (row.data.manage v.authorization) hid howner
    "trade_plan.management_authorized" env.now
  exact hupdated.of_plans (ManagementValues.stored_plans v _ _ _ _)

/-- The recommendation of an accepted request is the one with its id. -/
theorem acted_recommendations (h : AcceptsAction env ownerId payload s row v)
    (record : Option (Row Uuid CommandState CommandData)) :
    ∃ r, (s.acted env ownerId payload row v record).recommendations.filter
      (·.id = env.actionId ownerId row.data.id payload) = [r] := by
  have hold : s.recommendations.filter (·.id = env.actionId ownerId row.data.id payload) = [] := by
    refine List.filter_eq_nil_iff.2 fun r hr => ?_
    simp [h.created r hr]
  let new : Row Uuid ManagementActionState ManagementAction :=
    ⟨env.actionId ownerId row.data.id payload, ownerId, .queuing, 1, payload.record row.data.id, env.now⟩
  refine ⟨Table.revised new { payload.record row.data.id with executionCommandId := record.map (·.id) }
    .queued env.now, ?_⟩
  show (Table.revise (s.recommendations ++ [new]) _ _ _ _).filter _ = _
  rw [Table.filter_revise, List.filter_append, hold]
  simp [new]

/-- The repetition of an accepted request is not answered. -/
theorem repetition_not_answered (h : AcceptsAction env ownerId payload s row v) (hk : PlansKeyed s.db)
    (record : Option (Row Uuid CommandState CommandData)) {again : ActionEnv}
    (hsame : again.actionId = env.actionId) (commandId : Uuid) :
    ¬Answers ownerId payload commandId (s.acted env ownerId payload row v record) again := by
  intro hanswers
  have hkept := acted_plansKeyed h hk record
  obtain ⟨row', v', haccepts⟩ := hanswers.accepted hkept
  obtain ⟨r, hr⟩ := acted_recommendations h record
  have hid : again.actionId ownerId row'.data.id payload =
      env.actionId ownerId row.data.id payload := by
    rw [hsame, hkept.data_id haccepts.found, hk.data_id h.found]
  obtain ⟨hmem, hrow⟩ := List.mem_filter.1 (hr ▸ List.mem_singleton_self r)
  refine haccepts.created r hmem ?_
  rw [hid]
  simpa using hrow

/-- The record of an accepted request, beside the commands of its key. -/
theorem AcceptsAction.returns (h : AcceptsAction env ownerId payload s row v) (hk : PlansKeyed s.db)
    (hid : ∀ r ∈ s.db.commands, r.id ≠ env.commandId) :
    let key := managementKey (env.requested ownerId payload)
    ∃ record, queueManagementAction env ownerId payload s =
        ⟨.ok (some record), s.acted env ownerId payload row v (some record), []⟩ ∧
      ((s.db.commandsWith ownerId key = [] ∧
          (s.acted env ownerId payload row v (some record)).db.commandsWith ownerId key = [record]) ∨
        (record ∈ s.db.commandsWith ownerId key ∧
          Json.eqvDict record.data.command.requestedPostcondition payload.requestedPostcondition = true ∧
          (s.acted env ownerId payload row v (some record)).db.commandsWith ownerId key =
            s.db.commandsWith ownerId key)) := by
  intro key
  have hcommand := createActionCommand_ok h.computed.created
  have hkey : v.command.idempotencyKey = key := by
    rw [hcommand.key, h.requested hk]
    rfl
  let planned := v.planned env.toQueueEnv row (s.selected env ownerId row.data.id payload).db
  have hnew : ∀ r ∈ planned.commands, r.id ≠ v.command.id := by
    rw [hcommand.id]
    exact hid
  have hstorable : Storable planned ownerId v.command := h.storable
  obtain ⟨record, hrecord, hcommands⟩ := withCommand_keyed hnew hstorable env.toEnv
  have hrun := queueManagementAction_accepts h hk
  rw [ManagementValues.stored, hrecord] at hrun
  refine ⟨record, hrun, ?_⟩
  rw [hkey] at hcommands
  rcases hcommands with ⟨hnone, hone⟩ | ⟨hmem, hpayload, hkept⟩
  · exact .inl ⟨hnone, hone⟩
  · refine .inr ⟨hmem, ?_, hkept⟩
    unfold SamePayload at hpayload
    rw [hcommand.payload] at hpayload
    exact hpayload

/-- A request that may be authorized and was not made before is accepted. -/
theorem accepts_of_requestable
    (h : Requestable env.toQueueEnv ownerId payload.tradePlanId payload.action s.db row)
    (hnew : Unrequested ownerId payload (env.requested ownerId payload) s) (hk : PlansKeyed s.db)
    (hid : ∀ r ∈ s.db.commands, r.id ≠ env.commandId) : ∃ v, AcceptsAction env ownerId payload s row v := by
  have hrequested : env.actionId ownerId row.data.id payload = env.requested ownerId payload := by
    rw [hk.data_id h.stored]
    rfl
  obtain ⟨snapshot, hread, hvalid⟩ := h.fresh
  obtain ⟨command, hcommand⟩ := managed_command env.toQueueEnv row.data
    (currentPermissions s.db ownerId row.data.accountId)
    (currentKillSwitches s.db ownerId row.data.accountId).1
    (currentKillSwitches s.db ownerId row.data.accountId).2 payload (env.requested ownerId payload)
  have hmanaged := createActionCommand_ok hcommand
  refine ⟨⟨_, command⟩, h.managed, h.stored, hrequested ▸ hnew.recommendation,
    ⟨⟨snapshot, currentBrokerSnapshot_passes hread hvalid⟩,
      authorizeAction_ok_iff.2 ⟨h.authorized, rfl⟩, hrequested ▸ hcommand⟩, ?_⟩
  show Storable s.db ownerId command
  have hget : Table.get? s.db.commands command.id ownerId = none := by
    refine List.find?_eq_none.2 fun r hr => ?_
    simp [hmanaged.id, hid r hr]
  unfold Storable
  rw [hget]
  cases hkeyed : keyedCommand? s.db ownerId command.idempotencyKey with
  | none => exact fun r hr => hmanaged.id ▸ hid r hr
  | some item =>
    have hlisted := Table.mem_listed.1 (List.mem_of_find?_eq_some hkeyed)
    have hitem : item ∈ s.db.commandsWith ownerId (managementKey (env.requested ownerId payload)) := by
      refine mem_commandsWith.2 ⟨hlisted.1, hlisted.2.1, ?_⟩
      have hkey : item.data.command.idempotencyKey = command.idempotencyKey := by
        simpa using List.find?_some hkeyed
      exact hkey.trans hmanaged.key
    rcases hnew.command with hnone | ⟨r, hone, hpayload⟩
    · rw [hnone] at hitem
      cases hitem
    · rw [hone] at hitem
      obtain rfl := List.mem_singleton.1 hitem
      show SamePayload item command
      unfold SamePayload
      rw [hmanaged.payload]
      exact hpayload

/-- **When equal requests are idempotent**: there is one, it may be authorized, and it was not made
before. -/
theorem requests_idempotent_iff {env : ActionEnv} {again : List ActionEnv} {ownerId : Uuid}
    {payload : ManagementActionInput} {s : ActionStore} (hk : PlansKeyed s.db)
    (hid : ∀ r ∈ s.db.commands, r.id ≠ env.commandId)
    (hsame : ∀ next ∈ again, next.actionId = env.actionId) :
    RequestsIdempotent ownerId payload (env.requested ownerId payload) s (env :: again) ↔
      again = [] ∧ (∃ row, Requestable env.toQueueEnv ownerId payload.tradePlanId payload.action s.db row) ∧
        Unrequested ownerId payload (env.requested ownerId payload) s := by
  constructor
  · intro ⟨commandId, ⟨hfirst, hrest⟩, hone⟩
    obtain ⟨row, v, haccepts⟩ := hfirst.accepted hk
    obtain ⟨record, hrun, hcommands⟩ := haccepts.returns hk hid
    have hstep : actionStep ownerId payload s env =
        s.acted env ownerId payload row v (some record) := by
      rw [actionStep, hrun]
    cases again with
    | cons next rest =>
      rw [hstep] at hrest
      exact absurd hrest.1 (repetition_not_answered haccepts hk (some record)
        (hsame next List.mem_cons_self) commandId)
    | nil =>
      rw [run, hstep, run] at hone
      refine ⟨rfl, ⟨row, haccepts.managed, haccepts.found, ?_, ?_⟩, ?_, ?_⟩
      · obtain ⟨snapshot, hsnapshot⟩ := haccepts.computed.fresh
        exact ⟨snapshot, currentBrokerSnapshot_ok hsnapshot⟩
      · exact (authorizeAction_ok_iff.1 haccepts.computed.authorized).1
      · exact haccepts.requested hk ▸ haccepts.created
      · obtain ⟨r, hr, -⟩ := hone.command
        rcases hcommands with ⟨hnone, -⟩ | ⟨hmem, hpayload, hkept⟩
        · exact .inl hnone
        · rw [hr] at hkept
          rw [← hkept] at hmem
          obtain rfl := List.mem_singleton.1 hmem
          exact .inr ⟨record, hkept.symm, hpayload⟩
  · intro ⟨hnil, ⟨row, hrequestable⟩, hnew⟩
    subst hnil
    obtain ⟨v, haccepts⟩ := accepts_of_requestable hrequestable hnew hk hid
    obtain ⟨record, hrun, hcommands⟩ := haccepts.returns hk hid
    have hstep : actionStep ownerId payload s env =
        s.acted env ownerId payload row v (some record) := by
      rw [actionStep, hrun]
    refine ⟨record.id, ⟨⟨record, by rw [hrun], rfl⟩, trivial⟩, ?_⟩
    rw [run, hstep]
    refine ⟨haccepts.requested hk ▸ acted_recommendations haccepts (some record), record, ?_, rfl⟩
    rcases hcommands with ⟨-, hone⟩ | ⟨hmem, -, hkept⟩
    · exact hone
    · show (s.acted env ownerId payload row v (some record)).db.commandsWith ownerId _ = [record]
      rw [hkept]
      rcases hnew.command with hnone | ⟨r, hone, -⟩
      · rw [hnone] at hmem
        cases hmem
      · rw [hone] at hmem ⊢
        rw [List.mem_singleton.1 hmem]

end

/-! ## An exit that is requested twice -/

def exitInput : ManagementActionInput where
  tradePlanId := .ofNat 20
  action := .fullExit
  requestedPostcondition := .ofList [("position_state", .str "CLOSED")]
  targetPositionId := some "7"

def exitEnv (now : Time) (authorizationId commandId : Nat) : ActionEnv where
  toQueueEnv := queueAt now authorizationId commandId
  actionId _ _ _ := .ofNat 70

def unmanagedStore : ActionStore := ⟨unmanagedDatabase, []⟩

/-- The plan of the store. -/
def unmanagedPlan : Row Uuid TradePlanState TradePlan :=
  { activePlanRow with data := { activePlanRow.data with authorization := none } }

theorem exit_requestable : Requestable (queueAt (104 * second) 41 31) (.ofNat 9) (.ofNat 20) .fullExit
    unmanagedDatabase unmanagedPlan where
  managed := by decide
  stored := rfl
  fresh := by
    have hok : (currentBrokerSnapshot (104 * second) unmanagedDatabase (.ofNat 9)
        unmanagedPlan.data.accountId).toOption.isSome = true := by decide
    obtain ⟨snapshot, hsnapshot⟩ := Option.isSome_iff_exists.1 hok
    exact ⟨snapshot, currentBrokerSnapshot_ok (toOption_eq_some.1 hsnapshot)⟩
  authorized := by
    refine ⟨by decide, fun haction => ?_, by decide, by decide,
      by decide, by decide⟩
    cases haction

theorem exit_idempotent : RequestsIdempotent (.ofNat 9) exitInput (.ofNat 70) unmanagedStore
    [exitEnv (104 * second) 41 31] := by
  have hnew : Unrequested (.ofNat 9) exitInput (.ofNat 70) unmanagedStore :=
    ⟨fun r hr => absurd hr List.not_mem_nil, .inl rfl⟩
  exact (requests_idempotent_iff unmanaged_plansKeyed (fun r hr => absurd hr List.not_mem_nil)
    (fun next hnext => absurd hnext List.not_mem_nil)).2 ⟨rfl, ⟨unmanagedPlan, exit_requestable⟩, hnew⟩

/-- **The repetition of an exit is an error.** -/
theorem exit_repetition_raises :
    (queueManagementAction (exitEnv (104 * second) 41 31) (.ofNat 9) exitInput unmanagedStore).result.isOk =
        true ∧
      errorOf (queueManagementAction (exitEnv (105 * second) 42 32) (.ofNat 9) exitInput
        (actionStep (.ofNat 9) exitInput unmanagedStore (exitEnv (104 * second) 41 31))).result =
          some .infrastructure ∧
      ¬RequestsIdempotent (.ofNat 9) exitInput (.ofNat 70) unmanagedStore
        [exitEnv (104 * second) 41 31, exitEnv (105 * second) 42 32] := by
  have herror : errorOf (queueManagementAction (exitEnv (105 * second) 42 32) (.ofNat 9) exitInput
      (actionStep (.ofNat 9) exitInput unmanagedStore (exitEnv (104 * second) 41 31))).result =
        some .infrastructure := by decide +kernel
  refine ⟨by decide +kernel, herror, ?_⟩
  intro ⟨commandId, hanswers, _⟩
  obtain ⟨record, hresult, -⟩ := hanswers.2.1
  rw [hresult] at herror
  cases herror

end Matrades

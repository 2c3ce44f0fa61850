import Matrades.Trading.Proof.Guard
import Matrades.Trading.Proof.Queueing
import Matrades.Worker.Proof.Management
import Matrades.Trading.Proof.SafetyEpochs
import Matrades.Worker.Proof.SubmitOnce

/-!
# One authorization for each plan

A plan stores its last authorization only, and a command passes the guard only with the authorization
it was created under. A new command passes at once (`EntryValues.bound`, `ManagementValues.bound`). A
call that writes the plan, by queueing or by blocking it, leaves every earlier command without its
authorization or without its plan state (`rewrite_unbinds`). So along a run of calls every queued and
unexpired command goes on passing where no call writes the plan while such a command is queued
(`queued_commands_valid`); two management commands in a row are enough to break it.
-/

namespace Matrades

open Base

/-! ## New commands pass -/

/-- An entry's postcondition says what the guard expects. -/
theorem entryPostcondition_expected {plan : TradePlan} (hticket : plan.ticket.isSome = true) :
    ∀ e ∈ expectedEntry plan, (entryPostcondition plan).get? e.1 = some (.str e.2) := by
  intro e he
  refine Dict.get?_ofList_mem ?_ ?_
  · simp
  · rw [if_pos hticket]
    simp only [expectedEntry, List.mem_cons, List.not_mem_nil, or_false] at he
    rcases he with rfl | rfl | rfl | rfl | rfl | rfl | rfl | rfl | rfl | rfl <;> simp

theorem entryDiffers_created {plan : TradePlan} {command : ExecutionCommand}
    (h : command.requestedPostcondition = entryPostcondition plan) :
    entryDiffers command plan = false := by
  unfold entryDiffers
  cases hticket : plan.ticket.isSome with
  | false => simp
  | true =>
    have hnone : ((expectedEntry plan).any fun e =>
        !Json.isText (command.requestedPostcondition.get? e.1) e.2) = false := by
      refine List.any_eq_false.2 fun e he => ?_
      rw [h, entryPostcondition_expected hticket e he]
      simp [Json.isText]
    rw [hnone, Bool.and_false]

/-- Is the command unexpired: its authorization, and for an entry its plan? -/
def Unexpired (now : Time) (plan : TradePlan) (command : ExecutionCommand)
    (authorization : ExecutionAuthorization) : Prop :=
  now < authorization.expiresAt ∧ (command.action = .placeOrder → now < plan.expiresAt)

/-- The plan as stored lets the command pass until it expires. -/
def Passes (db : Database) (ownerId : Uuid) (plan : TradePlan) (command : ExecutionCommand)
    (authorization : ExecutionAuthorization) : Prop :=
  plan.authorization = some authorization ∧ ∀ now, Unexpired now plan command authorization →
    currentAuthority now db ownerId command authorization plan = .ok ()

theorem passes_congr {db db' : Database} {ownerId : Uuid} {plan : TradePlan}
    {command : ExecutionCommand} {authorization : ExecutionAuthorization}
    (hswitches : db'.killSwitches = db.killSwitches)
    (hpermissions : db'.permissionProfiles = db.permissionProfiles)
    (h : Passes db ownerId plan command authorization) :
    Passes db' ownerId plan command authorization := by
  refine ⟨h.1, fun now hnow => ?_⟩
  have hkills : currentKillSwitches db' ownerId command.accountId =
      currentKillSwitches db ownerId command.accountId := by
    unfold currentKillSwitches
    rw [hswitches]
  have hprofile : currentPermissions db' ownerId command.accountId =
      currentPermissions db ownerId command.accountId := by
    unfold currentPermissions
    rw [hpermissions]
  have hpass := h.2 now hnow
  unfold currentAuthority at hpass ⊢
  rw [hkills, hprofile]
  exact hpass

/-- **A queued entry passes the guard with the plan that is stored with it.** -/
theorem EntryValues.Computed.passes {v : EntryValues} {env : QueueEnv} {key : String} {db : Database}
    {plan : TradePlan} (h : v.Computed env key db plan) :
    Passes db plan.ownerId v.queued v.command v.authorization := by
  obtain ⟨hmay, hnew⟩ := currentAuthorization_ok h.authorized
  have hcommand := authorizedEntryCommand_ok h.created
  have hqueued := h.queued_eq
  have haction : v.command.action = .placeOrder := by
    rw [hcommand.action, hnew]
    rfl
  have haccount : v.command.accountId = plan.accountId := hcommand.account
  have hpayload : v.command.requestedPostcondition = entryPostcondition v.queued := by
    rw [hcommand.payload, hqueued]
    rfl
  have hdiffers : entryDiffers v.command v.queued = false := entryDiffers_created hpayload
  rw [hqueued] at hdiffers ⊢
  refine ⟨rfl, fun now hnow => ?_⟩
  unfold currentAuthority
  refine assertCommandAuthority_ok_iff.2 ?_
  rw [haccount]
  exact {
    account := hcommand.account.trans hcommand.sameAccount.symm
    planAccount := hcommand.account
    bound := hcommand.bound
    unexpired := hnow.1
    planUnexpired := hnow.2
    planState := by
      rw [haction]
      exact List.mem_cons_of_mem _ List.mem_cons_self
    action := hcommand.action.symm
    risk := hmay.risk
    entry := hdiffers
    allowed := haction ▸ hmay.allowed
    platformOff := hmay.platformOff
    accountOff := hmay.accountOff
    platformEpoch := by
      rw [hnew]
      rfl
    accountEpoch := by
      rw [hnew]
      rfl }

/-- **A queued management command passes the guard with the plan that is stored with it.** -/
theorem ManagementValues.Computed.passes {v : ManagementValues} {env : QueueEnv} {ownerId : Uuid}
    {request : ManagementRequest} {db : Database} {plan : TradePlan}
    (h : v.Computed env ownerId request db plan) (hmanages : request.action ≠ .placeOrder) :
    Passes db ownerId (plan.manage v.authorization) v.command v.authorization := by
  obtain ⟨hmay, hnew⟩ := currentAuthorization_ok h.authorized
  have hcommand := createActionCommand_ok h.created
  have hauthorized : v.authorization.action = request.action := by
    rw [hnew]
    rfl
  have haction : v.command.action = request.action := hcommand.action.trans hauthorized
  have haccount : v.command.accountId = plan.accountId := hcommand.account
  have hstate : (plan.manage v.authorization).state = plan.state :=
    if_neg (hauthorized ▸ hmanages)
  have hallowed : allowedPlanStates request.action = eligiblePlanStates request.action := by
    cases hrequest : request.action with
    | placeOrder => exact absurd hrequest hmanages
    | _ => rfl
  refine ⟨rfl, fun now hnow => ?_⟩
  unfold currentAuthority
  refine assertCommandAuthority_ok_iff.2 ?_
  rw [haccount]
  exact {
    account := by
      rw [haccount, hnew]
      rfl
    planAccount := haccount
    bound := hcommand.bound
    unexpired := hnow.1
    planUnexpired := hnow.2
    planState := by
      rw [hstate, haction, hallowed]
      exact hmay.eligible
    action := hcommand.action.symm
    risk := hmay.risk
    entry := by
      unfold entryDiffers
      rw [haction]
      simp [hmanages]
    allowed := haction ▸ hmay.allowed
    platformOff := hmay.platformOff
    accountOff := hmay.accountOff
    platformEpoch := by
      rw [hnew]
      rfl
    accountEpoch := by
      rw [hnew]
      rfl }

/-! ## The calls on a plan -/

structure PlanCalls where
  db : Database
  /-- The commands that the calls stored, with the authorizations they were created under. -/
  issued : List (Uuid × ExecutionAuthorization)
  /-- The time of the last call. -/
  clock : Time

namespace PlanCalls

/-- No call yet. -/
def start (db : Database) : PlanCalls := ⟨db, [], 0⟩

inductive Label
  | entry (env : QueueEnv)
  | manage (env : QueueEnv) (request : ManagementRequest)
  /-- A worker leases a command: it is queued no longer. -/
  | lease (env : TaskEnv) (commandId : Uuid)

section
variable (ownerId planId : Uuid)

def plan? (db : Database) : Option (Row Uuid TradePlanState TradePlan) :=
  Table.get? db.tradePlans planId ownerId

/-- The ids of the commands that were not there before. -/
def newCommands (before after : Database) : List Uuid :=
  (after.commands.map (·.id)).filter fun id => id ∉ before.commands.map (·.id)

/-- After a call; a new command's authorization is the one that the call stored. -/
def after (s : PlanCalls) (now : Time) (db : Database) : PlanCalls where
  db := db
  issued := ((plan? ownerId planId db).bind (·.data.authorization)).toList.flatMap
    (fun authorization => (newCommands s.db db).map (·, authorization)) ++ s.issued
  clock := max s.clock now

def step (s : PlanCalls) : Label → PlanCalls
  | .entry env => s.after ownerId planId env.now (queuePlan env ownerId planId s.db).state
  | .manage env request =>
    s.after ownerId planId env.now (manageTask env ownerId planId request s.db).state
  | .lease env commandId => { s with db := (leaseTask env ownerId commandId s.db).state }

/-- A command that a call stored, queued and unexpired. -/
structure Waiting (s : PlanCalls) (now : Time) (plan : TradePlan)
    (row : Row Uuid CommandState CommandData) (authorization : ExecutionAuthorization) : Prop where
  listed : row ∈ s.db.commands
  queued : row.state = .queued
  issued : (row.id, authorization) ∈ s.issued
  unexpired : Unexpired now plan row.data.command authorization

/-- Every queued and unexpired command passes the guard with the plan as stored. -/
def Valid (s : PlanCalls) : Prop :=
  ∀ plan ∈ plan? ownerId planId s.db, ∀ row authorization now, s.clock ≤ now →
    s.Waiting now plan.data row authorization →
      ∃ stored ∈ plan.data.authorization,
        currentAuthority now s.db ownerId row.data.command stored plan.data = .ok ()

/-- The entry call writes the plan: its evaluation blocks it, or it can be reserved, authorized and
stored. -/
def EntryWrites (env : QueueEnv) (db : Database) (row : Row Uuid TradePlanState TradePlan) : Prop :=
  ∃ plan, decideEntry env db row.data = .ok (.block plan) ∨
    (decideEntry env db row.data = .ok (.queue plan) ∧ EntryProceeds env (entryKey row.id) db plan)

/-- The management call writes the plan: its action can be authorized and its command stored. -/
def ManagementWrites (env : QueueEnv) (request : ManagementRequest) (db : Database)
    (row : Row Uuid TradePlanState TradePlan) : Prop :=
  request.action ≠ .placeOrder ∧ ∃ v : ManagementValues,
    v.Computed env ownerId request db row.data ∧ Storable db ownerId v.command

/-- No call writes the plan while one of its commands is queued and unexpired. -/
def OneWaiting (s : PlanCalls) : Label → Prop
  | .entry env => ∀ plan ∈ plan? ownerId planId s.db, EntryWrites env s.db plan →
      ∀ row authorization, ¬s.Waiting env.now plan.data row authorization
  | .manage env request => ∀ plan ∈ plan? ownerId planId s.db,
      ManagementWrites ownerId env request s.db plan →
      ∀ row authorization, ¬s.Waiting env.now plan.data row authorization
  | .lease .. => True

end

end PlanCalls

open PlanCalls

/-! ## The invariant -/

section
variable {ownerId planId : Uuid}

structure CallsInv (ownerId planId : Uuid) (s : PlanCalls) : Prop where
  plans : PlansKeyed s.db
  stored : ∀ entry ∈ s.issued, ∃ row ∈ s.db.commands, row.id = entry.1
  passes : ∀ plan ∈ plan? ownerId planId s.db, ∀ row authorization,
    s.Waiting s.clock plan.data row authorization →
      Passes s.db ownerId plan.data row.data.command authorization

theorem callsInv_start {db : Database} (hplans : PlansKeyed db) :
    CallsInv ownerId planId (.start db) := by
  refine ⟨hplans, ?_, fun plan _ row authorization hwaiting => ?_⟩
  · simp [PlanCalls.start]
  · have hissued := hwaiting.issued
    simp [PlanCalls.start] at hissued

/-- What expires later is unexpired now. -/
theorem Unexpired.earlier {now later : Time} {plan : TradePlan} {command : ExecutionCommand}
    {authorization : ExecutionAuthorization} (h : Unexpired later plan command authorization)
    (hle : now ≤ later) : Unexpired now plan command authorization :=
  ⟨hle.trans_lt h.1, fun haction => hle.trans_lt (h.2 haction)⟩

theorem CallsInv.valid {s : PlanCalls} (hs : CallsInv ownerId planId s) :
    Valid ownerId planId s := by
  intro plan hplan row authorization now hclock hwaiting
  have hnow := hwaiting.unexpired.earlier hclock
  obtain ⟨hstored, hpass⟩ := hs.passes plan hplan row authorization
    ⟨hwaiting.listed, hwaiting.queued, hwaiting.issued, hnow⟩
  exact ⟨authorization, hstored, hpass now hwaiting.unexpired⟩

theorem mem_after_issued {s : PlanCalls} {now : Time} {db : Database}
    {entry : Uuid × ExecutionAuthorization} (h : entry ∈ (s.after ownerId planId now db).issued) :
    entry ∈ s.issued ∨ (entry.1 ∈ newCommands s.db db ∧
      ∃ plan ∈ plan? ownerId planId db, plan.data.authorization = some entry.2) := by
  rcases List.mem_append.1 h with h | h
  · obtain ⟨authorization, hstored, h⟩ := List.mem_flatMap.1 h
    obtain ⟨id, hid, rfl⟩ := List.mem_map.1 h
    obtain ⟨plan, hplan, ha⟩ := Option.bind_eq_some_iff.1 (Option.mem_toList.1 hstored)
    exact .inr ⟨hid, plan, hplan, ha⟩
  · exact .inl h

theorem mem_newCommands {before after : Database} {id : Uuid} : id ∈ newCommands before after ↔
    (∃ row ∈ after.commands, row.id = id) ∧ ∀ row ∈ before.commands, row.id ≠ id := by
  unfold newCommands
  simp

/-- Without a write the commands keep what they had. -/
theorem CallsInv.idle {s : PlanCalls} (hs : CallsInv ownerId planId s) (now : Time) :
    CallsInv ownerId planId (s.after ownerId planId now s.db) := by
  have hissued : ∀ entry ∈ (s.after ownerId planId now s.db).issued, entry ∈ s.issued := by
    intro entry hentry
    rcases mem_after_issued hentry with h | ⟨hnew, _⟩
    · exact h
    · obtain ⟨⟨row, hrow, hid⟩, hfresh⟩ := mem_newCommands.1 hnew
      exact absurd hid (hfresh row hrow)
  refine ⟨hs.plans, fun entry hentry => hs.stored entry (hissued entry hentry), ?_⟩
  intro plan hplan row authorization hwaiting
  exact hs.passes plan hplan row authorization ⟨hwaiting.listed, hwaiting.queued,
    hissued _ hwaiting.issued, hwaiting.unexpired.earlier (le_max_left _ _)⟩

/-- A write of the plan while no command waits leaves at most the new command waiting, and that
passes. -/
theorem CallsInv.write {s : PlanCalls} (hs : CallsInv ownerId planId s) {now : Time} {db : Database}
    {plan plan' : Row Uuid TradePlanState TradePlan}
    (hnone : ∀ row authorization, ¬s.Waiting now plan.data row authorization)
    (hplans : PlansKeyed db) (hplan' : plan? ownerId planId db = some plan')
    (hexpires : plan'.data.expiresAt = plan.data.expiresAt)
    (hcommands : db.commands = s.db.commands ∨ ∃ new authorization,
      (∀ row ∈ s.db.commands, row.id ≠ new.id) ∧ db.commands = s.db.commands ++ [new] ∧
        Passes db ownerId plan'.data new.data.command authorization) :
    CallsInv ownerId planId (s.after ownerId planId now db) := by
  have hlisted : ∀ row ∈ s.db.commands, row ∈ db.commands := by
    intro row hrow
    rcases hcommands with h | ⟨new, _, _, h, _⟩
    · rw [h]
      exact hrow
    · rw [h]
      exact List.mem_append_left _ hrow
  refine ⟨hplans, fun entry hentry => ?_, fun plan'' hplan'' row authorization hwaiting => ?_⟩
  · rcases mem_after_issued hentry with h | ⟨hnew, _⟩
    · obtain ⟨row, hrow, hid⟩ := hs.stored entry h
      exact ⟨row, hlisted row hrow, hid⟩
    · exact (mem_newCommands.1 hnew).1
  obtain rfl : plan'' = plan' := Option.some.inj (hplan''.symm.trans hplan')
  have hearlier : Unexpired now plan.data row.data.command authorization := by
    obtain ⟨hauthorization, hentry⟩ := hwaiting.unexpired.earlier (le_max_right s.clock now)
    exact ⟨hauthorization, fun haction => hexpires ▸ hentry haction⟩
  -- an old row is not waiting any more
  have hold : row ∉ s.db.commands := by
    intro hrow
    rcases mem_after_issued hwaiting.issued with h | ⟨hnew, _⟩
    · exact hnone row authorization ⟨hrow, hwaiting.queued, h, hearlier⟩
    · exact (mem_newCommands.1 hnew).2 row hrow rfl
  rcases hcommands with h | ⟨new, granted, hfresh, h, hpasses⟩
  · exact absurd (h ▸ hwaiting.listed) hold
  have hrow : row = new := by
    have hmem : row ∈ s.db.commands ++ [new] := h ▸ hwaiting.listed
    rcases List.mem_append.1 hmem with hmem | hmem
    · exact absurd hmem hold
    · exact List.mem_singleton.1 hmem
  subst hrow
  rcases mem_after_issued hwaiting.issued with hissued | ⟨_, found, hfound, ha⟩
  · obtain ⟨old, hmem, hid⟩ := hs.stored _ hissued
    exact absurd hid (hfresh old hmem)
  · obtain rfl : found = plan'' := Option.some.inj (hfound.symm.trans hplan')
    obtain rfl : granted = authorization := Option.some.inj (hpasses.1.symm.trans ha)
    exact hpasses

theorem CallsInv.entry {s : PlanCalls} (hs : CallsInv ownerId planId s) (env : QueueEnv)
    (hguard : OneWaiting ownerId planId s (.entry env)) :
    CallsInv ownerId planId (step ownerId planId s (.entry env)) := by
  rw [step]
  rcases queuePlan_cases env ownerId planId hs.plans with ⟨e, hrun⟩ |
    ⟨row, decision, db', result, hrow, hdecision, hstep, hrun⟩
  · rw [hrun]
    exact hs.idle env.now
  rw [hrun]
  have hmem := (Table.get?_spec hrow).1
  obtain ⟨hid, howner⟩ := hs.plans.same row hmem
  cases hstep with
  | stopped => exact hs.idle env.now
  | blocked plan =>
    have hfrom := decideEntry_from hdecision rfl
    have hsame : plan.blocked.id = row.data.id ∧ plan.blocked.ownerId = row.data.ownerId ∧
        plan.blocked.expiresAt = row.data.expiresAt := by
      rw [hfrom]
      exact ⟨rfl, rfl, rfl⟩
    refine hs.write (hguard row hrow ⟨plan, .inl hdecision⟩)
      (hs.plans.update hmem (hsame.1.trans hid) (hsame.2.1.trans howner) _ _)
      (Table.get?_revise hrow _ _ _) hsame.2.2 (.inl rfl)
  | queued plan v hcomputed hstorable =>
    have hfrom := decideEntry_from hdecision rfl
    have hsame : v.queued.id = row.data.id ∧ v.queued.ownerId = row.data.ownerId ∧
        v.queued.expiresAt = row.data.expiresAt := by
      rw [hcomputed.queued_eq, hfrom]
      exact ⟨rfl, rfl, rfl⟩
    have hplanOwner : plan.ownerId = ownerId := by
      rw [hfrom]
      exact howner.trans (Table.get?_spec hrow).2.2
    have hplans := v.stored_plans env row plan.ownerId s.db
    have hfound : plan? ownerId planId (v.stored env row plan.ownerId s.db) =
        some (Table.revised row v.queued v.queued.state env.now) := by
      rw [plan?, hplans]
      exact Table.get?_revise hrow _ _ _
    refine hs.write (hguard row hrow ⟨plan, .inr ⟨hdecision, v, hcomputed, hstorable⟩⟩)
      ((hs.plans.update hmem (hsame.1.trans hid) (hsame.2.1.trans howner) _ _).of_plans hplans)
      hfound hsame.2.2 ?_
    rcases v.stored_commands env row hstorable with h | ⟨hfresh, _, h⟩
    · exact .inl h
    · refine .inr ⟨_, v.authorization, hfresh, h, ?_⟩
      have hpasses := passes_congr (v.stored_switches env row plan.ownerId s.db)
        (v.stored_permissions env row plan.ownerId s.db) hcomputed.passes
      exact hplanOwner ▸ hpasses

theorem CallsInv.manage {s : PlanCalls} (hs : CallsInv ownerId planId s) (env : QueueEnv)
    (request : ManagementRequest) (hguard : OneWaiting ownerId planId s (.manage env request)) :
    CallsInv ownerId planId (step ownerId planId s (.manage env request)) := by
  rw [step]
  rcases manageTask_cases env ownerId planId request hs.plans with ⟨e, hrun⟩ |
    ⟨row, v, record, hrow, hmanages, hcomputed, hstorable, hrun⟩
  · rw [hrun]
    exact hs.idle env.now
  rw [hrun]
  have hmem := (Table.get?_spec hrow).1
  obtain ⟨hid, howner⟩ := hs.plans.same row hmem
  have hmanaged : (row.data.manage v.authorization).id = row.id := hid
  have hkept : PlansKeyed (v.planned env row s.db) := hs.plans.update hmem hmanaged howner _ _
  have hplans := v.stored_plans env row ownerId s.db
  have hfound : plan? ownerId planId (v.stored env row ownerId s.db) = some (Table.revised row
      (row.data.manage v.authorization) (row.data.manage v.authorization).state env.now) := by
    rw [plan?, hplans]
    exact Table.get?_revise hrow _ _ _
  refine hs.write (hguard row hrow ⟨hmanages, v, hcomputed, hstorable⟩) (hkept.of_plans hplans) hfound
    rfl ?_
  rcases v.stored_commands env row hstorable with h | ⟨hfresh, _, h⟩
  · exact .inl h
  · exact .inr ⟨_, v.authorization, hfresh, h, passes_congr
      (v.stored_switches env row ownerId s.db) (v.stored_permissions env row ownerId s.db)
      (hcomputed.passes hmanages)⟩

/-- A lease takes a command off the queue, and changes nothing else. -/
theorem CallsInv.lease {s : PlanCalls} (hs : CallsInv ownerId planId s) (env : TaskEnv)
    (commandId : Uuid) : CallsInv ownerId planId (step ownerId planId s (.lease env commandId)) := by
  rw [step]
  rcases (leaseTask_cases env s.db ownerId commandId).2 with hstate | ⟨leased, hleased, hstate⟩
  · rw [hstate]
    exact hs
  rw [hstate]
  refine ⟨hs.plans.of_plans rfl, fun entry hentry => ?_, fun plan hplan row authorization hwaiting => ?_⟩
  · obtain ⟨row, hrow, hid⟩ := hs.stored entry hentry
    have hids : (s.db.leaseRow env leased).commands.map (·.id) = s.db.commands.map (·.id) :=
      Table.ids_revise _ _ _ _ _
    have hmem : entry.1 ∈ (s.db.leaseRow env leased).commands.map (·.id) := by
      rw [hids]
      exact List.mem_map.2 ⟨row, hrow, hid⟩
    exact List.mem_map.1 hmem
  · rcases Table.mem_revise hwaiting.listed with ⟨hrow, _⟩ | ⟨_, hleasedState, _⟩
    · exact passes_congr rfl rfl (hs.passes plan hplan row authorization
        ⟨hrow, hwaiting.queued, hwaiting.issued, hwaiting.unexpired⟩)
    · exact absurd (hleasedState.symm.trans hwaiting.queued) (by decide)

theorem CallsInv.step {s : PlanCalls} (hs : CallsInv ownerId planId s) {l : PlanCalls.Label}
    (hguard : OneWaiting ownerId planId s l) : CallsInv ownerId planId (step ownerId planId s l) := by
  cases l with
  | entry env => exact hs.entry env hguard
  | manage env request => exact hs.manage env request hguard
  | lease env commandId => exact hs.lease env commandId

/-- **A written plan drops the waiting commands**: after a call that stores the plan with another
authorization, or in a state that lets nothing pass, a command that waited before is still queued and
unexpired, and the guard refuses it. -/
theorem CallsInv.dropped {s : PlanCalls} (hs : CallsInv ownerId planId s) {now : Time} {db : Database}
    {plan plan' : Row Uuid TradePlanState TradePlan} (hclock : s.clock ≤ now)
    (hplan : plan? ownerId planId s.db = some plan) {row : Row Uuid CommandState CommandData}
    {authorization : ExecutionAuthorization} (hwaiting : s.Waiting now plan.data row authorization)
    (hplan' : plan? ownerId planId db = some plan')
    (hexpires : plan'.data.expiresAt = plan.data.expiresAt)
    (hcommands : row ∈ db.commands)
    (hwritten : plan'.data.state = .blocked ∨
      ∀ stored ∈ plan'.data.authorization, stored.id ≠ authorization.id) :
    ¬Valid ownerId planId (s.after ownerId planId now db) := by
  intro hvalid
  have hbound : row.data.command.authorizationId = some authorization.id := by
    obtain ⟨_, hpass⟩ := hs.passes plan hplan row authorization
      ⟨hwaiting.listed, hwaiting.queued, hwaiting.issued, hwaiting.unexpired.earlier hclock⟩
    exact (assertCommandAuthority_ok_iff.1 (hpass now hwaiting.unexpired)).bound
  have hstill : (s.after ownerId planId now db).Waiting now plan'.data row authorization := by
    refine ⟨hcommands, hwaiting.queued, List.mem_append_right _ hwaiting.issued, ?_⟩
    exact ⟨hwaiting.unexpired.1, fun haction => hexpires ▸ hwaiting.unexpired.2 haction⟩
  obtain ⟨stored, hstored, hguard⟩ := hvalid plan' hplan' row authorization now
    (max_le hclock (le_refl now)) hstill
  have hauthorized := assertCommandAuthority_ok_iff.1 hguard
  rcases hwritten with hblocked | hother
  · have hstate := hauthorized.planState
    rw [hblocked] at hstate
    cases haction : row.data.command.action <;> rw [haction] at hstate <;> revert hstate <;> decide
  · refine hother stored hstored (Option.some.inj ?_)
    exact hauthorized.bound.symm.trans hbound

/-- A management call that writes the plan while a command waits drops it. -/
theorem CallsInv.manage_drops {s : PlanCalls} (hs : CallsInv ownerId planId s) {env : QueueEnv}
    {request : ManagementRequest} (hclock : s.clock ≤ env.now)
    (hfresh : ∀ entry ∈ s.issued, entry.2.id ≠ env.authorizationId)
    {plan : Row Uuid TradePlanState TradePlan} (hplan : plan? ownerId planId s.db = some plan)
    {row : Row Uuid CommandState CommandData} {authorization : ExecutionAuthorization}
    (hwaiting : s.Waiting env.now plan.data row authorization)
    (hruns : ∃ record, (manageTask env ownerId planId request s.db).result = .ok record) :
    ¬Valid ownerId planId (PlanCalls.step ownerId planId s (.manage env request)) := by
  rw [PlanCalls.step]
  obtain ⟨record, hok⟩ := hruns
  rcases manageTask_cases env ownerId planId request hs.plans with ⟨e, hrun⟩ |
    ⟨found, v, record, hrow, _, hcomputed, hstorable, hrun⟩
  · rw [hrun] at hok
    cases hok
  obtain rfl : found = plan := Option.some.inj (hrow.symm.trans hplan)
  rw [hrun]
  have hfound : plan? ownerId planId (v.stored env found ownerId s.db) = some (Table.revised found
      (found.data.manage v.authorization) (found.data.manage v.authorization).state env.now) := by
    rw [plan?, v.stored_plans env found ownerId s.db]
    exact Table.get?_revise hrow _ _ _
  refine hs.dropped hclock hplan hwaiting hfound rfl ?_ (.inr fun stored hstored hid => ?_)
  · rcases v.stored_commands env found hstorable with h | ⟨_, _, h⟩
    · exact h ▸ hwaiting.listed
    · exact h ▸ List.mem_append_left _ hwaiting.listed
  · obtain rfl : v.authorization = stored := Option.some.inj hstored
    refine hfresh _ hwaiting.issued (hid.symm.trans ?_)
    rw [(currentAuthorization_ok hcomputed.authorized).2]
    rfl

end

/-- **Queued commands stay valid while no call writes the plan over them**: in every run of entry and
management calls on one plan, with leases in between, in which no call writes the plan while one of its
commands is queued and unexpired, every queued and unexpired command passes the guard with the plan as
stored, in every state. -/
theorem queued_commands_valid (ownerId planId : Uuid) (db : Database) (hplans : PlansKeyed db)
    (ls : List PlanCalls.Label)
    (hguard : Along (PlanCalls.step ownerId planId) (OneWaiting ownerId planId) (.start db) ls) :
    States (PlanCalls.step ownerId planId) (Valid ownerId planId) (.start db) ls := by
  exact (states_of_inv (fun s l hs hl => hs.step hl) (callsInv_start hplans) hguard).mono
    fun s hs => hs.valid

/-! ## Two management commands -/

def stopLossRequest : ManagementRequest where
  action := .setOrChangeStopLoss
  postcondition := .ofList [("position_id", .str "7"), ("stop_loss", .str "1.05")]
  idempotencyKey := "management:32"
  managementActionId := .ofNat 71

/-- An exit and a new stop loss, one second apart. -/
def twoCommands : List PlanCalls.Label := [
  .manage (queueAt (104 * second) 41 31) exitRequest,
  .manage (queueAt (105 * second) 42 32) stopLossRequest]

/-- After the first of them. -/
def exitQueued : PlanCalls :=
  run (PlanCalls.step (.ofNat 9) (.ofNat 20)) (.start unmanagedDatabase) (twoCommands.take 1)

/-- The authorization of the exit. -/
def queuedExitAuthorization : ExecutionAuthorization :=
  ⟨.ofNat 41, .ofNat 1, .fullExit, 1, 0, 0, "d", 164 * second⟩

theorem unmanaged_plansKeyed : PlansKeyed unmanagedDatabase := by
  refine ⟨List.nodup_singleton _, fun row hrow => ?_⟩
  rw [List.mem_singleton.1 hrow]
  exact ⟨rfl, rfl⟩

/-- Nothing waits before the first call. -/
theorem first_oneWaiting : Along (PlanCalls.step (.ofNat 9) (.ofNat 20))
    (OneWaiting (.ofNat 9) (.ofNat 20)) (.start unmanagedDatabase) (twoCommands.take 1) := by
  refine ⟨fun plan _ _ row authorization hwaiting => ?_, trivial⟩
  have hissued := hwaiting.issued
  simp [PlanCalls.start] at hissued

/-- **The second command takes the plan's authorization from the first.** -/
theorem second_command_invalidates :
    ¬States (PlanCalls.step (.ofNat 9) (.ofNat 20)) (Valid (.ofNat 9) (.ofNat 20))
      (.start unmanagedDatabase) twoCommands := by
  intro h
  have hinv : CallsInv (.ofNat 9) (.ofNat 20) exitQueued :=
    (callsInv_start unmanaged_plansKeyed).step first_oneWaiting.1
  obtain ⟨plan, hplan⟩ : ∃ plan, plan? (.ofNat 9) (.ofNat 20) exitQueued.db = some plan :=
    Option.isSome_iff_exists.1 (by decide +kernel)
  obtain ⟨row, hrow⟩ : ∃ row, exitQueued.db.commands.head? = some row :=
    Option.isSome_iff_exists.1 (by decide +kernel)
  have hfacts : exitQueued.db.commands.head?.map (fun r => (r.id, r.state, r.data.command.action)) =
      some (.ofNat 31, .queued, .fullExit) := by decide +kernel
  rw [hrow] at hfacts
  obtain ⟨hid, hstate, haction⟩ : row.id = .ofNat 31 ∧ row.state = .queued ∧
      row.data.command.action = .fullExit := by simpa using hfacts
  have hissued : (Uuid.ofNat 31, queuedExitAuthorization) ∈ exitQueued.issued := by decide +kernel
  have hwaiting : exitQueued.Waiting (105 * second) plan.data row queuedExitAuthorization := by
    refine ⟨List.mem_of_mem_head? hrow, hstate, hid ▸ hissued, by decide, fun hentry => ?_⟩
    rw [haction] at hentry
    cases hentry
  have hruns : ((manageTask (queueAt (105 * second) 42 32) (.ofNat 9) (.ofNat 20) stopLossRequest
      exitQueued.db).result.toOption).isSome = true := by decide +kernel
  obtain ⟨record, hok⟩ := Option.isSome_iff_exists.1 hruns
  exact hinv.manage_drops (by decide +kernel) (by decide +kernel) hplan hwaiting
    ⟨record, toOption_eq_some.1 hok⟩ h.last

/-- With the exit leased in between, both commands pass. -/
theorem queued_commands_valid_leased :
    States (PlanCalls.step (.ofNat 9) (.ofNat 20)) (Valid (.ofNat 9) (.ofNat 20))
      (.start unmanagedDatabase) [
        .manage (queueAt (104 * second) 41 31) exitRequest,
        .lease { now := 104 * second, workerId := "execution-worker" } (.ofNat 31),
        .manage (queueAt (105 * second) 42 32) stopLossRequest] := by
  refine queued_commands_valid (.ofNat 9) (.ofNat 20) unmanagedDatabase unmanaged_plansKeyed _
    ⟨first_oneWaiting.1, trivial, fun plan _ _ row authorization hwaiting => ?_, trivial⟩
  have hnone : ∀ row ∈ (PlanCalls.step (.ofNat 9) (.ofNat 20) exitQueued (.lease
      { now := 104 * second, workerId := "execution-worker" } (.ofNat 31))).db.commands,
      row.state ≠ .queued := by decide +kernel
  exact hnone row hwaiting.listed hwaiting.queued

end Matrades

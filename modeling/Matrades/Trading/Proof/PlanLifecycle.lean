import Matrades.Base.Run
import Matrades.Routes.Proof.PositionCredit
import Matrades.Trading.Proof.QueueTwice
import Matrades.Trading.Proof.SafetyEpochs

/-!
# The lifecycle of a stored plan

`transition_trade_plan` checks the table of the lifecycle, but the entry's blocking, the management and
the dispatch write a plan's state themselves, and the first two write it from a plan that their caller
has loaded. A run of these calls follows the table in exactly the steps that write a state which lies
ahead of the stored one (`plan_lifecycle_iff`): an entry that is delivered again and blocked then, or a
plan that was loaded before its state went on, is written back against the table
(`redelivered_entry_blocks`).
-/

namespace Matrades

open Base

/-! ## The table -/

/-- What `_PLAN_TRANSITIONS` leads to from a state, the state included. -/
def TradePlanState.ahead (state : TradePlanState) : List TradePlanState :=
  within TradePlanState.targets 7 state

theorem leads_iff_ahead {state target : TradePlanState} :
    Leads TradePlanState.targets state target ↔ target ∈ state.ahead := by
  refine leads_iff ?_
  cases state <;> decide

theorem mem_ahead_self (state : TradePlanState) : state ∈ state.ahead := mem_within_self _ _

theorem ahead_trans {s t u : TradePlanState} (h : t ∈ s.ahead) (h' : u ∈ t.ahead) : u ∈ s.ahead :=
  leads_iff_ahead.1 ((leads_iff_ahead.2 h).trans (leads_iff_ahead.2 h'))

/-! ## The calls -/

/-- A call that stores plans or commands, as one transaction; an entry and a management get the plan from
their caller. -/
inductive PlanOp
  | persist (env : Env) (plan : TradePlan)
  | entry (env : QueueEnv) (plan : TradePlan) (idempotencyKey : Option String)
  | manage (env : QueueEnv) (plan : TradePlan) (request : ManagementRequest)
  | dispatch (env : TaskEnv) (answer : AdapterAnswer) (ownerId commandId : Uuid)
  | ingest (env : Env) (ownerId : Uuid) (snapshot : BrokerSnapshot)

namespace PlanOp

def step (db : Database) : PlanOp → Database
  | persist env plan => (Tx.unitOfWork (persistTradePlan env plan) db).state
  | entry env plan idempotencyKey =>
    (Tx.unitOfWork (authorizeAndQueueEntry env plan idempotencyKey) db).state
  | manage env plan request =>
    (Tx.unitOfWork (authorizeAndQueueManagement env plan.ownerId plan request) db).state
  | dispatch env answer ownerId commandId => (dispatchTask env answer ownerId commandId db).state
  | ingest env ownerId snapshot => (ingestBrokerSnapshot env ownerId snapshot db).state

/-- The database that the call's last write of a plan meets: an entry first stores a new plan. -/
def before (db : Database) : PlanOp → Database
  | entry env plan _ => (persistTradePlan env.toEnv plan db).state
  | _ => db

end PlanOp

/-- Every plan of both is in its old state, or in one that the table leads to. -/
def FollowsPlanTable (db db' : Database) : Prop :=
  ∀ row ∈ db.tradePlans, ∀ row' ∈ db'.tradePlans, row'.id = row.id →
    Leads TradePlanState.targets row.state row'.state

/-- No plan that has a command is written `BLOCKED`. -/
def SparesCommanded (db db' : Database) : Prop :=
  ∀ row ∈ db.tradePlans, ∀ row' ∈ db'.tradePlans, row'.id = row.id → row'.state = .blocked →
    row.state ≠ .blocked → ∀ c ∈ db.commands, c.data.command.tradePlanId ≠ some row.id

/-- The call follows the lifecycle of the plans. -/
structure PlanOp.Follows (db : Database) (op : PlanOp) : Prop where
  table : FollowsPlanTable (op.before db) (op.step db)
  spares : SparesCommanded (op.before db) (op.step db)

/-- The idempotency key of an entry. -/
def keyOf (plan : TradePlan) (idempotencyKey : Option String) : String :=
  (idempotencyKey.filter (· ≠ "")).getD (entryKey plan.id)

/-- What the entry is about to write lies ahead of the stored state: `BLOCKED` where the evaluation
blocks the plan, `EXECUTION_PENDING` where the entry can be queued. -/
def EntryAhead (env : QueueEnv) (plan : TradePlan) (key : String) (db : Database)
    (row : Row Uuid TradePlanState TradePlan) : Prop :=
  (∀ p, decideEntry env db plan = .ok (.block p) → .blocked ∈ row.state.ahead) ∧
    ∀ p, decideEntry env db plan = .ok (.queue p) → EntryProceeds env key db p →
      .executionPending ∈ row.state.ahead

/-- What the call is about to write lies ahead of the stored state; a management command writes the state
of its caller's plan, if it can be stored. -/
def PlanOp.GoesAhead (db : Database) : PlanOp → Prop
  | entry env plan idempotencyKey =>
    ∀ row ∈ Table.get? (persistTradePlan env.toEnv plan db).state.tradePlans plan.id plan.ownerId,
      EntryAhead env plan (keyOf plan idempotencyKey) (persistTradePlan env.toEnv plan db).state row
  | manage env plan request =>
    ∀ row ∈ Table.get? db.tradePlans plan.id plan.ownerId, ∀ v : ManagementValues,
      v.Computed env plan.ownerId request db plan → Storable db plan.ownerId v.command →
        (plan.authorize v.authorization).state ∈ row.state.ahead
  | _ => True

/-! ## The invariant -/

/-- Plans and commands are keyed, a plan's column has the state of its data, and the plan of every
command is stored and past being blocked. -/
structure PlansInv (db : Database) : Prop where
  plans : PlansKeyed db
  states : ∀ row ∈ db.tradePlans, row.data.state = row.state
  commands : Keyed db
  launched : ∀ c ∈ db.commands, ∀ planId ∈ c.data.command.tradePlanId,
    ∃ row ∈ db.tradePlans, row.id = planId ∧ .blocked ∉ row.state.ahead

section
variable {db db' : Database}

/-- The commands after a call: about the plans of those before, or about this plan. -/
def CommandsFrom (db db' : Database) (planId : Uuid) (launched : Prop) : Prop :=
  ∀ c' ∈ db'.commands, (∃ c ∈ db.commands, c'.data.command.tradePlanId = c.data.command.tradePlanId) ∨
    (c'.data.command.tradePlanId = some planId ∧ launched)

/-- A write of a state that lies ahead keeps the invariant. -/
theorem PlansInv.write (h : PlansInv db) {row : Row Uuid TradePlanState TradePlan}
    (hrow : row ∈ db.tradePlans) {plan : TradePlan} (hid : plan.id = row.id)
    (howner : plan.ownerId = row.ownerId) (hahead : plan.state ∈ row.state.ahead)
    {eventType : String} {now : Time}
    (hplans : db'.tradePlans = (db.updatePlan row plan eventType now).tradePlans)
    (hkeyed : Keyed db')
    (hcommands : CommandsFrom db db' row.id (.blocked ∉ plan.state.ahead)) : PlansInv db' where
  plans := (h.plans.update hrow hid howner eventType now).of_plans hplans
  states r hr := by
    rw [hplans] at hr
    rcases Table.mem_revise_row h.plans.unique hrow hr with ⟨hr, _⟩ | rfl
    · exact h.states r hr
    · rfl
  commands := hkeyed
  launched c' hc' planId hplan := by
    have hnew : Table.revised row plan plan.state now ∈ db'.tradePlans := by
      rw [hplans]
      exact Table.revised_mem hrow _ _ _
    rcases hcommands c' hc' with ⟨c, hc, hsame⟩ | ⟨hown, hlaunched⟩
    · obtain ⟨r, hr, hrid, hpast⟩ := h.launched c hc planId (hsame ▸ hplan)
      by_cases heq : r.id = row.id
      · obtain rfl := Table.row_unique h.plans.unique hr hrow heq
        exact ⟨_, hnew, hrid, fun hblocked => hpast (ahead_trans hahead hblocked)⟩
      · refine ⟨r, ?_, hrid, hpast⟩
        rw [hplans]
        exact Table.mem_revise_of_ne hr heq
    · rw [hown] at hplan
      cases hplan
      exact ⟨_, hnew, rfl, hlaunched⟩

/-- What leaves the plans alone keeps the invariant. -/
theorem PlansInv.keep (h : PlansInv db) (hplans : db'.tradePlans = db.tradePlans) (hkeyed : Keyed db')
    (hcommands : ∀ c' ∈ db'.commands, ∃ c ∈ db.commands,
      c'.data.command.tradePlanId = c.data.command.tradePlanId) : PlansInv db' where
  plans := h.plans.of_plans hplans
  states r hr := h.states r (hplans ▸ hr)
  commands := hkeyed
  launched c' hc' planId hplan := by
    obtain ⟨c, hc, hsame⟩ := hcommands c' hc'
    obtain ⟨r, hr, hrid, hpast⟩ := h.launched c hc planId (hsame ▸ hplan)
    exact ⟨r, hplans ▸ hr, hrid, hpast⟩

/-- A write follows the table exactly if its state lies ahead. -/
theorem followsPlanTable_update (h : PlansKeyed db) {row : Row Uuid TradePlanState TradePlan}
    (hrow : row ∈ db.tradePlans) {plan : TradePlan} {eventType : String} {now : Time}
    (hplans : db'.tradePlans = (db.updatePlan row plan eventType now).tradePlans) :
    FollowsPlanTable db db' ↔ plan.state ∈ row.state.ahead := by
  rw [← leads_iff_ahead]
  constructor
  · intro hfollows
    refine hfollows row hrow (Table.revised row plan plan.state now) ?_ rfl
    rw [hplans]
    exact Table.revised_mem hrow _ _ _
  · intro hleads r hr r' hr' hid
    rw [hplans] at hr'
    rcases Table.mem_revise_row h.unique hrow hr' with ⟨hr', _⟩ | rfl
    · rw [Table.row_unique h.unique hr' hr hid]
      exact Leads.refl _
    · rw [Table.row_unique h.unique hr hrow hid.symm]
      exact hleads

theorem followsPlanTable_same (h : PlansKeyed db) (hplans : ∀ row ∈ db'.tradePlans, row ∈ db.tradePlans) :
    FollowsPlanTable db db' := by
  intro r hr r' hr' hid
  rw [Table.row_unique h.unique (hplans r' hr') hr hid]
  exact Leads.refl _

/-- **Along the table no plan that has a command is written `BLOCKED`.** -/
theorem PlansInv.spares (h : PlansInv db) (hfollows : FollowsPlanTable db db') :
    SparesCommanded db db' := by
  intro row hrow row' hrow' hid hblocked hnot c hc hplan
  obtain ⟨r, hr, hrid, hpast⟩ := h.launched c hc row.id hplan
  obtain rfl := Table.row_unique h.plans.unique hr hrow hrid
  have hleads := hfollows r hrow row' hrow' hid
  rw [hblocked] at hleads
  exact hpast (leads_iff_ahead.1 hleads)

theorem PlansInv.follows_iff {op : PlanOp} (h : PlansInv (op.before db)) :
    op.Follows db ↔ FollowsPlanTable (op.before db) (op.step db) :=
  ⟨fun hfollows => hfollows.table, fun htable => ⟨htable, h.spares htable⟩⟩

/-! ## What the calls do -/

theorem keyed_stored (h : Keyed db) {command : ExecutionCommand} {env : Env} {ownerId : Uuid}
    (hcommands : db'.commands = db.commands ∨ ((∀ row ∈ db.commands, row.id ≠ command.id) ∧
      keyedCommand? db ownerId command.idempotencyKey = none ∧
      db'.commands = db.commands ++ [commandRow env ownerId command])) : Keyed db' := by
  rcases hcommands with hsame | ⟨hfresh, _, hnew⟩
  · exact (keepsRows_of_commands hsame).keyed h
  · exact (@keepsRows_of_commands (db.addCommand env ownerId command) db' hnew).keyed
      (keyed_addCommand h env ownerId hfresh)

theorem commandsFrom_stored {command : ExecutionCommand} {env : Env} {ownerId planId : Uuid}
    {launched : Prop} (hplan : command.tradePlanId = some planId) (hlaunched : launched)
    (hcommands : db'.commands = db.commands ∨ ((∀ row ∈ db.commands, row.id ≠ command.id) ∧
      keyedCommand? db ownerId command.idempotencyKey = none ∧
      db'.commands = db.commands ++ [commandRow env ownerId command])) :
    CommandsFrom db db' planId launched := by
  intro c' hc'
  rcases hcommands with hsame | ⟨_, _, hnew⟩
  · exact .inl ⟨c', hsame ▸ hc', rfl⟩
  · rw [hnew] at hc'
    rcases List.mem_append.1 hc' with hc' | hc'
    · exact .inl ⟨c', hc', rfl⟩
    · rw [List.mem_singleton.1 hc']
      exact .inr ⟨hplan, hlaunched⟩

/-- A plan is found, or stored under a new id, or refused. -/
theorem persistTradePlan_cases (env : Env) (plan : TradePlan) (db : Database) :
    (∃ row, Table.get? db.tradePlans plan.id plan.ownerId = some row ∧
      persistTradePlan env plan db = ⟨.ok row, db, []⟩) ∨
    ((∀ row ∈ db.tradePlans, row.id ≠ plan.id) ∧
      persistTradePlan env plan db = ⟨.ok (planRow env plan), db.addPlan env plan, []⟩) ∨
    (Table.get? db.tradePlans plan.id plan.ownerId = none ∧
      ∃ e, persistTradePlan env plan db = ⟨.error e, db, []⟩) := by
  cases hfound : Table.get? db.tradePlans plan.id plan.ownerId with
  | some row => exact .inl ⟨row, rfl, persistTradePlan_found hfound⟩
  | none =>
    rw [persistTradePlan, Tx.get_bind, hfound]
    dsimp only
    by_cases hfresh : ∀ row ∈ db.tradePlans, row.id ≠ plan.id
    · rw [Tx.require_bind_pos hfresh, Tx.modify_bind]
      exact .inr (.inl ⟨hfresh, rfl⟩)
    · rw [Tx.require_bind_neg hfresh]
      exact .inr (.inr ⟨rfl, _, rfl⟩)

/-- A plan that is stored is found. -/
theorem persistTradePlan_stored {env : Env} {plan : TradePlan}
    {row : Row Uuid TradePlanState TradePlan}
    (h : (persistTradePlan env plan db).result = .ok row) :
    Table.get? (persistTradePlan env plan db).state.tradePlans plan.id plan.ownerId = some row := by
  rcases persistTradePlan_cases env plan db with ⟨row', hfound, hrun⟩ | ⟨hfresh, hrun⟩ | ⟨_, e, hrun⟩
  · rw [hrun] at h ⊢
    cases h
    exact hfound
  · rw [hrun] at h ⊢
    cases h
    have hnone : db.tradePlans.find? (fun r => r.id = plan.id ∧ r.ownerId = plan.ownerId) = none :=
      List.find?_eq_none.2 fun r hr => by simp [hfresh r hr]
    show (db.tradePlans ++ [planRow env plan]).find? _ = _
    rw [List.find?_append, hnone]
    simp [planRow]
  · rw [hrun] at h
    cases h

theorem persistTradePlan_keeps (env : Env) (plan : TradePlan) (db : Database) :
    ∀ row ∈ db.tradePlans, row ∈ (persistTradePlan env plan db).state.tradePlans := by
  intro row hrow
  rcases persistTradePlan_cases env plan db with ⟨_, _, hrun⟩ | ⟨_, hrun⟩ | ⟨_, _, hrun⟩
  · rw [hrun]
    exact hrow
  · rw [hrun]
    exact List.mem_append_left _ hrow
  · rw [hrun]
    exact hrow

theorem PlansInv.persisted (h : PlansInv db) (env : Env) (plan : TradePlan) :
    PlansInv (persistTradePlan env plan db).state := by
  rcases persistTradePlan_cases env plan db with ⟨_, _, hrun⟩ | ⟨hfresh, hrun⟩ | ⟨_, _, hrun⟩
  · rw [hrun]
    exact h
  · rw [hrun]
    refine ⟨⟨?_, fun row hrow => ?_⟩, fun row hrow => ?_,
      (@keepsRows_of_commands db (db.addPlan env plan) rfl).keyed h.commands,
      fun c hc planId hplan => ?_⟩
    · show ((db.tradePlans ++ [planRow env plan]).map (·.id)).Nodup
      rw [List.map_append, List.nodup_append']
      refine ⟨h.plans.unique, List.nodup_singleton _, fun id hid hnew => ?_⟩
      obtain ⟨row, hrow, rfl⟩ := List.mem_map.1 hid
      exact hfresh row hrow (List.mem_singleton.1 hnew)
    · rcases List.mem_append.1 hrow with hrow | hrow
      · exact h.plans.same row hrow
      · rw [List.mem_singleton.1 hrow]
        exact ⟨rfl, rfl⟩
    · rcases List.mem_append.1 hrow with hrow | hrow
      · exact h.states row hrow
      · rw [List.mem_singleton.1 hrow]
        rfl
    · obtain ⟨row, hrow, hid, hpast⟩ := h.launched c hc planId hplan
      exact ⟨row, List.mem_append_left _ hrow, hid, hpast⟩
  · rw [hrun]
    exact h

/-- An entry that writes nothing of a stored plan. -/
def EntryRests (env : QueueEnv) (plan : TradePlan) (key : String) (db : Database) : Prop :=
  (∀ p, decideEntry env db plan ≠ .ok (.block p)) ∧
    ∀ p, decideEntry env db plan = .ok (.queue p) → ¬EntryProceeds env key db p

/-- An entry is refused, or decides on its plan and performs the decision. -/
theorem entry_cases (env : QueueEnv) (plan : TradePlan) (idempotencyKey : Option String)
    (db : Database) :
    let db' := (persistTradePlan env.toEnv plan db).state
    (PlanOp.step db (.entry env plan idempotencyKey) = db ∧
      ∀ row ∈ Table.get? db'.tradePlans plan.id plan.ownerId,
        EntryRests env plan (keyOf plan idempotencyKey) db') ∨
    ∃ row decision db'', Table.get? db'.tradePlans plan.id plan.ownerId = some row ∧
      decideEntry env db' plan = .ok decision ∧
      EntryStep env row (keyOf plan idempotencyKey) db' decision db'' ∧
      PlanOp.step db (.entry env plan idempotencyKey) = db'' := by
  intro db'
  cases hresult : (persistTradePlan env.toEnv plan db).result with
  | error e =>
    have hnone : Table.get? db'.tradePlans plan.id plan.ownerId = none := by
      rcases persistTradePlan_cases env.toEnv plan db with ⟨_, _, hrun⟩ | ⟨_, hrun⟩ | ⟨hnone, _, hrun⟩
      · rw [hrun] at hresult
        cases hresult
      · rw [hrun] at hresult
        cases hresult
      · show Table.get? (persistTradePlan env.toEnv plan db).state.tradePlans _ _ = none
        rw [hrun]
        exact hnone
    refine .inl ⟨?_, fun row hrow => ?_⟩
    · have herror : (authorizeAndQueueEntry env plan idempotencyKey db).result = .error e := by
        rw [authorizeAndQueueEntry, Tx.bind_run, hresult]
      show (Tx.unitOfWork _ db).state = db
      rw [Tx.unitOfWork_error herror]
    · rw [hnone] at hrow
      cases hrow
  | ok row =>
    have hfound := persistTradePlan_stored hresult
    have hpersist : persistTradePlan env.toEnv plan db = ⟨.ok row, db', []⟩ := by
      show _ = (⟨.ok row, (persistTradePlan env.toEnv plan db).state, []⟩ : Outcome _ _ _ _)
      rcases persistTradePlan_cases env.toEnv plan db with ⟨_, _, hrun⟩ | ⟨_, hrun⟩ | ⟨_, _, hrun⟩
      · rw [hrun] at hresult ⊢
        cases hresult
        rfl
      · rw [hrun] at hresult ⊢
        cases hresult
        rfl
      · rw [hrun] at hresult
        cases hresult
    have hentry : authorizeAndQueueEntry env plan idempotencyKey db =
        (Tx.lift (decideEntry env db' plan) >>=
          performEntry env row (keyOf plan idempotencyKey)) db' := by
      rw [authorizeAndQueueEntry, Tx.bind_next hpersist, Tx.get_bind]
      rfl
    cases hdecision : decideEntry env db' plan with
    | error e =>
      refine .inl ⟨?_, fun _ _ => ⟨fun p => ?_, fun p => ?_⟩⟩
      · show (Tx.unitOfWork _ db).state = db
        rw [Tx.unitOfWork_of_error (hentry.trans (Tx.lift_bind_error hdecision _ _))]
      · rw [hdecision]
        intro heq
        cases heq
      · rw [hdecision]
        intro heq
        cases heq
    | ok decision =>
      rw [Tx.lift_bind_ok hdecision] at hentry
      rcases performEntry_cases env row (keyOf plan idempotencyKey) decision db' with
        ⟨p, e, s, rfl, hrefused, hrun⟩ | ⟨records, db'', hstep, hrun⟩
      · refine .inl ⟨?_, fun _ _ => ⟨fun p' => ?_, fun p' => ?_⟩⟩
        · show (Tx.unitOfWork _ db).state = db
          rw [Tx.unitOfWork_of_error (hentry.trans hrun)]
        · rw [hdecision]
          intro heq
          cases heq
        · rw [hdecision]
          intro heq
          cases heq
          exact hrefused
      · refine .inr ⟨row, decision, db'', hfound, rfl, hstep, ?_⟩
        show (Tx.unitOfWork _ db).state = db''
        rw [Tx.unitOfWork_of_ok (hentry.trans hrun)]

theorem TradePlan.SizedFrom.id {p plan : TradePlan} (h : p.SizedFrom plan) : p.id = plan.id := by
  rw [h]

theorem TradePlan.SizedFrom.ownerId {p plan : TradePlan} (h : p.SizedFrom plan) :
    p.ownerId = plan.ownerId := by
  rw [h]

/-- **When a decision follows the table**, and what it leaves then. -/
theorem PlansInv.decided (h : PlansInv db) {env : QueueEnv} {plan : TradePlan} {key : String}
    {row : Row Uuid TradePlanState TradePlan} {decision : EntryDecision}
    (hrow : Table.get? db.tradePlans plan.id plan.ownerId = some row)
    (hdecision : decideEntry env db plan = .ok decision)
    (hstep : EntryStep env row key db decision db') :
    (FollowsPlanTable db db' ↔ EntryAhead env plan key db row) ∧
      (EntryAhead env plan key db row → PlansInv db') := by
  obtain ⟨hmem, hrid, hrowner⟩ := Table.get?_spec hrow
  unfold EntryAhead
  rw [hdecision]
  cases hstep with
  | stopped =>
    have hrests : FollowsPlanTable db db := followsPlanTable_same h.plans fun _ hr => hr
    refine ⟨iff_of_true hrests ⟨fun p heq => ?_, fun p heq => ?_⟩, fun _ => h⟩ <;> cases heq
  | blocked p =>
    have hsized := decideEntry_from hdecision rfl
    have hfollows := @followsPlanTable_update db _ h.plans row hmem p.blocked "trade_plan.blocked"
      env.now rfl
    constructor
    · rw [hfollows]
      refine ⟨fun hahead => ⟨fun _ _ => hahead, fun q heq => ?_⟩, fun hguard => hguard.1 p rfl⟩
      cases heq
    · intro hguard
      have hid : p.blocked.id = row.id := hsized.id.trans hrid.symm
      have howner : p.blocked.ownerId = row.ownerId := hsized.ownerId.trans hrowner.symm
      refine h.write hmem hid howner (hguard.1 p rfl) rfl ?_ fun c hc => .inl ⟨c, hc, rfl⟩
      exact (@keepsRows_of_commands db (db.updatePlan row p.blocked "trade_plan.blocked" env.now)
        rfl).keyed h.commands
  | queued p v hcomputed hstorable =>
    have hsized := decideEntry_from hdecision rfl
    have hqueued : v.queued.state = .executionPending := by rw [hcomputed.queued_eq]
    have hfollows := followsPlanTable_update h.plans hmem (v.stored_plans env row p.ownerId db)
    rw [hqueued] at hfollows
    constructor
    · rw [hfollows]
      refine ⟨fun hahead => ⟨fun q heq => ?_, fun _ _ _ => hahead⟩,
        fun hguard => hguard.2 p rfl ⟨v, hcomputed, hstorable⟩⟩
      cases heq
    · intro hguard
      have hahead := hguard.2 p rfl ⟨v, hcomputed, hstorable⟩
      have hcommands := v.stored_commands env row hstorable
      have hplan : v.command.tradePlanId = some row.id := by
        rw [(authorizedEntryCommand_ok hcomputed.created).planId]
        exact congrArg some (hsized.id.trans hrid.symm)
      have hid : v.queued.id = row.id := by
        rw [hcomputed.queued_eq]
        exact hsized.id.trans hrid.symm
      have howner : v.queued.ownerId = row.ownerId := by
        rw [hcomputed.queued_eq]
        exact hsized.ownerId.trans hrowner.symm
      refine h.write hmem hid howner (hqueued ▸ hahead) (v.stored_plans env row p.ownerId db)
        (keyed_stored h.commands hcommands) (commandsFrom_stored hplan ?_ hcommands)
      rw [hqueued]
      decide

theorem PlansInv.entry (h : PlansInv db) (env : QueueEnv) (plan : TradePlan)
    (idempotencyKey : Option String) :
    ((PlanOp.entry env plan idempotencyKey).Follows db ↔
      (PlanOp.entry env plan idempotencyKey).GoesAhead db) ∧
    ((PlanOp.entry env plan idempotencyKey).GoesAhead db →
      PlansInv (PlanOp.step db (.entry env plan idempotencyKey))) := by
  have hb : PlansInv (PlanOp.before db (.entry env plan idempotencyKey)) := h.persisted env.toEnv plan
  rw [hb.follows_iff]
  rcases entry_cases env plan idempotencyKey db with ⟨hstep, hrests⟩ |
    ⟨row, decision, db'', hrow, hdecision, hstep, hstate⟩
  · rw [hstep]
    refine ⟨iff_of_true ?_ fun row hrow => ?_, fun _ => h⟩
    · exact followsPlanTable_same hb.plans (persistTradePlan_keeps env.toEnv plan db)
    · obtain ⟨hblock, hqueue⟩ := hrests row hrow
      exact ⟨fun p hp => absurd hp (hblock p), fun p hp hproceeds => absurd hproceeds (hqueue p hp)⟩
  · obtain ⟨hfollows, hkeeps⟩ := PlansInv.decided hb hrow hdecision hstep
    have hguard : (PlanOp.entry env plan idempotencyKey).GoesAhead db ↔ EntryAhead env plan
        (keyOf plan idempotencyKey) (persistTradePlan env.toEnv plan db).state row := by
      refine ⟨fun hall => hall row hrow, fun hahead row' hrow' => ?_⟩
      obtain rfl : row = row' := Option.some.inj (hrow.symm.trans hrow')
      exact hahead
    rw [hstate, hguard]
    exact ⟨hfollows, hkeeps⟩

/-- A management call without a stored plan is refused. -/
theorem manage_missing {env : QueueEnv} {plan : TradePlan} {ownerId : Uuid}
    {request : ManagementRequest} (h : Table.get? db.tradePlans plan.id ownerId = none) :
    ∃ e s, authorizeAndQueueManagement env ownerId plan request db = ⟨.error e, s, []⟩ := by
  rw [authorizeAndQueueManagement, Tx.get_bind]
  cases hfresh : currentBrokerSnapshot env.now db ownerId plan.accountId with
  | error e => exact ⟨e, _, Tx.lift_bind_error rfl _ _⟩
  | ok snapshot =>
    rw [Tx.lift_bind_ok rfl]
    cases hauthorized : currentAuthorization env db ownerId plan request.action with
    | error e => exact ⟨e, _, Tx.lift_bind_error rfl _ _⟩
    | ok authorization =>
      rw [Tx.lift_bind_ok rfl, Tx.orRaise_bind_none h]
      exact ⟨_, _, rfl⟩

/-- The state that a management call writes is past being blocked. -/
theorem managed_launched {env : QueueEnv} {plan : TradePlan} {ownerId : Uuid}
    {request : ManagementRequest} {authorization : ExecutionAuthorization}
    (h : currentAuthorization env db ownerId plan request.action = .ok authorization) :
    .blocked ∉ (plan.authorize authorization).state.ahead := by
  obtain ⟨hmay, rfl⟩ := currentAuthorization_ok h
  have heligible := hmay.eligible
  show .blocked ∉ (if request.action = .placeOrder then TradePlanState.authorized else plan.state).ahead
  by_cases haction : request.action = .placeOrder
  · rw [if_pos haction]
    decide
  · rw [if_neg haction]
    have hstates : plan.state ∈ [.active, .authorized, .executionPending] := by
      revert heligible haction
      cases request.action <;> simp [eligiblePlanStates]
    simp only [List.mem_cons, List.not_mem_nil, or_false] at hstates
    rcases hstates with hs | hs | hs <;> (rw [hs]; decide)

theorem PlansInv.manage (h : PlansInv db) (env : QueueEnv) (plan : TradePlan)
    (request : ManagementRequest) :
    ((PlanOp.manage env plan request).Follows db ↔ (PlanOp.manage env plan request).GoesAhead db) ∧
    ((PlanOp.manage env plan request).GoesAhead db →
      PlansInv (PlanOp.step db (.manage env plan request))) := by
  have hb : PlansInv (PlanOp.before db (.manage env plan request)) := h
  rw [hb.follows_iff]
  show (FollowsPlanTable db _ ↔ _) ∧ _
  -- a refused call leaves everything
  have hrefused (hrun : ∃ e s, authorizeAndQueueManagement env plan.ownerId plan request db =
      ⟨.error e, s, []⟩) : PlanOp.step db (.manage env plan request) = db := by
    obtain ⟨e, s, hrun⟩ := hrun
    show (Tx.unitOfWork _ db).state = db
    rw [Tx.unitOfWork_of_error hrun]
  have hrests : FollowsPlanTable db db := followsPlanTable_same h.plans fun _ hr => hr
  cases hrow : Table.get? db.tradePlans plan.id plan.ownerId with
  | none =>
    rw [hrefused (manage_missing hrow)]
    refine ⟨iff_of_true hrests fun row hrow' => ?_, fun _ => h⟩
    rw [hrow] at hrow'
    cases hrow'
  | some row =>
    obtain ⟨hmem, hrid, hrowner⟩ := Table.get?_spec hrow
    by_cases hproceeds : ∃ v : ManagementValues, v.Computed env plan.ownerId request db plan ∧
        Storable db plan.ownerId v.command
    case neg =>
      rw [hrefused (authorizeAndQueueManagement_refused request hrow fun v hcomputed hstorable =>
        hproceeds ⟨v, hcomputed, hstorable⟩)]
      refine ⟨iff_of_true hrests fun _ _ v hcomputed hstorable => ?_, fun _ => h⟩
      exact absurd ⟨v, hcomputed, hstorable⟩ hproceeds
    obtain ⟨v, hcomputed, hstorable⟩ := hproceeds
    have hstate : PlanOp.step db (.manage env plan request) =
        v.storedFor env row plan plan.ownerId db := by
      show (Tx.unitOfWork _ db).state = _
      rw [Tx.unitOfWork_of_ok (authorizeAndQueueManagement_stores hcomputed hrow hstorable)]
    have hplans : (v.storedFor env row plan plan.ownerId db).tradePlans = (db.updatePlan row
        (plan.manage v.authorization) "trade_plan.management_authorized" env.now).tradePlans :=
      withCommand_plans _ _ _ _
    have hguard : (PlanOp.manage env plan request).GoesAhead db ↔
        (plan.authorize v.authorization).state ∈ row.state.ahead := by
      constructor
      · intro hall
        exact hall row hrow v hcomputed hstorable
      · intro hahead row' hrow' v' hcomputed' _
        obtain rfl : row = row' := Option.some.inj (hrow.symm.trans hrow')
        have hsame := hcomputed.authorized.symm.trans hcomputed'.authorized
        rw [← Except.ok.inj hsame]
        exact hahead
    have hfollows : FollowsPlanTable db (v.storedFor env row plan plan.ownerId db) ↔
        (plan.authorize v.authorization).state ∈ row.state.ahead :=
      @followsPlanTable_update db _ h.plans row hmem (plan.manage v.authorization) _ _ hplans
    rw [hstate, hguard]
    refine ⟨hfollows, fun hahead => ?_⟩
    have hcommands : (v.storedFor env row plan plan.ownerId db).commands = db.commands ∨ _ :=
      @withCommand_commands (db.updatePlan row (plan.manage v.authorization)
        "trade_plan.management_authorized" env.now) plan.ownerId v.command hstorable env.toEnv
    have hplan : v.command.tradePlanId = some row.id := by
      rw [(createActionCommand_ok hcomputed.created).planId]
      exact congrArg some hrid.symm
    have hid : (plan.manage v.authorization).id = row.id := hrid.symm
    have howner : (plan.manage v.authorization).ownerId = row.ownerId := hrowner.symm
    exact h.write hmem hid howner hahead hplans (keyed_stored h.commands hcommands)
      (commandsFrom_stored hplan (managed_launched hcomputed.authorized) hcommands)

/-- A dispatch writes a plan only from `EXECUTION_PENDING` to `EXECUTING`. -/
theorem PlansInv.dispatch (h : PlansInv db) (env : TaskEnv) (answer : AdapterAnswer)
    (ownerId commandId : Uuid) :
    FollowsPlanTable db (dispatchTask env answer ownerId commandId db).state ∧
      PlansInv (dispatchTask env answer ownerId commandId db).state := by
  have hkeyed := (keepsRows_dispatch h.commands env answer ownerId commandId).keyed h.commands
  have hrows := dispatch_rows h.commands env answer ownerId commandId
  have hsame (hplans : (dispatchTask env answer ownerId commandId db).state.tradePlans =
      db.tradePlans) : FollowsPlanTable db (dispatchTask env answer ownerId commandId db).state ∧
        PlansInv (dispatchTask env answer ownerId commandId db).state := by
    refine ⟨followsPlanTable_same h.plans fun _ hr => hplans ▸ hr,
      h.keep hplans hkeyed fun c' hc' => ?_⟩
    obtain ⟨c, hc, hintent, _⟩ := hrows c' hc'
    exact ⟨c, hc, hintent.plan⟩
  rcases dispatchTask_cases env answer ownerId commandId db with hstate |
    ⟨row, plan, authorization, outcome, hready, _, _, hstate⟩
  · exact hsame (by rw [hstate])
  obtain ⟨_, hplans⟩ := settled_plans (db.leaseRow env row) env ownerId
    ⟨leasedRow env row, plan, authorization⟩ outcome
  rw [← hstate] at hplans
  rcases hplans with hplans | ⟨hpending, hplans⟩
  · exact hsame hplans
  obtain ⟨⟨planId, _, hplan⟩, _, _⟩ := dispatchPlan_ok hready.planned
  have hmem := (Table.get?_spec hplan).1
  let executing : TradePlan := { plan.data with state := .executing, version := plan.data.version + 1 }
  have hid : executing.id = plan.id := (h.plans.same plan hmem).1
  have howner : executing.ownerId = plan.ownerId := (h.plans.same plan hmem).2
  have hexecuting : executing.state ∈ plan.state.ahead := by
    rw [← h.states plan hmem, hpending]
    show TradePlanState.executing ∈ TradePlanState.executionPending.ahead
    decide
  have hwritten : (dispatchTask env answer ownerId commandId db).state.tradePlans =
      (db.updatePlan plan executing "trade_plan.executing" env.now).tradePlans := hplans
  refine ⟨(followsPlanTable_update h.plans hmem hwritten).2 hexecuting,
    h.write hmem hid howner hexecuting hwritten hkeyed fun c' hc' => ?_⟩
  obtain ⟨c, hc, hintent, _⟩ := hrows c' hc'
  exact .inl ⟨c, hc, hintent.plan⟩

/-- An ingestion writes no plan. -/
theorem PlansInv.ingest (h : PlansInv db) (env : Env) (ownerId : Uuid) (snapshot : BrokerSnapshot) :
    FollowsPlanTable db (ingestBrokerSnapshot env ownerId snapshot db).state ∧
      PlansInv (ingestBrokerSnapshot env ownerId snapshot db).state := by
  have hplans := (ingest_sameEntries env ownerId snapshot db).plans
  have hrows := (ingest_within (keepsRows_order h.commands ownerId snapshot) env).1
  refine ⟨followsPlanTable_same h.plans fun _ hr => hplans ▸ hr,
    h.keep hplans (hrows.keyed h.commands) fun c' hc' => ?_⟩
  obtain ⟨c, hc, hintent, _⟩ := descends_ingest h.commands env ownerId snapshot c' hc'
  exact ⟨c, hc, hintent.plan⟩

theorem PlansInv.persist (h : PlansInv db) (env : Env) (plan : TradePlan) :
    FollowsPlanTable db (PlanOp.step db (.persist env plan)) ∧
      PlansInv (PlanOp.step db (.persist env plan)) := by
  have hstate : PlanOp.step db (.persist env plan) = (persistTradePlan env plan db).state := by
    show (Tx.unitOfWork _ db).state = _
    rcases persistTradePlan_cases env plan db with ⟨_, _, hrun⟩ | ⟨_, hrun⟩ | ⟨_, _, hrun⟩
    · rw [Tx.unitOfWork_of_ok hrun, hrun]
    · rw [Tx.unitOfWork_of_ok hrun, hrun]
    · rw [Tx.unitOfWork_of_error hrun, hrun]
  have hp := h.persisted env plan
  have hkeeps := persistTradePlan_keeps env plan db
  rw [hstate]
  refine ⟨fun r hr r' hr' hid => ?_, hp⟩
  rw [Table.row_unique hp.plans.unique hr' (hkeeps r hr) hid]
  exact Leads.refl _

/-- **When a call follows the table**: exactly if what it writes lies ahead. -/
theorem PlansInv.step_iff (h : PlansInv db) (op : PlanOp) : op.Follows db ↔ op.GoesAhead db := by
  have hb (hsame : op.before db = db) (hfollows : FollowsPlanTable db (op.step db)) :
      op.Follows db := by
    refine (PlansInv.follows_iff ?_).2 ?_ <;> rw [hsame]
    · exact h
    · exact hfollows
  cases op with
  | persist env plan => exact iff_of_true (hb rfl (h.persist env plan).1) trivial
  | entry env plan idempotencyKey => exact (h.entry env plan idempotencyKey).1
  | manage env plan request => exact (h.manage env plan request).1
  | dispatch env answer ownerId commandId =>
    exact iff_of_true (hb rfl (h.dispatch env answer ownerId commandId).1) trivial
  | ingest env ownerId snapshot =>
    exact iff_of_true (hb rfl (h.ingest env ownerId snapshot).1) trivial

theorem PlansInv.step (h : PlansInv db) {op : PlanOp} (hop : op.GoesAhead db) :
    PlansInv (op.step db) := by
  cases op with
  | persist env plan => exact (h.persist env plan).2
  | entry env plan idempotencyKey => exact (h.entry env plan idempotencyKey).2 hop
  | manage env plan request => exact (h.manage env plan request).2 hop
  | dispatch env answer ownerId commandId => exact (h.dispatch env answer ownerId commandId).2
  | ingest env ownerId snapshot => exact (h.ingest env ownerId snapshot).2

end

/-! ## Runs -/

/-- The database before its first plan. -/
def Database.withoutPlans (db : Database) : Database := { db with tradePlans := [], commands := [] }

theorem plansInv_start (db : Database) : PlansInv db.withoutPlans where
  plans := ⟨List.nodup_nil, fun _ h => by cases h⟩
  states _ h := by cases h
  commands := ⟨List.nodup_nil, fun _ h => by cases h⟩
  launched _ h := by cases h

/-- The ready plan, stored and queued where the limit has room for it only. -/
def queuedOnce : Database :=
  PlanOp.step (entryDatabase (1 / 10)).withoutPlans (.entry firstEntry readyRow.data none)

/-- The second delivery, with the plan as the first has stored it. -/
def deliveredAgain : PlanOp :=
  .entry secondEntry ((queuedOnce.tradePlans.map (·.data)).headD readyRow.data) none

end Matrades

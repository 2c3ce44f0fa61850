import Matrades.Worker.Proof.Lifecycle

/-!
# Which positions are credited to a command

A run of dispatches and snapshots is logged with the positions that open meanwhile: which commands were
sent, and which positions the accepted snapshots matched to a command, applied by it or not. An accepted
snapshot matches no position to an entry, for that would raise (`accepted_unnamed`); so no position is
credited to two entries, in any run (`positions_credited_once`). Commands that manage a position may well
share it (`stop_and_target_share`).
-/

namespace Matrades

open Base

/-! ## What a command keeps -/

/-- The later row is about the same intent: the same id, owner, action and plan. -/
structure SameIntent (row row' : Row Uuid CommandState CommandData) : Prop where
  id : row'.id = row.id
  owner : row'.ownerId = row.ownerId
  action : row'.data.command.action = row.data.command.action
  plan : row'.data.command.tradePlanId = row.data.command.tradePlanId

theorem SameIntent.refl (row : Row Uuid CommandState CommandData) : SameIntent row row :=
  ⟨rfl, rfl, rfl, rfl⟩

/-- Every row comes from one before, and a pending one from a pending one. -/
def DescendsFrom (db₀ db : Database) : Prop :=
  ∀ row' ∈ db.commands, ∃ row ∈ db₀.commands, SameIntent row row' ∧
    (row'.state ∈ pendingStates → row.state ∈ pendingStates)

theorem descends_order {db₀ : Database} (hk : Keyed db₀) (ownerId : Uuid) (snapshot : BrokerSnapshot) :
    CommandOrder (IngestWrite db₀ ownerId snapshot)
      fun db db' => DescendsFrom db₀ db → DescendsFrom db₀ db' where
  refl _ := id
  trans h h' hd := h' (h hd)
  frame h hd := by
    unfold DescendsFrom
    rw [h]
    exact hd
  settle {db row command} eventType now hwrite hd row' hrow' := by
    obtain ⟨q, hq, rfl⟩ := List.mem_map.1 hrow'
    obtain ⟨row₀, hrow₀, hsame, hpending⟩ := hd q hq
    split
    · rename_i hid
      obtain rfl : row₀ = row := hk.row_unique hrow₀ hwrite.listed (hsame.id.symm.trans hid)
      refine ⟨row₀, hrow₀, ⟨hsame.id, hsame.owner, ?_, ?_⟩, fun _ => ?_⟩
      · exact (congrArg ExecutionCommand.action hwrite.edited : command.action = _)
      · exact (congrArg ExecutionCommand.tradePlanId hwrite.edited : command.tradePlanId = _)
      · have hp := hwrite.pending
        simp only [isPending, Bool.and_eq_true, decide_eq_true_eq] at hp
        exact hp.1
    · exact ⟨row₀, hrow₀, hsame, hpending⟩

theorem descends_ingest {db : Database} (hk : Keyed db) (env : Env) (ownerId : Uuid)
    (snapshot : BrokerSnapshot) :
    DescendsFrom db (ingestBrokerSnapshot env ownerId snapshot db).state :=
  (ingest_within (descends_order hk ownerId snapshot) env).1
    fun row hrow => ⟨row, hrow, .refl row, id⟩

/-- A row after a dispatch: another one from before, or the one whose outcome is recorded. -/
theorem settled_row {db : Database} (hk : Keyed db) {env : TaskEnv} {ownerId : Uuid}
    {row row' : Row Uuid CommandState CommandData} (hrow : row ∈ db.commands)
    {plan : Row Uuid TradePlanState TradePlan} {authorization : ExecutionAuthorization}
    {outcome : ExecutionCommand}
    (h : row' ∈ ((db.leaseRow env row).settled env ownerId ⟨leasedRow env row, plan, authorization⟩
      outcome).commands) :
    (row' ∈ db.commands ∧ row'.id ≠ row.id) ∨ row' = Table.revised (leasedRow env row)
      { command := outcome, lease := (leasedRow env row).data.lease } outcome.state env.now := by
  rw [settled_commands] at h
  have hid : row.data.command.id = row.id := hk.same row hrow
  have hkeeps : KeepsRows db (db.leaseRow env row) := keepsRows_update _ _ _ _ hid
  have hleased : Keyed (db.leaseRow env row) := hkeeps.keyed hk
  have hmem : leasedRow env row ∈ (db.leaseRow env row).commands := Table.revised_mem hrow _ _ _
  rcases Table.mem_revise_row hleased.unique hmem h with ⟨hother, hne⟩ | hsame
  · rcases Table.mem_revise hother with hold | ⟨hsameId, _⟩
    · exact .inl hold
    · exact absurd hsameId hne
  · exact .inr hsame

/-- A dispatch changes the state of a command whose plan is stored, and of no other. -/
theorem dispatch_rows {db : Database} (hk : Keyed db) (env : TaskEnv) (answer : AdapterAnswer)
    (ownerId commandId : Uuid) :
    ∀ row' ∈ (dispatchTask env answer ownerId commandId db).state.commands, ∃ row ∈ db.commands,
      SameIntent row row' ∧ (row'.state = row.state ∨
        (commandPlan? db row.ownerId row.data.command).isSome = true) := by
  intro row' hrow'
  have hsame (hrow' : row' ∈ db.commands) : ∃ row ∈ db.commands, SameIntent row row' ∧
      (row'.state = row.state ∨ (commandPlan? db row.ownerId row.data.command).isSome = true) :=
    ⟨row', hrow', .refl row', .inl rfl⟩
  rcases dispatchTask_cases env answer ownerId commandId db with hstate |
    ⟨row, plan, authorization, outcome, hready, hfinish, _, hstate⟩
  · rw [hstate] at hrow'
    exact hsame hrow'
  rw [hstate] at hrow'
  obtain ⟨hrow, _, howner⟩ := Table.get?_spec hready.found
  rcases settled_row hk hrow hrow' with ⟨hold, _⟩ | rfl
  · exact hsame hold
  · have hintent := finishDispatch_same hfinish
    refine ⟨row, hrow, ⟨rfl, rfl, hintent.action, hintent.plan⟩, .inr ?_⟩
    rw [howner, commandPlan?, dispatchPlan_found hready.planned]
    rfl

/-! ## Pending entries have plans -/

/-- The plan of every pending entry is stored. -/
def EntriesPlanned (db : Database) : Prop :=
  ∀ row ∈ db.commands, row.state ∈ pendingStates → row.data.command.action = .placeOrder →
    (commandPlan? db row.ownerId row.data.command).isSome = true

/-- Every stored plan stays stored. -/
def KeepsPlans (db db' : Database) : Prop :=
  ∀ planId ownerId, (Table.get? db.tradePlans planId ownerId).isSome = true →
    (Table.get? db'.tradePlans planId ownerId).isSome = true

theorem KeepsPlans.command {db db' : Database} (h : KeepsPlans db db') {ownerId : Uuid}
    {command command' : ExecutionCommand} (hsame : command'.tradePlanId = command.tradePlanId)
    (hplan : (commandPlan? db ownerId command).isSome = true) :
    (commandPlan? db' ownerId command').isSome = true := by
  unfold commandPlan? at hplan ⊢
  rw [hsame]
  cases hid : command.tradePlanId with
  | none =>
    rw [hid] at hplan
    cases hplan
  | some planId =>
    rw [hid] at hplan
    exact h planId ownerId hplan

theorem keepsPlans_dispatch (db : Database) (env : TaskEnv) (answer : AdapterAnswer)
    (ownerId commandId : Uuid) :
    KeepsPlans db (dispatchTask env answer ownerId commandId db).state := by
  rcases dispatchTask_cases env answer ownerId commandId db with hstate |
    ⟨row, plan, authorization, outcome, _, _, _, hstate⟩
  · rw [hstate]
    exact fun _ _ h => h
  rw [hstate]
  intro planId owner hplan
  unfold Database.settled
  dsimp only
  have hmoved : ((db.leaseRow env row).recordOutcome env (leasedRow env row) outcome
      |>.settleReserved env ownerId plan.data outcome).tradePlans = db.tradePlans := by
    unfold Database.settleReserved
    split <;> rfl
  split
  · unfold Database.executePlan Database.updatePlan Database.audit
    rw [hmoved]
    exact Table.get?_isSome_revise hplan
  · rw [hmoved]
    exact hplan

/-! ## What an accepted snapshot matches -/

theorem reconcileRow_commandId {snapshot : BrokerSnapshot} {positions : List TypedPosition}
    {command : ExecutionCommand} {found : List TypedOrder × ReconciliationRecord}
    (h : reconcileRow snapshot positions command = .ok found) : found.2.commandId = command.id := by
  obtain ⟨orders, _, h⟩ := ok_of_bind h
  obtain ⟨result, hresult, h⟩ := ok_of_bind h
  cases h
  unfold reconcileCommand at hresult
  split at hresult
  · cases hresult
    rfl
  · obtain ⟨matching, _, hresult⟩ := ok_of_bind hresult
    cases hresult
    rcases matching with _ | ⟨first, _ | ⟨second, rest⟩⟩ <;> rfl
  · cases hresult
    rfl

/-- The results of the loop are the answers for its pending rows. -/
theorem reconcileRows_results {env : Env} {ownerId : Uuid} {snapshot : BrokerSnapshot}
    {positions : List TypedPosition} {rows : List (Row Uuid CommandState CommandData)} {db : Database}
    {results : List ReconciliationRecord}
    (h : (reconcileRows env ownerId snapshot positions rows db).result = .ok results) :
    ∀ result ∈ results, ∃ row ∈ rows, isPending snapshot row = true ∧
      ∃ found, reconcileRow snapshot positions row.data.command = .ok found ∧ found.2 = result := by
  induction rows generalizing db results with
  | nil =>
    cases h
    exact fun result hresult => absurd hresult List.not_mem_nil
  | cons first rest ih =>
    unfold reconcileRows at h
    by_cases hloop : isPending snapshot first = true
    · rw [if_pos hloop] at h
      cases hfound : reconcileRow snapshot positions first.data.command with
      | error e =>
        rw [Tx.lift_bind_error hfound] at h
        cases h
      | ok found =>
        rw [Tx.lift_bind_ok hfound, Tx.modify_bind] at h
        obtain ⟨_, _, h, _⟩ := Tx.bind_eq_ok h
        obtain ⟨others, hothers, h, _⟩ := Tx.bind_eq_ok h
        cases h
        intro result hresult
        rcases List.mem_cons.1 hresult with rfl | hresult
        · exact ⟨first, List.mem_cons_self, hloop, found, hfound, rfl⟩
        · obtain ⟨row, hrow, hmatch⟩ := ih hothers result hresult
          exact ⟨row, List.mem_cons_of_mem _ hrow, hmatch⟩
    · rw [if_neg hloop] at h
      intro result hresult
      obtain ⟨row, hrow, hmatch⟩ := ih h result hresult
      exact ⟨row, List.mem_cons_of_mem _ hrow, hmatch⟩

/-- **An accepted snapshot matches no position to an entry whose plan is stored.** -/
theorem accepted_unnamed {env : Env} {ownerId : Uuid} {snapshot : BrokerSnapshot} {db : Database}
    (hk : Keyed db) (hplanned : EntriesPlanned db) {r : IngestResult}
    (hok : (ingestBrokerSnapshot env ownerId snapshot db).result = .ok r)
    {result : ReconciliationRecord} (hresult : result ∈ r.reconciliations) :
    ∃ row ∈ db.commands, row.id = result.commandId ∧
      (row.data.command.action = .placeOrder → result.brokerPositionId = none) := by
  rcases ingest_ok_cases hok with ⟨rfl, _⟩ | ⟨positions, results, rfl, htyped, hresults, _⟩
  · exact absurd hresult List.not_mem_nil
  have haccepts : Accepts env ownerId snapshot db := ⟨_, hok, rfl⟩
  obtain ⟨row, hlisted, hpending, found, hfound, rfl⟩ := reconcileRows_results hresults result hresult
  obtain ⟨hrow, howned, _⟩ := Table.mem_listed.1 hlisted
  refine ⟨row, hrow, ?_, fun haction => ?_⟩
  · rw [reconcileRow_commandId hfound, hk.same row hrow]
  · have hstate : row.state ∈ pendingStates := by
      simp only [isPending, Bool.and_eq_true, decide_eq_true_eq] at hpending
      exact hpending.1
    obtain ⟨plan, hplan⟩ := Option.isSome_iff_exists.1 (hplanned row hrow hstate haction)
    rw [howned] at hplan
    have hsettled := accepted_settles hk.unique haccepts hrow howned hpending hplan
    exact hsettled.unnamed haction positions found htyped hfound

/-! ## The log of a run -/

/-- What happens to commands and positions, in order. A match also says whether the command was applied
by it. -/
inductive CreditEvent
  | dispatched (commandId : Uuid)
  | opened (accountId : Uuid) (positionId : String)
  | matched (commandId : Uuid) (action : ExecutionAction) (accountId : Uuid) (positionId : String)
      (applied : Bool)
  deriving DecidableEq

/-- The match that a reconciliation made, by the commands after the ingestion. -/
def matchOf (db : Database) (accountId : Uuid) (result : ReconciliationRecord) : Option CreditEvent := do
  let positionId ← result.brokerPositionId
  let row ← db.commands.find? fun row => row.id = result.commandId
  return .matched row.id row.data.command.action accountId positionId (row.state = .applied)

structure CreditLog where
  db : Database
  events : List CreditEvent

namespace CreditLog

inductive Label
  | dispatch (env : TaskEnv) (answer : AdapterAnswer) (ownerId commandId : Uuid)
  /-- A position opens at the broker, by a command or by hand. -/
  | opens (accountId : Uuid) (positionId : String)
  | ingest (env : Env) (ownerId : Uuid) (snapshot : BrokerSnapshot)

/-- The matches of an ingestion. -/
def matchEvents (snapshot : BrokerSnapshot) (o : Outcome Database BrokerCall TaskError IngestResult) :
    List CreditEvent :=
  match o.result with
  | .ok r => r.reconciliations.filterMap (matchOf o.state snapshot.accountId)
  | .error _ => []

def step (s : CreditLog) : Label → CreditLog
  | .dispatch env answer ownerId commandId =>
    let o := dispatchTask env answer ownerId commandId s.db
    ⟨o.state, s.events ++ o.emitted.map fun call => .dispatched call.command.id⟩
  | .opens accountId positionId => ⟨s.db, s.events ++ [.opened accountId positionId]⟩
  | .ingest env ownerId snapshot =>
    let o := ingestBrokerSnapshot env ownerId snapshot s.db
    ⟨o.state, s.events ++ matchEvents snapshot o⟩

end CreditLog

/-- No two of the commands that count were applied by the same position. -/
def AppliedOnce (counts : ExecutionAction → Prop) (events : List CreditEvent) : Prop :=
  ∀ commandId commandId' action action' accountId positionId, counts action → counts action' →
    .matched commandId action accountId positionId true ∈ events →
      .matched commandId' action' accountId positionId true ∈ events → commandId = commandId'

/-- No position is credited to two entries, nor to an entry that was not sent before it opened. -/
structure CreditedOnce (events : List CreditEvent) : Prop where
  once : ∀ commandId commandId' accountId positionId applied applied',
    .matched commandId .placeOrder accountId positionId applied ∈ events →
      .matched commandId' .placeOrder accountId positionId applied' ∈ events → commandId = commandId'
  sent : ∀ commandId accountId positionId applied,
    .matched commandId .placeOrder accountId positionId applied ∈ events →
      ∃ before between later, events = before ++ .dispatched commandId :: between ++
        .opened accountId positionId :: later
  applied : AppliedOnce (· = .placeOrder) events

/-! ## Runs -/

/-- What every step keeps: the plans of pending entries, and that no entry has been matched. -/
structure Uncredited (s : CreditLog) : Prop where
  keyed : Keyed s.db
  planned : EntriesPlanned s.db
  unmatched : ∀ commandId accountId positionId applied,
    .matched commandId .placeOrder accountId positionId applied ∉ s.events

theorem Uncredited.creditedOnce {s : CreditLog} (h : Uncredited s) : CreditedOnce s.events where
  once _ _ _ _ _ _ hmatched := absurd hmatched (h.unmatched _ _ _ _)
  sent _ _ _ _ hmatched := absurd hmatched (h.unmatched _ _ _ _)
  applied := by
    rintro _ _ _ _ _ _ rfl _ hmatched
    exact absurd hmatched (h.unmatched _ _ _ _)

theorem entriesPlanned_dispatch {db : Database} (hk : Keyed db) (hplanned : EntriesPlanned db)
    (env : TaskEnv) (answer : AdapterAnswer) (ownerId commandId : Uuid) :
    EntriesPlanned (dispatchTask env answer ownerId commandId db).state := by
  intro row' hrow' hpending haction
  obtain ⟨row, hrow, hsame, hstate⟩ := dispatch_rows hk env answer ownerId commandId row' hrow'
  rw [hsame.owner]
  refine (keepsPlans_dispatch db env answer ownerId commandId).command hsame.plan ?_
  rcases hstate with hstate | hplan
  · exact hplanned row hrow (hstate ▸ hpending) (hsame.action ▸ haction)
  · exact hplan

theorem entriesPlanned_ingest {db : Database} (hk : Keyed db) (hplanned : EntriesPlanned db)
    (env : Env) (ownerId : Uuid) (snapshot : BrokerSnapshot) :
    EntriesPlanned (ingestBrokerSnapshot env ownerId snapshot db).state := by
  intro row' hrow' hpending haction
  obtain ⟨row, hrow, hsame, hstate⟩ := descends_ingest hk env ownerId snapshot row' hrow'
  have hkept : KeepsPlans db (ingestBrokerSnapshot env ownerId snapshot db).state := by
    unfold KeepsPlans
    rw [(ingest_sameEntries env ownerId snapshot db).plans]
    exact fun _ _ h => h
  rw [hsame.owner]
  exact hkept.command hsame.plan (hplanned row hrow (hstate hpending) (hsame.action ▸ haction))

/-- The matches of an ingestion are not about entries. -/
theorem matches_unentered {db : Database} (hk : Keyed db) (hplanned : EntriesPlanned db) {env : Env}
    {ownerId : Uuid} {snapshot : BrokerSnapshot} (commandId accountId : Uuid) (positionId : String)
    (applied : Bool) :
    .matched commandId .placeOrder accountId positionId applied ∉
      CreditLog.matchEvents snapshot (ingestBrokerSnapshot env ownerId snapshot db) := by
  intro hmatched
  unfold CreditLog.matchEvents at hmatched
  cases hok : (ingestBrokerSnapshot env ownerId snapshot db).result with
  | error e =>
    rw [hok] at hmatched
    cases hmatched
  | ok r =>
    rw [hok] at hmatched
    obtain ⟨result, hresult, hevent⟩ := List.mem_filterMap.1 hmatched
    obtain ⟨named, hnamed, hevent⟩ := Option.bind_eq_some_iff.1 hevent
    obtain ⟨row', hrow', hevent⟩ := Option.bind_eq_some_iff.1 hevent
    have haction : row'.data.command.action = .placeOrder := by
      simp only [Option.pure_def, Option.some.injEq, CreditEvent.matched.injEq] at hevent
      exact hevent.2.1
    obtain ⟨row, hrow, hid, hunnamed⟩ := accepted_unnamed hk hplanned hok hresult
    obtain ⟨row₀, hrow₀, hsame, _⟩ := descends_ingest hk env ownerId snapshot row'
      (List.mem_of_find?_eq_some hrow')
    have hfound := List.find?_some hrow'
    simp only [decide_eq_true_eq] at hfound
    obtain rfl : row₀ = row := hk.row_unique hrow₀ hrow (hsame.id.symm.trans (hfound.trans hid.symm))
    rw [hunnamed (hsame.action ▸ haction)] at hnamed
    cases hnamed

theorem uncredited_step {s : CreditLog} (h : Uncredited s) (l : CreditLog.Label) :
    Uncredited (s.step l) := by
  cases l with
  | dispatch env answer ownerId commandId =>
    refine ⟨(keepsRows_dispatch h.keyed env answer ownerId commandId).keyed h.keyed,
      entriesPlanned_dispatch h.keyed h.planned env answer ownerId commandId, ?_⟩
    intro id accountId positionId applied hmatched
    rcases List.mem_append.1 hmatched with hmatched | hmatched
    · exact h.unmatched id accountId positionId applied hmatched
    · obtain ⟨call, _, hcall⟩ := List.mem_map.1 hmatched
      cases hcall
  | opens accountId positionId =>
    refine ⟨h.keyed, h.planned, fun id account position applied hmatched => ?_⟩
    rcases List.mem_append.1 hmatched with hmatched | hmatched
    · exact h.unmatched id account position applied hmatched
    · cases List.mem_singleton.1 hmatched
  | ingest env ownerId snapshot =>
    refine ⟨(ingest_within (keepsRows_order h.keyed ownerId snapshot) env).1.keyed h.keyed,
      entriesPlanned_ingest h.keyed h.planned env ownerId snapshot, ?_⟩
    intro id accountId positionId applied hmatched
    rcases List.mem_append.1 hmatched with hmatched | hmatched
    · exact h.unmatched id accountId positionId applied hmatched
    · exact matches_unentered h.keyed h.planned id accountId positionId applied hmatched

/-- **No position is credited to two entries**, in any run of dispatches and snapshots that starts where
the plans of the pending entries are stored. -/
theorem positions_credited_once {db : Database} (hk : Keyed db) (hplanned : EntriesPlanned db)
    (ls : List CreditLog.Label) :
    States CreditLog.step (fun s => CreditedOnce s.events) ⟨db, []⟩ ls := by
  have hinv : States CreditLog.step Uncredited ⟨db, []⟩ ls :=
    states_of_inv (fun _ l h _ => uncredited_step h l)
      ⟨hk, hplanned, fun _ _ _ _ => List.not_mem_nil⟩
      (along_of_forall (P := fun _ _ => True) (fun _ _ => trivial) _ _)
  exact hinv.mono fun _ h => h.creditedOnce

/-! ## Two runs -/

/-- The entry is sent, and its position opens; a snapshot reports its order as working. -/
def sentEntry : List CreditLog.Label := [
  .dispatch lotEnv (.responds {}) (.ofNat 9) (.ofNat 30),
  .opens (.ofNat 1) "7",
  .ingest ⟨121 * second, .ofNat⟩ (.ofNat 9) (orderSnapshot [lotOrder 0])]

theorem positions_credited_once_sent :
    States CreditLog.step (fun s => CreditedOnce s.events) ⟨lotEntryDatabase, []⟩ sentEntry := by
  refine positions_credited_once ⟨by decide, by decide⟩ ?_ sentEntry
  intro row hrow hpending
  have hqueued : ∀ row ∈ lotEntryDatabase.commands, row.state ∉ pendingStates := by decide
  exact absurd hpending (hqueued row hrow)

/-- An acknowledged stop change of the position, and a queued target change. -/
def stopCommand : ExecutionCommand :=
  { exitCommand with
    id := .ofNat 33
    action := .setOrChangeStopLoss
    authorizationId := some (.ofNat 43)
    idempotencyKey := "management:33"
    requestedPostcondition := .ofList [("instrument", .str "EURUSD"), ("stop_loss", .str "1.05")]
    state := .acknowledged }

def targetCommand : ExecutionCommand :=
  { exitCommand with
    id := .ofNat 34
    action := .setOrChangeTakeProfit
    authorizationId := some (.ofNat 44)
    idempotencyKey := "management:34"
    requestedPostcondition := .ofList [("instrument", .str "EURUSD"), ("take_profit", .str "1.4")] }

def targetAuthorization : ExecutionAuthorization :=
  ⟨.ofNat 44, .ofNat 1, .setOrChangeTakeProfit, 1, 0, 0, "d", 150 * second⟩

def managedDatabase : Database :=
  { lotDatabase (lotPlan .active targetAuthorization) targetCommand (lotReservation .openPosition) with
    commands := [stopCommand, targetCommand].map fun command =>
      ⟨command.id, .ofNat 9, command.state, 1, { command }, 0⟩ }

/-- The target change is sent; then a snapshot shows the position. -/
def managedPosition : List CreditLog.Label := [
  .dispatch lotEnv (.responds {}) (.ofNat 9) (.ofNat 34),
  .ingest ⟨121 * second, .ofNat⟩ (.ofNat 9) filledSnapshot]

/-- **Two commands can be applied by one position**: the changes of its stop and of its target. -/
theorem stop_and_target_share :
    ¬States CreditLog.step (fun s => AppliedOnce (fun _ => True) s.events) ⟨managedDatabase, []⟩
      managedPosition := by
  intro h
  have hevents : (run CreditLog.step ⟨managedDatabase, []⟩ managedPosition).events = [
      .dispatched (.ofNat 34),
      .matched (.ofNat 34) .setOrChangeTakeProfit (.ofNat 1) "7" true,
      .matched (.ofNat 33) .setOrChangeStopLoss (.ofNat 1) "7" true] := by decide +kernel
  have honce := h.last
  rw [hevents] at honce
  have hsame : (.ofNat 34 : Uuid) = .ofNat 33 := honce _ _ _ _ _ _ trivial trivial
    (.tail _ (.head _)) (.tail _ (.tail _ (.head _)))
  exact absurd hsame (by decide)

end Matrades

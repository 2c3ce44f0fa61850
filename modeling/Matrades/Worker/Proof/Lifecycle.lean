import Mathlib.Data.List.Chain
import Matrades.Trading.Proof.NoEffect

/-!
# The lifecycle of a stored command

`transition` checks the table of the lifecycle, but the tasks and the ingestion write the state of a
stored command themselves. Every transaction is split into the databases it writes (`StoreOp.writes`):
a dispatch that commits writes twice, every other transaction at most once for each command. A write
follows the table where no authorized command is leased and a snapshot settles a command only from the
states the table allows for what it shows (`lifecycle_followed`); an acknowledged command that a
snapshot does not show is written off against the table (`acknowledged_written_off`).
-/

namespace Matrades

open Base

/-- `transition` lets a command in `state` become `target`. -/
def CommandState.MayBecome (state target : CommandState) : Prop :=
  target = state ∨ target ∈ state.targets

instance (state target : CommandState) : Decidable (state.MayBecome target) :=
  inferInstanceAs (Decidable (target = state ∨ target ∈ state.targets))

theorem transition_returns_iff {command : ExecutionCommand} {target : CommandState} :
    Returns (transition command target) ↔ command.state.MayBecome target := by
  unfold transition CommandState.MayBecome
  by_cases hsame : target = command.state
  · rw [if_pos hsame]
    exact iff_of_true ⟨_, rfl⟩ (.inl hsame)
  · rw [if_neg hsame]
    by_cases hedge : target ∈ command.state.targets
    · rw [if_pos hedge]
      exact iff_of_true ⟨_, rfl⟩ (.inr hedge)
    · rw [if_neg hedge]
      exact iff_of_false (not_returns_error _) (by rintro (h | h) <;> contradiction)

/-! ## Transactions and their writes -/

/-- A transaction on the stored commands. -/
inductive StoreOp
  | persist (env : Env) (ownerId : Uuid) (command : ExecutionCommand)
  | task (l : TaskSystem.Label)

namespace StoreOp

def step (db : Database) : StoreOp → Database
  | .persist env ownerId command => (Tx.unitOfWork (persistCommand env ownerId command) db).state
  | .task l => (TaskSystem.step ⟨db, []⟩ l).db

/-- The writes of a dispatch that commits: the lease and the outcome. -/
def dispatchWrites (db : Database) (env : TaskEnv) (answer : AdapterAnswer)
    (ownerId commandId : Uuid) : List Database :=
  let o := dispatchTask env answer ownerId commandId db
  match o.result with
  | .ok _ => [(prepareDispatch env ownerId commandId db).state, o.state]
  | .error _ => [o.state]

/-- The databases that a transaction writes, one after the other. -/
def writes (db : Database) : StoreOp → List Database
  | .task (.dispatch env answer ownerId commandId) => dispatchWrites db env answer ownerId commandId
  | op => [step db op]

end StoreOp

/-- Every command of both is in its old state, or in one that `transition` lets it reach. -/
def FollowsTable (db db' : Database) : Prop :=
  ∀ row ∈ db.commands, ∀ row' ∈ db'.commands, row'.id = row.id → row.state.MayBecome row'.state

instance (db db' : Database) : Decidable (FollowsTable db db') :=
  inferInstanceAs (Decidable (∀ row ∈ db.commands, ∀ row' ∈ db'.commands, row'.id = row.id →
    row.state.MayBecome row'.state))

/-- Every write of the transaction follows the table. -/
def StoreOp.Lawful (db : Database) (op : StoreOp) : Prop := (db :: op.writes db).IsChain FollowsTable

/-- The state column and the data of every command agree. -/
def Coherent (db : Database) : Prop := ∀ row ∈ db.commands, row.data.command.state = row.state

/-! ## Where the table is followed -/

/-- The states from which the table allows what follows from the evidence. -/
def Evidence.settles : Evidence → List CommandState
  | nothing | several => [.reconciling]
  | unfilled => [.dispatching, .acknowledged, .reconciling]
  | partly => [.acknowledged, .partiallyApplied]
  | complete => [.acknowledged, .partiallyApplied, .reconciling]

theorem settles_iff (e : Evidence) {state : CommandState} (h : state ∈ pendingStates) :
    state ∈ e.settles ↔ state.MayBecome e.outcome := by
  simp only [pendingStates, List.mem_cons, List.not_mem_nil, or_false] at h
  rcases h with rfl | rfl | rfl | rfl | rfl <;> cases e <;> decide

/-- No authorized command is leased, and a snapshot taken up finds every pending command of its account
in a state from which it may settle it. -/
def StoreOp.OnTable (db : Database) : StoreOp → Prop
  | .task (.lease env ownerId commandId) =>
    ∀ row ∈ Table.get? db.commands commandId ownerId, row.state = .authorized →
      .lease ∈ env.faults ∨ .commit ∈ env.faults
  | .task (.dispatch env answer ownerId commandId) => ∀ row plan authorization,
      Dispatchable env db ownerId commandId row plan authorization → row.state = .authorized →
        ∀ state ∈ answer.reported, ¬Settles env db ownerId plan.data state
  | .task (.ingest _ ownerId snapshot) => EntryFlow.takesUp db ownerId snapshot = true →
      ∀ row ∈ db.commands, row.ownerId = ownerId → isPending snapshot row = true →
        ∀ e ∈ (evidence snapshot row.data.command).toOption, row.state ∈ e.settles
  | _ => True

section
variable {db : Database} (hk : Keyed db)
include hk

theorem followsTable_of_commands {db' : Database} (h : db'.commands = db.commands) :
    FollowsTable db db' := by
  intro row hrow row' hrow' hid
  rw [h] at hrow'
  rw [hk.row_unique hrow' hrow hid]
  exact .inl rfl

/-- The write of one command along the table. -/
theorem followsTable_update {row : Row Uuid CommandState CommandData} (hrow : row ∈ db.commands)
    {data : CommandData} {state : CommandState} (eventType : String) (now : Time)
    (hmove : row.state.MayBecome state) :
    FollowsTable db (db.updateCommand row data state eventType now) := by
  intro r hr r' hr' hid
  rcases Table.mem_revise hr' with ⟨hr', _⟩ | ⟨hid', hstate, _⟩
  · rw [hk.row_unique hr' hr hid]
    exact .inl rfl
  · rw [hk.row_unique hr hrow (hid.symm.trans hid'), hstate]
    exact hmove

theorem followsTable_add (env : Env) (ownerId : Uuid) {command : ExecutionCommand}
    (hfresh : ∀ row ∈ db.commands, row.id ≠ command.id) :
    FollowsTable db (db.addCommand env ownerId command) := by
  intro row hrow row' hrow' hid
  rcases List.mem_append.1 hrow' with hrow' | hrow'
  · rw [hk.row_unique hrow' hrow hid]
    exact .inl rfl
  · rw [List.mem_singleton.1 hrow'] at hid
    exact absurd hid.symm (hfresh row hrow)

end

/-! ## One transaction -/

/-- A leasable command that is not authorized is queued, and the table lets it be leased. -/
theorem leased_mayBecome {state : CommandState} (h : state ∈ leasableStates)
    (hne : state ≠ .authorized) : state.MayBecome .dispatching := by
  simp only [leasableStates, List.mem_cons, List.not_mem_nil, or_false] at h
  rcases h with rfl | rfl
  · decide
  · exact absurd rfl hne

theorem reported_mayBecome {answer : AdapterAnswer} {state : CommandState}
    (h : answer.reported = some state) : CommandState.dispatching.MayBecome state := by
  rcases reported_cases h with rfl | rfl | rfl <;> decide

section
variable {db : Database} (hk : Keyed db)
include hk

/-- A lease of a queued command follows the table. -/
theorem lease_lawful {env : TaskEnv} {ownerId commandId : Uuid}
    (h : StoreOp.OnTable db (.task (.lease env ownerId commandId))) :
    FollowsTable db (leaseTask env ownerId commandId db).state := by
  by_cases hleases : ∃ row, Table.get? db.commands commandId ownerId = some row ∧
      row.state ∈ leasableStates ∧ .lease ∉ env.faults ∧ .commit ∉ env.faults
  · obtain ⟨row, hrow, hstate, hlease, hcommit⟩ := hleases
    have hne : row.state ≠ .authorized := fun hauthorized =>
      (h row hrow hauthorized).elim hlease hcommit
    rw [leaseTask_leases hrow hstate hlease hcommit]
    exact followsTable_update hk (Table.get?_spec hrow).1 _ _ (leased_mayBecome hstate hne)
  · obtain ⟨r, hrun, _⟩ := leaseTask_idle hleases
    rw [hrun]
    exact followsTable_of_commands hk rfl

omit hk in
theorem dispatchWrites_ok {env : TaskEnv} {answer : AdapterAnswer} {ownerId commandId : Uuid}
    {r : DispatchResult} (h : (dispatchTask env answer ownerId commandId db).result = .ok r) :
    StoreOp.dispatchWrites db env answer ownerId commandId =
      [(prepareDispatch env ownerId commandId db).state,
        (dispatchTask env answer ownerId commandId db).state] := by
  unfold StoreOp.dispatchWrites
  dsimp only
  rw [h]

omit hk in
theorem dispatchWrites_error {env : TaskEnv} {answer : AdapterAnswer} {ownerId commandId : Uuid}
    {e : TaskError} (h : (dispatchTask env answer ownerId commandId db).result = .error e) :
    StoreOp.dispatchWrites db env answer ownerId commandId =
      [(dispatchTask env answer ownerId commandId db).state] := by
  unfold StoreOp.dispatchWrites
  dsimp only
  rw [h]

/-- The two writes of a dispatch follow the table where its command was queued. -/
theorem dispatch_lawful {env : TaskEnv} {answer : AdapterAnswer} {ownerId commandId : Uuid}
    (h : StoreOp.OnTable db (.task (.dispatch env answer ownerId commandId))) :
    StoreOp.Lawful db (.task (.dispatch env answer ownerId commandId)) := by
  show (db :: StoreOp.dispatchWrites db env answer ownerId commandId).IsChain FollowsTable
  by_cases hready : ∃ row plan authorization,
      Dispatchable env db ownerId commandId row plan authorization
  · obtain ⟨row, plan, authorization, hready⟩ := hready
    have hrow : row ∈ db.commands := (Table.get?_spec hready.found).1
    rcases dispatchTask_run answer hready with ⟨outcome, hfinish, hsettles, hrun⟩ | ⟨_, e, hrun⟩
    · have hreported := finishDispatch_reported hfinish
      have hne : row.state ≠ .authorized := fun hauthorized =>
        h row plan authorization hready hauthorized outcome.state hreported hsettles
      have hid : row.data.command.id = row.id := hk.same row hrow
      have hkeeps : KeepsRows db (db.leaseRow env row) := keepsRows_update _ _ _ _ hid
      have hleased : Keyed (db.leaseRow env row) := hkeeps.keyed hk
      have hmem : leasedRow env row ∈ (db.leaseRow env row).commands :=
        List.mem_map.2 ⟨row, hrow, if_pos rfl⟩
      have hfirst : FollowsTable db (db.leaseRow env row) :=
        followsTable_update hk hrow _ _ (leased_mayBecome hready.leasable hne)
      have hsecond : FollowsTable (db.leaseRow env row)
          ((db.leaseRow env row).settled env ownerId ⟨leasedRow env row, plan, authorization⟩
            outcome) := by
        intro r hr r' hr' hid
        rw [settled_commands] at hr'
        exact followsTable_update hleased hmem _ _ (reported_mayBecome hreported) r hr r' hr' hid
      rw [dispatchWrites_ok (by rw [hrun]), hrun, prepareDispatch_ready hready]
      exact .cons_cons hfirst (.cons_cons hsecond (.singleton _))
    · rw [dispatchWrites_error (by rw [hrun]), hrun]
      exact .cons_cons (followsTable_of_commands hk rfl) (.singleton _)
  · have hsame : FollowsTable db db := followsTable_of_commands hk rfl
    have hstate := (dispatchTask_unready answer hready).2
    cases hresult : (dispatchTask env answer ownerId commandId db).result with
    | ok r =>
      rw [dispatchWrites_ok hresult, prepareDispatch_unready hready hresult, hstate]
      exact .cons_cons hsame (.cons_cons hsame (.singleton _))
    | error e =>
      rw [dispatchWrites_error hresult, hstate]
      exact .cons_cons hsame (.singleton _)

/-- An ingestion follows the table where each command it settles may be settled so. -/
theorem ingest_lawful {env : Env} {ownerId : Uuid} {snapshot : BrokerSnapshot}
    (h : StoreOp.OnTable db (.task (.ingest env ownerId snapshot))) :
    FollowsTable db (ingestBrokerSnapshot env ownerId snapshot db).state := by
  by_cases htaken : EntryFlow.takesUp db ownerId snapshot = true
  case neg =>
    rw [ingest_idle env (Bool.eq_false_of_not_eq_true htaken)]
    exact followsTable_of_commands hk rfl
  intro row hrow row' hrow' hid
  rcases settledFrom_ingest db env ownerId snapshot row' hrow' with
    ⟨r, hr, hrid, hstate⟩ | ⟨r, hr, hrid, command, hwrite, hstate⟩
  · obtain rfl : r = row := hk.row_unique hr hrow (hrid.trans hid)
    exact .inl hstate.symm
  · obtain rfl : r = row := hk.row_unique hr hrow (hrid.trans hid)
    obtain ⟨e, he, hout⟩ := hwrite.shown
    have hin : r.state ∈ e.settles := h htaken r hr hwrite.owned hwrite.pending e
      (toOption_eq_some.2 he)
    have hpending : r.state ∈ pendingStates := by
      have hp := hwrite.pending
      simp only [isPending, Bool.and_eq_true, decide_eq_true_eq] at hp
      exact hp.1
    rw [hstate, hout]
    exact (settles_iff e hpending).1 hin

theorem lawful_of_onTable {op : StoreOp} (h : op.OnTable db) : op.Lawful db := by
  cases op with
  | persist env ownerId command =>
    refine .cons_cons ?_ (.singleton _)
    rw [StoreOp.step]
    rcases persist_cases env db ownerId command with hstate | ⟨hfresh, hstate⟩
    · rw [hstate]
      exact followsTable_of_commands hk rfl
    · rw [hstate]
      exact followsTable_add hk env ownerId hfresh
  | task l =>
    cases l with
    | lease env ownerId commandId => exact .cons_cons (lease_lawful hk h) (.singleton _)
    | dispatch env answer ownerId commandId => exact dispatch_lawful hk h
    | ingest env ownerId snapshot => exact .cons_cons (ingest_lawful hk h) (.singleton _)
    | reservation op =>
      exact .cons_cons (followsTable_of_commands hk (reservationStep_commands db op)) (.singleton _)

/-- Every transaction keeps the commands keyed. -/
theorem keyed_storeOp (op : StoreOp) : Keyed (op.step db) := by
  cases op with
  | persist env ownerId command =>
    rw [StoreOp.step]
    rcases persist_cases env db ownerId command with hstate | ⟨hfresh, hstate⟩
    · rw [hstate]
      exact hk
    · rw [hstate]
      exact keyed_addCommand hk env ownerId hfresh
  | task l =>
    cases l with
    | lease env ownerId commandId => exact (keepsRows_lease hk env ownerId commandId).keyed hk
    | dispatch env answer ownerId commandId =>
      exact (keepsRows_dispatch hk env answer ownerId commandId).keyed hk
    | ingest env ownerId snapshot =>
      exact (ingest_within (keepsRows_order hk ownerId snapshot) env).1.keyed hk
    | reservation op => exact (keepsRows_of_commands (reservationStep_commands db op)).keyed hk

end

/-! ## The column and the data -/

theorem coherent_of_commands {db db' : Database} (h : db'.commands = db.commands)
    (hc : Coherent db) : Coherent db' := by
  unfold Coherent
  rw [h]
  exact hc

/-- Every update writes the state of the command into the column. -/
theorem coherent_update {db : Database} (hc : Coherent db)
    (row : Row Uuid CommandState CommandData) {data : CommandData} {state : CommandState}
    (eventType : String) (now : Time) (hstate : data.command.state = state) :
    Coherent (db.updateCommand row data state eventType now) := by
  intro r hr
  rcases Table.mem_revise hr with ⟨hr, _⟩ | ⟨_, hnew, hdata⟩
  · exact hc r hr
  · rw [hdata, hnew, hstate]

theorem coherent_order (db : Database) (ownerId : Uuid) (snapshot : BrokerSnapshot) :
    CommandOrder (IngestWrite db ownerId snapshot) fun db db' => Coherent db → Coherent db' where
  refl _ := id
  trans h h' hc := h' (h hc)
  frame := coherent_of_commands
  settle eventType now _ hc := coherent_update hc _ eventType now rfl

theorem coherent_storeOp {db : Database} (hc : Coherent db) (op : StoreOp) :
    Coherent (op.step db) := by
  cases op with
  | persist env ownerId command =>
    rw [StoreOp.step]
    rcases persist_cases env db ownerId command with hstate | ⟨_, hstate⟩
    · rw [hstate]
      exact hc
    · rw [hstate]
      intro row hrow
      rcases List.mem_append.1 hrow with hrow | hrow
      · exact hc row hrow
      · rw [List.mem_singleton.1 hrow]
        rfl
  | task l =>
    cases l with
    | lease env ownerId commandId =>
      rcases (leaseTask_cases env db ownerId commandId).2 with hstate | ⟨row, _, hstate⟩
      · exact coherent_of_commands (congrArg Database.commands hstate) hc
      · exact coherent_of_commands (congrArg Database.commands hstate)
          (coherent_update hc row _ _ rfl)
    | dispatch env answer ownerId commandId =>
      show Coherent (dispatchTask env answer ownerId commandId db).state
      rcases dispatchTask_cases env answer ownerId commandId db with hstate |
        ⟨row, plan, authorization, outcome, _, _, _, hstate⟩
      · rw [hstate]
        exact hc
      · rw [hstate]
        refine coherent_of_commands (settled_commands _ _ _ _ _) (coherent_update ?_ _ _ _ rfl)
        exact coherent_update hc row _ _ rfl
    | ingest env ownerId snapshot =>
      exact (ingest_within (coherent_order db ownerId snapshot) env).1 hc
    | reservation op => exact coherent_of_commands (reservationStep_commands db op) hc

/-! ## Runs -/

/-- The database before its first command. -/
def Database.withoutCommands (db : Database) : Database := { db with commands := [] }

theorem keyed_withoutCommands (db : Database) : Keyed db.withoutCommands where
  unique := List.nodup_nil
  same _ h := absurd h List.not_mem_nil

/-- **When the stored commands follow their lifecycle**: in every run whose leases are of queued
commands and whose ingestions settle from the right states, every write follows the table. The data of
a command always has the state of its column. -/
theorem lifecycle_followed (db : Database) (ops : List StoreOp)
    (h : Along StoreOp.step (fun db op => op.OnTable db) db.withoutCommands ops) :
    Along StoreOp.step (fun db op => op.Lawful db) db.withoutCommands ops ∧
      States StoreOp.step Coherent db.withoutCommands ops :=
  ⟨along_of_inv (fun _ op hk _ => keyed_storeOp hk op) (fun _ _ hk => lawful_of_onTable hk)
    (keyed_withoutCommands db) h,
  states_of_inv (fun _ op hc _ => coherent_storeOp hc op)
    (fun _ h => absurd h List.not_mem_nil) h⟩

/-! ## Two lives of an entry -/

/-- The order of the entry of one lot. -/
def lotOrder (filled : ℚ) : BrokerOrder where
  orderId := "7"
  accountId := .ofNat 1
  commandId := some (.ofNat 30)
  symbol := "EURUSD"
  direction := .buy
  requestedVolume := 1
  filledVolume := filled
  state := "WORKING"
  version := 1
  observedAt := 120 * second
  assetClass := none
  instrumentType := none
  venueInstrumentId := none
  futuresContractId := none
  specificationVersionId := none
  quantityUnit := none
  version_pos := Nat.le_refl 1

/-- A snapshot with these orders and no positions. -/
def orderSnapshot (orders : List BrokerOrder) : BrokerSnapshot :=
  { emptySnapshot (120 * second) with sequence := 2, orders }

/-- The entry is stored and acknowledged; then a snapshot with the orders is ingested. -/
def acknowledgedThen (orders : List BrokerOrder) : List StoreOp := [
  .persist ⟨100 * second, .ofNat⟩ (.ofNat 9) lotEntry,
  .task (.dispatch lotEnv (.responds {}) (.ofNat 9) (.ofNat 30)),
  .task (.ingest ⟨121 * second, .ofNat⟩ (.ofNat 9) (orderSnapshot orders))]

/-- The states of the stored commands after the run. -/
def statesAfter (ops : List StoreOp) : List CommandState :=
  (run StoreOp.step lotEntryDatabase.withoutCommands ops).commands.map (·.state)

/-- An acknowledged entry is filled. -/
theorem lifecycle_followed_filled :
    statesAfter (acknowledgedThen [lotOrder 1]) = [.applied] ∧
      Along StoreOp.step (fun db op => op.Lawful db) lotEntryDatabase.withoutCommands
        (acknowledgedThen [lotOrder 1]) := by
  refine ⟨by decide +kernel, (lifecycle_followed lotEntryDatabase (acknowledgedThen [lotOrder 1])
    ⟨trivial, ?_, ?_, trivial⟩).1⟩
  · intro row plan authorization hready hauthorized
    have hqueued : ∀ row ∈ Table.get? (StoreOp.step lotEntryDatabase.withoutCommands
        (.persist ⟨100 * second, .ofNat⟩ (.ofNat 9) lotEntry)).commands (.ofNat 30) (.ofNat 9),
        row.state ≠ .authorized := by decide +kernel
    exact absurd hauthorized (hqueued row hready.found)
  · intro _
    decide +kernel

/-- **An acknowledged command can leave the table**: a snapshot without its order confirms that it had
no effect, which the table allows only from reconciling. -/
theorem acknowledged_written_off :
    statesAfter (acknowledgedThen []) = [.noEffectConfirmed] ∧
      ¬Along StoreOp.step (fun db op => op.Lawful db) lotEntryDatabase.withoutCommands
        (acknowledgedThen []) := by
  refine ⟨by decide +kernel, fun h => ?_⟩
  have hlast := List.isChain_cons_cons.1 h.2.2.1
  exact absurd hlast.1 (by decide +kernel)

end Matrades

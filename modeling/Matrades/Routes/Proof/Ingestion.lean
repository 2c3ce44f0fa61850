import Matrades.Routes.TradeManagement

/-!
# What an ingestion does to commands

Every write of an ingestion either leaves the command table alone or settles one pending command of
the snapshot's account (`IngestWrite`). So a relation of databases that these two kinds of write
respect (`CommandOrder`) relates the databases before and after every ingestion (`ingest_within`);
the ingestion calls no broker. Where it goes through it also leaves the plans, the reservations and
the active trades alone (`SameEntries`): the position of an entry is never recorded
(`settleEntry_raises`).
-/

namespace Matrades

open Base

/-- The states an ingestion leaves a command in. -/
def ingestedStates : List CommandState :=
  [.blockedAmbiguous, .noEffectConfirmed, .acknowledged, .partiallyApplied, .applied]

theorem matchedState_ingested {filled : ℚ} {requested : Dec} {state : CommandState}
    (h : matchedState filled requested = .ok state) :
    state ∈ ingestedStates ∧ state ≠ .noEffectConfirmed := by
  unfold matchedState at h
  split at h
  · cases h; decide
  · obtain ⟨short, _, h⟩ := ok_of_bind h
    cases h
    cases short <;> decide

/-- The answer to the command is that it had no effect. -/
def ConfirmsNoEffect (snapshot : BrokerSnapshot) (command : ExecutionCommand) : Prop :=
  ∃ positions found, snapshot.positions.mapM (typedPosition snapshot.sequence) = .ok positions ∧
    reconcileRow snapshot positions command = .ok found ∧ found.2.state = .noEffectConfirmed

/-! ## What a snapshot shows of a command -/

inductive Evidence
  | nothing | several | unfilled | partly | complete
  deriving DecidableEq, Repr

/-- The state an ingestion gives a command on the evidence. -/
def Evidence.outcome : Evidence → CommandState
  | nothing => .noEffectConfirmed
  | several => .blockedAmbiguous
  | unfilled => .acknowledged
  | partly => .partiallyApplied
  | complete => .applied

/-- The evidence of a match with the filled quantity. -/
def matchedEvidence (filled : ℚ) (requested : Dec) : Except TaskError Evidence :=
  if filled ≤ 0 then .ok .unfilled
  else do
    let short ← below (.fin filled) requested
    return if short then .partly else .complete

/-- The evidence of a reconciliation. -/
def foundEvidence (snapshot : BrokerSnapshot) (command : ExecutionCommand)
    (found : List TypedOrder × ReconciliationRecord) : Except TaskError Evidence :=
  match found.2.state with
  | .noEffectConfirmed => .ok .nothing
  | .ambiguous => .ok .several
  | _ => do
    let requested ← commandQuantity command
    matchedEvidence (filledQuantity (matchedOrder found.1) (matchedPosition snapshot found.2))
      requested

def evidence (snapshot : BrokerSnapshot) (command : ExecutionCommand) :
    Except TaskError Evidence := do
  let positions ← snapshot.positions.mapM (typedPosition snapshot.sequence)
  let found ← reconcileRow snapshot positions command
  foundEvidence snapshot command found

theorem matchedEvidence_of_state {filled : ℚ} {requested : Dec} {state : CommandState}
    (h : matchedState filled requested = .ok state) :
    ∃ e, matchedEvidence filled requested = .ok e ∧ state = e.outcome := by
  unfold matchedState at h
  unfold matchedEvidence
  split at h
  · cases h
    exact ⟨.unfilled, by rw [if_pos ‹_›], rfl⟩
  · rw [if_neg ‹_›]
    obtain ⟨short, hshort, h⟩ := ok_of_bind h
    cases h
    rw [hshort]
    cases short
    · exact ⟨.complete, rfl, rfl⟩
    · exact ⟨.partly, rfl, rfl⟩

theorem evidence_of_found {snapshot : BrokerSnapshot} {command : ExecutionCommand}
    {positions : List TypedPosition} {found : List TypedOrder × ReconciliationRecord}
    (htyped : snapshot.positions.mapM (typedPosition snapshot.sequence) = .ok positions)
    (hfound : reconcileRow snapshot positions command = .ok found) :
    evidence snapshot command = foundEvidence snapshot command found := by
  rw [evidence, htyped]
  exact congrArg (· >>= foundEvidence snapshot command) hfound

/-- The ingestion may settle this row, listed before it, with this command. -/
structure IngestWrite (db : Database) (ownerId : Uuid) (snapshot : BrokerSnapshot)
    (row : Row Uuid CommandState CommandData) (command : ExecutionCommand) : Prop where
  listed : row ∈ db.commands
  owned : row.ownerId = ownerId
  pending : isPending snapshot row = true
  same : command.id = row.data.command.id
  edited : command = { row.data.command with
    state := command.state, outcomeCertainty := command.outcomeCertainty
    brokerOrderId := command.brokerOrderId, version := command.version }
  state : command.state ∈ ingestedStates
  noEffect : command.state = .noEffectConfirmed → ConfirmsNoEffect snapshot row.data.command
  shown : ∃ e, evidence snapshot row.data.command = .ok e ∧ command.state = e.outcome

/-- A preorder of databases that respects writes outside the command table and the settling of the
rows with the commands of `W`. -/
structure CommandOrder (W : Row Uuid CommandState CommandData → ExecutionCommand → Prop)
    (R : Database → Database → Prop) : Prop extends Tx.StoreOrder R where
  frame : ∀ {db db' : Database}, db'.commands = db.commands → R db db'
  settle : ∀ {db : Database} {row : Row Uuid CommandState CommandData} {command : ExecutionCommand}
    (eventType : String) (now : Time), W row command →
    R db (db.updateCommand row { command } command.state eventType now)

section
variable {W : Row Uuid CommandState CommandData → ExecutionCommand → Prop}
  {R : Database → Database → Prop} (hR : CommandOrder W R)
include hR

/-- A write outside the command table. -/
theorem within_frame {f : Database → Database} (h : ∀ db, (f db).commands = db.commands) :
    Tx.Within R (Tx.modify f : Session Unit) :=
  Tx.within_modify fun db => hR.frame (h db)

theorem transitionReservation_frame (now : Time) (reservationId ownerId : Uuid)
    (target : ReservationState) (fields : TransitionFields) :
    Tx.Within R (transitionReservation now reservationId ownerId target fields) := by
  have hO := hR.toStoreOrder
  unfold transitionReservation
  refine Tx.within_bind hO (Tx.within_get hO) fun db => ?_
  refine Tx.within_bind hO (Tx.within_orRaise hO _ _) fun record => ?_
  refine Tx.within_bind hO (Tx.within_require hO _ _) fun _ => ?_
  refine Tx.within_bind hO (within_frame hR fun _ => rfl) fun _ => ?_
  refine Tx.within_bind hO (Tx.within_require hO _ _) fun _ => ?_
  exact Tx.within_bind hO (within_frame hR fun _ => rfl) fun _ => Tx.within_pure hO _

theorem splitPartialFill_frame (env : Env) (reservationId ownerId : Uuid) (filled remaining : ℚ)
    (position : String) :
    Tx.Within R (splitPartialFill env reservationId ownerId filled position remaining) := by
  have hO := hR.toStoreOrder
  unfold splitPartialFill
  refine Tx.within_bind hO (transitionReservation_frame hR _ _ _ _ _) fun record => ?_
  refine Tx.within_ite ?_ (Tx.within_pure hO _)
  refine Tx.within_bind hO (Tx.within_get hO) fun db => ?_
  exact Tx.within_bind hO (within_frame hR fun _ => rfl) fun _ => Tx.within_pure hO _

end

/-! ## What an ingestion leaves alone -/

/-- The plans, the reservations and the active trades are the same. -/
structure SameEntries (db db' : Database) : Prop where
  plans : db'.tradePlans = db.tradePlans
  reservations : db'.reservations = db.reservations
  trades : db'.activeTrades = db.activeTrades

/-- A preorder of databases that respects the settling of the rows with the commands of `W`, and writes
that leave the commands and what belongs to an entry alone. -/
structure IngestOrder (W : Row Uuid CommandState CommandData → ExecutionCommand → Prop)
    (R : Database → Database → Prop) : Prop extends Tx.StoreOrder R where
  frame : ∀ {db db' : Database}, db'.commands = db.commands → SameEntries db db' → R db db'
  settle : ∀ {db : Database} {row : Row Uuid CommandState CommandData} {command : ExecutionCommand}
    (eventType : String) (now : Time), W row command →
    R db (db.updateCommand row { command } command.state eventType now)

theorem CommandOrder.ingest {W : Row Uuid CommandState CommandData → ExecutionCommand → Prop}
    {R : Database → Database → Prop} (hR : CommandOrder W R) : IngestOrder W R where
  toStoreOrder := hR.toStoreOrder
  frame h _ := hR.frame h
  settle eventType now h := hR.settle eventType now h

theorem sameEntries_order (W : Row Uuid CommandState CommandData → ExecutionCommand → Prop) :
    IngestOrder W SameEntries where
  refl _ := ⟨rfl, rfl, rfl⟩
  trans h h' := ⟨h'.plans.trans h.plans, h'.reservations.trans h.reservations,
    h'.trades.trans h.trades⟩
  frame _ h := h
  settle _ _ _ := ⟨rfl, rfl, rfl⟩

/-- **The position of an entry is never recorded**: its active trade does not pass the reference
check. -/
theorem settleEntry_raises (env : Env) (ownerId : Uuid) (command : ExecutionCommand)
    (plan : Row Uuid TradePlanState TradePlan) (position : BrokerPosition) (filled : ℚ)
    (requested : Dec) (db : Database) :
    settleEntry env ownerId command plan position filled requested db =
      ⟨.error (.valueError "typed executable reference missing"), db, []⟩ := by
  have hcheck : validateExecutableReference (some plan.data.construction.instrumentType) none none none
      (some plan.data.construction.quantityUnit) =
        .error (.valueError "typed executable reference missing") := by
    rw [validateExecutableReference, if_neg nofun, if_pos (.inl rfl)]
  rw [settleEntry, activateTrade]
  exact Tx.bind_error (Tx.lift_bind_error hcheck _ _)

section
variable {W : Row Uuid CommandState CommandData → ExecutionCommand → Prop}
  {R : Database → Database → Prop} (hR : IngestOrder W R)
include hR

theorem within_record {f : Database → Database}
    (h : ∀ db, (f db).commands = db.commands ∧ SameEntries db (f db)) :
    Tx.Within R (Tx.modify f : Session Unit) :=
  Tx.within_modify fun db => hR.frame (h db).1 (h db).2

theorem recordOrders_within (env : Env) (ownerId : Uuid) (orders : List TypedOrder) :
    Tx.Within R (recordOrders env ownerId orders) := by
  have hO := hR.toStoreOrder
  induction orders with
  | nil => exact Tx.within_pure hO _
  | cons order orders ih =>
    unfold recordOrders
    refine Tx.within_bind hO (Tx.within_get hO) fun db => ?_
    refine Tx.within_ite ih ?_
    refine Tx.within_bind hO (Tx.within_lift hO _) fun _ => ?_
    exact Tx.within_bind hO (within_record hR fun _ => ⟨rfl, rfl, rfl, rfl⟩) fun _ => ih

theorem recordFills_within (env : Env) (ownerId : Uuid) (fills : List TypedFill) :
    Tx.Within R (recordFills env ownerId fills) := by
  have hO := hR.toStoreOrder
  induction fills with
  | nil => exact Tx.within_pure hO _
  | cons fill fills ih =>
    unfold recordFills
    refine Tx.within_bind hO (Tx.within_get hO) fun db => ?_
    refine Tx.within_ite ih ?_
    exact Tx.within_bind hO (within_record hR fun _ => ⟨rfl, rfl, rfl, rfl⟩) fun _ => ih

theorem settlePosition_within (env : Env) (ownerId : Uuid) (command : ExecutionCommand)
    (plan : Row Uuid TradePlanState TradePlan) (position : Option BrokerPosition) (filled : ℚ)
    (requested : Dec) :
    Tx.Within R (settlePosition env ownerId command plan position filled requested) := by
  have hO := hR.toStoreOrder
  unfold settlePosition
  split
  · intro db
    rw [settleEntry_raises]
    exact ⟨hO.refl db, rfl⟩
  · exact Tx.within_pure hO _

theorem notifyOrder_within (ownerId : Uuid) (command : ExecutionCommand) (order : Option TypedOrder)
    (fills : List TypedFill) : Tx.Within R (notifyOrder ownerId command order fills) := by
  unfold notifyOrder
  split
  · exact Tx.within_pure hR.toStoreOrder _
  · refine within_record hR fun db => ?_
    unfold Database.addNotification
    split <;> exact ⟨rfl, rfl, rfl, rfl⟩

end

section
variable {db₀ : Database} {ownerId : Uuid} {snapshot : BrokerSnapshot}
  {R : Database → Database → Prop} (hR : IngestOrder (IngestWrite db₀ ownerId snapshot) R)
  {row : Row Uuid CommandState CommandData}
  (hlisted : row ∈ db₀.commands ∧ row.ownerId = ownerId) (hpending : isPending snapshot row = true)
include hR

include hlisted hpending in
theorem applyMatch_within (env : Env) (plan : Row Uuid TradePlanState TradePlan)
    (orders : List TypedOrder) (result : ReconciliationRecord)
    (hshown : ∀ requested e, commandQuantity row.data.command = .ok requested →
      matchedEvidence (filledQuantity (matchedOrder orders) (matchedPosition snapshot result))
        requested = .ok e → evidence snapshot row.data.command = .ok e) :
    Tx.Within R (applyMatch env ownerId snapshot row plan orders result) := by
  have hO := hR.toStoreOrder
  unfold applyMatch
  refine Tx.within_bind hO (recordOrders_within hR _ _ _) fun _ => ?_
  refine Tx.within_bind hO (recordFills_within hR _ _ _) fun _ => ?_
  refine Tx.within_lift_bind hO fun requested hrequested => ?_
  refine Tx.within_lift_bind hO fun state hstate => ?_
  refine Tx.within_bind hO ?_ fun _ => Tx.within_bind hO (settlePosition_within hR _ _ _ _ _ _ _)
    fun _ => notifyOrder_within hR _ _ _ _
  · obtain ⟨hin, hne⟩ := matchedState_ingested hstate
    obtain ⟨e, he, hout⟩ := matchedEvidence_of_state hstate
    have hwrite : IngestWrite db₀ ownerId snapshot row (matchedCommand row.data.command state
        (matchedOrder orders)) := ⟨hlisted.1, hlisted.2, hpending, rfl, rfl, hin, fun h => absurd h hne,
          e, hshown requested e hrequested he, hout⟩
    exact Tx.within_modify fun db => hR.settle _ _ hwrite

include hlisted hpending in
theorem applyReconciliation_within (env : Env) {positions : List TypedPosition}
    {found : List TypedOrder × ReconciliationRecord}
    (htyped : snapshot.positions.mapM (typedPosition snapshot.sequence) = .ok positions)
    (hfound : reconcileRow snapshot positions row.data.command = .ok found) :
    Tx.Within R (applyReconciliation env ownerId snapshot row found.1 found.2) := by
  have hO := hR.toStoreOrder
  have hshown := evidence_of_found htyped hfound
  unfold applyReconciliation
  unfold foundEvidence at hshown
  split
  · rename_i hstate
    simp only [hstate] at hshown
    have hwrite : IngestWrite db₀ ownerId snapshot row
        (concluded row.data.command .blockedAmbiguous .uncertain) :=
      ⟨hlisted.1, hlisted.2, hpending, rfl, rfl, by simp [concluded, ingestedStates], nofun,
        .several, hshown, rfl⟩
    exact Tx.within_modify fun db => hR.settle _ _ hwrite
  · rename_i hstate
    simp only [hstate] at hshown
    have hwrite : IngestWrite db₀ ownerId snapshot row
        (concluded row.data.command .noEffectConfirmed .confirmed) :=
      ⟨hlisted.1, hlisted.2, hpending, rfl, rfl, by simp [concluded, ingestedStates],
        fun _ => ⟨positions, found, htyped, hfound, hstate⟩, .nothing, hshown, rfl⟩
    exact Tx.within_modify fun db => hR.settle _ _ hwrite
  · refine Tx.within_bind hO (Tx.within_get hO) fun db => ?_
    split
    · exact Tx.within_pure hO _
    · refine applyMatch_within hR hlisted hpending _ _ _ _ fun requested e hrequested he => ?_
      split at hshown
      · contradiction
      · contradiction
      · rw [hshown, hrequested]
        exact he

theorem reconcileRows_within (env : Env) {positions : List TypedPosition}
    (htyped : snapshot.positions.mapM (typedPosition snapshot.sequence) = .ok positions)
    {rows : List (Row Uuid CommandState CommandData)}
    (hrows : ∀ row ∈ rows, row ∈ db₀.commands ∧ row.ownerId = ownerId) :
    Tx.Within R (reconcileRows env ownerId snapshot positions rows) := by
  have hO := hR.toStoreOrder
  induction rows with
  | nil => exact Tx.within_pure hO _
  | cons row rows ih =>
    have hrest := ih fun row' h' => hrows row' (List.mem_cons_of_mem _ h')
    unfold reconcileRows
    split
    · rename_i hpending
      refine Tx.within_lift_bind hO fun found hfound => ?_
      refine Tx.within_bind hO (within_record hR fun _ => ⟨rfl, rfl, rfl, rfl⟩) fun _ => ?_
      refine Tx.within_bind hO
        (applyReconciliation_within hR (hrows row List.mem_cons_self) hpending _ htyped hfound)
        fun _ => ?_
      exact Tx.within_bind hO hrest fun _ => Tx.within_pure hO _
    · exact hrest

theorem ingestNew_within (env : Env) :
    R db₀ (ingestNew env ownerId snapshot db₀).state ∧
      (ingestNew env ownerId snapshot db₀).emitted = [] := by
  have hO := hR.toStoreOrder
  have hstored : R db₀ (db₀.addSnapshot env ownerId snapshot) := hR.frame rfl ⟨rfl, rfl, rfl⟩
  rw [ingestNew, Tx.modify_bind]
  cases htyped : snapshot.positions.mapM (typedPosition snapshot.sequence) with
  | error e =>
    rw [Tx.lift_bind_error rfl]
    exact ⟨hstored, rfl⟩
  | ok positions =>
    rw [Tx.lift_bind_ok rfl, Tx.get_bind]
    have hlisted : ∀ row ∈ listedCommands (db₀.addSnapshot env ownerId snapshot) ownerId,
        row ∈ db₀.commands ∧ row.ownerId = ownerId := fun row hrow =>
      have hmem := Table.mem_listed.1 hrow
      ⟨hmem.1, hmem.2.1⟩
    obtain ⟨hloop, hsilent⟩ := Tx.within_bind hO
      (reconcileRows_within hR env htyped hlisted)
      (fun results => Tx.within_pure hO (⟨snapshot.sequence, results, false⟩ : IngestResult))
      (db₀.addSnapshot env ownerId snapshot)
    exact ⟨hO.trans hstored hloop, hsilent⟩

/-- **What every ingestion does to the commands and to the entries**, and that it calls no broker. -/
theorem ingest_keeps (env : Env) :
    R db₀ (ingestBrokerSnapshot env ownerId snapshot db₀).state ∧
      (ingestBrokerSnapshot env ownerId snapshot db₀).emitted = [] := by
  have hO := hR.toStoreOrder
  refine Tx.unitOfWork_within hO ?_
  rw [Tx.get_bind]
  split
  · exact ⟨hO.refl db₀, rfl⟩
  · by_cases horder : outOfOrder snapshot (accountSnapshots db₀ ownerId snapshot.accountId) = false
    · rw [Tx.require_bind_pos horder]
      exact ingestNew_within hR env
    · rw [Tx.require_bind_neg horder]
      exact ⟨hO.refl db₀, rfl⟩

end

/-- **What every ingestion does to the commands**, and that it calls no broker. -/
theorem ingest_within {db₀ : Database} {ownerId : Uuid} {snapshot : BrokerSnapshot}
    {R : Database → Database → Prop} (hR : CommandOrder (IngestWrite db₀ ownerId snapshot) R)
    (env : Env) : R db₀ (ingestBrokerSnapshot env ownerId snapshot db₀).state ∧
      (ingestBrokerSnapshot env ownerId snapshot db₀).emitted = [] :=
  ingest_keeps hR.ingest env

/-- Every row is in the state of a row with its id before, or settled from one of `db₀`. -/
def SettledFrom (db₀ : Database) (ownerId : Uuid) (snapshot : BrokerSnapshot)
    (db db' : Database) : Prop :=
  ∀ row' ∈ db'.commands, (∃ row ∈ db.commands, row.id = row'.id ∧ row.state = row'.state) ∨
    ∃ row ∈ db₀.commands, row.id = row'.id ∧
      ∃ command, IngestWrite db₀ ownerId snapshot row command ∧ row'.state = command.state

theorem settledFrom_order (db₀ : Database) (ownerId : Uuid) (snapshot : BrokerSnapshot) :
    CommandOrder (IngestWrite db₀ ownerId snapshot) (SettledFrom db₀ ownerId snapshot) where
  refl _ row' hrow' := .inl ⟨row', hrow', rfl, rfl⟩
  trans h h' row'' hrow'' := by
    rcases h' row'' hrow'' with ⟨row', hrow', hid', hstate'⟩ | hsettled
    · rcases h row' hrow' with ⟨row, hrow, hid, hstate⟩ | ⟨row, hrow, hid, command, hwrite, hstate⟩
      · exact .inl ⟨row, hrow, hid.trans hid', hstate.trans hstate'⟩
      · exact .inr ⟨row, hrow, hid.trans hid', command, hwrite, hstate'.symm.trans hstate⟩
    · exact .inr hsettled
  frame h row' hrow' := .inl ⟨row', h ▸ hrow', rfl, rfl⟩
  settle eventType now hwrite row' hrow' := by
    rcases Table.mem_revise hrow' with ⟨hrow', _⟩ | ⟨hid, hstate, _⟩
    · exact .inl ⟨row', hrow', rfl, rfl⟩
    · exact .inr ⟨_, hwrite.listed, hid.symm, _, hwrite, hstate⟩

theorem settledFrom_ingest (db : Database) (env : Env) (ownerId : Uuid)
    (snapshot : BrokerSnapshot) :
    SettledFrom db ownerId snapshot db (ingestBrokerSnapshot env ownerId snapshot db).state :=
  (ingest_within (settledFrom_order db ownerId snapshot) env).1

end Matrades

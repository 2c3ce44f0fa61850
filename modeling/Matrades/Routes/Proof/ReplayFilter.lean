import Matrades.Base.Transaction
import Matrades.Routes.Proof.Ingestion
import Matrades.Trading.EntryFlow

/-!
# The backend's replay filter

`ingest_broker_snapshot` refuses a snapshot whose message it has stored, and one whose sequence number is
not greater than the last one's. What comes after these checks stores no other snapshot and raises no
HTTP error (`ingestNew_confined`), so the answer shows which snapshots they let pass
(`takenUp_iff`).
-/

namespace Matrades

open Base EntryFlow

/-! ## Behind the checks -/

/-- The stored snapshots are the same. -/
def SameSnapshots (db db' : Database) : Prop := db'.brokerSnapshots = db.brokerSnapshots

theorem sameSnapshots_order : Tx.StoreOrder SameSnapshots where
  refl _ := rfl
  trans h h' := h'.trans h

/-- No HTTP error. -/
def Internal (e : TaskError) : Prop := ∀ status detail, e ≠ .httpError status detail

theorem internal_valueError (message : String) : Internal (.valueError message) := fun _ _ h => by cases h

/-- The computation keeps the snapshots and raises no HTTP error. -/
abbrev Behind {α : Type} (t : Session α) : Prop := Tx.Confined SameSnapshots Internal t

theorem typedPosition_internal (sequence : Int) (item : BrokerPosition) :
    RaisesOnly Internal (typedPosition sequence item) := by
  unfold typedPosition
  refine raisesOnly_ite (raisesOnly_error (internal_valueError _)) ?_
  exact raisesOnly_ite (raisesOnly_error (internal_valueError _)) (raisesOnly_ok _)

theorem quantityFits_internal (requested : Dict String Json) (quantity : ℚ) :
    RaisesOnly Internal (quantityFits requested quantity) := by
  unfold quantityFits
  split
  · exact raisesOnly_ok _
  · exact raisesOnly_ok _
  · split
    · exact raisesOnly_ok _
    · exact raisesOnly_ok _
    · exact raisesOnly_error (internal_valueError _)

theorem positionFits_internal (requested : Dict String Json) (item : TypedPosition) :
    RaisesOnly Internal (positionFits requested item) := by
  unfold positionFits
  refine raisesOnly_ite (raisesOnly_ok _) (raisesOnly_ite (raisesOnly_ok _) ?_)
  have hquantity := quantityFits_internal requested item.quantity
  split
  · rename_i e he
    exact raisesOnly_error (hquantity e he)
  · exact raisesOnly_ok _

theorem fittingPositions_internal (requested : Dict String Json) (positions : List TypedPosition) :
    RaisesOnly Internal (fittingPositions requested positions) := by
  induction positions with
  | nil => exact raisesOnly_ok _
  | cons item rest ih =>
    rw [fittingPositions]
    refine raisesOnly_bind (positionFits_internal requested item) fun fits => ?_
    exact raisesOnly_bind ih fun others => raisesOnly_ok _

theorem reconcileCommand_internal (command : ExecutionCommand) (orders : List TypedOrder)
    (positions : List TypedPosition) (authoritativeSnapshot : Bool) :
    RaisesOnly Internal (reconcileCommand command orders positions authoritativeSnapshot) := by
  unfold reconcileCommand
  split
  · exact raisesOnly_ok _
  · exact raisesOnly_bind (fittingPositions_internal _ _) fun _ => raisesOnly_ok _
  · exact raisesOnly_ok _

theorem reconcileRow_internal (snapshot : BrokerSnapshot) (positions : List TypedPosition)
    (command : ExecutionCommand) : RaisesOnly Internal (reconcileRow snapshot positions command) := by
  unfold reconcileRow
  refine raisesOnly_bind (raisesOnly_mapM (fun item => ?_) _) fun orders => ?_
  · unfold typedOrder
    exact raisesOnly_ite (raisesOnly_error (internal_valueError _)) (raisesOnly_ok _)
  · exact raisesOnly_bind (reconcileCommand_internal _ _ _ _) fun _ => raisesOnly_ok _

theorem below_internal (a b : Dec) : RaisesOnly Internal (below a b) :=
  raisesOnly_orError _ (internal_valueError _)

theorem matchedState_internal (filled : ℚ) (requested : Dec) :
    RaisesOnly Internal (matchedState filled requested) := by
  unfold matchedState
  exact raisesOnly_ite (raisesOnly_ok _)
    (raisesOnly_bind (below_internal _ _) fun _ => raisesOnly_ok _)

theorem commandQuantity_internal (command : ExecutionCommand) :
    RaisesOnly Internal (commandQuantity command) := by
  unfold commandQuantity
  split
  · exact raisesOnly_ok _
  · exact raisesOnly_orError _ (internal_valueError _)

theorem reference_internal (instrumentType : Option InstrumentType)
    (venueInstrumentId specificationVersionId futuresContractId : Option Uuid)
    (quantityUnit : Option QuantityUnit) : RaisesOnly Internal (validateExecutableReference instrumentType
      venueInstrumentId specificationVersionId futuresContractId quantityUnit) := by
  unfold validateExecutableReference
  refine raisesOnly_ite (raisesOnly_ok _) (raisesOnly_ite (raisesOnly_error (internal_valueError _)) ?_)
  exact raisesOnly_ite (raisesOnly_error (internal_valueError _)) (raisesOnly_ok _)

theorem recordOrders_behind (env : Env) (ownerId : Uuid) (orders : List TypedOrder) :
    Behind (recordOrders env ownerId orders) := by
  have hO := sameSnapshots_order
  induction orders with
  | nil => exact Tx.confined_pure hO ()
  | cons order orders ih =>
    unfold recordOrders
    refine Tx.confined_bind hO (Tx.confined_get hO) fun db => Tx.confined_ite ih ?_
    refine Tx.confined_bind hO (Tx.confined_lift hO (reference_internal _ _ _ _ _)) fun _ => ?_
    exact Tx.confined_bind hO (Tx.confined_modify fun _ => rfl) fun _ => ih

theorem recordFills_behind (env : Env) (ownerId : Uuid) (fills : List TypedFill) :
    Behind (recordFills env ownerId fills) := by
  have hO := sameSnapshots_order
  induction fills with
  | nil => exact Tx.confined_pure hO ()
  | cons fill fills ih =>
    unfold recordFills
    refine Tx.confined_bind hO (Tx.confined_get hO) fun db => Tx.confined_ite ih ?_
    exact Tx.confined_bind hO (Tx.confined_modify fun _ => rfl) fun _ => ih

theorem settlePosition_behind (env : Env) (ownerId : Uuid) (command : ExecutionCommand)
    (plan : Row Uuid TradePlanState TradePlan) (position : Option BrokerPosition) (filled : ℚ)
    (requested : Dec) : Behind (settlePosition env ownerId command plan position filled requested) := by
  unfold settlePosition
  split
  · intro db
    rw [settleEntry_raises]
    exact ⟨rfl, raisesOnly_error (internal_valueError _)⟩
  · exact Tx.confined_pure sameSnapshots_order ()

theorem applyMatch_behind (env : Env) (ownerId : Uuid) (snapshot : BrokerSnapshot)
    (row : Row Uuid CommandState CommandData) (plan : Row Uuid TradePlanState TradePlan)
    (orders : List TypedOrder) (result : ReconciliationRecord) :
    Behind (applyMatch env ownerId snapshot row plan orders result) := by
  have hO := sameSnapshots_order
  unfold applyMatch
  refine Tx.confined_bind hO (recordOrders_behind env ownerId orders) fun _ => ?_
  refine Tx.confined_bind hO (recordFills_behind env ownerId _) fun _ => ?_
  refine Tx.confined_bind hO (Tx.confined_lift hO (commandQuantity_internal _)) fun requested => ?_
  refine Tx.confined_bind hO (Tx.confined_lift hO (matchedState_internal _ _)) fun state => ?_
  refine Tx.confined_bind hO (Tx.confined_modify fun _ => rfl) fun _ => ?_
  refine Tx.confined_bind hO (settlePosition_behind env ownerId _ plan _ _ _) fun _ => ?_
  unfold notifyOrder
  split
  · exact Tx.confined_pure hO ()
  · refine Tx.confined_modify fun db => ?_
    unfold Database.addNotification
    split <;> rfl

theorem applyReconciliation_behind (env : Env) (ownerId : Uuid) (snapshot : BrokerSnapshot)
    (row : Row Uuid CommandState CommandData) (orders : List TypedOrder)
    (result : ReconciliationRecord) :
    Behind (applyReconciliation env ownerId snapshot row orders result) := by
  have hO := sameSnapshots_order
  unfold applyReconciliation
  split
  · exact Tx.confined_modify fun _ => rfl
  · exact Tx.confined_modify fun _ => rfl
  · refine Tx.confined_bind hO (Tx.confined_get hO) fun db => ?_
    split
    · exact Tx.confined_pure hO ()
    · exact applyMatch_behind env ownerId snapshot row _ orders result

theorem reconcileRows_behind (env : Env) (ownerId : Uuid) (snapshot : BrokerSnapshot)
    (positions : List TypedPosition) (rows : List (Row Uuid CommandState CommandData)) :
    Behind (reconcileRows env ownerId snapshot positions rows) := by
  have hO := sameSnapshots_order
  induction rows with
  | nil => exact Tx.confined_pure hO _
  | cons row rows ih =>
    unfold reconcileRows
    refine Tx.confined_ite ?_ ih
    refine Tx.confined_bind hO (Tx.confined_lift hO (reconcileRow_internal _ _ _)) fun found => ?_
    refine Tx.confined_bind hO (Tx.confined_modify fun _ => rfl) fun _ => ?_
    refine Tx.confined_bind hO (applyReconciliation_behind env ownerId snapshot row _ _) fun _ => ?_
    exact Tx.confined_bind hO ih fun _ => Tx.confined_pure hO _

/-- What comes behind the checks stores the snapshot only, and raises no HTTP error. -/
theorem ingestNew_confined (env : Env) (ownerId : Uuid) (snapshot : BrokerSnapshot) (db : Database) :
    SameSnapshots (db.addSnapshot env ownerId snapshot) (ingestNew env ownerId snapshot db).state ∧
      RaisesOnly Internal (ingestNew env ownerId snapshot db).result := by
  have hO := sameSnapshots_order
  rw [ingestNew, Tx.modify_bind]
  refine Tx.confined_bind hO (Tx.confined_lift hO ?_) (fun positions => ?_) _
  · exact raisesOnly_mapM (typedPosition_internal snapshot.sequence) _
  · refine Tx.confined_bind hO (Tx.confined_get hO) fun db => ?_
    exact Tx.confined_bind hO (reconcileRows_behind env ownerId snapshot positions _)
      fun _ => Tx.confined_pure hO _

/-- An answer behind the checks is not that of a duplicate. -/
theorem ingestNew_new {env : Env} {ownerId : Uuid} {snapshot : BrokerSnapshot} {db : Database}
    {r : IngestResult} (h : (ingestNew env ownerId snapshot db).result = .ok r) :
    r.duplicate = false := by
  rw [ingestNew, Tx.modify_bind] at h
  obtain ⟨positions, _, h, _⟩ := Tx.bind_eq_ok h
  rw [Tx.get_bind] at h
  obtain ⟨results, _, h, _⟩ := Tx.bind_eq_ok h
  cases h
  rfl

/-! ## The checks -/

/-- The ingestion takes the snapshot up: it refuses nothing, and an answer it gives is of a snapshot
that it stored, not of a duplicate. -/
def TakenUp (env : Env) (ownerId : Uuid) (snapshot : BrokerSnapshot) (db : Database) : Prop :=
  (∀ status detail, (ingestBrokerSnapshot env ownerId snapshot db).result ≠
    .error (.httpError status detail)) ∧
  ∀ r, (ingestBrokerSnapshot env ownerId snapshot db).result = .ok r → r.duplicate = false ∧
    ∃ row ∈ (ingestBrokerSnapshot env ownerId snapshot db).state.brokerSnapshots, row.data = snapshot

section
variable {env : Env} {ownerId : Uuid} {snapshot : BrokerSnapshot} {db : Database}

theorem ingest_taken (h : takesUp db ownerId snapshot = true) :
    ingestBrokerSnapshot env ownerId snapshot db =
      Tx.unitOfWork (ingestNew env ownerId snapshot) db := by
  simp only [takesUp, Bool.and_eq_true, Bool.not_eq_true'] at h
  refine Tx.unitOfWork_congr ?_
  rw [Tx.get_bind, if_neg (by rw [h.1]; exact Bool.false_ne_true)]
  exact Tx.require_bind_pos h.2 _ _ db

theorem ingest_refused (h : takesUp db ownerId snapshot = false) :
    (ingestBrokerSnapshot env ownerId snapshot db).state = db ∧ ¬TakenUp env ownerId snapshot db := by
  have hrun : (ingestBrokerSnapshot env ownerId snapshot db).state = db ∧
      ((ingestBrokerSnapshot env ownerId snapshot db).result = .ok ⟨snapshot.sequence, [], true⟩ ∨
        (ingestBrokerSnapshot env ownerId snapshot db).result =
          .error (.httpError 409 "out-of-order or replayed broker snapshot")) := by
    by_cases hknown : (accountSnapshots db ownerId snapshot.accountId).any
        (fun r => r.data.messageId = snapshot.messageId) = true
    · have hrun : ingestBrokerSnapshot env ownerId snapshot db =
          ⟨.ok ⟨snapshot.sequence, [], true⟩, db, []⟩ := by
        refine Tx.unitOfWork_of_ok ?_
        rw [Tx.get_bind, if_pos hknown]
        rfl
      exact ⟨by rw [hrun], .inl (by rw [hrun])⟩
    · have horder : ¬outOfOrder snapshot (accountSnapshots db ownerId snapshot.accountId) = false := by
        simpa [takesUp, hknown] using h
      have hrun : ingestBrokerSnapshot env ownerId snapshot db =
          ⟨.error (.httpError 409 "out-of-order or replayed broker snapshot"), db, []⟩ := by
        refine Tx.unitOfWork_of_error (r := db) ?_
        rw [Tx.get_bind, if_neg hknown, Tx.require_bind_neg horder]
      exact ⟨by rw [hrun], .inr (by rw [hrun])⟩
  refine ⟨hrun.1, fun htaken => ?_⟩
  rcases hrun.2 with hdup | hrefused
  · have hnew := (htaken.2 _ hdup).1
    cases hnew
  · exact htaken.1 _ _ hrefused

theorem ingest_stores (h : takesUp db ownerId snapshot = true) :
    SameSnapshots db (ingestBrokerSnapshot env ownerId snapshot db).state ∨
      SameSnapshots (db.addSnapshot env ownerId snapshot)
        (ingestBrokerSnapshot env ownerId snapshot db).state := by
  rw [ingest_taken h]
  cases hresult : (ingestNew env ownerId snapshot db).result with
  | ok r =>
    rw [Tx.unitOfWork_ok hresult]
    exact .inr (ingestNew_confined env ownerId snapshot db).1
  | error e =>
    rw [Tx.unitOfWork_error hresult]
    exact .inl rfl

/-- **The ingestion takes a snapshot up exactly if the checks let it pass.** -/
theorem takenUp_iff : TakenUp env ownerId snapshot db ↔ takesUp db ownerId snapshot = true := by
  cases h : takesUp db ownerId snapshot with
  | false => simpa using (ingest_refused h).2
  | true =>
    refine iff_of_true ?_ rfl
    obtain ⟨hstate, hraises⟩ := ingestNew_confined env ownerId snapshot db
    rw [TakenUp, ingest_taken h]
    cases hresult : (ingestNew env ownerId snapshot db).result with
    | ok r =>
      rw [Tx.unitOfWork_ok hresult, hresult]
      refine ⟨fun _ _ heq => (by cases heq), fun _ heq => ?_⟩
      cases heq
      refine ⟨ingestNew_new hresult, ?_⟩
      rw [hstate]
      exact ⟨_, List.mem_append_right _ (List.mem_singleton_self _), rfl⟩
    | error e =>
      rw [Tx.unitOfWork_error hresult]
      refine ⟨fun status detail heq => ?_, fun _ heq => by cases heq⟩
      exact hraises e hresult status detail (by cases heq; rfl)

end

end Matrades

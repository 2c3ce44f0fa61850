import Matrades.Routes.Proof.Ingestion

/-!
# What an accepted snapshot has settled

An ingestion that accepts a snapshot has reconciled every pending command of its account, and settled
each one whose plan is stored on the evidence of the snapshot (`accepted_settles`). No entry is settled
on the evidence of a position: that raises, and rolls the ingestion back (`settleEntry_raises`).
-/

namespace Matrades

open Base

/-- The snapshot is accepted, and not as a duplicate. -/
def Accepts (env : Env) (ownerId : Uuid) (snapshot : BrokerSnapshot) (db : Database) : Prop :=
  ∃ r, (ingestBrokerSnapshot env ownerId snapshot db).result = .ok r ∧ r.duplicate = false

/-- The plan of a command, as the ingestion finds it. -/
def commandPlan? (db : Database) (ownerId : Uuid) (command : ExecutionCommand) :
    Option (Row Uuid TradePlanState TradePlan) :=
  command.tradePlanId.bind (Table.get? db.tradePlans · ownerId)

/-! ## The reconciliation of one command -/

theorem typedPosition_id {sequence : Int} {item : BrokerPosition} {typed : TypedPosition}
    (h : typedPosition sequence item = .ok typed) : typed.brokerPositionId = item.positionId := by
  unfold typedPosition at h
  obtain ⟨_, h⟩ := ok_of_guard h
  obtain ⟨_, h⟩ := ok_of_guard h
  cases h
  rfl

/-- A position that a reconciliation names is one of the snapshot's. -/
theorem reconcilePositions_names {command : ExecutionCommand} {positions : List TypedPosition}
    {positionId : String}
    (h : (reconcilePositions command true positions).brokerPositionId = some positionId) :
    ∃ item, positions = [item] ∧ item.brokerPositionId = positionId := by
  rcases positions with _ | ⟨first, _ | ⟨second, rest⟩⟩
  · cases h
  · exact ⟨first, rfl, Option.some.inj h⟩
  · cases h

/-- The fitting positions are among the typed ones. -/
theorem fittingPositions_sub {requested : Dict String Json} {positions matching : List TypedPosition}
    (h : fittingPositions requested positions = .ok matching) {item : TypedPosition}
    (hitem : item ∈ matching) : item ∈ positions := by
  induction positions generalizing matching with
  | nil =>
    cases h
    cases hitem
  | cons first rest ih =>
    obtain ⟨fits, _, h⟩ := ok_of_bind h
    obtain ⟨others, hothers, h⟩ := ok_of_bind h
    cases h
    split at hitem
    · rcases List.mem_cons.1 hitem with rfl | hitem
      · exact List.mem_cons_self
      · exact List.mem_cons_of_mem _ (ih hothers hitem)
    · exact List.mem_cons_of_mem _ (ih hothers hitem)

theorem typedOrder_owned {command : ExecutionCommand} {item : BrokerOrder} {typed : TypedOrder}
    (h : typedOrder command item = .ok typed) : ownsOrder command typed = true := by
  unfold typedOrder at h
  obtain ⟨_, h⟩ := ok_of_guard h
  cases h
  simp [ownsOrder]

/-- How the reconciliation of a command ends: by its only order, by the positions where it has none, or
ambiguously. -/
theorem reconcileRow_cases {snapshot : BrokerSnapshot} {positions : List TypedPosition}
    {command : ExecutionCommand} {found : List TypedOrder × ReconciliationRecord}
    (h : reconcileRow snapshot positions command = .ok found) :
    (∃ item order, relevantOrders command snapshot = [item] ∧ typedOrder command item = .ok order ∧
      found.1 = [order] ∧ found.2.state = .matched ∧ found.2.brokerPositionId = none) ∨
    (relevantOrders command snapshot = [] ∧ found.1 = [] ∧ ∃ matching,
      fittingPositions command.requestedPostcondition positions = .ok matching ∧
        found.2 = reconcilePositions command true matching) ∨
    (2 ≤ (relevantOrders command snapshot).length ∧ found.2.state = .ambiguous ∧
      found.2.brokerPositionId = none) := by
  unfold reconcileRow at h
  obtain ⟨orders, horders, h⟩ := ok_of_bind h
  obtain ⟨result, hresult, h⟩ := ok_of_bind h
  cases h
  have howned : orders.filter (ownsOrder command) = orders := by
    refine List.filter_eq_self.2 fun order horder => ?_
    obtain ⟨item, _, hitem⟩ := ok_mem_of_mapM horders horder
    exact typedOrder_owned hitem
  have hall := ok_of_mapM horders
  rw [reconcileCommand, howned] at hresult
  split at hresult
  · cases hresult
    cases hrelevant : relevantOrders command snapshot with
    | nil =>
      rw [hrelevant] at hall
      cases hall
    | cons item rest =>
      rw [hrelevant] at hall
      obtain ⟨horder, hrest⟩ := List.forall₂_cons.1 hall
      cases hrest
      exact .inl ⟨item, _, rfl, horder, rfl, rfl, rfl⟩
  · obtain ⟨matching, hmatching, hresult⟩ := ok_of_bind hresult
    cases hresult
    cases hrelevant : relevantOrders command snapshot with
    | nil => exact .inr (.inl ⟨rfl, rfl, matching, hmatching, rfl⟩)
    | cons item rest =>
      rw [hrelevant] at hall
      cases hall
  · rename_i hnotOne hnotNone
    cases hresult
    refine .inr (.inr ⟨?_, rfl, rfl⟩)
    rw [hall.length_eq]
    match orders, hnotOne, hnotNone with
    | [], _, hnotNone => exact absurd rfl hnotNone
    | [order], hnotOne, _ => exact absurd rfl (hnotOne order)
    | _ :: _ :: _, _, _ => exact Nat.le_add_left 2 _

/-- A position that a reconciliation names is found in the snapshot. -/
theorem matchedPosition_named {snapshot : BrokerSnapshot} {positions : List TypedPosition}
    {command : ExecutionCommand} {found : List TypedOrder × ReconciliationRecord}
    (htyped : snapshot.positions.mapM (typedPosition snapshot.sequence) = .ok positions)
    (hfound : reconcileRow snapshot positions command = .ok found) {positionId : String}
    (hnamed : found.2.brokerPositionId = some positionId) :
    found.2.state = .matched ∧ ∃ p, matchedPosition snapshot found.2 = some p ∧
      p.positionId = positionId := by
  rcases reconcileRow_cases hfound with ⟨_, _, _, _, _, _, hnone⟩ |
    ⟨_, _, matching, hmatching, hresult⟩ | ⟨_, _, hnone⟩
  · rw [hnone] at hnamed
    cases hnamed
  · rw [hresult] at hnamed
    obtain ⟨typed, rfl, hid⟩ := reconcilePositions_names hnamed
    have hmem := fittingPositions_sub hmatching List.mem_cons_self
    obtain ⟨item, hitem, hitemTyped⟩ := ok_mem_of_mapM htyped hmem
    have hitemId := typedPosition_id hitemTyped
    refine ⟨by rw [hresult]; rfl, ?_⟩
    unfold matchedPosition
    cases hp : snapshot.positions.find? fun item => found.2.brokerPositionId = some item.positionId with
    | none =>
      have hnot := List.find?_eq_none.1 hp item hitem
      rw [hresult] at hnot
      simp [hnamed, ← hid, hitemId] at hnot
    | some p =>
      have hholds := List.find?_some hp
      simp only [decide_eq_true_eq] at hholds
      rw [hresult, hnamed] at hholds
      exact ⟨p, rfl, (Option.some.inj hholds).symm⟩
  · rw [hnone] at hnamed
    cases hnamed

/-! ## What one iteration settles -/

theorem notifyOrder_commands (ownerId : Uuid) (command : ExecutionCommand) (order : Option TypedOrder)
    (fills : List TypedFill) (db : Database) :
    (notifyOrder ownerId command order fills db).state.commands = db.commands := by
  unfold notifyOrder
  split
  · rfl
  · show (Database.addNotification db _).commands = db.commands
    unfold Database.addNotification
    split <;> rfl

/-- A position of an entry is not settled; without one there is nothing to settle. -/
theorem settlePosition_ok {env : Env} {ownerId : Uuid} {command : ExecutionCommand}
    {plan : Row Uuid TradePlanState TradePlan} {position : Option BrokerPosition} {filled : ℚ}
    {requested : Dec} {db : Database} {u : Unit}
    (h : (settlePosition env ownerId command plan position filled requested db).result = .ok u) :
    (command.action = .placeOrder → position = none) ∧
      (settlePosition env ownerId command plan position filled requested db).state = db := by
  cases position with
  | none =>
    refine ⟨fun _ => rfl, ?_⟩
    unfold settlePosition
    cases command.action <;> rfl
  | some p =>
    have hmanages : command.action ≠ .placeOrder := by
      intro haction
      have hrun : settlePosition env ownerId command plan (some p) filled requested db =
          settleEntry env ownerId command plan p filled requested db := by
        unfold settlePosition
        rw [haction]
      rw [hrun, settleEntry_raises] at h
      cases h
    refine ⟨fun haction => absurd haction hmanages, ?_⟩
    unfold settlePosition
    cases haction : command.action with
    | placeOrder => exact absurd haction hmanages
    | _ => rfl

section
variable {env : Env} {ownerId : Uuid} {snapshot : BrokerSnapshot}
  {row : Row Uuid CommandState CommandData} {plan : Row Uuid TradePlanState TradePlan}

/-- A match that goes through settles its command by the filled quantity. -/
theorem applyMatch_settles {orders : List TypedOrder} {result : ReconciliationRecord} {db : Database}
    {u : Unit} (h : (applyMatch env ownerId snapshot row plan orders result db).result = .ok u) :
    (row.data.command.action = .placeOrder → matchedPosition snapshot result = none) ∧
    ∃ requested state, commandQuantity row.data.command = .ok requested ∧
      matchedState (filledQuantity (matchedOrder orders) (matchedPosition snapshot result)) requested =
        .ok state ∧
      ∀ row' ∈ (applyMatch env ownerId snapshot row plan orders result db).state.commands,
        row'.id = row.id → row'.state = state := by
  unfold applyMatch at h ⊢
  obtain ⟨_, _, h, hs₁⟩ := Tx.bind_eq_ok h
  obtain ⟨_, _, h, hs₂⟩ := Tx.bind_eq_ok h
  obtain ⟨requested, hrequested, h, hs₃⟩ := Tx.bind_eq_ok h
  obtain ⟨state, hstate, h, hs₄⟩ := Tx.bind_eq_ok h
  obtain ⟨_, _, h, hs₅⟩ := Tx.bind_eq_ok h
  obtain ⟨_, hposition, h, hs₆⟩ := Tx.bind_eq_ok h
  obtain ⟨hentry, hkept⟩ := settlePosition_ok hposition
  refine ⟨hentry, requested, state, hrequested, hstate, fun row' hrow' hid => ?_⟩
  rw [hs₁, hs₂, hs₃, hs₄, hs₅, hs₆, notifyOrder_commands, hkept] at hrow'
  rcases Table.mem_revise hrow' with ⟨_, hne⟩ | ⟨_, hnew, _⟩
  · exact absurd hid hne
  · exact hnew

/-- A settled command: the outcome is that of the evidence, and an entry names no position. -/
structure SettledBy (ownerId : Uuid) (snapshot : BrokerSnapshot)
    (row : Row Uuid CommandState CommandData) (db' : Database) : Prop where
  unnamed : row.data.command.action = .placeOrder → ∀ positions found,
    snapshot.positions.mapM (typedPosition snapshot.sequence) = .ok positions →
      reconcileRow snapshot positions row.data.command = .ok found → found.2.brokerPositionId = none
  settled : ∃ e, evidence snapshot row.data.command = .ok e ∧
    ∀ row' ∈ db'.commands, row'.id = row.id → row'.state = e.outcome

theorem applyReconciliation_matched {orders : List TypedOrder} {result : ReconciliationRecord}
    {db : Database} (hmatched : result.state = .matched ∨ result.state = .outcomeUnknown)
    (hplan : commandPlan? db ownerId row.data.command = some plan) :
    applyReconciliation env ownerId snapshot row orders result db =
      applyMatch env ownerId snapshot row plan orders result db := by
  unfold commandPlan? at hplan
  unfold applyReconciliation
  rcases hmatched with hstate | hstate
  · rw [hstate]
    dsimp only
    rw [Tx.get_bind, hplan]
  · rw [hstate]
    dsimp only
    rw [Tx.get_bind, hplan]

theorem matchedState_evidence {filled : ℚ} {requested : Dec} {state : CommandState}
    {result : ReconciliationRecord} {orders : List TypedOrder} {command : ExecutionCommand}
    (hmatched : result.state = .matched ∨ result.state = .outcomeUnknown)
    (hrequested : commandQuantity command = .ok requested)
    (hfilled : filledQuantity (matchedOrder orders) (matchedPosition snapshot result) = filled)
    (hstate : matchedState filled requested = .ok state) :
    ∃ e, foundEvidence snapshot command (orders, result) = .ok e ∧ state = e.outcome := by
  obtain ⟨e, he, hout⟩ := matchedEvidence_of_state hstate
  refine ⟨e, ?_, hout⟩
  unfold foundEvidence
  rcases hmatched with hmatched | hmatched
  all_goals
    dsimp only
    rw [hmatched]
    dsimp only
    rw [bind_ok_eq hrequested, hfilled, he]

/-- What follows from a reconciliation settles the command, if its plan is stored. -/
theorem applyReconciliation_settles {positions : List TypedPosition}
    {found : List TypedOrder × ReconciliationRecord} {db : Database} {u : Unit}
    (htyped : snapshot.positions.mapM (typedPosition snapshot.sequence) = .ok positions)
    (hfound : reconcileRow snapshot positions row.data.command = .ok found)
    (hplan : commandPlan? db ownerId row.data.command = some plan)
    (h : (applyReconciliation env ownerId snapshot row found.1 found.2 db).result = .ok u) :
    SettledBy ownerId snapshot row
      (applyReconciliation env ownerId snapshot row found.1 found.2 db).state := by
  have hshown := evidence_of_found htyped hfound
  have hunnamed : (row.data.command.action = .placeOrder → found.2.brokerPositionId = none) →
      row.data.command.action = .placeOrder → ∀ positions' found',
        snapshot.positions.mapM (typedPosition snapshot.sequence) = .ok positions' →
          reconcileRow snapshot positions' row.data.command = .ok found' →
            found'.2.brokerPositionId = none := by
    intro hnone haction positions' found' htyped' hfound'
    obtain rfl : positions = positions' := Except.ok.inj (htyped.symm.trans htyped')
    obtain rfl : found = found' := Except.ok.inj (hfound.symm.trans hfound')
    exact hnone haction
  by_cases hmatched : found.2.state = .matched ∨ found.2.state = .outcomeUnknown
  · rw [applyReconciliation_matched hmatched hplan] at h ⊢
    obtain ⟨hentry, requested, state, hrequested, hstate, hrows⟩ := applyMatch_settles h
    obtain ⟨e, he, hout⟩ := matchedState_evidence hmatched hrequested rfl hstate
    refine ⟨hunnamed fun haction => ?_, e, hshown.trans he, fun row' hrow' hid => ?_⟩
    · cases hid : found.2.brokerPositionId with
      | none => rfl
      | some positionId =>
        obtain ⟨_, p, hp, _⟩ := matchedPosition_named htyped hfound hid
        rw [hentry haction] at hp
        cases hp
    · exact (hrows row' hrow' hid).trans hout
  · have hnone : found.2.brokerPositionId = none := by
      cases hid : found.2.brokerPositionId with
      | none => rfl
      | some positionId => exact absurd (.inl (matchedPosition_named htyped hfound hid).1) hmatched
    have hconcluded : ∀ (command : ExecutionCommand) (eventType : String), ∀ row' ∈
        (db.updateCommand row { command } command.state eventType env.now).commands,
        row'.id = row.id → row'.state = command.state := by
      intro command eventType row' hrow' hid
      rcases Table.mem_revise hrow' with ⟨_, hne⟩ | ⟨_, hnew, _⟩
      · exact absurd hid hne
      · exact hnew
    unfold foundEvidence at hshown
    unfold applyReconciliation
    cases hstate : found.2.state with
    | ambiguous =>
      rw [hstate] at hshown
      exact ⟨hunnamed fun _ => hnone, .several, hshown, hconcluded _ _⟩
    | noEffectConfirmed =>
      rw [hstate] at hshown
      exact ⟨hunnamed fun _ => hnone, .nothing, hshown, hconcluded _ _⟩
    | matched => exact absurd (.inl hstate) hmatched
    | outcomeUnknown => exact absurd (.inr hstate) hmatched

end

/-! ## The loop -/

/-- The rows with the id are as they were. -/
def KeepsRowsOf (id : Uuid) (db db' : Database) : Prop :=
  ∀ row' ∈ db'.commands, row'.id = id → row' ∈ db.commands

theorem keepsRowsOf_order {db₀ : Database} {id : Uuid} (ownerId : Uuid) (snapshot : BrokerSnapshot)
    (hid : id ∉ db₀.commands.map (·.id)) :
    IngestOrder (IngestWrite db₀ ownerId snapshot) (KeepsRowsOf id) where
  refl _ _ hrow' _ := hrow'
  trans h h' row' hrow' hsame := h row' (h' row' hrow' hsame) hsame
  frame h _ row' hrow' _ := h ▸ hrow'
  settle eventType now hwrite row' hrow' hsame := by
    rcases Table.mem_revise hrow' with ⟨hrow', _⟩ | ⟨hrid, _⟩
    · exact hrow'
    · refine absurd (List.mem_map.2 ⟨_, hwrite.listed, ?_⟩) hid
      exact hrid.symm.trans hsame

section
variable {env : Env} {ownerId : Uuid} {snapshot : BrokerSnapshot} {positions : List TypedPosition}
  (htyped : snapshot.positions.mapM (typedPosition snapshot.sequence) = .ok positions)
include htyped

/-- One iteration leaves the plans alone. -/
theorem applyReconciliation_keeps {row : Row Uuid CommandState CommandData}
    (howned : row.ownerId = ownerId) (hpending : isPending snapshot row = true)
    {found : List TypedOrder × ReconciliationRecord}
    (hfound : reconcileRow snapshot positions row.data.command = .ok found) (db : Database) :
    SameEntries db (applyReconciliation env ownerId snapshot row found.1 found.2 db).state := by
  let db₀ : Database := { Database.empty with commands := [row] }
  exact (applyReconciliation_within (sameEntries_order (IngestWrite db₀ ownerId snapshot))
    ⟨List.mem_singleton_self row, howned⟩ hpending env htyped hfound db).1

/-- What the loop over other rows leaves alone. -/
theorem reconcileRows_keeps {rows : List (Row Uuid CommandState CommandData)}
    (howned : ∀ row ∈ rows, row.ownerId = ownerId) (db : Database) :
    SameEntries db (reconcileRows env ownerId snapshot positions rows db).state ∧
      ∀ id ∉ rows.map (·.id),
        KeepsRowsOf id db (reconcileRows env ownerId snapshot positions rows db).state := by
  let db₀ : Database := { Database.empty with commands := rows }
  have hrows : ∀ row ∈ rows, row ∈ db₀.commands ∧ row.ownerId = ownerId := fun row hrow =>
    ⟨hrow, howned row hrow⟩
  refine ⟨?_, fun id hid => ?_⟩
  · exact (reconcileRows_within (sameEntries_order (IngestWrite db₀ ownerId snapshot)) env htyped hrows
      db).1
  · exact (reconcileRows_within (keepsRowsOf_order ownerId snapshot hid) env htyped hrows db).1

/-- **The loop settles every pending row whose plan is stored.** -/
theorem reconcileRows_settles {rows : List (Row Uuid CommandState CommandData)}
    (hids : (rows.map (·.id)).Nodup) (howned : ∀ row ∈ rows, row.ownerId = ownerId) {db : Database}
    {results : List ReconciliationRecord}
    (h : (reconcileRows env ownerId snapshot positions rows db).result = .ok results) :
    ∀ row ∈ rows, isPending snapshot row = true → ∀ plan,
      commandPlan? db ownerId row.data.command = some plan →
        SettledBy ownerId snapshot row
          (reconcileRows env ownerId snapshot positions rows db).state := by
  induction rows generalizing db results with
  | nil =>
    intro row hrow
    cases hrow
  | cons first rest ih =>
    obtain ⟨hfirst, hrest⟩ := List.nodup_cons.1 hids
    have hrestOwned : ∀ row ∈ rest, row.ownerId = ownerId := fun row hrow =>
      howned row (List.mem_cons_of_mem _ hrow)
    have hfirstOwned : first.ownerId = ownerId := howned first List.mem_cons_self
    intro row hrow hpending plan hplan
    unfold reconcileRows at h ⊢
    by_cases hloop : isPending snapshot first = true
    · rw [if_pos hloop] at h ⊢
      cases hfound : reconcileRow snapshot positions first.data.command with
      | error e =>
        rw [Tx.lift_bind_error hfound] at h
        cases h
      | ok found =>
        rw [Tx.lift_bind_ok hfound, Tx.modify_bind] at h
        rw [Tx.lift_bind_ok rfl, Tx.modify_bind]
        obtain ⟨_, hsettled, h, hs₁⟩ := Tx.bind_eq_ok h
        obtain ⟨_, htail, _, hs₂⟩ := Tx.bind_eq_ok h
        rw [hs₁, hs₂]
        rcases List.mem_cons.1 hrow with rfl | hrow
        · have hstored : commandPlan? (db.addReconciliation env ownerId found.2) ownerId
              row.data.command = some plan := hplan
          have hhead := applyReconciliation_settles htyped hfound hstored hsettled
          obtain ⟨e, he, hrows⟩ := hhead.settled
          refine ⟨hhead.unnamed, e, he, fun row' hrow' hid => hrows row' ?_ hid⟩
          exact (reconcileRows_keeps htyped hrestOwned _).2 row.id hfirst row' hrow' hid
        · have hkept : SameEntries _ (applyReconciliation env ownerId snapshot first found.1 found.2
              (db.addReconciliation env ownerId found.2)).state :=
            applyReconciliation_keeps htyped hfirstOwned hloop hfound _
          refine ih hrest hrestOwned htail row hrow hpending plan ?_
          unfold commandPlan?
          rw [hkept.plans]
          exact hplan
    · rw [if_neg hloop] at h ⊢
      rcases List.mem_cons.1 hrow with rfl | hrow
      · exact absurd hpending hloop
      · exact ih hrest hrestOwned h row hrow hpending plan hplan

end

/-! ## The route -/

/-- **No ingestion touches a plan, a reservation or an active trade.** -/
theorem ingest_sameEntries (env : Env) (ownerId : Uuid) (snapshot : BrokerSnapshot) (db : Database) :
    SameEntries db (ingestBrokerSnapshot env ownerId snapshot db).state :=
  (ingest_keeps (sameEntries_order (IngestWrite db ownerId snapshot)) env).1

section
variable {env : Env} {ownerId : Uuid} {snapshot : BrokerSnapshot} {db : Database}

/-- An ingestion that returns found its snapshot stored already, or went through the loop. -/
theorem ingest_ok_cases {r : IngestResult}
    (hok : (ingestBrokerSnapshot env ownerId snapshot db).result = .ok r) :
    (r = ⟨snapshot.sequence, [], true⟩ ∧ (ingestBrokerSnapshot env ownerId snapshot db).state = db) ∨
    ∃ positions results, r = ⟨snapshot.sequence, results, false⟩ ∧
      snapshot.positions.mapM (typedPosition snapshot.sequence) = .ok positions ∧
      (reconcileRows env ownerId snapshot positions (listedCommands db ownerId)
        (db.addSnapshot env ownerId snapshot)).result = .ok results ∧
      (ingestBrokerSnapshot env ownerId snapshot db).state = (reconcileRows env ownerId snapshot
        positions (listedCommands db ownerId) (db.addSnapshot env ownerId snapshot)).state := by
  unfold ingestBrokerSnapshot at hok ⊢
  generalize ht : (Tx.get >>= fun db => _ : Session IngestResult) = t at hok ⊢
  have hrun : (t db).result = .ok r := by
    cases hresult : (t db).result with
    | ok r' => rwa [Tx.unitOfWork_ok hresult, hresult] at hok
    | error e =>
      rw [Tx.unitOfWork_error hresult] at hok
      cases hok
  rw [Tx.unitOfWork_ok hrun]
  subst ht
  rw [Tx.get_bind] at hrun ⊢
  split at hrun
  · rename_i hknown
    rw [if_pos hknown]
    cases hrun
    exact .inl ⟨rfl, rfl⟩
  · rename_i hfresh
    rw [if_neg hfresh]
    by_cases horder : outOfOrder snapshot (accountSnapshots db ownerId snapshot.accountId) = false
    · rw [Tx.require_bind_pos horder] at hrun ⊢
      rw [ingestNew, Tx.modify_bind] at hrun ⊢
      cases htyped : snapshot.positions.mapM (typedPosition snapshot.sequence) with
      | error e =>
        rw [Tx.lift_bind_error htyped] at hrun
        cases hrun
      | ok positions =>
        rw [Tx.lift_bind_ok htyped, Tx.get_bind] at hrun
        rw [Tx.lift_bind_ok rfl, Tx.get_bind]
        obtain ⟨results, hresults, hend, hstate⟩ := Tx.bind_eq_ok hrun
        cases hend
        exact .inr ⟨positions, results, rfl, rfl, hresults, hstate⟩
    · rw [Tx.require_bind_neg horder] at hrun
      cases hrun

/-- **An accepted snapshot has settled every pending command of its account whose plan is stored**, an
entry by its order or by nothing. -/
theorem accepted_settles (hids : (db.commands.map (·.id)).Nodup)
    (h : Accepts env ownerId snapshot db) {row : Row Uuid CommandState CommandData}
    (hrow : row ∈ db.commands) (howned : row.ownerId = ownerId)
    (hpending : isPending snapshot row = true) {plan : Row Uuid TradePlanState TradePlan}
    (hplan : commandPlan? db ownerId row.data.command = some plan) :
    SettledBy ownerId snapshot row (ingestBrokerSnapshot env ownerId snapshot db).state := by
  obtain ⟨r, hok, hnew⟩ := h
  rcases ingest_ok_cases hok with ⟨rfl, _⟩ | ⟨positions, results, _, htyped, hresults, hstate⟩
  · cases hnew
  have hlisted : ((listedCommands db ownerId).map (·.id)).Nodup := by
    have hperm := List.perm_insertionSort (fun a b : Row Uuid CommandState CommandData =>
      b.updatedAt ≤ a.updatedAt) (db.commands.filter fun r => r.ownerId = ownerId ∧ true = true)
    refine ((hperm.map (·.id)).nodup_iff).2 ?_
    exact (List.Sublist.map _ List.filter_sublist).nodup hids
  rw [hstate]
  refine reconcileRows_settles htyped hlisted (fun row hrow => ?_) hresults row ?_ hpending plan hplan
  · exact (Table.mem_listed.1 hrow).2.1
  · exact Table.mem_listed.2 ⟨hrow, howned, rfl⟩

end

end Matrades

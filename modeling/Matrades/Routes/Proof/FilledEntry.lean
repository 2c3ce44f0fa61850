import Matrades.Worker.Proof.Lifecycle

/-!
# What becomes of a filled entry

A fill that an ingestion recognises by the entry's order settles the command and nothing else: the plan
stays as it is, no active trade is stored and the reservation is not moved (`ingest_sameEntries`). Only
the position branch would do that, and it raises. So in a run of dispatches and snapshots every filled
entry becomes a managed trade exactly if no accepted snapshot shows an entry's order filled
(`fills_managed_iff`).
-/

namespace Matrades

open Base

/-- An entry whose plan is stored and has a reservation. -/
structure ReservedEntry (db : Database) (ownerId : Uuid) (row : Row Uuid CommandState CommandData)
    (plan : Row Uuid TradePlanState TradePlan) (reservationId : Uuid) : Prop where
  listed : row ∈ db.commands
  owned : row.ownerId = ownerId
  entry : row.data.command.action = .placeOrder
  planned : commandPlan? db ownerId row.data.command = some plan
  reserved : plan.data.reservationId = some reservationId

/-- The filled entry is managed: its plan is active, its trade is stored, and its reservation is that of
an open position. -/
structure Managed (db : Database) (ownerId : Uuid) (command : ExecutionCommand) (reservationId : Uuid) :
    Prop where
  active : ∃ plan, commandPlan? db ownerId command = some plan ∧ plan.state = .active
  traded : ∃ trade ∈ db.activeTrades, trade.data.executionCommandId = some command.id
  opened : ∃ r ∈ db.reservations, r.id = reservationId ∧ r.state = .openPosition

/-- The reservation of the entry is split: its filled part, and a rest that is still reserved. -/
structure PartlyManaged (db : Database) (plan : TradePlan) (reservationId : Uuid) : Prop where
  split : ∃ r ∈ db.reservations, r.id = reservationId ∧ r.state = .partiallyFilled ∧
    ∃ rest ∈ db.reservations, rest.splitFrom = some reservationId ∧ rest.state.isActive = true ∧
      r.amount + rest.amount = plan.risk.snapshot.candidateTradeRisk

/-! ## Runs of dispatches and snapshots -/

inductive FillOp
  | dispatch (env : TaskEnv) (answer : AdapterAnswer) (ownerId commandId : Uuid)
  | ingest (env : Env) (ownerId : Uuid) (snapshot : BrokerSnapshot)

namespace FillOp

def step (db : Database) : FillOp → Database
  | .dispatch env answer ownerId commandId => (dispatchTask env answer ownerId commandId db).state
  | .ingest env ownerId snapshot => (ingestBrokerSnapshot env ownerId snapshot db).state

/-- Every entry that the ingestion of an accepted snapshot leaves filled is managed after it. -/
def FillsManaged (db : Database) : FillOp → Prop
  | .ingest env ownerId snapshot => Accepts env ownerId snapshot db →
      ∀ row plan reservationId, ReservedEntry db ownerId row plan reservationId →
        isPending snapshot row = true →
        ∀ row' ∈ (ingestBrokerSnapshot env ownerId snapshot db).state.commands, row'.id = row.id →
          (row'.state = .applied → Managed (ingestBrokerSnapshot env ownerId snapshot db).state ownerId
            row.data.command reservationId) ∧
          (row'.state = .partiallyApplied → PartlyManaged
            (ingestBrokerSnapshot env ownerId snapshot db).state plan.data reservationId)
  | _ => True

/-- The only order that the snapshot reports for the command is filled, in part at least. -/
def ShowsFill (snapshot : BrokerSnapshot) (command : ExecutionCommand) : Prop :=
  ∃ item, relevantOrders command snapshot = [item] ∧ 0 < item.filledVolume

/-- No accepted snapshot shows the order of a pending entry filled. -/
def NoFillShown (db : Database) : FillOp → Prop
  | .ingest env ownerId snapshot => Accepts env ownerId snapshot db →
      ∀ row plan reservationId, ReservedEntry db ownerId row plan reservationId →
        isPending snapshot row = true → ¬ShowsFill snapshot row.data.command
  | _ => True

end FillOp

/-- No reservation has become that of a position. -/
def Unfilled (db : Database) : Prop :=
  ∀ r ∈ db.reservations, r.state ≠ .openPosition ∧ r.state ≠ .partiallyFilled

/-! ## One ingestion -/

theorem matchedEvidence_filled {filled : ℚ} {requested : Dec} {e : Evidence}
    (h : matchedEvidence filled requested = .ok e) :
    (e.outcome = .applied ∨ e.outcome = .partiallyApplied) ↔ 0 < filled := by
  unfold matchedEvidence at h
  split at h
  · rename_i hnone
    cases h
    exact iff_of_false (by decide) (not_lt.2 hnone)
  · rename_i hsome
    obtain ⟨short, _, h⟩ := ok_of_bind h
    cases h
    refine iff_of_true ?_ (not_le.1 hsome)
    cases short <;> decide

theorem typedOrder_filled {command : ExecutionCommand} {item : BrokerOrder} {typed : TypedOrder}
    (h : typedOrder command item = .ok typed) : typed.filledQuantity = item.filledVolume := by
  unfold typedOrder at h
  obtain ⟨_, h⟩ := ok_of_guard h
  cases h
  rfl

/-- A settled entry is filled exactly if the snapshot shows its order filled. -/
theorem settled_filled_iff {ownerId : Uuid} {snapshot : BrokerSnapshot}
    {row : Row Uuid CommandState CommandData} {db' : Database}
    (h : SettledBy ownerId snapshot row db') (hentry : row.data.command.action = .placeOrder) :
    ∃ e : Evidence, (∀ row' ∈ db'.commands, row'.id = row.id → row'.state = e.outcome) ∧
      ((e.outcome = .applied ∨ e.outcome = .partiallyApplied) ↔
        FillOp.ShowsFill snapshot row.data.command) := by
  obtain ⟨e, he, hrows⟩ := h.settled
  refine ⟨e, hrows, ?_⟩
  obtain ⟨positions, htyped, he⟩ := ok_of_bind he
  obtain ⟨found, hfound, he⟩ := ok_of_bind he
  have hunnamed := h.unnamed hentry positions found htyped hfound
  unfold foundEvidence at he
  rcases reconcileRow_cases hfound with ⟨item, order, hitem, horder, horders, hstate, _⟩ |
    ⟨hnone, _, matching, _, hresult⟩ | ⟨hseveral, hstate, _⟩
  · rw [hstate, horders] at he
    obtain ⟨requested, _, he⟩ := ok_of_bind he
    rw [matchedEvidence_filled he]
    have hfilled : filledQuantity (matchedOrder [order]) (matchedPosition snapshot found.2) =
        item.filledVolume := typedOrder_filled horder
    rw [hfilled]
    constructor
    · exact fun hpos => ⟨item, hitem, hpos⟩
    · rintro ⟨item', hitem', hpos⟩
      rw [hitem] at hitem'
      cases hitem'
      exact hpos
  · have hnotShown : ¬FillOp.ShowsFill snapshot row.data.command := by
      rintro ⟨item, hitem, _⟩
      rw [hnone] at hitem
      cases hitem
    -- a position is not named, so none fits or several do
    rw [hresult] at hunnamed he
    refine iff_of_false ?_ hnotShown
    rcases matching with _ | ⟨first, _ | ⟨second, rest⟩⟩
    · cases he
      decide
    · cases hunnamed
    · cases he
      decide
  · have hnotShown : ¬FillOp.ShowsFill snapshot row.data.command := by
      rintro ⟨item, hitem, _⟩
      rw [hitem] at hseveral
      exact absurd hseveral (Nat.not_succ_le_self 1)
    rw [hstate] at he
    cases he
    exact iff_of_false (by decide) hnotShown

theorem not_managed {db : Database} (hu : Unfilled db) {ownerId reservationId : Uuid}
    {command : ExecutionCommand} : ¬Managed db ownerId command reservationId := by
  rintro ⟨_, _, r, hr, _, hstate⟩
  exact (hu r hr).1 hstate

theorem not_partlyManaged {db : Database} (hu : Unfilled db) {plan : TradePlan} {reservationId : Uuid} :
    ¬PartlyManaged db plan reservationId := by
  rintro ⟨r, hr, _, hstate, _⟩
  exact (hu r hr).2 hstate

theorem unfilled_ingest {db : Database} (hu : Unfilled db) (env : Env) (ownerId : Uuid)
    (snapshot : BrokerSnapshot) : Unfilled (ingestBrokerSnapshot env ownerId snapshot db).state := by
  unfold Unfilled
  rw [(ingest_sameEntries env ownerId snapshot db).reservations]
  exact hu

theorem fillsManaged_ingest_iff {db : Database} (hk : Keyed db) (hu : Unfilled db) {env : Env}
    {ownerId : Uuid} {snapshot : BrokerSnapshot} :
    FillOp.FillsManaged db (.ingest env ownerId snapshot) ↔
      FillOp.NoFillShown db (.ingest env ownerId snapshot) := by
  have hu' := unfilled_ingest hu env ownerId snapshot
  refine forall_congr' fun haccepts => forall_congr' fun row => forall_congr' fun plan =>
    forall_congr' fun reservationId => forall_congr' fun hentry => forall_congr' fun hpending => ?_
  have hsettled := accepted_settles hk.unique haccepts hentry.listed hentry.owned hpending hentry.planned
  obtain ⟨e, hrows, hfilled⟩ := settled_filled_iff hsettled hentry.entry
  rw [← hfilled]
  constructor
  · intro hmanaged hout
    have hids := (ingest_within (keepsRows_order hk ownerId snapshot) env).1.ids
    have hstored : row.id ∈ (ingestBrokerSnapshot env ownerId snapshot db).state.commands.map
        (·.id) := hids ▸ List.mem_map_of_mem hentry.listed
    obtain ⟨row', hrow', hid⟩ := List.mem_map.1 hstored
    have hstate := hrows row' hrow' hid
    rcases hout with hout | hout
    · exact not_managed hu' ((hmanaged row' hrow' hid).1 (hstate.trans hout))
    · exact not_partlyManaged hu' ((hmanaged row' hrow' hid).2 (hstate.trans hout))
  · intro hnot row' hrow' hid
    have hstate := hrows row' hrow' hid
    exact ⟨fun happlied => absurd (.inl (hstate.symm.trans happlied)) hnot,
      fun hpartly => absurd (.inr (hstate.symm.trans hpartly)) hnot⟩

/-! ## One dispatch -/

/-- A dispatch gives a reservation back or ties it to a working order, and moves no other. -/
theorem settled_reservations (db : Database) (env : TaskEnv) (ownerId : Uuid) (ready : Ready)
    (outcome : ExecutionCommand) {r' : Reservation}
    (h : r' ∈ (db.settled env ownerId ready outcome).reservations) :
    r' ∈ db.reservations ∨ r'.state = .released ∨ r'.state = .orderWorking := by
  rcases settled_rows db env ownerId ready outcome with hsame | ⟨id, _, move, hmove, hrows⟩
  · exact .inl (hsame ▸ h)
  rw [hrows] at h
  rcases mem_moveReservation h with hold | hstate
  · exact .inl hold
  · rw [hstate]
    unfold reservationMove at hmove
    split at hmove
    · cases hmove
      exact .inr (.inl rfl)
    · cases hmove
      exact .inr (.inr rfl)
    · cases hmove

theorem unfilled_dispatch {db : Database} (hu : Unfilled db) (env : TaskEnv) (answer : AdapterAnswer)
    (ownerId commandId : Uuid) : Unfilled (dispatchTask env answer ownerId commandId db).state := by
  rcases dispatchTask_cases env answer ownerId commandId db with hstate |
    ⟨row, plan, authorization, outcome, _, _, _, hstate⟩
  · rw [hstate]
    exact hu
  · rw [hstate]
    intro r' hr'
    rcases settled_reservations _ _ _ _ _ hr' with hr' | hr' | hr'
    · exact hu r' hr'
    · rw [hr']
      decide
    · rw [hr']
      decide

/-! ## Runs -/

theorem keyed_unfilled_step {db : Database} (h : Keyed db ∧ Unfilled db) (op : FillOp) :
    Keyed (op.step db) ∧ Unfilled (op.step db) := by
  cases op with
  | dispatch env answer ownerId commandId =>
    exact ⟨(keepsRows_dispatch h.1 env answer ownerId commandId).keyed h.1,
      unfilled_dispatch h.2 env answer ownerId commandId⟩
  | ingest env ownerId snapshot =>
    exact ⟨(ingest_within (keepsRows_order h.1 ownerId snapshot) env).1.keyed h.1,
      unfilled_ingest h.2 env ownerId snapshot⟩

/-- **When filled entries become managed trades**: in every run of dispatches and snapshots before which
nothing was filled, exactly if no accepted snapshot shows the order of a pending entry filled. -/
theorem fills_managed_iff {db : Database} (hk : Keyed db) (hu : Unfilled db) (ops : List FillOp) :
    Along FillOp.step FillOp.FillsManaged db ops ↔ Along FillOp.step FillOp.NoFillShown db ops := by
  refine along_iff_of_inv (I := fun db => Keyed db ∧ Unfilled db)
    (fun _ op h _ => keyed_unfilled_step h op) (fun db op h => ?_) ⟨hk, hu⟩
  cases op with
  | dispatch => exact Iff.rfl
  | ingest => exact fillsManaged_ingest_iff h.1 h.2

/-! ## The entry of one lot -/

theorem lotEntry_keyed : Keyed lotEntryDatabase where
  unique := by decide
  same := by decide

theorem lotEntry_unfilled : Unfilled lotEntryDatabase := by
  unfold Unfilled
  decide

def dispatchEntry : FillOp := .dispatch lotEnv (.responds {}) (.ofNat 9) (.ofNat 30)

/-- The entry is dispatched and acknowledged; then a snapshot shows its order. -/
def dispatchedThen (filled : ℚ) : List FillOp := [
  dispatchEntry,
  .ingest ⟨121 * second, .ofNat⟩ (.ofNat 9) (orderSnapshot [lotOrder filled])]

/-- The order is working: the entry stays acknowledged. -/
theorem fills_managed_working :
    (run FillOp.step lotEntryDatabase (dispatchedThen 0)).commands.map (·.state) = [.acknowledged] ∧
      Along FillOp.step FillOp.FillsManaged lotEntryDatabase (dispatchedThen 0) := by
  refine ⟨by decide +kernel,
    (fills_managed_iff lotEntry_keyed lotEntry_unfilled (dispatchedThen 0)).2 ⟨trivial, ?_, trivial⟩⟩
  intro _ row plan reservationId hentry _ ⟨item, hitem, hpos⟩
  have hunfilled : ∀ row ∈ (FillOp.step lotEntryDatabase dispatchEntry).commands,
      ∀ item ∈ relevantOrders row.data.command (orderSnapshot [lotOrder 0]),
        item.filledVolume ≤ 0 := by decide +kernel
  refine absurd (hunfilled row hentry.listed item ?_) (not_le.2 hpos)
  rw [hitem]
  exact List.mem_singleton_self item

/-- **A filled entry is not managed**: its order is filled and the command applied, but its plan is still
executing, no trade is stored, and its reservation is that of a working order. -/
theorem filled_entry_unmanaged :
    let db := run FillOp.step lotEntryDatabase (dispatchedThen 1)
    db.commands.map (·.state) = [.applied] ∧ db.tradePlans.map (·.state) = [.executing] ∧
      db.activeTrades.map (·.id) = [] ∧ db.reservations.map (·.state) = [.orderWorking] ∧
      ¬Along FillOp.step FillOp.FillsManaged lotEntryDatabase (dispatchedThen 1) := by
  have hreserved : (run FillOp.step lotEntryDatabase (dispatchedThen 1)).reservations.map (·.state) =
      [.orderWorking] := by decide +kernel
  refine ⟨by decide +kernel, by decide +kernel, by decide +kernel, hreserved, fun h => ?_⟩
  have hmanaged := h.2.1
  have haccepts : ∃ r ∈ (ingestBrokerSnapshot ⟨121 * second, .ofNat⟩ (.ofNat 9)
      (orderSnapshot [lotOrder 1]) (FillOp.step lotEntryDatabase dispatchEntry)).result.toOption,
      r.duplicate = false := by decide +kernel
  obtain ⟨r, hr, hnew⟩ := haccepts
  have hentry : let db := FillOp.step lotEntryDatabase dispatchEntry
      ∃ row ∈ db.commands, ∃ plan ∈ commandPlan? db (.ofNat 9) row.data.command,
        ∃ reservationId ∈ plan.data.reservationId,
        (row.ownerId = .ofNat 9 ∧ row.data.command.action = .placeOrder ∧
          isPending (orderSnapshot [lotOrder 1]) row = true) ∧
        ∃ row' ∈ (run FillOp.step lotEntryDatabase (dispatchedThen 1)).commands,
          row'.id = row.id ∧ row'.state = .applied := by decide +kernel
  obtain ⟨row, hrow, plan, hplan, reservationId, hreservation, ⟨howned, haction, hpending⟩, row', hrow',
    hid, hstate⟩ := hentry
  have hopened := ((hmanaged ⟨r, toOption_eq_some.1 hr, hnew⟩ row plan reservationId
    ⟨hrow, howned, haction, hplan, hreservation⟩ hpending row' hrow' hid).1 hstate).opened
  obtain ⟨reservation, hmem, _, hopen⟩ := hopened
  have hworking := List.mem_map_of_mem (f := (·.state)) hmem
  change reservation.state ∈ (run FillOp.step lotEntryDatabase (dispatchedThen 1)).reservations.map
    (·.state) at hworking
  rw [hreserved, hopen] at hworking
  exact absurd hworking (by decide)

end Matrades

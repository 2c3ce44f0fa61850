import Matrades.Bridge.Snapshot
import Matrades.Routes.TradeManagement
import Matrades.Worker.Proof.SubmitOnce

/-!
# Recognising an entry in a snapshot

An entry's postcondition names the listing and the specification of its plan. A position that
carries both, with the symbol, the direction and the volume, fits and is recognised
(`recognises_listed`); one that lacks the listing never fits (`positionFits_unlisted`). The advisor publishes no listing and no order,
so no published snapshot ever recognises an entry (`entry_never_recognised`): it confirms that the
command had no effect, also while its position is open (`open_entry_has_no_effect`).
-/

namespace Matrades

open Base

/-- The snapshot shows a position with the plan's symbol, direction and volume. -/
def ShowsEntry (plan : TradePlan) (snapshot : BrokerSnapshot) : Prop :=
  ∃ p ∈ snapshot.positions, p.symbol = plan.construction.instrument ∧
    p.direction = plan.construction.direction ∧ p.volume = plan.construction.approvedSize

/-- The snapshot's facts are accepted, and the answer is a match or several. -/
def Recognises (snapshot : BrokerSnapshot) (command : ExecutionCommand) : Prop :=
  ∃ positions found, snapshot.positions.mapM (typedPosition snapshot.sequence) = .ok positions ∧
    reconcileRow snapshot positions command = .ok found ∧
    (found.2.state = .matched ∨ found.2.state = .ambiguous)

/-! ## Positions and entry postconditions -/

theorem createCommand_postcondition {now : Time} {id : Uuid} {plan : TradePlan}
    {authorization : ExecutionAuthorization} {key : String} {command : ExecutionCommand}
    (h : createCommand now id plan authorization key = .ok command) :
    command.requestedPostcondition = entryPostcondition plan := by
  unfold createCommand at h
  split at h
  · cases h
  split at h
  · cases h
  split at h
  · cases h
  cases h
  rfl

section
variable (plan : TradePlan)

theorem entry_instrument : (entryPostcondition plan).get? "instrument" =
    some (.str plan.construction.instrument) := rfl

theorem entry_direction : (entryPostcondition plan).get? "direction" =
    some (.str plan.construction.direction.value) := rfl

theorem entry_quantity : (entryPostcondition plan).get? "quantity" =
    some (.str (decimalText plan.construction.approvedSize)) := rfl

theorem entry_venue : (entryPostcondition plan).get? "venue_instrument_id" =
    some (.str plan.construction.venueInstrumentId.str) := rfl

theorem entry_specification : (entryPostcondition plan).get? "specification_version_id" =
    some (.str plan.construction.specificationVersionId.str) := rfl

end

/-- A requested text passes no other text. -/
theorem requests_str {requested : Dict String Json} {key wanted : String} (text : String)
    (h : requested.get? key = some (.str wanted)) :
    requests requested key text = decide (wanted = text) := by
  rw [requests, h]
  rfl

theorem quantityFits_entry (plan : TradePlan) (quantity : ℚ) :
    ∃ fits, quantityFits (entryPostcondition plan) quantity = .ok fits ∧
      (IsDecimal plan.construction.approvedSize →
        fits = decide (|quantity| = plan.construction.approvedSize)) := by
  obtain ⟨q, hq⟩ := parseDec_decText_isFinite plan.construction.approvedSize
  have hread : (Json.str (decimalText plan.construction.approvedSize)).decimal? = some (.fin q) := by
    rw [Json.decimal?, decimalText, String.toList_ofList, hq]
  refine ⟨decide (|quantity| = q), ?_, fun h => ?_⟩
  · simp only [quantityFits, entry_quantity, hread]
  · rw [parseDec_decText h] at hq
    cases hq
    rfl

/-- Every position has an answer for an entry. -/
theorem positionFits_entry_ok (plan : TradePlan) (item : TypedPosition) :
    ∃ fits, positionFits (entryPostcondition plan) item = .ok fits := by
  obtain ⟨fits, hfits, _⟩ := quantityFits_entry plan item.quantity
  unfold positionFits
  split
  · exact ⟨_, rfl⟩
  split
  · exact ⟨_, rfl⟩
  rw [hfits]
  exact ⟨_, rfl⟩

/-- A position without a listing does not fit an entry. -/
theorem positionFits_unlisted (plan : TradePlan) {item : TypedPosition}
    (h : item.venueInstrumentId = none) :
    positionFits (entryPostcondition plan) item = .ok false := by
  obtain ⟨fits, hfits, _⟩ := quantityFits_entry plan item.quantity
  have hlisting : requests (entryPostcondition plan) "venue_instrument_id"
      (strOption item.venueInstrumentId) = false := by
    rw [requests_str _ (entry_venue plan), h]
    exact decide_eq_false (Uuid.str_ne_none _)
  unfold positionFits
  split
  · rfl
  split
  · rfl
  simp [hfits, hlisting]

/-- A position that carries the plan's listing and specification fits its entry. -/
theorem positionFits_entry {plan : TradePlan} {item : TypedPosition}
    (hsize : IsDecimal plan.construction.approvedSize) (hpos : 0 < plan.construction.approvedSize)
    (hinstrument : item.instrument = plan.construction.instrument)
    (hdirection : item.direction = some plan.construction.direction)
    (hquantity : item.quantity = plan.construction.approvedSize)
    (hvenue : item.venueInstrumentId = some plan.construction.venueInstrumentId)
    (hspecification : item.specificationVersionId = some plan.construction.specificationVersionId) :
    positionFits (entryPostcondition plan) item = .ok true := by
  obtain ⟨fits, hfits, hexact⟩ := quantityFits_entry plan item.quantity
  have htrue : fits = true := by
    rw [hexact hsize, hquantity, abs_of_pos hpos]
    simp
  have hname : Json.isText ((entryPostcondition plan).get? "instrument") item.instrument = true := by
    rw [entry_instrument, hinstrument]
    simp [Json.isText]
  have hway : requests (entryPostcondition plan) "direction" plan.construction.direction.value =
      true := by
    rw [requests_str _ (entry_direction plan), decide_eq_true rfl]
  have hlisting : requests (entryPostcondition plan) "venue_instrument_id"
      (strOption item.venueInstrumentId) = true := by
    rw [requests_str _ (entry_venue plan), hvenue, strOption, decide_eq_true rfl]
  have hterms : requests (entryPostcondition plan) "specification_version_id"
      (strOption item.specificationVersionId) = true := by
    rw [requests_str _ (entry_specification plan), hspecification, strOption, decide_eq_true rfl]
  unfold positionFits
  rw [if_neg (by simp [hname]), if_neg (by simp [hdirection, hway]), hfits, htrue, hlisting, hterms]
  rfl

/-- **What an entry is recognised by**: a snapshot without orders recognises it if one of its positions
carries the plan's listing and specification beside its symbol, direction and volume. -/
theorem recognises_listed {now : Time} {id : Uuid} {plan : TradePlan}
    {authorization : ExecutionAuthorization} {key : String} {command : ExecutionCommand}
    (hcreated : createCommand now id plan authorization key = .ok command)
    (hsize : IsDecimal plan.construction.approvedSize) (hpos : 0 < plan.construction.approvedSize)
    {snapshot : BrokerSnapshot} (horders : snapshot.orders = []) {positions : List TypedPosition}
    (htyped : snapshot.positions.mapM (typedPosition snapshot.sequence) = .ok positions)
    {item : TypedPosition} (hitem : item ∈ positions)
    (hinstrument : item.instrument = plan.construction.instrument)
    (hdirection : item.direction = some plan.construction.direction)
    (hquantity : item.quantity = plan.construction.approvedSize)
    (hvenue : item.venueInstrumentId = some plan.construction.venueInstrumentId)
    (hspecification : item.specificationVersionId = some plan.construction.specificationVersionId) :
    Recognises snapshot command := by
  have hrequested := createCommand_postcondition hcreated
  obtain ⟨matching, hmatching⟩ : ∃ matching,
      fittingPositions command.requestedPostcondition positions = .ok matching :=
    fittingPositions_ok fun item _ => hrequested ▸ positionFits_entry_ok plan item
  have hmem : item ∈ matching := by
    obtain ⟨fits, hfits, hkept⟩ := mem_fittingPositions hmatching hitem
    have hyes := positionFits_entry hsize hpos hinstrument hdirection hquantity hvenue hspecification
    rw [hrequested, hyes] at hfits
    exact hkept (Except.ok.inj hfits).symm
  have hnone : (relevantOrders command snapshot).mapM (typedOrder command) = .ok [] := by
    rw [relevantOrders, horders]
    rfl
  have hreconciled : reconcileCommand command [] positions true =
      .ok (reconcilePositions command true matching) := bind_ok_eq hmatching _
  refine ⟨positions, ([], reconcilePositions command true matching), htyped, ?_, ?_⟩
  · rw [reconcileRow, bind_ok_eq hnone, bind_ok_eq hreconciled]
    rfl
  · rcases matching with _ | ⟨first, _ | ⟨second, rest⟩⟩
    · cases hmem
    · exact .inl rfl
    · exact .inr rfl

/-! ## Published snapshots -/

theorem typedPosition_venue {sequence : Int} {item : BrokerPosition} {typed : TypedPosition}
    (h : typedPosition sequence item = .ok typed) :
    typed.venueInstrumentId = item.venueInstrumentId := by
  unfold typedPosition at h
  split at h
  · cases h
  split at h
  · cases h
  cases h
  rfl

/-- The typed positions of a published snapshot have no listing. -/
theorem published_unlisted {accountId messageId : Uuid} {sequence : Nat} {now : Time}
    {figures : AccountFigures} {t : Terminal} {positions : List TypedPosition}
    (h : (publishedSnapshot accountId messageId sequence now figures t).positions.mapM
      (typedPosition (publishedSnapshot accountId messageId sequence now figures t).sequence) =
        .ok positions) :
    ∀ item ∈ positions, item.venueInstrumentId = none := by
  intro item hitem
  obtain ⟨source, hsource, htyped⟩ := ok_mem_of_mapM h hitem
  obtain ⟨p, _, rfl⟩ := List.mem_map.1 hsource
  exact typedPosition_venue htyped

/-- **No published snapshot recognises an entry**: whatever positions are open, the answer to an
entry command is the confirmation that it had no effect, which allows a retry. -/
theorem entry_never_recognised {now : Time} {id : Uuid} {plan : TradePlan}
    {authorization : ExecutionAuthorization} {key : String} {created command : ExecutionCommand}
    (hcreated : createCommand now id plan authorization key = .ok created)
    (hsame : command.requestedPostcondition = created.requestedPostcondition)
    (accountId messageId : Uuid) (sequence : Nat) (published : Time) (figures : AccountFigures)
    (t : Terminal) :
    let snapshot := publishedSnapshot accountId messageId sequence published figures t
    ¬Recognises snapshot command ∧
      ∀ positions, snapshot.positions.mapM (typedPosition snapshot.sequence) = .ok positions →
        ∃ result, reconcileRow snapshot positions command = .ok ([], result) ∧
          result.state = .noEffectConfirmed ∧ retryAllowed result = true := by
  intro snapshot
  have hanswer : ∀ positions,
      snapshot.positions.mapM (typedPosition snapshot.sequence) = .ok positions →
        reconcileRow snapshot positions command =
          .ok ([], reconcilePositions command true []) := by
    intro positions htyped
    have hnone : fittingPositions command.requestedPostcondition positions = .ok [] := by
      rw [hsame, createCommand_postcondition hcreated]
      exact fittingPositions_eq_nil fun item hitem =>
        positionFits_unlisted plan (published_unlisted htyped item hitem)
    have hreconciled : reconcileCommand command [] positions true =
        .ok (reconcilePositions command true []) := bind_ok_eq hnone _
    have horders : (relevantOrders command snapshot).mapM (typedOrder command) = .ok [] := rfl
    rw [reconcileRow, bind_ok_eq horders, bind_ok_eq hreconciled]
    rfl
  constructor
  · rintro ⟨positions, found, htyped, hfound, hstate⟩
    rw [hanswer positions htyped] at hfound
    cases hfound
    rcases hstate with hstate | hstate <;> cases hstate
  · intro positions htyped
    exact ⟨_, hanswer positions htyped, rfl, rfl⟩

/-! ## An open entry -/

/-- The terminal with the position that the plan's entry opened. -/
def filledTerminal : Terminal where
  positions := [⟨7, 7, "EURUSD".toList, true, 1, 11 / 10, 1, 13 / 10, 0⟩]
  nodup := by decide
  symbolSelect := fun _ => true
  bid := fun _ => 11 / 10
  ask := fun _ => 11 / 10
  point := fun _ => 1 / 100000
  orderCalcProfit := fun _ _ _ _ _ => some (-100)

def filledSnapshot : BrokerSnapshot :=
  publishedSnapshot (.ofNat 1) (.ofNat 71) 1 (120 * second) ⟨1000, 1000, 0, "USD"⟩ filledTerminal

theorem lotEntry_created :
    createCommand (100 * second) (.ofNat 30) pendingPlan lotEntryAuthorization "entry:20" =
      .ok { lotEntry with state := .created } := by
  unfold createCommand
  rw [if_neg (by decide), if_neg (by decide), if_neg (by decide)]
  rfl

theorem filledSnapshot_shows : ShowsEntry pendingPlan filledSnapshot :=
  ⟨publishedPosition (.ofNat 1) (120 * second) filledTerminal
    ⟨7, 7, "EURUSD".toList, true, 1, 11 / 10, 1, 13 / 10, 0⟩, List.mem_cons_self, rfl, rfl,
    by decide +kernel⟩

/-- The entry after its acknowledgement. -/
def acknowledgedDatabase : Database :=
  lotDatabase pendingPlan { lotEntry with state := .acknowledged } (lotReservation .orderWorking)

/-- **An open entry is confirmed to have had no effect**: the snapshot shows the position that the
acknowledged command opened. -/
theorem open_entry_has_no_effect :
    ShowsEntry pendingPlan filledSnapshot ∧
      ¬Recognises filledSnapshot { lotEntry with state := .created } ∧
      (ingestBrokerSnapshot ⟨121 * second, .ofNat⟩ (.ofNat 9) filledSnapshot
        acknowledgedDatabase).state.commands.map (·.state) = [.noEffectConfirmed] := by
  refine ⟨filledSnapshot_shows, ?_, by decide +kernel⟩
  rintro ⟨positions, found, htyped, hfound, hstate⟩
  have hrun : ((filledSnapshot.positions.mapM (typedPosition filledSnapshot.sequence)).toOption.bind
      fun positions => (reconcileRow filledSnapshot positions
        { lotEntry with state := .created }).toOption).map (fun found => found.2.state) =
      some .noEffectConfirmed := by decide +kernel
  rw [htyped] at hrun
  simp only [Except.toOption, Option.bind_some, hfound, Option.map_some, Option.some.injEq] at hrun
  rw [hrun] at hstate
  rcases hstate with hstate | hstate <;> cases hstate

theorem entry_never_recognised_filled :
    ShowsEntry pendingPlan filledSnapshot ∧
      ¬Recognises filledSnapshot { lotEntry with state := .created } :=
  ⟨filledSnapshot_shows, (entry_never_recognised lotEntry_created rfl _ _ _ _ _ _).1⟩

end Matrades

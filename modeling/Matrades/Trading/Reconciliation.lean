import Matrades.Base.Result
import Matrades.Store.Database

/-!
# Reconciling a command with broker facts

`reconcile_command` of `modules/trading/reconciliation.py` and `retry_allowed`. A command is matched
by its orders, else by the positions that fit its requested postcondition; with an authoritative
snapshot, no match is the confirmation that it had no effect.
-/

namespace Matrades

open Base

/-- The test of one broker value against a requested one, passed where none is requested. -/
def requests (requested : Dict String Json) (key text : String) : Bool :=
  Json.absent (requested.get? key) || Json.isText (requested.get? key) text

/-- Does the position have the requested quantity? The requested one may not be a number. -/
def quantityFits (requested : Dict String Json) (quantity : ℚ) : Except TaskError Bool :=
  match requested.get? "quantity" with
  | none | some .null => .ok true
  | some value =>
    match value.decimal? with
    | some (.fin q) => .ok (|quantity| = q)
    | some _ => .ok false
    | none => .error (.valueError "decimal.ConversionSyntax")

/-- The conditions on one position, from left to right. -/
def positionFits (requested : Dict String Json) (item : TypedPosition) : Except TaskError Bool :=
  if Json.isText (requested.get? "instrument") item.instrument = false then .ok false
  else if item.direction.any fun d => !requests requested "direction" d.value then .ok false
  else match quantityFits requested item.quantity with
    | .error e => .error e
    | .ok fits => .ok (fits &&
        requests requested "venue_instrument_id" (strOption item.venueInstrumentId) &&
        requests requested "specification_version_id" (strOption item.specificationVersionId))

def fittingPositions (requested : Dict String Json) :
    List TypedPosition → Except TaskError (List TypedPosition)
  | [] => .ok []
  | item :: rest => do
    let fits ← positionFits requested item
    let others ← fittingPositions requested rest
    return if fits then item :: others else others

/-- Is this one of the command's orders? -/
def ownsOrder (command : ExecutionCommand) (item : TypedOrder) : Bool :=
  item.commandId = command.id || command.brokerOrderId = some item.brokerOrderId

def orderRef (item : TypedOrder) : String := "order:" ++ item.brokerOrderId

def positionRef (item : TypedPosition) : String :=
  "position:" ++ item.brokerPositionId ++ ":v" ++ toString item.version

/-- The answer from the positions, where no order matched. -/
def reconcilePositions (command : ExecutionCommand) (authoritativeSnapshot : Bool) :
    List TypedPosition → ReconciliationRecord
  | [position] => {
      accountId := command.accountId
      commandId := command.id
      state := .matched
      certainty := .confirmed
      brokerPositionId := some position.brokerPositionId
      evidenceRefs := [positionRef position] }
  | [] => {
      accountId := command.accountId
      commandId := command.id
      state := if authoritativeSnapshot then .noEffectConfirmed else .outcomeUnknown
      certainty := if authoritativeSnapshot then .confirmed else .uncertain }
  | positions => {
      accountId := command.accountId
      commandId := command.id
      state := .ambiguous
      certainty := .uncertain
      evidenceRefs := positions.map positionRef }

/-- `reconcile_command`. -/
def reconcileCommand (command : ExecutionCommand) (orders : List TypedOrder)
    (positions : List TypedPosition) (authoritativeSnapshot : Bool) :
    Except TaskError ReconciliationRecord :=
  match orders.filter (ownsOrder command) with
  | [order] => .ok {
      accountId := command.accountId
      commandId := command.id
      state := .matched
      certainty := .confirmed
      brokerOrderId := some order.brokerOrderId
      evidenceRefs := [orderRef order] }
  | [] => do
    let matching ← fittingPositions command.requestedPostcondition positions
    return reconcilePositions command authoritativeSnapshot matching
  | orders => .ok {
      accountId := command.accountId
      commandId := command.id
      state := .ambiguous
      certainty := .uncertain
      evidenceRefs := orders.map orderRef }

/-- `retry_allowed`. -/
def retryAllowed (reconciliation : ReconciliationRecord) : Bool :=
  reconciliation.state = .noEffectConfirmed && reconciliation.certainty = .confirmed

/-! ## What the positions decide -/

theorem fittingPositions_eq_nil {requested : Dict String Json} {positions : List TypedPosition}
    (h : ∀ item ∈ positions, positionFits requested item = .ok false) :
    fittingPositions requested positions = .ok [] := by
  induction positions with
  | nil => rfl
  | cons item rest ih =>
    rw [fittingPositions, h item (by simp), ih fun item' h' => h item' (by simp [h'])]
    rfl

/-- The positions have an answer where each one has. -/
theorem fittingPositions_ok {requested : Dict String Json} {positions : List TypedPosition}
    (h : ∀ item ∈ positions, ∃ fits, positionFits requested item = .ok fits) :
    ∃ matching, fittingPositions requested positions = .ok matching := by
  induction positions with
  | nil => exact ⟨[], rfl⟩
  | cons item rest ih =>
    obtain ⟨fits, hfits⟩ := h item List.mem_cons_self
    obtain ⟨others, hothers⟩ := ih fun item' h' => h item' (List.mem_cons_of_mem _ h')
    exact ⟨if fits then item :: others else others, by
      rw [fittingPositions, hfits, hothers]
      rfl⟩

/-- Every position of the list has an answer, and the fitting ones are kept. -/
theorem mem_fittingPositions {requested : Dict String Json} {positions matching : List TypedPosition}
    (h : fittingPositions requested positions = .ok matching) {item : TypedPosition}
    (hitem : item ∈ positions) : ∃ fits, positionFits requested item = .ok fits ∧
      (fits = true → item ∈ matching) := by
  induction positions generalizing matching with
  | nil => cases hitem
  | cons first rest ih =>
    rw [fittingPositions] at h
    obtain ⟨fits, hfits, h⟩ := ok_of_bind h
    obtain ⟨others, hothers, h⟩ := ok_of_bind h
    cases h
    rcases List.mem_cons.1 hitem with rfl | hitem
    · exact ⟨fits, hfits, fun hf => by simp [hf]⟩
    · obtain ⟨fits', hfits', hmem⟩ := ih hothers hitem
      refine ⟨fits', hfits', fun hf => ?_⟩
      split
      · exact List.mem_cons_of_mem _ (hmem hf)
      · exact hmem hf

end Matrades

import Matrades.Routes.ManagementActions
import Matrades.Routes.Proof.EntryRecognition

/-!
# Postconditions of management commands

A position matches a command by the instrument that its postcondition names. The postconditions of
management commands name none, so no position ever decides: without an order of its own, a management
command is confirmed to have had no effect. The answer agrees with the postcondition exactly if the
postcondition does not hold, or the snapshot has one order of the command (`postcondition_judged_iff`).
-/

namespace Matrades

open Base

/-! ## What a management command asks for -/

/-- A new stop, a quantity to close, or a closed position. -/
def ManagementPostcondition (requested : Dict String Json) : Prop :=
  ∃ key ∈ ["stop_loss", "quantity", "position_state"], ∃ value, requested = .ofList [(key, value)]

theorem recommended_managementPostcondition (action : ExecutionAction) (proposedValue : Option ℚ) :
    ManagementPostcondition (recommendedPostcondition action proposedValue) := by
  cases action with
  | setOrChangeStopLoss => exact ⟨"stop_loss", by simp, _, rfl⟩
  | partialClose => exact ⟨"quantity", by simp, _, rfl⟩
  | placeOrder | cancelOrder | setOrChangeTakeProfit | fullExit =>
    exact ⟨"position_state", by simp, _, rfl⟩

/-- The number that the postcondition gives the key. -/
def commandedValue (command : ExecutionCommand) (key : String) : Option ℚ :=
  match (command.requestedPostcondition.get? key).bind Json.decimal? with
  | some (.fin value) => some value
  | _ => none

/-- The snapshot shows the target position in the commanded state: with the new stop, with less volume
by the quantity, or not at all. `before` is the volume at the time of the command. -/
def Achieves (before : ℚ) (command : ExecutionCommand) (snapshot : BrokerSnapshot) : Prop :=
  ∃ target ∈ command.targetPositionId,
    (∃ stop ∈ commandedValue command "stop_loss", ∃ p ∈ snapshot.positions,
      p.positionId = target ∧ p.stopLoss = some stop) ∨
    (∃ quantity ∈ commandedValue command "quantity", ∃ p ∈ snapshot.positions,
      p.positionId = target ∧ p.volume = before - quantity) ∨
    (command.requestedPostcondition.get? "position_state" = some (.str "CLOSED") ∧
      ∀ p ∈ snapshot.positions, p.positionId ≠ target)

/-- The answer: no effect only where the postcondition does not hold, and a match where it does. -/
def JudgesPostcondition (before : ℚ) (command : ExecutionCommand) (snapshot : BrokerSnapshot)
    (orders : List TypedOrder) (positions : List TypedPosition) (authoritativeSnapshot : Bool) : Prop :=
  ∃ result, reconcileCommand command orders positions authoritativeSnapshot = .ok result ∧
    (result.state = .noEffectConfirmed → ¬Achieves before command snapshot) ∧
    (Achieves before command snapshot → result.state = .matched)

/-! ## The answer -/

theorem managementPostcondition_instrument {requested : Dict String Json}
    (h : ManagementPostcondition requested) : requested.get? "instrument" = none := by
  obtain ⟨key, hkey, value, rfl⟩ := h
  simp only [List.mem_cons, List.not_mem_nil, or_false] at hkey
  rcases hkey with rfl | rfl | rfl <;> rfl

/-- No position fits a management command. -/
theorem positionFits_management {requested : Dict String Json} (h : ManagementPostcondition requested)
    (item : TypedPosition) : positionFits requested item = .ok false := by
  unfold positionFits
  rw [managementPostcondition_instrument h]
  rfl

/-- The orders that are typed for a command are its own. -/
theorem typedOrders_own {command : ExecutionCommand} {items : List BrokerOrder} {orders : List TypedOrder}
    (h : items.mapM (typedOrder command) = .ok orders) :
    orders.filter (ownsOrder command) = orders := by
  refine List.filter_eq_self.2 fun order horder => ?_
  obtain ⟨item, -, htyped⟩ := ok_mem_of_mapM h horder
  unfold typedOrder at htyped
  split at htyped
  · cases htyped
  · cases htyped
    simp [ownsOrder]

/-- A management command is matched by one order, ambiguous with several, and else without effect or
unknown. -/
theorem reconcileCommand_management {command : ExecutionCommand} {items : List BrokerOrder}
    {orders : List TypedOrder} (hrequested : ManagementPostcondition command.requestedPostcondition)
    (horders : items.mapM (typedOrder command) = .ok orders) (positions : List TypedPosition)
    (authoritativeSnapshot : Bool) :
    ∃ result, reconcileCommand command orders positions authoritativeSnapshot = .ok result ∧
      (result.state = .matched ↔ items.length = 1) := by
  have hlength : orders.length = items.length := (ok_of_mapM horders).length_eq.symm
  unfold reconcileCommand
  rw [typedOrders_own horders, ← hlength]
  rcases orders with _ | ⟨order, _ | ⟨second, rest⟩⟩
  · have hnone : fittingPositions command.requestedPostcondition positions = .ok [] :=
      fittingPositions_eq_nil fun item _ => positionFits_management hrequested item
    refine ⟨_, bind_ok_eq hnone _, ?_⟩
    cases authoritativeSnapshot <;> simp [reconcilePositions]
  · exact ⟨_, rfl, by simp⟩
  · exact ⟨_, rfl, by simp⟩

/-- **When the answer agrees with the postcondition**: it does not hold, or the snapshot has one order of
the command. -/
theorem postcondition_judged_iff {command : ExecutionCommand} {snapshot : BrokerSnapshot}
    {orders : List TypedOrder}
    (hrequested : ManagementPostcondition command.requestedPostcondition)
    (horders : (relevantOrders command snapshot).mapM (typedOrder command) = .ok orders)
    (before : ℚ) (positions : List TypedPosition) (authoritativeSnapshot : Bool) :
    JudgesPostcondition before command snapshot orders positions authoritativeSnapshot ↔
      ¬Achieves before command snapshot ∨ (relevantOrders command snapshot).length = 1 := by
  obtain ⟨result, hresult, hmatched⟩ :=
    reconcileCommand_management hrequested horders positions authoritativeSnapshot
  rw [← hmatched]
  constructor
  · rintro ⟨result', hresult', -, hholds⟩
    obtain rfl : result' = result := Except.ok.inj (hresult'.symm.trans hresult)
    by_cases hachieved : Achieves before command snapshot
    · exact .inr (hholds hachieved)
    · exact .inl hachieved
  · rintro (hnot | hyes)
    · exact ⟨result, hresult, fun _ => hnot, fun hachieved => absurd hachieved hnot⟩
    · refine ⟨result, hresult, fun hno => ?_, fun _ => hyes⟩
      rw [hyes] at hno
      cases hno

/-! ## A moved stop -/

/-- The command to move the stop of the filled entry's position. -/
def moveStop (stop : ℚ) : ExecutionCommand where
  id := .ofNat 31
  accountId := .ofNat 1
  action := .setOrChangeStopLoss
  tradePlanId := some (.ofNat 20)
  managementActionId := some (.ofNat 61)
  authorizationId := some (.ofNat 41)
  idempotencyKey := "monitor:61:SET_OR_CHANGE_STOP_LOSS"
  requestedPostcondition := recommendedPostcondition .setOrChangeStopLoss (some stop)
  targetPositionId := some "7"
  state := .acknowledged

/-- The filled snapshot has no order, and one position, whose stop is 1. -/
theorem filled_stop : filledSnapshot.orders = [] ∧
    filledSnapshot.positions.map (fun p => (p.positionId, p.stopLoss)) = [("7", some 1)] := by
  decide +kernel

theorem filled_position {p : BrokerPosition} (h : p ∈ filledSnapshot.positions) :
    p.stopLoss = some 1 := by
  have hmem : (p.positionId, p.stopLoss) ∈ [("7", some 1)] := by
    rw [← filled_stop.2]
    exact List.mem_map.2 ⟨p, h, rfl⟩
  simpa using (Prod.mk.inj (List.mem_singleton.1 hmem)).2

/-- A stop at 2 is not what the filled snapshot shows. -/
theorem moveStop_two_not_achieved (before : ℚ) : ¬Achieves before (moveStop 2) filledSnapshot := by
  rintro ⟨target, -, ⟨stop, hstop, p, hp, -, hshown⟩ | ⟨quantity, hquantity, -⟩ | ⟨hstate, -⟩⟩
  · have hvalue : commandedValue (moveStop 2) "stop_loss" = some 2 := by decide +kernel
    rw [hvalue] at hstop
    cases hstop
    rw [filled_position hp] at hshown
    cases hshown
  · have hnone : commandedValue (moveStop 2) "quantity" = none := by decide
    rw [hnone] at hquantity
    cases hquantity
  · have hnone : (moveStop 2).requestedPostcondition.get? "position_state" = none := by decide
    rw [hnone] at hstate
    cases hstate

/-- A stop at 1 is. -/
theorem moveStop_one_achieved (before : ℚ) : Achieves before (moveStop 1) filledSnapshot := by
  have hmem : ("7", some 1) ∈
      filledSnapshot.positions.map (fun p => (p.positionId, p.stopLoss)) := by
    rw [filled_stop.2]
    simp
  obtain ⟨p, hp, hshown⟩ := List.mem_map.1 hmem
  have hvalue : commandedValue (moveStop 1) "stop_loss" = some 1 := by decide +kernel
  exact ⟨"7", rfl, .inl ⟨1, hvalue, p, hp, congrArg Prod.fst hshown, congrArg Prod.snd hshown⟩⟩

theorem moveStop_orders (stop : ℚ) : relevantOrders (moveStop stop) filledSnapshot = [] := by
  rw [relevantOrders, filled_stop.1]
  rfl

theorem moveStop_managementPostcondition (stop : ℚ) :
    ManagementPostcondition (moveStop stop).requestedPostcondition :=
  recommended_managementPostcondition .setOrChangeStopLoss (some stop)

theorem moveStop_two_judged :
    JudgesPostcondition 0.1 (moveStop 2) filledSnapshot [] [] true :=
  (postcondition_judged_iff (moveStop_managementPostcondition 2)
    (by rw [moveStop_orders]; rfl) 0.1 [] true).2 (.inl (moveStop_two_not_achieved 0.1))

/-- **A command whose stop is set is confirmed to have had no effect.** -/
theorem moveStop_one_misjudged :
    ManagementPostcondition (moveStop 1).requestedPostcondition ∧
      Achieves 0.1 (moveStop 1) filledSnapshot ∧
      (∃ result positions,
        filledSnapshot.positions.mapM (typedPosition filledSnapshot.sequence) = .ok positions ∧
        reconcileCommand (moveStop 1) [] positions true = .ok result ∧
        result.state = .noEffectConfirmed) ∧
      ∀ positions, ¬JudgesPostcondition 0.1 (moveStop 1) filledSnapshot [] positions true := by
  have hrequested := moveStop_managementPostcondition 1
  have hnone (positions : List TypedPosition) : fittingPositions (moveStop 1).requestedPostcondition
      positions = .ok [] :=
    fittingPositions_eq_nil fun item _ => positionFits_management hrequested item
  have hrun (positions : List TypedPosition) : ∃ result,
      reconcileCommand (moveStop 1) [] positions true = .ok result ∧
        result.state = .noEffectConfirmed := by
    exact ⟨_, bind_ok_eq (hnone positions) _, rfl⟩
  refine ⟨hrequested, moveStop_one_achieved 0.1, ?_, fun positions => ?_⟩
  · have hsome : (filledSnapshot.positions.mapM (typedPosition filledSnapshot.sequence)).isOk = true := by
      decide +kernel
    cases hpositions : filledSnapshot.positions.mapM (typedPosition filledSnapshot.sequence) with
    | error e =>
      rw [hpositions] at hsome
      cases hsome
    | ok positions =>
      obtain ⟨result, hresult, hstate⟩ := hrun positions
      exact ⟨result, positions, rfl, hresult, hstate⟩
  · rintro ⟨result, hresult, hholds, -⟩
    obtain ⟨result', hresult', hstate⟩ := hrun positions
    obtain rfl : result' = result := Except.ok.inj (hresult'.symm.trans hresult)
    exact hholds hstate (moveStop_one_achieved 0.1)

end Matrades

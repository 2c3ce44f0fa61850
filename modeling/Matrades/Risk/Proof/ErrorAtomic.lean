import Matrades.Risk.Proof.Capacity

/-!
# Reservations after an error

A transition writes the state and the ids of its reservation, and only then checks the amount. An
error before that leaves the reservations as they were; an invalid amount leaves them so only where
the reservation showed the new state and ids already (`atomic_on_error_iff`).
-/

namespace Matrades

open Base

/-- The two operations that change a reservation. -/
inductive ReservationChange
  | transition (target : ReservationState) (fields : TransitionFields)
  | splitPartialFill (filledAmount : ℚ) (brokerPositionId : String) (remainingCommandAmount : ℚ)

namespace ReservationChange

def session (env : Env) (reservationId ownerId : Uuid) : ReservationChange → Session Unit
  | transition target fields => do
    let _ ← transitionReservation env.now reservationId ownerId target fields
  | splitPartialFill filled position remaining => do
    let _ ← Matrades.splitPartialFill env reservationId ownerId filled position remaining

/-- The state the reservation goes to. -/
def target : ReservationChange → ReservationState
  | transition target _ => target
  | splitPartialFill .. => .partiallyFilled

/-- The values the reservation gets. -/
def fields : ReservationChange → TransitionFields
  | transition _ fields => fields
  | splitPartialFill filled position _ => fillFields position filled

/-- Where the change raises, the session holds the reservations it held before. -/
def AtomicOnError (env : Env) (db : Database) (reservationId ownerId : Uuid)
    (change : ReservationChange) : Prop :=
  ∀ e, (change.session env reservationId ownerId db).result = .error e →
    (change.session env reservationId ownerId db).state.reservations = db.reservations

end ReservationChange

/-- The reservation is in the state already, and has the ids. -/
structure Reservation.Shows (target : ReservationState) (fields : TransitionFields)
    (r : Reservation) : Prop where
  state : r.state = target
  command : ∀ id ∈ fields.commandId, r.commandId = some id
  order : ∀ id ∈ fields.brokerOrderId, id ≠ "" → r.brokerOrderId = some id
  position : ∀ id ∈ fields.brokerPositionId, id ≠ "" → r.brokerPositionId = some id

/-- The amount fits the active reservation that is found, or its rows show the change already. -/
def ReservationChange.Harmless (db : Database) (reservationId ownerId : Uuid)
    (change : ReservationChange) : Prop :=
  ∀ r, db.reservation? reservationId ownerId = some r → r.state.isActive = true →
    (∀ amount ∈ change.fields.amount, 0 ≤ amount ∧ amount ≤ r.amount) ∨
    ∀ row ∈ db.reservations, row.id = reservationId → row.ownerId = some ownerId →
      row.Shows change.target change.fields

/-! ## The first write -/

theorem orText_eq_iff {value current : Option String} :
    orText value current = current ↔ ∀ id ∈ value, id ≠ "" → current = some id := by
  cases value with
  | none => simp [orText]
  | some id =>
    by_cases hid : id = ""
    · simp [orText, Option.filter, hid]
    · simp [orText, Option.filter, hid, eq_comm]

theorem or_eq_iff {value current : Option Uuid} :
    value.or current = current ↔ ∀ id ∈ value, current = some id := by
  cases value with
  | none => simp
  | some id => simp [eq_comm]

/-- The first write changes nothing where the row shows it already. -/
theorem mark_eq_iff {target : ReservationState} {fields : TransitionFields} {r : Reservation} :
    fields.mark target r = r ↔ r.Shows target fields := by
  constructor
  · intro h
    exact ⟨(congrArg Reservation.state h).symm, or_eq_iff.1 (congrArg Reservation.commandId h),
      orText_eq_iff.1 (congrArg Reservation.brokerOrderId h),
      orText_eq_iff.1 (congrArg Reservation.brokerPositionId h)⟩
  · intro h
    obtain ⟨hstate, hcommand, horder, hposition⟩ := h
    unfold TransitionFields.mark
    rw [or_eq_iff.2 hcommand, orText_eq_iff.2 horder, orText_eq_iff.2 hposition, ← hstate]

theorem amend_eq_iff {db : Database} {id ownerId : Uuid} {f : Reservation → Reservation} :
    (db.amendReservation id ownerId f).reservations = db.reservations ↔
      ∀ row ∈ db.reservations, row.id = id → row.ownerId = some ownerId → f row = row := by
  unfold Database.amendReservation
  dsimp only
  constructor
  · intro h row hrow hid howner
    have hsame := List.map_inj_left.1 (h.trans (List.map_id _).symm) row hrow
    rwa [if_pos ⟨hid, howner⟩] at hsame
  · intro h
    refine (List.map_inj_left.2 fun row hrow => ?_).trans (List.map_id _)
    by_cases hmine : row.id = id ∧ row.ownerId = some ownerId
    · rw [if_pos hmine]
      exact h row hrow hmine.1 hmine.2
    · rw [if_neg hmine]
      rfl

/-- An amount that does not fit is found after the first write. -/
theorem transitionReservation_marks {db : Database} {now : Time} {reservationId ownerId : Uuid}
    {target : ReservationState} {fields : TransitionFields} {r : Reservation}
    (hr : db.reservation? reservationId ownerId = some r) (hactive : r.state.isActive = true)
    (hamount : ¬∀ amount ∈ fields.amount, 0 ≤ amount ∧ amount ≤ r.amount) :
    transitionReservation now reservationId ownerId target fields db =
      ⟨.error (.valueError "reservation transition amount is invalid"),
        db.amendReservation reservationId ownerId (fields.mark target), []⟩ := by
  have hopen : r.state.isTerminal = false := by simp [hactive]
  rw [transitionReservation, Tx.get_bind, Tx.orRaise_bind_some hr, Tx.require_bind_pos hopen,
    Tx.modify_bind, Tx.require_bind_neg hamount]

/-! ## Both operations -/

namespace ReservationChange
variable {env : Env} {db : Database} {reservationId ownerId : Uuid} {change : ReservationChange}

/-- A change raises where its transition does, and leaves what that left. -/
theorem session_error {e : TaskError} {after : Database}
    (h : transitionReservation env.now reservationId ownerId change.target change.fields db =
      ⟨.error e, after, []⟩) :
    change.session env reservationId ownerId db = ⟨.error e, after, []⟩ := by
  cases change with
  | transition target fields => exact Tx.bind_error h
  | splitPartialFill filled position remaining => exact Tx.bind_error (Tx.bind_error h)

/-- A change returns where its transition does. -/
theorem session_ok {r : Reservation}
    (h : transitionReservation env.now reservationId ownerId change.target change.fields db =
      ⟨.ok (change.fields.finish env.now (change.fields.mark change.target r)),
        db.moveReservation env.now reservationId ownerId change.target change.fields, []⟩) :
    ∃ after, change.session env reservationId ownerId db = ⟨.ok (), after, []⟩ := by
  cases change with
  | transition target fields => exact ⟨_, Tx.bind_next h⟩
  | splitPartialFill filled position remaining =>
    obtain ⟨pair, hsplit⟩ := @splitPartialFill_fills _ _ _ _ _ remaining _ _ h
    exact ⟨_, Tx.bind_next hsplit⟩

/-- **An error leaves the reservations as they were exactly if the amount fits, or the reservation
shows the change already.** -/
theorem atomic_on_error_iff (env : Env) (db : Database) (reservationId ownerId : Uuid)
    (change : ReservationChange) :
    change.AtomicOnError env db reservationId ownerId ↔ change.Harmless db reservationId ownerId := by
  unfold AtomicOnError Harmless
  by_cases hfound : ∃ r, db.reservation? reservationId ownerId = some r ∧ r.state.isActive = true
  · obtain ⟨r, hr, hactive⟩ := hfound
    by_cases hamount : ∀ amount ∈ change.fields.amount, 0 ≤ amount ∧ amount ≤ r.amount
    · obtain ⟨after, hrun⟩ := session_ok (transitionReservation_moves hr hactive hamount)
      rw [hrun]
      refine iff_of_true (fun e he => by cases he) fun r' hr' _ => .inl ?_
      obtain rfl : r' = r := Option.some.inj (hr'.symm.trans hr)
      exact hamount
    · rw [session_error (transitionReservation_marks hr hactive hamount)]
      have hrows : (db.amendReservation reservationId ownerId
          (change.fields.mark change.target)).reservations = db.reservations ↔
          ∀ row ∈ db.reservations, row.id = reservationId → row.ownerId = some ownerId →
            row.Shows change.target change.fields := by
        simp only [amend_eq_iff, mark_eq_iff]
      constructor
      · intro hatomic r' hr' _
        exact .inr (hrows.1 (hatomic _ rfl))
      · intro hharmless e he
        exact hrows.2 ((hharmless r hr hactive).resolve_left hamount)
  · obtain ⟨e, he⟩ := @transitionReservation_error _ env.now _ _ change.target change.fields
      hfound
    rw [session_error he]
    exact iff_of_true (fun _ _ => rfl) fun r hr hactive => absurd ⟨r, hr, hactive⟩ hfound

end ReservationChange

/-- A fill beyond the reservation of the filled entry. -/
def excessFill : ReservationChange := .splitPartialFill 150 "8" 0

/-- **An invalid amount leaves a changed reservation behind**: the position of the refused fill stands
in the session, and the state is PARTIALLY_FILLED. -/
theorem excess_fill_changes_reservation :
    let db := run ReservationOp.step oneAccount filledEntry
    (excessFill.session (minutes 2) (.ofNat 100) (.ofNat 9) db).result =
      .error (.valueError "reservation transition amount is invalid") ∧
    (excessFill.session (minutes 2) (.ofNat 100) (.ofNat 9) db).state.reservations =
      [{ filledReservation with state := .partiallyFilled, brokerPositionId := some "8" }] ∧
    ¬excessFill.AtomicOnError (minutes 2) db (.ofNat 100) (.ofNat 9) := by
  have hfound : (run ReservationOp.step oneAccount filledEntry).reservation? (.ofNat 100) (.ofNat 9) =
      some filledReservation := by
    unfold Database.reservation?
    rw [filledEntry_reserved]
    decide +kernel
  have hrun := @ReservationChange.session_error (minutes 2) _ _ _ excessFill _ _
    (transitionReservation_marks hfound rfl (by decide +kernel))
  have hrows : ((run ReservationOp.step oneAccount filledEntry).amendReservation (.ofNat 100) (.ofNat 9)
      (excessFill.fields.mark excessFill.target)).reservations =
      [{ filledReservation with state := .partiallyFilled, brokerPositionId := some "8" }] := by
    unfold Database.amendReservation
    rw [filledEntry_reserved]
    decide +kernel
  dsimp only
  rw [hrun]
  refine ⟨rfl, hrows, fun hatomic => ?_⟩
  have hsame := hatomic _ (congrArg Outcome.result hrun)
  rw [hrun, hrows, filledEntry_reserved] at hsame
  revert hsame
  decide

end Matrades

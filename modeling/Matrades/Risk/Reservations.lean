import Matrades.Store.Database

/-!
# Risk reservations

`PersistentReservationStore` of `modules/risk/reservations.py`: capacity claimed by a plan, a
command, an order or a position. A transition changes the record before it checks the amount, so an
error leaves a changed record in the session; the surrounding transaction takes it back.
-/

namespace Matrades

open Base

/-- `ACTIVE_RESERVATION_STATES`. -/
def ReservationState.isActive : ReservationState → Bool
  | released => false
  | expired => false
  | _ => true

/-- The states a transition refuses to leave. -/
def ReservationState.isTerminal : ReservationState → Bool
  | released => true
  | expired => true
  | _ => false

@[simp] theorem ReservationState.isTerminal_eq (s : ReservationState) :
    s.isTerminal = !s.isActive := by
  cases s <;> rfl

/-- `value or fallback` of an optional text: the empty text is false. -/
def orText (value fallback : Option String) : Option String :=
  (value.filter (· ≠ "")).or fallback

namespace Database

/-- Replace the reservations with the id and the owner. -/
def amendReservation (db : Database) (id ownerId : Uuid) (f : Reservation → Reservation) : Database :=
  { db with reservations := db.reservations.map fun r =>
      if r.id = id ∧ r.ownerId = some ownerId then f r else r }

def addReservation (db : Database) (r : Reservation) : Database :=
  { db with reservations := db.reservations ++ [r] }

def reservation? (db : Database) (id ownerId : Uuid) : Option Reservation :=
  db.reservations.find? fun r => r.id = id ∧ r.ownerId = some ownerId

/-- The amounts of an account's active reservations. -/
def activeAmounts (db : Database) (ownerId accountId : Uuid) : List ℚ :=
  (db.reservations.filter fun r =>
    r.ownerId = some ownerId ∧ r.accountId = accountId ∧ r.state.isActive = true).map (·.amount)

/-- Is the reservation swept by `expire` at `now`? -/
def sweeps (now : Time) (accountId : Option Uuid) (r : Reservation) : Bool :=
  r.state.isActive && decide (r.expiresAt ≤ now) && accountId.all (· = r.accountId)

/-- Every active reservation past its time, of one account or of all, is expired. -/
def sweep (db : Database) (now : Time) (accountId : Option Uuid) : Database :=
  let lapse (r : Reservation) : Reservation :=
    if sweeps now accountId r then
      { r with state := .expired, version := r.version + 1, updatedAt := now }
    else r
  { db with reservations := db.reservations.map lapse }

end Database

def expire (env : Env) (accountId : Option Uuid) : Session Unit :=
  Tx.modify fun db => db.sweep env.now accountId

/-- Ten minutes, the default time to live of a reservation. -/
def reservationTtl : Time := 10 * minute

/-- A new reservation of a plan. -/
def provisional (env : Env) (db : Database) (ownerId accountId tradePlanId : Uuid) (amount : ℚ) :
    Reservation where
  id := env.newId db.reservations.length
  ownerId := some ownerId
  accountId := accountId
  tradePlanId := some tradePlanId
  commandId := none
  brokerOrderId := none
  brokerPositionId := none
  amount := amount
  state := .provisional
  expiresAt := env.now + reservationTtl
  version := 1
  reason := none
  splitFrom := none
  updatedAt := env.now

/-- `reserve` for a plan that has no reservation yet. -/
def reserveNew (env : Env) (ownerId accountId tradePlanId : Uuid) (amount available : ℚ) :
    Session Reservation := do
  expire env (some accountId)
  let db ← Tx.get
  let used := (db.activeAmounts ownerId accountId).sum
  Tx.require (0 < amount ∧ used + amount ≤ available)
    (.valueError "insufficient unreserved risk capacity")
  let record := provisional env db ownerId accountId tradePlanId amount
  Tx.modify fun db => db.addReservation record
  return record

/-- The account a reservation needs. -/
def Database.HasAccount (db : Database) (accountId ownerId : Uuid) : Prop :=
  ∃ a ∈ db.accounts, a.id = accountId ∧ a.ownerId = ownerId ∧ a.state.kept = true

instance (db : Database) (accountId ownerId : Uuid) : Decidable (db.HasAccount accountId ownerId) :=
  inferInstanceAs (Decidable (∃ a ∈ db.accounts, _))

def Database.planReservation? (db : Database) (ownerId tradePlanId : Uuid) : Option Reservation :=
  db.reservations.find? fun r => r.ownerId = some ownerId ∧ r.tradePlanId = some tradePlanId

def reserve (env : Env) (ownerId accountId tradePlanId : Uuid) (amount available : ℚ) :
    Session Reservation := do
  let db ← Tx.get
  Tx.require (db.HasAccount accountId ownerId)
    (.valueError "active account is required before reserving risk")
  match db.planReservation? ownerId tradePlanId with
  | some r =>
    Tx.require (r.amount = amount)
      (.valueError "trade plan is already bound to a different risk amount")
    return r
  | none => reserveNew env ownerId accountId tradePlanId amount available

def getActive (env : Env) (reservationId ownerId accountId : Uuid) :
    Session (Option Reservation) := do
  expire env (some accountId)
  let db ← Tx.get
  return db.reservations.find? fun r => r.id = reservationId ∧ r.ownerId = some ownerId ∧
    r.accountId = accountId ∧ r.state.isActive = true

/-- The optional values of a transition. -/
structure TransitionFields where
  commandId : Option Uuid := none
  brokerOrderId : Option String := none
  brokerPositionId : Option String := none
  amount : Option ℚ := none
  reason : Option String := none

/-- The first changes of a transition, made before the amount is checked. -/
def TransitionFields.mark (fields : TransitionFields) (target : ReservationState)
    (r : Reservation) : Reservation :=
  { r with
    state := target
    commandId := fields.commandId.or r.commandId
    brokerOrderId := orText fields.brokerOrderId r.brokerOrderId
    brokerPositionId := orText fields.brokerPositionId r.brokerPositionId }

/-- The rest of a transition. -/
def TransitionFields.finish (fields : TransitionFields) (now : Time) (r : Reservation) :
    Reservation :=
  { r with
    amount := fields.amount.getD r.amount
    reason := orText fields.reason r.reason
    version := r.version + 1
    updatedAt := now }

/-- `transition` of a reservation. -/
def transitionReservation (now : Time) (reservationId ownerId : Uuid) (target : ReservationState)
    (fields : TransitionFields) : Session Reservation := do
  let db ← Tx.get
  let record ← Tx.orRaise (db.reservation? reservationId ownerId)
    (.lookupError "risk reservation not found")
  Tx.require (record.state.isTerminal = false)
    (.valueError "risk reservation is already terminal")
  Tx.modify fun db => db.amendReservation reservationId ownerId (fields.mark target)
  Tx.require (∀ amount ∈ fields.amount, 0 ≤ amount ∧ amount ≤ record.amount)
    (.valueError "reservation transition amount is invalid")
  Tx.modify fun db => db.amendReservation reservationId ownerId (fields.finish now)
  return fields.finish now (fields.mark target record)

/-- The database after a transition of a reservation. -/
def Database.moveReservation (db : Database) (now : Time) (reservationId ownerId : Uuid)
    (target : ReservationState) (fields : TransitionFields) : Database :=
  (db.amendReservation reservationId ownerId (fields.mark target)).amendReservation reservationId
    ownerId (fields.finish now)

theorem transitionReservation_moves {db : Database} {now : Time} {reservationId ownerId : Uuid}
    {target : ReservationState} {fields : TransitionFields} {r : Reservation}
    (hr : db.reservation? reservationId ownerId = some r) (hactive : r.state.isActive = true)
    (hamount : ∀ amount ∈ fields.amount, 0 ≤ amount ∧ amount ≤ r.amount) :
    transitionReservation now reservationId ownerId target fields db =
      ⟨.ok (fields.finish now (fields.mark target r)),
        db.moveReservation now reservationId ownerId target fields, []⟩ := by
  have hopen : r.state.isTerminal = false := by simp [hactive]
  rw [transitionReservation, Tx.get_bind, Tx.orRaise_bind_some hr, Tx.require_bind_pos hopen,
    Tx.modify_bind, Tx.require_bind_pos hamount, Tx.modify_bind]
  rfl

theorem transitionReservation_ok {db : Database} {now : Time} {reservationId ownerId : Uuid}
    {target : ReservationState} {fields : TransitionFields} {r : Reservation}
    (hr : db.reservation? reservationId ownerId = some r) (hactive : r.state.isActive = true)
    (hamount : fields.amount = none) :
    transitionReservation now reservationId ownerId target fields db =
      ⟨.ok (fields.finish now (fields.mark target r)),
        db.moveReservation now reservationId ownerId target fields, []⟩ :=
  transitionReservation_moves hr hactive (by simp [hamount])

theorem transitionReservation_error {db : Database} {now : Time} {reservationId ownerId : Uuid}
    {target : ReservationState} {fields : TransitionFields}
    (h : ¬∃ r, db.reservation? reservationId ownerId = some r ∧ r.state.isActive = true) :
    ∃ e, transitionReservation now reservationId ownerId target fields db = ⟨.error e, db, []⟩ := by
  cases hr : db.reservation? reservationId ownerId with
  | none => exact ⟨_, by rw [transitionReservation, Tx.get_bind, Tx.orRaise_bind_none hr]⟩
  | some r =>
    have hclosed : ¬r.state.isTerminal = false := by
      intro hopen
      exact h ⟨r, hr, by simpa using hopen⟩
    exact ⟨_, by rw [transitionReservation, Tx.get_bind, Tx.orRaise_bind_some hr,
      Tx.require_bind_neg hclosed]⟩

/-- A transition raises, or moves an active reservation and leaves it no larger. -/
theorem transitionReservation_cases (db : Database) (now : Time) (reservationId ownerId : Uuid)
    (target : ReservationState) (fields : TransitionFields) :
    (∃ e, (transitionReservation now reservationId ownerId target fields db).result = .error e) ∨
    ∃ r, db.reservation? reservationId ownerId = some r ∧ r.state.isActive = true ∧
      (∀ amount ∈ fields.amount, 0 ≤ amount ∧ amount ≤ r.amount) ∧
      transitionReservation now reservationId ownerId target fields db =
        ⟨.ok (fields.finish now (fields.mark target r)),
          db.moveReservation now reservationId ownerId target fields, []⟩ := by
  by_cases h : ∃ r, db.reservation? reservationId ownerId = some r ∧ r.state.isActive = true
  · obtain ⟨r, hr, hactive⟩ := h
    by_cases hamount : ∀ amount ∈ fields.amount, 0 ≤ amount ∧ amount ≤ r.amount
    · exact .inr ⟨r, hr, hactive, hamount, transitionReservation_moves hr hactive hamount⟩
    · have hopen : r.state.isTerminal = false := by simp [hactive]
      refine .inl ⟨.valueError "reservation transition amount is invalid", ?_⟩
      rw [transitionReservation, Tx.get_bind, Tx.orRaise_bind_some hr, Tx.require_bind_pos hopen,
        Tx.modify_bind, Tx.require_bind_neg hamount]
  · obtain ⟨e, he⟩ := transitionReservation_error h
    exact .inl ⟨e, by rw [he]⟩

theorem reservation?_amend {db : Database} {id ownerId : Uuid} {f : Reservation → Reservation}
    (hid : ∀ r, (f r).id = r.id) (howner : ∀ r, (f r).ownerId = r.ownerId) :
    (db.amendReservation id ownerId f).reservation? id ownerId =
      (db.reservation? id ownerId).map f := by
  unfold Database.reservation? Database.amendReservation
  rw [List.find?_map]
  have hsame : (fun r : Reservation => decide (r.id = id ∧ r.ownerId = some ownerId)) ∘
      (fun r => if r.id = id ∧ r.ownerId = some ownerId then f r else r) =
      fun r => decide (r.id = id ∧ r.ownerId = some ownerId) := by
    funext r
    by_cases h : r.id = id ∧ r.ownerId = some ownerId
    · simp [h, hid, howner]
    · simp only [Function.comp_apply, if_neg h]
  rw [hsame]
  cases hfind : db.reservations.find? fun r => r.id = id ∧ r.ownerId = some ownerId with
  | none => rfl
  | some r =>
    have hr := List.find?_some hfind
    simp only [decide_eq_true_eq] at hr
    simp [hr]

theorem reservation?_move (db : Database) (now : Time) (id ownerId : Uuid)
    (target : ReservationState) (fields : TransitionFields) :
    (db.moveReservation now id ownerId target fields).reservation? id ownerId =
      (db.reservation? id ownerId).map fun r => fields.finish now (fields.mark target r) := by
  unfold Database.moveReservation
  rw [reservation?_amend (f := fields.finish now) (fun _ => rfl) (fun _ => rfl),
    reservation?_amend (f := fields.mark target) (fun _ => rfl) (fun _ => rfl), Option.map_map]
  rfl

theorem mem_amendReservation {db : Database} {id ownerId : Uuid} {f : Reservation → Reservation}
    {r' : Reservation} (h : r' ∈ (db.amendReservation id ownerId f).reservations) :
    (r' ∈ db.reservations ∧ ¬(r'.id = id ∧ r'.ownerId = some ownerId)) ∨
      ∃ r ∈ db.reservations, (r.id = id ∧ r.ownerId = some ownerId) ∧ r' = f r := by
  obtain ⟨r, hr, hr'⟩ := List.mem_map.1 h
  split at hr'
  · rename_i hid
    exact .inr ⟨r, hr, hid, hr'.symm⟩
  · rename_i hid
    subst hr'
    exact .inl ⟨hr, hid⟩

/-- A reservation after a transition is one from before, or in the target state. -/
theorem mem_moveReservation {db : Database} {now : Time} {id ownerId : Uuid}
    {target : ReservationState} {fields : TransitionFields} {r' : Reservation}
    (h : r' ∈ (db.moveReservation now id ownerId target fields).reservations) :
    r' ∈ db.reservations ∨ r'.state = target := by
  rcases mem_amendReservation h with ⟨hmarked, hother⟩ | ⟨marked, hmarked, hid, rfl⟩
  · rcases mem_amendReservation hmarked with ⟨hold, _⟩ | ⟨r, _, hid, rfl⟩
    · exact .inl hold
    · exact absurd hid hother
  · rcases mem_amendReservation hmarked with ⟨_, hother⟩ | ⟨r, _, _, rfl⟩
    · exact absurd hid hother
    · exact .inr rfl

/-- `split_partial_fill`: the filled part stays, the rest becomes a reservation of its own. -/
def splitPartialFill (env : Env) (reservationId ownerId : Uuid) (filledAmount : ℚ)
    (brokerPositionId : String) (remainingCommandAmount : ℚ) :
    Session (Reservation × Option Reservation) := do
  let record ← transitionReservation env.now reservationId ownerId .partiallyFilled
    { brokerPositionId := some brokerPositionId, amount := some filledAmount }
  if 0 < remainingCommandAmount then
    let db ← Tx.get
    let remainder : Reservation := {
      id := env.newId db.reservations.length
      ownerId := record.ownerId
      accountId := record.accountId
      tradePlanId := none
      commandId := record.commandId
      brokerOrderId := none
      brokerPositionId := none
      amount := remainingCommandAmount
      state := .commandPending
      expiresAt := record.expiresAt
      version := 1
      reason := none
      splitFrom := some record.id
      updatedAt := env.now }
    Tx.modify fun db => db.addReservation remainder
    return (record, some remainder)
  else return (record, none)

end Matrades

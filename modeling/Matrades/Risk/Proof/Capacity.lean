import Matrades.Risk.Proof.ReservationLife

/-!
# The capacity of an account

`reservedRisk` is what `reserve` adds up: the amounts of an account's active reservations. A row
counts with its `claimed` amount, and an operation that only rewrites rows is judged row by row
(`reservedRisk_map_le`): the sweep of `expire` and an accepted transition leave no row claiming more.
A partial fill also adds a row, for the part that is still to be filled. So only a new reservation
raises the sum, and it raises it to no more than the capacity it was given (`capacity_kept`).
-/

namespace Matrades

open Base

/-- The risk an account's active reservations hold. -/
def Database.reservedRisk (db : Database) (ownerId accountId : Uuid) : ℚ :=
  (db.activeAmounts ownerId accountId).sum

/-- What one row counts for the account. -/
def Reservation.claimed (ownerId accountId : Uuid) (r : Reservation) : ℚ :=
  if r.ownerId = some ownerId ∧ r.accountId = accountId ∧ r.state.isActive = true then r.amount
  else 0

/-- Ids differ and no amount is negative. -/
structure Database.Ledger (db : Database) : Prop where
  ids : (db.reservations.map (·.id)).Nodup
  amounts : ∀ r ∈ db.reservations, 0 ≤ r.amount

namespace ReservationOp

/-- A reserve that adds a reservation. -/
def Creates (db : Database) : ReservationOp → Prop
  | reserve env ownerId accountId tradePlanId amount available =>
    db.reservations.length < (step db
      (reserve env ownerId accountId tradePlanId amount available)).reservations.length
  | _ => False

/-- A split hands out no more than the reservation it splits has. -/
def Fits (db : Database) : ReservationOp → Prop
  | splitPartialFill _ reservationId ownerId filled _ remaining =>
    ∀ r, db.reservation? reservationId ownerId = some r → filled + remaining ≤ r.amount
  | _ => True

/-- The capacity a reserve was called with for the account. -/
def Offers (ownerId accountId : Uuid) (available : ℚ) : ReservationOp → Prop
  | reserve _ owner account _ _ capacity =>
    owner = ownerId ∧ account = accountId ∧ capacity = available
  | _ => False

/-- The id of a new row is of no row yet. -/
def FreshId (db : Database) : ReservationOp → Prop
  | reserve env _ _ _ _ _ => ∀ r ∈ db.reservations, r.id ≠ env.newId db.reservations.length
  | splitPartialFill env _ _ _ _ _ =>
    ∀ r ∈ db.reservations, r.id ≠ env.newId db.reservations.length
  | _ => True

instance (db : Database) : (op : ReservationOp) → Decidable (op.FreshId db)
  | reserve .. | splitPartialFill .. => inferInstanceAs (Decidable (∀ r ∈ db.reservations, _))
  | getActive .. | transition .. | expire .. => inferInstanceAs (Decidable True)

/-- The step keeps the account's capacity: only a new reservation raises the reserved risk, and to
no more than what was available. -/
def KeepsCapacity (ownerId accountId : Uuid) (db : Database) (op : ReservationOp) : Prop :=
  (¬op.Creates db → op.Fits db →
    (op.step db).reservedRisk ownerId accountId ≤ db.reservedRisk ownerId accountId) ∧
  ∀ available, op.Creates db → op.Offers ownerId accountId available →
    (op.step db).reservedRisk ownerId accountId ≤ available

end ReservationOp

/-! ## The reserved risk, row by row -/

section
variable {ownerId accountId : Uuid}

theorem reservedRisk_eq (db : Database) :
    db.reservedRisk ownerId accountId =
      (db.reservations.map (Reservation.claimed ownerId accountId)).sum := by
  unfold Database.reservedRisk Database.activeAmounts
  induction db.reservations with
  | nil => rfl
  | cons r rs ih =>
    rw [List.map_cons, List.sum_cons, ← ih, Reservation.claimed, List.filter_cons]
    by_cases hr : r.ownerId = some ownerId ∧ r.accountId = accountId ∧ r.state.isActive = true
    · simp [hr]
    · simp [hr]

theorem reservedRisk_add (db : Database) (record : Reservation) :
    (db.addReservation record).reservedRisk ownerId accountId =
      db.reservedRisk ownerId accountId + record.claimed ownerId accountId := by
  rw [reservedRisk_eq, reservedRisk_eq]
  simp [Database.addReservation]

/-- A sum that no summand raises and one summand lowers by `slack`. -/
theorem sum_map_add_le {α : Type} {l : List α} {f g : α → ℚ} {a : α} {slack : ℚ} (ha : a ∈ l)
    (hle : ∀ x ∈ l, f x ≤ g x) (hslack : f a + slack ≤ g a) :
    (l.map f).sum + slack ≤ (l.map g).sum := by
  obtain ⟨before, after, rfl⟩ := List.append_of_mem ha
  have hbefore : (before.map f).sum ≤ (before.map g).sum :=
    List.sum_le_sum fun x hx => hle x (List.mem_append_left _ hx)
  have hafter : (after.map f).sum ≤ (after.map g).sum :=
    List.sum_le_sum fun x hx => hle x (List.mem_append_right _ (List.mem_cons_of_mem _ hx))
  simp only [List.map_append, List.map_cons, List.sum_append, List.sum_cons]
  linarith

/-- Where no row claims more than before, the account does not. -/
theorem reservedRisk_map_le {db db' : Database} {f : Reservation → Reservation}
    (hdb : db'.reservations = db.reservations.map f)
    (hf : ∀ r ∈ db.reservations,
      (f r).claimed ownerId accountId ≤ r.claimed ownerId accountId) :
    db'.reservedRisk ownerId accountId ≤ db.reservedRisk ownerId accountId := by
  rw [reservedRisk_eq, reservedRisk_eq, hdb, List.map_map]
  exact List.sum_le_sum hf

theorem claimed_nonneg {r : Reservation} (h : 0 ≤ r.amount) : 0 ≤ r.claimed ownerId accountId := by
  unfold Reservation.claimed
  split
  · exact h
  · exact le_refl _

theorem claimed_le {r : Reservation} (h : 0 ≤ r.amount) :
    r.claimed ownerId accountId ≤ r.amount := by
  unfold Reservation.claimed
  split
  · exact le_refl _
  · exact h

end

/-! ## Sweeps -/

theorem reservedRisk_sweep {db : Database} (hdb : db.Ledger) (now : Time) (swept : Option Uuid)
    (ownerId accountId : Uuid) :
    (db.sweep now swept).reservedRisk ownerId accountId ≤ db.reservedRisk ownerId accountId := by
  refine reservedRisk_map_le rfl fun r hr => ?_
  split
  · -- an expired row claims nothing
    apply le_of_eq_of_le _ (claimed_nonneg (hdb.amounts r hr))
    simp [Reservation.claimed, ReservationState.isActive]
  · exact le_refl _

theorem ledger_sweep {db : Database} (hdb : db.Ledger) (now : Time) (swept : Option Uuid) :
    (db.sweep now swept).Ledger := by
  constructor
  · have hids : (db.sweep now swept).reservations.map (·.id) = db.reservations.map (·.id) := by
      rw [Database.sweep, List.map_map]
      refine List.map_congr_left fun r _ => ?_
      dsimp only [Function.comp]
      split <;> rfl
    rw [hids]
    exact hdb.ids
  · intro r hr
    obtain ⟨row, hrow, rfl⟩ := List.mem_map.1 hr
    split <;> exact hdb.amounts row hrow

theorem mem_sweep_id {db : Database} {now : Time} {swept : Option Uuid} {id : Uuid}
    (h : ∀ r ∈ db.reservations, r.id ≠ id) :
    ∀ r ∈ (db.sweep now swept).reservations, r.id ≠ id := by
  intro r hr
  obtain ⟨row, hrow, rfl⟩ := List.mem_map.1 hr
  split <;> exact h row hrow

theorem ledger_add {db : Database} (hdb : db.Ledger) {record : Reservation}
    (hid : ∀ r ∈ db.reservations, r.id ≠ record.id) (hamount : 0 ≤ record.amount) :
    (db.addReservation record).Ledger := by
  constructor
  · rw [Database.addReservation, List.map_append, List.map_singleton]
    refine List.Nodup.append hdb.ids (List.nodup_singleton _) ?_
    intro id hmem hnew
    obtain ⟨r, hr, rfl⟩ := List.mem_map.1 hmem
    exact hid r hr (List.mem_singleton.1 hnew)
  · intro r hr
    rcases List.mem_append.1 hr with hr | hr
    · exact hdb.amounts r hr
    · rw [List.mem_singleton.1 hr]
      exact hamount

/-! ## Transitions and partial fills -/

/-- A row after an accepted transition. -/
def TransitionFields.moved (fields : TransitionFields) (now : Time) (reservationId ownerId : Uuid)
    (target : ReservationState) (r : Reservation) : Reservation :=
  if r.id = reservationId ∧ r.ownerId = some ownerId then fields.finish now (fields.mark target r)
  else r

section
variable {db : Database} {now : Time} {reservationId owner : Uuid} {target : ReservationState}
  {fields : TransitionFields}

theorem moveReservation_rows (db : Database) :
    (db.moveReservation now reservationId owner target fields).reservations =
      db.reservations.map (fields.moved now reservationId owner target) := by
  unfold Database.moveReservation Database.amendReservation
  rw [List.map_map]
  refine List.map_congr_left fun r _ => ?_
  unfold TransitionFields.moved
  by_cases hr : r.id = reservationId ∧ r.ownerId = some owner
  · simp [hr, TransitionFields.mark]
  · simp [hr]

theorem moved_id (r : Reservation) : (fields.moved now reservationId owner target r).id = r.id := by
  unfold TransitionFields.moved
  split <;> rfl

/-- The one row a transition finds. -/
theorem ledger_found (hdb : db.Ledger) {r row : Reservation}
    (hr : db.reservation? reservationId owner = some r) (hrow : row ∈ db.reservations)
    (hid : row.id = reservationId) : row = r := by
  have hfound := List.find?_some hr
  simp only [decide_eq_true_eq] at hfound
  exact List.inj_on_of_nodup_map hdb.ids hrow (List.mem_of_find?_eq_some hr) (hid.trans hfound.1.symm)

theorem ledger_move (hdb : db.Ledger) (hamount : ∀ amount ∈ fields.amount, 0 ≤ amount) :
    (db.moveReservation now reservationId owner target fields).Ledger := by
  constructor
  · rw [moveReservation_rows, List.map_map]
    have hids : (Reservation.id ∘ fields.moved now reservationId owner target) = Reservation.id :=
      funext moved_id
    rw [hids]
    exact hdb.ids
  · rw [moveReservation_rows]
    intro r hr
    obtain ⟨row, hrow, rfl⟩ := List.mem_map.1 hr
    unfold TransitionFields.moved
    split
    · show 0 ≤ fields.amount.getD row.amount
      cases hgiven : fields.amount with
      | none => exact hdb.amounts row hrow
      | some amount => exact hamount amount hgiven
    · exact hdb.amounts row hrow

/-- The row that is moved claims at most its new amount, and only for its own account. -/
theorem claimed_finish {r : Reservation} {ownerId accountId : Uuid}
    (hamount : 0 ≤ fields.amount.getD r.amount) :
    (fields.finish now (fields.mark target r)).claimed ownerId accountId ≤
      if r.ownerId = some ownerId ∧ r.accountId = accountId then fields.amount.getD r.amount
      else 0 := by
  by_cases hmine : r.ownerId = some ownerId ∧ r.accountId = accountId
  · rw [if_pos hmine]
    exact claimed_le hamount
  · rw [if_neg hmine]
    apply le_of_eq
    unfold Reservation.claimed
    rw [if_neg]
    exact fun h => hmine ⟨h.1, h.2.1⟩

/-- An accepted transition that lowers an amount by `slack` lowers what the account holds by it. -/
theorem reservedRisk_move (hdb : db.Ledger) {r : Reservation} {ownerId accountId : Uuid} {slack : ℚ}
    (hr : db.reservation? reservationId owner = some r) (hactive : r.state.isActive = true)
    (hamount : 0 ≤ fields.amount.getD r.amount) (hslack : 0 ≤ slack)
    (hfits : fields.amount.getD r.amount + slack ≤ r.amount) :
    (db.moveReservation now reservationId owner target fields).reservedRisk ownerId accountId +
        (if r.ownerId = some ownerId ∧ r.accountId = accountId then slack else 0) ≤
      db.reservedRisk ownerId accountId := by
  have hfound := List.find?_some hr
  simp only [decide_eq_true_eq] at hfound
  have hmem := List.mem_of_find?_eq_some hr
  have hrow : (fields.moved now reservationId owner target r).claimed ownerId accountId +
      (if r.ownerId = some ownerId ∧ r.accountId = accountId then slack else 0) ≤
        r.claimed ownerId accountId := by
    have hnew : (fields.finish now (fields.mark target r)).claimed ownerId accountId ≤
        if r.ownerId = some ownerId ∧ r.accountId = accountId then fields.amount.getD r.amount
        else 0 := claimed_finish hamount
    rw [TransitionFields.moved, if_pos hfound]
    by_cases hmine : r.ownerId = some ownerId ∧ r.accountId = accountId
    · have hold : r.claimed ownerId accountId = r.amount :=
        if_pos ⟨hmine.1, hmine.2, hactive⟩
      rw [if_pos hmine] at hnew ⊢
      rw [hold]
      linarith
    · have hold : 0 ≤ r.claimed ownerId accountId := claimed_nonneg (hdb.amounts r hmem)
      rw [if_neg hmine] at hnew ⊢
      linarith
  rw [reservedRisk_eq, reservedRisk_eq, moveReservation_rows, List.map_map]
  refine sum_map_add_le hmem (fun row hrow' => ?_) hrow
  by_cases hid : row.id = reservationId
  · -- the ids differ, so this is the row that moves
    obtain rfl := ledger_found hdb hr hrow' hid
    have hpos : (0 : ℚ) ≤ if row.ownerId = some ownerId ∧ row.accountId = accountId then slack
        else 0 := by
      split
      · exact hslack
      · exact le_refl _
    show (fields.moved now reservationId owner target row).claimed ownerId accountId ≤ _
    linarith
  · show (fields.moved now reservationId owner target row).claimed ownerId accountId ≤ _
    rw [TransitionFields.moved, if_neg fun h => hid h.1]

end

/-! ## One operation -/

/-- The part of a partial fill that is still to be filled. -/
def remainderOf (env : Env) (db : Database) (r : Reservation) (remaining : ℚ) : Reservation where
  id := env.newId db.reservations.length
  ownerId := r.ownerId
  accountId := r.accountId
  tradePlanId := none
  commandId := r.commandId
  brokerOrderId := none
  brokerPositionId := none
  amount := remaining
  state := .commandPending
  expiresAt := r.expiresAt
  version := 1
  reason := none
  splitFrom := some r.id
  updatedAt := env.now

/-- The values a partial fill gives its transition. -/
def fillFields (position : String) (filled : ℚ) : TransitionFields :=
  { brokerPositionId := some position, amount := some filled }

theorem length_move (db : Database) (now : Time) (id owner : Uuid) (target : ReservationState)
    (fields : TransitionFields) :
    (db.moveReservation now id owner target fields).reservations.length =
      db.reservations.length := by
  rw [moveReservation_rows, List.length_map]

/-- A transition as a transaction: it moves an active reservation, or changes nothing. -/
theorem transition_committed (db : Database) (env : Env) (id owner : Uuid)
    (target : ReservationState) (fields : TransitionFields) :
    ReservationOp.step db (.transition env id owner target fields) = db ∨
    ∃ r, db.reservation? id owner = some r ∧ r.state.isActive = true ∧
      (∀ amount ∈ fields.amount, 0 ≤ amount ∧ amount ≤ r.amount) ∧
      ReservationOp.step db (.transition env id owner target fields) =
        db.moveReservation env.now id owner target fields := by
  unfold ReservationOp.step ReservationOp.session
  rcases transitionReservation_cases db env.now id owner target fields with
    ⟨e, he⟩ | ⟨r, hr, hactive, hamount, hmove⟩
  · refine .inl ?_
    rw [Tx.unitOfWork_map]
    rw [Tx.unitOfWork_error he]
  · refine .inr ⟨r, hr, hactive, hamount, ?_⟩
    rw [Tx.unitOfWork_map]
    rw [Tx.unitOfWork_of_ok hmove]

/-- The database after a partial fill: the reservation is moved, and what remains is added. -/
def Database.fillPart (db : Database) (env : Env) (r : Reservation) (id owner : Uuid)
    (filled remaining : ℚ) (position : String) : Database :=
  let moved := db.moveReservation env.now id owner .partiallyFilled (fillFields position filled)
  if 0 < remaining then moved.addReservation (remainderOf env db r remaining) else moved

/-- A partial fill of a reservation that is found, active and large enough. -/
theorem splitPartialFill_fills {db : Database} {env : Env} {id owner : Uuid} {filled remaining : ℚ}
    {position : String} {r : Reservation}
    (hmove : transitionReservation env.now id owner .partiallyFilled (fillFields position filled) db =
      ⟨.ok ((fillFields position filled).finish env.now
        ((fillFields position filled).mark .partiallyFilled r)),
        db.moveReservation env.now id owner .partiallyFilled (fillFields position filled), []⟩) :
    ∃ pair, splitPartialFill env id owner filled position remaining db =
      ⟨.ok pair, db.fillPart env r id owner filled remaining position, []⟩ := by
  unfold splitPartialFill Database.fillPart
  unfold fillFields at hmove
  rw [Tx.bind_next hmove]
  by_cases hrest : 0 < remaining
  · rw [if_pos hrest, if_pos hrest, Tx.get_bind, Tx.modify_bind, length_move]
    exact ⟨_, rfl⟩
  · rw [if_neg hrest, if_neg hrest]
    exact ⟨_, rfl⟩

/-- A partial fill as a transaction: it splits an active reservation, or changes nothing. -/
theorem split_committed (db : Database) (env : Env) (id owner : Uuid) (filled remaining : ℚ)
    (position : String) :
    ReservationOp.step db (.splitPartialFill env id owner filled position remaining) = db ∨
    ∃ r, db.reservation? id owner = some r ∧ r.state.isActive = true ∧ 0 ≤ filled ∧
      filled ≤ r.amount ∧
      ReservationOp.step db (.splitPartialFill env id owner filled position remaining) =
        db.fillPart env r id owner filled remaining position := by
  unfold ReservationOp.step ReservationOp.session
  rw [Tx.unitOfWork_map]
  rcases transitionReservation_cases db env.now id owner .partiallyFilled
      (fillFields position filled) with ⟨e, he⟩ | ⟨r, hr, hactive, hamount, hmove⟩
  · refine .inl ?_
    have herror : (splitPartialFill env id owner filled position remaining db).result = .error e := by
      unfold fillFields at he
      unfold splitPartialFill
      rw [Tx.bind_run, he]
    rw [Tx.unitOfWork_error herror]
  · have hfilled : 0 ≤ filled ∧ filled ≤ r.amount := hamount filled rfl
    refine .inr ⟨r, hr, hactive, hfilled.1, hfilled.2, ?_⟩
    obtain ⟨pair, hsplit⟩ := splitPartialFill_fills hmove
    rw [Tx.unitOfWork_of_ok hsplit]

/-! ## Every operation -/

theorem creates_iff {db : Database} {env : Env} {ownerId accountId tradePlanId : Uuid}
    {amount available : ℚ} :
    ReservationOp.Creates db (.reserve env ownerId accountId tradePlanId amount available) ↔
      db.Reserves env.now ownerId accountId tradePlanId amount available := by
  obtain ⟨hyes, hno⟩ := reserve_committed db env ownerId accountId tradePlanId amount available
  simp only [ReservationOp.Creates]
  by_cases h : db.Reserves env.now ownerId accountId tradePlanId amount available
  · rw [hyes h]
    simp [h, Database.addReservation, Database.sweep]
  · rw [hno h]
    simp [h]

theorem ledger_fill {db : Database} (hdb : db.Ledger) {env : Env} {r : Reservation}
    {id owner : Uuid} {filled remaining : ℚ} {position : String}
    (hfresh : ∀ r ∈ db.reservations, r.id ≠ env.newId db.reservations.length)
    (hfilled : 0 ≤ filled) : (db.fillPart env r id owner filled remaining position).Ledger := by
  have hmoved : (db.moveReservation env.now id owner .partiallyFilled
      (fillFields position filled)).Ledger := ledger_move hdb (by simpa [fillFields] using hfilled)
  unfold Database.fillPart
  by_cases hrest : 0 < remaining
  · rw [if_pos hrest]
    refine ledger_add hmoved (fun row hrow => ?_) hrest.le
    rw [moveReservation_rows] at hrow
    obtain ⟨old, hold, rfl⟩ := List.mem_map.1 hrow
    rw [moved_id]
    exact hfresh old hold
  · rw [if_neg hrest]
    exact hmoved

/-- A partial fill that fits into its reservation does not raise what the account holds. -/
theorem reservedRisk_fill {db : Database} (hdb : db.Ledger) {env : Env} {r : Reservation}
    {id owner ownerId accountId : Uuid} {filled remaining : ℚ} {position : String}
    (hr : db.reservation? id owner = some r) (hactive : r.state.isActive = true)
    (hfilled : 0 ≤ filled ∧ filled ≤ r.amount) (hfits : filled + remaining ≤ r.amount) :
    (db.fillPart env r id owner filled remaining position).reservedRisk ownerId accountId ≤
      db.reservedRisk ownerId accountId := by
  unfold Database.fillPart
  by_cases hrest : 0 < remaining
  · have hmove : (db.moveReservation env.now id owner .partiallyFilled
        (fillFields position filled)).reservedRisk ownerId accountId +
          (if r.ownerId = some ownerId ∧ r.accountId = accountId then remaining else 0) ≤
        db.reservedRisk ownerId accountId :=
      reservedRisk_move hdb hr hactive hfilled.1 hrest.le hfits
    have hremainder : (remainderOf env db r remaining).claimed ownerId accountId =
        if r.ownerId = some ownerId ∧ r.accountId = accountId then remaining else 0 := by
      simp [Reservation.claimed, remainderOf, ReservationState.isActive]
    rw [if_pos hrest, reservedRisk_add, hremainder]
    exact hmove
  · have hmove : (db.moveReservation env.now id owner .partiallyFilled
        (fillFields position filled)).reservedRisk ownerId accountId +
          (if r.ownerId = some ownerId ∧ r.accountId = accountId then 0 else 0) ≤
        db.reservedRisk ownerId accountId :=
      reservedRisk_move hdb hr hactive hfilled.1 (le_refl _) (by simpa [fillFields] using hfilled.2)
    rw [if_neg hrest]
    simpa using hmove

theorem ledger_step {db : Database} {op : ReservationOp} (hdb : db.Ledger) (hfresh : op.FreshId db) :
    (op.step db).Ledger := by
  cases op with
  | reserve env ownerId accountId tradePlanId amount available =>
    obtain ⟨hyes, hno⟩ := reserve_committed db env ownerId accountId tradePlanId amount available
    by_cases hres : db.Reserves env.now ownerId accountId tradePlanId amount available
    · rw [hyes hres]
      refine ledger_add (ledger_sweep hdb _ _) (mem_sweep_id ?_) hres.2.2.1.le
      have hlength : (db.sweep env.now (some accountId)).reservations.length =
          db.reservations.length := List.length_map _
      show ∀ r ∈ db.reservations, r.id ≠
        env.newId (db.sweep env.now (some accountId)).reservations.length
      rw [hlength]
      exact hfresh
    · rw [hno hres]
      exact hdb
  | getActive env reservationId ownerId accountId => exact ledger_sweep hdb _ _
  | transition env reservationId ownerId target fields =>
    rcases transition_committed db env reservationId ownerId target fields with
      hsame | ⟨r, _, _, hamount, hmove⟩
    · rw [hsame]
      exact hdb
    · rw [hmove]
      exact ledger_move hdb fun amount hgiven => (hamount amount hgiven).1
  | splitPartialFill env reservationId ownerId filled position remaining =>
    rcases split_committed db env reservationId ownerId filled remaining position with
      hsame | ⟨r, _, _, hfilled, _, hsplit⟩
    · rw [hsame]
      exact hdb
    · rw [hsplit]
      exact ledger_fill hdb hfresh hfilled
  | expire env accountId => exact ledger_sweep hdb _ _

/-- One operation keeps the capacity of every account. -/
theorem keepsCapacity_step {db : Database} (hdb : db.Ledger) (ownerId accountId : Uuid)
    (op : ReservationOp) : op.KeepsCapacity ownerId accountId db := by
  cases op with
  | reserve env owner account tradePlanId amount available =>
    obtain ⟨hyes, hno⟩ := reserve_committed db env owner account tradePlanId amount available
    constructor
    · intro hnew _
      rw [hno (mt creates_iff.2 hnew)]
    · rintro _ hnew ⟨rfl, rfl, rfl⟩
      have hres := creates_iff.1 hnew
      have hclaim : (provisional env (db.sweep env.now (some account)) owner account tradePlanId
          amount).claimed owner account = amount := by
        simp [Reservation.claimed, provisional, ReservationState.isActive]
      rw [hyes hres, reservedRisk_add, hclaim]
      exact hres.2.2.2
  | getActive env reservationId owner account =>
    exact ⟨fun _ _ => reservedRisk_sweep hdb _ _ _ _, fun _ hnew => hnew.elim⟩
  | transition env reservationId owner target fields =>
    refine ⟨fun _ _ => ?_, fun _ hnew => hnew.elim⟩
    rcases transition_committed db env reservationId owner target fields with
      hsame | ⟨r, hr, hactive, hamount, hmove⟩
    · rw [hsame]
    · have hbounds : 0 ≤ fields.amount.getD r.amount ∧ fields.amount.getD r.amount ≤ r.amount := by
        cases hgiven : fields.amount with
        | none => exact ⟨hdb.amounts r (List.mem_of_find?_eq_some hr), le_refl _⟩
        | some amount => exact hamount amount hgiven
      have hle : (db.moveReservation env.now reservationId owner target fields).reservedRisk ownerId
          accountId + (if r.ownerId = some ownerId ∧ r.accountId = accountId then 0 else 0) ≤
          db.reservedRisk ownerId accountId :=
        reservedRisk_move hdb hr hactive hbounds.1 (le_refl _) (by simpa using hbounds.2)
      rw [hmove]
      simpa using hle
  | splitPartialFill env reservationId owner filled position remaining =>
    refine ⟨fun _ hfits => ?_, fun _ hnew => hnew.elim⟩
    rcases split_committed db env reservationId owner filled remaining position with
      hsame | ⟨r, hr, hactive, hfilled, hle, hsplit⟩
    · rw [hsame]
    · rw [hsplit]
      exact reservedRisk_fill hdb hr hactive ⟨hfilled, hle⟩ (hfits r hr)
  | expire env account =>
    exact ⟨fun _ _ => reservedRisk_sweep hdb _ _ _ _, fun _ hnew => hnew.elim⟩

theorem ledger_oneAccount : oneAccount.Ledger := by
  constructor <;> simp [oneAccount, Database.empty]

end Matrades

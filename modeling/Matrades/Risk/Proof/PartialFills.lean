import Matrades.Base.Result
import Matrades.Risk.Proof.Capacity

/-!
# Cumulative partial fills

Each fill of an entry command splits the plan's reservation of amount `A` into `A * f` for the filled
part and `A - A * f` for the rest, with `f` the fraction filled so far. A split leaves the amount of the
filled part in the reservation, and the next split measures the cumulative fraction of `A` by it. So the
fills conserve the risk up to the first one, and no further (`fills_progress_iff`).
-/

namespace Matrades

open Base

/-- A fill as the broker reports it: the fraction of the command that is filled by now. -/
structure PartialFill where
  env : Env
  fraction : ℚ
  positionId : String

namespace PartialFill

/-- The split for a plan whose reservation was made for `amount`. -/
def op (reservationId ownerId : Uuid) (amount : ℚ) (f : PartialFill) : ReservationOp :=
  .splitPartialFill f.env reservationId ownerId (amount * f.fraction) f.positionId
    (amount - amount * f.fraction)

def step (reservationId ownerId : Uuid) (amount : ℚ) (db : Database) (f : PartialFill) : Database :=
  ReservationOp.step db (f.op reservationId ownerId amount)

end PartialFill

/-- The reservation, and those split from it. -/
def Reservation.descends (reservationId : Uuid) (r : Reservation) : Bool :=
  r.id = reservationId ∨ r.splitFrom = some reservationId

/-- What a row counts for the plan's reservation. -/
def Reservation.shared (reservationId : Uuid) (r : Reservation) : ℚ :=
  if r.descends reservationId = true ∧ r.state.isActive = true then r.amount else 0

/-- The active amounts that descend from the reservation. -/
def Database.planRisk (db : Database) (reservationId : Uuid) : ℚ :=
  (db.reservations.map (Reservation.shared reservationId)).sum

/-- The fill succeeds, and what descends from the plan's reservation sums up to its amount. -/
def Progresses (reservationId ownerId : Uuid) (amount : ℚ) (db : Database) (f : PartialFill) : Prop :=
  Returns ((f.op reservationId ownerId amount).session db).result ∧
    (f.step reservationId ownerId amount db).planRisk reservationId = amount

/-! ## One split -/

/-- A sum in which one summand changes. -/
theorem sum_map_change {α β : Type} {l : List α} {key : α → β} {f g : α → ℚ} {a : α}
    (hkeys : (l.map key).Nodup) (ha : a ∈ l) (hother : ∀ x ∈ l, key x ≠ key a → f x = g x) :
    (l.map f).sum = (l.map g).sum - g a + f a := by
  obtain ⟨before, after, rfl⟩ := List.append_of_mem ha
  rw [List.map_append, List.map_cons, List.nodup_append, List.nodup_cons] at hkeys
  obtain ⟨-, ⟨hafter, -⟩, hbefore⟩ := hkeys
  have hsame : before.map f = before.map g := List.map_congr_left fun x hx =>
    hother x (List.mem_append_left _ hx)
      (hbefore (key x) (List.mem_map_of_mem hx) (key a) List.mem_cons_self)
  have hsame' : after.map f = after.map g := List.map_congr_left fun x hx =>
    hother x (List.mem_append_right _ (List.mem_cons_of_mem _ hx))
      fun hkey => hafter (hkey ▸ List.mem_map_of_mem hx)
  simp only [List.map_append, List.map_cons, List.sum_append, List.sum_cons, hsame, hsame']
  ring

/-- The plan's reservation, and what descends from it. -/
structure PlanRows (reservationId ownerId : Uuid) (db : Database) (r : Reservation) (total : ℚ) :
    Prop where
  ledger : db.Ledger
  found : db.reservation? reservationId ownerId = some r
  risk : db.planRisk reservationId = total

section
variable {reservationId ownerId : Uuid} {db : Database} {r : Reservation} {total : ℚ}

theorem PlanRows.mem (h : PlanRows reservationId ownerId db r total) : r ∈ db.reservations :=
  List.mem_of_find?_eq_some h.found

theorem PlanRows.named (h : PlanRows reservationId ownerId db r total) :
    r.id = reservationId ∧ r.ownerId = some ownerId := by
  have hfound := List.find?_some h.found
  simpa using hfound

theorem reservation?_add (h : db.reservation? reservationId ownerId = some r) (record : Reservation) :
    (db.addReservation record).reservation? reservationId ownerId = some r := by
  unfold Database.reservation? Database.addReservation at *
  rw [List.find?_append, h]
  rfl

theorem planRisk_add (record : Reservation) : (db.addReservation record).planRisk reservationId =
    db.planRisk reservationId + record.shared reservationId := by
  simp [Database.planRisk, Database.addReservation]

/-- An accepted transition of the reservation changes its own amount only. -/
theorem planRisk_move (h : PlanRows reservationId ownerId db r total)
    (hactive : r.state.isActive = true) {now : Time} {target : ReservationState}
    {fields : TransitionFields} :
    (db.moveReservation now reservationId ownerId target fields).planRisk reservationId =
      db.planRisk reservationId - r.amount +
        (fields.finish now (fields.mark target r)).shared reservationId := by
  have hshared : r.shared reservationId = r.amount := by
    rw [Reservation.shared, if_pos ⟨by simp [Reservation.descends, h.named.1], hactive⟩]
  have hmoved : fields.moved now reservationId ownerId target r =
      fields.finish now (fields.mark target r) := if_pos h.named
  have hsum := sum_map_change (f := Reservation.shared reservationId ∘
    fields.moved now reservationId ownerId target) (g := Reservation.shared reservationId)
    h.ledger.ids h.mem fun row _ hid => by
      rw [Function.comp_apply, TransitionFields.moved, if_neg fun hmine =>
        hid (hmine.1.trans h.named.1.symm)]
  unfold Database.planRisk
  rw [moveReservation_rows, List.map_map, hsum, hshared, Function.comp_apply, hmoved]

/-- A split that fits the reservation replaces its amount by the two parts. -/
theorem PlanRows.split (h : PlanRows reservationId ownerId db r total)
    (hactive : r.state.isActive = true) (env : Env) (position : String) {filled : ℚ} (remaining : ℚ)
    (hfilled : 0 ≤ filled) (hle : filled ≤ r.amount)
    (hfresh : ∀ row ∈ db.reservations, row.id ≠ env.newId db.reservations.length) :
    Returns ((ReservationOp.splitPartialFill env reservationId ownerId filled position
      remaining).session db).result ∧
    ∃ r', r'.amount = filled ∧ r'.state.isActive = true ∧
      PlanRows reservationId ownerId (ReservationOp.step db
        (.splitPartialFill env reservationId ownerId filled position remaining)) r'
        (total - r.amount + filled + max 0 remaining) := by
  have hamount : ∀ amount ∈ (fillFields position filled).amount, 0 ≤ amount ∧ amount ≤ r.amount := by
    intro amount hgiven
    cases hgiven
    exact ⟨hfilled, hle⟩
  have hmove := @transitionReservation_moves _ env.now _ _ .partiallyFilled _ _ h.found
    hactive hamount
  obtain ⟨pair, hsplit⟩ := @splitPartialFill_fills _ _ _ _ _ remaining _ _ hmove
  have hrun : (ReservationOp.splitPartialFill env reservationId ownerId filled position
      remaining).session db =
      ⟨.ok (), db.fillPart env r reservationId ownerId filled remaining position, []⟩ := Tx.bind_next hsplit
  have hstep : ReservationOp.step db
      (.splitPartialFill env reservationId ownerId filled position remaining) =
      db.fillPart env r reservationId ownerId filled remaining position := by
    rw [ReservationOp.step, Tx.unitOfWork_of_ok hrun]
  rw [hrun, hstep]
  refine ⟨returns_ok (), (fillFields position filled).finish env.now
    ((fillFields position filled).mark .partiallyFilled r), rfl, rfl, ?_, ?_, ?_⟩
  · exact ledger_fill h.ledger hfresh hfilled
  · have hmoved := reservation?_move db env.now reservationId ownerId .partiallyFilled
      (fillFields position filled)
    rw [h.found] at hmoved
    unfold Database.fillPart
    by_cases hrest : 0 < remaining
    · rw [if_pos hrest]
      exact reservation?_add hmoved _
    · rw [if_neg hrest]
      exact hmoved
  · have hmoved : (db.moveReservation env.now reservationId ownerId .partiallyFilled
        (fillFields position filled)).planRisk reservationId = total - r.amount + filled := by
      have hshared : ((fillFields position filled).finish env.now
          ((fillFields position filled).mark .partiallyFilled r)).shared reservationId = filled := by
        refine if_pos ⟨?_, rfl⟩
        simp [Reservation.descends, TransitionFields.finish, TransitionFields.mark, h.named.1]
      rw [planRisk_move h hactive, h.risk, hshared]
    unfold Database.fillPart
    by_cases hrest : 0 < remaining
    · rw [if_pos hrest, planRisk_add, hmoved, max_eq_right hrest.le]
      have hshared : (remainderOf env db r remaining).shared reservationId = remaining := by
        simp [Reservation.shared, Reservation.descends, remainderOf, ReservationState.isActive,
          h.named.1]
      rw [hshared]
    · rw [if_neg hrest, hmoved, max_eq_left (not_lt.1 hrest), add_zero]

/-- A split that does not fit the reservation raises. -/
theorem PlanRows.refused (h : PlanRows reservationId ownerId db r total) {env : Env}
    {filled remaining : ℚ} {position : String}
    (hrefused : ¬(r.state.isActive = true ∧ 0 ≤ filled ∧ filled ≤ r.amount)) :
    ¬Returns ((ReservationOp.splitPartialFill env reservationId ownerId filled position
      remaining).session db).result := by
  rcases transitionReservation_cases db env.now reservationId ownerId .partiallyFilled
      (fillFields position filled) with ⟨e, he⟩ | ⟨row, hrow, hactive, hamount, -⟩
  · have hsplit : (splitPartialFill env reservationId ownerId filled position remaining db).result =
        .error e := by
      unfold fillFields at he
      unfold splitPartialFill
      rw [Tx.bind_run, he]
    have herror : ((ReservationOp.splitPartialFill env reservationId ownerId filled position
        remaining).session db).result = .error e := by
      change ((splitPartialFill env reservationId ownerId filled position remaining >>= fun _ =>
        pure ()) db).result = .error e
      rw [Tx.bind_run, hsplit]
    rw [herror]
    exact not_returns_error e
  · obtain rfl : row = r := Option.some.inj (hrow.symm.trans h.found)
    exact absurd ⟨hactive, hamount filled rfl⟩ hrefused

end

/-! ## Sequences of fills -/

/-- Fractions that do not fall, of a command that is not filled yet. -/
structure Cumulative (fills : List PartialFill) : Prop where
  bounds : ∀ f ∈ fills, 0 < f.fraction ∧ f.fraction < 1
  rising : fills.Pairwise fun f g => f.fraction ≤ g.fraction

/-- The reservation of a plan before any fill. -/
structure Unsplit (reservationId ownerId : Uuid) (db : Database) (r : Reservation) : Prop where
  ledger : db.Ledger
  found : db.reservation? reservationId ownerId = some r
  alone : ∀ row ∈ db.reservations, row.splitFrom ≠ some reservationId

section
variable {reservationId ownerId : Uuid} {db : Database} {r : Reservation}

theorem Unsplit.rows (h : Unsplit reservationId ownerId db r) (hactive : r.state.isActive = true) :
    PlanRows reservationId ownerId db r r.amount := by
  have hfound := List.find?_some h.found
  simp only [decide_eq_true_eq] at hfound
  have hother : ∀ row ∈ db.reservations, row.id ≠ r.id → row.shared reservationId = 0 := by
    intro row hrow hid
    refine if_neg fun hshared => ?_
    have hdescends := hshared.1
    unfold Reservation.descends at hdescends
    rw [decide_eq_true_eq] at hdescends
    rcases hdescends with hsame | hsplit
    · exact hid (hsame.trans hfound.1.symm)
    · exact h.alone row hrow hsplit
  have hown : r.shared reservationId = r.amount :=
    if_pos ⟨by simp [Reservation.descends, hfound.1], hactive⟩
  have hsum := sum_map_change (f := Reservation.shared reservationId) (g := fun _ => 0)
    h.ledger.ids (List.mem_of_find?_eq_some h.found) hother
  refine ⟨h.ledger, h.found, ?_⟩
  rw [Database.planRisk, hsum, hown]
  simp

/-- The new rows get new ids. -/
abbrev FreshFills (reservationId ownerId : Uuid) (amount : ℚ) : Database → List PartialFill → Prop :=
  Along (PartialFill.step reservationId ownerId amount) fun db f =>
    ∀ row ∈ db.reservations, row.id ≠ f.env.newId db.reservations.length

/-- A reservation without amount takes every fill. -/
theorem progresses_of_zero {fills : List PartialFill} (h : PlanRows reservationId ownerId db r 0)
    (hactive : r.state.isActive = true) (hzero : r.amount = 0)
    (hfresh : FreshFills reservationId ownerId 0 db fills) :
    Along (PartialFill.step reservationId ownerId 0) (Progresses reservationId ownerId 0) db fills := by
  induction fills generalizing db r with
  | nil => trivial
  | cons f fills ih =>
    have hfilled : 0 * f.fraction ≤ r.amount := by rw [hzero, zero_mul]
    obtain ⟨hreturns, r', hamount, hactive', hrows⟩ := h.split hactive f.env f.positionId
      (0 - 0 * f.fraction) (zero_mul f.fraction).ge hfilled hfresh.1
    have htotal : (0 : ℚ) - r.amount + 0 * f.fraction + max 0 (0 - 0 * f.fraction) = 0 := by
      rw [hzero, zero_mul, sub_zero, max_self, add_zero, add_zero]
    rw [htotal] at hrows
    exact ⟨⟨hreturns, hrows.risk⟩, ih hrows hactive' (hamount.trans (zero_mul _)) hfresh.2⟩

/-- After a fill no later one progresses: it exceeds the reservation, or splits it a second time. -/
theorem not_progresses_again {amount : ℚ} (h : PlanRows reservationId ownerId db r amount)
    {f : PartialFill} {fraction : ℚ} (hamount : 0 < amount) (hr : r.amount = amount * fraction)
    (hrising : fraction ≤ f.fraction) (hbounds : 0 < f.fraction ∧ f.fraction < 1)
    (hfresh : ∀ row ∈ db.reservations, row.id ≠ f.env.newId db.reservations.length) :
    ¬Progresses reservationId ownerId amount db f := by
  rintro ⟨hreturns, hconserved⟩
  by_cases hfits : r.state.isActive = true ∧ 0 ≤ amount * f.fraction ∧ amount * f.fraction ≤ r.amount
  · obtain ⟨hactive, hfilled, hle⟩ := hfits
    obtain ⟨-, r', -, -, hrows⟩ := h.split hactive f.env f.positionId
      (amount - amount * f.fraction) hfilled hle hfresh
    have hrisk := hrows.risk
    have hrest : 0 < amount - amount * f.fraction := by
      have hlt := mul_lt_mul_of_pos_left hbounds.2 hamount
      linarith
    have hsame : amount * fraction ≤ amount * f.fraction :=
      mul_le_mul_of_nonneg_left hrising hamount.le
    rw [max_eq_right hrest.le] at hrisk
    have heq := hrisk.symm.trans hconserved
    linarith
  · exact h.refused hfits hreturns

end

/-! ## A reservation of 100 -/

/-- A plan has reserved 100 and its command is queued. -/
def pendingEntry : Database := run ReservationOp.step oneAccount (filledEntry.take 2)

def pendingReservation : Reservation :=
  { filledReservation with brokerPositionId := none, state := .commandPending, version := 2, updatedAt := 0 }

theorem pendingEntry_reserved : pendingEntry.reservations = [pendingReservation] := by decide +kernel

theorem unsplit_pending : Unsplit (.ofNat 100) (.ofNat 9) pendingEntry pendingReservation := by
  refine ⟨⟨?_, ?_⟩, ?_, ?_⟩
  · rw [pendingEntry_reserved]
    decide
  · rw [pendingEntry_reserved]
    decide
  · rw [Database.reservation?, pendingEntry_reserved]
    decide
  · rw [pendingEntry_reserved]
    decide

/-- A fill in the given minute. -/
def fillAt (n : Nat) (fraction : ℚ) : PartialFill := ⟨minutes n, fraction, "7"⟩

end Matrades

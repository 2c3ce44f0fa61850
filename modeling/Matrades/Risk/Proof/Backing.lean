import Matrades.Risk.Proof.ReservationLife

/-!
# What reserve returns

A plan that has no reservation gets one that is active, lasts ten more minutes, and is counted by its
account. A plan that has one gets that one back, whatever became of it in the meantime. So what `reserve`
returns backs the plan exactly where the plan's earlier reservation still does (`reserve_backs_iff`).
-/

namespace Matrades

open Base

/-- The reservation is active and unexpired, and counted among the account's with at least the amount. -/
structure Backs (db : Database) (now : Time) (ownerId accountId : Uuid) (amount : ℚ) (r : Reservation) :
    Prop where
  active : r.state.isActive = true
  unexpired : now < r.expiresAt
  counted : r ∈ db.reservations ∧ r.ownerId = some ownerId ∧ r.accountId = accountId
  enough : amount ≤ r.amount

/-- A reservation that backs a plan is one of the active amounts. -/
theorem Backs.amount_mem {db : Database} {now : Time} {ownerId accountId : Uuid} {amount : ℚ}
    {r : Reservation} (h : Backs db now ownerId accountId amount r) :
    r.amount ∈ db.activeAmounts ownerId accountId := by
  obtain ⟨hmem, howner, haccount⟩ := h.counted
  refine List.mem_map.2 ⟨r, List.mem_filter.2 ⟨hmem, ?_⟩, rfl⟩
  simp [howner, haccount, h.active]

namespace ReservationOp

/-- Whatever a reserve returns backs its plan. -/
def ReserveBacks (db : Database) : ReservationOp → Prop
  | reserve env ownerId accountId tradePlanId amount available => ∀ r after,
    Matrades.reserve env ownerId accountId tradePlanId amount available db = ⟨.ok r, after, []⟩ →
    Backs after env.now ownerId accountId amount r
  | _ => True

/-- An earlier reservation of the plan, with the amount asked for, is still active and unexpired, and
of the account. -/
def StillReserved (db : Database) : ReservationOp → Prop
  | reserve env ownerId accountId tradePlanId amount _ =>
    db.HasAccount accountId ownerId → ∀ r, db.planReservation? ownerId tradePlanId = some r →
      r.amount = amount →
      r.state.isActive = true ∧ env.now < r.expiresAt ∧ r.accountId = accountId
  | _ => True

instance (db : Database) : (op : ReservationOp) → Decidable (op.StillReserved db)
  | reserve env ownerId accountId tradePlanId amount _ =>
    inferInstanceAs (Decidable (db.HasAccount accountId ownerId →
      ∀ r ∈ db.planReservation? ownerId tradePlanId, r.amount = amount →
        r.state.isActive = true ∧ env.now < r.expiresAt ∧ r.accountId = accountId))
  | getActive .. | transition .. | splitPartialFill .. | expire .. => inferInstanceAs (Decidable True)

end ReservationOp

/-- A reservation that is made backs its plan. -/
theorem provisional_backs (env : Env) (db : Database) (ownerId accountId tradePlanId : Uuid)
    (amount : ℚ) : Backs (db.addReservation (provisional env db ownerId accountId tradePlanId amount))
      env.now ownerId accountId amount (provisional env db ownerId accountId tradePlanId amount) where
  active := rfl
  unexpired := Nat.lt_add_of_pos_right (by decide)
  counted := ⟨List.mem_append_right _ List.mem_cons_self, rfl, rfl⟩
  enough := le_refl amount

theorem reserveNew_backs {env : Env} {ownerId accountId tradePlanId : Uuid} {amount available : ℚ}
    {db after : Database} {r : Reservation}
    (h : reserveNew env ownerId accountId tradePlanId amount available db = ⟨.ok r, after, []⟩) :
    Backs after env.now ownerId accountId amount r := by
  rw [reserveNew, expire, Tx.modify_bind, Tx.get_bind] at h
  by_cases hroom : 0 < amount ∧
      ((db.sweep env.now (some accountId)).activeAmounts ownerId accountId).sum + amount ≤ available
  · rw [Tx.require_bind_pos hroom, Tx.modify_bind] at h
    cases h
    exact provisional_backs env _ ownerId accountId tradePlanId amount
  · rw [Tx.require_bind_neg hroom] at h
    cases h

/-- The plan's earlier reservation is returned as it is. -/
theorem reserve_existing {env : Env} {ownerId accountId tradePlanId : Uuid} {amount available : ℚ}
    {db : Database} {r : Reservation} (haccount : db.HasAccount accountId ownerId)
    (hr : db.planReservation? ownerId tradePlanId = some r) (hamount : r.amount = amount) :
    reserve env ownerId accountId tradePlanId amount available db = ⟨.ok r, db, []⟩ := by
  rw [reserve, Tx.get_bind, Tx.require_bind_pos haccount, hr]
  dsimp only
  rw [Tx.require_bind_pos hamount]
  rfl

theorem reserveBacks_iff (db : Database) (op : ReservationOp) :
    op.ReserveBacks db ↔ op.StillReserved db := by
  cases op with
  | reserve env ownerId accountId tradePlanId amount available =>
    constructor
    · intro hbacks haccount r hr hamount
      obtain ⟨hactive, hunexpired, hcounted, -⟩ := hbacks r db (reserve_existing haccount hr hamount)
      exact ⟨hactive, hunexpired, hcounted.2.2⟩
    · intro hstill r after hrun
      by_cases haccount : db.HasAccount accountId ownerId
      case neg =>
        rw [reserve, Tx.get_bind, Tx.require_bind_neg haccount] at hrun
        cases hrun
      cases hexisting : db.planReservation? ownerId tradePlanId with
      | none =>
        rw [reserve, Tx.get_bind, Tx.require_bind_pos haccount, hexisting] at hrun
        exact reserveNew_backs hrun
      | some existing =>
        by_cases hamount : existing.amount = amount
        · obtain ⟨hactive, hunexpired, hsame⟩ := hstill haccount existing hexisting hamount
          rw [reserve_existing haccount hexisting hamount] at hrun
          cases hrun
          have hfound := List.find?_some hexisting
          simp only [decide_eq_true_eq] at hfound
          exact ⟨hactive, hunexpired, ⟨List.mem_of_find?_eq_some hexisting, hfound.1, hsame⟩, hamount.ge⟩
        · rw [reserve, Tx.get_bind, Tx.require_bind_pos haccount, hexisting] at hrun
          dsimp only at hrun
          rw [Tx.require_bind_neg hamount] at hrun
          cases hrun
  | getActive | transition | splitPartialFill | expire => exact Iff.rfl

/-- A plan reserves 100, and again in the given minute. -/
def reservedAgain (n : Nat) : List ReservationOp := [
  .reserve (minutes 0) (.ofNat 9) (.ofNat 1) (.ofNat 20) 100 500,
  .expire (minutes n) none,
  .reserve (minutes n) (.ofNat 9) (.ofNat 1) (.ofNat 20) 100 500]

end Matrades

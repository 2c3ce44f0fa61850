import Matrades.Base.Run
import Matrades.Risk.Reservations

/-!
# The life of a reservation

A reservation is `Held` while an active row carries it, with the identity, account and expiry it was
created with; then the risk context counts its amount (`held_counted`). Transitions, partial fills
and new reservations keep every other reservation held. `expire` does not: it sweeps the live states
like the provisional one, so a reservation is held throughout a run exactly if no sweep of its
account comes at or after its expiry (`held_throughout_iff`).
-/

namespace Matrades

open Base

/-- The states in which a command, an order or a position stands behind the reservation. -/
def ReservationState.isLive : ReservationState → Bool
  | commandPending => true
  | orderWorking => true
  | partiallyFilled => true
  | openPosition => true
  | _ => false

theorem ReservationState.isActive_of_isLive {s : ReservationState} (h : s.isLive = true) :
    s.isActive = true := by
  cases s <;> simp_all [isLive, isActive]

/-- Is the row the reservation `r`, by the columns that never change? -/
def Reservation.Same (r row : Reservation) : Prop :=
  row.id = r.id ∧ row.ownerId = r.ownerId ∧ row.accountId = r.accountId ∧ row.expiresAt = r.expiresAt

instance (r row : Reservation) : Decidable (r.Same row) :=
  inferInstanceAs (Decidable (_ ∧ _ ∧ _ ∧ _))

/-- An active row carries the reservation. -/
def Database.Holds (db : Database) (r : Reservation) : Prop :=
  ∃ row ∈ db.reservations, r.Same row ∧ row.state.isActive = true

instance (db : Database) (r : Reservation) : Decidable (db.Holds r) :=
  inferInstanceAs (Decidable (∃ row ∈ db.reservations, _))

/-- The operations of the reservation store. -/
inductive ReservationOp
  | reserve (env : Env) (ownerId accountId tradePlanId : Uuid) (amount available : ℚ)
  | getActive (env : Env) (reservationId ownerId accountId : Uuid)
  | transition (env : Env) (reservationId ownerId : Uuid) (target : ReservationState)
      (fields : TransitionFields)
  | splitPartialFill (env : Env) (reservationId ownerId : Uuid) (filledAmount : ℚ)
      (brokerPositionId : String) (remainingCommandAmount : ℚ)
  | expire (env : Env) (accountId : Option Uuid)

namespace ReservationOp

def session : ReservationOp → Session Unit
  | reserve env ownerId accountId tradePlanId amount available => do
    let _ ← Matrades.reserve env ownerId accountId tradePlanId amount available
  | getActive env reservationId ownerId accountId => do
    let _ ← Matrades.getActive env reservationId ownerId accountId
  | transition env reservationId ownerId target fields => do
    let _ ← transitionReservation env.now reservationId ownerId target fields
  | splitPartialFill env reservationId ownerId filled position remaining => do
    let _ ← Matrades.splitPartialFill env reservationId ownerId filled position remaining
  | expire env accountId => Matrades.expire env accountId

/-- The operation as a transaction of its own. -/
def step (db : Database) (op : ReservationOp) : Database := (Tx.unitOfWork op.session db).state

/-- Does the operation release or expire `r` by name? -/
def Releases (r : Reservation) : ReservationOp → Prop
  | transition _ reservationId ownerId target _ =>
    reservationId = r.id ∧ some ownerId = r.ownerId ∧ target.isActive = false
  | _ => False

end ReservationOp

/-- A new reservation is made: the account is there, the plan has none yet, and after the sweep
there is capacity for the amount. -/
def Database.Reserves (db : Database) (now : Time) (ownerId accountId tradePlanId : Uuid)
    (amount available : ℚ) : Prop :=
  db.HasAccount accountId ownerId ∧ db.planReservation? ownerId tradePlanId = none ∧
  0 < amount ∧
  ((db.sweep now (some accountId)).activeAmounts ownerId accountId).sum + amount ≤ available

/-- The operation sweeps the reservations of the account at the time `now`. -/
def ReservationOp.Sweeps (db : Database) (account : Uuid) (now : Time) : ReservationOp → Prop
  | reserve env ownerId accountId tradePlanId amount available =>
    accountId = account ∧ env.now = now ∧
      db.Reserves env.now ownerId accountId tradePlanId amount available
  | getActive env _ _ accountId => accountId = account ∧ env.now = now
  | expire env accountId => accountId.all (· = account) = true ∧ env.now = now
  | _ => False

/-! ## What keeps a reservation held -/

/-- A held reservation is counted by the risk context of its account. -/
theorem held_counted {db : Database} {r : Reservation} {ownerId : Uuid} (h : db.Holds r)
    (ho : r.ownerId = some ownerId) :
    ∃ row ∈ db.reservations, r.Same row ∧ row.amount ∈ db.activeAmounts ownerId r.accountId := by
  obtain ⟨row, hrow, hsame, hactive⟩ := h
  refine ⟨row, hrow, hsame, List.mem_map.2 ⟨row, List.mem_filter.2 ⟨hrow, ?_⟩, rfl⟩⟩
  have hown : row.ownerId = some ownerId := hsame.2.1.trans ho
  simp [hown, hsame.2.2.1, hactive]

/-- Changing the rows leaves `r` held if it keeps the identity of each row and the state of those
that are `r` active. -/
theorem holds_map {db db' : Database} {r : Reservation} {f : Reservation → Reservation}
    (hdb : db'.reservations = db.reservations.map f) (hsame : ∀ row, r.Same row → r.Same (f row))
    (hactive : ∀ row, r.Same row → row.state.isActive = true → (f row).state.isActive = true)
    (h : db.Holds r) : db'.Holds r := by
  obtain ⟨row, hrow, hs, ha⟩ := h
  refine ⟨f row, ?_, hsame row hs, hactive row hs ha⟩
  rw [hdb]
  exact List.mem_map_of_mem hrow

theorem holds_add {db : Database} {r record : Reservation} (h : db.Holds r) :
    (db.addReservation record).Holds r := by
  obtain ⟨row, hrow, hs, ha⟩ := h
  exact ⟨row, List.mem_append_left _ hrow, hs, ha⟩

/-- A new row holds `r` only if it is `r`. -/
theorem holds_add_iff {db : Database} {r record : Reservation} (hne : ¬r.Same record) :
    (db.addReservation record).Holds r ↔ db.Holds r := by
  refine ⟨?_, holds_add⟩
  rintro ⟨row, hrow, hs, ha⟩
  rcases List.mem_append.1 hrow with hrow | hrow
  · exact ⟨row, hrow, hs, ha⟩
  · rw [List.mem_singleton.1 hrow] at hs
    exact absurd hs hne

/-- **A sweep and a reservation**: it stays held exactly if the sweep is of another account or
before its expiry. -/
theorem holds_sweep_iff {db : Database} {r : Reservation} {now : Time} {accountId : Option Uuid} :
    (db.sweep now accountId).Holds r ↔
      db.Holds r ∧ (accountId.all (· = r.accountId) = true → now < r.expiresAt) := by
  constructor
  · rintro ⟨row', hrow', hs, ha⟩
    obtain ⟨row, hrow, rfl⟩ := List.mem_map.1 hrow'
    by_cases hsw : Database.sweeps now accountId row = true
    · rw [if_pos hsw] at ha
      cases ha
    · rw [if_neg hsw] at hs ha
      refine ⟨⟨row, hrow, hs, ha⟩, fun hacc => ?_⟩
      by_contra hle
      refine hsw ?_
      obtain ⟨_, _, hra, hre⟩ := hs
      simp only [Database.sweeps, ha, hra, hre, hacc, Bool.and_true, Bool.true_and, decide_eq_true_eq]
      exact not_lt.1 hle
  · rintro ⟨h, hbefore⟩
    refine holds_map rfl (fun row hs => ?_) (fun row hs ha => ?_) h
    · split <;> exact hs
    · have hkeep : Database.sweeps now accountId row = false := by
        obtain ⟨_, _, hra, hre⟩ := hs
        by_contra hsw
        simp only [Database.sweeps, hra, hre, Bool.not_eq_false, Bool.and_eq_true,
          decide_eq_true_eq] at hsw
        exact absurd (hbefore hsw.2) (not_lt.2 hsw.1.2)
      rw [if_neg (by simp [hkeep])]
      exact ha

/-! ## Transitions and partial fills -/

/-- The databases in which `r` is still held where it was. -/
def KeepsHeld (r : Reservation) (db db' : Database) : Prop := db.Holds r → db'.Holds r

theorem keepsHeld_order (r : Reservation) : Tx.StoreOrder (KeepsHeld r) where
  refl _ := id
  trans h h' hr := h' (h hr)

theorem keepsHeld_amend {r : Reservation} {id ownerId : Uuid} {f : Reservation → Reservation}
    (hsame : ∀ row, r.Same row → r.Same (f row))
    (hactive : ∀ row, r.Same row → id = r.id → some ownerId = r.ownerId →
      row.state.isActive = true → (f row).state.isActive = true) (db : Database) :
    KeepsHeld r db (db.amendReservation id ownerId f) := by
  refine holds_map rfl (fun row hs => ?_) (fun row hs ha => ?_)
  · split
    · exact hsame row hs
    · exact hs
  · split
    · rename_i hrow
      exact hactive row hs (hrow.1.symm.trans hs.1) (hrow.2.symm.trans hs.2.1) ha
    · exact ha

theorem within_transition {r : Reservation} {now : Time} {id ownerId : Uuid}
    {target : ReservationState} {fields : TransitionFields}
    (h : id = r.id → some ownerId = r.ownerId → target.isActive = true) :
    Tx.Within (KeepsHeld r) (transitionReservation now id ownerId target fields) := by
  have hmark : ∀ db, KeepsHeld r db (db.amendReservation id ownerId (fields.mark target)) :=
    keepsHeld_amend (fun _ hs => hs) (fun _ _ hid ho _ => h hid ho)
  have hfinish : ∀ db, KeepsHeld r db (db.amendReservation id ownerId (fields.finish now)) :=
    keepsHeld_amend (fun _ hs => hs) (fun _ _ _ _ ha => ha)
  unfold transitionReservation
  refine Tx.within_bind (keepsHeld_order r) (Tx.within_get (keepsHeld_order r)) fun db => ?_
  refine Tx.within_bind (keepsHeld_order r) (Tx.within_orRaise (keepsHeld_order r) _ _) fun record => ?_
  refine Tx.within_bind (keepsHeld_order r) (Tx.within_require (keepsHeld_order r) _ _) fun _ => ?_
  refine Tx.within_bind (keepsHeld_order r) (Tx.within_modify hmark) fun _ => ?_
  refine Tx.within_bind (keepsHeld_order r) (Tx.within_require (keepsHeld_order r) _ _) fun _ => ?_
  exact Tx.within_bind (keepsHeld_order r) (Tx.within_modify hfinish) fun _ =>
    Tx.within_pure (keepsHeld_order r) _

theorem within_splitPartialFill {r : Reservation} {env : Env} {id ownerId : Uuid}
    {filled remaining : ℚ} {position : String} :
    Tx.Within (KeepsHeld r) (splitPartialFill env id ownerId filled position remaining) := by
  unfold splitPartialFill
  refine Tx.within_bind (keepsHeld_order r) (within_transition fun _ _ => rfl) fun record => ?_
  refine Tx.within_ite ?_ (Tx.within_pure (keepsHeld_order r) _)
  refine Tx.within_bind (keepsHeld_order r) (Tx.within_get (keepsHeld_order r)) fun db => ?_
  exact Tx.within_bind (keepsHeld_order r) (Tx.within_modify fun _ => holds_add) fun _ =>
    Tx.within_pure (keepsHeld_order r) _

/-! ## What the operations commit -/

/-- `reserve` as a transaction: where it makes a reservation it has swept the account first, and
otherwise it changes nothing. -/
theorem reserve_committed (db : Database) (env : Env) (ownerId accountId tradePlanId : Uuid)
    (amount available : ℚ) :
    (db.Reserves env.now ownerId accountId tradePlanId amount available →
      ReservationOp.step db (.reserve env ownerId accountId tradePlanId amount available) =
        (db.sweep env.now (some accountId)).addReservation
          (provisional env (db.sweep env.now (some accountId)) ownerId accountId tradePlanId
            amount)) ∧
    (¬db.Reserves env.now ownerId accountId tradePlanId amount available →
      ReservationOp.step db (.reserve env ownerId accountId tradePlanId amount available) = db) := by
  unfold ReservationOp.step ReservationOp.session Matrades.reserve
  by_cases hacc : db.HasAccount accountId ownerId
  case neg =>
    refine ⟨fun h => absurd h.1 hacc, fun _ => ?_⟩
    simp [Tx.unitOfWork, Tx.bind_run, Tx.require_neg hacc]
  cases hex : db.planReservation? ownerId tradePlanId with
  | some r =>
    refine ⟨fun h => absurd (hex.symm.trans h.2.1) nofun, fun _ => ?_⟩
    by_cases ham : r.amount = amount
    · simp [Tx.unitOfWork, Tx.bind_run, Tx.require_pos hacc, hex, Tx.require_pos ham]
    · simp [Tx.unitOfWork, Tx.bind_run, Tx.require_pos hacc, hex, Tx.require_neg ham]
  | none =>
    by_cases hcap : 0 < amount ∧
        ((db.sweep env.now (some accountId)).activeAmounts ownerId accountId).sum + amount ≤ available
    · refine ⟨fun _ => ?_, fun h => absurd ⟨hacc, hex, hcap⟩ h⟩
      simp [Tx.unitOfWork, Tx.bind_run, Tx.require_pos hacc, hex, reserveNew, expire,
        Tx.require_pos hcap]
    · refine ⟨fun h => absurd h.2.2 hcap, fun _ => ?_⟩
      simp [Tx.unitOfWork, Tx.bind_run, Tx.require_pos hacc, hex, reserveNew, expire,
        Tx.require_neg hcap]

theorem getActive_committed (db : Database) (env : Env) (reservationId ownerId accountId : Uuid) :
    ReservationOp.step db (.getActive env reservationId ownerId accountId) =
      db.sweep env.now (some accountId) := rfl

theorem expire_committed (db : Database) (env : Env) (accountId : Option Uuid) :
    ReservationOp.step db (.expire env accountId) = db.sweep env.now accountId := rfl

/-! ## Runs -/

/-- One operation that does not release `r` keeps it held exactly if it does not sweep its account
at or after its expiry. -/
theorem holds_step_iff {db : Database} {op : ReservationOp} {r : Reservation} (hr : db.Holds r)
    (hop : ¬op.Releases r) :
    (ReservationOp.step db op).Holds r ↔ ∀ now, op.Sweeps db r.accountId now → now < r.expiresAt := by
  cases op with
  | reserve env ownerId accountId tradePlanId amount available =>
    obtain ⟨hyes, hno⟩ := reserve_committed db env ownerId accountId tradePlanId amount available
    by_cases hres : db.Reserves env.now ownerId accountId tradePlanId amount available
    · rw [hyes hres]
      by_cases hsame : r.Same (provisional env (db.sweep env.now (some accountId)) ownerId accountId
          tradePlanId amount)
      · -- the expiry of a new reservation lies after the sweep
        have hlt : env.now < r.expiresAt := by
          have he : env.now + reservationTtl = r.expiresAt := hsame.2.2.2
          have httl : 0 < reservationTtl := by decide
          rw [← he]
          exact Nat.lt_add_of_pos_right httl
        refine ⟨fun _ now hs => hs.2.1 ▸ hlt, fun _ => holds_add ?_⟩
        exact holds_sweep_iff.2 ⟨hr, fun _ => hlt⟩
      · rw [holds_add_iff hsame, holds_sweep_iff]
        constructor
        · rintro ⟨_, hbefore⟩ now ⟨hacc, hnow, _⟩
          exact hnow ▸ hbefore (by simp [hacc])
        · intro h
          exact ⟨hr, fun hacc => h env.now ⟨by simpa using hacc, rfl, hres⟩⟩
    · rw [hno hres]
      exact ⟨fun _ now hs => absurd hs.2.2 hres, fun _ => hr⟩
  | getActive env reservationId ownerId accountId =>
    rw [getActive_committed, holds_sweep_iff]
    constructor
    · rintro ⟨_, hbefore⟩ now ⟨hacc, hnow⟩
      exact hnow ▸ hbefore (by simp [hacc])
    · intro h
      exact ⟨hr, fun hacc => h env.now ⟨by simpa using hacc, rfl⟩⟩
  | transition env reservationId ownerId target fields =>
    refine ⟨fun _ now hs => hs.elim, fun _ => ?_⟩
    have hkeep : Tx.Within (KeepsHeld r)
        (ReservationOp.session (.transition env reservationId ownerId target fields)) := by
      refine Tx.within_bind (keepsHeld_order r) (within_transition fun hid ho => ?_) fun _ =>
        Tx.within_pure (keepsHeld_order r) _
      by_contra hinactive
      exact hop ⟨hid, ho, by simpa using hinactive⟩
    exact (Tx.within_unitOfWork (keepsHeld_order r) hkeep db).1 hr
  | splitPartialFill env reservationId ownerId filled position remaining =>
    refine ⟨fun _ now hs => hs.elim, fun _ => ?_⟩
    have hkeep : Tx.Within (KeepsHeld r)
        (ReservationOp.session (.splitPartialFill env reservationId ownerId filled position
          remaining)) :=
      Tx.within_bind (keepsHeld_order r) within_splitPartialFill fun _ => Tx.within_pure (keepsHeld_order r) _
    exact (Tx.within_unitOfWork (keepsHeld_order r) hkeep db).1 hr
  | expire env accountId =>
    rw [expire_committed, holds_sweep_iff]
    constructor
    · rintro ⟨_, hbefore⟩ now ⟨hacc, hnow⟩
      exact hnow ▸ hbefore hacc
    · intro h
      exact ⟨hr, fun hacc => h env.now ⟨hacc, rfl⟩⟩

/-- Held, and counted with its amount wherever the risk context of its account is built. -/
def Reservation.HeldIn (r : Reservation) (db : Database) : Prop :=
  db.Holds r ∧ ∀ ownerId, r.ownerId = some ownerId →
    ∃ row ∈ db.reservations, r.Same row ∧ row.amount ∈ db.activeAmounts ownerId r.accountId

theorem heldIn_iff {db : Database} {r : Reservation} : r.HeldIn db ↔ db.Holds r :=
  ⟨And.left, fun h => ⟨h, fun _ ho => held_counted h ho⟩⟩

/-- **Live exposure stays reserved until a sweep after its expiry**: along every run of the store's
operations in which nobody releases the live reservation `r`, it is active and counted in every
state reached if and only if every sweep of its account happens before it expires. -/
theorem held_throughout_iff {db : Database} {ops : List ReservationOp} {r : Reservation}
    (hr : r ∈ db.reservations) (hlive : r.state.isLive = true)
    (hkept : Along ReservationOp.step (fun _ op => ¬op.Releases r) db ops) :
    States ReservationOp.step r.HeldIn db ops ↔
      Along ReservationOp.step
        (fun db op => ∀ now, op.Sweeps db r.accountId now → now < r.expiresAt) db ops := by
  have hactive := ReservationState.isActive_of_isLive hlive
  refine states_iff_along (fun db op hi hop => ?_)
    (heldIn_iff.2 ⟨r, hr, ⟨rfl, rfl, rfl, rfl⟩, hactive⟩) hkept
  rw [heldIn_iff]
  exact holds_step_iff hi.1 hop

/-! ## A filled entry, ten minutes later -/

/-- One account, without reservations. -/
def oneAccount : Database :=
  { Database.empty with accounts := [⟨.ofNat 1, .ofNat 9, .active, 1, ⟨"USD", 1000⟩, 0⟩] }

def minutes (n : Nat) : Env := ⟨n * minute, fun k => .ofNat (100 + k)⟩

/-- A plan reserves 100, its command is queued, the broker fills it. -/
def filledEntry : List ReservationOp := [
  .reserve (minutes 0) (.ofNat 9) (.ofNat 1) (.ofNat 20) 100 500,
  .transition (minutes 0) (.ofNat 100) (.ofNat 9) .commandPending { commandId := some (.ofNat 30) },
  .transition (minutes 1) (.ofNat 100) (.ofNat 9) .openPosition { brokerPositionId := some "7" }]

/-- The reservation of the filled entry. -/
def filledReservation : Reservation where
  id := .ofNat 100
  ownerId := some (.ofNat 9)
  accountId := .ofNat 1
  tradePlanId := some (.ofNat 20)
  commandId := some (.ofNat 30)
  brokerOrderId := none
  brokerPositionId := some "7"
  amount := 100
  state := .openPosition
  expiresAt := 10 * minute
  version := 3
  reason := none
  splitFrom := none
  updatedAt := minute

theorem filledEntry_reserved :
    (run ReservationOp.step oneAccount filledEntry).reservations = [filledReservation] := by
  decide +kernel

/-- **Live exposure does not stay reserved**: after eleven minutes another plan of the account
reserves capacity; that sweeps the open position's reservation away, although nobody released it. -/
theorem open_position_swept :
    let db := run ReservationOp.step oneAccount filledEntry
    let later := ReservationOp.reserve (minutes 11) (.ofNat 9) (.ofNat 1) (.ofNat 21) 450 500
    filledReservation ∈ db.reservations ∧ filledReservation.state.isLive = true ∧
      ¬later.Releases filledReservation ∧
      ¬filledReservation.HeldIn (ReservationOp.step db later) ∧
      (ReservationOp.step db later).activeAmounts (.ofNat 9) (.ofNat 1) = [450] := by
  refine ⟨by simp [filledEntry_reserved], rfl, id, ?_, by decide +kernel⟩
  rw [heldIn_iff]
  decide +kernel

/-- A sweep in the ninth minute leaves it held. -/
theorem held_throughout_nine_minutes :
    States ReservationOp.step filledReservation.HeldIn
      (run ReservationOp.step oneAccount filledEntry) [.expire (minutes 9) none] := by
  have hkept : Along ReservationOp.step (fun _ op => ¬op.Releases filledReservation)
      (run ReservationOp.step oneAccount filledEntry) [.expire (minutes 9) none] := ⟨id, trivial⟩
  refine (held_throughout_iff (by simp [filledEntry_reserved]) rfl hkept).2 ⟨?_, trivial⟩
  rintro now ⟨_, rfl⟩
  decide

end Matrades

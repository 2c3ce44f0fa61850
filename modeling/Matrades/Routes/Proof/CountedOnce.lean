import Mathlib.Algebra.BigOperators.Group.List.Basic
import Matrades.Risk.Proof.Monotone
import Matrades.Routes.Proof.NewestSnapshot
import Matrades.Trading.Proof.BoundedEntry
import Matrades.Trading.Proof.SafetyEpochs

/-!
# Every exposure counted once

The engine adds the losses of the broker's positions and the amounts of the active reservations. Both stand
for the same risk: a plan's reservation before the broker has opened its position, the position afterwards.
But an ingestion moves no reservation, and a sweep asks no command. So a plan's exposure is counted once in
the runs where no accepted snapshot shows a position of a plan that is still reserved, and where no sweep
takes the reservation of an entry that is still open (`exposure_counted_once`).
-/

namespace Matrades

open Base

/-! ## A sum by keys -/

section
variable {α κ : Type} [DecidableEq κ]

/-- A sum is the sum over what has no key and, for each key, over what has it. -/
theorem sum_by_key (key : α → Option κ) (f : α → ℚ) (xs : List α) {ks : List κ} (hnodup : ks.Nodup)
    (hks : ∀ x ∈ xs, ∀ k ∈ key x, k ∈ ks) :
    (xs.map f).sum = ((xs.filter fun x => key x = none).map f).sum +
      (ks.map fun k => ((xs.filter fun x => key x = some k).map f).sum).sum := by
  induction xs with
  | nil => simp
  | cons x xs ih =>
    have hrest := ih fun y hy => hks y (List.mem_cons_of_mem x hy)
    rw [List.map_cons, List.sum_cons, hrest]
    cases hkey : key x with
    | none =>
      have hsame : ∀ k, ((x :: xs).filter fun y => key y = some k) = xs.filter fun y => key y = some k :=
        fun k => List.filter_cons_of_neg (by simp [hkey])
      rw [List.filter_cons_of_pos (by simp [hkey]), List.map_cons, List.sum_cons, add_assoc]
      simp only [hsame]
    | some k₀ =>
      have hmem : k₀ ∈ ks := hks x List.mem_cons_self k₀ hkey
      have hone : ∀ k, (((x :: xs).filter fun y => key y = some k).map f).sum =
          if k = k₀ then f x + ((xs.filter fun y => key y = some k).map f).sum
          else ((xs.filter fun y => key y = some k).map f).sum := fun k => by
        by_cases hk : k = k₀
        · rw [if_pos hk, List.filter_cons_of_pos (by simp [hkey, hk]), List.map_cons, List.sum_cons]
        · rw [if_neg hk, List.filter_cons_of_neg (by simpa [hkey] using fun h => hk h.symm)]
      rw [List.filter_cons_of_neg (by simp [hkey])]
      simp only [hone]
      rw [List.sum_map_ite_eq, List.count_eq_one_of_mem hnodup hmem]
      rw [one_nsmul]
      ring

end

/-! ## What is counted -/

/-- For which plan the broker opened the position of an account, if for any of ours. -/
abbrev PositionOrigin := Uuid → String → Option Uuid

/-- The plan behind a position of the snapshot. -/
def BrokerSnapshot.planOf (origin : PositionOrigin) (s : BrokerSnapshot) (p : BrokerPosition) : Option Uuid :=
  origin s.accountId p.positionId

def BrokerSnapshot.ShowsPlan (origin : PositionOrigin) (s : BrokerSnapshot) (planId : Uuid) : Prop :=
  ∃ p ∈ s.positions, s.planOf origin p = some planId

instance (origin : PositionOrigin) (s : BrokerSnapshot) (planId : Uuid) :
    Decidable (s.ShowsPlan origin planId) :=
  inferInstanceAs (Decidable (∃ p ∈ s.positions, _))

/-- The loss that a position is counted with. -/
def BrokerPosition.counted (p : BrokerPosition) : ℚ := max 0 (p.remainingLoss.getD 0)

/-- A command whose outcome is still open. -/
def CommandState.isOpen : CommandState → Bool
  | created | validating | authorized | queued => true
  | dispatching | acknowledged | partiallyApplied | outcomeUnknown | reconciling => true
  | _ => false

namespace Database

variable (db : Database) (ownerId accountId planId : Uuid)

/-- The last accepted snapshot of the account. -/
def lastSnapshot : Option SnapshotRow := (db.brokerSnapshots.filter (ofAccount ownerId accountId)).getLast?

/-- An accepted snapshot has shown a position of the plan. -/
def PlanShown (origin : PositionOrigin) : Prop :=
  ∃ row ∈ db.brokerSnapshots, row.ownerId = ownerId ∧ row.data.ShowsPlan origin planId

instance (origin : PositionOrigin) : Decidable (db.PlanShown ownerId planId origin) :=
  inferInstanceAs (Decidable (∃ row ∈ db.brokerSnapshots, _))

/-- The plan has an entry whose outcome is still open. -/
def EntryOpen : Prop :=
  ∃ row ∈ db.commands, row.ownerId = ownerId ∧ row.data.command.tradePlanId = some planId ∧
    row.data.command.action = .placeOrder ∧ row.state.isOpen = true

/-- The active reservations of the plan that the account counts. -/
def activeOf : List Reservation :=
  (db.reservationsOf ownerId planId).filter fun r => r.accountId = accountId ∧ r.state.isActive = true

/-- The exposure of a plan: the loss of its positions where the last snapshot shows one, nothing once they
have disappeared, and what is reserved for it before. -/
def exposure (origin : PositionOrigin) (last : BrokerSnapshot) : ℚ :=
  if last.ShowsPlan origin planId then
    ((last.positions.filter fun p => last.planOf origin p = some planId).map BrokerPosition.counted).sum
  else if db.PlanShown ownerId planId origin then 0
  else ((db.activeOf ownerId accountId planId).map (·.amount)).sum

end Database

/-- Every exposure is counted once. The existing risk is that of the positions that are not ours and, for each
plan, its exposure; and a plan with an open entry has one active reservation until its position is shown. -/
structure CountedOnce (origin : PositionOrigin) (db : Database) : Prop where
  existing : ∀ {now : Time} {ownerId accountId : Uuid} {candidate : CandidateTrade} {context : RiskContext},
    authoritativeRiskContext now db ownerId accountId candidate = .ok context →
    ∃ last, db.lastSnapshot ownerId accountId = some last ∧
      ∀ risk, existingRisk context = .ok risk → ∀ plans : List Uuid, plans.Nodup →
        (∀ planId, last.data.ShowsPlan origin planId ∨ db.activeOf ownerId accountId planId ≠ [] →
          planId ∈ plans) →
        risk = ((last.data.positions.filter fun p => last.data.planOf origin p = none).map
            BrokerPosition.counted).sum +
          (plans.map fun planId => db.exposure ownerId accountId planId origin last.data).sum
  open_reserved : ∀ row ∈ db.tradePlans, db.EntryOpen row.ownerId row.id →
    ¬db.PlanShown row.ownerId row.id origin →
    ∃ r, db.activeOf row.ownerId row.data.accountId row.id = [r]

/-! ## The runs -/

/-- A plan is queued for its entry, a command is dispatched, a snapshot is ingested. -/
inductive ExposureOp
  | enter (env : QueueEnv) (ownerId planId : Uuid)
  | dispatch (env : TaskEnv) (answer : AdapterAnswer) (ownerId commandId : Uuid)
  | ingest (env : Env) (ownerId : Uuid) (snapshot : BrokerSnapshot)

namespace ExposureOp

def step (db : Database) : ExposureOp → Database
  | enter env ownerId planId => (queuePlan env ownerId planId db).state
  | dispatch env answer ownerId commandId => (dispatchTask env answer ownerId commandId db).state
  | ingest env ownerId snapshot => (ingestBrokerSnapshot env ownerId snapshot db).state

/-- The conditions of a step. An entry that makes a reservation gives it a new id; its plan's position has not
been shown, and the sweep before it takes no reservation of an open entry whose position was never shown. An
accepted snapshot is stored later than the one selected before, and no plan of its positions is reserved. -/
def Separate (origin : PositionOrigin) (db : Database) : ExposureOp → Prop
  | enter env ownerId planId => ∀ plan ∈ Table.get? db.tradePlans planId ownerId,
    Queues env (entryKey planId) db plan.data → db.planReservation? ownerId planId = none →
      (∀ r ∈ db.reservations, r.id ≠ env.newId db.reservations.length) ∧
      ¬db.PlanShown ownerId planId origin ∧
      ∀ r ∈ db.reservations, Database.sweeps env.now (some plan.data.accountId) r = true →
        ∀ owner ∈ r.ownerId, ∀ reserved ∈ r.tradePlanId, db.EntryOpen owner reserved →
          db.PlanShown owner reserved origin
  | dispatch .. => True
  | ingest env ownerId snapshot => Accepts env ownerId snapshot db →
    (∀ last ∈ latestRow ownerId snapshot.accountId db.brokerSnapshots, last.updatedAt < env.now) ∧
      ∀ p ∈ snapshot.positions, ∀ planId ∈ snapshot.planOf origin p,
        ∀ r ∈ db.reservationsOf ownerId planId, r.state.isActive = false

end ExposureOp

/-! ## Reservations and their plans -/

/-- Every reservation is that of a plan, and on the account of its plan; a plan has at most one, and the one it
names is its own. -/
structure PlansReserved (db : Database) : Prop where
  ledger : db.Ledger
  plans : PlansKeyed db
  owned : ∀ r ∈ db.reservations, ∃ ownerId planId, r.ownerId = some ownerId ∧ r.tradePlanId = some planId
  once : ∀ ownerId planId, (db.reservationsOf ownerId planId).length ≤ 1
  linked : ∀ row ∈ db.tradePlans, ∀ id ∈ row.data.reservationId,
    ∃ r ∈ db.reservationsOf row.ownerId row.id, r.id = id
  account : ∀ row ∈ db.tradePlans, ∀ r ∈ db.reservationsOf row.ownerId row.id,
    r.accountId = row.data.accountId

theorem mem_reservationsOf {db : Database} {ownerId planId : Uuid} {r : Reservation} :
    r ∈ db.reservationsOf ownerId planId ↔
      r ∈ db.reservations ∧ r.ownerId = some ownerId ∧ r.tradePlanId = some planId := by
  simp [Database.reservationsOf]

/-- A rewriting of reservations that leaves each its id, its plan and its account. -/
structure KeepsClaim (f : Reservation → Reservation) : Prop where
  id : ∀ r, (f r).id = r.id
  owner : ∀ r, (f r).ownerId = r.ownerId
  plan : ∀ r, (f r).tradePlanId = r.tradePlanId
  account : ∀ r, (f r).accountId = r.accountId

/-- A reservation after a sweep. -/
def Reservation.lapsed (now : Time) (accountId : Option Uuid) (r : Reservation) : Reservation :=
  if Database.sweeps now accountId r then
    { r with state := .expired, version := r.version + 1, updatedAt := now }
  else r

theorem sweep_rows (db : Database) (now : Time) (accountId : Option Uuid) :
    (db.sweep now accountId).reservations = db.reservations.map (·.lapsed now accountId) := rfl

theorem lapsed_keeps (now : Time) (accountId : Option Uuid) : KeepsClaim (·.lapsed now accountId) := by
  constructor <;> intro r <;> unfold Reservation.lapsed <;> split <;> rfl

theorem moved_keeps (fields : TransitionFields) (now : Time) (id ownerId : Uuid)
    (target : ReservationState) : KeepsClaim (fields.moved now id ownerId target) := by
  constructor <;> intro r <;> unfold TransitionFields.moved <;> split <;> rfl

theorem KeepsClaim.reservationsOf {f : Reservation → Reservation} (hf : KeepsClaim f) {db db' : Database}
    (h : db'.reservations = db.reservations.map f) (ownerId planId : Uuid) :
    db'.reservationsOf ownerId planId = (db.reservationsOf ownerId planId).map f :=
  reservationsOf_map h hf.owner hf.plan ownerId planId

/-- A transition that keeps a reservation active leaves every plan its active reservation. -/
theorem active_move {db : Database} {ownerId planId : Uuid} {r : Reservation}
    (hr : r ∈ db.reservationsOf ownerId planId) (hactive : r.state.isActive = true) (now : Time)
    {id owner : Uuid} {target : ReservationState} (fields : TransitionFields)
    (htarget : target.isActive = true ∨ ¬(r.id = id ∧ r.ownerId = some owner)) :
    ∃ r' ∈ (db.moveReservation now id owner target fields).reservationsOf ownerId planId,
      r'.id = r.id ∧ r'.state.isActive = true := by
  rw [(moved_keeps fields now id owner target).reservationsOf (moveReservation_rows db)]
  refine ⟨_, List.mem_map_of_mem hr, moved_id r, ?_⟩
  unfold TransitionFields.moved
  split
  · rename_i hmoved
    exact htarget.resolve_right fun hne => hne hmoved
  · exact hactive

namespace PlansReserved

variable {db db' : Database}

/-- Only the plans and the reservations count. -/
theorem congr (h : PlansReserved db) (hplans : db'.tradePlans = db.tradePlans)
    (hreservations : db'.reservations = db.reservations) : PlansReserved db' := by
  have hof : ∀ ownerId planId, db'.reservationsOf ownerId planId = db.reservationsOf ownerId planId :=
    fun _ _ => by rw [Database.reservationsOf, hreservations, Database.reservationsOf]
  refine ⟨⟨hreservations ▸ h.ledger.ids, hreservations ▸ h.ledger.amounts⟩, h.plans.of_plans hplans,
    hreservations ▸ h.owned, fun ownerId planId => hof ownerId planId ▸ h.once ownerId planId, ?_, ?_⟩
  · intro row hrow
    rw [hof]
    exact h.linked row (hplans ▸ hrow)
  · intro row hrow
    rw [hof]
    exact h.account row (hplans ▸ hrow)

theorem rewrite (h : PlansReserved db) (hledger : db'.Ledger) (hplans : db'.tradePlans = db.tradePlans)
    {f : Reservation → Reservation} (hf : KeepsClaim f) (hrows : db'.reservations = db.reservations.map f) :
    PlansReserved db' where
  ledger := hledger
  plans := h.plans.of_plans hplans
  owned r' hr' := by
    rw [hrows] at hr'
    obtain ⟨r, hr, rfl⟩ := List.mem_map.1 hr'
    obtain ⟨ownerId, planId, howner, hplan⟩ := h.owned r hr
    exact ⟨ownerId, planId, (hf.owner r).trans howner, (hf.plan r).trans hplan⟩
  once ownerId planId := by
    rw [hf.reservationsOf hrows, List.length_map]
    exact h.once ownerId planId
  linked row hrow id hid := by
    obtain ⟨r, hr, hrid⟩ := h.linked row (hplans ▸ hrow) id hid
    rw [hf.reservationsOf hrows]
    exact ⟨f r, List.mem_map_of_mem hr, (hf.id r).trans hrid⟩
  account row hrow r' hr' := by
    rw [hf.reservationsOf hrows] at hr'
    obtain ⟨r, hr, rfl⟩ := List.mem_map.1 hr'
    exact (hf.account r).trans (h.account row (hplans ▸ hrow) r hr)

theorem sweep (h : PlansReserved db) (now : Time) (accountId : Option Uuid) :
    PlansReserved (db.sweep now accountId) :=
  h.rewrite (ledger_sweep h.ledger now accountId) rfl (lapsed_keeps now accountId) (sweep_rows db now accountId)

theorem move (h : PlansReserved db) (now : Time) (id ownerId : Uuid) (target : ReservationState)
    {fields : TransitionFields} (hamount : fields.amount = none) :
    PlansReserved (db.moveReservation now id ownerId target fields) := by
  refine h.rewrite (ledger_move h.ledger ?_) rfl (moved_keeps fields now id ownerId target)
    (moveReservation_rows db)
  rw [hamount]
  intro amount hnone
  cases hnone

/-- The first reservation of a plan. -/
theorem add (h : PlansReserved db) {r : Reservation} {ownerId planId : Uuid}
    (hid : ∀ row ∈ db.reservations, row.id ≠ r.id) (hamount : 0 ≤ r.amount)
    (howner : r.ownerId = some ownerId) (hplan : r.tradePlanId = some planId)
    (hnone : db.reservationsOf ownerId planId = [])
    (haccount : ∀ row ∈ db.tradePlans, row.ownerId = ownerId → row.id = planId →
      r.accountId = row.data.accountId) : PlansReserved (db.addReservation r) := by
  have hof : ∀ owner plan, (db.addReservation r).reservationsOf owner plan =
      db.reservationsOf owner plan ++ if owner = ownerId ∧ plan = planId then [r] else [] := by
    intro owner plan
    unfold Database.reservationsOf Database.addReservation
    rw [List.filter_append]
    congr 1
    by_cases hsame : owner = ownerId ∧ plan = planId
    · rw [if_pos hsame, List.filter_cons_of_pos (by simp [howner, hplan, hsame]), List.filter_nil]
    · have hother : ¬(r.ownerId = some owner ∧ r.tradePlanId = some plan) := fun ⟨hown, hof⟩ =>
        hsame ⟨Option.some.inj (hown.symm.trans howner), Option.some.inj (hof.symm.trans hplan)⟩
      rw [if_neg hsame, List.filter_cons_of_neg (by simpa using hother), List.filter_nil]
  refine ⟨ledger_add h.ledger hid hamount, h.plans.of_plans rfl, ?_, ?_, ?_, ?_⟩
  · intro row hrow
    rcases List.mem_append.1 hrow with hold | hnew
    · exact h.owned row hold
    · rw [List.mem_singleton.1 hnew]
      exact ⟨ownerId, planId, howner, hplan⟩
  · intro owner plan
    rw [hof, List.length_append]
    split
    · rename_i hsame
      rw [hsame.1, hsame.2, hnone]
      exact Nat.le_refl 1
    · exact h.once owner plan
  · intro row hrow id hid
    obtain ⟨found, hfound, hfoundId⟩ := h.linked row hrow id hid
    rw [hof]
    exact ⟨found, List.mem_append_left _ hfound, hfoundId⟩
  · intro row hrow found hfound
    rw [hof] at hfound
    rcases List.mem_append.1 hfound with hold | hnew
    · exact h.account row hrow found hold
    · split at hnew
      · rename_i hsame
        rw [List.mem_singleton.1 hnew]
        exact haccount row hrow hsame.1 hsame.2
      · cases hnew

/-- A plan is written that names a reservation of its own, if any. -/
theorem updatePlan (h : PlansReserved db) {row : Row Uuid TradePlanState TradePlan}
    (hrow : row ∈ db.tradePlans) {plan : TradePlan} (hid : plan.id = row.id)
    (howner : plan.ownerId = row.ownerId) (haccount : plan.accountId = row.data.accountId)
    (hnamed : ∀ id ∈ plan.reservationId, ∃ r ∈ db.reservationsOf row.ownerId row.id, r.id = id)
    (eventType : String) (now : Time) : PlansReserved (db.updatePlan row plan eventType now) where
  ledger := ⟨h.ledger.ids, h.ledger.amounts⟩
  plans := h.plans.update hrow hid howner eventType now
  owned := h.owned
  once := h.once
  linked row' hrow' := by
    rcases Table.mem_revise_row h.plans.unique hrow hrow' with ⟨hold, _⟩ | rfl
    · exact h.linked row' hold
    · exact hnamed
  account row' hrow' := by
    rcases Table.mem_revise_row h.plans.unique hrow hrow' with ⟨hold, _⟩ | rfl
    · exact h.account row' hold
    · intro r hr
      exact (h.account row hrow r hr).trans haccount.symm

/-- A transition, which finds an active reservation, leaves alone a plan that has none. -/
theorem inactive_move (h : PlansReserved db) {ownerId planId : Uuid}
    (hinactive : ∀ r ∈ db.reservationsOf ownerId planId, r.state.isActive = false) (now : Time)
    {id owner : Uuid} {target : ReservationState} (fields : TransitionFields) {found : Reservation}
    (hfound : db.reservation? id owner = some found) (hactive : found.state.isActive = true) :
    ∀ r ∈ (db.moveReservation now id owner target fields).reservationsOf ownerId planId,
      r.state.isActive = false := by
  rw [(moved_keeps fields now id owner target).reservationsOf (moveReservation_rows db)]
  intro r' hr'
  obtain ⟨r, hr, rfl⟩ := List.mem_map.1 hr'
  unfold TransitionFields.moved
  split
  · rename_i hmoved
    rw [← ledger_found h.ledger hfound (mem_reservationsOf.1 hr).1 hmoved.1, hinactive r hr] at hactive
    cases hactive
  · exact hinactive r hr

end PlansReserved

/-! ## Entries and their commands -/

/-- Every command is an entry, under the key of its plan, and a plan has one. -/
structure EntryCommands (db : Database) : Prop where
  keyed : Keyed db
  entries : ∀ c ∈ db.commands, ∃ planId, c.data.command.tradePlanId = some planId ∧
    c.data.command.idempotencyKey = entryKey planId
  single : ∀ c ∈ db.commands, ∀ c' ∈ db.commands, c.ownerId = c'.ownerId →
    c.data.command.tradePlanId = c'.data.command.tradePlanId → c.id = c'.id

/-- The later row is the same command, and open only if the earlier is. -/
structure ContinuesOpen (row row' : Row Uuid CommandState CommandData) : Prop extends SameIntent row row' where
  key : row'.data.command.idempotencyKey = row.data.command.idempotencyKey
  wasOpen : row'.state.isOpen = true → row.state.isOpen = true

theorem ContinuesOpen.refl (row : Row Uuid CommandState CommandData) : ContinuesOpen row row :=
  ⟨.refl row, rfl, id⟩

/-- Every command continues one from before. -/
def ContinuesFrom (db₀ db : Database) : Prop :=
  ∀ row' ∈ db.commands, ∃ row ∈ db₀.commands, ContinuesOpen row row'

theorem isOpen_of_pending {state : CommandState} (h : state ∈ pendingStates) : state.isOpen = true := by
  simp only [pendingStates, List.mem_cons, List.not_mem_nil, or_false] at h
  rcases h with rfl | rfl | rfl | rfl | rfl <;> rfl

theorem isOpen_of_leasable {state : CommandState} (h : state ∈ leasableStates) : state.isOpen = true := by
  simp only [leasableStates, List.mem_cons, List.not_mem_nil, or_false] at h
  rcases h with rfl | rfl <;> rfl

section
variable {db db' : Database}

theorem ContinuesFrom.of_commands (h : db'.commands = db.commands) : ContinuesFrom db db' := by
  intro row hrow
  exact ⟨row, h ▸ hrow, .refl row⟩

theorem EntryCommands.continued (h : EntryCommands db) (hkeyed : Keyed db') (hc : ContinuesFrom db db') :
    EntryCommands db' where
  keyed := hkeyed
  entries row' hrow' := by
    obtain ⟨row, hrow, hsame⟩ := hc row' hrow'
    obtain ⟨planId, hplan, hkey⟩ := h.entries row hrow
    exact ⟨planId, hsame.plan.trans hplan, hsame.key.trans hkey⟩
  single row' hrow' other' hother' howner hplan := by
    obtain ⟨row, hrow, hsame⟩ := hc row' hrow'
    obtain ⟨other, hother, hsame'⟩ := hc other' hother'
    rw [hsame.owner, hsame'.owner] at howner
    rw [hsame.plan, hsame'.plan] at hplan
    rw [hsame.id, hsame'.id]
    exact h.single row hrow other hother howner hplan

theorem ContinuesFrom.entryOpen (hc : ContinuesFrom db db') {ownerId planId : Uuid}
    (h : db'.EntryOpen ownerId planId) : db.EntryOpen ownerId planId := by
  obtain ⟨row', hrow', howner, hplan, haction, hopen⟩ := h
  obtain ⟨row, hrow, hsame⟩ := hc row' hrow'
  exact ⟨row, hrow, hsame.owner ▸ howner, hsame.plan ▸ hplan, hsame.action ▸ haction, hsame.wasOpen hopen⟩

/-- The first command of a plan. -/
theorem EntryCommands.add (h : EntryCommands db) (env : Env) {ownerId planId : Uuid}
    {command : ExecutionCommand} (hplan : command.tradePlanId = some planId)
    (hkey : command.idempotencyKey = entryKey planId) (hid : ∀ row ∈ db.commands, row.id ≠ command.id)
    (hnone : keyedCommand? db ownerId command.idempotencyKey = none) :
    EntryCommands (db.addCommand env ownerId command) := by
  -- another command of the plan would have its key
  have hfirst : ∀ row ∈ db.commands, row.ownerId = ownerId → row.data.command.tradePlanId ≠ some planId := by
    intro row hrow howner hsame
    obtain ⟨id, hrowPlan, hrowKey⟩ := h.entries row hrow
    rw [hrowPlan] at hsame
    cases hsame
    have hmem : row ∈ db.commandsWith ownerId command.idempotencyKey :=
      mem_commandsWith.2 ⟨hrow, howner, hrowKey.trans hkey.symm⟩
    rw [keyedCommand?_eq_none.1 hnone] at hmem
    cases hmem
  refine ⟨keyed_addCommand h.keyed env ownerId hid, ?_, ?_⟩
  · intro row hrow
    rcases List.mem_append.1 hrow with hold | hnew
    · exact h.entries row hold
    · rw [List.mem_singleton.1 hnew]
      exact ⟨planId, hplan, hkey⟩
  · intro row hrow other hother howner hsame
    rcases List.mem_append.1 hrow with hold | hnew <;> rcases List.mem_append.1 hother with hold' | hnew'
    · exact h.single row hold other hold' howner hsame
    · rw [List.mem_singleton.1 hnew'] at howner hsame
      exact absurd (hsame.trans hplan) (hfirst row hold howner)
    · rw [List.mem_singleton.1 hnew] at howner hsame
      exact absurd (hsame.symm.trans hplan) (hfirst other hold' howner.symm)
    · rw [List.mem_singleton.1 hnew, List.mem_singleton.1 hnew']

end

/-! ## The invariant -/

/-- An open entry whose position was never shown is reserved, and a plan whose position was shown is not; the
snapshot that is selected is the last one stored. -/
structure EntriesInv (origin : PositionOrigin) (db : Database) : Prop
    extends PlansReserved db, EntryCommands db where
  backed : ∀ ownerId planId, db.EntryOpen ownerId planId → ¬db.PlanShown ownerId planId origin →
    ∃ r ∈ db.reservationsOf ownerId planId, r.state.isActive = true
  settled : ∀ ownerId planId, db.PlanShown ownerId planId origin →
    ∀ r ∈ db.reservationsOf ownerId planId, r.state.isActive = false
  selected : ∀ ownerId accountId,
    latestRow ownerId accountId db.brokerSnapshots = db.lastSnapshot ownerId accountId

section
variable {origin : PositionOrigin} {db : Database}

/-- The amounts that an account counts, plan by plan. -/
theorem EntriesInv.activeAmounts_sum (h : EntriesInv origin db) {ownerId accountId : Uuid} {plans : List Uuid}
    (hnodup : plans.Nodup)
    (hplans : ∀ planId, db.activeOf ownerId accountId planId ≠ [] → planId ∈ plans) :
    (db.activeAmounts ownerId accountId).sum =
      (plans.map fun planId => ((db.activeOf ownerId accountId planId).map (·.amount)).sum).sum := by
  let active := db.reservations.filter fun r =>
    r.ownerId = some ownerId ∧ r.accountId = accountId ∧ r.state.isActive = true
  have hof : ∀ planId, (active.filter fun r => r.tradePlanId = some planId) =
      db.activeOf ownerId accountId planId := fun planId => by
    show (List.filter _ (List.filter _ _)) = List.filter _ (List.filter _ _)
    rw [List.filter_filter, List.filter_filter]
    refine List.filter_congr fun r _ => ?_
    simp only [Bool.decide_and]
    cases decide (r.tradePlanId = some planId) <;> cases decide (r.ownerId = some ownerId) <;> simp
  have hnone : (active.filter fun r => r.tradePlanId = none) = [] := by
    refine List.filter_eq_nil_iff.2 fun r hr => ?_
    obtain ⟨_, planId, _, hplan⟩ := h.owned r (List.mem_filter.1 hr).1
    simp [hplan]
  have hsum := sum_by_key Reservation.tradePlanId (·.amount) active hnodup fun r hr planId hplan => by
    refine hplans planId (List.ne_nil_of_mem (a := r) ?_)
    rw [← hof]
    exact List.mem_filter.2 ⟨hr, decide_eq_true hplan⟩
  rw [hnone, List.map_nil, List.sum_nil, zero_add] at hsum
  simp only [hof] at hsum
  exact hsum

theorem lastSnapshot_mem {ownerId accountId : Uuid} {last : SnapshotRow}
    (h : db.lastSnapshot ownerId accountId = some last) :
    last ∈ db.brokerSnapshots ∧ last.ownerId = ownerId := by
  have hmem := List.mem_filter.1 (List.mem_of_getLast? h)
  refine ⟨hmem.1, ?_⟩
  have hof := hmem.2
  simp only [ofAccount, Bool.and_eq_true, decide_eq_true_eq] at hof
  exact hof.1.1

/-- The losses and the active amounts of a plan add up to its exposure. -/
theorem EntriesInv.exposure_eq (h : EntriesInv origin db) {ownerId accountId : Uuid} {last : SnapshotRow}
    (hlast : db.lastSnapshot ownerId accountId = some last) (planId : Uuid) :
    db.exposure ownerId accountId planId origin last.data =
      ((last.data.positions.filter fun p => last.data.planOf origin p = some planId).map
        BrokerPosition.counted).sum +
      ((db.activeOf ownerId accountId planId).map (·.amount)).sum := by
  obtain ⟨hmem, howner⟩ := lastSnapshot_mem hlast
  have hreleased (hshown : db.PlanShown ownerId planId origin) :
      db.activeOf ownerId accountId planId = [] := by
    refine List.filter_eq_nil_iff.2 fun r hr => ?_
    simp [h.settled ownerId planId hshown r hr]
  unfold Database.exposure
  by_cases hshows : last.data.ShowsPlan origin planId
  · rw [if_pos hshows, hreleased ⟨last, hmem, howner, hshows⟩, List.map_nil, List.sum_nil, add_zero]
  · have hnone : (last.data.positions.filter fun p => last.data.planOf origin p = some planId) = [] := by
      refine List.filter_eq_nil_iff.2 fun p hp hplan => ?_
      exact hshows ⟨p, hp, of_decide_eq_true hplan⟩
    rw [if_neg hshows, hnone, List.map_nil, List.sum_nil, zero_add]
    by_cases hshown : db.PlanShown ownerId planId origin
    · rw [if_pos hshown, hreleased hshown, List.map_nil, List.sum_nil]
    · rw [if_neg hshown]

theorem EntriesInv.countedOnce (h : EntriesInv origin db) : CountedOnce origin db where
  existing {now ownerId accountId candidate context} hcontext := by
    obtain ⟨account, broker, hauthority, rfl⟩ := context_shows hcontext
    obtain ⟨last, hlatest, rfl⟩ := authority_iff.1 hauthority
    have hlast : db.lastSnapshot ownerId accountId = some last := by
      rw [← h.selected]
      exact hlatest
    refine ⟨last, hlast, fun risk hrisk plans hnodup hplans => ?_⟩
    obtain ⟨reserved, hreserved, hsum⟩ := ok_of_bind hrisk
    cases hsum
    have hpositions : reserved = (last.data.positions.map BrokerPosition.counted).sum := by
      rw [(reservedRisk_ok_iff.1 hreserved).2]
      show (List.map _ (List.map _ _)).sum = _
      rw [List.map_map]
      rfl
    have hactive : (db.activeAmounts ownerId accountId).sum = _ :=
      h.activeAmounts_sum hnodup fun planId hne => hplans planId (.inr hne)
    have hlosses := sum_by_key (last.data.planOf origin) BrokerPosition.counted last.data.positions hnodup
      fun p hp planId hplan => hplans planId (.inl ⟨p, hp, hplan⟩)
    show reserved + (db.activeAmounts ownerId accountId).sum = _
    rw [hpositions, hlosses, hactive, add_assoc, ← List.sum_map_add]
    simp only [h.exposure_eq hlast]
  open_reserved row hrow hopen hshown := by
    obtain ⟨r, hr, hactive⟩ := h.backed row.ownerId row.id hopen hshown
    have hone : db.reservationsOf row.ownerId row.id = [r] := by
      obtain ⟨only, honly⟩ := List.length_eq_one_iff.1
        (le_antisymm (h.once row.ownerId row.id) (List.length_pos_of_mem hr))
      rw [honly] at hr ⊢
      rw [List.mem_singleton.1 hr]
    refine ⟨r, ?_⟩
    rw [Database.activeOf, hone, List.filter_cons_of_pos (by simp [h.account row hrow r hr, hactive])]
    rfl

end

/-! ## What keeps the invariant -/

section
variable {origin : PositionOrigin} {db db' : Database}

theorem EntryCommands.congr (h : EntryCommands db) (hcommands : db'.commands = db.commands) :
    EntryCommands db' :=
  h.continued ((keepsRows_of_commands hcommands).keyed h.keyed) (.of_commands hcommands)

namespace EntriesInv

/-- Only the plans, the reservations, the commands and the snapshots count. -/
theorem congr (h : EntriesInv origin db) (hplans : db'.tradePlans = db.tradePlans)
    (hreservations : db'.reservations = db.reservations) (hcommands : db'.commands = db.commands)
    (hsnapshots : db'.brokerSnapshots = db.brokerSnapshots) : EntriesInv origin db' := by
  refine ⟨h.toPlansReserved.congr hplans hreservations, h.toEntryCommands.congr hcommands, ?_, ?_, ?_⟩
  · unfold Database.EntryOpen Database.PlanShown Database.reservationsOf
    rw [hreservations, hcommands, hsnapshots]
    exact h.backed
  · unfold Database.PlanShown Database.reservationsOf
    rw [hreservations, hsnapshots]
    exact h.settled
  · unfold Database.lastSnapshot
    rw [hsnapshots]
    exact h.selected

theorem continued (h : EntriesInv origin db) (hc : ContinuesFrom db db') (hkeyed : Keyed db')
    (hplans : db'.tradePlans = db.tradePlans) (hreservations : db'.reservations = db.reservations)
    (hsnapshots : db'.brokerSnapshots = db.brokerSnapshots) : EntriesInv origin db' := by
  refine ⟨h.toPlansReserved.congr hplans hreservations, h.toEntryCommands.continued hkeyed hc, ?_, ?_, ?_⟩
  · intro ownerId planId hopen
    unfold Database.PlanShown Database.reservationsOf
    rw [hreservations, hsnapshots]
    exact h.backed ownerId planId (hc.entryOpen hopen)
  · unfold Database.PlanShown Database.reservationsOf
    rw [hreservations, hsnapshots]
    exact h.settled
  · unfold Database.lastSnapshot
    rw [hsnapshots]
    exact h.selected

theorem updatePlan (h : EntriesInv origin db) {row : Row Uuid TradePlanState TradePlan}
    (hrow : row ∈ db.tradePlans) {plan : TradePlan} (hid : plan.id = row.data.id)
    (howner : plan.ownerId = row.data.ownerId) (haccount : plan.accountId = row.data.accountId)
    (hnamed : ∀ id ∈ plan.reservationId, ∃ r ∈ db.reservationsOf row.ownerId row.id, r.id = id)
    (eventType : String) (now : Time) : EntriesInv origin (db.updatePlan row plan eventType now) := by
  obtain ⟨hdataId, hdataOwner⟩ := h.plans.same row hrow
  exact ⟨h.toPlansReserved.updatePlan hrow (hid.trans hdataId) (howner.trans hdataOwner) haccount hnamed
    eventType now, h.toEntryCommands.congr rfl, h.backed, h.settled, h.selected⟩

/-- A transition to an active state, or of a reservation whose plan has no open entry. -/
theorem move (h : EntriesInv origin db) (now : Time) {id owner : Uuid} {target : ReservationState}
    {fields : TransitionFields} (hamount : fields.amount = none) {found : Reservation}
    (hfound : db.reservation? id owner = some found) (hactive : found.state.isActive = true)
    (htarget : target.isActive = true ∨
      ∀ ownerId planId, found ∈ db.reservationsOf ownerId planId → ¬db.EntryOpen ownerId planId) :
    EntriesInv origin (db.moveReservation now id owner target fields) := by
  refine ⟨h.toPlansReserved.move now id owner target hamount, h.toEntryCommands.congr rfl, ?_, ?_, h.selected⟩
  · intro ownerId planId hopen hshown
    obtain ⟨r, hr, hreserved⟩ := h.backed ownerId planId hopen hshown
    have hkept : target.isActive = true ∨ ¬(r.id = id ∧ r.ownerId = some owner) := by
      refine htarget.imp_right fun hclosed hmoved => ?_
      rw [ledger_found h.ledger hfound (mem_reservationsOf.1 hr).1 hmoved.1] at hr
      exact hclosed ownerId planId hr hopen
    obtain ⟨r', hr', _, hactive'⟩ := active_move hr hreserved now fields hkept
    exact ⟨r', hr', hactive'⟩
  · intro ownerId planId hshown
    exact h.toPlansReserved.inactive_move (h.settled ownerId planId hshown) now fields hfound hactive

/-- A sweep that takes no reservation of an open entry whose position was never shown. -/
theorem sweep (h : EntriesInv origin db) {now : Time} {accountId : Option Uuid}
    (hsweeps : ∀ r ∈ db.reservations, Database.sweeps now accountId r = true →
      ∀ owner ∈ r.ownerId, ∀ reserved ∈ r.tradePlanId, db.EntryOpen owner reserved →
        db.PlanShown owner reserved origin) : EntriesInv origin (db.sweep now accountId) := by
  have hof := (lapsed_keeps now accountId).reservationsOf (sweep_rows db now accountId)
  refine ⟨h.toPlansReserved.sweep now accountId, h.toEntryCommands.congr rfl, ?_, ?_, h.selected⟩
  · intro ownerId planId hopen hshown
    obtain ⟨r, hr, hreserved⟩ := h.backed ownerId planId hopen hshown
    obtain ⟨hmem, howner, hplan⟩ := mem_reservationsOf.1 hr
    have hkept : r.lapsed now accountId = r :=
      if_neg fun hswept => hshown (hsweeps r hmem hswept ownerId howner planId hplan hopen)
    rw [hof]
    exact ⟨r, List.mem_map.2 ⟨r, hr, hkept⟩, hreserved⟩
  · intro ownerId planId hshown
    rw [hof]
    intro r' hr'
    obtain ⟨r, hr, rfl⟩ := List.mem_map.1 hr'
    unfold Reservation.lapsed
    split
    · rfl
    · exact h.settled ownerId planId hshown r hr

/-- The first reservation of a plan whose position was never shown. -/
theorem add (h : EntriesInv origin db) {r : Reservation} {ownerId planId : Uuid}
    (hid : ∀ row ∈ db.reservations, row.id ≠ r.id) (hamount : 0 ≤ r.amount)
    (howner : r.ownerId = some ownerId) (hplan : r.tradePlanId = some planId)
    (hnone : db.reservationsOf ownerId planId = [])
    (haccount : ∀ row ∈ db.tradePlans, row.ownerId = ownerId → row.id = planId →
      r.accountId = row.data.accountId) (hunshown : ¬db.PlanShown ownerId planId origin) :
    EntriesInv origin (db.addReservation r) := by
  refine ⟨h.toPlansReserved.add hid hamount howner hplan hnone haccount, h.toEntryCommands.congr rfl, ?_, ?_,
    h.selected⟩
  · intro owner reserved hopen hshown
    obtain ⟨backing, hbacking, hactive⟩ := h.backed owner reserved hopen hshown
    obtain ⟨hmem, hkeys⟩ := mem_reservationsOf.1 hbacking
    exact ⟨backing, mem_reservationsOf.2 ⟨List.mem_append_left _ hmem, hkeys⟩, hactive⟩
  · intro owner reserved hshown row hrow
    obtain ⟨hmem, hrowOwner, hrowPlan⟩ := mem_reservationsOf.1 hrow
    rcases List.mem_append.1 hmem with hold | hnew
    · exact h.settled owner reserved hshown row (mem_reservationsOf.2 ⟨hold, hrowOwner, hrowPlan⟩)
    · rw [List.mem_singleton.1 hnew] at hrowOwner hrowPlan
      cases howner.symm.trans hrowOwner
      cases hplan.symm.trans hrowPlan
      exact absurd hshown hunshown

/-- `reserve` returns a reservation of the plan. -/
theorem reserve (h : EntriesInv origin db) {env : Env} {ownerId accountId planId : Uuid}
    {amount available : ℚ} {r : Reservation}
    (hreserve : Matrades.reserve env ownerId accountId planId amount available db = ⟨.ok r, db', []⟩)
    (haccount : ∀ row ∈ db.tradePlans, row.ownerId = ownerId → row.id = planId →
      accountId = row.data.accountId)
    (hnew : db.planReservation? ownerId planId = none →
      (∀ r ∈ db.reservations, r.id ≠ env.newId db.reservations.length) ∧
      ¬db.PlanShown ownerId planId origin ∧
      ∀ r ∈ db.reservations, Database.sweeps env.now (some accountId) r = true →
        ∀ owner ∈ r.ownerId, ∀ reserved ∈ r.tradePlanId, db.EntryOpen owner reserved →
          db.PlanShown owner reserved origin) :
    EntriesInv origin db' ∧ r ∈ db'.reservationsOf ownerId planId := by
  rcases reserve_ok hreserve with ⟨hfound, _, rfl⟩ | ⟨hnone, hpos, rfl, rfl⟩
  · unfold Database.planReservation? at hfound
    have hholds := List.find?_some hfound
    exact ⟨h, List.mem_filter.2 ⟨List.mem_of_find?_eq_some hfound, hholds⟩⟩
  · obtain ⟨hfresh, hunshown, hsweeps⟩ := hnew hnone
    have hswept : EntriesInv origin (db.sweep env.now (some accountId)) := h.sweep hsweeps
    have hlength : (db.sweep env.now (some accountId)).reservations.length = db.reservations.length :=
      List.length_map _
    have hempty : (db.sweep env.now (some accountId)).reservationsOf ownerId planId = [] := by
      rw [(lapsed_keeps env.now (some accountId)).reservationsOf (sweep_rows db _ _), List.map_eq_nil_iff]
      exact List.filter_eq_nil_iff.2 fun r hr => List.find?_eq_none.1 hnone r hr
    refine ⟨hswept.add (mem_sweep_id ?_) hpos.le rfl rfl hempty haccount hunshown, ?_⟩
    · show ∀ r ∈ db.reservations, r.id ≠ env.newId (db.sweep env.now (some accountId)).reservations.length
      rw [hlength]
      exact hfresh
    · exact mem_reservationsOf.2 ⟨List.mem_append_right _ (List.mem_singleton_self _), rfl, rfl⟩

/-- A snapshot stored later than the selected one, which shows no position of a plan that is reserved. -/
theorem addSnapshot (h : EntriesInv origin db) {env : Env} {ownerId : Uuid} {snapshot : BrokerSnapshot}
    (hlater : ∀ last ∈ latestRow ownerId snapshot.accountId db.brokerSnapshots, last.updatedAt < env.now)
    (hreleased : ∀ p ∈ snapshot.positions, ∀ planId ∈ snapshot.planOf origin p,
      ∀ r ∈ db.reservationsOf ownerId planId, r.state.isActive = false) :
    EntriesInv origin (db.addSnapshot env ownerId snapshot) := by
  refine ⟨h.toPlansReserved.congr rfl rfl, h.toEntryCommands.congr rfl, ?_, ?_, ?_⟩
  · intro owner planId hopen hshown
    refine h.backed owner planId hopen fun ⟨row, hrow, hrest⟩ => hshown ?_
    exact ⟨row, List.mem_append_left _ hrow, hrest⟩
  · intro owner planId ⟨row, hrow, howner, p, hp, hplan⟩
    rcases List.mem_append.1 hrow with hold | hnew
    · exact h.settled owner planId ⟨row, hold, howner, p, hp, hplan⟩
    · rw [List.mem_singleton.1 hnew] at howner hp hplan
      cases howner
      exact hreleased p hp planId hplan
  · intro owner accountId
    let row : SnapshotRow := newRow env db.brokerSnapshots ownerId .active snapshot
    show latestRow owner accountId (db.brokerSnapshots ++ [row]) =
      (List.filter (ofAccount owner accountId) (db.brokerSnapshots ++ [row])).getLast?
    cases hof : ofAccount owner accountId row with
    | false =>
      rw [latestRow_other hof, List.filter_append, List.filter_cons_of_neg (by simp [hof]), List.filter_nil,
        List.append_nil]
      exact h.selected owner accountId
    | true =>
      rw [latestRow_append hof, List.filter_append, List.filter_cons_of_pos hof, List.filter_nil,
        List.getLast?_concat]
      simp only [ofAccount, Bool.and_eq_true, decide_eq_true_eq] at hof
      obtain ⟨⟨howner, _⟩, haccount⟩ := hof
      cases hlast : latestRow owner accountId db.brokerSnapshots with
      | none => rfl
      | some last =>
        cases howner
        cases haccount
        exact congrArg some (if_pos (hlater last hlast))

/-- The command of an entry whose plan is reserved. -/
theorem withCommand (h : EntriesInv origin db) (env : Env) {ownerId planId : Uuid}
    {command : ExecutionCommand} (hstorable : Storable db ownerId command)
    (hplan : command.tradePlanId = some planId) (hkey : command.idempotencyKey = entryKey planId)
    (hbacked : ∃ r ∈ db.reservationsOf ownerId planId, r.state.isActive = true) :
    EntriesInv origin (db.withCommand env ownerId command) := by
  have hplans := withCommand_plans db env ownerId command
  have hreservations := withCommand_reservations db env ownerId command
  have hsnapshots : (db.withCommand env ownerId command).brokerSnapshots = db.brokerSnapshots := by
    unfold Database.withCommand
    split <;> rfl
  rcases withCommand_commands hstorable env with hsame | ⟨hid, hnone, hadded⟩
  · exact h.congr hplans hreservations hsame hsnapshots
  have hcommands : EntryCommands (db.addCommand env ownerId command) :=
    h.toEntryCommands.add env hplan hkey hid hnone
  refine ⟨h.toPlansReserved.congr hplans hreservations, hcommands.congr hadded, ?_, ?_, ?_⟩
  · rintro owner entered ⟨row, hrow, howner, hrowPlan, haction, hopen⟩
    unfold Database.PlanShown Database.reservationsOf
    rw [hreservations, hsnapshots]
    rw [hadded] at hrow
    rcases List.mem_append.1 hrow with hold | hnew
    · exact h.backed owner entered ⟨row, hold, howner, hrowPlan, haction, hopen⟩
    · rw [List.mem_singleton.1 hnew] at howner hrowPlan
      cases howner
      cases hplan.symm.trans hrowPlan
      exact fun _ => hbacked
  · unfold Database.PlanShown Database.reservationsOf
    rw [hreservations, hsnapshots]
    exact h.settled
  · unfold Database.lastSnapshot
    rw [hsnapshots]
    exact h.selected

end EntriesInv

end

/-! ## One step -/

section
variable {origin : PositionOrigin} {db : Database}

/-- An entry is queued. -/
theorem EntriesInv.queued (h : EntriesInv origin db) {env : QueueEnv} {ownerId planId : Uuid}
    {row : Row Uuid TradePlanState TradePlan} (hrow : Table.get? db.tradePlans planId ownerId = some row)
    {plan : TradePlan} (hdecision : decideEntry env db row.data = .ok (.queue plan)) {v : EntryValues}
    (hcomputed : v.Computed env (entryKey row.id) db plan) (hstorable : Storable db plan.ownerId v.command)
    (hsep : ExposureOp.Separate origin db (.enter env ownerId planId)) :
    EntriesInv origin (v.stored env row plan.ownerId db) := by
  obtain ⟨hmem, hid, howner⟩ := Table.get?_spec hrow
  obtain ⟨hdataId, hdataOwner⟩ := h.plans.same row hmem
  have hfrom := decideEntry_from hdecision rfl
  have haccount : plan.accountId = row.data.accountId := by
    rw [hfrom]
  have hplanId : plan.id = planId := by
    rw [hfrom]
    exact hdataId.trans hid
  have hplanOwner : plan.ownerId = ownerId := by
    rw [hfrom]
    exact hdataOwner.trans howner
  subst hplanId hplanOwner
  have hqueues : Queues env (entryKey plan.id) db row.data := ⟨plan, hdecision, v, hid ▸ hcomputed, hstorable⟩
  have hnew := hsep row hrow hqueues
  rw [← haccount] at hnew
  obtain ⟨hreserved, hof⟩ := h.reserve hcomputed.reserved (fun other hother hotherOwner hotherId => by
    rw [Table.row_unique h.plans.unique hother hmem (hotherId.trans hid.symm)]
    exact haccount) hnew
  obtain ⟨found, hfound, hactive⟩ := hcomputed.active
  have hown : v.reservation = found := ledger_found hreserved.ledger hfound (mem_reservationsOf.1 hof).1 rfl
  rw [← hown] at hfound hactive
  let fields : TransitionFields := { commandId := some v.command.id }
  have hpending : ReservationState.commandPending.isActive = true := rfl
  have hnoAmount : fields.amount = none := rfl
  have hmoved := hreserved.move env.now hnoAmount hfound hactive (.inl hpending)
  obtain ⟨r, hr, hrid, hbacking⟩ : ∃ r ∈ (Database.moveReservation { db with reservations := v.reservations }
      env.now v.reservation.id plan.ownerId .commandPending fields).reservationsOf plan.ownerId plan.id,
      r.id = v.reservation.id ∧ r.state.isActive = true :=
    active_move hof hactive env.now fields (.inl hpending)
  have hcommand := authorizedEntryCommand_ok hcomputed.created
  have hplanned : EntriesInv origin (v.planned env row plan.ownerId db) := by
    refine hmoved.updatePlan hmem ?_ ?_ ?_ ?_ _ _
    · rw [hcomputed.queued_eq]
      exact hid.symm.trans hdataId.symm
    · rw [hcomputed.queued_eq]
      exact howner.symm.trans hdataOwner.symm
    · rw [hcomputed.queued_eq]
      exact haccount
    · rw [hcomputed.queued_eq, howner, hid]
      rintro _ ⟨⟩
      exact ⟨r, hr, hrid⟩
  exact hplanned.withCommand env.toEnv hstorable hcommand.planId (hid ▸ hcommand.key) ⟨r, hr, hbacking⟩

theorem EntriesInv.enter (h : EntriesInv origin db) {env : QueueEnv} {ownerId planId : Uuid}
    (hsep : ExposureOp.Separate origin db (.enter env ownerId planId)) :
    EntriesInv origin (queuePlan env ownerId planId db).state := by
  rcases queuePlan_cases env ownerId planId h.plans with ⟨e, hrun⟩ |
    ⟨row, decision, db', result, hrow, hdecision, hstep, hrun⟩
  · rw [hrun]
    exact h
  rw [hrun]
  have hmem := (Table.get?_spec hrow).1
  cases hstep with
  | stopped => exact h
  | blocked plan =>
    have hfrom := decideEntry_from hdecision rfl
    have hsame : plan.blocked.id = row.data.id ∧ plan.blocked.ownerId = row.data.ownerId ∧
        plan.blocked.accountId = row.data.accountId ∧
        plan.blocked.reservationId = row.data.reservationId := by
      rw [hfrom]
      exact ⟨rfl, rfl, rfl, rfl⟩
    refine h.updatePlan hmem hsame.1 hsame.2.1 hsame.2.2.1 ?_ _ _
    rw [hsame.2.2.2]
    exact h.linked row hmem
  | queued plan v hcomputed hstorable => exact h.queued hrow hdecision hcomputed hstorable hsep

theorem continues_settled (hk : Keyed db) {env : TaskEnv} {answer : AdapterAnswer} {ownerId commandId : Uuid}
    {row : Row Uuid CommandState CommandData} {plan : Row Uuid TradePlanState TradePlan}
    {authorization : ExecutionAuthorization} {outcome : ExecutionCommand}
    (hready : Dispatchable env db ownerId commandId row plan authorization)
    (hfinish : finishDispatch (sentCommand env row) answer = .ok outcome) :
    ContinuesFrom db ((db.leaseRow env row).settled env ownerId ⟨leasedRow env row, plan, authorization⟩
      outcome) := by
  have hrow := (Table.get?_spec hready.found).1
  intro row' hrow'
  rcases settled_row hk hrow hrow' with ⟨hold, _⟩ | rfl
  · exact ⟨row', hold, .refl row'⟩
  · have hsame := finishDispatch_same hfinish
    exact ⟨row, hrow, ⟨rfl, rfl, hsame.action, hsame.plan⟩, hsame.key,
      fun _ => isOpen_of_leasable hready.leasable⟩

theorem EntriesInv.dispatch (h : EntriesInv origin db) (env : TaskEnv) (answer : AdapterAnswer)
    (ownerId commandId : Uuid) :
    EntriesInv origin (dispatchTask env answer ownerId commandId db).state := by
  have hkeyed := (keepsRows_dispatch h.keyed env answer ownerId commandId).keyed h.keyed
  rcases dispatchTask_cases env answer ownerId commandId db with hstate |
    ⟨row, plan, authorization, outcome, hready, hfinish, hsettles, hstate⟩
  · rw [hstate]
    exact h
  obtain ⟨hrow, _, howner⟩ := Table.get?_spec hready.found
  obtain ⟨⟨planId, hplanId, hplan⟩, _, _⟩ := dispatchPlan_ok hready.planned
  obtain ⟨hmem, hplanRow, hplanOwner⟩ := Table.get?_spec hplan
  have hc := continues_settled h.keyed hready hfinish
  have hrows := settled_rows (db.leaseRow env row) env ownerId ⟨leasedRow env row, plan, authorization⟩ outcome
  have hplans := (settled_plans (db.leaseRow env row) env ownerId ⟨leasedRow env row, plan, authorization⟩
    outcome).2
  have hsnapshots := settled_snapshots (db.leaseRow env row) env ownerId
    ⟨leasedRow env row, plan, authorization⟩ outcome
  have houtcome : ∀ row' ∈ ((db.leaseRow env row).settled env ownerId
      ⟨leasedRow env row, plan, authorization⟩ outcome).commands,
      (row' ∈ db.commands ∧ row'.id ≠ row.id) ∨ row'.state = outcome.state := fun row' hrow' =>
    (settled_row h.keyed hrow hrow').imp_right (congrArg Row.state)
  rw [hstate] at hkeyed ⊢
  generalize (db.leaseRow env row).settled env ownerId ⟨leasedRow env row, plan, authorization⟩ outcome = db'
    at *
  -- the outcome, then the reservation, then the plan
  have hwritten : EntriesInv origin { db with commands := db'.commands } :=
    h.continued hc ⟨hkeyed.unique, hkeyed.same⟩ rfl rfl rfl
  have hmoved : EntriesInv origin { db with commands := db'.commands, reservations := db'.reservations } := by
    rcases hrows with hsame | ⟨id, hid, move, hmove, hrows⟩
    · exact hwritten.congr rfl hsame rfl rfl
    obtain ⟨hout, hamount⟩ := reservationMove_isSome hmove
    obtain ⟨_, found, hfound, hactive⟩ := hsettles.reserves hout id hid
    refine (hwritten.move env.now hamount hfound hactive ?_).congr rfl hrows rfl rfl
    rcases hout with hrejected | hacknowledged
    · -- a rejected entry is closed, and it is the only one of the plan whose reservation is given back
      right
      intro owner reserved hof ⟨row', hrow', hrowOwner, hrowPlan, _, hopen⟩
      obtain ⟨own, hown, hownId⟩ := h.linked plan hmem id hid
      obtain ⟨hownMem, hownOwner, hownPlan⟩ := mem_reservationsOf.1 hown
      rw [ledger_found h.ledger hfound hownMem hownId] at hownOwner hownPlan
      obtain ⟨_, hfoundOwner, hfoundPlan⟩ := mem_reservationsOf.1 hof
      rcases houtcome row' hrow' with ⟨hold, hne⟩ | hclosed
      · refine hne (h.single row' hold row hrow ?_ ?_)
        · rw [hrowOwner, howner, ← hplanOwner]
          exact Option.some.inj (hfoundOwner.symm.trans hownOwner)
        · rw [hrowPlan, hplanId, ← hfoundPlan, hownPlan, hplanRow]
      · rw [hclosed, hrejected] at hopen
        cases hopen
    · left
      unfold reservationMove at hmove
      rw [hacknowledged] at hmove
      cases hmove
      rfl
  rcases hplans with hplans | ⟨_, hplans⟩
  · exact hmoved.congr hplans rfl rfl hsnapshots
  · let executing : TradePlan :=
      { plan.data with state := .executing, version := plan.data.version + 1 }
    have hnamed : ∀ id ∈ executing.reservationId, ∃ r ∈ db'.reservationsOf plan.ownerId plan.id, r.id = id :=
      hmoved.linked plan hmem
    have hsame : executing.id = plan.data.id := rfl
    have hexecuted := hmoved.updatePlan hmem hsame rfl rfl hnamed "trade_plan.executing" env.now
    exact hexecuted.congr hplans rfl rfl hsnapshots

theorem continues_order {db₀ : Database} (hk : Keyed db₀) (ownerId : Uuid) (snapshot : BrokerSnapshot) :
    CommandOrder (IngestWrite db₀ ownerId snapshot)
      fun db db' => ContinuesFrom db₀ db → ContinuesFrom db₀ db' where
  refl _ := id
  trans h h' hc := h' (h hc)
  frame h hc := by
    unfold ContinuesFrom
    rw [h]
    exact hc
  settle {db row command} eventType now hwrite hc row' hrow' := by
    obtain ⟨q, hq, rfl⟩ := List.mem_map.1 hrow'
    obtain ⟨row₀, hrow₀, hsame⟩ := hc q hq
    split
    · rename_i hid
      obtain rfl : row₀ = row := hk.row_unique hrow₀ hwrite.listed (hsame.id.symm.trans hid)
      refine ⟨row₀, hrow₀, ⟨hsame.id, hsame.owner, ?_, ?_⟩, ?_, fun _ => ?_⟩
      · exact (congrArg ExecutionCommand.action hwrite.edited : command.action = _)
      · exact (congrArg ExecutionCommand.tradePlanId hwrite.edited : command.tradePlanId = _)
      · exact (congrArg ExecutionCommand.idempotencyKey hwrite.edited : command.idempotencyKey = _)
      · have hp := hwrite.pending
        simp only [isPending, Bool.and_eq_true, decide_eq_true_eq] at hp
        exact isOpen_of_pending hp.1
    · exact ⟨row₀, hrow₀, hsame⟩

/-- An ingestion stores the snapshot that it accepts, and no other. -/
theorem ingest_snapshots (env : Env) (ownerId : Uuid) (snapshot : BrokerSnapshot) (db : Database) :
    (ingestBrokerSnapshot env ownerId snapshot db).state.brokerSnapshots = db.brokerSnapshots ∨
      (Accepts env ownerId snapshot db ∧
        (ingestBrokerSnapshot env ownerId snapshot db).state.brokerSnapshots =
          (db.addSnapshot env ownerId snapshot).brokerSnapshots) := by
  cases h : EntryFlow.takesUp db ownerId snapshot with
  | false =>
    rw [(ingest_refused h).1]
    exact .inl rfl
  | true =>
    unfold Accepts
    rw [ingest_taken h]
    cases hresult : (ingestNew env ownerId snapshot db).result with
    | error e =>
      rw [Tx.unitOfWork_error hresult]
      exact .inl rfl
    | ok r =>
      rw [Tx.unitOfWork_ok hresult]
      exact .inr ⟨⟨r, hresult, ingestNew_new hresult⟩, (ingestNew_confined env ownerId snapshot db).1⟩

theorem EntriesInv.ingest (h : EntriesInv origin db) {env : Env} {ownerId : Uuid} {snapshot : BrokerSnapshot}
    (hsep : ExposureOp.Separate origin db (.ingest env ownerId snapshot)) :
    EntriesInv origin (ingestBrokerSnapshot env ownerId snapshot db).state := by
  have hsame := ingest_sameEntries env ownerId snapshot db
  have hkeyed := (ingest_within (keepsRows_order h.keyed ownerId snapshot) env).1.keyed h.keyed
  have hc := (ingest_within (continues_order h.keyed ownerId snapshot) env).1 (.of_commands rfl)
  have hsettled : EntriesInv origin
      { db with commands := (ingestBrokerSnapshot env ownerId snapshot db).state.commands } :=
    h.continued hc ⟨hkeyed.unique, hkeyed.same⟩ rfl rfl rfl
  rcases ingest_snapshots env ownerId snapshot db with hsnapshots | ⟨haccepts, hsnapshots⟩
  · exact hsettled.congr hsame.plans hsame.reservations rfl hsnapshots
  · obtain ⟨hlater, hreleased⟩ := hsep haccepts
    exact (hsettled.addSnapshot hlater hreleased).congr hsame.plans hsame.reservations rfl hsnapshots

/-- The step lemma. -/
theorem EntriesInv.step (h : EntriesInv origin db) {op : ExposureOp} (hsep : op.Separate origin db) :
    EntriesInv origin (op.step db) := by
  cases op with
  | enter env ownerId planId => exact h.enter hsep
  | dispatch env answer ownerId commandId => exact h.dispatch env answer ownerId commandId
  | ingest env ownerId snapshot => exact h.ingest hsep

/-- Plans, but no command, no reservation and no snapshot. -/
structure Unentered (db : Database) : Prop where
  plans : PlansKeyed db
  unreserved : ∀ row ∈ db.tradePlans, row.data.reservationId = none
  commands : db.commands = []
  reservations : db.reservations = []
  snapshots : db.brokerSnapshots = []

theorem Unentered.inv (h : Unentered db) (origin : PositionOrigin) : EntriesInv origin db := by
  have hnone : ∀ ownerId planId, db.reservationsOf ownerId planId = [] := by
    intro ownerId planId
    rw [Database.reservationsOf, h.reservations, List.filter_nil]
  have hnoRow : ∀ r, r ∉ db.reservations := by
    intro r hr
    rw [h.reservations] at hr
    cases hr
  have hnoCommand : ∀ c, c ∉ db.commands := by
    intro c hc
    rw [h.commands] at hc
    cases hc
  have hreserved : PlansReserved db := by
    refine ⟨⟨?_, fun r hr => absurd hr (hnoRow r)⟩, h.plans, fun r hr => absurd hr (hnoRow r),
      fun ownerId planId => ?_, fun row hrow id hid => ?_, fun row hrow r hr => ?_⟩
    · rw [h.reservations]
      exact List.nodup_nil
    · rw [hnone]
      exact Nat.zero_le 1
    · rw [h.unreserved row hrow] at hid
      cases hid
    · exact absurd (mem_reservationsOf.1 hr).1 (hnoRow r)
  have hkeyed : Keyed db := by
    refine ⟨?_, fun c hc => absurd hc (hnoCommand c)⟩
    rw [h.commands]
    exact List.nodup_nil
  have hcommands : EntryCommands db :=
    ⟨hkeyed, fun c hc => absurd hc (hnoCommand c), fun c hc => absurd hc (hnoCommand c)⟩
  refine ⟨hreserved, hcommands, ?_, ?_, ?_⟩
  · intro ownerId planId ⟨row, hrow, _⟩
    exact absurd hrow (hnoCommand row)
  · intro ownerId planId ⟨row, hrow, _⟩
    rw [h.snapshots] at hrow
    cases hrow
  · intro ownerId accountId
    unfold Database.lastSnapshot
    rw [h.snapshots]
    rfl

/-- **Every exposure is counted once in every run in which accepted snapshots show no position of a plan that
is still reserved, and sweeps take no reservation of an entry that is still open.** -/
theorem exposure_counted_once (origin : PositionOrigin) (hstart : Unentered db) {ops : List ExposureOp}
    (hsep : Along ExposureOp.step (ExposureOp.Separate origin) db ops) :
    States ExposureOp.step (CountedOnce origin) db ops :=
  (states_of_inv (fun _ _ h hsep => h.step hsep) (hstart.inv origin) hsep).mono fun _ h => h.countedOnce

end

/-! ## An entry of one lot -/

/-- A ready plan, and no snapshot yet. -/
def plannedDatabase : Database :=
  { entryDatabase 1 with
    brokerSnapshots := []
    connections := lotEntryDatabase.connections
    credentials := lotEntryDatabase.credentials }

theorem one_tenth_nonneg : ∀ loss ∈ some (1 / 10 : ℚ), 0 ≤ loss := by
  intro loss hloss
  rw [← Option.some.inj hloss]
  norm_num

/-- The position that the entry opens, at the plan's risk. -/
def entryPosition : BrokerPosition :=
  { euroPosition with lossToStopAccountCurrency := some (1 / 10), loss_nonneg := one_tenth_nonneg }

def entryOrigin : PositionOrigin := fun _ positionId =>
  if positionId = "7" then some (.ofNat 20) else none

def entryOrder (filled : ℚ) : BrokerOrder := { lotOrder filled with commandId := some (.ofNat 31) }

/-- The snapshot with the number, taken and stored in its second. -/
def ingestAt (sequence : Nat) (book : List BrokerPosition) (orders : List BrokerOrder) : ExposureOp :=
  let now := (100 + sequence) * second
  .ingest ⟨now, .ofNat⟩ (.ofNat 9)
    { bookSnapshot book with messageId := .ofNat (60 + sequence), sequence, observedAt := now, orders }

/-- The plan is queued, and its command acknowledged. -/
def enteredThen (ops : List ExposureOp) : List ExposureOp :=
  ingestAt 1 [] [] :: .enter firstEntry (.ofNat 9) (.ofNat 20) ::
    .dispatch lotEnv (.responds {}) (.ofNat 9) (.ofNat 31) :: ops

/-- The order is working, is filled, and its position is closed again. -/
def workingRun : List ExposureOp := enteredThen [ingestAt 20 [] [entryOrder 0]]

def filledRun : List ExposureOp := enteredThen [ingestAt 20 [entryPosition] [entryOrder 1]]

def closedRun : List ExposureOp := filledRun ++ [ingestAt 21 [] []]

/-- The existing risk after the run. -/
def riskAfter (ops : List ExposureOp) : Option ℚ :=
  (authoritativeRiskContext (122 * second) (run ExposureOp.step plannedDatabase ops) (.ofNat 9) (.ofNat 1)
    (pretradeCandidate 1 lotSize_pos)).toOption.bind fun context => (existingRisk context).toOption

/-- Where all reservations are the plan's, its exposure and the other positions are the existing risk. -/
theorem CountedOnce.riskAfter {ops : List ExposureOp}
    (h : CountedOnce entryOrigin (run ExposureOp.step plannedDatabase ops))
    (hrows : ∀ r ∈ (run ExposureOp.step plannedDatabase ops).reservations,
      r.tradePlanId = some (.ofNat 20)) :
    ∀ risk ∈ riskAfter ops, ((run ExposureOp.step plannedDatabase ops).lastSnapshot (.ofNat 9)
      (.ofNat 1)).map (fun last => ((last.data.positions.filter fun p =>
          last.data.planOf entryOrigin p = none).map BrokerPosition.counted).sum +
        (run ExposureOp.step plannedDatabase ops).exposure (.ofNat 9) (.ofNat 1) (.ofNat 20) entryOrigin
          last.data) = some risk := by
  intro risk hrisk
  obtain ⟨context, hcontext, hexisting⟩ := Option.bind_eq_some_iff.1 hrisk
  obtain ⟨last, hlast, hcounted⟩ := h.existing (toOption_eq_some.1 hcontext)
  have hsum := hcounted risk (toOption_eq_some.1 hexisting) [.ofNat 20] (List.nodup_singleton _) ?_
  · rw [hlast, Option.map_some, hsum, List.map_singleton, List.sum_singleton]
  · intro planId hplans
    apply List.mem_singleton.2
    rcases hplans with ⟨p, _, hplan⟩ | hactive
    · unfold BrokerSnapshot.planOf entryOrigin at hplan
      split at hplan
      · exact (Option.some.inj hplan).symm
      · cases hplan
    · obtain ⟨r, hr⟩ := List.exists_mem_of_ne_nil _ hactive
      obtain ⟨hmem, _, hplan⟩ := mem_reservationsOf.1 (List.mem_filter.1 hr).1
      exact Option.some.inj (hplan.symm.trans (hrows r hmem))

/-- **A filled entry is counted twice**: its position is counted, and its reservation too. And when the
position is closed, the reservation still is. -/
theorem filled_entry_counted_twice :
    riskAfter filledRun = some (1 / 5) ∧ riskAfter closedRun = some (1 / 10) ∧
      ¬CountedOnce entryOrigin (run ExposureOp.step plannedDatabase filledRun) ∧
      ¬States ExposureOp.step (CountedOnce entryOrigin) plannedDatabase closedRun := by
  have hfilled : riskAfter filledRun = some (1 / 5) := by decide +kernel
  have hclosed : riskAfter closedRun = some (1 / 10) := by decide +kernel
  refine ⟨hfilled, hclosed, fun h => ?_, fun h => ?_⟩
  · have hcounted := h.riskAfter (by decide +kernel) _ hfilled
    revert hcounted
    decide +kernel
  · have hcounted := h.last.riskAfter (by decide +kernel) _ hclosed
    revert hcounted
    decide +kernel

theorem planned_unentered : Unentered plannedDatabase where
  plans := (entryDatabase_keyed 1).of_plans rfl
  unreserved := by decide
  commands := rfl
  reservations := rfl
  snapshots := rfl

/-- A working order is counted once, with what is reserved for it. -/
theorem exposure_counted_once_working : riskAfter workingRun = some (1 / 10) ∧
    States ExposureOp.step (CountedOnce entryOrigin) plannedDatabase workingRun := by
  refine ⟨by decide +kernel, exposure_counted_once entryOrigin planned_unentered ⟨?_, ?_, trivial, ?_, trivial⟩⟩
  · exact fun _ => by decide +kernel
  · intro plan _ _ _
    have hempty : (ExposureOp.step plannedDatabase (ingestAt 1 [] [])).reservations.length = 0 := by
      decide +kernel
    have hnone : ∀ r, r ∉ (ExposureOp.step plannedDatabase (ingestAt 1 [] [])).reservations := by
      intro r hr
      rw [List.length_eq_zero_iff.1 hempty] at hr
      cases hr
    exact ⟨fun r hr => absurd hr (hnone r), by decide +kernel, fun r hr => absurd hr (hnone r)⟩
  · exact fun _ => by decide +kernel

end Matrades

import Matrades.Worker.Proof.Dispatch

/-!
# Management commands and the entry reservation

One dispatch path serves every action and moves the plan's reservation by the outcome alone. So a
management command leaves the reservation as it was only where nothing is recorded for it: it is not
sent, or the adapter raises, or the recording is rolled back, or it acknowledges a command of a plan
whose reservation is working an order already (`management_keeps_reservation_iff`). A rejected exit
gives the risk of the open position back (`rejected_exit_releases`).
-/

namespace Matrades

open Base

/-- What a reservation claims; its state says whether it is active. -/
def Reservation.claim (r : Reservation) : ReservationState × ℚ := (r.state, r.amount)

/-- The plan's reservation is as it was. -/
def KeepsReservation (db db' : Database) (ownerId : Uuid) (plan : TradePlan) : Prop :=
  ∀ reservationId ∈ plan.reservationId,
    (db'.reservation? reservationId ownerId).map Reservation.claim =
      (db.reservation? reservationId ownerId).map Reservation.claim

/-- A stored command that manages what a plan's entry opened. -/
structure ManagementCommand (db : Database) (ownerId commandId : Uuid)
    (row : Row Uuid CommandState CommandData) (plan : Row Uuid TradePlanState TradePlan) : Prop where
  found : Table.get? db.commands commandId ownerId = some row
  management : row.data.command.action ≠ .placeOrder
  planned : row.data.command.tradePlanId.bind (Table.get? db.tradePlans · ownerId) = some plan

/-- The dispatch records nothing that moves the reservation: where it sends the command and the
recording goes through, the adapter raised, or acknowledged with the order already working. -/
def MovesNothing (env : TaskEnv) (answer : AdapterAnswer) (db : Database) (ownerId commandId : Uuid)
    (row : Row Uuid CommandState CommandData) (plan : Row Uuid TradePlanState TradePlan) : Prop :=
  ∀ authorization, Dispatchable env db ownerId commandId row plan authorization →
    ∀ state ∈ answer.reported, Settles env db ownerId plan.data state →
      ∀ reservationId ∈ plan.data.reservationId, ∀ r ∈ db.reservation? reservationId ownerId,
        state = .outcomeUnknown ∨ (state = .acknowledged ∧ r.state = .orderWorking)

theorem dispatchPlan_found {now : Time} {db : Database} {ownerId : Uuid} {command : ExecutionCommand}
    {plan : Row Uuid TradePlanState TradePlan} {authorization : ExecutionAuthorization}
    (h : dispatchPlan now db ownerId command = .ok (plan, authorization)) :
    command.tradePlanId.bind (Table.get? db.tradePlans · ownerId) = some plan := by
  unfold dispatchPlan at h
  obtain ⟨planId, hid, h⟩ := ok_of_bind h
  obtain ⟨found, hfound, h⟩ := ok_of_bind h
  obtain ⟨granted, _, h⟩ := ok_of_bind h
  obtain ⟨snapshot, _, h⟩ := ok_of_bind h
  obtain ⟨_, _, h⟩ := ok_of_bind h
  cases h
  rw [orError_eq_ok.1 hid]
  exact orError_eq_ok.1 hfound

/-- Only the reservation's part of the recording touches reservations. -/
theorem reservation?_settled (db : Database) (env : TaskEnv) (row : Row Uuid CommandState CommandData)
    (ownerId : Uuid) (ready : Ready) (outcome : ExecutionCommand) (reservationId : Uuid) :
    ((db.leaseRow env row).settled env ownerId ready outcome).reservation? reservationId ownerId =
      (db.settleReserved env ownerId ready.plan.data outcome).reservation? reservationId ownerId := by
  unfold Database.settled Database.settleReserved
  cases ready.plan.data.reservationId <;> cases reservationMove outcome <;> dsimp only <;>
    split <;> rfl

/-- The move of an active reservation keeps its claim only where it is an acknowledgement and the
order is working already. -/
theorem settleReserved_keeps_iff {db : Database} {env : TaskEnv} {ownerId reservationId : Uuid}
    {plan : TradePlan} {outcome : ExecutionCommand} {r : Reservation}
    (hid : plan.reservationId = some reservationId)
    (hr : db.reservation? reservationId ownerId = some r) (hactive : r.state.isActive = true)
    (hreported : outcome.state = .rejected ∨ outcome.state = .acknowledged ∨
      outcome.state = .outcomeUnknown) :
    ((db.settleReserved env ownerId plan outcome).reservation? reservationId ownerId).map
        Reservation.claim = some r.claim ↔
      outcome.state = .outcomeUnknown ∨ (outcome.state = .acknowledged ∧ r.state = .orderWorking) := by
  unfold Database.settleReserved
  rw [hid]
  rcases hreported with hs | hs | hs
  · have hmove : reservationMove outcome =
        some (.released, { reason := some "broker rejected command" }) := by
      simp [reservationMove, hs]
    rw [hmove, reservation?_move, hr]
    simp only [Option.map_some, Option.some.injEq, Reservation.claim, TransitionFields.finish,
      TransitionFields.mark, Prod.mk.injEq, hs]
    constructor
    · rintro ⟨hstate, _⟩
      rw [← hstate] at hactive
      cases hactive
    · rintro (h | ⟨h, _⟩) <;> cases h
  · have hmove : reservationMove outcome =
        some (.orderWorking, { brokerOrderId := outcome.brokerOrderId }) := by
      simp [reservationMove, hs]
    rw [hmove, reservation?_move, hr]
    simp only [Option.map_some, Option.some.injEq, Reservation.claim, TransitionFields.finish,
      TransitionFields.mark, Prod.mk.injEq, hs, Option.getD_none]
    constructor
    · rintro ⟨hstate, _⟩
      exact .inr ⟨trivial, hstate.symm⟩
    · rintro (h | ⟨_, h⟩)
      · cases h
      · exact ⟨h.symm, trivial⟩
  · have hmove : reservationMove outcome = none := by simp [reservationMove, hs]
    rw [hmove]
    simp [hr, hs]

theorem reported_cases {answer : AdapterAnswer} {state : CommandState}
    (h : answer.reported = some state) :
    state = .rejected ∨ state = .acknowledged ∨ state = .outcomeUnknown := by
  cases answer with
  | responds response => cases h; cases response.rejected <;> simp
  | raises exception => cases h; simp
  | dies => cases h

/-- **When a management command leaves the entry's reservation alone.** -/
theorem management_keeps_reservation_iff {env : TaskEnv} {answer : AdapterAnswer} {db : Database}
    {ownerId commandId : Uuid} {row : Row Uuid CommandState CommandData}
    {plan : Row Uuid TradePlanState TradePlan} (h : ManagementCommand db ownerId commandId row plan) :
    KeepsReservation db (dispatchTask env answer ownerId commandId db).state ownerId plan.data ↔
      MovesNothing env answer db ownerId commandId row plan := by
  by_cases hready : ∃ authorization, Dispatchable env db ownerId commandId row plan authorization
  case neg =>
    have hidle : ∀ row plan authorization, ¬Dispatchable env db ownerId commandId row plan
        authorization := by
      intro row' plan' authorization hd
      obtain rfl : row = row' := Option.some.inj (h.found.symm.trans hd.found)
      obtain rfl : plan = plan' :=
        Option.some.inj (h.planned.symm.trans (dispatchPlan_found hd.planned))
      exact hready ⟨authorization, hd⟩
    rw [(dispatchTask_idle answer hidle).2]
    exact ⟨fun _ authorization hd => absurd ⟨authorization, hd⟩ hready, fun _ _ _ => rfl⟩
  obtain ⟨authorization, hd⟩ := hready
  rcases (dispatchTask_sends answer hd).2 with ⟨outcome, hfinish, hsettles, hstate⟩ | ⟨hnot, hstate⟩
  · rw [hstate]
    have hreported := finishDispatch_reported hfinish
    constructor
    · intro hkeeps _ _ state hs _ reservationId hid r hr
      obtain rfl : outcome.state = state := Option.some.inj (hreported.symm.trans hs)
      rcases reported_cases hreported with hout | hout | hout
      case inr.inr => exact .inl hout
      all_goals
        obtain ⟨_, r', hr', hactive⟩ := hsettles.reserves (by simp [hout]) reservationId hid
        obtain rfl : r' = r := Option.some.inj (hr'.symm.trans hr)
        have hkept := hkeeps reservationId hid
        rw [reservation?_settled, hr'] at hkept
        exact (settleReserved_keeps_iff hid hr' hactive (reported_cases hreported)).1 hkept
    · intro hmoves reservationId hid
      rw [reservation?_settled]
      by_cases hout : outcome.state = .outcomeUnknown
      · have hmove : reservationMove outcome = none := by simp [reservationMove, hout]
        simp [Database.settleReserved, hmove]
      · have hmoved : outcome.state = .rejected ∨ outcome.state = .acknowledged := by
          rcases reported_cases hreported with hs | hs | hs
          · exact .inl hs
          · exact .inr hs
          · exact absurd hs hout
        obtain ⟨_, r, hr, hactive⟩ := hsettles.reserves hmoved reservationId hid
        rw [hr]
        exact (settleReserved_keeps_iff hid hr hactive (reported_cases hreported)).2
          (hmoves authorization hd outcome.state hreported hsettles reservationId hid r hr)
  · rw [hstate]
    refine ⟨fun _ _ _ state hs hsettles => absurd hsettles (hnot state hs), fun _ _ _ => rfl⟩

/-! ## A rejected exit -/

/-- A plan that risks 100 for one lot. -/
def lotPlan (state : TradePlanState) (authorization : ExecutionAuthorization) : TradePlan where
  id := .ofNat 20
  ownerId := .ofNat 9
  accountId := .ofNat 1
  state := state
  construction := {
    instrument := "EURUSD", direction := .buy, entry := 11 / 10, stopLoss := 1
    target := 13 / 10, laterTargets := [], approvedSize := 1, quantityUnit := .lots
    assetClass := .forex, instrumentType := .cfd, venueInstrumentId := .ofNat 50
    specificationVersionId := .ofNat 51, entry_pos := by norm_num, stopLoss_pos := by norm_num
    approvedSize_pos := by norm_num }
  strategyVersionId := .ofNat 52
  risk := {
    decision := .pass, approvedSize := 1, reasons := [], limitingConstraints := []
    snapshot := {
      account := {
        accountId := .ofNat 1, startingBalance := 1000, currentBalance := 1000
        currentEquity := 1000, floatingPnl := 0, realizedDailyPnl := 0, observedAt := 0
        source := "MT5_BRIDGE", sourceVersion := "sequence:1", consistentEquity := by norm_num }
      currentDrawdown := 0, dailyDrawdown := 0, maximumAllowedDrawdown := 400
      propFirmDrawdownLimit := none, internalDrawdownLimit := none, remainingDrawdown := 400
      dailyLossUsed := 0, dailyLossRemaining := 400, existingOpenRisk := 0
      existingCorrelatedExposure := [], candidateTradeRisk := 100, portfolioRiskAfterTrade := 100
      remainingTotalLossCapacity := 400, remainingPortfolioRiskCapacity := 400, openTrades := 0
      maxConcurrentTrades := 3, additionalTradeCapacity := 3, constraintVersions := [] } }
  ticket := none
  reservationId := some (.ofNat 100)
  authorization := some authorization
  executionCommandId := none
  expiresAt := 600 * second
  version := 1

def lotReservation (state : ReservationState) : Reservation where
  id := .ofNat 100
  ownerId := some (.ofNat 9)
  accountId := .ofNat 1
  tradePlanId := some (.ofNat 20)
  commandId := some (.ofNat 30)
  brokerOrderId := none
  brokerPositionId := none
  amount := 100
  state := state
  expiresAt := 600 * second
  version := 3
  reason := none
  splitFrom := none
  updatedAt := 0

/-- An account with a fresh snapshot, every permission, a bridge, and one command of the plan. -/
def lotDatabase (plan : TradePlan) (command : ExecutionCommand) (reservation : Reservation) :
    Database :=
  { Database.empty with
    brokerSnapshots := [⟨.ofNat 60, .ofNat 9, .active, 1,
      ⟨.ofNat 61, .ofNat 1, 1, 100 * second, 1000, 1000, 0, some "USD", [], [], []⟩, 0⟩]
    permissionProfiles := [⟨.ofNat 62, .ofNat 9, .active, 1,
      ⟨.ofNat 1, 1, true, true, true, true, true, true⟩, 0⟩]
    connections := [⟨.ofNat 63, .ofNat 9, .active, 1,
      ⟨.mt5Bridge, true, "http://bridge", some (.ofNat 64)⟩, 0⟩]
    credentials := [⟨.ofNat 64, .ofNat 9, .active, 1, "secret", 0⟩]
    tradePlans := [⟨.ofNat 20, .ofNat 9, plan.state, 1, plan, 0⟩]
    commands := [⟨command.id, .ofNat 9, command.state, 1, { command }, 0⟩]
    reservations := [reservation] }

def lotEnv : TaskEnv := { now := 110 * second, workerId := "execution-worker" }

def exitAuthorization : ExecutionAuthorization :=
  ⟨.ofNat 41, .ofNat 1, .fullExit, 1, 0, 0, "d", 150 * second⟩

/-- Close the plan's position. -/
def exitCommand : ExecutionCommand where
  id := .ofNat 31
  accountId := .ofNat 1
  action := .fullExit
  tradePlanId := some (.ofNat 20)
  authorizationId := some (.ofNat 41)
  idempotencyKey := "management:31"
  requestedPostcondition := .ofList [("position_id", .str "7")]
  targetPositionId := some "7"
  state := .queued

def exitDatabase : Database :=
  lotDatabase (lotPlan .active exitAuthorization) exitCommand (lotReservation .openPosition)

def exitRow : Row Uuid CommandState CommandData :=
  ⟨.ofNat 31, .ofNat 9, .queued, 1, { command := exitCommand }, 0⟩

def activePlanRow : Row Uuid TradePlanState TradePlan :=
  ⟨.ofNat 20, .ofNat 9, .active, 1, lotPlan .active exitAuthorization, 0⟩

theorem exitCommand_stored :
    ManagementCommand exitDatabase (.ofNat 9) (.ofNat 31) exitRow activePlanRow :=
  ⟨rfl, nofun, rfl⟩

/-- **A rejected exit releases the open position's risk.** -/
theorem rejected_exit_releases :
    let after := (dispatchTask lotEnv (.responds { rejected := true }) (.ofNat 9) (.ofNat 31)
      exitDatabase).state
    ManagementCommand exitDatabase (.ofNat 9) (.ofNat 31) exitRow activePlanRow ∧
      (exitDatabase.reservation? (.ofNat 100) (.ofNat 9)).map Reservation.claim =
        some (.openPosition, 100) ∧
      (after.reservation? (.ofNat 100) (.ofNat 9)).map Reservation.claim = some (.released, 100) ∧
      ¬KeepsReservation exitDatabase after (.ofNat 9) activePlanRow.data := by
  intro after
  have hbefore : (exitDatabase.reservation? (.ofNat 100) (.ofNat 9)).map Reservation.claim =
      some (.openPosition, 100) := rfl
  have hafter : (after.reservation? (.ofNat 100) (.ofNat 9)).map Reservation.claim =
      some (.released, 100) := by decide +kernel
  refine ⟨exitCommand_stored, hbefore, hafter, fun hkeeps => ?_⟩
  have hsame := hkeeps (.ofNat 100) rfl
  rw [hafter, hbefore] at hsame
  exact absurd hsame (by decide)

/-- A call that times out leaves the reservation alone. -/
theorem timed_out_exit_keeps_reservation :
    KeepsReservation exitDatabase (dispatchTask lotEnv (.raises "ReadTimeout") (.ofNat 9) (.ofNat 31)
      exitDatabase).state (.ofNat 9) activePlanRow.data := by
  refine (management_keeps_reservation_iff exitCommand_stored).2 ?_
  intro _ _ state hs _ _ _ _ _
  exact .inl (Option.some.inj hs).symm

end Matrades

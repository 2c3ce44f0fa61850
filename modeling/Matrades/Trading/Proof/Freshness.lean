import Matrades.Risk.Authority
import Matrades.Trading.Coordinator
import Matrades.Worker.Proof.Dispatch

/-!
# How fresh a broker snapshot is when it decides

A risk context, an entry, a management command and a dispatch all read the account's last updated
snapshot and pass it to `validate_snapshot`, which bounds its age from above only. A snapshot that is
dated after the clock has no age, and passes until its own time has come and half a minute more. So
the snapshot a decision uses lies within the last half minute exactly if it is not dated in the
future (`fresh_iff`).
-/

namespace Matrades

open Base

/-- The account's snapshot that every decision reads: the last updated one. -/
def Database.Authority (db : Database) (ownerId accountId : Uuid) (snapshot : BrokerSnapshot) : Prop :=
  (accountSnapshots db ownerId accountId).head?.map (·.data) = some snapshot

/-- The points at which a snapshot is taken for the present state of an account. -/
inductive DecisionPoint
  | riskContext (db : Database) (ownerId accountId : Uuid) (candidate : CandidateTrade)
  | entry (env : QueueEnv) (db : Database) (plan : TradePlan) (idempotencyKey : Option String)
  | management (env : QueueEnv) (db : Database) (ownerId : Uuid) (plan : TradePlan)
      (request : ManagementRequest)
  | dispatch (env : TaskEnv) (db : Database) (answer : AdapterAnswer) (ownerId commandId : Uuid)

/-- At the time `now` the decision is made, and the snapshot is the one it read: the context is built,
a command is authorized and stored, the adapter is called. -/
def DecisionPoint.Accepts (now : Time) (snapshot : BrokerSnapshot) : DecisionPoint → Prop
  | riskContext db ownerId accountId candidate =>
    db.Authority ownerId accountId snapshot ∧
      ∃ context, authoritativeRiskContext now db ownerId accountId candidate = .ok context
  | entry env db plan idempotencyKey =>
    env.now = now ∧ db.Authority plan.ownerId plan.accountId snapshot ∧
      ∃ row command, (authorizeAndQueueEntry env plan idempotencyKey db).result =
        .ok (row, some command)
  | management env db ownerId plan request =>
    env.now = now ∧ db.Authority ownerId plan.accountId snapshot ∧
      ∃ command, (authorizeAndQueueManagement env ownerId plan request db).result = .ok command
  | dispatch env db answer ownerId commandId =>
    env.now = now ∧ (dispatchTask env answer ownerId commandId db).emitted ≠ [] ∧
      ∀ row ∈ Table.get? db.commands commandId ownerId,
        db.Authority ownerId row.data.command.accountId snapshot

/-- Observed within the last half minute. -/
def BrokerSnapshot.FreshAt (snapshot : BrokerSnapshot) (now : Time) : Prop :=
  now ≤ snapshot.observedAt + snapshotMaxAge ∧ snapshot.observedAt ≤ now

instance (snapshot : BrokerSnapshot) (now : Time) : Decidable (snapshot.FreshAt now) :=
  inferInstanceAs (Decidable (_ ∧ _))

/-! ## The shared comparison -/

theorem validateSnapshot_ok_iff {now : Time} {snapshot : BrokerSnapshot} :
    validateSnapshot now snapshot = .ok () ↔
      now ≤ snapshot.observedAt + snapshotMaxAge ∧ 0 < snapshot.equity := by
  unfold validateSnapshot
  by_cases hage : snapshot.observedAt + snapshotMaxAge < now
  · simp [hage, Nat.not_le_of_lt hage]
  · by_cases hequity : snapshot.equity ≤ 0
    · simp [hage, hequity, not_lt.2 hequity]
    · simp [hage, hequity, Nat.le_of_not_lt hage, not_le.1 hequity]

/-- The last snapshot, if the check passes it, over any check. -/
theorem checkedHead_ok {check : BrokerSnapshot → Except TaskError Unit}
    {head : Option (Row Uuid ResourceState BrokerSnapshot)} {missing : TaskError}
    {found : BrokerSnapshot}
    (h : (match head with
      | none => .error missing
      | some r =>
        match check r.data with
        | .ok () => .ok r.data
        | .error e => .error e) = (.ok found : Except TaskError BrokerSnapshot)) :
    head.map (·.data) = some found ∧ check found = .ok () := by
  cases head with
  | none => cases h
  | some r =>
    cases hvalid : check r.data with
    | error e =>
      simp only [hvalid] at h
      cases h
    | ok _ =>
      simp only [hvalid] at h
      obtain rfl : r.data = found := Except.ok.inj h
      exact ⟨rfl, hvalid⟩

/-- The last snapshot is passed on, if the check passes it. -/
theorem checkedHead_passes {check : BrokerSnapshot → Except TaskError Unit}
    {head : Option (Row Uuid ResourceState BrokerSnapshot)} {missing : TaskError}
    {snapshot : BrokerSnapshot} : head.map (·.data) = some snapshot → check snapshot = .ok () →
    (match head with
      | none => .error missing
      | some r =>
        match check r.data with
        | .ok () => .ok r.data
        | .error e => .error e) = (.ok snapshot : Except TaskError BrokerSnapshot) := by
  intro h hvalid
  obtain ⟨r, rfl, rfl⟩ := Option.map_eq_some_iff.1 h
  simp only [hvalid]

/-- What a caller of `current_broker_snapshot` gets is the snapshot it has read and validated. -/
theorem currentBrokerSnapshot_ok {now : Time} {db : Database} {ownerId accountId : Uuid}
    {found : BrokerSnapshot} (h : currentBrokerSnapshot now db ownerId accountId = .ok found) :
    db.Authority ownerId accountId found ∧ validateSnapshot now found = .ok () := by
  unfold currentBrokerSnapshot at h
  exact @checkedHead_ok (validateSnapshot now) _
    (.permissionError "fresh broker snapshot is required") _ h

/-- A valid snapshot is got. -/
theorem currentBrokerSnapshot_passes {now : Time} {db : Database} {ownerId accountId : Uuid}
    {snapshot : BrokerSnapshot} (hread : db.Authority ownerId accountId snapshot)
    (hvalid : validateSnapshot now snapshot = .ok ()) :
    currentBrokerSnapshot now db ownerId accountId = .ok snapshot := by
  unfold currentBrokerSnapshot
  exact @checkedHead_passes (validateSnapshot now) _
    (.permissionError "fresh broker snapshot is required") _ hread hvalid

theorem validated_of_current {now : Time} {db : Database} {ownerId accountId : Uuid}
    {snapshot : BrokerSnapshot} (hread : db.Authority ownerId accountId snapshot)
    (h : Returns (currentBrokerSnapshot now db ownerId accountId)) :
    validateSnapshot now snapshot = .ok () := by
  obtain ⟨found, h⟩ := h
  obtain ⟨hfound, hvalid⟩ := currentBrokerSnapshot_ok h
  obtain rfl : snapshot = found := Option.some.inj (hread.symm.trans hfound)
  exact hvalid

theorem validateAccount_ok {now : Time} {account : AccountData} {broker : BrokerSnapshot}
    (h : validateAccount now account broker = .ok ()) : validateSnapshot now broker = .ok () := by
  cases hvalid : validateSnapshot now broker with
  | ok _ => rfl
  | error e =>
    unfold validateAccount at h
    rw [hvalid] at h
    obtain ⟨_, h⟩ := ok_of_guard h
    cases e <;> cases h

theorem validated_of_context {now : Time} {db : Database} {ownerId accountId : Uuid}
    {candidate : CandidateTrade} {snapshot : BrokerSnapshot} {context : RiskContext}
    (hread : db.Authority ownerId accountId snapshot)
    (h : authoritativeRiskContext now db ownerId accountId candidate = .ok context) :
    validateSnapshot now snapshot = .ok () := by
  unfold Database.Authority at hread
  obtain ⟨_, hauthority, _⟩ := ok_of_bind h
  unfold accountAuthority at hauthority
  obtain ⟨account, _, hauthority⟩ := ok_of_bind hauthority
  obtain ⟨last, hlast, hauthority⟩ := ok_of_bind hauthority
  obtain ⟨_, hvalid, _⟩ := ok_of_bind hauthority
  rw [orError_eq_ok.1 hlast] at hread
  obtain rfl : last.data = snapshot := Option.some.inj hread
  exact validateAccount_ok hvalid

/-! ## Every decision validates what it reads -/

theorem currentBrokerSnapshot_of_decides {env : QueueEnv} {db : Database} {plan : TradePlan}
    {decision : EntryDecision} (h : decideEntry env db plan = .ok decision)
    (hstopped : decision ≠ .stopped) :
    Returns (currentBrokerSnapshot env.now db plan.ownerId plan.accountId) := by
  unfold decideEntry at h
  split at h
  · cases h
    exact absurd rfl hstopped
  · obtain ⟨snapshot, hsnapshot, _⟩ := ok_of_bind h
    exact ⟨snapshot, hsnapshot⟩

theorem persistTradePlan_snapshots (env : Env) (plan : TradePlan) (db : Database) :
    (persistTradePlan env plan db).state.brokerSnapshots = db.brokerSnapshots := by
  unfold persistTradePlan
  rw [Tx.get_bind]
  cases hrow : Table.get? db.tradePlans plan.id plan.ownerId with
  | some row => rfl
  | none =>
    by_cases hid : ∀ row ∈ db.tradePlans, row.id ≠ plan.id
    · show ((Tx.require _ _ >>= _) db).state.brokerSnapshots = _
      rw [Tx.require_bind_pos hid, Tx.modify_bind]
      rfl
    · show ((Tx.require _ _ >>= _) db).state.brokerSnapshots = _
      rw [Tx.require_bind_neg hid]

theorem validated_of_entry {env : QueueEnv} {db : Database} {plan : TradePlan}
    {idempotencyKey : Option String} {snapshot : BrokerSnapshot}
    {row : Row Uuid TradePlanState TradePlan} {command : Row Uuid CommandState CommandData}
    (hread : db.Authority plan.ownerId plan.accountId snapshot)
    (h : (authorizeAndQueueEntry env plan idempotencyKey db).result = .ok (row, some command)) :
    validateSnapshot env.now snapshot = .ok () := by
  unfold authorizeAndQueueEntry at h
  obtain ⟨stored, _, h, _⟩ := Tx.bind_eq_ok h
  have hsnapshots := persistTradePlan_snapshots env.toEnv plan db
  generalize (persistTradePlan env.toEnv plan db).state = db' at h hsnapshots
  rw [Tx.get_bind] at h
  obtain ⟨decision, hdecision, h, _⟩ := Tx.bind_eq_ok h
  -- the plan that is stored first does not touch the snapshots
  have hread' : db'.Authority plan.ownerId plan.accountId snapshot := by
    unfold Database.Authority accountSnapshots at hread ⊢
    rw [hsnapshots]
    exact hread
  refine validated_of_current hread' (currentBrokerSnapshot_of_decides hdecision ?_)
  rintro rfl
  cases h

theorem validated_of_management {env : QueueEnv} {db : Database} {ownerId : Uuid} {plan : TradePlan}
    {request : ManagementRequest} {snapshot : BrokerSnapshot}
    {command : Option (Row Uuid CommandState CommandData)}
    (hread : db.Authority ownerId plan.accountId snapshot)
    (h : (authorizeAndQueueManagement env ownerId plan request db).result = .ok command) :
    validateSnapshot env.now snapshot = .ok () := by
  unfold authorizeAndQueueManagement at h
  rw [Tx.get_bind] at h
  obtain ⟨found, hfound, _⟩ := Tx.bind_eq_ok h
  exact validated_of_current hread ⟨found, hfound⟩

theorem validated_of_dispatch {env : TaskEnv} {db : Database} {answer : AdapterAnswer}
    {ownerId commandId : Uuid} {snapshot : BrokerSnapshot}
    (hread : ∀ row ∈ Table.get? db.commands commandId ownerId,
      db.Authority ownerId row.data.command.accountId snapshot)
    (h : (dispatchTask env answer ownerId commandId db).emitted ≠ []) :
    validateSnapshot env.now snapshot = .ok () := by
  by_cases hready : ∃ row plan authorization,
      Dispatchable env db ownerId commandId row plan authorization
  · obtain ⟨row, plan, authorization, hready⟩ := hready
    have hplanned := hready.planned
    unfold dispatchPlan at hplanned
    obtain ⟨_, _, hplanned⟩ := ok_of_bind hplanned
    obtain ⟨_, _, hplanned⟩ := ok_of_bind hplanned
    obtain ⟨_, _, hplanned⟩ := ok_of_bind hplanned
    obtain ⟨found, hfound, _⟩ := ok_of_bind hplanned
    exact validated_of_current (hread row hready.found) ⟨found, hfound⟩
  · exact absurd (dispatchTask_unready answer hready).1 h

/-- Every decision that is made has validated the snapshot it read. -/
theorem validated_of_accepts {now : Time} {snapshot : BrokerSnapshot} {point : DecisionPoint}
    (h : point.Accepts now snapshot) : validateSnapshot now snapshot = .ok () := by
  cases point with
  | riskContext db ownerId accountId candidate =>
    obtain ⟨hread, context, hcontext⟩ := h
    exact validated_of_context hread hcontext
  | entry env db plan idempotencyKey =>
    obtain ⟨rfl, hread, row, command, hqueued⟩ := h
    exact validated_of_entry hread hqueued
  | management env db ownerId plan request =>
    obtain ⟨rfl, hread, command, hqueued⟩ := h
    exact validated_of_management hread hqueued
  | dispatch env db answer ownerId commandId =>
    obtain ⟨rfl, hsent, hread⟩ := h
    exact validated_of_dispatch hread hsent

/-! ## A context for every valid snapshot -/

/-- One account in the currency of the snapshot, and the snapshot. -/
def watchedAccount (snapshot : BrokerSnapshot) : Database :=
  { Database.empty with
    accounts := [⟨snapshot.accountId, .ofNat 9, .active, 1,
      ⟨snapshot.accountCurrency.getD "USD", snapshot.balance⟩, 0⟩]
    brokerSnapshots := [⟨.ofNat 60, .ofNat 9, .active, 1, snapshot, 0⟩] }

theorem lotSize_pos : (0 : ℚ) < 1 := zero_lt_one

theorem lotEntry_pos : (0 : ℚ) < 11 / 10 := by norm_num

theorem lotRisk_pos : (0 : ℚ) < 1 / 10 := by norm_num

theorem lotStep_pos : (0 : ℚ) < 1 / 100 := by norm_num

/-- One lot of EURUSD. -/
def lotCandidate : CandidateTrade where
  instrument := "EURUSD"
  direction := .buy
  marketCategory := "forex"
  requestedSize := 1
  entryPrice := 11 / 10
  stopLoss := 1
  riskPerUnit := 1 / 10
  sizeIncrement := 1 / 100
  currencyExposures := .empty
  assetClass := none
  instrumentType := none
  venueInstrumentId := none
  futuresContractId := none
  specificationVersionId := none
  quantityUnit := none
  contractMultiplier := 1
  tickSize := none
  tickValue := none
  marginRequired := 0
  financingCost := 0
  underlyingId := none
  requestedSize_pos := lotSize_pos
  entryPrice_pos := lotEntry_pos
  stopLoss_pos := lotSize_pos
  riskPerUnit_pos := lotRisk_pos
  sizeIncrement_pos := lotStep_pos
  marginRequired_nonneg := by norm_num
  financingCost_nonneg := by norm_num

theorem watchedAccount_snapshots (snapshot : BrokerSnapshot) :
    accountSnapshots (watchedAccount snapshot) (.ofNat 9) snapshot.accountId =
      [⟨.ofNat 60, .ofNat 9, .active, 1, snapshot, 0⟩] := by
  simp [accountSnapshots, watchedAccount, Table.listed, ResourceState.kept]

theorem currencyDiffers_watched (snapshot : BrokerSnapshot) (balance : ℚ) :
    currencyDiffers ⟨snapshot.accountCurrency.getD "USD", balance⟩ snapshot = false := by
  unfold currencyDiffers
  cases snapshot.accountCurrency <;> simp

/-- Every snapshot that `validate_snapshot` passes gets a risk context somewhere. -/
theorem accepts_watched {now : Time} {snapshot : BrokerSnapshot}
    (h : validateSnapshot now snapshot = .ok ()) :
    (DecisionPoint.riskContext (watchedAccount snapshot) (.ofNat 9) snapshot.accountId
      lotCandidate).Accepts now snapshot := by
  refine ⟨?_, ?_⟩
  · unfold Database.Authority
    rw [watchedAccount_snapshots]
    rfl
  · have haccount : activeAccount (watchedAccount snapshot) (.ofNat 9) snapshot.accountId =
        some ⟨snapshot.accountId, .ofNat 9, .active, 1,
          ⟨snapshot.accountCurrency.getD "USD", snapshot.balance⟩, 0⟩ := by
      simp [activeAccount, watchedAccount]
    have hvalid : validateAccount now
        ⟨snapshot.accountCurrency.getD "USD", snapshot.balance⟩ snapshot = .ok () := by
      simp [validateAccount, currencyDiffers_watched, h]
    refine ⟨riskContext (watchedAccount snapshot) (.ofNat 9) snapshot.accountId
      ⟨snapshot.accountCurrency.getD "USD", snapshot.balance⟩ snapshot lotCandidate, ?_⟩
    unfold authoritativeRiskContext accountAuthority
    rw [haccount, watchedAccount_snapshots]
    simp only [orError, List.head?_cons]
    show (validateAccount now _ snapshot >>= _) >>= _ = _
    rw [hvalid]
    rfl

/-! ## The window -/

/-- **A snapshot only decides while it is fresh, exactly if it is not dated in the future**: every
risk context built at `now`, every entry and management command authorized and every command
dispatched then on the authority of `snapshot` finds it observed within the last half minute, if and
only if its time is not after `now` or its equity is refused anyway. -/
theorem fresh_iff (snapshot : BrokerSnapshot) (now : Time) :
    (∀ point : DecisionPoint, point.Accepts now snapshot → snapshot.FreshAt now) ↔
      snapshot.observedAt ≤ now ∨ snapshot.equity ≤ 0 := by
  constructor
  · intro h
    by_cases hequity : snapshot.equity ≤ 0
    · exact .inr hequity
    refine .inl ?_
    by_contra hfuture
    have hage : now ≤ snapshot.observedAt + snapshotMaxAge :=
      Nat.le_trans (Nat.le_of_not_le hfuture) (Nat.le_add_right _ _)
    have hvalid := validateSnapshot_ok_iff.2 ⟨hage, not_le.1 hequity⟩
    exact hfuture (h _ (accepts_watched hvalid)).2
  · intro h point haccepts
    obtain ⟨hage, hequity⟩ := validateSnapshot_ok_iff.1 (validated_of_accepts haccepts)
    rcases h with hpast | hrefused
    · exact ⟨hage, hpast⟩
    · exact absurd hequity (not_lt.2 hrefused)

/-- A snapshot dated an hour after the clock. -/
def laterSnapshot : BrokerSnapshot :=
  ⟨.ofNat 61, .ofNat 1, 1, 60 * minute, 1000, 1000, 0, some "USD", [], [], []⟩

/-- **A snapshot dated in the future is fresh authority** until its time has come. -/
theorem future_snapshot_accepted :
    ∃ point : DecisionPoint, point.Accepts 0 laterSnapshot ∧ ¬laterSnapshot.FreshAt 0 :=
  ⟨_, accepts_watched (by decide +kernel), by decide⟩

end Matrades

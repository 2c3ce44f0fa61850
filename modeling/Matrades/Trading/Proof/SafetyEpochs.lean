import Matrades.Base.Epoch
import Matrades.Base.Run
import Matrades.Routes.Automation
import Matrades.Trading.Proof.Guard
import Matrades.Trading.Proof.Queueing
import Matrades.Worker.Proof.Management

/-!
# Safety epochs

A run of switch updates, permission updates, authorizations and dispatches, with anything else the
backend may do between them. The switches are epoch counters and the authorizations permits
(`Base.Epoch`): every committed update counts its own switch up by one (`setKillSwitch_changes`), and
every authorization is stamped with the two epochs of its time (`SafetyInv.queue`, `SafetyInv.manage`).
So a command that the guard accepts at a dispatch carries an authorization since whose issue neither
switch was updated (`epochs_safe`).
-/

namespace Matrades

open Base

/-! ## The switches -/

/-- The switch of an owner's platform, or of an account. -/
inductive SwitchKey
  | platform (ownerId : Uuid)
  | account (ownerId accountId : Uuid)
  deriving DecidableEq

namespace SwitchKey

/-- Is the row a stored record of the switch? -/
def holds : SwitchKey → SwitchRow → Bool
  | platform ownerId, r => r.data.scope = .platform ∧ r.ownerId = ownerId ∧ r.state.kept = true
  | account ownerId accountId, r => (r.data.scope = .account ∧ r.ownerId = ownerId ∧
      r.state.kept = true) ∧ r.data.accountId = some accountId

def ownerId : SwitchKey → Uuid
  | platform ownerId => ownerId
  | account ownerId _ => ownerId

/-- Is the state one of the switch? -/
def fits : SwitchKey → KillSwitchState → Prop
  | platform _, switch => switch.scope = .platform
  | account _ accountId, switch => switch.scope = .account ∧ switch.accountId = some accountId

theorem holds_iff {key : SwitchKey} {r : SwitchRow} : key.holds r = true ↔
    key.fits r.data ∧ r.ownerId = key.ownerId ∧ r.state.kept = true := by
  cases key <;> simp [holds, fits, ownerId]
  tauto

/-- A row is a record of one switch. -/
theorem holds_unique {key key' : SwitchKey} {r : SwitchRow} (h : key.holds r = true)
    (h' : key'.holds r = true) : key = key' := by
  cases key <;> cases key' <;> simp_all [holds]

def record? (key : SwitchKey) (db : Database) : Option SwitchRow := db.killSwitches.find? key.holds

/-- The stored epoch; 0 without a record. -/
def epoch (db : Database) (key : SwitchKey) : Nat :=
  ((key.record? db).map (·.data.safetyEpoch)).getD 0

end SwitchKey

/-- One stored record for each switch. -/
structure SwitchesKeyed (db : Database) : Prop where
  unique : (db.killSwitches.map (·.id)).Nodup
  single : ∀ (key : SwitchKey), ∀ r ∈ db.killSwitches, ∀ r' ∈ db.killSwitches,
    key.holds r = true → key.holds r' = true → r = r'

theorem SwitchesKeyed.record {db : Database} (hk : SwitchesKeyed db) {key : SwitchKey}
    {r : SwitchRow} (hr : r ∈ db.killSwitches) (hholds : key.holds r = true) :
    key.record? db = some r :=
  Table.find?_only hr hholds fun c hc hcholds => hk.single key c hc r hr hcholds hholds

/-- The record the account sees is the stored one, whatever the order of the table. -/
theorem find?_switches {db : Database} (hk : SwitchesKeyed db) (key : SwitchKey)
    {p : KillSwitchState → Bool} (hp : ∀ switch, p switch = true ↔ key.fits switch) :
    ((Table.listed db.killSwitches key.ownerId ResourceState.kept).map (·.data)).find? p =
      (key.record? db).map (·.data) := by
  rw [List.find?_map]
  congr 1
  have hlisted : ∀ r ∈ Table.listed db.killSwitches key.ownerId ResourceState.kept,
      p r.data = true → r ∈ db.killSwitches ∧ key.holds r = true := by
    intro r hr hpr
    obtain ⟨hmem, howner, hkept⟩ := Table.mem_listed.1 hr
    exact ⟨hmem, SwitchKey.holds_iff.2 ⟨(hp r.data).1 hpr, howner, hkept⟩⟩
  cases hrecord : key.record? db with
  | some r =>
    have hmem := List.mem_of_find?_eq_some hrecord
    have hholds := List.find?_some hrecord
    obtain ⟨hfits, howner, hkept⟩ := SwitchKey.holds_iff.1 hholds
    refine Table.find?_only (Table.mem_listed.2 ⟨hmem, howner, hkept⟩) ((hp r.data).2 hfits) ?_
    intro c hc hpc
    obtain ⟨hcmem, hcholds⟩ := hlisted c hc hpc
    exact hk.single key c hcmem r hmem hcholds hholds
  | none =>
    refine List.find?_eq_none.2 fun r hr hpr => ?_
    obtain ⟨hmem, hholds⟩ := hlisted r hr hpr
    exact absurd hholds (List.find?_eq_none.1 hrecord r hmem)

theorem currentKillSwitches_eq {db : Database} (hk : SwitchesKeyed db) (ownerId accountId : Uuid) :
    currentKillSwitches db ownerId accountId =
      ((((SwitchKey.platform ownerId).record? db).map (·.data)).getD { scope := .platform },
        (((SwitchKey.account ownerId accountId).record? db).map (·.data)).getD
          { scope := .account, accountId := some accountId }) := by
  have hplatform := find?_switches hk (.platform ownerId) (p := fun k => k.scope = .platform)
    (by simp [SwitchKey.fits])
  have haccount := find?_switches hk (.account ownerId accountId)
    (p := fun k => k.scope = .account ∧ k.accountId = some accountId) (by simp [SwitchKey.fits])
  unfold currentKillSwitches
  dsimp only [SwitchKey.ownerId] at hplatform haccount ⊢
  rw [hplatform, haccount]

/-- The epochs that an authorization is stamped with are the stored ones. -/
theorem currentKillSwitches_epoch {db : Database} (hk : SwitchesKeyed db) (ownerId accountId : Uuid) :
    (currentKillSwitches db ownerId accountId).1.safetyEpoch =
        SwitchKey.epoch db (.platform ownerId) ∧
      (currentKillSwitches db ownerId accountId).2.safetyEpoch =
        SwitchKey.epoch db (.account ownerId accountId) := by
  rw [currentKillSwitches_eq hk]
  unfold SwitchKey.epoch
  constructor
  · cases (SwitchKey.platform ownerId).record? db <;> rfl
  · cases (SwitchKey.account ownerId accountId).record? db <;> rfl

/-! ## One update -/

/-- An update is refused before it writes, or replaces the record, or adds one. -/
theorem setKillSwitch_cases (env : Env) (ownerId : Uuid) (accounts : List Uuid)
    (existing : Option SwitchRow) (requested : KillSwitchState) (eventType : String) (db : Database) :
    (∃ e, setKillSwitch env ownerId accounts existing requested eventType db = ⟨.error e, db, []⟩) ∨
    ∃ switch, switch = requested.after (existing.map (·.data)) ∧
      ((∃ row, existing = some row ∧
          setKillSwitch env ownerId accounts existing requested eventType db =
            ⟨.ok (), db.updateSwitch row switch eventType env.now, []⟩) ∨
        existing = none ∧
          (∀ other ∈ db.killSwitches, other.id ≠ env.newId db.killSwitches.length) ∧
          setKillSwitch env ownerId accounts existing requested eventType db = ⟨.ok (),
            db.addKillSwitch (newRow env db.killSwitches ownerId .active switch) eventType, []⟩) := by
  unfold setKillSwitch
  rw [Tx.get_bind]
  cases hhealth : verifyHealth env.now db ownerId accounts (existing.map (·.data)) requested with
  | error e => exact .inl ⟨e, Tx.lift_bind_error rfl _ _⟩
  | ok _ =>
    rw [Tx.lift_bind_ok rfl]
    cases hupdate : updateKillSwitch requested (existing.map (·.data)) true true with
    | error e => exact .inl ⟨e, Tx.lift_bind_error rfl _ _⟩
    | ok switch =>
      rw [Tx.lift_bind_ok rfl]
      have hswitch : switch = requested.after (existing.map (·.data)) := by
        unfold updateKillSwitch at hupdate
        repeat' split at hupdate
        all_goals cases hupdate
        rfl
      cases existing with
      | some row => exact .inr ⟨switch, hswitch, .inl ⟨row, rfl, rfl⟩⟩
      | none =>
        unfold storeSwitch
        dsimp only
        rw [Tx.get_bind]
        by_cases hfresh : ∀ other ∈ db.killSwitches, other.id ≠ env.newId db.killSwitches.length
        · refine .inr ⟨switch, hswitch, .inr ⟨rfl, hfresh, ?_⟩⟩
          exact Tx.require_bind_pos hfresh _ _ _
        · exact .inl ⟨_, Tx.require_bind_neg hfresh _ _ _⟩

/-- What one update does to the switches: its own counts up by one, every other stays. -/
structure Counts (db db' : Database) (key : SwitchKey) : Prop where
  keyed : SwitchesKeyed db'
  own : SwitchKey.epoch db' key = SwitchKey.epoch db key + 1
  other : ∀ k, k ≠ key → SwitchKey.epoch db' k = SwitchKey.epoch db k
  plans : db'.tradePlans = db.tradePlans

/-- One record takes the place of what was stored of the switch. -/
theorem counts_of {db db' : Database} (hk : SwitchesKeyed db) {key : SwitchKey} {new : SwitchRow}
    (hunique : (db'.killSwitches.map (·.id)).Nodup) (hnew : new ∈ db'.killSwitches)
    (hholds : key.holds new = true)
    (hrows : ∀ r ∈ db'.killSwitches, r = new ∨ (r ∈ db.killSwitches ∧ key.holds r = false))
    (hstay : ∀ r ∈ db.killSwitches, key.holds r = false → r ∈ db'.killSwitches)
    (hepoch : new.data.safetyEpoch = SwitchKey.epoch db key + 1)
    (hplans : db'.tradePlans = db.tradePlans) : Counts db db' key := by
  have hown : ∀ r ∈ db'.killSwitches, key.holds r = true → r = new := by
    intro r hr hrholds
    rcases hrows r hr with rfl | ⟨_, hnot⟩
    · rfl
    · rw [hrholds] at hnot
      cases hnot
  have hold : ∀ k, k ≠ key → ∀ r ∈ db'.killSwitches, k.holds r = true → r ∈ db.killSwitches := by
    intro k hne r hr hrholds
    rcases hrows r hr with rfl | ⟨hr, _⟩
    · exact absurd (SwitchKey.holds_unique hrholds hholds) hne
    · exact hr
  have hkeyed : SwitchesKeyed db' := by
    refine ⟨hunique, fun k r hr r' hr' hrholds hrholds' => ?_⟩
    by_cases hsame : k = key
    · subst hsame
      rw [hown r hr hrholds, hown r' hr' hrholds']
    · exact hk.single k r (hold k hsame r hr hrholds) r' (hold k hsame r' hr' hrholds') hrholds
        hrholds'
  refine ⟨hkeyed, ?_, fun k hne => ?_, hplans⟩
  · rw [SwitchKey.epoch, hkeyed.record hnew hholds]
    exact hepoch
  · unfold SwitchKey.epoch
    cases hrecord : k.record? db with
    | some r =>
      have hrmem := List.mem_of_find?_eq_some hrecord
      have hrholds := List.find?_some hrecord
      have hnot : key.holds r = false := by
        by_contra hr
        exact hne (SwitchKey.holds_unique hrholds (Bool.eq_true_of_not_eq_false hr))
      rw [hkeyed.record (hstay r hrmem hnot) hrholds]
    | none =>
      have hnone : k.record? db' = none := by
        refine List.find?_eq_none.2 fun r hr hrholds => ?_
        exact List.find?_eq_none.1 hrecord r (hold k hne r hr hrholds) hrholds
      rw [hnone]

theorem updateSwitch_counts {db : Database} (hk : SwitchesKeyed db) {key : SwitchKey}
    {row : SwitchRow} (hrow : key.record? db = some row) {switch : KillSwitchState}
    (hfits : key.fits switch) (hepoch : switch.safetyEpoch = row.data.safetyEpoch + 1)
    (eventType : String) (now : Time) : Counts db (db.updateSwitch row switch eventType now) key := by
  have hmem : row ∈ db.killSwitches := List.mem_of_find?_eq_some hrow
  have hholds : key.holds row = true := List.find?_some hrow
  obtain ⟨_, howner, hkept⟩ := SwitchKey.holds_iff.1 hholds
  have hids : (db.updateSwitch row switch eventType now).killSwitches.map (·.id) =
      db.killSwitches.map (·.id) := Table.ids_revise _ _ _ _ _
  have hrevised : key.holds (Table.revised row switch row.state now) = true :=
    SwitchKey.holds_iff.2 ⟨hfits, howner, hkept⟩
  refine counts_of hk (hids ▸ hk.unique) (Table.revised_mem hmem switch row.state now) hrevised
    (fun r hr => ?_) (fun r hr hnot => ?_) ?_ rfl
  · rcases Table.mem_revise_row hk.unique hmem hr with ⟨hr, hid⟩ | rfl
    · refine .inr ⟨hr, Bool.eq_false_of_not_eq_true fun hrholds => ?_⟩
      exact hid (congrArg (·.id) (hk.single key r hr row hmem hrholds hholds))
    · exact .inl rfl
  · refine Table.mem_revise_of_ne hr fun hid => ?_
    obtain rfl := Table.row_unique hk.unique hr hmem hid
    rw [hholds] at hnot
    cases hnot
  · rw [SwitchKey.epoch, hrow]
    exact hepoch

theorem addKillSwitch_counts {db : Database} (hk : SwitchesKeyed db) {key : SwitchKey}
    (hnone : key.record? db = none) {row : SwitchRow} (hholds : key.holds row = true)
    (hfresh : ∀ other ∈ db.killSwitches, other.id ≠ row.id) (hepoch : row.data.safetyEpoch = 1)
    (eventType : String) : Counts db (db.addKillSwitch row eventType) key := by
  have hrows : ∀ r, r ∈ (db.addKillSwitch row eventType).killSwitches ↔
      r ∈ db.killSwitches ∨ r = row := by
    intro r
    show r ∈ db.killSwitches ++ [row] ↔ _
    simp
  have hunique : ((db.killSwitches ++ [row]).map (·.id)).Nodup := by
    rw [List.map_append, List.nodup_append]
    refine ⟨hk.unique, by simp, fun id hid id' hid' => ?_⟩
    obtain ⟨r, hr, rfl⟩ := List.mem_map.1 hid
    obtain rfl : id' = row.id := by simpa using hid'
    exact hfresh r hr
  refine counts_of hk hunique ((hrows row).2 (.inr rfl)) hholds (fun r hr => ?_)
    (fun r hr _ => (hrows r).2 (.inl hr)) ?_ rfl
  · rcases (hrows r).1 hr with hr | rfl
    · exact .inr ⟨hr, Bool.eq_false_of_not_eq_true (List.find?_eq_none.1 hnone r hr)⟩
    · exact .inl rfl
  · rw [SwitchKey.epoch, hnone]
    exact hepoch

/-- **An update of a switch that commits counts its epoch up by one, and no other.** -/
theorem setKillSwitch_changes {db : Database} (hk : SwitchesKeyed db) (env : Env) (key : SwitchKey)
    (accounts : List Uuid) {requested : KillSwitchState} (hfits : key.fits requested)
    (eventType : String) :
    (∃ e, setKillSwitch env key.ownerId accounts (key.record? db) requested eventType db =
      ⟨.error e, db, []⟩) ∨
    ∃ db', Counts db db' key ∧
      setKillSwitch env key.ownerId accounts (key.record? db) requested eventType db =
        ⟨.ok (), db', []⟩ := by
  rcases setKillSwitch_cases env key.ownerId accounts (key.record? db) requested eventType db with
    hrefused | ⟨switch, hswitch, ⟨row, hrow, hrun⟩ | ⟨hnone, hfresh, hrun⟩⟩
  · exact .inl hrefused
  · have hsame : key.fits switch := by
      rw [hswitch]
      cases key <;> exact hfits
    refine .inr ⟨_, updateSwitch_counts hk hrow hsame ?_ eventType env.now, hrun⟩
    rw [hswitch, hrow]
    rfl
  · have hholds : key.holds (newRow env db.killSwitches key.ownerId .active switch) = true := by
      refine SwitchKey.holds_iff.2 ⟨?_, rfl, rfl⟩
      show key.fits switch
      rw [hswitch]
      cases key <;> exact hfits
    refine .inr ⟨_, addKillSwitch_counts hk hnone hholds hfresh ?_ eventType, hrun⟩
    show switch.safetyEpoch = 1
    rw [hswitch, hnone]
    rfl

/-! ## The system -/

/-- The authorizations of the stored plans, with the plans' owners. -/
def Database.authorizations (db : Database) : List (Uuid × ExecutionAuthorization) :=
  db.tradePlans.filterMap fun row => row.data.authorization.map fun a => (row.ownerId, a)

/-- The epochs that an owner's authorization carries. -/
def stamps (permit : Uuid × ExecutionAuthorization) : List (SwitchKey × Nat) :=
  [(.platform permit.1, permit.2.platformSafetyEpoch),
    (.account permit.1 permit.2.accountId, permit.2.accountSafetyEpoch)]

structure SafetySystem where
  db : Database
  /-- The committed updates and the issued authorizations, the last one first. -/
  log : List (EpochEvent SwitchKey (Uuid × ExecutionAuthorization))

namespace SafetySystem

/-- No authorization issued yet. -/
def start (db : Database) : SafetySystem := ⟨db, []⟩

inductive Label
  | platformSwitch (env : Env) (ownerId : Uuid) (active : Bool)
  | accountSwitch (env : Env) (ownerId accountId : Uuid) (active : Bool)
  | permissions (env : Env) (ownerId accountId : Uuid) (payload : ExecutionPermissionProfile)
  | queue (env : QueueEnv) (ownerId planId : Uuid)
  | manage (env : QueueEnv) (ownerId planId : Uuid) (request : ManagementRequest)
  | dispatch (env : TaskEnv) (answer : AdapterAnswer) (ownerId commandId : Uuid)
  /-- Any other change of the database. -/
  | other (db : Database)

/-- An endpoint's update of a switch is logged where it commits. -/
def switched (s : SafetySystem) (key : SwitchKey)
    (o : Outcome Database BrokerCall TaskError Unit) : SafetySystem :=
  match o.result with
  | .ok _ => ⟨o.state, .changed key :: s.log⟩
  | .error _ => ⟨o.state, s.log⟩

/-- An authorization is issued when it is first stored. -/
def authorized (s : SafetySystem) (db : Database) : SafetySystem :=
  ⟨db, (db.authorizations.filter fun permit => .issued permit ∉ s.log).map .issued ++ s.log⟩

def step (s : SafetySystem) : Label → SafetySystem
  | .platformSwitch env ownerId active =>
    s.switched (.platform ownerId) (setPlatformKillSwitch env ownerId active s.db)
  | .accountSwitch env ownerId accountId active =>
    s.switched (.account ownerId accountId) (setAccountKillSwitch env ownerId accountId active s.db)
  | .permissions env ownerId accountId payload =>
    ⟨(setPermissionProfile env ownerId accountId payload s.db).state, s.log⟩
  | .queue env ownerId planId => s.authorized (queuePlan env ownerId planId s.db).state
  | .manage env ownerId planId request =>
    s.authorized (manageTask env ownerId planId request s.db).state
  | .dispatch env answer ownerId commandId =>
    ⟨(dispatchTask env answer ownerId commandId s.db).state, s.log⟩
  | .other db => ⟨db, s.log⟩

/-- The rest of the backend changes no kill switch and stores no authorization that was not issued. -/
def Allowed (s : SafetySystem) : Label → Prop
  | .other db => db.killSwitches = s.db.killSwitches ∧ PlansKeyed db ∧
      ∀ permit ∈ db.authorizations, .issued permit ∈ s.log
  | _ => True

/-- The dispatch comes to the guard with the command, and the guard accepts. -/
def Accepts (s : SafetySystem) (now : Time) (ownerId commandId : Uuid) (command : ExecutionCommand)
    (authorization : ExecutionAuthorization) : Prop :=
  ∃ row plan, Table.get? s.db.commands commandId ownerId = some row ∧ row.state ∉ replayedStates ∧
    row.data.command = command ∧
    dispatchPlan now s.db ownerId command = .ok (plan, authorization)

/-- What an acceptance has to mean. -/
structure AcceptedSafely (s : SafetySystem) (ownerId : Uuid) (command : ExecutionCommand)
    (authorization : ExecutionAuthorization) : Prop where
  bound : command.authorizationId = some authorization.id
  issued : .issued (ownerId, authorization) ∈ s.log
  unchanged : ∀ post pre, s.log = post ++ .issued (ownerId, authorization) :: pre →
    .changed (.platform ownerId) ∉ post ∧ .changed (.account ownerId command.accountId) ∉ post
  platformOff : ∀ r ∈ s.db.killSwitches, (SwitchKey.platform ownerId).holds r = true →
    r.data.active = false
  accountOff : ∀ r ∈ s.db.killSwitches,
    (SwitchKey.account ownerId command.accountId).holds r = true → r.data.active = false
  permitted : ∃ r ∈ s.db.permissionProfiles, (r.ownerId = ownerId ∧ r.state.kept = true ∧
      r.data.accountId = command.accountId ∧ r.data.allows command.action = true) ∧
    ∀ r' ∈ s.db.permissionProfiles, r'.ownerId = ownerId → r'.state.kept = true →
      r'.data.accountId = command.accountId → r'.updatedAt ≤ r.updatedAt

/-- Every acceptance of the step is safe. -/
def Safe (s : SafetySystem) : Label → Prop
  | .dispatch env _ ownerId commandId => ∀ command authorization,
      s.Accepts env.now ownerId commandId command authorization →
        s.AcceptedSafely ownerId command authorization
  | _ => True

end SafetySystem

open SafetySystem

/-! ## The invariant -/

/-- No switch and no plan changes. -/
def KeepsAuthority (db db' : Database) : Prop :=
  db'.killSwitches = db.killSwitches ∧ db'.tradePlans = db.tradePlans

theorem keepsAuthority_order : Tx.StoreOrder KeepsAuthority where
  refl _ := ⟨rfl, rfl⟩
  trans h h' := ⟨h'.1.trans h.1, h'.2.trans h.2⟩

theorem setPermissionProfile_within (env : Env) (ownerId accountId : Uuid)
    (payload : ExecutionPermissionProfile) :
    Tx.Within KeepsAuthority (setPermissionProfile env ownerId accountId payload) := by
  have hO := keepsAuthority_order
  refine Tx.within_unitOfWork hO (Tx.within_bind hO (Tx.within_require hO _ _) fun _ => ?_)
  refine Tx.within_bind hO (Tx.within_get hO) fun db => ?_
  refine Tx.within_bind hO (Tx.within_lift hO _) fun profile => Tx.within_modify fun db' => ?_
  unfold Database.storePermissions
  split <;> exact ⟨rfl, rfl⟩

structure SafetyInv (s : SafetySystem) : Prop where
  switches : SwitchesKeyed s.db
  plans : PlansKeyed s.db
  stamped : Stamped stamps (SwitchKey.epoch s.db) s.log
  issued : ∀ permit ∈ s.db.authorizations, .issued permit ∈ s.log

theorem SwitchesKeyed.of_switches {db db' : Database} (hk : SwitchesKeyed db)
    (h : db'.killSwitches = db.killSwitches) : SwitchesKeyed db' :=
  ⟨h ▸ hk.unique, fun key r hr r' hr' => hk.single key r (h ▸ hr) r' (h ▸ hr')⟩

theorem epoch_of_switches {db db' : Database} (h : db'.killSwitches = db.killSwitches)
    (key : SwitchKey) : SwitchKey.epoch db' key = SwitchKey.epoch db key := by
  unfold SwitchKey.epoch SwitchKey.record?
  rw [h]

theorem authorizations_of_plans {db db' : Database} (h : db'.tradePlans = db.tradePlans) :
    db'.authorizations = db.authorizations := by
  unfold Database.authorizations
  rw [h]

theorem mem_authorizations {db : Database} {permit : Uuid × ExecutionAuthorization} :
    permit ∈ db.authorizations ↔
      ∃ row ∈ db.tradePlans, row.ownerId = permit.1 ∧ row.data.authorization = some permit.2 := by
  obtain ⟨ownerId, authorization⟩ := permit
  unfold Database.authorizations
  simp only [List.mem_filterMap, Option.map_eq_some_iff, Prod.mk.injEq]
  constructor
  · rintro ⟨row, hrow, a, ha, howner, rfl⟩
    exact ⟨row, hrow, howner, ha⟩
  · rintro ⟨row, hrow, howner, ha⟩
    exact ⟨row, hrow, authorization, ha, howner, rfl⟩

/-- A revised plan leaves the other authorizations. -/
theorem authorizations_update {db : Database} (hk : PlansKeyed db)
    {row : Row Uuid TradePlanState TradePlan} (hrow : row ∈ db.tradePlans) {plan : TradePlan}
    (eventType : String) (now : Time) {permit : Uuid × ExecutionAuthorization}
    (h : permit ∈ (db.updatePlan row plan eventType now).authorizations) :
    permit ∈ db.authorizations ∨ (row.ownerId = permit.1 ∧ plan.authorization = some permit.2) := by
  obtain ⟨r, hr, howner, ha⟩ := mem_authorizations.1 h
  rcases Table.mem_revise_row hk.unique hrow hr with ⟨hr, _⟩ | rfl
  · exact .inl (mem_authorizations.2 ⟨r, hr, howner, ha⟩)
  · exact .inr ⟨howner, ha⟩

/-- A plan that keeps its authorization adds none. -/
theorem authorizations_keep {db : Database} (hk : PlansKeyed db)
    {row : Row Uuid TradePlanState TradePlan} (hrow : row ∈ db.tradePlans) {plan : TradePlan}
    (hsame : plan.authorization = row.data.authorization) (eventType : String) (now : Time)
    {permit : Uuid × ExecutionAuthorization}
    (h : permit ∈ (db.updatePlan row plan eventType now).authorizations) :
    permit ∈ db.authorizations := by
  rcases authorizations_update hk hrow eventType now h with h | ⟨howner, ha⟩
  · exact h
  · exact mem_authorizations.2 ⟨row, hrow, howner, hsame ▸ ha⟩

section
variable {s : SafetySystem} (hs : SafetyInv s)
include hs

/-- A change that issues nothing and leaves the switches. -/
theorem SafetyInv.quiet {db : Database} (hswitches : db.killSwitches = s.db.killSwitches)
    (hplans : PlansKeyed db) (hissued : ∀ permit ∈ db.authorizations, .issued permit ∈ s.log) :
    SafetyInv ⟨db, s.log⟩ :=
  ⟨hs.switches.of_switches hswitches, hplans, hs.stamped.congr (epoch_of_switches hswitches), hissued⟩

/-- New authorizations carry the current epochs. -/
theorem SafetyInv.authorized {db : Database} (hswitches : db.killSwitches = s.db.killSwitches)
    (hplans : PlansKeyed db) (hnew : ∀ permit ∈ db.authorizations, permit ∈ s.db.authorizations ∨
      ∀ stamp ∈ stamps permit, stamp.2 = SwitchKey.epoch s.db stamp.1) :
    SafetyInv (s.authorized db) := by
  have hepoch := epoch_of_switches hswitches
  refine ⟨hs.switches.of_switches hswitches, hplans, ?_, fun permit hpermit => ?_⟩
  · refine (hs.stamped.congr hepoch).issueAll fun permit hpermit stamp hstamp => ?_
    obtain ⟨hstored, hunlogged⟩ := List.mem_filter.1 hpermit
    rcases hnew permit hstored with hold | hnow
    · exact absurd (hs.issued permit hold) (by simpa using hunlogged)
    · rw [hepoch]
      exact hnow stamp hstamp
  · by_cases hlogged : .issued permit ∈ s.log
    · exact List.mem_append_right _ hlogged
    · refine List.mem_append_left _ (List.mem_map_of_mem (List.mem_filter.2 ⟨hpermit, ?_⟩))
      simpa using hlogged

/-- An endpoint that sets the switch of the key. -/
theorem SafetyInv.switched {key : SwitchKey} {o : Outcome Database BrokerCall TaskError Unit}
    (h : (∃ e, o = ⟨.error e, s.db, []⟩) ∨ ∃ db', Counts s.db db' key ∧ o = ⟨.ok (), db', []⟩) :
    SafetyInv (s.switched key o) := by
  rcases h with ⟨e, rfl⟩ | ⟨db', hcounts, rfl⟩
  · exact hs
  · refine ⟨hcounts.keyed, hs.plans.of_plans hcounts.plans,
      hs.stamped.bump hcounts.own hcounts.other, fun permit hpermit => List.mem_cons_of_mem _ ?_⟩
    exact hs.issued permit (authorizations_of_plans hcounts.plans ▸ hpermit)

/-! ### The endpoints -/

theorem SafetyInv.platform (env : Env) (ownerId : Uuid) (active : Bool) :
    SafetyInv (s.step (.platformSwitch env ownerId active)) := by
  refine hs.switched ?_
  have hrecord : platformSwitch? s.db ownerId = (SwitchKey.platform ownerId).record? s.db := rfl
  have hfits : (SwitchKey.platform ownerId).fits { scope := .platform, active } := rfl
  unfold setPlatformKillSwitch
  rcases setKillSwitch_changes hs.switches env (.platform ownerId)
    ((Table.listed s.db.accounts ownerId ResourceState.kept).map (·.id)) hfits
    "platform_kill_switch.changed" with ⟨e, hrun⟩ | ⟨db', hcounts, hrun⟩
  · refine .inl ⟨e, Tx.unitOfWork_of_error (r := s.db) ?_⟩
    rw [Tx.get_bind, hrecord]
    exact hrun
  · refine .inr ⟨db', hcounts, Tx.unitOfWork_of_ok ?_⟩
    rw [Tx.get_bind, hrecord]
    exact hrun

theorem SafetyInv.account (env : Env) (ownerId accountId : Uuid) (active : Bool) :
    SafetyInv (s.step (.accountSwitch env ownerId accountId active)) := by
  refine hs.switched ?_
  have hrecord : accountSwitch? s.db ownerId accountId =
      (SwitchKey.account ownerId accountId).record? s.db := rfl
  have hfits : (SwitchKey.account ownerId accountId).fits
      { scope := .account, active, accountId := some accountId } := ⟨rfl, rfl⟩
  unfold setAccountKillSwitch
  rcases setKillSwitch_changes hs.switches env (.account ownerId accountId) [accountId] hfits
    "account_kill_switch.changed" with ⟨e, hrun⟩ | ⟨db', hcounts, hrun⟩
  · refine .inl ⟨e, Tx.unitOfWork_of_error (r := s.db) ?_⟩
    rw [Tx.get_bind, hrecord]
    exact hrun
  · refine .inr ⟨db', hcounts, Tx.unitOfWork_of_ok ?_⟩
    rw [Tx.get_bind, hrecord]
    exact hrun

theorem SafetyInv.permissions (env : Env) (ownerId accountId : Uuid)
    (payload : ExecutionPermissionProfile) :
    SafetyInv (s.step (.permissions env ownerId accountId payload)) := by
  obtain ⟨⟨hswitches, hplans⟩, _⟩ := setPermissionProfile_within env ownerId accountId payload s.db
  refine hs.quiet hswitches (hs.plans.of_plans hplans) fun permit hpermit => ?_
  exact hs.issued permit (authorizations_of_plans hplans ▸ hpermit)

/-! ### The authorizations -/

omit hs in
/-- A new authorization is stamped with the stored epochs. -/
theorem stamps_now {db : Database} (hk : SwitchesKeyed db) {env : QueueEnv} {ownerId : Uuid}
    {plan : TradePlan} {action : ExecutionAction} {authorization : ExecutionAuthorization}
    (h : currentAuthorization env db ownerId plan action = .ok authorization) :
    ∀ stamp ∈ stamps (ownerId, authorization), stamp.2 = SwitchKey.epoch db stamp.1 := by
  obtain ⟨hplatform, haccount⟩ := currentKillSwitches_epoch hk ownerId plan.accountId
  rw [(currentAuthorization_ok h).2]
  intro stamp hstamp
  rcases List.mem_pair.1 hstamp with rfl | rfl
  · exact hplatform
  · exact haccount

theorem SafetyInv.queue (env : QueueEnv) (ownerId planId : Uuid) :
    SafetyInv (s.step (.queue env ownerId planId)) := by
  have hidle : SafetyInv (s.authorized s.db) := hs.authorized rfl hs.plans fun _ h => .inl h
  rw [step]
  rcases queuePlan_cases env ownerId planId hs.plans with ⟨e, hrun⟩ |
    ⟨row, decision, db', result, hrow, hdecision, hstep, hrun⟩
  · rw [hrun]
    exact hidle
  rw [hrun]
  have hmem := (Table.get?_spec hrow).1
  obtain ⟨hid, howner⟩ := hs.plans.same row hmem
  cases hstep with
  | stopped => exact hidle
  | blocked plan =>
    have hfrom := decideEntry_from hdecision rfl
    have hsame : plan.blocked.id = row.data.id ∧ plan.blocked.ownerId = row.data.ownerId ∧
        plan.blocked.authorization = row.data.authorization := by
      rw [hfrom]
      exact ⟨rfl, rfl, rfl⟩
    refine hs.authorized rfl ?_ fun permit hpermit => .inl ?_
    · exact hs.plans.update hmem (hsame.1.trans hid) (hsame.2.1.trans howner) _ _
    · exact authorizations_keep hs.plans hmem hsame.2.2 _ _ hpermit
  | queued plan v hcomputed _ =>
    have hfrom := decideEntry_from hdecision rfl
    have hsame : v.queued.id = row.data.id ∧ v.queued.ownerId = row.data.ownerId ∧
        plan.ownerId = row.data.ownerId := by
      rw [hcomputed.queued_eq, hfrom]
      exact ⟨rfl, rfl, rfl⟩
    have hplans := v.stored_plans env row plan.ownerId s.db
    refine hs.authorized (v.stored_switches env row plan.ownerId s.db) ?_ fun permit hpermit => ?_
    · exact (hs.plans.update hmem (hsame.1.trans hid) (hsame.2.1.trans howner) _ _).of_plans hplans
    rw [authorizations_of_plans hplans] at hpermit
    rcases authorizations_update hs.plans hmem _ _ hpermit with hold | ⟨hpermitOwner, ha⟩
    · exact .inl hold
    · right
      have ha' : v.authorization = permit.2 := by
        rw [hcomputed.queued_eq] at ha
        exact Option.some.inj ha
      have hpermitEq : permit = (plan.ownerId, v.authorization) := by
        rw [hsame.2.2, howner, hpermitOwner, ha']
      rw [hpermitEq]
      exact stamps_now hs.switches hcomputed.authorized

theorem SafetyInv.manage (env : QueueEnv) (ownerId planId : Uuid) (request : ManagementRequest) :
    SafetyInv (s.step (.manage env ownerId planId request)) := by
  have hidle : SafetyInv (s.authorized s.db) := hs.authorized rfl hs.plans fun _ h => .inl h
  rw [step]
  rcases manageTask_cases env ownerId planId request hs.plans with ⟨e, hrun⟩ |
    ⟨row, v, record, hrow, _, hcomputed, _, hrun⟩
  · rw [hrun]
    exact hidle
  rw [hrun]
  obtain ⟨hmem, _, howned⟩ := Table.get?_spec hrow
  obtain ⟨hid, howner⟩ := hs.plans.same row hmem
  have hplans := v.stored_plans env row ownerId s.db
  refine hs.authorized (v.stored_switches env row ownerId s.db) ?_ fun permit hpermit => ?_
  · have hmanaged : (row.data.manage v.authorization).id = row.id := hid
    have hkept : PlansKeyed (v.planned env row s.db) := hs.plans.update hmem hmanaged howner _ _
    exact hkept.of_plans hplans
  rw [authorizations_of_plans hplans] at hpermit
  rcases authorizations_update hs.plans hmem _ _ hpermit with hold | ⟨hpermitOwner, ha⟩
  · exact .inl hold
  · right
    have hpermitEq : permit = (ownerId, v.authorization) := by
      rw [← howned, hpermitOwner, Option.some.inj ha]
    rw [hpermitEq]
    exact stamps_now hs.switches hcomputed.authorized

/-! ### The dispatches -/

omit hs in
/-- What a committed dispatch leaves of the plans and of the switches. -/
theorem settled_plans (db : Database) (env : TaskEnv) (ownerId : Uuid) (ready : Ready)
    (outcome : ExecutionCommand) :
    (db.settled env ownerId ready outcome).killSwitches = db.killSwitches ∧
      ((db.settled env ownerId ready outcome).tradePlans = db.tradePlans ∨
        (ready.plan.data.state = .executionPending ∧
          (db.settled env ownerId ready outcome).tradePlans =
            (db.executePlan env ready.plan).tradePlans)) := by
  have hreserved : (db.recordOutcome env ready.row outcome).settleReserved env ownerId
      ready.plan.data outcome = { (db.recordOutcome env ready.row outcome) with
        reservations := ((db.recordOutcome env ready.row outcome).settleReserved env ownerId
          ready.plan.data outcome).reservations } := by
    unfold Database.settleReserved
    split <;> rfl
  unfold Database.settled
  dsimp only
  rw [hreserved]
  split
  · rename_i hexecutes
    exact ⟨rfl, .inr ⟨hexecutes.2, rfl⟩⟩
  · exact ⟨rfl, .inl rfl⟩

theorem SafetyInv.dispatch (env : TaskEnv) (answer : AdapterAnswer) (ownerId commandId : Uuid) :
    SafetyInv (s.step (.dispatch env answer ownerId commandId)) := by
  rw [step]
  rcases dispatchTask_cases env answer ownerId commandId s.db with hstate |
    ⟨row, plan, authorization, outcome, hready, _, _, hstate⟩
  · rw [hstate]
    exact hs
  rw [hstate]
  obtain ⟨⟨planId, _, hplan⟩, _, _⟩ := dispatchPlan_ok hready.planned
  have hmem := (Table.get?_spec hplan).1
  obtain ⟨hid, howner⟩ := hs.plans.same plan hmem
  obtain ⟨hswitches, hplans⟩ := settled_plans (s.db.leaseRow env row) env ownerId
    ⟨leasedRow env row, plan, authorization⟩ outcome
  rcases hplans with hplans | ⟨-, hplans⟩
  · refine hs.quiet hswitches (hs.plans.of_plans hplans) fun permit hpermit => ?_
    exact hs.issued permit (authorizations_of_plans hplans ▸ hpermit)
  · let executing : TradePlan :=
      { plan.data with state := .executing, version := plan.data.version + 1 }
    have hexecuting : executing.id = plan.id := hid
    have hsame : executing.authorization = plan.data.authorization := rfl
    have hkept : PlansKeyed (s.db.executePlan env plan) :=
      hs.plans.update hmem hexecuting howner _ _
    refine hs.quiet hswitches (hkept.of_plans hplans) fun permit hpermit => hs.issued permit ?_
    rw [authorizations_of_plans hplans] at hpermit
    exact authorizations_keep hs.plans hmem hsame "trade_plan.executing" env.now hpermit

/-- Every allowed step keeps the invariant. -/
theorem SafetyInv.step {l : SafetySystem.Label} (hl : s.Allowed l) : SafetyInv (s.step l) := by
  cases l with
  | platformSwitch env ownerId active => exact hs.platform env ownerId active
  | accountSwitch env ownerId accountId active => exact hs.account env ownerId accountId active
  | permissions env ownerId accountId payload => exact hs.permissions env ownerId accountId payload
  | queue env ownerId planId => exact hs.queue env ownerId planId
  | manage env ownerId planId request => exact hs.manage env ownerId planId request
  | dispatch env answer ownerId commandId => exact hs.dispatch env answer ownerId commandId
  | other db => exact hs.quiet hl.1 hl.2.1 hl.2.2

/-- Under the invariant every acceptance is safe. -/
theorem SafetyInv.accepted {now : Time} {ownerId commandId : Uuid} {command : ExecutionCommand}
    {authorization : ExecutionAuthorization}
    (h : s.Accepts now ownerId commandId command authorization) :
    s.AcceptedSafely ownerId command authorization := by
  obtain ⟨row, plan, _, _, _, hplan⟩ := h
  obtain ⟨⟨planId, _, hfound⟩, hauthorization, hguard⟩ := dispatchPlan_ok hplan
  obtain ⟨hmem, _, howner⟩ := Table.get?_spec hfound
  obtain ⟨hplatform, haccount⟩ := currentKillSwitches_epoch hs.switches ownerId command.accountId
  have hstored : (ownerId, authorization) ∈ s.db.authorizations :=
    mem_authorizations.2 ⟨plan, hmem, howner, hauthorization⟩
  have hoff := currentKillSwitches_eq hs.switches ownerId command.accountId
  refine ⟨hguard.bound, hs.issued _ hstored, fun post pre hlog => ⟨?_, ?_⟩, fun r hr hholds => ?_,
    fun r hr hholds => ?_, ?_⟩
  · have hstamp : (SwitchKey.platform ownerId, authorization.platformSafetyEpoch) ∈
        stamps (ownerId, authorization) := List.mem_cons_self
    exact hs.stamped.unchanged hlog hstamp (hguard.platformEpoch.trans hplatform)
  · have hstamp : (SwitchKey.account ownerId command.accountId, authorization.accountSafetyEpoch) ∈
        stamps (ownerId, authorization) := by
      rw [hguard.account]
      exact List.mem_cons_of_mem _ List.mem_cons_self
    exact hs.stamped.unchanged hlog hstamp (hguard.accountEpoch.trans haccount)
  · have hplatformOff := hguard.platformOff
    rw [hoff, hs.switches.record hr hholds] at hplatformOff
    exact hplatformOff
  · have haccountOff := hguard.accountOff
    rw [hoff, hs.switches.record hr hholds] at haccountOff
    exact haccountOff
  · have hallowed := hguard.allowed
    unfold currentPermissions at hallowed
    dsimp only at hallowed
    split at hallowed
    case h_2 =>
      cases haction : command.action <;> rw [haction] at hallowed <;> cases hallowed
    case h_1 r hr =>
      obtain ⟨hlisted, hrowner, hkept⟩ := Table.mem_listed.1 (List.mem_of_find?_eq_some hr)
      have haccountId : r.data.accountId = command.accountId := by
        simpa using List.find?_some hr
      refine ⟨r, hlisted, ⟨hrowner, hkept, haccountId, hallowed⟩, fun r' hr' howned hrkept hsame => ?_⟩
      exact Table.listed_latest hr (Table.mem_listed.2 ⟨hr', howned, hrkept⟩) (by simpa using hsame)

end

/-- **No accepted command outlives an update of a kill switch**: in every run of switch and permission
updates, authorizations and dispatches, in any order, a command that the guard accepts at a dispatch
carries an authorization since whose issue no switch of its scope was updated; both switches are
inactive, and the stored permission allows the action. -/
theorem epochs_safe (db : Database) (hswitches : SwitchesKeyed db) (hplans : PlansKeyed db)
    (hnone : db.authorizations = []) (ls : List SafetySystem.Label)
    (hallowed : Along SafetySystem.step Allowed (.start db) ls) :
    Along SafetySystem.step Safe (.start db) ls := by
  have hstart : SafetyInv (.start db) := ⟨hswitches, hplans, stamped_nil, by simp [SafetySystem.start, hnone]⟩
  refine along_of_inv (fun s l hs hl => hs.step hl) (fun s l hs _ => ?_) hstart hallowed
  cases l with
  | dispatch env answer ownerId commandId => exact fun command authorization h => hs.accepted h
  | _ => trivial

/-! ## A stop that is taken back -/

/-- An open position's plan, with no command yet. -/
def unmanagedDatabase : Database :=
  { exitDatabase with
    tradePlans := [{ activePlanRow with data := { activePlanRow.data with authorization := none } }]
    commands := [] }

def queueAt (now : Time) (authorizationId commandId : Nat) : QueueEnv where
  now := now
  newId := .ofNat
  authorizationId := .ofNat authorizationId
  commandId := .ofNat commandId
  authorizationDigest := "d"
  loaded := none

def exitRequest : ManagementRequest where
  action := .fullExit
  postcondition := .ofList [("position_id", .str "7")]
  idempotencyKey := "management:31"
  managementActionId := .ofNat 70

/-- The platform is stopped and released, the permissions are stored again, an exit is queued and sent. -/
def stopThenExit : List SafetySystem.Label := [
  .platformSwitch ⟨101 * second, .ofNat⟩ (.ofNat 9) true,
  .platformSwitch ⟨102 * second, .ofNat⟩ (.ofNat 9) false,
  .permissions ⟨103 * second, .ofNat⟩ (.ofNat 9) (.ofNat 1) ⟨.ofNat 1, 1, false, false, false, false,
    false, true⟩,
  .manage (queueAt (104 * second) 41 31) (.ofNat 9) (.ofNat 20) exitRequest,
  .dispatch lotEnv (.responds {}) (.ofNat 9) (.ofNat 31)]

theorem epochs_safe_released :
    (run SafetySystem.step (.start unmanagedDatabase) stopThenExit).db.commands.map (·.state) =
        [.acknowledged] ∧
      Along SafetySystem.step Safe (.start unmanagedDatabase) stopThenExit := by
  refine ⟨by decide +kernel, epochs_safe unmanagedDatabase ?_ ?_ rfl stopThenExit ?_⟩
  · exact ⟨List.nodup_nil, fun _ _ hr => nomatch hr⟩
  · refine ⟨List.nodup_singleton _, fun row hrow => ?_⟩
    rw [List.mem_singleton.1 hrow]
    exact ⟨rfl, rfl⟩
  · exact ⟨trivial, trivial, trivial, trivial, trivial, trivial⟩

end Matrades

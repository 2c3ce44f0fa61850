import Matrades.Trading.Authority

/-!
# Kill switches and permissions

The endpoints of `apps/api/app/routes/automation.py` that change a kill switch or a permission profile,
one transaction each, with `update_kill_switch` and `update_permissions`. Every change of a switch
counts its safety epoch up. The records an endpoint changes are locked until it commits.
-/

namespace Matrades

open Base

/-! ## Kill switches -/

/-- The requested switch with the epoch after the previous one's. -/
def KillSwitchState.after (requested : KillSwitchState) (previous : Option KillSwitchState) :
    KillSwitchState :=
  { requested with safetyEpoch := (previous.map (·.safetyEpoch + 1)).getD 1 }

/-- `update_kill_switch`. -/
def updateKillSwitch (requested : KillSwitchState) (previous : Option KillSwitchState)
    (stepUpVerified healthVerified : Bool) : Except TaskError KillSwitchState :=
  if stepUpVerified = false then
    .error (.permissionError "kill-switch changes require step-up verification")
  else if ∃ switch ∈ previous, switch.scope ≠ requested.scope then
    .error (.valueError "kill-switch scope cannot change")
  else if requested.scope = .account ∧ requested.accountId = none then
    .error (.valueError "account kill switch requires account scope")
  else if (∃ switch ∈ previous, switch.active = true) ∧ requested.active = false ∧
      healthVerified = false then
    .error (.permissionError "kill-switch deactivation requires fresh broker/account health")
  else .ok (requested.after previous)

abbrev SwitchRow : Type := Row Uuid ResourceState KillSwitchState

/-- Releasing an active switch needs a fresh snapshot of each account. -/
def verifyHealth (now : Time) (db : Database) (ownerId : Uuid) (accounts : List Uuid)
    (previous : Option KillSwitchState) (requested : KillSwitchState) : Except TaskError Unit :=
  if (∃ switch ∈ previous, switch.active = true) ∧ requested.active = false then do
    let _ ← accounts.mapM (currentBrokerSnapshot now db ownerId)
    return ()
  else .ok ()

def Database.addKillSwitch (db : Database) (row : SwitchRow) (eventType : String) : Database :=
  { db with killSwitches := db.killSwitches ++ [row] }.audit row.ownerId eventType row.id

/-- `ResourceStore.update` of a kill switch; its state column stays. -/
def Database.updateSwitch (db : Database) (row : SwitchRow) (switch : KillSwitchState)
    (eventType : String) (now : Time) : Database :=
  { db with killSwitches := Table.revise db.killSwitches row.id switch row.state now }.audit
    row.ownerId eventType row.id

/-- Store a switch in place of the existing record, or as a new one. -/
def storeSwitch (env : Env) (ownerId : Uuid) (existing : Option SwitchRow)
    (switch : KillSwitchState) (eventType : String) : Session Unit :=
  match existing with
  | some row => Tx.modify fun db => db.updateSwitch row switch eventType env.now
  | none => do
    let db ← Tx.get
    let row := newRow env db.killSwitches ownerId .active switch
    -- the id is the primary key of the table
    Tx.require (∀ other ∈ db.killSwitches, other.id ≠ row.id) .infrastructure
    Tx.modify fun db => db.addKillSwitch row eventType

/-- The body of both endpoints: the requested switch replaces the existing record. -/
def setKillSwitch (env : Env) (ownerId : Uuid) (accounts : List Uuid) (existing : Option SwitchRow)
    (requested : KillSwitchState) (eventType : String) : Session Unit := do
  let db ← Tx.get
  let previous := existing.map (·.data)
  Tx.lift (verifyHealth env.now db ownerId accounts previous requested)
  let switch ← Tx.lift (updateKillSwitch requested previous true true)
  storeSwitch env ownerId existing switch eventType

/-- The record that the platform's endpoint finds. -/
def platformSwitch? (db : Database) (ownerId : Uuid) : Option SwitchRow :=
  db.killSwitches.find? fun r =>
    r.data.scope = .platform ∧ r.ownerId = ownerId ∧ r.state.kept = true

/-- The record that the account's endpoint finds. -/
def accountSwitch? (db : Database) (ownerId accountId : Uuid) : Option SwitchRow :=
  db.killSwitches.find? fun r => (r.data.scope = .account ∧ r.ownerId = ownerId ∧
    r.state.kept = true) ∧ r.data.accountId = some accountId

/-- `set_platform_kill_switch`. -/
def setPlatformKillSwitch (env : Env) (ownerId : Uuid) (active : Bool) : Session Unit :=
  Tx.unitOfWork do
    let db ← Tx.get
    let accounts := (Table.listed db.accounts ownerId ResourceState.kept).map (·.id)
    setKillSwitch env ownerId accounts (platformSwitch? db ownerId)
      { scope := .platform, active } "platform_kill_switch.changed"

/-- `set_account_kill_switch`. -/
def setAccountKillSwitch (env : Env) (ownerId accountId : Uuid) (active : Bool) : Session Unit :=
  Tx.unitOfWork do
    let db ← Tx.get
    setKillSwitch env ownerId [accountId] (accountSwitch? db ownerId accountId)
      { scope := .account, active, accountId := some accountId } "account_kill_switch.changed"

/-! ## Permission profiles -/

/-- `update_permissions`. -/
def updatePermissions (requested : ExecutionPermissionProfile)
    (previous : Option ExecutionPermissionProfile) (stepUpVerified : Bool) :
    Except TaskError ExecutionPermissionProfile :=
  if stepUpVerified = false then
    .error (.permissionError "execution permission changes require step-up verification")
  else if ∃ profile ∈ previous, profile.accountId ≠ requested.accountId then
    .error (.valueError "permission account scope cannot change")
  else .ok { requested with version := (previous.map (·.version + 1)).getD 1 }

/-- The record that the endpoint finds: the first one of the owner, or the last updated one of the
account. -/
def permissionRow? (db : Database) (ownerId accountId : Uuid) :
    Option (Row Uuid ResourceState ExecutionPermissionProfile) :=
  match db.permissionProfiles.find? fun r => r.ownerId = ownerId ∧ r.state.kept = true with
  | none => none
  | some row =>
    if row.data.accountId = accountId then some row
    else (Table.listed db.permissionProfiles ownerId ResourceState.kept).find? fun r =>
      r.data.accountId = accountId

def Database.storePermissions (db : Database) (env : Env) (ownerId : Uuid)
    (existing : Option (Row Uuid ResourceState ExecutionPermissionProfile))
    (profile : ExecutionPermissionProfile) : Database :=
  match existing with
  | some row =>
    { db with permissionProfiles :=
        Table.revise db.permissionProfiles row.id profile row.state env.now }.audit row.ownerId
      "execution_permission.changed" row.id
  | none =>
    let row := newRow env db.permissionProfiles ownerId .active profile
    { db with permissionProfiles := db.permissionProfiles ++ [row] }.audit ownerId
      "execution_permission.changed" row.id

/-- `set_permission_profile`. -/
def setPermissionProfile (env : Env) (ownerId accountId : Uuid)
    (payload : ExecutionPermissionProfile) : Session Unit :=
  Tx.unitOfWork do
    Tx.require (payload.accountId = accountId)
      (.httpError 422 "account_id does not match permission profile")
    let db ← Tx.get
    let existing := permissionRow? db ownerId accountId
    let profile ← Tx.lift (updatePermissions payload (existing.map (·.data)) true)
    Tx.modify fun db => db.storePermissions env ownerId existing profile

end Matrades

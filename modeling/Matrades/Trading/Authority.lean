import Matrades.Trading.Execution

/-!
# What a command needs before it is sent

The reads and checks of `_dispatch`: the fresh broker snapshot, the permissions and the kill
switches of `modules/trading/coordinator.py`, the bridge connection of
`modules/connections/resolution.py`, and the guard of `modules/trading/authority.py`. All of them
only read the database.
-/

namespace Matrades

open Base

/-! ## Current state of an account -/

def currentPermissions (db : Database) (ownerId accountId : Uuid) : ExecutionPermissionProfile :=
  let records := Table.listed db.permissionProfiles ownerId ResourceState.kept
  match records.find? fun r => r.data.accountId = accountId with
  | some r => r.data
  | none => { accountId }

/-- The kill switches of the platform and of the account, the last updated ones. -/
def currentKillSwitches (db : Database) (ownerId accountId : Uuid) :
    KillSwitchState × KillSwitchState :=
  let records := (Table.listed db.killSwitches ownerId ResourceState.kept).map (·.data)
  let platform := records.find? fun k => k.scope = .platform
  let account := records.find? fun k => k.scope = .account ∧ k.accountId = some accountId
  (platform.getD { scope := .platform },
    account.getD { scope := .account, accountId := some accountId })

/-- The age from which a broker snapshot is stale. -/
def snapshotMaxAge : Time := 30 * second

/-- `validate_snapshot` of a snapshot of the account. -/
def validateSnapshot (now : Time) (snapshot : BrokerSnapshot) : Except TaskError Unit :=
  if snapshot.observedAt + snapshotMaxAge < now then
    .error (.valueError "account snapshot is stale")
  else if snapshot.equity ≤ 0 then
    .error (.valueError "current equity must be positive")
  else .ok ()

/-- The snapshots of an account, the last updated first. -/
def accountSnapshots (db : Database) (ownerId accountId : Uuid) :
    List (Row Uuid ResourceState BrokerSnapshot) :=
  (Table.listed db.brokerSnapshots ownerId ResourceState.kept).filter
    fun r => r.data.accountId = accountId

def currentBrokerSnapshot (now : Time) (db : Database) (ownerId accountId : Uuid) :
    Except TaskError BrokerSnapshot :=
  match (accountSnapshots db ownerId accountId).head? with
  | none => .error (.permissionError "fresh broker snapshot is required")
  | some r =>
    match validateSnapshot now r.data with
    | .ok () => .ok r.data
    | .error e => .error e

/-! ## The bridge connection -/

structure ResolvedConnection where
  id : Uuid
  bridgeUrl : String
  secret : Option String

def resolveConnection (db : Database) (ownerId connectionId : Uuid) :
    Except TaskError ResolvedConnection :=
  match db.connections.find? fun r =>
      r.id = connectionId ∧ r.ownerId = ownerId ∧ r.state.kept = true with
  | none => .error (.lookupError "connection not found")
  | some connection =>
    if connection.data.active = false then .error (.runtimeError "connection is disabled")
    else match connection.data.credentialId with
      | none => .ok ⟨connection.id, connection.data.bridgeUrl, none⟩
      | some credentialId =>
        match db.credentials.find? fun r =>
            r.id = credentialId ∧ r.ownerId = ownerId ∧ r.state.kept = true with
        | none => .error (.lookupError "credential not found")
        | some credential => .ok ⟨connection.id, connection.data.bridgeUrl, some credential.data⟩

def findConnection (db : Database) (ownerId : Uuid) (provider : ConnectionProvider) :
    Except TaskError (Option ResolvedConnection) :=
  match db.connections.find? fun r => r.ownerId = ownerId ∧ r.state.kept = true ∧
      r.data.provider = provider ∧ r.data.active = true with
  | none => .ok none
  | some r =>
    match resolveConnection db ownerId r.id with
    | .ok connection => .ok (some connection)
    | .error e => .error e

/-- The connection a dispatch sends over: one with a secret. -/
def bridgeConnection (db : Database) (ownerId : Uuid) : Except TaskError ResolvedConnection :=
  match findConnection db ownerId .mt5Bridge with
  | .ok (some connection) =>
    if connection.secret.isSome then .ok connection
    else .error (.runtimeError "active MT5 Bridge connection and HMAC secret are required")
  | .ok none => .error (.runtimeError "active MT5 Bridge connection and HMAC secret are required")
  | .error e => .error e

/-! ## The guard -/

/-- The plan states in which a command of the action may be sent. -/
def allowedPlanStates : ExecutionAction → List TradePlanState
  | .placeOrder => [.authorized, .executionPending]
  | _ => [.active, .authorized, .executionPending]

/-- The entries of an entry command that must be those of its plan. -/
def expectedEntry (plan : TradePlan) : List (String × String) :=
  let construction := plan.construction
  [("instrument", construction.instrument),
    ("direction", construction.direction.value),
    ("quantity", decimalText construction.approvedSize),
    ("quantity_unit", construction.quantityUnit.value),
    ("entry", decimalText construction.entry),
    ("stop_loss", decimalText construction.stopLoss),
    ("take_profit", decimalText construction.target),
    ("max_loss_account_currency", decimalText plan.risk.snapshot.candidateTradeRisk),
    ("venue_instrument_id", construction.venueInstrumentId.str),
    ("specification_version_id", construction.specificationVersionId.str)]

/-- Does an entry command differ from its broker-sized plan? -/
def entryDiffers (command : ExecutionCommand) (plan : TradePlan) : Bool :=
  command.action = .placeOrder && plan.ticket.isSome &&
    (expectedEntry plan).any fun e => !Json.isText (command.requestedPostcondition.get? e.1) e.2

/-- `assert_command_authority`. -/
def assertCommandAuthority (now : Time) (command : ExecutionCommand)
    (authorization : ExecutionAuthorization) (plan : TradePlan)
    (permissions : ExecutionPermissionProfile) (platformKill accountKill : KillSwitchState) :
    Except TaskError Unit :=
  if command.accountId ≠ authorization.accountId ∨ command.accountId ≠ plan.accountId then
    .error (.permissionError "command, authorization, and plan account scopes differ")
  else if command.authorizationId ≠ some authorization.id then
    .error (.permissionError "command is not bound to the supplied authorization")
  else if authorization.expiresAt ≤ now ∨ (command.action = .placeOrder ∧ plan.expiresAt ≤ now) then
    .error (.permissionError "authorization or trade plan expired")
  else if plan.state ∉ allowedPlanStates command.action then
    .error (.permissionError "trade plan is not authorized")
  else if authorization.action ≠ command.action then
    .error (.permissionError "authorization does not permit the requested action")
  else if plan.risk.decision = .hardBlock then
    .error (.permissionError "hard-blocked risk result cannot execute")
  else if entryDiffers command plan then
    .error (.permissionError "entry command differs from authorized broker-sized Trade Plan")
  else if permissions.allows command.action = false then
    .error (.permissionError "action is disabled for the account")
  else if platformKill.active = true ∨ accountKill.active = true then
    .error (.permissionError "kill switch is active")
  else if authorization.platformSafetyEpoch ≠ platformKill.safetyEpoch ∨
      authorization.accountSafetyEpoch ≠ accountKill.safetyEpoch then
    .error (.permissionError "kill-switch safety epoch changed")
  else .ok ()

/-- The guard against the current permissions and kill switches. -/
def currentAuthority (now : Time) (db : Database) (ownerId : Uuid) (command : ExecutionCommand)
    (authorization : ExecutionAuthorization) (plan : TradePlan) : Except TaskError Unit :=
  let kills := currentKillSwitches db ownerId command.accountId
  assertCommandAuthority now command authorization plan
    (currentPermissions db ownerId command.accountId) kills.1 kills.2

end Matrades

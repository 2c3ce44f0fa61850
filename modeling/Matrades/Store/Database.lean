import Matrades.Base.Table
import Matrades.Base.Transaction
import Matrades.Trading.Models

/-!
# The database and its sessions

The tables of `packages/shared/store.py` that the modelled code reads or writes, one list of rows
per kind of resource, and the risk reservations, which have a table of their own. A session is a
`Tx` over the database whose effects are the calls of the broker adapter; `unitOfWork` is its
`unit_of_work`.

What a transaction takes from outside is its `Env`: the clock and the ids of the rows it creates.
-/

namespace Matrades

open Base

/-- The state column of resources that are only created and deleted. -/
inductive ResourceState
  | active | deleted | other (name : String)
  deriving DecidableEq, Repr

def ResourceState.kept : ResourceState → Bool
  | deleted => false
  | _ => true

structure AccountData where
  currency : String
  startingBalance : ℚ

/-- A rule of a prop ruleset or a guardrail. -/
structure PolicyRule where
  kind : ConstraintKind
  value : ℚ
  enforcement : Enforcement := .hard

inductive PolicyKind
  | propRuleset | guardrail
  deriving DecidableEq, Repr

structure PolicyData where
  kind : PolicyKind
  accountId : Option Uuid
  name : Option String
  rules : List PolicyRule

/-- A stored instrument specification, as far as risk evaluation reads it: what its record binds. -/
structure SpecificationData where
  specificationId : Option String := none
  venueInstrumentId : Option Uuid := none
  freshness : Option String := none
  sourceCutId : Option String := none
  provenanceSourceCutId : Option String := none
  contractMultiplier : Option ℚ := none
  tickSize : Option ℚ := none
  tickValue : Option ℚ := none
  quantityStep : Option ℚ := none
  marginRequired : Option ℚ := none
  financingCost : Option ℚ := none

inductive ConnectionProvider
  | mt5Bridge | other (name : String)
  deriving DecidableEq, Repr

structure ConnectionData where
  provider : ConnectionProvider
  active : Bool
  bridgeUrl : String
  credentialId : Option Uuid

inductive ReservationState
  | provisional | commandPending | orderWorking | partiallyFilled | openPosition | released
  | expired | active | confirmed
  deriving DecidableEq, Repr

/-- A row of `risk_reservations`. -/
structure Reservation where
  id : Uuid
  ownerId : Option Uuid
  accountId : Uuid
  tradePlanId : Option Uuid
  commandId : Option Uuid
  brokerOrderId : Option String
  brokerPositionId : Option String
  amount : ℚ
  state : ReservationState
  expiresAt : Time
  version : Nat
  reason : Option String
  splitFrom : Option Uuid
  updatedAt : Time
  deriving DecidableEq

structure AuditRecord where
  ownerId : Uuid
  eventType : String
  aggregateId : Uuid
  deriving DecidableEq

/-- A notification queued for a confirmed broker event. -/
structure ConfirmedEvent where
  ownerId : Uuid
  commandId : Uuid
  eventKind : String
  revision : Nat
  deriving DecidableEq

structure Database where
  accounts : List (Row Uuid ResourceState AccountData)
  policies : List (Row Uuid ResourceState PolicyData)
  instrumentSpecifications : List (Row Uuid ResourceState SpecificationData)
  typedInstruments : List (Row Uuid ResourceState SpecificationData)
  brokerSnapshots : List (Row Uuid ResourceState BrokerSnapshot)
  permissionProfiles : List (Row Uuid ResourceState ExecutionPermissionProfile)
  killSwitches : List (Row Uuid ResourceState KillSwitchState)
  connections : List (Row Uuid ResourceState ConnectionData)
  credentials : List (Row Uuid ResourceState String)
  tradePlans : List (Row Uuid TradePlanState TradePlan)
  commands : List (Row Uuid CommandState CommandData)
  reservations : List Reservation
  reconciliations : List (Row Uuid ReconciliationState ReconciliationRecord)
  brokerOrders : List (Row Uuid String TypedOrder)
  brokerFills : List (Row Uuid ResourceState TypedFill)
  activeTrades : List (Row Uuid ResourceState ActiveTrade)
  notifications : List ConfirmedEvent
  audits : List AuditRecord

/-- No rows. -/
def Database.empty : Database :=
  ⟨[], [], [], [], [], [], [], [], [], [], [], [], [], [], [], [], [], []⟩

/-- What the tasks and routes raise. -/
inductive TaskError
  | runtimeError (message : String)
  | permissionError (message : String)
  | valueError (message : String)
  | lookupError (message : String)
  | transitionError (message : String)
  | httpError (status : Nat) (detail : String)
  | invalidOperation
  | infrastructure
  deriving DecidableEq, Repr

/-- One call of the broker adapter. -/
structure BrokerCall where
  command : ExecutionCommand
  authorization : ExecutionAuthorization

/-- The clock and the new ids of a transaction. -/
structure Env where
  now : Time
  newId : Nat → Uuid

abbrev Session (α : Type) := Tx Database BrokerCall TaskError α

/-! ## Writing -/

namespace Database

def audit (db : Database) (ownerId : Uuid) (eventType : String) (aggregateId : Uuid) : Database :=
  { db with audits := db.audits ++ [⟨ownerId, eventType, aggregateId⟩] }

/-- `ResourceStore.update` of a command. -/
def updateCommand (db : Database) (row : Row Uuid CommandState CommandData) (data : CommandData)
    (state : CommandState) (eventType : String) (now : Time) : Database :=
  { db with commands := Table.revise db.commands row.id data state now }.audit row.ownerId eventType
    row.id

/-- `ResourceStore.update` of a trade plan. -/
def updatePlan (db : Database) (row : Row Uuid TradePlanState TradePlan) (plan : TradePlan)
    (eventType : String) (now : Time) : Database :=
  { db with tradePlans := Table.revise db.tradePlans row.id plan plan.state now }.audit row.ownerId
    eventType row.id

end Database

/-- A new row, as `ResourceStore.create` adds it. -/
def newRow {σ α : Type} (env : Env) (rows : List (Row Uuid σ α)) (ownerId : Uuid) (state : σ)
    (data : α) : Row Uuid σ α :=
  ⟨env.newId rows.length, ownerId, state, 1, data, env.now⟩

/-- The commands of an owner, the last updated first. -/
def listedCommands (db : Database) (ownerId : Uuid) : List (Row Uuid CommandState CommandData) :=
  Table.listed db.commands ownerId fun _ => true

end Matrades

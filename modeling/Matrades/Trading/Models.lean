import Matrades.Base.Json
import Matrades.Broker.Schemas
import Matrades.Risk.Models

/-!
# Plans, authorizations and commands

`modules/trading/models.py`: the trade plan with its risk result and authorization, the execution
command with its lifecycle state, and the typed broker facts a command is reconciled against. A
stored command also carries the lease of the worker that took it.
-/

namespace Matrades

open Base

structure ExecutionPermissionProfile where
  accountId : Uuid
  version : Nat := 1
  newEntry : Bool := false
  orderCancellation : Bool := false
  stopLossCreateOrModify : Bool := false
  takeProfitCreateOrModify : Bool := false
  partialClose : Bool := false
  fullExit : Bool := false

def ExecutionPermissionProfile.allows (p : ExecutionPermissionProfile) : ExecutionAction → Bool
  | .placeOrder => p.newEntry
  | .cancelOrder => p.orderCancellation
  | .setOrChangeStopLoss => p.stopLossCreateOrModify
  | .setOrChangeTakeProfit => p.takeProfitCreateOrModify
  | .partialClose => p.partialClose
  | .fullExit => p.fullExit

inductive KillSwitchScope
  | platform | account
  deriving DecidableEq, Repr

structure KillSwitchState where
  scope : KillSwitchScope
  active : Bool := false
  safetyEpoch : Nat := 0
  accountId : Option Uuid := none

structure TradeConstruction where
  instrument : String
  direction : Direction
  entry : ℚ
  stopLoss : ℚ
  /-- The first target, the protective one, and the others. -/
  target : ℚ
  laterTargets : List ℚ
  approvedSize : ℚ
  quantityUnit : QuantityUnit
  assetClass : AssetClass
  instrumentType : InstrumentType
  venueInstrumentId : Uuid
  specificationVersionId : Uuid
  futuresContractId : Option Uuid := none
  entry_pos : 0 < entry
  stopLoss_pos : 0 < stopLoss
  approvedSize_pos : 0 < approvedSize

structure ExecutionAuthorization where
  id : Uuid
  accountId : Uuid
  action : ExecutionAction
  permissionVersion : Nat
  platformSafetyEpoch : Nat
  accountSafetyEpoch : Nat
  authorizationDigest : String
  expiresAt : Time
  deriving DecidableEq

structure TradeTicket where
  accountCurrency : String
  /-- The research fraction of each target. -/
  researchFractions : List (Option ℚ)

structure ExecutionAttempt where
  attempt : Nat
  state : CommandState
  errorCode : Option String := none

structure ExecutionCommand where
  id : Uuid
  accountId : Uuid
  action : ExecutionAction
  tradePlanId : Option Uuid := none
  managementActionId : Option Uuid := none
  authorizationId : Option Uuid := none
  idempotencyKey : String
  requestedPostcondition : Dict String Json
  expectedBrokerVersion : Option String := none
  targetOrderId : Option String := none
  targetPositionId : Option String := none
  state : CommandState := .created
  outcomeCertainty : OutcomeCertainty := .none
  attempts : List ExecutionAttempt := []
  brokerOrderId : Option String := none
  version : Nat := 1

/-- The worker's claim on a leased command. -/
structure Lease where
  workerId : String
  expiresAt : Time

/-- The data of a stored command. -/
structure CommandData where
  command : ExecutionCommand
  lease : Option Lease := none
  attemptCount : Nat := 0

/-! ## Broker facts of a command -/

structure TypedOrder where
  accountId : Uuid
  commandId : Uuid
  brokerOrderId : String
  instrument : String
  direction : Option Direction
  state : String
  quantity : ℚ
  filledQuantity : ℚ
  version : Nat
  observedAt : Time
  instrumentType : Option InstrumentType
  venueInstrumentId : Option Uuid
  futuresContractId : Option Uuid
  specificationVersionId : Option Uuid
  quantityUnit : Option QuantityUnit

structure TypedFill where
  accountId : Uuid
  brokerOrderId : String
  brokerFillId : String
  quantity : ℚ
  price : ℚ
  revision : Nat
  observedAt : Time

structure TypedPosition where
  accountId : Uuid
  brokerPositionId : String
  instrument : String
  direction : Option Direction
  quantity : ℚ
  averagePrice : ℚ
  version : Nat
  observedAt : Time
  venueInstrumentId : Option Uuid
  specificationVersionId : Option Uuid

inductive ReconciliationState
  | matched | ambiguous | noEffectConfirmed | outcomeUnknown
  deriving DecidableEq, Repr

structure ReconciliationRecord where
  accountId : Uuid
  commandId : Uuid
  state : ReconciliationState
  certainty : OutcomeCertainty
  brokerOrderId : Option String := none
  brokerPositionId : Option String := none
  evidenceRefs : List String := []

structure TradePlan where
  id : Uuid
  ownerId : Uuid
  accountId : Uuid
  state : TradePlanState
  construction : TradeConstruction
  strategyVersionId : Uuid
  risk : RiskResult
  ticket : Option TradeTicket
  reservationId : Option Uuid
  authorization : Option ExecutionAuthorization
  executionCommandId : Option Uuid
  expiresAt : Time
  version : Nat

/-- An open position that a command of ours is known to have opened. -/
structure ActiveTrade where
  ownerId : Uuid
  tradePlanId : Option Uuid
  executionCommandId : Option Uuid
  brokerPosition : BrokerPosition

end Matrades

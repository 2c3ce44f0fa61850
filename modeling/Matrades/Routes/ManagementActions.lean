import Matrades.Trading.Coordinator

/-!
# Management actions

What `create_recommendation` of `apps/api/app/routes/trade_management.py` asks of an open trade, and the
route `queue_management_action` with the record it keeps of each action. The record's id is computed from
the content of the request.
-/

namespace Matrades

open Base

/-! ## Recommendations -/

inductive RecommendationAction
  | hold | moveSl | partialTp | earlyExit | fullExit
  deriving DecidableEq, Repr

/-- The command of a recommendation; HOLD has none. -/
def RecommendationAction.executionAction : RecommendationAction → Option ExecutionAction
  | hold => none
  | moveSl => some .setOrChangeStopLoss
  | partialTp => some .partialClose
  | earlyExit => some .fullExit
  | fullExit => some .fullExit

/-- `str` of a proposed value. -/
def proposedText : Option ℚ → String
  | some value => decimalText value
  | none => "None"

/-- The postcondition of a recommendation's command. -/
def recommendedPostcondition (action : ExecutionAction) (proposedValue : Option ℚ) : Dict String Json :=
  match action with
  | .setOrChangeStopLoss => .ofList [("stop_loss", .str (proposedText proposedValue))]
  | .partialClose => .ofList [("quantity", .str (proposedText proposedValue))]
  | _ => .ofList [("position_state", .str "CLOSED")]

/-! ## Actions -/

/-- The payload of `/actions`. -/
structure ManagementActionInput where
  tradePlanId : Uuid
  action : ExecutionAction
  requestedPostcondition : Dict String Json
  targetOrderId : Option String := none
  targetPositionId : Option String := none
  expectedBrokerVersion : Option String := none
  reason : String := "deterministic trade-monitor action"

/-- The data of a `management_recommendation` that an action leaves. -/
structure ManagementAction where
  tradePlanId : Uuid
  action : ExecutionAction
  reason : String
  requestedPostcondition : Dict String Json
  targetOrderId : Option String
  targetPositionId : Option String
  executionCommandId : Option Uuid := none

inductive ManagementActionState
  | queuing | queued
  deriving DecidableEq, Repr

/-- The database with the management recommendations. -/
structure ActionStore where
  db : Database
  recommendations : List (Row Uuid ManagementActionState ManagementAction)

abbrev ActionSession (α : Type) := Tx ActionStore BrokerCall TaskError α

/-- What an action takes from outside: the `uuid5` of an owner, a plan and a request, computed from the
action, the targets, the broker version and the postcondition. -/
structure ActionEnv extends QueueEnv where
  actionId : Uuid → Uuid → ManagementActionInput → Uuid

def ManagementActionInput.record (payload : ManagementActionInput) (planId : Uuid) : ManagementAction where
  tradePlanId := planId
  action := payload.action
  reason := payload.reason
  requestedPostcondition := payload.requestedPostcondition
  targetOrderId := payload.targetOrderId
  targetPositionId := payload.targetPositionId

/-- `f"management:{action_id}"`. -/
def managementKey (actionId : Uuid) : String := "management:" ++ actionId.str

def ManagementActionInput.request (payload : ManagementActionInput) (actionId : Uuid) :
    ManagementRequest where
  action := payload.action
  postcondition := payload.requestedPostcondition
  idempotencyKey := managementKey actionId
  managementActionId := actionId
  targetOrderId := payload.targetOrderId
  targetPositionId := payload.targetPositionId
  expectedBrokerVersion := payload.expectedBrokerVersion

namespace ActionStore

def withDatabase (s : ActionStore) (db : Database) : ActionStore := { s with db }

/-- `ResourceStore.create` of a recommendation. -/
def addRecommendation (s : ActionStore) (now : Time) (ownerId id : Uuid) (data : ManagementAction) :
    ActionStore where
  db := s.db.audit ownerId "trade_management.action_selected" id
  recommendations := s.recommendations ++ [⟨id, ownerId, .queuing, 1, data, now⟩]

/-- `ResourceStore.update` of the recommendation whose command is queued. -/
def queueRecommendation (s : ActionStore) (now : Time) (ownerId id : Uuid) (data : ManagementAction) :
    ActionStore where
  db := s.db.audit ownerId "trade_management.command_queued" id
  recommendations := Table.revise s.recommendations id data .queued now

end ActionStore

/-- `queue_management_action`. -/
def queueManagementAction (env : ActionEnv) (ownerId : Uuid) (payload : ManagementActionInput) :
    ActionSession (Option (Row Uuid CommandState CommandData)) :=
  Tx.unitOfWork do
    Tx.require (payload.action ≠ .placeOrder) (.httpError 422 "entry uses Trade Plans")
    let s ← Tx.get
    let plan ← Tx.orRaise (Table.get? s.db.tradePlans payload.tradePlanId ownerId)
      (.httpError 404 "Trade Plan not found")
    let actionId := env.actionId ownerId plan.data.id payload
    let data := payload.record plan.data.id
    -- the id is the primary key of the table
    Tx.require (∀ row ∈ s.recommendations, row.id ≠ actionId) .infrastructure
    Tx.modify fun s => s.addRecommendation env.now ownerId actionId data
    let command ← Tx.zoom ActionStore.db ActionStore.withDatabase
      (authorizeAndQueueManagement env.toQueueEnv ownerId plan.data (payload.request actionId))
    Tx.modify fun s => s.queueRecommendation env.now ownerId actionId
      { data with executionCommandId := command.map (·.id) }
    return command

end Matrades

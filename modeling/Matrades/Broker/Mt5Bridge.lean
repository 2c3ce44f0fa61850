import Matrades.Bridge.Commands
import Matrades.Broker.Schemas
import Matrades.Trading.Models

/-!
# The bridge client

`_dispatch_command` of `adapters/broker/mt5_bridge/client.py`: what the bridge is told about a
command. The payload is the requested postcondition; the targets of the command are not sent. And
`snapshot`, which reads the bridge's last snapshot of an account.
-/

namespace Matrades

open Base

/-- The bridge's command for an execution command. -/
def bridgeCommand (command : ExecutionCommand) (authorization : ExecutionAuthorization) :
    BridgeCommand where
  commandId := command.id
  accountId := command.accountId
  action := command.action.value
  idempotencyKey := command.idempotencyKey
  payload := command.requestedPostcondition
  authorizationId := some authorization.id
  authorizationDigest := some authorization.authorizationDigest
  expectedBrokerVersion := command.expectedBrokerVersion

/-- `_dispatch_command` up to the request. -/
def dispatchCommand (command : ExecutionCommand) (authorization : ExecutionAuthorization) :
    Except String BridgeCommand :=
  if command.accountId ≠ authorization.accountId then
    .error "command and authorization account scopes differ"
  else .ok (bridgeCommand command authorization)

/-! ## Reading snapshots -/

structure Mt5BridgeClient where
  lastSequence : Dict Uuid Int

namespace Mt5BridgeClient

def empty : Mt5BridgeClient := { lastSequence := .empty }

/-- `snapshot`, of the bridge's answer: one without the account's figures does not validate, and one
whose sequence number does not grow is a replay. -/
def snapshot (c : Mt5BridgeClient) (accountId : Uuid) :
    Option BrokerSnapshot → Except String (Mt5BridgeClient × BrokerSnapshot)
  | none => .error "realized_daily_pnl: Decimal input should be an integer, float, string or Decimal object"
  | some item =>
    if item.sequence ≤ (c.lastSequence.get? accountId).getD (-1) then .error "replayed broker message"
    else .ok ({ c with lastSequence := c.lastSequence.set accountId item.sequence }, item)

end Mt5BridgeClient

end Matrades

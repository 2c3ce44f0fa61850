import Matrades.Base.Run
import Matrades.Bridge.Advisor

/-!
# Delivery of commands to the advisor

The bridge's queue and the advisor as one system. The bridge answers a poll with the text of the
polled objects; a receipt the advisor posts settles the command at the bridge, if it arrives. The
labels hold what the environment decides: the clock, which answers and receipts arrive, what the
terminal shows and the broker answers, and when the terminal restarts.
-/

namespace Matrades

open Base

structure Delivery where
  accountId : Uuid
  queue : BridgeCommandQueue
  advisor : Advisor
  /-- The `OrderSend` calls so far, with the command id the advisor read. -/
  sends : List (List Char × TradeRequest)

namespace Delivery

/-- A fresh start: nothing sent yet. -/
def start (accountId : Uuid) (queue : BridgeCommandQueue) (globals : List (List Char)) : Delivery where
  accountId := accountId
  queue := queue
  advisor := { accountId := accountId.chars, globals, processed := [], phase := .idle }
  sends := []

inductive Label
  | enqueue (c : BridgeCommand)
  /-- The advisor polls; `delivered` says whether the answer arrives. -/
  | poll (now : Time) (delivered : Bool)
  /-- The advisor takes its next step; `delivered` says whether a receipt it posts arrives. -/
  | advance (terminal : Terminal) (answer : SendResult) (delivered : Bool)
  | restart

/-- The limit of the advisor's polls. -/
def pollLimit : Int := 10

/-- The text of a poll's answer. -/
def responseText (objects : List (Dict String Json)) : List Char :=
  Json.write (.arr (objects.map fun o => .obj o.entries))

/-- `POST /commands/receipts`: a receipt whose ids are ids. -/
def postReceipt (q : BridgeCommandQueue) (accountId : List Char) (r : AdvisorReceipt) :
    BridgeCommandQueue :=
  match Uuid.parse? r.commandId, Uuid.parse? accountId with
  | some commandId, some accountId =>
    (q.receipt ⟨commandId, accountId, String.ofList r.idempotencyKey, r.state, r.certainty,
      some r.brokerOrderId, some r.errorCode⟩).1
  | _, _ => q

def step (s : Delivery) : Label → Delivery
  | .enqueue c =>
    match enqueueCommand s.queue c with
    | .ok (q, _) => { s with queue := q }
    | .error _ => s
  | .poll now delivered =>
    match s.advisor.phase with
    | .idle =>
      let polled := pollCommands s.queue now s.accountId pollLimit
      let phase := if delivered then .scanning (responseText polled.2) else .idle
      { s with queue := polled.1, advisor := { s.advisor with phase } }
    | _ => s
  | .advance terminal answer delivered =>
    let next := s.advisor.advance terminal answer
    let queue := match next.2.posted with
      | some r => if delivered then postReceipt s.queue s.advisor.accountId r else s.queue
      | none => s.queue
    { s with advisor := next.1, sends := s.sends ++ next.2.sent.toList, queue }
  | .restart => { s with advisor := s.advisor.restart }

/-- How often `OrderSend` was called for the command id. -/
def sendsOf (s : Delivery) (commandId : List Char) : Nat :=
  (s.sends.map Prod.fst).count commandId

end Delivery

end Matrades

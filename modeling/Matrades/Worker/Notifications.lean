import Matrades.Base.Dict
import Matrades.Shared.DomainTypes

/-!
# Notifications: the outbox and the deliveries

`_drain_notification_outbox`, `drain_notification_outbox` and `_deliver_notification` of
`tasks/operations.py`, with `send_notification` of `modules/notifications/providers.py`. A drain marks
the records it has selected as published, commits, and then enqueues a delivery for each. A delivery
tries the channels one after the other and records the outcome at its end.
-/

namespace Matrades

open Base

/-! ## The outbox -/

structure OutboxRecord where
  eventType : String
  /-- The notification: `aggregate_id` of the payload. -/
  aggregateId : Uuid
  createdAt : Time
  publishedAt : Option Time := none
  attempts : ℕ := 0
  deriving DecidableEq, Repr

/-- `notification.delivery_requested` -/
def deliveryRequested : String := "notification.delivery_requested"

/-- How far a drain is, with the records it holds the locks of, or the notifications that it has still
to enqueue. -/
inductive DrainPhase
  | selected (records : List (Uuid × OutboxRecord))
  | marked (records : List (Uuid × OutboxRecord))
  | enqueueing (pending : List Uuid)
  | ended
  deriving DecidableEq, Repr

/-- The records that the drain's transaction has locked. -/
def DrainPhase.locked : DrainPhase → List Uuid
  | .selected records | .marked records => records.map Prod.fst
  | _ => []

/-- The notifications that are published and not yet enqueued by the drain. -/
def DrainPhase.pending : DrainPhase → List Uuid
  | .enqueueing pending => pending
  | _ => []

structure OutboxSystem where
  outbox : Dict Uuid OutboxRecord
  drains : Dict ℕ DrainPhase
  /-- The deliveries that were put on the queue. -/
  enqueued : List Uuid
  deriving DecidableEq

inductive OutboxLabel
  /-- A confirmed broker event commits an outbox record. -/
  | request (eventId : Uuid) (record : OutboxRecord)
  /-- A drain begins and selects. -/
  | select (drain limit : ℕ)
  | mark (drain : ℕ) (now : Time)
  | commit (drain : ℕ)
  /-- `deliver_notification.delay` -/
  | enqueue (drain : ℕ)
  /-- The worker is lost, or the queue raises. -/
  | crash (drain : ℕ)

namespace OutboxSystem

def start : OutboxSystem := ⟨.empty, .empty, []⟩

/-- The records that a drain selects: unpublished delivery requests whose lock is free, by age. -/
def selection (s : OutboxSystem) (limit : ℕ) : List (Uuid × OutboxRecord) :=
  ((s.outbox.entries.filter fun e => e.2.eventType = deliveryRequested && e.2.publishedAt.isNone &&
    s.drains.values.all fun phase => e.1 ∉ phase.locked).mergeSort
      fun a b => a.2.createdAt ≤ b.2.createdAt).take limit

/-- `record.attempts += 1; record.published_at = utc_now()` -/
def OutboxRecord.publish (record : OutboxRecord) (now : Time) : OutboxRecord :=
  { record with attempts := record.attempts + 1, publishedAt := some now }

def setPhase (s : OutboxSystem) (drain : ℕ) (phase : DrainPhase) : OutboxSystem :=
  { s with drains := s.drains.set drain phase }

/-- One step; a step that is not the drain's next does nothing. -/
def step (s : OutboxSystem) : OutboxLabel → OutboxSystem
  | .request eventId record =>
    { s with outbox := s.outbox.setDefault eventId { record with publishedAt := none } }
  | .select drain limit =>
    if (s.drains.get? drain).isSome then s else s.setPhase drain (.selected (s.selection limit))
  | .mark drain now =>
    match s.drains.get? drain with
    | some (.selected records) =>
      s.setPhase drain (.marked (records.map fun e => (e.1, OutboxRecord.publish e.2 now)))
    | _ => s
  | .commit drain =>
    match s.drains.get? drain with
    | some (.marked records) =>
      { s.setPhase drain (.enqueueing (records.map (·.2.aggregateId))) with
        outbox := records.foldl (fun outbox e => outbox.set e.1 e.2) s.outbox }
    | _ => s
  | .enqueue drain =>
    match s.drains.get? drain with
    | some (.enqueueing (id :: pending)) =>
      { s.setPhase drain (.enqueueing pending) with enqueued := s.enqueued ++ [id] }
    | _ => s
  | .crash drain => s.setPhase drain .ended

end OutboxSystem

/-! ## A delivery -/

inductive NotificationState
  | queued | delivered | degraded
  deriving DecidableEq, Repr

structure NotificationRecord where
  state : NotificationState
  title : Option String := none
  eventType : Option String := none
  message : Option String := none
  body : Option String := none
  urgency : Option String := none
  priority : Option String := none
  /-- The channel that is targeted, every channel without one. -/
  channelId : Option Uuid
  deliveredAt : Option Time := none
  receipts : List String := []
  failures : List (Uuid × String) := []
  deriving DecidableEq, Repr

structure ChannelRecord where
  active : Bool
  enabled : Bool
  provider : String
  credentialId : Option Uuid
  destination : String
  deriving DecidableEq, Repr

/-- What a delivery finds and what the world answers. -/
structure DeliveryEnv where
  /-- The flags of the owner's preferences, if there are any. -/
  preferences : Option (List (String × Bool))
  channels : Dict Uuid ChannelRecord
  /-- The secrets of the credentials, as they decrypt. -/
  credentials : Dict Uuid (Except String String)
  /-- The provider's answer to a message: its receipt or an error. -/
  answer : Uuid → Except String String
  now : Time

/-- `a or b or default` -/
def firstText (texts : List (Option String)) (default : String) : String :=
  ((texts.filterMap id).find? (· ≠ "")).getD default

def NotificationRecord.urgencyText (n : NotificationRecord) : String :=
  (firstText [n.urgency, n.priority] "NORMAL").toUpper

/-- The preferences, with the defaults of an owner without any. -/
def DeliveryEnv.preference (env : DeliveryEnv) : List (String × Bool) :=
  env.preferences.getD
    [("in_app", true), ("telegram", false), ("pushover", false), ("urgent_only_external", true)]

/-- The channel is tried: it is active and enabled, it is the one that is asked for, its provider is
wanted, and the notification is urgent enough. -/
def eligible (env : DeliveryEnv) (n : NotificationRecord) (id : Uuid) (channel : ChannelRecord) : Bool :=
  channel.active && channel.enabled && (n.channelId.all fun requested => id = requested) &&
    (env.preference.lookup channel.provider.toUpper.toLower).getD false &&
    (!(env.preference.lookup "urgent_only_external").getD true ||
      ["URGENT", "CRITICAL", "HIGH"].contains n.urgencyText)

/-- The secret of the channel's credential. -/
def channelSecret (env : DeliveryEnv) (channel : ChannelRecord) : Except String String :=
  match channel.credentialId.bind env.credentials.get? with
  | none => .error "notification credential unavailable"
  | some secret => secret

/-- What `send_notification` checks before it sends anything. -/
def checkSend (provider secret destination : String) : Except String Unit :=
  if provider.toUpper ≠ "TELEGRAM" ∧ provider.toUpper ≠ "PUSHOVER" then
    .error "unsupported notification provider"
  else if secret = "" ∨ destination = "" then
    .error "notification credentials are incomplete"
  else .ok ()

/-- What came of a channel. `failed` says whether the message was sent. -/
inductive ChannelOutcome
  | skipped
  | failed (error : String) (sent : Bool)
  | accepted (receipt : String)
  deriving DecidableEq, Repr

/-- The body of the loop over the channels. -/
def tryChannel (env : DeliveryEnv) (n : NotificationRecord) (id : Uuid) (channel : ChannelRecord) :
    ChannelOutcome :=
  if eligible env n id channel = false then .skipped
  else
    match channelSecret env channel with
    | .error e => .failed e false
    | .ok secret =>
      match checkSend channel.provider.toUpper secret channel.destination with
      | .error e => .failed e false
      | .ok () =>
        match env.answer id with
        | .error e => .failed e true
        | .ok receipt => .accepted receipt

/-- The message went to the provider. -/
def ChannelOutcome.sent : ChannelOutcome → Bool
  | .skipped => false
  | .failed _ sent => sent
  | .accepted _ => true

def ChannelOutcome.receipt? : ChannelOutcome → Option String
  | .accepted receipt => some receipt
  | _ => none

def ChannelOutcome.error? : ChannelOutcome → Option String
  | .failed error _ => some error
  | _ => none

/-- The outcomes of the channels, in their order. -/
def channelOutcomes (env : DeliveryEnv) (n : NotificationRecord) : List (Uuid × ChannelOutcome) :=
  env.channels.entries.map fun e => (e.1, tryChannel env n e.1 e.2)

/-- `_deliver_notification`: the record that it commits. -/
def deliverNotification (env : DeliveryEnv) (n : NotificationRecord) : NotificationRecord :=
  let outcomes := channelOutcomes env n
  let failures := outcomes.filterMap fun o => o.2.error?.map fun e => (o.1, String.ofList (e.toList.take 180))
  { n with
    state := if failures = [] then .delivered else .degraded
    deliveredAt := if failures = [] then some env.now else n.deliveredAt
    receipts := outcomes.filterMap (·.2.receipt?)
    failures := failures }

/-! ## Redeliveries -/

/-- A notification with the channels that have accepted it. -/
structure DeliverySystem where
  notification : NotificationRecord
  acceptedBy : List Uuid
  deriving DecidableEq

/-- A run of the task: to its end, or until the worker is lost after some of the channels. -/
structure DeliveryAttempt where
  env : DeliveryEnv
  lostAfter : Option ℕ

namespace DeliverySystem

/-- The channels that an attempt gets to, with their outcomes. -/
def reached (s : DeliverySystem) (attempt : DeliveryAttempt) : List (Uuid × ChannelOutcome) :=
  match attempt.lostAfter with
  | none => channelOutcomes attempt.env s.notification
  | some n => (channelOutcomes attempt.env s.notification).take n

/-- One delivery of the task. A task whose worker is lost is delivered again. -/
def step (s : DeliverySystem) (attempt : DeliveryAttempt) : DeliverySystem where
  notification :=
    if attempt.lostAfter = none then deliverNotification attempt.env s.notification
    else s.notification
  acceptedBy := s.acceptedBy ++
    ((s.reached attempt).filter fun o => o.2.receipt?.isSome).map Prod.fst

end DeliverySystem

end Matrades

import Matrades.Base.Codec
import Matrades.Base.Missing
import Matrades.Shared.Texts
import Matrades.Worker.Notifications

/-!
# Notifications of confirmed broker events

`queue_confirmed_broker_notifications` of `modules/notifications/service.py`: for each of the owner's
channels that is enabled a notification and, outside the app, a request to deliver it. Their ids are made
of a key by `uuid5`; here an id is the name that it is made of.
-/

namespace Matrades

open Base

inductive NotificationChannel
  | inApp | telegram | pushover
  deriving DecidableEq, Repr

namespace NotificationChannel

def text : NotificationChannel → String
  | .inApp => "IN_APP"
  | .telegram => "TELEGRAM"
  | .pushover => "PUSHOVER"

/-- The external channel of a provider. -/
def ofProvider (provider : String) : Option NotificationChannel :=
  match provider.toUpper with
  | "TELEGRAM" => some .telegram
  | "PUSHOVER" => some .pushover
  | _ => none

/-- The preference that switches the channel on. -/
def preference : NotificationChannel → String
  | .inApp => "in_app"
  | .telegram => "telegram"
  | .pushover => "pushover"

end NotificationChannel

/-- What is stored of the owner's preferences and channels, the latest change first. -/
structure NotificationSettings where
  preferences : Option (List (String × Bool))
  channels : Dict Uuid ChannelRecord

namespace NotificationSettings

def preference (settings : NotificationSettings) : List (String × Bool) :=
  settings.preferences.getD [("in_app", true), ("telegram", false), ("pushover", false)]

def inApp (settings : NotificationSettings) : Bool := (settings.preference.lookup "in_app").getD true

/-- The external channel that a record stands for, if the record is enabled. -/
def channelOf (settings : NotificationSettings) (record : ChannelRecord) : Option NotificationChannel :=
  (NotificationChannel.ofProvider record.provider).filter fun channel =>
    record.active && record.enabled && (settings.preference.lookup channel.preference).getD false

/-- The channels that are notified, in the order of the loop. -/
def targets (settings : NotificationSettings) : List (NotificationChannel × Option Uuid) :=
  (if settings.inApp then [(.inApp, none)] else []) ++
    settings.channels.entries.filterMap fun e => (settings.channelOf e.2).map (·, some e.1)

end NotificationSettings

/-- A confirmed fact of the broker. -/
structure BrokerEvent where
  commandId : Uuid
  eventKind : String
  revision : ℤ
  accountId : Uuid
  instrument : String
  quantity : Written
  price : Option Written
  stopLoss : Option Written
  takeProfit : Option Written
  strategyVersionId : Uuid
  tradePlanId : Uuid
  brokerOrderId : Option String
  /-- `observed_at or utc_now()` -/
  timestamp : Time
  deriving DecidableEq

namespace BrokerEvent

/-- What makes it the same event. -/
def identity (event : BrokerEvent) : Uuid × String × ℤ := (event.commandId, event.eventKind, event.revision)

/-- `text.title()`: each word begins with a capital. -/
def titleCase (cs : List Char) : List Char :=
  (cs.foldl (fun (acc : List Char × Bool) c =>
    (acc.1 ++ [if acc.2 then c.toLower else c.toUpper], c.isAlpha)) ([], false)).1

example : titleCase "order ACCEPTED".toList = "Order Accepted".toList := by decide

def title (event : BrokerEvent) : String :=
  String.ofList (titleCase (event.eventKind.toList.map fun c => if c = '_' then ' ' else c)) ++ ": " ++
    event.instrument

/-- `value or default` in a text. -/
def orText (value : Option Written) (default : String) : String :=
  match value with
  | some d => if d.coefficient = 0 then default else d.str
  | none => default

/-- `timestamp.isoformat()` -/
def isoformat (t : Time) : String := String.ofList ((isoInstant t).dropLast ++ "+00:00".toList)

def body (event : BrokerEvent) : String :=
  "Account " ++ event.accountId.str ++ "; order " ++
    firstText [event.brokerOrderId] "position-confirmed" ++
    "; quantity " ++ event.quantity.str ++ "; price " ++ orText event.price "pending" ++ "; Stop Loss " ++
    orText event.stopLoss "unset" ++ "; Take Profit " ++ orText event.takeProfit "unset" ++ "; strategy " ++
    event.strategyVersionId.str ++ "; observed " ++ isoformat event.timestamp ++
    "; Trade Plan /automation/trade-plans/" ++ event.tradePlanId.str ++ "."

/-- `broker:{command_id}:{event_kind}:{revision}:{channel}` -/
def dedupeKey (event : BrokerEvent) (channel : NotificationChannel) : List Char :=
  "broker:".toList ++ (event.commandId.chars ++ ':' ::
    ((event.eventKind.toList ++ ':' :: Codec.intText event.revision) ++ ':' :: channel.text.toList))

/-- The name of the notification: `{owner_id}:{dedupe_key}`. -/
def notificationId (owner : Uuid) (event : BrokerEvent) (channel : NotificationChannel) : String :=
  String.ofList (owner.chars ++ ':' :: event.dedupeKey channel)

/-- The name of the delivery request: `outbox:{dedupe_key}`. -/
def outboxId (event : BrokerEvent) (channel : NotificationChannel) : String :=
  String.ofList ("outbox:".toList ++ event.dedupeKey channel)

end BrokerEvent

/-- The stored notification. Its fields of the broker's facts are those of the event. -/
structure BrokerNotification where
  state : NotificationState
  kind : String
  urgency : String
  title : String
  body : String
  message : String
  dedupeKey : String
  channel : NotificationChannel
  channelId : Option Uuid
  event : BrokerEvent
  /-- Provider, state and time of each receipt. -/
  deliveryReceipts : List (String × NotificationState × Time)
  deriving DecidableEq

/-- The delivery request in the outbox. -/
structure DeliveryIntent where
  ownerId : Uuid
  eventType : String
  aggregateId : String
  channel : NotificationChannel
  state : NotificationState
  idempotencyKey : String
  deriving DecidableEq

structure NotificationStore where
  notifications : Dict String BrokerNotification
  outbox : Dict String DeliveryIntent

namespace NotificationStore

def empty : NotificationStore := ⟨.empty, .empty⟩

end NotificationStore

/-- The notification that is created for a channel. -/
def brokerNotification (event : BrokerEvent) (target : NotificationChannel × Option Uuid) :
    BrokerNotification where
  state := if target.1 = .inApp then .delivered else .queued
  kind := event.eventKind
  urgency := "HIGH"
  title := event.title
  body := event.body
  message := event.body
  dedupeKey := String.ofList (event.dedupeKey target.1)
  channel := target.1
  channelId := target.2
  event := event
  deliveryReceipts := if target.1 = .inApp then [("IN_APP", .delivered, event.timestamp)] else []

/-- The request to deliver it. -/
def deliveryIntent (owner : Uuid) (event : BrokerEvent) (channel : NotificationChannel) :
    DeliveryIntent where
  ownerId := owner
  eventType := deliveryRequested
  aggregateId := event.notificationId owner channel
  channel := channel
  state := .queued
  idempotencyKey := String.ofList (event.dedupeKey channel)

/-- The body of the loop, with the ids that it collects. A second row of one event id is refused by the
database. -/
def queueTarget (owner : Uuid) (event : BrokerEvent) (acc : NotificationStore × List String)
    (target : NotificationChannel × Option Uuid) : Except String (NotificationStore × List String) :=
  let id := event.notificationId owner target.1
  match acc.1.notifications.get? id with
  | some _ => .ok (acc.1, acc.2 ++ [id])
  | none =>
    let notifications := acc.1.notifications.set id (brokerNotification event target)
    if target.1 = .inApp then .ok (⟨notifications, acc.1.outbox⟩, acc.2 ++ [id])
    else
      match acc.1.outbox.get? (event.outboxId target.1) with
      | some _ => .error "IntegrityError"
      | none =>
        .ok (⟨notifications,
          acc.1.outbox.set (event.outboxId target.1) (deliveryIntent owner event target.1)⟩,
          acc.2 ++ [id])

def queueConfirmedBrokerNotifications (owner : Uuid) (settings : NotificationSettings)
    (event : BrokerEvent) (s : NotificationStore) : Except String (NotificationStore × List String) :=
  settings.targets.foldlM (queueTarget owner event) (s, [])

/-- A call, with the settings that it finds. -/
structure NotificationCall where
  settings : NotificationSettings
  event : BrokerEvent

/-- The store after a call; one that raises is rolled back. -/
def NotificationStore.step (owner : Uuid) (s : NotificationStore) (call : NotificationCall) :
    NotificationStore :=
  match queueConfirmedBrokerNotifications owner call.settings call.event s with
  | .ok (after, _) => after
  | .error _ => s

end Matrades

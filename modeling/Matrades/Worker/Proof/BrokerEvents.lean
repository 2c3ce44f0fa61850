import Matrades.Base.Run
import Matrades.Worker.BrokerNotifications

/-!
# Which channels a confirmed broker event notifies

The key of a notification names the event and the provider, not the channel. It keeps events apart
(`dedupeKey_inj`), so a new event is queued for the first enabled channel of each provider
(`queue_eq`, `added_iff`, `requested_iff`), and a repeated one for none. Every enabled channel is
notified exactly if no two of them have one provider (`every_channel_notified_iff`).
-/

namespace Matrades

open Base

namespace NotificationSettings

/-- The notification is wanted: in the app, or on an enabled channel. -/
def Wanted (settings : NotificationSettings) : Option Uuid → Prop
  | none => settings.inApp = true
  | some id => ∃ record, settings.channels.get? id = some record ∧
      (settings.channelOf record).isSome = true

/-- **No two enabled channels have one provider.** -/
def OnePerProvider (settings : NotificationSettings) : Prop :=
  ∀ id record id' record' channel, settings.channels.get? id = some record →
    settings.channels.get? id' = some record' → settings.channelOf record = some channel →
    settings.channelOf record' = some channel → id = id'

end NotificationSettings

namespace NotificationStore

/-- The notifications that a call adds, with the channel they are for. -/
def Added (before after : NotificationStore) (id : String) (channelId : Option Uuid) : Prop :=
  before.notifications.get? id = none ∧
    ∃ n, after.notifications.get? id = some n ∧ n.channelId = channelId

/-- The delivery requests that a call adds, with the channel their notification is for. -/
def Requested (before after : NotificationStore) (eventId : String) (channelId : Option Uuid) : Prop :=
  before.outbox.get? eventId = none ∧ ∃ request n, after.outbox.get? eventId = some request ∧
    after.notifications.get? request.aggregateId = some n ∧ n.channelId = channelId

/-- Each enabled channel gets one notification and one delivery request, the app one notification, and
nothing else is added or changed. -/
structure Notified (settings : NotificationSettings) (event : BrokerEvent)
    (before after : NotificationStore) : Prop where
  enabled : ∀ id, settings.Wanted (some id) → (∃! name, Added before after name (some id)) ∧
    ∃! eventId, Requested before after eventId (some id)
  inApp : settings.inApp = true → ∃! name, Added before after name none
  only : ∀ name n, before.notifications.get? name = none → after.notifications.get? name = some n →
    n.event = event ∧ settings.Wanted n.channelId
  onlyRequests : ∀ eventId, before.outbox.get? eventId = none → after.outbox.get? eventId ≠ none →
    ∃ id, Requested before after eventId (some id)
  kept : ∀ name n, before.notifications.get? name = some n → after.notifications.get? name = some n
  keptRequests : ∀ eventId request, before.outbox.get? eventId = some request →
    after.outbox.get? eventId = some request

/-- **Every enabled channel is notified once**, by this call and all that repeat it. -/
def NotifiesEvery (owner : Uuid) (settings : NotificationSettings) (event : BrokerEvent)
    (s : NotificationStore) : Prop :=
  ∃ after ids, queueConfirmedBrokerNotifications owner settings event s = .ok (after, ids) ∧
    Notified settings event s after ∧ ∀ repeated : BrokerEvent, repeated.identity = event.identity →
      queueConfirmedBrokerNotifications owner settings repeated after = .ok (after, ids)

end NotificationStore

/-! ## Keys -/

/-- A text that ends in a part without colons is cut in one way. -/
theorem split_last_colon {a b a' b' : List Char} (h : a ++ ':' :: b = a' ++ ':' :: b') (hb : ':' ∉ b)
    (hb' : ':' ∉ b') : a = a' ∧ b = b' := by
  have hreverse : b.reverse ++ ':' :: a.reverse = b'.reverse ++ ':' :: a'.reverse := by
    simpa using congrArg List.reverse h
  rcases List.append_eq_append_iff.1 hreverse with ⟨c, hleft, hright⟩ | ⟨c, hleft, hright⟩
  · cases c with
    | nil => simp_all
    | cons x c =>
      obtain ⟨rfl, -⟩ := List.cons.inj hright
      exact absurd (List.mem_reverse.1 (hleft ▸ List.mem_append_right _ List.mem_cons_self)) hb'
  · cases c with
    | nil => simp_all
    | cons x c =>
      obtain ⟨rfl, -⟩ := List.cons.inj hright
      exact absurd (List.mem_reverse.1 (hleft ▸ List.mem_append_right _ List.mem_cons_self)) hb

theorem intText_no_colon (z : ℤ) : ':' ∉ Codec.intText z := by
  intro h
  have hnumeral := List.all_eq_true.1 (Codec.numeralChar_intText z) ':' h
  revert hnumeral
  decide

theorem intText_inj {z w : ℤ} (h : Codec.intText z = Codec.intText w) : z = w := by
  have hscan := Codec.scanNumber_intText z
  rw [h, Codec.scanNumber_intText w] at hscan
  simpa using hscan.symm

namespace NotificationChannel

theorem text_no_colon (channel : NotificationChannel) : ':' ∉ channel.text.toList := by
  cases channel <;> decide

theorem text_inj {c c' : NotificationChannel} (h : c.text.toList = c'.text.toList) : c = c' := by
  cases c <;> cases c' <;> first | rfl | (revert h; decide)

theorem ofProvider_external {provider : String} {channel : NotificationChannel}
    (h : ofProvider provider = some channel) : channel ≠ .inApp := by
  unfold ofProvider at h
  split at h <;> cases h <;> decide

end NotificationChannel

namespace BrokerEvent

/-- **The key is of one event and one provider.** -/
theorem dedupeKey_inj {event event' : BrokerEvent} {c c' : NotificationChannel}
    (h : event.dedupeKey c = event'.dedupeKey c') : event.identity = event'.identity ∧ c = c' := by
  obtain ⟨hcommand, hrest⟩ := List.append_inj (List.append_cancel_left h)
    (by rw [Uuid.chars_length, Uuid.chars_length])
  obtain ⟨hkind, hchannel⟩ := split_last_colon (List.cons.inj hrest).2 c.text_no_colon
    c'.text_no_colon
  obtain ⟨hkind, hrevision⟩ := split_last_colon hkind (intText_no_colon _) (intText_no_colon _)
  have hparse : some event.commandId = some event'.commandId := by
    rw [← Uuid.parse?_chars, ← Uuid.parse?_chars, hcommand]
  unfold identity
  rw [Option.some.inj hparse, String.toList_inj.1 hkind, intText_inj hrevision]
  exact ⟨rfl, NotificationChannel.text_inj hchannel⟩

theorem dedupeKey_congr {event event' : BrokerEvent} (h : event.identity = event'.identity)
    (c : NotificationChannel) : event.dedupeKey c = event'.dedupeKey c := by
  simp only [identity, Prod.mk.injEq] at h
  unfold dedupeKey
  rw [h.1, h.2.1, h.2.2]

theorem notificationId_inj {owner : Uuid} {event event' : BrokerEvent} {c c' : NotificationChannel}
    (h : event.notificationId owner c = event'.notificationId owner c') :
    event.identity = event'.identity ∧ c = c' :=
  dedupeKey_inj (List.cons.inj (List.append_cancel_left (String.ofList_inj.1 h))).2

theorem outboxId_inj {event event' : BrokerEvent} {c c' : NotificationChannel}
    (h : event.outboxId c = event'.outboxId c') : event.identity = event'.identity ∧ c = c' :=
  dedupeKey_inj (List.append_cancel_left (String.ofList_inj.1 h))

end BrokerEvent

/-! ## What a call leaves -/

namespace NotificationStore

/-- Each request of the outbox goes with a notification outside the app. -/
def Paired (owner : Uuid) (s : NotificationStore) : Prop :=
  ∀ (event : BrokerEvent) (channel : NotificationChannel), channel ≠ .inApp →
    (s.outbox.get? (event.outboxId channel)).isSome =
      (s.notifications.get? (event.notificationId owner channel)).isSome

/-- The store with the notifications and requests of the targets that it lacks. -/
def queued (owner : Uuid) (event : BrokerEvent) (s : NotificationStore)
    (targets : List (NotificationChannel × Option Uuid)) : NotificationStore where
  notifications := s.notifications.addMissing
    (targets.map fun t => (event.notificationId owner t.1, brokerNotification event t))
  outbox := s.outbox.addMissing ((targets.filter fun t => t.1 ≠ .inApp).map fun t =>
    (event.outboxId t.1, deliveryIntent owner event t.1))

variable {owner : Uuid} {event : BrokerEvent} {s : NotificationStore}

theorem paired_empty : Paired owner empty := by
  intro event channel _
  simp [empty, Dict.empty, Dict.get?]

@[simp] theorem queued_nil : queued owner event s [] = s := rfl

theorem queued_cons (t : NotificationChannel × Option Uuid)
    (ts : List (NotificationChannel × Option Uuid)) :
    queued owner event s (t :: ts) = queued owner event (queued owner event s [t]) ts := by
  unfold queued
  by_cases h : t.1 = .inApp <;> simp [h]

/-- One target, with the requests in step with the notifications. -/
theorem queueTarget_eq (h : Paired owner s) (ids : List String)
    (t : NotificationChannel × Option Uuid) :
    queueTarget owner event (s, ids) t =
      .ok (queued owner event s [t], ids ++ [event.notificationId owner t.1]) := by
  obtain ⟨channel, channelId⟩ := t
  unfold queueTarget queued
  cases hfound : s.notifications.get? (event.notificationId owner channel) with
  | some n =>
    by_cases hinApp : channel = .inApp
    · subst hinApp
      simp [Dict.setDefault_of_some, hfound]
    · have hrequest := h event channel hinApp
      rw [hfound] at hrequest
      simp [hinApp, Dict.setDefault_of_some, hrequest, hfound]
  | none =>
    by_cases hinApp : channel = .inApp
    · subst hinApp
      simp [Dict.setDefault_of_none, hfound]
    · have hrequest := h event channel hinApp
      rw [hfound, Option.isSome_none, Option.isSome_eq_false_iff, Option.isNone_iff_eq_none] at hrequest
      simp [hinApp, Dict.setDefault_of_none, hrequest, hfound]

theorem Paired.queued_one (h : Paired owner s) (t : NotificationChannel × Option Uuid) :
    Paired owner (queued owner event s [t]) := by
  obtain ⟨target, channelId⟩ := t
  intro event' channel hexternal
  by_cases hsame : event'.identity = event.identity ∧ channel = target
  · obtain ⟨hidentity, rfl⟩ := hsame
    have hname : event'.notificationId owner channel = event.notificationId owner channel := by
      unfold BrokerEvent.notificationId
      rw [BrokerEvent.dedupeKey_congr hidentity]
    have hrequest : event'.outboxId channel = event.outboxId channel := by
      unfold BrokerEvent.outboxId
      rw [BrokerEvent.dedupeKey_congr hidentity]
    simp [queued, hname, hrequest, hexternal, Dict.get?_setDefault]
  · have hname : event'.notificationId owner channel ≠ event.notificationId owner target :=
      fun heq => hsame (BrokerEvent.notificationId_inj heq)
    have hrequest : event'.outboxId channel ≠ event.outboxId target :=
      fun heq => hsame (BrokerEvent.outboxId_inj heq)
    have hbefore := h event' channel hexternal
    by_cases hinApp : target = .inApp
    · subst hinApp
      simpa [queued, Dict.get?_setDefault_ne _ _ hname] using hbefore
    · simpa [queued, hinApp, Dict.get?_setDefault_ne _ _ hname, Dict.get?_setDefault_ne _ _ hrequest]
        using hbefore

/-- **What the loop leaves**, and that the database refuses no row. -/
theorem queueTargets_eq (ts : List (NotificationChannel × Option Uuid)) {s : NotificationStore}
    (h : Paired owner s) (ids : List String) :
    ts.foldlM (queueTarget owner event) (s, ids) =
        .ok (queued owner event s ts, ids ++ ts.map fun t => event.notificationId owner t.1) ∧
      Paired owner (queued owner event s ts) := by
  induction ts generalizing s ids with
  | nil => exact ⟨by simp [pure, Except.pure], h⟩
  | cons t ts ih =>
    obtain ⟨hloop, hpaired⟩ :=
      ih (h.queued_one t) (ids ++ [event.notificationId owner t.1])
    rw [List.append_assoc] at hloop
    rw [List.foldlM_cons, queueTarget_eq h, queued_cons t ts]
    exact ⟨hloop, hpaired⟩

theorem queue_eq (h : Paired owner s) (settings : NotificationSettings) (event : BrokerEvent) :
    queueConfirmedBrokerNotifications owner settings event s =
      .ok (queued owner event s settings.targets,
        settings.targets.map fun t => event.notificationId owner t.1) := by
  show settings.targets.foldlM _ _ = _
  rw [(queueTargets_eq settings.targets h []).1, List.nil_append]

theorem Paired.step (h : Paired owner s) (call : NotificationCall) : Paired owner (s.step owner call) := by
  unfold NotificationStore.step
  rw [queue_eq h]
  exact (queueTargets_eq call.settings.targets h []).2

/-- Nothing of the event is stored. -/
def Unqueued (owner : Uuid) (event : BrokerEvent) (s : NotificationStore) : Prop :=
  ∀ channel, s.notifications.get? (event.notificationId owner channel) = none

theorem lookup_targets {α : Type} {name : NotificationChannel → String} (hname : Function.Injective name)
    (value : NotificationChannel × Option Uuid → α) (ts : List (NotificationChannel × Option Uuid))
    (id : String) (v : α) :
    (ts.map fun t => (name t.1, value t)).lookup id = some v ↔
      ∃ channel channelId, name channel = id ∧ ts.lookup channel = some channelId ∧
        value (channel, channelId) = v := by
  induction ts with
  | nil => simp
  | cons t ts ih =>
    obtain ⟨target, targetId⟩ := t
    rw [List.map_cons, Dict.lookup_cons_ite]
    by_cases hid : id = name target
    · subst hid
      rw [if_pos rfl]
      constructor
      · intro h
        exact ⟨target, targetId, rfl, by simp, Option.some.inj h⟩
      · rintro ⟨channel, channelId, heq, hlookup, hvalue⟩
        obtain rfl := hname heq
        rw [Dict.lookup_cons_ite, if_pos rfl] at hlookup
        rw [Option.some.inj hlookup, hvalue]
    · rw [if_neg hid, ih]
      refine exists_congr fun channel => exists_congr fun channelId => and_congr_right fun heq => ?_
      rw [Dict.lookup_cons_ite, if_neg]
      rintro rfl
      exact hid heq.symm

theorem lookup_external (ts : List (NotificationChannel × Option Uuid)) (channel : NotificationChannel)
    (channelId : Option Uuid) :
    (ts.filter fun t => t.1 ≠ .inApp).lookup channel = some channelId ↔
      channel ≠ .inApp ∧ ts.lookup channel = some channelId := by
  induction ts with
  | nil => simp
  | cons t ts ih =>
    obtain ⟨target, targetId⟩ := t
    rw [List.filter_cons, Dict.lookup_cons_ite]
    by_cases htarget : target = .inApp
    · subst htarget
      simp only [ne_eq, not_true_eq_false, decide_false, Bool.false_eq_true, if_false] at ih ⊢
      rw [ih]
      refine and_congr_right fun hne => ?_
      rw [if_neg hne]
    · simp only [ne_eq, htarget, not_false_eq_true, decide_true, if_true]
      rw [Dict.lookup_cons_ite]
      by_cases heq : channel = target
      · subst heq
        simp [htarget]
      · rw [if_neg heq, if_neg heq]
        exact ih

variable {ts : List (NotificationChannel × Option Uuid)}

/-- The notifications of a new event: one for the first target of each provider. -/
theorem queued_notification_iff {id : String} {n : BrokerNotification}
    (hid : s.notifications.get? id = none) :
    (queued owner event s ts).notifications.get? id = some n ↔
      ∃ channel channelId, event.notificationId owner channel = id ∧
        ts.lookup channel = some channelId ∧ brokerNotification event (channel, channelId) = n := by
  show (Dict.addMissing _ _).get? id = some n ↔ _
  rw [Dict.get?_addMissing, hid, Option.none_or]
  exact lookup_targets (fun _ _ h => (BrokerEvent.notificationId_inj h).2) _ ts id n

theorem added_iff (hnew : Unqueued owner event s) {id : String} {channelId : Option Uuid} :
    Added s (queued owner event s ts) id channelId ↔
      ∃ channel, event.notificationId owner channel = id ∧ ts.lookup channel = some channelId := by
  constructor
  · rintro ⟨hid, n, hn, rfl⟩
    obtain ⟨channel, channelId, hname, hlookup, rfl⟩ := (queued_notification_iff hid).1 hn
    exact ⟨channel, hname, hlookup⟩
  · rintro ⟨channel, rfl, hlookup⟩
    exact ⟨hnew channel, _, (queued_notification_iff (hnew channel)).2 ⟨channel, channelId, rfl,
      hlookup, rfl⟩, rfl⟩

theorem queued_request_iff {eventId : String} {request : DeliveryIntent}
    (hid : s.outbox.get? eventId = none) :
    (queued owner event s ts).outbox.get? eventId = some request ↔
      ∃ channel channelId, event.outboxId channel = eventId ∧
        (channel ≠ .inApp ∧ ts.lookup channel = some channelId) ∧
        deliveryIntent owner event channel = request := by
  show (Dict.addMissing _ _).get? eventId = some request ↔ _
  rw [Dict.get?_addMissing, hid, Option.none_or]
  refine (lookup_targets (fun _ _ h => (BrokerEvent.outboxId_inj h).2) _ _ eventId request).trans ?_
  simp only [lookup_external]

theorem requested_iff (hpaired : Paired owner s) (hnew : Unqueued owner event s) {eventId : String}
    {channelId : Option Uuid} :
    Requested s (queued owner event s ts) eventId channelId ↔
      ∃ channel, channel ≠ .inApp ∧ event.outboxId channel = eventId ∧
        ts.lookup channel = some channelId := by
  have hnotification : ∀ channel channelId, ts.lookup channel = some channelId →
      (queued owner event s ts).notifications.get? (event.notificationId owner channel) =
        some (brokerNotification event (channel, channelId)) := fun channel channelId hlookup =>
    (queued_notification_iff (hnew channel)).2 ⟨channel, channelId, rfl, hlookup, rfl⟩
  constructor
  · rintro ⟨hid, request, n, hrequest, hn, rfl⟩
    obtain ⟨channel, channelId, hname, ⟨hexternal, hlookup⟩, rfl⟩ := (queued_request_iff hid).1 hrequest
    rw [show (deliveryIntent owner event channel).aggregateId = event.notificationId owner channel
      from rfl, hnotification channel channelId hlookup] at hn
    exact ⟨channel, hexternal, hname, by rw [← Option.some.inj hn]; exact hlookup⟩
  · rintro ⟨channel, hexternal, rfl, hlookup⟩
    have hid : s.outbox.get? (event.outboxId channel) = none := by
      have hrequest := hpaired event channel hexternal
      rwa [hnew channel, Option.isSome_none, Option.isSome_eq_false_iff, Option.isNone_iff_eq_none]
        at hrequest
    exact ⟨hid, _, _, (queued_request_iff hid).2 ⟨channel, channelId, rfl, ⟨hexternal, hlookup⟩, rfl⟩,
      hnotification channel channelId hlookup, rfl⟩

/-- **A repeated call changes nothing.** -/
theorem queued_again {repeated : BrokerEvent} (h : repeated.identity = event.identity) :
    queued owner repeated (queued owner event s ts) ts = queued owner event s ts := by
  have hname : repeated.notificationId owner = event.notificationId owner := by
    funext channel
    unfold BrokerEvent.notificationId
    rw [BrokerEvent.dedupeKey_congr h]
  have hrequest : repeated.outboxId = event.outboxId := by
    funext channel
    unfold BrokerEvent.outboxId
    rw [BrokerEvent.dedupeKey_congr h]
  apply congrArg₂ NotificationStore.mk
  · apply Dict.addMissing_again
    simp only [List.map_map, Function.comp_def, hname]
  · apply Dict.addMissing_again
    simp only [List.map_map, Function.comp_def, hrequest]

end NotificationStore

/-! ## The targets of the settings -/

namespace NotificationSettings

variable {settings : NotificationSettings}

theorem mem_targets {channel : NotificationChannel} {channelId : Option Uuid} :
    (channel, channelId) ∈ settings.targets ↔
      (settings.inApp = true ∧ channel = .inApp ∧ channelId = none) ∨
        ∃ id record, channelId = some id ∧ settings.channels.get? id = some record ∧
          settings.channelOf record = some channel := by
  unfold targets
  rw [List.mem_append, List.mem_filterMap]
  apply or_congr
  · by_cases hinApp : settings.inApp = true <;> simp [hinApp]
  · constructor
    · rintro ⟨⟨id, record⟩, hmem, htarget⟩
      obtain ⟨channel', hchannel, heq⟩ := Option.map_eq_some_iff.1 htarget
      cases heq
      exact ⟨id, record, rfl, Dict.get?_of_mem hmem, hchannel⟩
    · rintro ⟨id, record, rfl, hrecord, hchannel⟩
      exact ⟨(id, record), Dict.mem_of_lookup hrecord, by rw [hchannel]; rfl⟩

theorem channelOf_external {record : ChannelRecord} {channel : NotificationChannel}
    (h : settings.channelOf record = some channel) : channel ≠ .inApp :=
  NotificationChannel.ofProvider_external (Option.filter_eq_some_iff.1 h).1

/-- A provider with an enabled channel has a first one. -/
theorem lookup_of_mem_targets {channel : NotificationChannel} {channelId : Option Uuid}
    (h : (channel, channelId) ∈ settings.targets) :
    ∃ first, settings.targets.lookup channel = some first := by
  cases hlookup : settings.targets.lookup channel with
  | some first => exact ⟨first, rfl⟩
  | none => exact absurd (List.lookup_eq_none_iff.1 hlookup _ h) (by simp)

theorem lookup_inApp (h : settings.inApp = true) : settings.targets.lookup .inApp = some none := by
  unfold targets
  rw [if_pos h]
  rfl

/-- An enabled channel is the first of its provider, if it is the only one. -/
theorem OnePerProvider.lookup (h : settings.OnePerProvider) {id : Uuid} {record : ChannelRecord}
    {channel : NotificationChannel} (hrecord : settings.channels.get? id = some record)
    (hchannel : settings.channelOf record = some channel) :
    settings.targets.lookup channel = some (some id) := by
  obtain ⟨first, hlookup⟩ :=
    lookup_of_mem_targets (mem_targets.2 (.inr ⟨id, record, rfl, hrecord, hchannel⟩))
  rcases mem_targets.1 (Dict.mem_of_lookup hlookup) with ⟨-, hinApp, -⟩ | ⟨id', record', rfl, hrecord', h'⟩
  · exact absurd hinApp (channelOf_external hchannel)
  · rw [hlookup, h id record id' record' channel hrecord hrecord' hchannel h']

/-- The provider of a channel that is the first one of a provider. -/
theorem channelOf_of_lookup {id : Uuid} {record : ChannelRecord} {channel : NotificationChannel}
    (hlookup : settings.targets.lookup channel = some (some id))
    (hrecord : settings.channels.get? id = some record) : settings.channelOf record = some channel := by
  rcases mem_targets.1 (Dict.mem_of_lookup hlookup) with ⟨-, -, hnone⟩ | ⟨id', record', heq, hrecord', h'⟩
  · cases hnone
  · obtain rfl := Option.some.inj heq
    rw [hrecord] at hrecord'
    rw [Option.some.inj hrecord']
    exact h'

theorem wanted_of_lookup {channel : NotificationChannel} {channelId : Option Uuid}
    (h : settings.targets.lookup channel = some channelId) : settings.Wanted channelId := by
  rcases mem_targets.1 (Dict.mem_of_lookup h) with ⟨hinApp, -, rfl⟩ | ⟨id, record, rfl, hrecord, hchannel⟩
  · exact hinApp
  · exact ⟨record, hrecord, by rw [hchannel]; rfl⟩

end NotificationSettings

/-! ## Whole runs -/

namespace NotificationStore

variable {owner : Uuid} {event : BrokerEvent} {s : NotificationStore} {settings : NotificationSettings}

/-- With one channel for each provider, a new event is queued for every enabled channel. -/
theorem notified_of_onePerProvider (hpaired : Paired owner s) (hnew : Unqueued owner event s)
    (h : settings.OnePerProvider) : Notified settings event s (queued owner event s settings.targets) where
  enabled := by
    rintro id ⟨record, hrecord, henabled⟩
    obtain ⟨channel, hchannel⟩ := Option.isSome_iff_exists.1 henabled
    have hlookup := h.lookup hrecord hchannel
    refine ⟨⟨_, (added_iff hnew).2 ⟨channel, rfl, hlookup⟩, fun name hadded => ?_⟩,
      ⟨_, (requested_iff hpaired hnew).2 ⟨channel, NotificationSettings.channelOf_external hchannel, rfl,
        hlookup⟩, fun eventId hrequested => ?_⟩⟩
    · obtain ⟨channel', rfl, hlookup'⟩ := (added_iff hnew).1 hadded
      have hsame := NotificationSettings.channelOf_of_lookup hlookup' hrecord
      rw [hchannel] at hsame
      rw [Option.some.inj hsame]
    · obtain ⟨channel', -, rfl, hlookup'⟩ := (requested_iff hpaired hnew).1 hrequested
      have hsame := NotificationSettings.channelOf_of_lookup hlookup' hrecord
      rw [hchannel] at hsame
      rw [Option.some.inj hsame]
  inApp := by
    intro hinApp
    refine ⟨_, (added_iff hnew).2 ⟨.inApp, rfl, NotificationSettings.lookup_inApp hinApp⟩,
      fun name hadded => ?_⟩
    obtain ⟨channel, rfl, hlookup⟩ := (added_iff hnew).1 hadded
    rcases NotificationSettings.mem_targets.1 (Dict.mem_of_lookup hlookup) with ⟨-, rfl, -⟩ | ⟨id, -, hnone, -⟩
    · rfl
    · cases hnone
  only := by
    intro name n hbefore hafter
    obtain ⟨channel, channelId, rfl, hlookup, rfl⟩ := (queued_notification_iff hbefore).1 hafter
    exact ⟨rfl, NotificationSettings.wanted_of_lookup hlookup⟩
  onlyRequests := by
    intro eventId hbefore hafter
    obtain ⟨request, hrequest⟩ := Option.ne_none_iff_exists'.1 hafter
    obtain ⟨channel, channelId, rfl, ⟨hexternal, hlookup⟩, -⟩ := (queued_request_iff hbefore).1 hrequest
    rcases NotificationSettings.mem_targets.1 (Dict.mem_of_lookup hlookup) with ⟨-, hinApp, -⟩ | ⟨id, -, rfl, -⟩
    · exact absurd hinApp hexternal
    · exact ⟨id, (requested_iff hpaired hnew).2 ⟨channel, hexternal, rfl, hlookup⟩⟩
  kept := by
    intro name n hbefore
    show (Dict.addMissing _ _).get? name = _
    rw [Dict.get?_addMissing, hbefore, Option.some_or]
  keptRequests := by
    intro eventId request hbefore
    show (Dict.addMissing _ _).get? eventId = _
    rw [Dict.get?_addMissing, hbefore, Option.some_or]

/-- A call that notifies every enabled channel finds one for each provider. -/
theorem onePerProvider_of_notified (hnew : Unqueued owner event s)
    (h : Notified settings event s (queued owner event s settings.targets)) : settings.OnePerProvider := by
  have hfirst : ∀ id record channel, settings.channels.get? id = some record →
      settings.channelOf record = some channel → settings.targets.lookup channel = some (some id) := by
    intro id record channel hrecord hchannel
    obtain ⟨name, hadded, -⟩ := (h.enabled id ⟨record, hrecord, by rw [hchannel]; rfl⟩).1
    obtain ⟨channel', -, hlookup⟩ := (added_iff hnew).1 hadded
    have hsame := NotificationSettings.channelOf_of_lookup hlookup hrecord
    rw [hchannel] at hsame
    rw [Option.some.inj hsame]
    exact hlookup
  intro id record id' record' channel hrecord hrecord' hchannel hchannel'
  have heq := (hfirst id record channel hrecord hchannel).symm.trans
    (hfirst id' record' channel hrecord' hchannel')
  exact Option.some.inj (Option.some.inj heq)

theorem notifiesEvery_iff (hpaired : Paired owner s) (hnew : Unqueued owner event s) :
    NotifiesEvery owner settings event s ↔ settings.OnePerProvider := by
  constructor
  · rintro ⟨after, ids, hqueue, hnotified, -⟩
    rw [queue_eq hpaired] at hqueue
    cases hqueue
    exact onePerProvider_of_notified hnew hnotified
  · intro h
    have hafter : Paired owner (queued owner event s settings.targets) :=
      (queueTargets_eq settings.targets hpaired []).2
    refine ⟨_, _, queue_eq hpaired settings event, notified_of_onePerProvider hpaired hnew h,
      fun repeated hrepeated => ?_⟩
    rw [queue_eq hafter, queued_again hrepeated]
    have hname : repeated.notificationId owner = event.notificationId owner := by
      funext channel
      unfold BrokerEvent.notificationId
      rw [BrokerEvent.dedupeKey_congr hrepeated]
    rw [hname]

/-- What a call of another event leaves of a new one. -/
theorem Unqueued.step (hpaired : Paired owner s) (hnew : Unqueued owner event s) {call : NotificationCall}
    (hother : call.event.identity ≠ event.identity) : Unqueued owner event (s.step owner call) := by
  intro channel
  unfold NotificationStore.step
  rw [queue_eq hpaired]
  cases hfound : (queued owner call.event s call.settings.targets).notifications.get?
      (event.notificationId owner channel) with
  | none => rfl
  | some n =>
    obtain ⟨channel', -, hname, -, -⟩ := (queued_notification_iff (hnew channel)).1 hfound
    exact absurd (BrokerEvent.notificationId_inj hname).1 hother

/-- The store after calls of other events. -/
theorem run_unqueued (calls : List NotificationCall)
    (hother : ∀ call ∈ calls, call.event.identity ≠ event.identity) :
    Paired owner (run (step owner) empty calls) ∧ Unqueued owner event (run (step owner) empty calls) := by
  have hempty : Paired owner empty ∧ Unqueued owner event empty :=
    ⟨paired_empty, fun channel => by simp [empty, Dict.empty, Dict.get?]⟩
  exact run_inv (I := fun s => Paired owner s ∧ Unqueued owner event s)
    (fun s call h hcall => ⟨h.1.step call, h.2.step h.1 hcall⟩) hempty
    (along_of_mem hother empty)

/-- **When every enabled channel is notified**: a new event is notified once on each, after any calls for
other events, exactly if no two enabled channels have one provider. -/
theorem every_channel_notified_iff (owner : Uuid) (settings : NotificationSettings) (event : BrokerEvent)
    (calls : List NotificationCall) (hother : ∀ call ∈ calls, call.event.identity ≠ event.identity) :
    NotifiesEvery owner settings event (run (step owner) empty calls) ↔ settings.OnePerProvider := by
  obtain ⟨hpaired, hnew⟩ := run_unqueued calls hother
  exact notifiesEvery_iff hpaired hnew

end NotificationStore

namespace NotificationSettings

theorem onePerProvider_iff (settings : NotificationSettings) : settings.OnePerProvider ↔
    ∀ e ∈ settings.channels.entries, ∀ e' ∈ settings.channels.entries,
      settings.channelOf e.2 = settings.channelOf e'.2 → (settings.channelOf e.2).isSome = true →
        e.1 = e'.1 := by
  constructor
  · rintro h ⟨id, record⟩ he ⟨id', record'⟩ he' heq henabled
    obtain ⟨channel, hchannel⟩ := Option.isSome_iff_exists.1 henabled
    exact h id record id' record' channel (Dict.get?_of_mem he) (Dict.get?_of_mem he') hchannel
      (heq ▸ hchannel)
  · intro h id record id' record' channel hrecord hrecord' hchannel hchannel'
    exact h _ (Dict.mem_of_lookup hrecord) _ (Dict.mem_of_lookup hrecord')
      (hchannel.trans hchannel'.symm) (by rw [hchannel]; rfl)

instance (settings : NotificationSettings) : Decidable settings.OnePerProvider :=
  decidable_of_iff _ settings.onePerProvider_iff.symm

end NotificationSettings

namespace NotificationStore

/-- Two active channels, and the preferences for both providers. -/
def settingsOf (provider provider' : String) : NotificationSettings where
  preferences := some [("in_app", true), ("telegram", true), ("pushover", true)]
  channels := .ofList [(.ofNat 1, ⟨true, true, provider, none, "a"⟩),
    (.ofNat 2, ⟨true, true, provider', none, "b"⟩)]

def entryEvent (kind : String) (revision : ℤ) : BrokerEvent where
  commandId := .ofNat 7
  eventKind := kind
  revision := revision
  accountId := .ofNat 8
  instrument := "EURUSD"
  quantity := ⟨false, 1, 0⟩
  price := some ⟨false, 11, -1⟩
  stopLoss := some ⟨false, 1, 0⟩
  takeProfit := none
  strategyVersionId := .ofNat 9
  tradePlanId := .ofNat 10
  brokerOrderId := some "1001"
  timestamp := 1767225600 * second

/-- A complete entry, after it was notified that the order was accepted. -/
theorem every_channel_notified_iff_complete :
    NotifiesEvery (.ofNat 1) (settingsOf "TELEGRAM" "PUSHOVER") (entryEvent "trade_entry_complete" 2)
      (run (step (.ofNat 1)) empty
        [⟨settingsOf "TELEGRAM" "PUSHOVER", entryEvent "order_accepted" 1⟩]) :=
  (every_channel_notified_iff _ _ _ _ (by decide)).2 (by decide +kernel)

/-- The second of two channels of one provider is not notified. -/
theorem second_channel_unnotified : ¬NotifiesEvery (.ofNat 1) (settingsOf "TELEGRAM" "TELEGRAM")
    (entryEvent "order_accepted" 1) empty := by
  intro h
  have hstart : Paired (.ofNat 1) empty ∧ Unqueued (.ofNat 1) (entryEvent "order_accepted" 1) empty :=
    run_unqueued [] fun _ hmem => absurd hmem List.not_mem_nil
  revert h
  rw [notifiesEvery_iff hstart.1 hstart.2]
  decide +kernel

end NotificationStore

end Matrades

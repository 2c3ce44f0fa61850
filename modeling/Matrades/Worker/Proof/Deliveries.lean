import Matrades.Base.Run
import Matrades.Worker.Notifications

/-!
# What DELIVERED says, and deliveries that are repeated

A channel that is skipped leaves no failure, so a notification whose channel is gone, switched off or
not urgent enough is DELIVERED with nothing sent. A delivery sends before it records, and never looks at
what was recorded, so a repeated delivery sends again (`not_delivered_once`). The steps that keep both promises are exactly those that try the target where they
complete, and do not reach it once it has accepted (`delivered_once_iff`).
-/

namespace Matrades

open Base

namespace DeliverySystem

/-- **DELIVERED means delivered**: an attempt that completes with DELIVERED has been accepted by a
provider, and each channel that is targeted has accepted. -/
def MeansDelivered (s : DeliverySystem) (attempt : DeliveryAttempt) : Prop :=
  attempt.lostAfter = none → (s.step attempt).notification.state = .delivered →
    (∃ o ∈ s.reached attempt, o.2.receipt?.isSome = true) ∧
      ∀ o ∈ s.reached attempt, s.notification.channelId = some o.1 → o.2.receipt?.isSome = true

/-- **Delivered once**: no channel that has accepted is sent the notification again. -/
def SentOnce (s : DeliverySystem) (attempt : DeliveryAttempt) : Prop :=
  ∀ o ∈ s.reached attempt, o.2.sent = true → o.1 ∉ s.acceptedBy

/-- The target is among the channels, and is tried. -/
def TargetTried (s : DeliverySystem) (attempt : DeliveryAttempt) : Prop :=
  ∃ e ∈ attempt.env.channels.entries, s.notification.channelId = some e.1 ∧
    eligible attempt.env s.notification e.1 e.2 = true

/-- The message would go to the provider of this channel: it is tried, and its secret and destination
are in order. -/
def Sendable (env : DeliveryEnv) (n : NotificationRecord) (id : Uuid) (channel : ChannelRecord) :
    Prop :=
  eligible env n id channel = true ∧ ∃ secret, channelSecret env channel = .ok secret ∧
    checkSend channel.provider.toUpper secret channel.destination = .ok ()

/-- The channels that an attempt gets to. -/
def reachedChannels (attempt : DeliveryAttempt) : List (Uuid × ChannelRecord) :=
  match attempt.lostAfter with
  | none => attempt.env.channels.entries
  | some n => attempt.env.channels.entries.take n

/-- **The steps that keep both promises**: an attempt that completes tries the target, and none gets to
send to a channel that has accepted. -/
def Careful (s : DeliverySystem) (attempt : DeliveryAttempt) : Prop :=
  (attempt.lostAfter = none → s.TargetTried attempt) ∧
    ∀ e ∈ reachedChannels attempt, Sendable attempt.env s.notification e.1 e.2 → e.1 ∉ s.acceptedBy

section
variable {env : DeliveryEnv} {n : NotificationRecord} {id : Uuid} {channel : ChannelRecord}

theorem tryChannel_skipped (h : eligible env n id channel = false) :
    tryChannel env n id channel = .skipped := if_pos h

/-- A channel that is tried accepts or fails. -/
theorem tryChannel_eligible (h : eligible env n id channel = true) :
    (tryChannel env n id channel).error?.isSome = true ∨
      (tryChannel env n id channel).receipt?.isSome = true := by
  unfold tryChannel
  rw [if_neg (by simp [h])]
  split
  · exact .inl rfl
  · split
    · exact .inl rfl
    · split
      · exact .inl rfl
      · exact .inr rfl

theorem sent_iff : (tryChannel env n id channel).sent = true ↔ Sendable env n id channel := by
  unfold tryChannel Sendable
  by_cases h : eligible env n id channel = true
  · rw [if_neg (by simp [h])]
    cases hsecret : channelSecret env channel with
    | error e => simp [ChannelOutcome.sent, h]
    | ok secret =>
      cases hcheck : checkSend channel.provider.toUpper secret channel.destination with
      | error e => simp [ChannelOutcome.sent, h, hcheck]
      | ok u =>
        cases env.answer id <;> simp [ChannelOutcome.sent, h, hcheck]
  · rw [Bool.not_eq_true] at h
    rw [if_pos h]
    simp [ChannelOutcome.sent, h]

/-- A channel that is not the target is not tried. -/
theorem eligible_target {target : Uuid} (htarget : n.channelId = some target)
    (h : eligible env n id channel = true) : id = target := by
  unfold eligible at h
  simp only [Bool.and_eq_true, htarget, Option.all_some, decide_eq_true_eq] at h
  exact h.1.1.2

end

section
variable {s : DeliverySystem} {attempt : DeliveryAttempt}

theorem mem_reached {o : Uuid × ChannelOutcome} : o ∈ s.reached attempt ↔
    ∃ e ∈ reachedChannels attempt, (e.1, tryChannel attempt.env s.notification e.1 e.2) = o := by
  unfold reached reachedChannels channelOutcomes
  cases attempt.lostAfter with
  | none => exact List.mem_map
  | some n =>
    dsimp only
    rw [← List.map_take]
    exact List.mem_map

theorem reachedChannels_all (h : attempt.lostAfter = none) :
    reachedChannels attempt = attempt.env.channels.entries := by
  unfold reachedChannels
  rw [h]

theorem sentOnce_iff : s.SentOnce attempt ↔ ∀ e ∈ reachedChannels attempt,
    Sendable attempt.env s.notification e.1 e.2 → e.1 ∉ s.acceptedBy := by
  constructor
  · intro h e he hsend
    exact h _ (mem_reached.2 ⟨e, he, rfl⟩) (sent_iff.2 hsend)
  · intro h o ho hsent
    obtain ⟨e, he, rfl⟩ := mem_reached.1 ho
    exact h e he (sent_iff.1 hsent)

/-- A completed delivery is DELIVERED exactly if no channel failed. -/
theorem delivered_iff (hcomplete : attempt.lostAfter = none) :
    (s.step attempt).notification.state = .delivered ↔
      ∀ e ∈ attempt.env.channels.entries,
        (tryChannel attempt.env s.notification e.1 e.2).error? = none := by
  have hstate : (s.step attempt).notification.state =
      (deliverNotification attempt.env s.notification).state := by
    show (if attempt.lostAfter = none then deliverNotification attempt.env s.notification
      else s.notification).state = _
    rw [if_pos hcomplete]
  rw [hstate]
  unfold deliverNotification channelOutcomes
  dsimp only
  constructor
  · intro h e he
    split at h
    · rename_i hnone
      rw [List.filterMap_eq_nil_iff] at hnone
      simpa using hnone _ (List.mem_map_of_mem he)
    · cases h
  · intro h
    rw [if_pos]
    rw [List.filterMap_eq_nil_iff]
    intro o ho
    obtain ⟨e, he, rfl⟩ := List.mem_map.1 ho
    rw [h e he]
    rfl

/-- Without the target no channel is tried, and nothing fails. -/
theorem skips_of_not_tried {target : Uuid} (htarget : s.notification.channelId = some target)
    (hnot : ¬s.TargetTried attempt) {e : Uuid × ChannelRecord}
    (he : e ∈ attempt.env.channels.entries) :
    tryChannel attempt.env s.notification e.1 e.2 = .skipped := by
  apply tryChannel_skipped
  rw [← Bool.not_eq_true]
  intro heligible
  apply hnot
  exact ⟨e, he, by rw [htarget, eligible_target htarget heligible], heligible⟩

/-- DELIVERED means delivered exactly if the target is tried. -/
theorem meansDelivered_iff {target : Uuid} (htarget : s.notification.channelId = some target) :
    s.MeansDelivered attempt ↔ (attempt.lostAfter = none → s.TargetTried attempt) := by
  constructor
  · intro h hcomplete
    by_contra hnot
    have hdelivered : (s.step attempt).notification.state = .delivered := by
      rw [delivered_iff hcomplete]
      intro e he
      rw [skips_of_not_tried htarget hnot he]
      rfl
    obtain ⟨⟨o, ho, haccepted⟩, -⟩ := h hcomplete hdelivered
    obtain ⟨e, he, rfl⟩ := mem_reached.1 ho
    rw [reachedChannels_all hcomplete] at he
    rw [skips_of_not_tried htarget hnot he] at haccepted
    cases haccepted
  · intro h hcomplete hdelivered
    obtain ⟨e, he, hkey, heligible⟩ := h hcomplete
    have haccepted : (tryChannel attempt.env s.notification e.1 e.2).receipt?.isSome = true := by
      rcases tryChannel_eligible heligible with hfailed | haccepted
      · rw [(delivered_iff hcomplete).1 hdelivered e he] at hfailed
        cases hfailed
      · exact haccepted
    constructor
    · refine ⟨_, mem_reached.2 ⟨e, ?_, rfl⟩, haccepted⟩
      rw [reachedChannels_all hcomplete]
      exact he
    · intro o ho hother
      obtain ⟨e', he', rfl⟩ := mem_reached.1 ho
      rw [reachedChannels_all hcomplete] at he'
      have hsame : e'.1 = e.1 := Option.some.inj (hother.symm.trans hkey)
      rw [List.inj_on_of_nodup_map attempt.env.channels.nodup he' he hsame]
      exact haccepted

/-- The target is never changed. -/
theorem step_channelId : (s.step attempt).notification.channelId = s.notification.channelId := by
  show (if attempt.lostAfter = none then deliverNotification attempt.env s.notification
    else s.notification).channelId = _
  split <;> rfl

end

def telegramChannel : ChannelRecord := ⟨true, true, "TELEGRAM", some ⟨5⟩, "1234"⟩

/-- The confirmed-entry notification of a channel. -/
def entryNotification : NotificationRecord where
  state := .queued
  title := some "Entry Filled: EURUSD"
  urgency := some "HIGH"
  channelId := some ⟨4⟩

/-- Telegram is wanted, and accepts. -/
def telegramEnv (channels : Dict Uuid ChannelRecord) : DeliveryEnv where
  preferences := some [("in_app", true), ("telegram", true), ("pushover", false)]
  channels := channels
  credentials := .ofList [(⟨5⟩, .ok "110201543:AAHdqTcvCH1vGWJxfSeofSAs0K5PALDsaw")]
  answer _ := .ok "17"
  now := 0

/-- A delivery after the channel was removed. -/
def withoutChannel : DeliveryAttempt := ⟨telegramEnv .empty, none⟩

/-- A delivery that reaches the provider and then loses its worker. -/
def lostDelivery : DeliveryAttempt := ⟨telegramEnv (.ofList [(⟨4⟩, telegramChannel)]), some 1⟩

def fullDelivery : DeliveryAttempt := ⟨telegramEnv (.ofList [(⟨4⟩, telegramChannel)]), none⟩

end DeliverySystem

end Matrades

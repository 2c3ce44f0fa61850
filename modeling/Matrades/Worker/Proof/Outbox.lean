import Matrades.Base.Run
import Matrades.Worker.Notifications

/-!
# What the outbox loses

A record is published when its drain commits, and its delivery is enqueued afterwards. In between the
drain alone knows of it: a crash there loses the delivery (`crash_loses`), since no later drain selects
a published record. Without such a crash every published delivery request is enqueued, or its drain is
about to (`outbox_loses_nothing`).
-/

namespace Matrades

open Base

namespace OutboxSystem

/-- Every published delivery request is enqueued, or about to be. -/
def Covered (s : OutboxSystem) : Prop :=
  ∀ record ∈ s.outbox.values, record.eventType = deliveryRequested → record.publishedAt.isSome →
    record.aggregateId ∈ s.enqueued ∨
      ∃ drain phase, s.drains.get? drain = some phase ∧ record.aggregateId ∈ phase.pending

/-- No drain has still to enqueue a delivery. -/
def Settled (s : OutboxSystem) : Prop :=
  ∀ drain phase, s.drains.get? drain = some phase → phase.pending = []

/-- **Nothing is lost**: once no drain is between its commit and its last delivery, every published
delivery request is enqueued. -/
def NothingLost (s : OutboxSystem) : Prop :=
  s.Settled → ∀ record ∈ s.outbox.values, record.eventType = deliveryRequested →
    record.publishedAt.isSome → record.aggregateId ∈ s.enqueued

/-- **No drain crashes between its commit and its last delivery.** -/
def CrashesEarly (s : OutboxSystem) : OutboxLabel → Prop
  | .crash drain => ∀ phase ∈ s.drains.get? drain, phase.pending = []
  | _ => True

instance (s : OutboxSystem) : ∀ l, Decidable (s.CrashesEarly l)
  | .crash drain => inferInstanceAs (Decidable (∀ phase ∈ s.drains.get? drain, phase.pending = []))
  | .request .. | .select .. | .mark .. | .commit .. | .enqueue .. => inferInstanceAs (Decidable True)

theorem Covered.nothingLost {s : OutboxSystem} (h : s.Covered) : s.NothingLost := by
  intro hsettled record hmem htype hpublished
  rcases h record hmem htype hpublished with henqueued | ⟨drain, phase, hget, hpending⟩
  · exact henqueued
  · rw [hsettled drain phase hget] at hpending
    cases hpending

variable {s s' : OutboxSystem}

/-- A drain that moves on keeps what it has still to enqueue, or has enqueued it. -/
theorem Covered.setPhase (h : s.Covered) {drain : ℕ} {phase : DrainPhase}
    (houtbox : s'.outbox = s.outbox) (hdrains : s'.drains = s.drains.set drain phase)
    (hqueue : ∀ id ∈ s.enqueued, id ∈ s'.enqueued)
    (hkeep : ∀ old, s.drains.get? drain = some old → ∀ id ∈ old.pending,
      id ∈ phase.pending ∨ id ∈ s'.enqueued) : s'.Covered := by
  intro record hmem htype hpublished
  rw [houtbox] at hmem
  rcases h record hmem htype hpublished with henqueued | ⟨other, old, hget, hpending⟩
  · exact .inl (hqueue _ henqueued)
  · by_cases heq : other = drain
    · subst heq
      rcases hkeep old hget _ hpending with hnew | hdone
      · exact .inr ⟨other, phase, by rw [hdrains, Dict.get?_set_self], hnew⟩
      · exact .inl hdone
    · exact .inr ⟨other, old, by rw [hdrains, Dict.get?_set_ne _ _ heq]; exact hget, hpending⟩

/-- A new record is not published. -/
theorem Covered.request (h : s.Covered) (eventId : Uuid) (record : OutboxRecord) :
    (s.step (.request eventId record)).Covered := by
  intro record' hmem htype hpublished
  have hold : record' ∈ s.outbox.values := by
    have hmem' : record' ∈ (s.outbox.setDefault eventId { record with publishedAt := none }).values :=
      hmem
    unfold Dict.setDefault at hmem'
    split at hmem'
    · exact hmem'
    · rcases Dict.mem_values_set hmem' with rfl | hold
      · cases hpublished
      · exact hold
  exact h record' hold htype hpublished

/-- The values after setting entries are among those and the old ones. -/
theorem mem_values_foldl_set {outbox : Dict Uuid OutboxRecord}
    {records : List (Uuid × OutboxRecord)} {record : OutboxRecord}
    (h : record ∈ (records.foldl (fun outbox e => outbox.set e.1 e.2) outbox).values) :
    record ∈ outbox.values ∨ ∃ e ∈ records, e.2 = record := by
  induction records generalizing outbox with
  | nil => exact .inl h
  | cons e records ih =>
    rcases ih h with hmem | ⟨e', he', heq⟩
    · rcases Dict.mem_values_set hmem with rfl | hold
      · exact .inr ⟨e, List.mem_cons_self, rfl⟩
      · exact .inl hold
    · exact .inr ⟨e', List.mem_cons_of_mem _ he', heq⟩

/-- The records that a commit publishes are pending in its drain. -/
theorem Covered.commit (h : s.Covered) (drain : ℕ) : (s.step (.commit drain)).Covered := by
  rw [OutboxSystem.step]
  split
  · rename_i records hget
    intro record hmem htype hpublished
    have hpending : ∀ e ∈ records, e.2 = record → ∃ drain' phase,
        (s.drains.set drain (.enqueueing (records.map (·.2.aggregateId)))).get? drain' = some phase ∧
          record.aggregateId ∈ phase.pending := by
      rintro e he rfl
      exact ⟨drain, _, Dict.get?_set_self .., List.mem_map_of_mem he⟩
    rcases mem_values_foldl_set hmem with hold | ⟨e, he, heq⟩
    · rcases h record hold htype hpublished with henqueued | ⟨other, old, hother, hold⟩
      · exact .inl henqueued
      · have hne : other ≠ drain := by
          rintro rfl
          rw [hget] at hother
          cases hother
          cases hold
        refine .inr ⟨other, old, ?_, hold⟩
        show (s.drains.set drain _).get? other = some old
        rw [Dict.get?_set_ne _ _ hne]
        exact hother
    · exact .inr (hpending e he heq)
  · exact h

theorem Covered.enqueue (h : s.Covered) (drain : ℕ) : (s.step (.enqueue drain)).Covered := by
  rw [OutboxSystem.step]
  split
  · rename_i id pending hget
    refine h.setPhase rfl rfl (fun id' hid' => List.mem_append_left _ hid') fun old hold id' hid' => ?_
    rw [hget] at hold
    cases hold
    rcases List.mem_cons.1 hid' with rfl | hid'
    · exact .inr (List.mem_append_right _ List.mem_cons_self)
    · exact .inl hid'
  · exact h

/-- **A step loses nothing**, unless a drain crashes with deliveries to enqueue. -/
theorem Covered.step (h : s.Covered) {l : OutboxLabel} (hg : s.CrashesEarly l) :
    (s.step l).Covered := by
  cases l with
  | request eventId record => exact h.request eventId record
  | select drain limit =>
    rw [OutboxSystem.step]
    split
    · exact h
    · rename_i hnew
      rw [Option.not_isSome_iff_eq_none] at hnew
      refine h.setPhase rfl rfl (fun _ hid => hid) fun old hold => ?_
      rw [hnew] at hold
      cases hold
  | mark drain now =>
    rw [OutboxSystem.step]
    split
    · rename_i records hget
      refine h.setPhase rfl rfl (fun _ hid => hid) fun old hold id hid => ?_
      rw [hget] at hold
      cases hold
      cases hid
    · exact h
  | commit drain => exact h.commit drain
  | enqueue drain => exact h.enqueue drain
  | crash drain =>
    refine h.setPhase rfl rfl (fun _ hid => hid) fun old hold id hid => ?_
    rw [hg old hold] at hid
    cases hid

theorem covered_start : start.Covered := by
  intro record hmem
  cases hmem

/-- **Notification intents are not lost**, in every run in which no drain crashes between its commit and
its last delivery. -/
theorem outbox_loses_nothing {ls : List OutboxLabel} (hg : Along step CrashesEarly start ls) :
    States step (fun s => s.Covered ∧ s.NothingLost) start ls :=
  (states_of_inv (I := Covered) (fun _ _ h hg => h.step hg) covered_start hg).mono
    fun _ h => ⟨h, h.nothingLost⟩

/-! ## A crash after the commit -/

/-- A request is published by a drain, which crashes before it enqueues the delivery. -/
def crashedDrain : List OutboxLabel :=
  [.request ⟨1⟩ { eventType := deliveryRequested, aggregateId := ⟨2⟩, createdAt := 0 },
    .select 0 100, .mark 0 second, .commit 0, .crash 0, .select 1 100, .mark 1 (2 * second), .commit 1]

/-- **A crash loses the alert**: the record is published and no delivery was enqueued, and the next
drain selects nothing. -/
theorem crash_loses : ¬States step NothingLost start crashedDrain := by
  intro h
  have hdrains : (run step start crashedDrain).drains =
      Dict.ofList [(0, .ended), (1, .enqueueing [])] := by decide +kernel
  have hsettled : (run step start crashedDrain).Settled := by
    intro drain phase hget
    rw [hdrains] at hget
    rcases List.mem_cons.1 (Dict.mem_of_lookup hget) with heq | heq
    · cases heq
      rfl
    · rcases List.mem_cons.1 heq with heq | heq
      · cases heq
        rfl
      · cases heq
  have hrecord : ∃ record ∈ (run step start crashedDrain).outbox.values,
      record.eventType = deliveryRequested ∧ record.publishedAt.isSome ∧
        record.aggregateId ∉ (run step start crashedDrain).enqueued := by decide +kernel
  obtain ⟨record, hmem, htype, hpublished, hnot⟩ := hrecord
  exact hnot (h.last hsettled record hmem htype hpublished)

/-- A drain that lives enqueues the delivery. -/
theorem outbox_loses_nothing_drained :
    States step (fun s => s.Covered ∧ s.NothingLost) start
      [.request ⟨1⟩ { eventType := deliveryRequested, aggregateId := ⟨2⟩, createdAt := 0 },
        .select 0 100, .mark 0 second, .commit 0, .enqueue 0, .crash 0] := by
  exact outbox_loses_nothing (by decide +kernel)

end OutboxSystem

end Matrades

import Matrades.Base.Run
import Matrades.Bridge.Snapshot
import Matrades.Broker.Mt5Bridge
import Matrades.Routes.Proof.ReplayFilter

/-!
# The way of a snapshot

What the bridge takes, the backend's client reads, and hands to the backend's ingestion. Each of the
three refuses what it holds to be a replay: the bridge with an exception for an advisor that starts
again, the client and the ingestion without one. They agree along exactly the runs in which the sequence
numbers of an account grow and no message comes twice (`snapshots_agree_iff`).
-/

namespace Matrades

open Base EntryFlow

structure SnapshotPath where
  bridge : BridgeSnapshots
  client : Mt5BridgeClient
  db : Database

/-- A snapshot on its way, with the clocks and the owner it meets. -/
structure Sighting where
  received : Time
  env : Env
  ownerId : Uuid
  snapshot : BrokerSnapshot

namespace SnapshotPath

/-- The bridge and the client have seen nothing yet. -/
def start (db : Database) : SnapshotPath where
  bridge := .empty
  client := .empty
  db := db

/-- What becomes of a snapshot that the bridge has taken: the client reads it, and the backend ingests
what the client has read. -/
def forward (s : SnapshotPath) (bridge : BridgeSnapshots) (l : Sighting) : SnapshotPath :=
  match s.client.snapshot l.snapshot.accountId (bridge.snapshot l.snapshot.accountId) with
  | .error _ => { s with bridge := bridge }
  | .ok (client, item) =>
    { bridge := bridge, client := client, db := (ingestBrokerSnapshot l.env l.ownerId item s.db).state }

def step (s : SnapshotPath) (l : Sighting) : SnapshotPath :=
  match s.bridge.ingest l.received l.snapshot with
  | .error _ => s
  | .ok (bridge, _) => s.forward bridge l

/-- What the bridge takes, the client and the backend take. -/
def Agrees (s : SnapshotPath) (l : Sighting) : Prop :=
  ∀ bridge answer, s.bridge.ingest l.received l.snapshot = .ok (bridge, answer) →
    (∃ client, s.client.snapshot l.snapshot.accountId (bridge.snapshot l.snapshot.accountId) =
      .ok (client, l.snapshot)) ∧ TakenUp l.env l.ownerId l.snapshot s.db

/-- A snapshot that the bridge takes has a greater number than the account's last one, or one that is
not negative where it is the first; and its message is new to the backend. -/
def Ordinary (s : SnapshotPath) (l : Sighting) : Prop :=
  ∀ bridge answer, s.bridge.ingest l.received l.snapshot = .ok (bridge, answer) →
    (s.bridge.snapshot l.snapshot.accountId).elim (-1) (·.sequence) < l.snapshot.sequence ∧
    ∀ r ∈ accountSnapshots s.db l.ownerId l.snapshot.accountId,
      r.data.messageId ≠ l.snapshot.messageId

/-- The client knows the bridge's last number of every account, and no stored one is greater. -/
structure Inv (s : SnapshotPath) : Prop where
  known : ∀ accountId,
    s.client.lastSequence.get? accountId = (s.bridge.snapshot accountId).map (·.sequence)
  stored : ∀ r ∈ s.db.brokerSnapshots, ∃ last, s.bridge.snapshot r.data.accountId = some last ∧
    r.data.sequence ≤ last.sequence

theorem inv_start {db : Database} (h : db.brokerSnapshots = []) : Inv (start db) where
  known _ := rfl
  stored r hr := by
    have hnone : r ∈ db.brokerSnapshots := hr
    rw [h] at hnone
    exact absurd hnone List.not_mem_nil

section
variable {s : SnapshotPath} {l : Sighting} {bridge : BridgeSnapshots}
  {answer : BridgeSnapshots.Accepted}

/-- The bridge shows what it has taken, and of the other accounts what it has shown. -/
theorem snapshot_ingested (h : s.bridge.ingest l.received l.snapshot = .ok (bridge, answer))
    (accountId : Uuid) : bridge.snapshot accountId =
      if accountId = l.snapshot.accountId then some l.snapshot else s.bridge.snapshot accountId := by
  have hset := (BridgeSnapshots.ingest_ok h).2
  unfold BridgeSnapshots.snapshot
  rw [hset, Dict.get?_set]

/-- The client reads the snapshot exactly if its number is greater than the bridge's last one. -/
theorem client_reads (hi : Inv s)
    (h : s.bridge.ingest l.received l.snapshot = .ok (bridge, answer)) :
    s.client.snapshot l.snapshot.accountId (bridge.snapshot l.snapshot.accountId) =
      if (s.bridge.snapshot l.snapshot.accountId).elim (-1) (·.sequence) < l.snapshot.sequence then
        .ok ({ lastSequence := s.client.lastSequence.set l.snapshot.accountId l.snapshot.sequence },
          l.snapshot)
      else .error "replayed broker message" := by
  have hlast : (s.client.lastSequence.get? l.snapshot.accountId).getD (-1) =
      (s.bridge.snapshot l.snapshot.accountId).elim (-1) (·.sequence) := by
    rw [hi.known]
    cases s.bridge.snapshot l.snapshot.accountId <;> rfl
  rw [snapshot_ingested h, if_pos rfl, Mt5BridgeClient.snapshot, hlast]
  by_cases hless : (s.bridge.snapshot l.snapshot.accountId).elim (-1) (·.sequence) <
      l.snapshot.sequence
  · rw [if_pos hless, if_neg (by omega)]
  · rw [if_neg hless, if_pos (by omega)]

/-- A greater number than the bridge's last one is greater than every stored one. -/
theorem inOrder_of_greater (hi : Inv s)
    (h : (s.bridge.snapshot l.snapshot.accountId).elim (-1) (·.sequence) < l.snapshot.sequence) :
    outOfOrder l.snapshot (accountSnapshots s.db l.ownerId l.snapshot.accountId) = false := by
  cases hrows : accountSnapshots s.db l.ownerId l.snapshot.accountId with
  | nil => rfl
  | cons last rest =>
    have hmem : last ∈ accountSnapshots s.db l.ownerId l.snapshot.accountId :=
      hrows ▸ List.mem_cons_self
    obtain ⟨hlisted, haccount⟩ := List.mem_filter.1 hmem
    obtain ⟨shown, hshown, hle⟩ := hi.stored last (Table.mem_listed.1 hlisted).1
    rw [of_decide_eq_true haccount] at hshown
    rw [hshown] at h
    simp only [Option.elim_some] at h
    simp only [outOfOrder, decide_eq_false_iff_not]
    omega

theorem takesUp_iff (hi : Inv s)
    (h : (s.bridge.snapshot l.snapshot.accountId).elim (-1) (·.sequence) < l.snapshot.sequence) :
    takesUp s.db l.ownerId l.snapshot = true ↔
      ∀ r ∈ accountSnapshots s.db l.ownerId l.snapshot.accountId,
        r.data.messageId ≠ l.snapshot.messageId := by
  simp [takesUp, inOrder_of_greater hi h]

/-- **The three agree on a snapshot exactly if it is an ordinary one.** -/
theorem agrees_iff (hi : Inv s) : Agrees s l ↔ Ordinary s l := by
  refine forall_congr' fun bridge => forall_congr' fun answer => forall_congr' fun h => ?_
  rw [client_reads hi h, takenUp_iff]
  by_cases hless : (s.bridge.snapshot l.snapshot.accountId).elim (-1) (·.sequence) <
      l.snapshot.sequence
  · rw [if_pos hless, takesUp_iff hi hless]
    exact ⟨fun hagrees => ⟨hless, hagrees.2⟩, fun hnew => ⟨⟨_, rfl⟩, hnew.2⟩⟩
  · rw [if_neg hless]
    refine iff_of_false (fun hagrees => ?_) fun hordinary => hless hordinary.1
    obtain ⟨⟨client, hclient⟩, _⟩ := hagrees
    cases hclient

theorem Inv.step (hi : Inv s) (hordinary : Ordinary s l) : Inv (s.step l) := by
  rw [SnapshotPath.step]
  cases h : s.bridge.ingest l.received l.snapshot with
  | error e => exact hi
  | ok taken =>
    obtain ⟨bridge, answer⟩ := taken
    obtain ⟨hless, hnew⟩ := hordinary bridge answer h
    have hshown := snapshot_ingested h
    simp only [forward]
    rw [client_reads hi h, if_pos hless]
    refine ⟨fun accountId => ?_, fun r hr => ?_⟩
    · rw [hshown]
      show (s.client.lastSequence.set _ _).get? accountId = _
      rw [Dict.get?_set]
      split
      · rfl
      · exact hi.known accountId
    · rw [hshown]
      have hkept : r ∈ s.db.brokerSnapshots ∨ r.data = l.snapshot := by
        have htaken : takesUp s.db l.ownerId l.snapshot = true := (takesUp_iff hi hless).2 hnew
        rcases @ingest_stores l.env _ _ _ htaken with hsame | hadded
        · exact .inl (hsame ▸ hr)
        · rcases List.mem_append.1 (hadded ▸ hr) with hold | hadd
          · exact .inl hold
          · rw [List.mem_singleton.1 hadd]
            exact .inr rfl
      rcases hkept with hold | hdata
      · obtain ⟨last, hlast, hle⟩ := hi.stored r hold
        split
        · rename_i haccount
          rw [haccount] at hlast
          rw [hlast] at hless
          exact ⟨_, rfl, le_trans hle (le_of_lt hless)⟩
        · exact ⟨last, hlast, hle⟩
      · rw [hdata, if_pos rfl]
        exact ⟨_, rfl, le_refl _⟩

end

/-- **When the replay filters agree**: along exactly the runs in which the sequence numbers that the
bridge takes grow, and their messages are new. -/
theorem snapshots_agree_iff {db : Database} (h : db.brokerSnapshots = []) (ls : List Sighting) :
    Along step Agrees (start db) ls ↔ Along step Ordinary (start db) ls :=
  along_iff_of_inv (I := Inv) (fun _ _ hi hordinary => hi.step hordinary)
    (fun s l hi => agrees_iff (s := s) (l := l) hi) (inv_start h)

/-! ## A restart -/

/-- A snapshot of an account without positions. -/
def numbered (sequence : Int) (messageId : Nat) (observedAt : Time) : Sighting where
  received := observedAt
  env := ⟨observedAt, fun n => .ofNat (100 + n)⟩
  ownerId := .ofNat 9
  snapshot := {
    messageId := .ofNat messageId
    accountId := .ofNat 1
    sequence := sequence
    observedAt := observedAt
    balance := 1000
    equity := 1000
    realizedDailyPnl := 0
    accountCurrency := some "USD"
    positions := []
    orders := []
    fills := [] }

/-- Two snapshots in a row reach the backend. -/
theorem snapshots_agree_in_order :
    Along step Agrees (start .empty) [numbered 5 60 (10 * second), numbered 6 61 (20 * second)] := by
  refine (snapshots_agree_iff rfl _).2 ⟨fun _ _ _ => ⟨by decide, by decide⟩, fun _ _ _ => ⟨by decide, ?_⟩,
    trivial⟩
  decide

/-- The advisor counts from 1 again: the bridge takes its snapshot, the client does not. -/
theorem restarted_snapshot_unread :
    (((start .empty).step (numbered 5 60 (10 * second))).bridge.ingest (20 * second)
      (numbered 1 61 (20 * second)).snapshot).toOption.isSome = true ∧
    ¬Along step Agrees (start .empty) [numbered 5 60 (10 * second), numbered 1 61 (20 * second)] := by
  refine ⟨by decide, fun h => ?_⟩
  obtain ⟨_, hagrees, _⟩ := h
  obtain ⟨⟨client, hclient⟩, _⟩ := hagrees _ _ rfl
  cases hclient

end SnapshotPath

end Matrades

import Matrades.Base.KeyedInsert
import Matrades.Base.Ranked
import Matrades.Routes.Proof.ReplayFilter
import Matrades.Trading.Proof.Freshness

/-!
# Ingestions side by side

An ingestion lists the committed snapshots, checks the new one against the last updated of its account,
and inserts it; without a lock, and without a constraint on the table. What is selected afterwards is
again the last updated one. `latestRow_append` says which one that is after a commit. So the
greatest sequence number is selected, and numbers and messages stay distinct, in exactly the runs whose
commits bring a new number and a new message, and are written later than the account's latest snapshot
exactly if their number is greater (`newest_governs_iff`).
-/

namespace Matrades

open Base EntryFlow InsertSystem

abbrev SnapshotRow := Row Uuid ResourceState BrokerSnapshot

/-- What an ingestion starts from. -/
structure Arrival where
  env : Env
  ownerId : Uuid
  snapshot : BrokerSnapshot

/-- The row that an ingestion adds to the snapshots it has listed, if its checks let it. -/
def insertSnapshot (a : Arrival) (seen : List SnapshotRow) : Option (List SnapshotRow) :=
  if takesUp { Database.empty with brokerSnapshots := seen } a.ownerId a.snapshot = true then
    some [newRow a.env seen a.ownerId .active a.snapshot]
  else none

theorem insertSnapshot_some {a : Arrival} {seen new : List SnapshotRow}
    (h : insertSnapshot a seen = some new) :
    takesUp { Database.empty with brokerSnapshots := seen } a.ownerId a.snapshot = true ∧
      new = [newRow a.env seen a.ownerId .active a.snapshot] := by
  unfold insertSnapshot at h
  split at h
  · rename_i htakes
    exact ⟨htakes, (Option.some.inj h).symm⟩
  · cases h

/-- An ingestion by itself adds this row, or none. -/
theorem ingest_inserts (env : Env) (ownerId : Uuid) (snapshot : BrokerSnapshot) (db : Database) :
    (ingestBrokerSnapshot env ownerId snapshot db).state.brokerSnapshots = db.brokerSnapshots ∨
    ∃ new, insertSnapshot ⟨env, ownerId, snapshot⟩ db.brokerSnapshots = some new ∧
      (ingestBrokerSnapshot env ownerId snapshot db).state.brokerSnapshots =
        db.brokerSnapshots ++ new := by
  cases h : takesUp db ownerId snapshot with
  | false =>
    rw [(ingest_refused h).1]
    exact .inl rfl
  | true =>
    rcases @ingest_stores env _ _ _ h with hsame | hadded
    · exact .inl hsame
    · exact .inr ⟨_, if_pos h, hadded⟩

section
variable (ownerId accountId : Uuid)

/-- Is this a snapshot of the account? -/
def ofAccount (r : SnapshotRow) : Bool :=
  (r.ownerId = ownerId && r.state.kept) && r.data.accountId = accountId

/-- The row that is selected. -/
def latestRow (rows : List SnapshotRow) : Option SnapshotRow :=
  (newestFirst (·.updatedAt) (rows.filter (ofAccount ownerId accountId))).head?

def sequenceOf (r : SnapshotRow) : Option Int :=
  if ofAccount ownerId accountId r then some r.data.sequence else none

def messageOf (r : SnapshotRow) : Option Uuid :=
  if ofAccount ownerId accountId r then some r.data.messageId else none

theorem accountSnapshots_eq (db : Database) : accountSnapshots db ownerId accountId =
    newestFirst (·.updatedAt) (db.brokerSnapshots.filter (ofAccount ownerId accountId)) := by
  show (newestFirst Row.updatedAt _).filter _ = _
  rw [filter_newestFirst, List.filter_filter]
  refine congrArg _ (List.filter_congr fun r _ => ?_)
  simp [ofAccount, Bool.and_comm]

variable {ownerId accountId}

theorem authority_iff {db : Database} {snapshot : BrokerSnapshot} :
    db.Authority ownerId accountId snapshot ↔
      ∃ r, latestRow ownerId accountId db.brokerSnapshots = some r ∧ r.data = snapshot := by
  rw [Database.Authority, accountSnapshots_eq, Option.map_eq_some_iff]
  rfl

/-- The context that `authoritative_risk_context` builds shows the selected snapshot. -/
theorem context_shows {now : Time} {db : Database} {candidate : CandidateTrade}
    {context : RiskContext}
    (h : authoritativeRiskContext now db ownerId accountId candidate = .ok context) :
    ∃ account broker, db.Authority ownerId accountId broker ∧
      context = riskContext db ownerId accountId account broker candidate := by
  obtain ⟨⟨account, broker⟩, hauthority, h⟩ := ok_of_bind h
  obtain ⟨_, _, h⟩ := ok_of_bind h
  obtain ⟨row, _, hauthority⟩ := ok_of_bind hauthority
  obtain ⟨last, hlast, hauthority⟩ := ok_of_bind hauthority
  obtain ⟨_, _, hauthority⟩ := ok_of_bind hauthority
  cases hauthority
  cases h
  refine ⟨_, _, ?_, rfl⟩
  rw [Database.Authority, orError_eq_ok.1 hlast]
  rfl

theorem latestRow_mem {rows : List SnapshotRow} {r : SnapshotRow}
    (h : latestRow ownerId accountId rows = some r) :
    r ∈ rows ∧ ofAccount ownerId accountId r = true :=
  List.mem_filter.1 ((mem_newestFirst _).1 (List.mem_of_head? h))

theorem latestRow_none {rows : List SnapshotRow} (h : latestRow ownerId accountId rows = none)
    {r : SnapshotRow} (hr : r ∈ rows) : ofAccount ownerId accountId r ≠ true := by
  intro hof
  have hmem : r ∈ newestFirst Row.updatedAt (rows.filter (ofAccount ownerId accountId)) :=
    (mem_newestFirst _).2 (List.mem_filter.2 ⟨hr, hof⟩)
  have hnil : newestFirst Row.updatedAt (rows.filter (ofAccount ownerId accountId)) = [] :=
    List.head?_eq_none_iff.1 h
  rw [hnil] at hmem
  cases hmem

/-- **The row selected after a snapshot of the account is added.** -/
theorem latestRow_append {r : SnapshotRow} (h : ofAccount ownerId accountId r = true)
    (rows : List SnapshotRow) : latestRow ownerId accountId (rows ++ [r]) =
      some ((latestRow ownerId accountId rows).elim r fun last =>
        if last.updatedAt < r.updatedAt then r else last) := by
  unfold latestRow
  rw [List.filter_append, List.filter_cons, if_pos h]
  exact head?_newestFirst_append _ _ _

theorem latestRow_other {r : SnapshotRow} (h : ofAccount ownerId accountId r = false)
    (rows : List SnapshotRow) :
    latestRow ownerId accountId (rows ++ [r]) = latestRow ownerId accountId rows := by
  unfold latestRow
  rw [List.filter_append, List.filter_cons, if_neg (by rw [h]; exact Bool.false_ne_true)]
  simp

end

/-! ## Which snapshot governs -/

section
variable {τ : Type} [DecidableEq τ] (ownerId accountId : Uuid)

/-- The number of the row is the greatest of the account's. -/
def Greatest (rows : List SnapshotRow) (last : SnapshotRow) : Prop :=
  ∀ r ∈ rows, ofAccount ownerId accountId r = true → r.data.sequence ≤ last.data.sequence

/-- The selected snapshot has the greatest number, and no two have the same number or message. -/
structure Governs (s : InsertSystem τ Arrival SnapshotRow) : Prop where
  selected : ∀ db : Database, db.brokerSnapshots = s.rows → ∀ snapshot,
    db.Authority ownerId accountId snapshot →
      ∀ r ∈ s.rows, ofAccount ownerId accountId r = true → r.data.sequence ≤ snapshot.sequence
  sequences : s.Distinct (sequenceOf ownerId accountId)
  messages : s.Distinct (messageOf ownerId accountId)

/-- A snapshot that is committed was written later than the account's latest one exactly if its number
is greater. -/
def WrittenInOrder (s : InsertSystem τ Arrival SnapshotRow) : Label τ Arrival → Prop
  | .commit t => ∀ r ∈ (s.phase t).new, ofAccount ownerId accountId r = true →
      ∀ last ∈ latestRow ownerId accountId s.rows,
        (last.data.sequence < r.data.sequence ↔ last.updatedAt < r.updatedAt)
  | _ => True

instance (s : InsertSystem τ Arrival SnapshotRow) : ∀ l, Decidable (WrittenInOrder ownerId accountId s l)
  | .commit t => inferInstanceAs (Decidable (∀ r ∈ (s.phase t).new,
      ofAccount ownerId accountId r = true → ∀ last ∈ latestRow ownerId accountId s.rows,
        (last.data.sequence < r.data.sequence ↔ last.updatedAt < r.updatedAt)))
  | .read .. | .abort _ => inferInstanceAs (Decidable True)

/-- A commit brings a new number and a new message, and is written in order. -/
def CommitsInOrder (s : InsertSystem τ Arrival SnapshotRow) (l : Label τ Arrival) : Prop :=
  s.Absent (sequenceOf ownerId accountId) l ∧ s.Absent (messageOf ownerId accountId) l ∧
    WrittenInOrder ownerId accountId s l

variable {ownerId accountId} {s : InsertSystem τ Arrival SnapshotRow}

omit [DecidableEq τ] in
theorem selected_iff {rows : List SnapshotRow} :
    (∀ db : Database, db.brokerSnapshots = rows → ∀ snapshot,
      db.Authority ownerId accountId snapshot → ∀ r ∈ rows, ofAccount ownerId accountId r = true →
        r.data.sequence ≤ snapshot.sequence) ↔
    ∀ last, latestRow ownerId accountId rows = some last → Greatest ownerId accountId rows last := by
  constructor
  · intro h last hlast
    exact h { Database.empty with brokerSnapshots := rows } rfl _ (authority_iff.2 ⟨last, hlast, rfl⟩)
  · intro h db hdb snapshot hselected
    obtain ⟨last, hlast, rfl⟩ := authority_iff.1 hselected
    exact h last (hdb ▸ hlast)

theorem insert_makesDistinct {κ : Type} (key : SnapshotRow → Option κ) :
    MakesDistinct key insertSnapshot := by
  intro a seen new h
  rw [(insertSnapshot_some h).2]
  cases hkey : key (newRow a.env seen a.ownerId .active a.snapshot) <;> simp [hkey]

omit [DecidableEq τ] in
theorem greatest_append {rows : List SnapshotRow} {r last : SnapshotRow}
    (hr : ofAccount ownerId accountId r = true) : Greatest ownerId accountId (rows ++ [r]) last ↔
      Greatest ownerId accountId rows last ∧ r.data.sequence ≤ last.data.sequence := by
  constructor
  · intro h
    exact ⟨fun r' hr' => h r' (List.mem_append_left _ hr'), h r (by simp) hr⟩
  · rintro ⟨hold, hnew⟩ r' hr' hof
    rcases List.mem_append.1 hr' with hr' | hr'
    · exact hold r' hr' hof
    · rw [List.mem_singleton.1 hr']
      exact hnew

/-- With a new number, the greatest one stays selected exactly if the addition is written in order. -/
theorem greatest_append_iff {rows : List SnapshotRow} {r : SnapshotRow}
    (hr : ofAccount ownerId accountId r = true)
    (hgreatest : ∀ last, latestRow ownerId accountId rows = some last →
      Greatest ownerId accountId rows last)
    (habsent : ∀ r' ∈ rows, ofAccount ownerId accountId r' = true →
      r'.data.sequence ≠ r.data.sequence) :
    (∀ last, latestRow ownerId accountId (rows ++ [r]) = some last →
      Greatest ownerId accountId (rows ++ [r]) last) ↔
    ∀ last ∈ latestRow ownerId accountId rows,
      (last.data.sequence < r.data.sequence ↔ last.updatedAt < r.updatedAt) := by
  rw [latestRow_append hr]
  cases hlast : latestRow ownerId accountId rows with
  | none =>
    -- the account has no row yet
    refine iff_of_true (fun last h => ?_) fun last h => by cases h
    cases h
    refine (greatest_append hr).2 ⟨fun r' hr' hof => ?_, le_refl _⟩
    exact absurd hof (latestRow_none hlast hr')
  | some last =>
    have hmax := hgreatest last hlast
    obtain ⟨hmem, hof⟩ := latestRow_mem hlast
    have hne : last.data.sequence ≠ r.data.sequence := habsent last hmem hof
    have hnext : (∀ l, some ((some last).elim r fun last =>
          if last.updatedAt < r.updatedAt then r else last) = some l →
        Greatest ownerId accountId (rows ++ [r]) l) ↔
        Greatest ownerId accountId (rows ++ [r]) (if last.updatedAt < r.updatedAt then r else last) := by
      simp
    have hsame : (∀ l ∈ some last, (l.data.sequence < r.data.sequence ↔ l.updatedAt < r.updatedAt)) ↔
        (last.data.sequence < r.data.sequence ↔ last.updatedAt < r.updatedAt) := by
      simp
    rw [hnext, hsame, greatest_append hr]
    by_cases htime : last.updatedAt < r.updatedAt
    · rw [if_pos htime]
      constructor
      · rintro ⟨hall, _⟩
        have hle := hall last hmem hof
        exact iff_of_true (by omega) htime
      · intro h
        have hless := h.2 htime
        exact ⟨fun r' hr' hof' => le_trans (hmax r' hr' hof') (le_of_lt hless), le_refl _⟩
    · rw [if_neg htime]
      constructor
      · rintro ⟨_, hle⟩
        exact iff_of_false (by omega) htime
      · intro h
        exact ⟨hmax, not_lt.1 fun hless => htime (h.1 hless)⟩

/-- The keys of the account's rows. -/
theorem mem_sequences {rows : List SnapshotRow} {n : Int} :
    n ∈ rows.filterMap (sequenceOf ownerId accountId) ↔
      ∃ r ∈ rows, ofAccount ownerId accountId r = true ∧ r.data.sequence = n := by
  simp [sequenceOf, List.mem_filterMap]

/-- A step whose commit brings a new number keeps the greatest one selected exactly if it is written in order. -/
theorem selected_step_iff (hsound : Sound insertSnapshot s)
    (hgreatest : ∀ last, latestRow ownerId accountId s.rows = some last →
      Greatest ownerId accountId s.rows last) (l : Label τ Arrival)
    (habsent : s.Absent (sequenceOf ownerId accountId) l) :
    (∀ last, latestRow ownerId accountId (s.step insertSnapshot l).rows = some last →
      Greatest ownerId accountId (s.step insertSnapshot l).rows last) ↔
    WrittenInOrder ownerId accountId s l := by
  cases l with
  | read t a =>
    refine iff_of_true ?_ trivial
    rw [InsertSystem.step]
    split
    · split <;> exact hgreatest
    · exact hgreatest
  | abort t => exact iff_of_true hgreatest trivial
  | commit t =>
    rw [InsertSystem.step, WrittenInOrder]
    change ∀ k ∈ (s.phase t).new.filterMap (sequenceOf ownerId accountId), _ at habsent
    cases hphase : s.phase t with
    | fresh => exact iff_of_true hgreatest fun r hr => by cases hr
    | ended => exact iff_of_true hgreatest fun r hr => by cases hr
    | decided a seen new =>
      obtain ⟨_, hnew⟩ := insertSnapshot_some (hsound t a seen new hphase).1
      rw [hphase, InsertPhase.new, hnew] at habsent
      simp only [InsertPhase.new, hnew]
      generalize newRow a.env seen a.ownerId .active a.snapshot = r at habsent
      show (∀ last, latestRow ownerId accountId (s.rows ++ [r]) = some last →
        Greatest ownerId accountId (s.rows ++ [r]) last) ↔ ∀ r' ∈ [r], _
      rw [List.forall_mem_singleton]
      cases hof : ofAccount ownerId accountId r with
      | false =>
        rw [latestRow_other hof]
        refine iff_of_true (fun last hlast r' hr' hof' => ?_) fun h => by cases h
        rcases List.mem_append.1 hr' with hr' | hr'
        · exact hgreatest last hlast r' hr' hof'
        · rw [List.mem_singleton.1 hr', hof] at hof'
          cases hof'
      | true =>
        rw [greatest_append_iff hof hgreatest, forall_prop_of_true rfl]
        intro r' hr' hof' heq
        refine habsent r.data.sequence ?_ (mem_sequences.2 ⟨r', hr', hof', heq⟩)
        exact mem_sequences.2 ⟨r, List.mem_singleton_self r, hof, rfl⟩

theorem governs_step_iff (hsound : Sound insertSnapshot s) (h : Governs ownerId accountId s)
    (l : Label τ Arrival) : Governs ownerId accountId (s.step insertSnapshot l) ↔
      CommitsInOrder ownerId accountId s l := by
  have hsequences := distinct_step_iff (insert_makesDistinct _) hsound h.sequences l
  have hmessages := distinct_step_iff (insert_makesDistinct _) hsound h.messages l
  have hselected := selected_step_iff hsound (selected_iff.1 h.selected) l
  constructor
  · intro hnext
    have habsent := hsequences.1 hnext.sequences
    exact ⟨habsent, hmessages.1 hnext.messages,
      (hselected habsent).1 (selected_iff.1 hnext.selected)⟩
  · rintro ⟨habsent, hnew, htimely⟩
    exact ⟨selected_iff.2 ((hselected habsent).2 htimely), hsequences.2 habsent, hmessages.2 hnew⟩

omit [DecidableEq τ] in
/-- What the checks say of the rows that an ingestion has listed. -/
theorem checks_of_takesUp {rows : List SnapshotRow} {snapshot : BrokerSnapshot}
    (h : takesUp { Database.empty with brokerSnapshots := rows } ownerId snapshot = true) :
    (∀ last, latestRow ownerId snapshot.accountId rows = some last →
      last.data.sequence < snapshot.sequence) ∧
    ∀ r ∈ rows, ofAccount ownerId snapshot.accountId r = true →
      r.data.messageId ≠ snapshot.messageId := by
  simp only [takesUp, Bool.and_eq_true, Bool.not_eq_true', accountSnapshots_eq] at h
  obtain ⟨hmessage, horder⟩ := h
  constructor
  · intro last hlast
    unfold latestRow at hlast
    cases hrows : newestFirst Row.updatedAt (rows.filter (ofAccount ownerId
        snapshot.accountId)) with
    | nil =>
      rw [hrows] at hlast
      cases hlast
    | cons first rest =>
      rw [hrows] at hlast horder
      cases hlast
      simpa [outOfOrder] using horder
  · intro r hr hof heq
    have hlisted : r ∈ newestFirst Row.updatedAt (rows.filter (ofAccount ownerId
        snapshot.accountId)) := (mem_newestFirst _).2 (List.mem_filter.2 ⟨hr, hof⟩)
    have hdiffers := List.any_eq_false.1 hmessage r hlisted
    simp [heq] at hdiffers

omit [DecidableEq τ] in
/-- The row of an ingestion belongs to the account of its snapshot. -/
theorem ofAccount_newRow {a : Arrival} {seen : List SnapshotRow} :
    ofAccount ownerId accountId (newRow a.env seen a.ownerId .active a.snapshot) = true ↔
      a.ownerId = ownerId ∧ a.snapshot.accountId = accountId := by
  rw [ofAccount, Bool.and_eq_true, Bool.and_eq_true, decide_eq_true_iff, decide_eq_true_iff]
  exact ⟨fun h => ⟨h.1.1, h.2⟩, fun h => ⟨⟨h.1, rfl⟩, h.2⟩⟩

omit [DecidableEq τ] in
/-- An ingestion that no other one overtakes commits in order, if it writes later than the last one. -/
theorem inOrder_of_undisturbed (hsound : Sound insertSnapshot s)
    (h : Governs ownerId accountId s) {t : τ} {a : Arrival} {new : List SnapshotRow}
    (hphase : s.phase t = .decided a s.rows new)
    (hlater : ∀ last ∈ latestRow ownerId accountId s.rows, last.updatedAt < a.env.now) :
    CommitsInOrder ownerId accountId s (.commit t) := by
  obtain ⟨htakes, rfl⟩ := insertSnapshot_some (hsound t a s.rows new hphase).1
  obtain ⟨hgreater, hmessage⟩ := checks_of_takesUp htakes
  simp only [CommitsInOrder, Absent, WrittenInOrder, hphase, InsertPhase.new]
  refine ⟨fun n hn hold => ?_, fun m hm hold => ?_, fun r hr hof last hlast => ?_⟩
  · obtain ⟨r, hr, hof, rfl⟩ := mem_sequences.1 hn
    obtain ⟨r', hr', hof', heq⟩ := mem_sequences.1 hold
    obtain rfl := List.mem_singleton.1 hr
    obtain ⟨rfl, rfl⟩ := ofAccount_newRow.1 hof
    cases hlast : latestRow a.ownerId a.snapshot.accountId s.rows with
    | none => exact latestRow_none hlast hr' hof'
    | some last =>
      have hle : r'.data.sequence ≤ last.data.sequence :=
        selected_iff.1 h.selected last hlast r' hr' hof'
      have hless : last.data.sequence < a.snapshot.sequence := hgreater last hlast
      rw [heq] at hle
      exact absurd hle (not_le.2 hless)
  · simp only [messageOf, List.mem_filterMap, Option.ite_none_right_eq_some,
      Option.some.injEq] at hm hold
    obtain ⟨r, hr, hof, rfl⟩ := hm
    obtain ⟨r', hr', hof', heq⟩ := hold
    obtain rfl := List.mem_singleton.1 hr
    obtain ⟨rfl, rfl⟩ := ofAccount_newRow.1 hof
    exact hmessage r' hr' hof' heq
  · obtain rfl := List.mem_singleton.1 hr
    obtain ⟨rfl, rfl⟩ := ofAccount_newRow.1 hof
    exact iff_of_true (hgreater last hlast) (hlater last hlast)

end

/-! ## Two ingestions -/

/-- An ingestion of a snapshot without positions. -/
def arrival (sequence : Int) (messageId : Nat) (now : Time) : Arrival where
  env := ⟨now, fun n => .ofNat (100 + n)⟩
  ownerId := .ofNat 9
  snapshot := {
    messageId := .ofNat messageId
    accountId := .ofNat 1
    sequence := sequence
    observedAt := now
    balance := 1000
    equity := 1000
    realizedDailyPnl := 0
    accountCurrency := some "USD"
    positions := []
    orders := []
    fills := [] }

theorem governs_nothing (ownerId accountId : Uuid) :
    Governs ownerId accountId (InsertSystem.start [] : InsertSystem ℕ Arrival SnapshotRow) where
  selected _ _ _ _ _ hr := by cases hr
  sequences := List.nodup_nil
  messages := List.nodup_nil

end Matrades

import Matrades.Base.Run
import Matrades.Base.Window
import Matrades.Worker.Journal

/-!
# When the recovery of the journal makes progress

The recovery leaves out what has an entry only after it has taken the oldest material events. An event
that enough others precede is never looked at. A run projects something exactly if the events that have
entries leave room before some event that has none, and enough runs project everything exactly if all
other events leave room (`journal_recovery_iff`). What is projected is projected once.
-/

namespace Matrades

open Base

namespace JournalState

/-- The event has its entry. -/
def Projected (s : JournalState) (id : Uuid) : Prop := (s.entries.get? (.observation id)).isSome = true

instance (s : JournalState) (id : Uuid) : Decidable (s.Projected id) :=
  inferInstanceAs (Decidable (_ = true))

def Unprojected (s : JournalState) (e : Uuid × AuditEvent) : Prop := e ∈ s.material ∧ ¬s.Projected e.1

/-- **A run projects at least one event**, whatever the order of events of one time. -/
def MakesProgress (idText : JournalId → String) (limit : ℕ) (s : JournalState) : Prop :=
  ∀ (clock : Uuid → Time) (rank : Uuid → ℕ), (∃ e, s.Unprojected e) →
    ∃ e, s.Unprojected e ∧ (s.projectPending idText clock limit rank).1.Projected e.1

/-- The state after a number of runs, each with its clock and its order of events of one time. -/
def rounds (idText : JournalId → String) (limit : ℕ) (schedule : ℕ → (Uuid → Time) × (Uuid → ℕ))
    (s : JournalState) : ℕ → JournalState
  | 0 => s
  | n + 1 => ((s.rounds idText limit schedule n).projectPending idText (schedule n).1 limit
      (schedule n).2).1

/-- **Finitely many runs project every material event.** -/
def Finishes (idText : JournalId → String) (limit : ℕ) (s : JournalState) : Prop :=
  ∀ schedule, ∃ n, ∀ e ∈ s.material, (s.rounds idText limit schedule n).Projected e.1

/-- What a run has pending it projects, each event once, and nothing else; entries stay as they are. -/
structure ProjectsOnce (s : JournalState) (clock : Uuid → Time) (pending : List Uuid)
    (after : JournalState) : Prop where
  nodup : pending.Nodup
  new : ∀ id ∈ pending, ¬s.Projected id ∧ ∃ event, s.log.get? id = some event ∧
    after.entries.get? (.observation id) = some ⟨observationEntry id event, clock id⟩
  projected : ∀ id, after.Projected id ↔ s.Projected id ∨ id ∈ pending
  kept : ∀ id record, s.entries.get? id = some record → after.entries.get? id = some record

/-- The projected events that are no later. -/
def projectedBefore (s : JournalState) (e : Uuid × AuditEvent) : ℕ :=
  s.material.countP fun b => b.2.createdAt ≤ e.2.createdAt ∧ s.Projected b.1

/-- The other events that are no later. -/
def othersBefore (s : JournalState) (e : Uuid × AuditEvent) : ℕ :=
  s.material.countP fun b => b.2.createdAt ≤ e.2.createdAt ∧ b.1 ≠ e.1

/-- The entries are of the events that they name. -/
def Sourced (s : JournalState) : Prop := ∀ id, id ∈ s.projectedIds ↔ s.Projected id

/-! ## One projection -/

section
variable {idText : JournalId → String} {s : JournalState}

theorem sourced_empty : Sourced empty := by
  intro id
  simp [empty, projectedIds, Projected, Dict.empty, Dict.values, Dict.get?]

theorem projectedIds_addEntry {id : JournalId} {record : JournalRecord} (h : s.entries.get? id = none) :
    (s.addEntry id record).projectedIds = s.projectedIds ++ record.entry.sourceEventId.toList := by
  unfold projectedIds addEntry
  rw [Dict.values_set_new record h, List.filterMap_append]
  cases hsource : record.entry.sourceEventId <;> simp [hsource]

theorem projected_addEntry {id : JournalId} {record : JournalRecord} {event : Uuid} :
    (s.addEntry id record).Projected event ↔ s.Projected event ∨ .observation event = id := by
  unfold Projected addEntry
  rw [Dict.get?_set]
  by_cases heq : JournalId.observation event = id <;> simp [heq]

theorem get?_addEntry_of_some {id id' : JournalId} {record record' : JournalRecord}
    (h : s.entries.get? id' = none) (hsome : s.entries.get? id = some record) :
    (s.addEntry id' record').entries.get? id = some record := by
  unfold addEntry
  rw [Dict.get?_set_ne, hsome]
  rintro rfl
  rw [h] at hsome
  cases hsome

/-- What a projection changes. -/
structure Projects (s s' : JournalState) (id : Uuid) (event : AuditEvent) (now : Time) : Prop where
  log : s'.log = s.log
  sourced : s.Sourced → s'.Sourced
  entry : s'.entries.get? (.observation id) = some ⟨observationEntry id event, now⟩
  projected : ∀ id', s'.Projected id' ↔ s.Projected id' ∨ id' = id
  kept : ∀ id' record, s.entries.get? id' = some record → s'.entries.get? id' = some record

theorem projects_observation {id : Uuid} {event : AuditEvent} {now : Time}
    (h : s.entries.get? (.observation id) = none) :
    Projects s (s.addEntry (.observation id) ⟨observationEntry id event, now⟩) id event now where
  log := rfl
  sourced := by
    intro hsourced id'
    rw [projectedIds_addEntry h, projected_addEntry, List.mem_append, hsourced id']
    simp [observationEntry]
  entry := by
    unfold addEntry
    rw [Dict.get?_set, if_pos rfl]
  projected := by
    intro id'
    rw [projected_addEntry, JournalId.observation.injEq]
  kept := fun _ _ hsome => get?_addEntry_of_some h hsome

/-- The summary of a trade adds to the entry of its event. -/
theorem Projects.terminal {s' : JournalState} {id : Uuid} {event : AuditEvent} {now : Time}
    (h : Projects s s' id event now) : Projects s (projectTerminal idText now id event s') id event now := by
  unfold projectTerminal
  split
  · exact h
  · rename_i trade htrade
    split
    · exact h
    · rename_i hnone
      refine ⟨h.log, fun hsourced id' => ?_, get?_addEntry_of_some hnone h.entry, fun id' => ?_,
        fun id' record hsome => get?_addEntry_of_some hnone (h.kept id' record hsome)⟩
      · have hprojected : s'.Projected id := (h.projected id).2 (.inr rfl)
        rw [projectedIds_addEntry hnone, projected_addEntry, List.mem_append, h.sourced hsourced id']
        simp only [terminalSummary, Option.toList_some, List.mem_singleton, reduceCtorEq, or_false]
        refine or_iff_left_of_imp ?_
        rintro rfl
        exact hprojected
      · rw [projected_addEntry, h.projected id']
        simp

/-- **What `_project_journal` does.** -/
theorem projectJournal_cases (idText : JournalId → String) (now : Time) (id : Uuid) (s : JournalState) :
    (s.log.get? id = none ∧ projectJournal idText now id s = .error "audit event not found") ∨
      ∃ event, s.log.get? id = some event ∧
        ((s.Projected id ∧ projectJournal idText now id s = .ok (s, .idempotent)) ∨
          (¬s.Projected id ∧ ∃ s' answer, projectJournal idText now id s = .ok (s', answer) ∧
            Projects s s' id event now)) := by
  unfold projectJournal
  cases hevent : s.log.get? id with
  | none => exact .inl ⟨rfl, rfl⟩
  | some event =>
    refine .inr ⟨event, rfl, ?_⟩
    cases hentry : s.entries.get? (.observation id) with
    | some record => exact .inl ⟨by simp [Projected, hentry], rfl⟩
    | none =>
      exact .inr ⟨by simp [Projected, hentry], _, _, rfl, (projects_observation hentry).terminal⟩

/-! ## One run -/

/-- Projections of events of the log that have no entry. -/
theorem projectAll_spec (idText : JournalId → String) (clock : Uuid → Time) {ids : List Uuid} (hnodup : ids.Nodup) {s : JournalState}
    (hlog : ∀ id ∈ ids, (s.log.get? id).isSome = true) (hnew : ∀ id ∈ ids, ¬s.Projected id) :
    ∃ s', projectAll idText clock ids s = (s', none) ∧ s'.log = s.log ∧ (s.Sourced → s'.Sourced) ∧
      ProjectsOnce s clock ids s' := by
  induction ids generalizing s with
  | nil =>
    exact ⟨s, rfl, rfl, id, List.nodup_nil, fun _ hmem => absurd hmem List.not_mem_nil, by simp,
      fun _ _ h => h⟩
  | cons x ids ih =>
    obtain ⟨hx, hids⟩ := List.nodup_cons.1 hnodup
    have hevent := hlog x List.mem_cons_self
    rcases projectJournal_cases idText (clock x) x s with
      ⟨hnone, -⟩ | ⟨event, hsome, ⟨hold, -⟩ | ⟨-, s₁, answer, hrun, hstep⟩⟩
    · rw [hnone] at hevent
      cases hevent
    · exact absurd hold (hnew x List.mem_cons_self)
    · have hlog₁ : ∀ id ∈ ids, (s₁.log.get? id).isSome = true := fun id hid => by
        rw [hstep.log]
        exact hlog id (List.mem_cons_of_mem x hid)
      have hnew₁ : ∀ id ∈ ids, ¬s₁.Projected id := fun id hid hprojected => by
        rcases (hstep.projected id).1 hprojected with hold | rfl
        · exact hnew id (List.mem_cons_of_mem x hid) hold
        · exact hx hid
      obtain ⟨s', hrest, hlog', hsourced, honce⟩ := ih hids hlog₁ hnew₁
      refine ⟨s', ?_, hlog'.trans hstep.log, fun h => hsourced (hstep.sourced h), hnodup, ?_, ?_, ?_⟩
      · rw [projectAll, hrun]
        exact hrest
      · intro id hid
        refine ⟨hnew id hid, ?_⟩
        rcases List.mem_cons.1 hid with rfl | hid
        · exact ⟨event, hsome, honce.kept _ _ hstep.entry⟩
        · rw [← hstep.log]
          exact (honce.new id hid).2
      · intro id
        rw [honce.projected, hstep.projected, List.mem_cons, or_assoc]
      · exact fun id record h => honce.kept id record (hstep.kept id record h)

theorem mem_material {e : Uuid × AuditEvent} :
    e ∈ s.material ↔ s.log.get? e.1 = some e.2 ∧ e.2.material = true := by
  unfold material
  rw [List.mem_filter]
  exact and_congr_left fun _ => ⟨Dict.get?_of_mem, Dict.mem_of_lookup⟩

/-- An event is in the log once. -/
theorem eq_of_mem_material {e e' : Uuid × AuditEvent} (he : e ∈ s.material) (he' : e' ∈ s.material)
    (h : e.1 = e'.1) : e = e' := by
  have hevent := (mem_material.1 he).1
  rw [h, (mem_material.1 he').1] at hevent
  exact Prod.ext h (Option.some.inj hevent).symm

theorem material_keys_nodup (s : JournalState) : (s.material.map Prod.fst).Nodup :=
  s.log.nodup.sublist (List.filter_sublist.map Prod.fst)

/-- The order of the query is strict. -/
theorem material_sorted (s : JournalState) (rank : Uuid → ℕ) :
    (s.material.mergeSort fun a b => age rank a ≤ age rank b).Pairwise fun a b =>
      age rank a < age rank b := by
  apply pairwise_mergeSort_lt ((material_keys_nodup s).of_map)
  intro a ha b hb heq
  apply eq_of_mem_material ha hb
  have hbits : a.1.bits.toNat = b.1.bits.toNat := congrArg (fun k => (ofLex (ofLex k).2).2) heq
  exact congrArg Uuid.mk (BitVec.eq_of_toNat_eq hbits)

theorem mem_window_iff {limit : ℕ} {rank : Uuid → ℕ} {e : Uuid × AuditEvent} :
    e ∈ s.window limit rank ↔
      e ∈ s.material ∧ s.material.countP (fun b => age rank b < age rank e) < limit * 4 := by
  unfold window
  rw [mem_take_iff (material_sorted s rank), List.mem_mergeSort,
    (List.mergeSort_perm s.material _).countP_eq]

theorem mem_pending {limit : ℕ} {rank : Uuid → ℕ} (hsourced : s.Sourced) {id : Uuid}
    (h : id ∈ s.pending limit rank) : ∃ e ∈ s.window limit rank, e.1 = id ∧ ¬s.Projected id := by
  unfold pending at h
  obtain ⟨hmem, hnew⟩ := List.mem_filter.1 (List.mem_of_mem_take h)
  obtain ⟨e, he, rfl⟩ := List.mem_map.1 hmem
  exact ⟨e, he, rfl, fun hprojected => of_decide_eq_true hnew ((hsourced e.1).2 hprojected)⟩

/-- Something is pending where the window holds an event without an entry. -/
theorem exists_pending {limit : ℕ} {rank : Uuid → ℕ} (hsourced : s.Sourced) (hlimit : 1 ≤ limit)
    {e : Uuid × AuditEvent} (he : e ∈ s.window limit rank) (hnew : ¬s.Projected e.1) :
    ∃ id, id ∈ s.pending limit rank := by
  unfold pending
  have hmem : e.1 ∈ ((s.window limit rank).map Prod.fst).filter (· ∉ s.projectedIds) := by
    refine List.mem_filter.2 ⟨List.mem_map_of_mem he, decide_eq_true ?_⟩
    intro hids
    exact hnew ((hsourced e.1).1 hids)
  cases hpending : ((s.window limit rank).map Prod.fst).filter (· ∉ s.projectedIds) with
  | nil => rw [hpending] at hmem; cases hmem
  | cons id ids =>
    refine ⟨id, ?_⟩
    obtain ⟨n, rfl⟩ : ∃ n, limit = n + 1 := ⟨limit - 1, by omega⟩
    rw [List.take_succ_cons]
    exact List.mem_cons_self

theorem pending_nodup (s : JournalState) (limit : ℕ) (rank : Uuid → ℕ) : (s.pending limit rank).Nodup := by
  have hsorted : ((s.material.mergeSort fun a b => age rank a ≤ age rank b).map Prod.fst).Nodup :=
    (((List.mergeSort_perm s.material _).map Prod.fst).nodup_iff).2 (material_keys_nodup s)
  have hwindow : ((s.window limit rank).map Prod.fst).Nodup :=
    hsorted.sublist ((List.take_sublist _ _).map Prod.fst)
  exact (hwindow.filter _).sublist (List.take_sublist _ _)

/-- **What a run of the recovery does.** -/
theorem projectPending_spec (idText : JournalId → String) (hsourced : s.Sourced) (clock : Uuid → Time) (limit : ℕ) (rank : Uuid → ℕ) :
    (s.projectPending idText clock limit rank).2 = .ok (s.pending limit rank).length ∧
      (s.projectPending idText clock limit rank).1.log = s.log ∧
      (s.projectPending idText clock limit rank).1.Sourced ∧
      ProjectsOnce s clock (s.pending limit rank) (s.projectPending idText clock limit rank).1 := by
  have hlog : ∀ id ∈ s.pending limit rank, (s.log.get? id).isSome = true := fun id hid => by
    obtain ⟨e, he, rfl, -⟩ := mem_pending hsourced hid
    rw [(mem_material.1 (mem_window_iff.1 he).1).1]
    rfl
  have hnew : ∀ id ∈ s.pending limit rank, ¬s.Projected id := fun id hid => by
    obtain ⟨e, -, -, hnew⟩ := mem_pending hsourced hid
    exact hnew
  obtain ⟨s', hrun, hlog', hsourced', honce⟩ :=
    projectAll_spec idText clock (pending_nodup s limit rank) hlog hnew
  unfold projectPending
  rw [hrun]
  exact ⟨rfl, hlog', hsourced' hsourced, honce⟩

/-! ## Whole runs -/

theorem Sourced.step (h : s.Sourced) (l : JournalLabel) : (s.step idText l).Sourced := by
  cases l with
  | audit id event => exact h
  | project now id =>
    rw [JournalState.step]
    rcases projectJournal_cases idText now id s with
      ⟨-, hrun⟩ | ⟨event, -, ⟨-, hrun⟩ | ⟨-, s', answer, hrun, hstep⟩⟩
    · rw [hrun]
      exact h
    · rw [hrun]
      exact h
    · rw [hrun]
      exact hstep.sourced h
  | recover clock limit rank => exact (projectPending_spec idText h clock limit rank).2.2.1

theorem sourced_run (idText : JournalId → String) (ls : List JournalLabel) :
    Sourced (run (step idText) empty ls) :=
  run_inv_of_step (fun _ l h => h.step l) sourced_empty ls

/-- With room before an event without an entry, the window holds such an event. -/
theorem exists_unprojected_window {limit : ℕ} {e : Uuid × AuditEvent} (he : s.Unprojected e)
    (hroom : s.projectedBefore e < limit * 4) (rank : Uuid → ℕ) :
    ∃ e' ∈ s.window limit rank, ¬s.Projected e'.1 := by
  apply Classical.byContradiction
  intro hnone
  have hall : ∀ b ∈ s.window limit rank, s.Projected b.1 := fun b hb =>
    Classical.byContradiction fun hnew => hnone ⟨b, hb, hnew⟩
  have hnot : e ∉ s.window limit rank := fun hmem => he.2 (hall e hmem)
  have hfull : limit * 4 ≤ s.material.countP fun b => age rank b < age rank e := by
    apply not_lt.1
    intro hlt
    exact hnot (mem_window_iff.2 ⟨he.1, hlt⟩)
  have hlength : (s.window limit rank).length = limit * 4 := by
    have hle := List.countP_le_length (p := fun b => decide (age rank b < age rank e)) (l := s.material)
    unfold window
    rw [List.length_take, List.length_mergeSort]
    omega
  -- the whole window is projected and no later than the event
  have hwindow : (s.window limit rank).countP
      (fun b => b.2.createdAt ≤ e.2.createdAt ∧ s.Projected b.1) = limit * 4 := by
    rw [← hlength, List.countP_eq_length]
    intro b hb
    have hage := key_lt_of_not_mem_take (material_sorted s rank) (List.mem_mergeSort.2 he.1) hnot hb
    have htime : b.2.createdAt ≤ e.2.createdAt := by
      rcases Prod.Lex.lt_iff.1 hage with hlt | ⟨heq, -⟩
      · exact hlt.le
      · exact heq.le
    exact decide_eq_true ⟨htime, hall b hb⟩
  have hcount : (s.window limit rank).countP
      (fun b => b.2.createdAt ≤ e.2.createdAt ∧ s.Projected b.1) ≤ s.projectedBefore e := by
    unfold projectedBefore
    rw [← (List.mergeSort_perm s.material fun a b => age rank a ≤ age rank b).countP_eq]
    exact (List.take_sublist _ _).countP_le
  omega

/-- An order of events of one time that lets the marked events wait. -/
theorem not_mem_window_of_before {limit : ℕ} {last : Uuid → Prop} [DecidablePred last]
    {e : Uuid × AuditEvent} (hlast : last e.1)
    (h : limit * 4 ≤ s.material.countP fun b => b.2.createdAt ≤ e.2.createdAt ∧ ¬last b.1) :
    e ∉ s.window limit fun id => if last id then 1 else 0 := by
  intro hmem
  have hless := (mem_window_iff.1 hmem).2
  have hmono : (s.material.countP fun b => b.2.createdAt ≤ e.2.createdAt ∧ ¬last b.1) ≤
      s.material.countP fun b => age (fun id => if last id then 1 else 0) b <
        age (fun id => if last id then 1 else 0) e := by
    apply List.countP_mono_left
    intro b _ hb
    obtain ⟨htime, hb⟩ := of_decide_eq_true hb
    apply decide_eq_true
    unfold age
    rw [Prod.Lex.toLex_lt_toLex]
    rcases htime.lt_or_eq with hlt | heq
    · exact .inl hlt
    · refine .inr ⟨heq, ?_⟩
      rw [Prod.Lex.toLex_lt_toLex]
      dsimp only
      rw [if_pos hlast, if_neg hb]
      exact .inl Nat.zero_lt_one
  omega

/-- A run projects something, in every order, exactly if some event without an entry has room. -/
theorem makesProgress_iff (hsourced : s.Sourced) {limit : ℕ} (hlimit : 1 ≤ limit) :
    s.MakesProgress idText limit ↔
      ((∃ e, s.Unprojected e) → ∃ e, s.Unprojected e ∧ s.projectedBefore e < limit * 4) := by
  constructor
  · intro h hsome
    apply Classical.byContradiction
    intro hnone
    obtain ⟨e, he, hprojected⟩ := h (fun _ => 0) (fun id => if ¬s.Projected id then 1 else 0) hsome
    have honce := (projectPending_spec idText hsourced (fun _ => 0) limit
      fun id => if ¬s.Projected id then 1 else 0).2.2.2
    rcases (honce.projected e.1).1 hprojected with hold | hpending
    · exact he.2 hold
    · obtain ⟨e', he', heq, hnew⟩ := mem_pending hsourced hpending
      obtain rfl := eq_of_mem_material (mem_window_iff.1 he').1 he.1 heq
      refine not_mem_window_of_before he.2 ?_ he'
      apply not_lt.1
      intro hroom
      refine hnone ⟨e', he, lt_of_le_of_lt (List.countP_mono_left fun b _ hb => ?_) hroom⟩
      simpa using hb
  · rintro h clock rank hsome
    obtain ⟨e, he, hroom⟩ := h hsome
    obtain ⟨e', he', hnew⟩ := exists_unprojected_window he hroom rank
    obtain ⟨id, hid⟩ := exists_pending hsourced hlimit he' hnew
    obtain ⟨e'', he'', rfl, hnew''⟩ := mem_pending hsourced hid
    refine ⟨e'', ⟨(mem_window_iff.1 he'').1, hnew''⟩, ?_⟩
    exact ((projectPending_spec idText hsourced clock limit rank).2.2.2.projected e''.1).2 (.inr hid)

/-- The rounds keep the log and what is projected, and project only what the window shows. -/
theorem rounds_spec (idText : JournalId → String) (hsourced : s.Sourced) (limit : ℕ) (schedule : ℕ → (Uuid → Time) × (Uuid → ℕ)) (n : ℕ) :
    (s.rounds idText limit schedule n).Sourced ∧ (s.rounds idText limit schedule n).log = s.log ∧
      ∀ id, s.Projected id → (s.rounds idText limit schedule n).Projected id := by
  induction n with
  | zero => exact ⟨hsourced, rfl, fun _ h => h⟩
  | succ n ih =>
    obtain ⟨hsourcedₙ, hlogₙ, hkeptₙ⟩ := ih
    obtain ⟨-, hlog, hsourced', honce⟩ := projectPending_spec idText hsourcedₙ (schedule n).1
      limit (schedule n).2
    exact ⟨hsourced', hlog.trans hlogₙ, fun id h => (honce.projected id).2 (.inl (hkeptₙ id h))⟩

theorem rounds_projected (hsourced : s.Sourced) (limit : ℕ)
    (schedule : ℕ → (Uuid → Time) × (Uuid → ℕ)) (n : ℕ) (id : Uuid) :
    (s.rounds idText limit schedule (n + 1)).Projected id ↔
      (s.rounds idText limit schedule n).Projected id ∨
        id ∈ (s.rounds idText limit schedule n).pending limit (schedule n).2 :=
  (projectPending_spec idText (rounds_spec idText hsourced limit schedule n).1 _ _ _).2.2.2.projected id

theorem material_congr {s' : JournalState} (h : s'.log = s.log) : s'.material = s.material := by
  unfold material
  rw [h]

theorem window_congr {s' : JournalState} (h : s'.log = s.log) (limit : ℕ) (rank : Uuid → ℕ) :
    s'.window limit rank = s.window limit rank := by
  unfold window
  rw [material_congr h]

/-- Runs in which one event always comes last of its time. -/
def latest (id : Uuid) : ℕ → (Uuid → Time) × (Uuid → ℕ) :=
  fun _ => (fun _ => 0, fun id' => if id' = id then 1 else 0)

/-- An event that the window never shows is never projected. -/
theorem finishes_room {limit : ℕ} (hsourced : s.Sourced) (h : s.Finishes idText limit)
    {e : Uuid × AuditEvent} (he : s.Unprojected e) : s.othersBefore e < limit * 4 := by
  apply not_le.1
  intro hfull
  have hnot : e ∉ s.window limit fun id => if id = e.1 then 1 else 0 := not_mem_window_of_before rfl hfull
  have hnever : ∀ n, ¬(s.rounds idText limit (latest e.1) n).Projected e.1 := by
    intro n
    induction n with
    | zero => exact he.2
    | succ n ih =>
      obtain ⟨hsourcedₙ, hlogₙ, -⟩ := rounds_spec idText hsourced limit (latest e.1) n
      rw [rounds_projected hsourced]
      rintro (hold | hpending)
      · exact ih hold
      · obtain ⟨e', he', heq, -⟩ := mem_pending hsourcedₙ hpending
        rw [window_congr hlogₙ] at he'
        obtain rfl := eq_of_mem_material (mem_window_iff.1 he').1 he.1 heq
        exact hnot he'
  obtain ⟨n, hall⟩ := h (latest e.1)
  exact hnever n (hall e he.1)

/-- Where every event without an entry has room, the window always shows it. -/
theorem finishes_of_room {limit : ℕ} (hsourced : s.Sourced) (hlimit : 1 ≤ limit)
    (h : ∀ e, s.Unprojected e → s.othersBefore e < limit * 4) : s.Finishes idText limit := by
  have hwindow : ∀ e, s.Unprojected e → ∀ rank, e ∈ s.window limit rank := by
    intro e he rank
    refine mem_window_iff.2 ⟨he.1, lt_of_le_of_lt (List.countP_mono_left fun b hmem hb => ?_) (h e he)⟩
    rw [decide_eq_true_eq] at hb ⊢
    refine ⟨?_, ?_⟩
    · rcases Prod.Lex.lt_iff.1 hb with hlt | ⟨heq, -⟩
      · exact hlt.le
      · exact heq.le
    · intro heq
      rw [eq_of_mem_material hmem he.1 heq] at hb
      exact lt_irrefl _ hb
  intro schedule
  -- what is left to project
  have hlower : ∀ n, 0 < s.material.countP (fun e => ¬(s.rounds idText limit schedule n).Projected e.1) →
      s.material.countP (fun e => ¬(s.rounds idText limit schedule (n + 1)).Projected e.1) <
        s.material.countP (fun e => ¬(s.rounds idText limit schedule n).Projected e.1) := by
    intro n hleft
    obtain ⟨e, he, hnew⟩ := List.countP_pos_iff.1 hleft
    rw [decide_eq_true_eq] at hnew
    obtain ⟨hsourcedₙ, hlogₙ, hkeptₙ⟩ := rounds_spec idText hsourced limit schedule n
    have hshown := hwindow e ⟨he, fun hold => hnew (hkeptₙ e.1 hold)⟩ (schedule n).2
    rw [← window_congr hlogₙ] at hshown
    obtain ⟨id, hid⟩ := exists_pending hsourcedₙ hlimit hshown hnew
    obtain ⟨e', he', rfl, hnew'⟩ := mem_pending hsourcedₙ hid
    have hmaterial : e' ∈ s.material := by
      rw [← material_congr hlogₙ]
      exact (mem_window_iff.1 he').1
    refine countP_lt_of_imp (fun b _ hb => ?_) hmaterial (decide_eq_true hnew') ?_
    · rw [decide_eq_true_eq] at hb ⊢
      exact fun hold => hb ((rounds_projected hsourced limit schedule n b.1).2 (.inl hold))
    · simpa using (rounds_projected hsourced limit schedule n e'.1).2 (.inr hid)
  obtain ⟨n, hnone⟩ := exists_round_zero hlower
  refine ⟨n, fun e he => ?_⟩
  simpa using List.countP_eq_zero.1 hnone e he

/-- **When the recovery makes progress.** In every state that audit events, projections and recoveries
lead to: a run projects an event, in whatever order the database gives events of one time, exactly if some
event without an entry has fewer than `4 * limit` projected ones no later than it; finitely many runs
project everything exactly if each such event has fewer than `4 * limit` others no later; and what a run
projects it projects once. -/
theorem journal_recovery_iff (idText : JournalId → String) (ls : List JournalLabel) (limit : ℕ)
    (hlimit : 1 ≤ limit) :
    let s := run (step idText) empty ls
    (s.MakesProgress idText limit ↔
      ((∃ e, s.Unprojected e) → ∃ e, s.Unprojected e ∧ s.projectedBefore e < 4 * limit)) ∧
    (s.Finishes idText limit ↔ ∀ e, s.Unprojected e → s.othersBefore e < 4 * limit) ∧
    ∀ clock rank, (s.projectPending idText clock limit rank).2 = .ok (s.pending limit rank).length ∧
      ProjectsOnce s clock (s.pending limit rank) (s.projectPending idText clock limit rank).1 := by
  intro s
  have hsourced : s.Sourced := sourced_run idText ls
  rw [Nat.mul_comm 4 limit]
  refine ⟨makesProgress_iff hsourced hlimit, ⟨fun h e he => finishes_room hsourced h he,
    finishes_of_room hsourced hlimit⟩, fun clock rank => ?_⟩
  obtain ⟨hanswer, -, -, honce⟩ := projectPending_spec idText hsourced clock limit rank
  exact ⟨hanswer, honce⟩

end

/-! ## A log that stalls -/

/-- An accepted order, with its time. -/
def acceptedOrder (createdAt : Time) : AuditEvent where
  ownerId := .ofNat 1
  eventType := "broker.order_reconciled"
  aggregateType := "broker_order"
  aggregateId := some (.ofNat 2)
  evidence := []
  createdAt := createdAt
  named := by decide

/-- Four events that were projected when they were committed, and a fifth that was not. -/
def stalledLog : List JournalLabel :=
  [.audit (.ofNat 11) (acceptedOrder 1), .project 1 (.ofNat 11), .audit (.ofNat 12) (acceptedOrder 2),
    .project 2 (.ofNat 12), .audit (.ofNat 13) (acceptedOrder 3), .project 3 (.ofNat 13),
    .audit (.ofNat 14) (acceptedOrder 4), .project 4 (.ofNat 14), .audit (.ofNat 15) (acceptedOrder 5)]

def stalled : JournalState := run (step fun _ => "") empty stalledLog

theorem stalled_last : ∃ e, stalled.Unprojected e := by
  have hsome : stalled.material.any (fun e => ¬stalled.Projected e.1) = true := by decide
  obtain ⟨e, he, hnew⟩ := List.any_eq_true.1 hsome
  exact ⟨e, he, of_decide_eq_true hnew⟩

/-- With a limit of two the fifth event is in view, and is projected once. -/
theorem journal_recovery_iff_two : stalled.Finishes (fun _ => "") 2 ∧
    ∀ clock rank, ProjectsOnce stalled clock (stalled.pending 2 rank)
      (stalled.projectPending (fun _ => "") clock 2 rank).1 := by
  obtain ⟨-, hfinishes, honce⟩ := journal_recovery_iff (fun _ => "") stalledLog 2 (by decide)
  have hroom : ∀ e ∈ stalled.material, stalled.othersBefore e < 4 * 2 := by decide +kernel
  exact ⟨hfinishes.2 fun e he => hroom e he.1, fun clock rank => (honce clock rank).2⟩

/-- **With a limit of one the recovery stalls**: it looks at the four projected events only. -/
theorem recovery_stalls : ¬stalled.MakesProgress (fun _ => "") 1 ∧ ¬stalled.Finishes (fun _ => "") 1 := by
  have hsourced : stalled.Sourced := sourced_run _ stalledLog
  have hroom : ∀ e ∈ stalled.material, ¬stalled.Projected e.1 →
      ¬stalled.projectedBefore e < 1 * 4 ∧ ¬stalled.othersBefore e < 1 * 4 := by decide +kernel
  constructor
  · intro h
    obtain ⟨e, he, hbefore⟩ := (makesProgress_iff hsourced (le_refl 1)).1 h stalled_last
    exact (hroom e he.1 he.2).1 hbefore
  · intro h
    obtain ⟨e, he⟩ := stalled_last
    exact (hroom e he.1 he.2).2 (finishes_room hsourced h he)

end JournalState

end Matrades

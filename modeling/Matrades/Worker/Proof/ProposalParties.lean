import Matrades.Worker.Proof.ProposalRecords

/-!
# The parties of proposals

The requests and tasks under way. What a party has read stays true enough for what it writes
(`ProposalPhase.Sound`); one party at a time has a lock or works on a run, and nobody works on a run
that is recovered (`Orderly`). A write that leaves to the others what they have (`Respects`) keeps this
(`Orderly.put`).
-/

namespace Matrades

open Base

/-! ## Parties -/

/-- What one party has at a time: a lock, or the work on a run. -/
inductive Claim
  | row (row : LockedRow)
  | work (runId : Uuid)
  deriving DecidableEq

/-- Is the transaction of a delivery that has started its run? -/
def ResearchWrite.working {Spec : Type} : ResearchWrite Spec → Bool
  | failure working _ => working
  | _ => true

namespace ProposalPhase

variable {Spec Identity : Type}

def claim : ProposalPhase Spec → Option Claim
  | working runId => some (.work runId)
  | reading runId write | readingDraft runId write _ | writing runId write _ _ =>
    if write.working then some (.work runId) else none
  | phase => phase.locks.map .row

/-- What holds of a party that began at `begunAt`. -/
def Sound (s : ProposalStore Spec Identity) (begunAt : Time) : ProposalPhase Spec → Prop
  | deciding draftId loaded _ _ _ =>
    s.Seen draftId loaded ∧ loaded.state = .awaitingStrategyApproval
  | submitting draftId _ _ | creating draftId _ _ => s.Accepted draftId
  | advancing draftId loaded _ _ | queueing draftId loaded _ _ =>
    s.drafts.get? draftId = some loaded ∧ loaded.state = .awaitingStrategyApproval
  | blocking draftId loaded _ => s.Seen draftId loaded
  | starting runId run draft =>
    s.runs.get? runId = some run ∧ run.state = .queued ∧ s.Seen run.data.draftId draft
  | working runId => s.Started runId begunAt
  | reading runId write => write.working = true → s.Started runId begunAt
  | readingDraft runId write run => s.SeenRun runId run ∧
    (write.working = true → s.Started runId begunAt ∧ run.StartedSince begunAt)
  | writing runId write run draft => s.SeenRun runId run ∧ s.Seen run.data.draftId draft ∧
    (write.working = true → s.Started runId begunAt ∧ run.StartedSince begunAt)
  | recovering runId run => s.Idle runId ∧ run.state = .researching
  | _ => True

end ProposalPhase

namespace ProposalSystem

variable {Spec Identity : Type}

/-- The party is alive and has this. -/
def Holds (s : ProposalSystem Spec Identity) (n : ℕ) (c : Claim) : Prop :=
  ∃ p, s.alive? n = some p ∧ p.phase.claim = some c

/-- **What undisturbed steps keep**: one party has a lock or works on a run, and nobody works on a run
that is recovered. -/
structure Orderly (s : ProposalSystem Spec Identity) : Prop where
  settled : s.store.Settled
  begun : ∀ n p, s.parties.get? n = some p → p.begunAt ≤ s.now
  sound : ∀ n p, s.alive? n = some p → p.phase.Sound s.store p.begunAt
  one : ∀ n m c, s.Holds n c → s.Holds m c → n = m
  lost : ∀ n m runId, s.Holds n (.row (.marketRun runId)) → ¬s.Holds m (.work runId)

/-- Nobody else has it, or what excludes it. -/
structure Grants (s : ProposalSystem Spec Identity) (n : ℕ) (c : Claim) : Prop where
  alone : ∀ m, m ≠ n → ¬s.Holds m c
  started : ∀ runId, c = .work runId → ∀ m, m ≠ n → ¬s.Holds m (.row (.marketRun runId))
  recovered : ∀ runId, c = .row (.marketRun runId) → ∀ m, m ≠ n → ¬s.Holds m (.work runId)

/-- What a write of party `n` leaves to the others. -/
structure Respects (s : ProposalSystem Spec Identity) (n : ℕ)
    (store : ProposalStore Spec Identity) : Prop where
  accepted : ∀ draftId, s.store.Accepted draftId → store.Accepted draftId
  runs : ∀ runId run, s.store.SeenRun runId run → store.SeenRun runId run
  lockedDraft : ∀ m draftId, m ≠ n → s.Holds m (.row (.draft draftId)) →
    store.drafts.get? draftId = s.store.drafts.get? draftId
  lockedRun : ∀ m runId, m ≠ n → s.Holds m (.row (.run runId)) →
    store.runs.get? runId = s.store.runs.get? runId
  worked : ∀ m runId, m ≠ n → s.Holds m (.work runId) →
    store.runs.get? runId = s.store.runs.get? runId
  idle : ∀ m runId, m ≠ n → s.Holds m (.row (.marketRun runId)) → s.store.Idle runId →
    store.Idle runId

section
variable {s : ProposalSystem Spec Identity}

theorem alive?_eq_some {n : ℕ} {p : ProposalParty Spec} :
    s.alive? n = some p ↔ s.parties.get? n = some p ∧
      (p.phase.delivery = true → s.now < p.begunAt + strategyTaskLimit) := by
  simp [alive?, Option.filter_eq_some_iff, Decidable.imp_iff_not_or]

/-- Whoever is alive after a party moves. -/
theorem alive?_put {n m : ℕ} {p q : ProposalParty Spec} {store : ProposalStore Spec Identity}
    (h : alive? { s with store, parties := s.parties.set n p } m = some q) :
    m = n ∧ q = p ∨ m ≠ n ∧ s.alive? m = some q := by
  obtain ⟨hget, hlimit⟩ := alive?_eq_some.1 h
  by_cases hm : m = n
  · subst hm
    rw [Dict.get?_set_self] at hget
    cases hget
    exact .inl ⟨rfl, rfl⟩
  · rw [Dict.get?_set_ne _ _ hm] at hget
    exact .inr ⟨hm, alive?_eq_some.2 ⟨hget, hlimit⟩⟩

theorem holds_put {n m : ℕ} {p : ProposalParty Spec} {store : ProposalStore Spec Identity} {c : Claim}
    (h : Holds { s with store, parties := s.parties.set n p } m c) :
    m = n ∧ p.phase.claim = some c ∨ m ≠ n ∧ s.Holds m c := by
  obtain ⟨q, hq, hc⟩ := h
  rcases alive?_put hq with ⟨rfl, rfl⟩ | ⟨hm, hq⟩
  · exact .inl ⟨rfl, hc⟩
  · exact .inr ⟨hm, q, hq, hc⟩

theorem Respects.refl (s : ProposalSystem Spec Identity) (n : ℕ) : s.Respects n s.store :=
  ⟨fun _ h => h, fun _ _ h => h, fun _ _ _ _ => rfl, fun _ _ _ _ => rfl, fun _ _ _ _ => rfl,
    fun _ _ _ _ h => h⟩

/-- What a party knows stays true when another one writes. -/
theorem Respects.sound {n m : ℕ} {store : ProposalStore Spec Identity} (h : s.Respects n store)
    (hm : m ≠ n) {p : ProposalParty Spec} (hp : s.alive? m = some p)
    (hsound : p.phase.Sound s.store p.begunAt) : p.phase.Sound store p.begunAt := by
  have hholds : ∀ c, p.phase.claim = some c → s.Holds m c := fun c hc => ⟨p, hp, hc⟩
  have hseen : ∀ draftId loaded, s.store.Seen draftId loaded → store.Seen draftId loaded :=
    fun _ _ hseen hclaims => h.accepted _ (hseen hclaims)
  have hstarted : ∀ runId, p.phase.claim = some (.work runId) → s.store.Started runId p.begunAt →
      store.Started runId p.begunAt := by
    rintro runId hclaim ⟨run, hrun, hsince⟩
    exact ⟨run, (h.worked m runId hm (hholds _ hclaim)).trans hrun, hsince⟩
  obtain ⟨begunAt, phase⟩ := p
  cases phase with
  | deciding => exact ⟨hseen _ _ hsound.1, hsound.2⟩
  | submitting | creating => exact h.accepted _ hsound
  | advancing draftId | queueing draftId =>
    exact ⟨(h.lockedDraft m draftId hm (hholds _ rfl)).trans hsound.1, hsound.2⟩
  | blocking => exact hseen _ _ hsound
  | starting runId run draft =>
    obtain ⟨hrun, hstate, hdraft⟩ := hsound
    exact ⟨(h.lockedRun m runId hm (hholds _ rfl)).trans hrun, hstate, hseen _ _ hdraft⟩
  | working runId => exact hstarted runId rfl hsound
  | reading runId write => exact fun hw => hstarted runId (if_pos hw) (hsound hw)
  | readingDraft runId write run =>
    obtain ⟨hrun, hwork⟩ := hsound
    exact ⟨h.runs _ _ hrun, fun hw => ⟨hstarted runId (if_pos hw) (hwork hw).1, (hwork hw).2⟩⟩
  | writing runId write run draft =>
    obtain ⟨hrun, hdraft, hwork⟩ := hsound
    exact ⟨h.runs _ _ hrun, hseen _ _ hdraft,
      fun hw => ⟨hstarted runId (if_pos hw) (hwork hw).1, (hwork hw).2⟩⟩
  | recovering runId run => exact ⟨h.idle m runId hm (hholds _ rfl) hsound.1, hsound.2⟩
  | advanced | blocked | delivered | stored | ended => trivial

/-- What a party has is granted. -/
theorem Orderly.grants (h : s.Orderly) {n : ℕ} {c : Claim} (hn : s.Holds n c) : s.Grants n c where
  alone := fun m hm hholds => hm (h.one m n c hholds hn)
  started := by
    rintro runId rfl m - hholds
    exact h.lost m n runId hholds hn
  recovered := by
    rintro runId rfl m - hholds
    exact h.lost n m runId hn hholds

/-- **A party moves on**, and writes what it may. -/
theorem Orderly.put (h : s.Orderly) {n : ℕ} {p : ProposalParty Spec}
    {store : ProposalStore Spec Identity} (hsettled : store.Settled) (hrespects : s.Respects n store)
    (hbegun : p.begunAt ≤ s.now) (hsound : p.phase.Sound store p.begunAt)
    (hclaim : ∀ c, p.phase.claim = some c → s.Grants n c) :
    Orderly { s with store, parties := s.parties.set n p } where
  settled := hsettled
  begun := by
    intro m q hq
    by_cases hm : m = n
    · subst hm
      rw [Dict.get?_set_self] at hq
      cases hq
      exact hbegun
    · rw [Dict.get?_set_ne _ _ hm] at hq
      exact h.begun m q hq
  sound := by
    intro m q hq
    rcases alive?_put hq with ⟨rfl, rfl⟩ | ⟨hm, hq⟩
    · exact hsound
    · exact hrespects.sound hm hq (h.sound m q hq)
  one := by
    intro m m' c hholds hholds'
    rcases holds_put hholds with ⟨rfl, hc⟩ | ⟨hm, hother⟩
    · rcases holds_put hholds' with ⟨rfl, -⟩ | ⟨hm', hother'⟩
      · rfl
      · exact absurd hother' ((hclaim c hc).alone m' hm')
    · rcases holds_put hholds' with ⟨rfl, hc⟩ | ⟨-, hother'⟩
      · exact absurd hother ((hclaim c hc).alone m hm)
      · exact h.one m m' c hother hother'
  lost := by
    intro m m' runId hholds hholds'
    rcases holds_put hholds with ⟨rfl, hc⟩ | ⟨hm, hother⟩
    · rcases holds_put hholds' with ⟨rfl, hc'⟩ | ⟨hm', hother'⟩
      · rw [hc] at hc'
        cases hc'
      · exact (hclaim _ hc).recovered runId rfl m' hm' hother'
    · rcases holds_put hholds' with ⟨rfl, hc⟩ | ⟨-, hother'⟩
      · exact (hclaim _ hc).started runId rfl m hm hother
      · exact h.lost m m' runId hother hother'

end

/-! ## Locks -/

theorem claim_row {phase : ProposalPhase Spec} {row : LockedRow} :
    phase.claim = some (.row row) ↔ phase.locks = some row := by
  cases phase with
  | reading runId write | readingDraft runId write | writing runId write =>
    cases hw : write.working <;> simp [ProposalPhase.claim, ProposalPhase.locks, hw]
  | _ => simp [ProposalPhase.claim, ProposalPhase.locks]

theorem delivery_of_work {phase : ProposalPhase Spec} {runId : Uuid}
    (h : phase.claim = some (.work runId)) : phase.delivery = true := by
  cases phase with
  | working | reading | readingDraft | writing => rfl
  | _ => simp [ProposalPhase.claim, ProposalPhase.locks] at h

theorem started_of_work {store : ProposalStore Spec Identity} {begunAt : Time}
    {phase : ProposalPhase Spec} {runId : Uuid} (hsound : phase.Sound store begunAt)
    (h : phase.claim = some (.work runId)) : store.Started runId begunAt := by
  cases phase with
  | working =>
    cases h
    exact hsound
  | reading r write =>
    cases hw : write.working with
    | false => simp [ProposalPhase.claim, hw] at h
    | true =>
      simp only [ProposalPhase.claim, hw, if_true, Option.some.injEq, Claim.work.injEq] at h
      rw [← h]
      exact hsound hw
  | readingDraft r write =>
    cases hw : write.working with
    | false => simp [ProposalPhase.claim, hw] at h
    | true =>
      simp only [ProposalPhase.claim, hw, if_true, Option.some.injEq, Claim.work.injEq] at h
      rw [← h]
      exact (hsound.2 hw).1
  | writing r write =>
    cases hw : write.working with
    | false => simp [ProposalPhase.claim, hw] at h
    | true =>
      simp only [ProposalPhase.claim, hw, if_true, Option.some.injEq, Claim.work.injEq] at h
      rw [← h]
      exact (hsound.2.2 hw).1
  | _ => simp [ProposalPhase.claim, ProposalPhase.locks] at h

section
variable {s : ProposalSystem Spec Identity} {n : ℕ}

/-- A row is free if nobody else has it. -/
theorem not_holds_of_free {row : LockedRow} (h : s.free n row = true) :
    ∀ m, m ≠ n → ¬s.Holds m (.row row) := by
  rintro m hm ⟨p, hp, hclaim⟩
  have hkey : m ∈ s.parties.keys := by
    rw [← Dict.get?_isSome, (alive?_eq_some.1 hp).1]
    rfl
  have hall := List.all_eq_true.1 h m hkey
  rw [Bool.or_eq_true, decide_eq_true_eq] at hall
  rcases hall with rfl | hall
  · exact hm rfl
  · rw [hp] at hall
    exact of_decide_eq_true hall (claim_row.1 hclaim)

/-- A locked draft exists, and so do the runs that are locked or worked on. -/
theorem Orderly.locked_draft (h : s.Orderly) {draftId : Uuid}
    (hn : s.Holds n (.row (.draft draftId))) : ∃ draft, s.store.drafts.get? draftId = some draft ∧
      draft.state = .awaitingStrategyApproval := by
  obtain ⟨⟨begunAt, phase⟩, hp, hclaim⟩ := hn
  have hsound := h.sound n _ hp
  have hlocks := claim_row.1 hclaim
  cases phase with
  | advancing | queueing =>
    cases hlocks
    exact ⟨_, hsound.1, hsound.2⟩
  | _ => simp [ProposalPhase.locks] at hlocks

theorem Orderly.locked_run (h : s.Orderly) {runId : Uuid} (hn : s.Holds n (.row (.run runId))) :
    ∃ run, s.store.runs.get? runId = some run ∧ run.state = .queued := by
  obtain ⟨⟨begunAt, phase⟩, hp, hclaim⟩ := hn
  have hsound := h.sound n _ hp
  have hlocks := claim_row.1 hclaim
  cases phase with
  | starting =>
    cases hlocks
    exact ⟨_, hsound.1, hsound.2.1⟩
  | _ => simp [ProposalPhase.locks] at hlocks

theorem Orderly.worked_run (h : s.Orderly) {runId : Uuid} (hn : s.Holds n (.work runId)) :
    ∃ run, s.store.runs.get? runId = some run ∧ run.state = .researching := by
  obtain ⟨p, hp, hclaim⟩ := hn
  obtain ⟨run, hrun, hstate, -⟩ := started_of_work (h.sound n p hp) hclaim
  exact ⟨run, hrun, hstate⟩

theorem Orderly.recovered_run (h : s.Orderly) {runId : Uuid}
    (hn : s.Holds n (.row (.marketRun runId))) : s.store.Idle runId := by
  obtain ⟨⟨begunAt, phase⟩, hp, hclaim⟩ := hn
  have hsound := h.sound n _ hp
  have hlocks := claim_row.1 hclaim
  cases phase with
  | recovering =>
    cases hlocks
    exact hsound.1
  | _ => simp [ProposalPhase.locks] at hlocks

/-- **Whoever started a run 15 minutes ago has been killed.** -/
theorem Orderly.nobody_works (h : s.Orderly) {runId : Uuid} {run : StrategyResearchRun}
    {startedAt : Time} (hrun : s.store.runs.get? runId = some run)
    (hstarted : run.data.startedAt = some startedAt)
    (hlost : startedAt + strategyRecoveryDelay < s.now) : ∀ m, ¬s.Holds m (.work runId) := by
  rintro m ⟨p, hp, hclaim⟩
  obtain ⟨run', hrun', -, startedAt', hstarted', hbegun⟩ := started_of_work (h.sound m p hp) hclaim
  rw [hrun] at hrun'
  cases hrun'
  rw [hstarted] at hstarted'
  cases hstarted'
  have hlimit := (alive?_eq_some.1 hp).2 (delivery_of_work hclaim)
  have hdelay : strategyTaskLimit ≤ strategyRecoveryDelay := by
    norm_num [strategyTaskLimit, strategyRecoveryDelay, minute, second]
  have hle : p.begunAt + strategyTaskLimit ≤ startedAt + strategyRecoveryDelay :=
    Nat.add_le_add hbegun hdelay
  exact absurd (lt_of_lt_of_le hlimit hle) (not_lt.2 hlost.le)

/-! ## What writes leave to the others -/

/-- Records are added. -/
theorem Respects.extend (ho : s.Orderly) {store store' : ProposalStore Spec Identity}
    (h : s.Respects n store) (hextends : store.Extends store') : s.Respects n store' where
  accepted := by
    intro draftId haccepted
    obtain ⟨draft, hdraft, hstate⟩ := h.accepted draftId haccepted
    exact ⟨draft, hextends.drafts _ _ hdraft, hstate⟩
  runs := by
    intro runId run hseen
    obtain ⟨current, hcurrent, hid⟩ := h.runs runId run hseen
    exact ⟨current, hextends.runs _ _ hcurrent, hid⟩
  lockedDraft := by
    intro m draftId hm hholds
    obtain ⟨draft, hdraft, -⟩ := ho.locked_draft hholds
    rw [hdraft]
    exact hextends.drafts _ _ ((h.lockedDraft m draftId hm hholds).trans hdraft)
  lockedRun := by
    intro m runId hm hholds
    obtain ⟨run, hrun, -⟩ := ho.locked_run hholds
    rw [hrun]
    exact hextends.runs _ _ ((h.lockedRun m runId hm hholds).trans hrun)
  worked := by
    intro m runId hm hholds
    obtain ⟨run, hrun, -⟩ := ho.worked_run hholds
    rw [hrun]
    exact hextends.runs _ _ ((h.worked m runId hm hholds).trans hrun)
  idle := by
    intro m runId hm hholds hidle
    obtain ⟨run, draft, hrun, hstate, hdraft, hopen⟩ := h.idle m runId hm hholds hidle
    exact ⟨run, draft, hextends.runs _ _ hrun, hstate, hextends.drafts _ _ hdraft, hopen⟩

/-- A draft that nobody else has locked, and that is not in research, is written. -/
theorem respects_of_draft {store : ProposalStore Spec Identity} {draftId : Uuid}
    (hverdicts : s.store.KeepsVerdicts store) (hruns : store.runs = s.store.runs)
    (hdrafts : ∀ x, x ≠ draftId → store.drafts.get? x = s.store.drafts.get? x)
    (hfree : ∀ m, m ≠ n → ¬s.Holds m (.row (.draft draftId)))
    (hopen : ∀ draft, s.store.drafts.get? draftId = some draft → draft.state.inResearch = true →
      ∃ draft', store.drafts.get? draftId = some draft' ∧ draft'.state.inResearch = true) :
    s.Respects n store where
  accepted := hverdicts.accepted
  runs := by
    intro runId run hseen
    obtain ⟨current, hcurrent, hid⟩ := hseen
    exact ⟨current, by rw [hruns]; exact hcurrent, hid⟩
  lockedDraft := by
    intro m x hm hholds
    refine hdrafts x ?_
    rintro rfl
    exact hfree m hm hholds
  lockedRun := fun _ _ _ _ => by rw [hruns]
  worked := fun _ _ _ _ => by rw [hruns]
  idle := by
    intro m runId hm hholds hidle
    obtain ⟨run, draft, hrun, hstate, hdraft, hresearch⟩ := hidle
    rw [← hruns] at hrun
    by_cases hx : run.data.draftId = draftId
    · subst hx
      obtain ⟨draft', hdraft', hresearch'⟩ := hopen draft hdraft hresearch
      exact ⟨run, draft', hrun, hstate, hdraft', hresearch'⟩
    · exact ⟨run, draft, hrun, hstate, (hdrafts _ hx).trans hdraft, hresearch⟩

end

section
variable [DecidableEq Spec] {s : ProposalSystem Spec Identity} {n : ℕ}

/-- A run and its draft that nobody else has locked are written, while nobody else is at work. -/
theorem respects_writeBoth (h : s.Orderly) {runId : Uuid} {run currentRun : StrategyResearchRun}
    {draft current : StrategyDraft Spec} (runData : RunData) (runState : ProposalState)
    (data : DraftData Spec) (state : ProposalState)
    (hcurrentRun : s.store.runs.get? runId = some currentRun)
    (hid : run.data.draftId = currentRun.data.draftId)
    (hrunData : runData.draftId = currentRun.data.draftId)
    (hcurrent : s.store.drafts.get? currentRun.data.draftId = some current)
    (hkeeps : s.store.KeepsDecided
      (s.store.writeBoth runId run runData runState draft data state))
    (hfreeRun : ∀ m, m ≠ n → ¬s.Holds m (.row (.run runId)))
    (hfreeDraft : ∀ m, m ≠ n → ¬s.Holds m (.row (.draft run.data.draftId)))
    (halone : ∀ m, m ≠ n → ¬s.Holds m (.work runId))
    (hidle : ∀ m, m ≠ n → s.Holds m (.row (.marketRun runId)) →
      (currentRun.update run runData runState).state ≠ .queued ∧
        (current.update draft data state).state.inResearch = true) :
    s.Respects n (s.store.writeBoth runId run runData runState draft data state) := by
  have hrun : (s.store.writeBoth runId run runData runState draft data state).runs.get? runId =
      some (currentRun.update run runData runState) := ProposalStore.writeRun_self hcurrentRun
  have hruns : ∀ x, x ≠ runId →
      (s.store.writeBoth runId run runData runState draft data state).runs.get? x =
        s.store.runs.get? x := fun x hx => ProposalStore.writeRun_other hx run runData runState
  have hdraftId : (currentRun.update run runData runState).data.draftId =
      currentRun.data.draftId := by
    rcases (Stored.update_data : (currentRun.update run runData runState).data = _ ∨ _) with heq | heq
    · rw [heq]
      exact hrunData
    · rw [heq]
  have hdraft : (s.store.writeBoth runId run runData runState draft data state).drafts.get?
      currentRun.data.draftId = some (current.update draft data state) := by
    rw [← hid]
    refine ProposalStore.writeDraft_self ?_
    rw [hid]
    exact hcurrent
  have hdrafts : ∀ x, x ≠ run.data.draftId →
      (s.store.writeBoth runId run runData runState draft data state).drafts.get? x =
        s.store.drafts.get? x := fun x hx => ProposalStore.writeDraft_other hx draft data state
  refine ⟨hkeeps.verdicts.accepted, ?_, ?_, ?_, ?_, ?_⟩
  · rintro x run' ⟨old, hold, hsame⟩
    by_cases hx : x = runId
    · subst hx
      rw [hcurrentRun] at hold
      cases hold
      exact ⟨_, hrun, hdraftId.trans hsame⟩
    · exact ⟨old, (hruns x hx).trans hold, hsame⟩
  · intro m x hm hholds
    refine hdrafts x ?_
    rintro rfl
    exact hfreeDraft m hm hholds
  · intro m x hm hholds
    refine hruns x ?_
    rintro rfl
    exact hfreeRun m hm hholds
  · intro m x hm hholds
    refine hruns x ?_
    rintro rfl
    exact halone m hm hholds
  · rintro m x hm hholds ⟨old, draft', hold, hstate, hdraft', hresearch⟩
    by_cases hx : x = runId
    · subst hx
      obtain ⟨hqueued, hopen⟩ := hidle m hm hholds
      exact ⟨_, _, hrun, hqueued, by rw [hdraftId]; exact hdraft, hopen⟩
    · refine ⟨old, draft', (hruns x hx).trans hold, hstate, ?_, hresearch⟩
      refine (hdrafts _ ?_).trans hdraft'
      rw [hid]
      intro heq
      exact hx (h.settled.apart x runId old currentRun hold hcurrentRun heq)

end

end ProposalSystem

end Matrades

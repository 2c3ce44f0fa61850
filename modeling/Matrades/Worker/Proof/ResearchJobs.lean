import Matrades.Base.Run
import Matrades.Worker.Research

/-!
# Finished research jobs

A delivery is *at work* on its record from its start to its results, or to its failure if it raises in
between. The task of a research run starts whatever the state of the run, so nothing keeps two
deliveries apart. An import is started only if it is queued, under its lock, and the limits of the task
and of the recovery keep its deliveries apart (`ImportSystem.Accounted`). The results and the failures
of both are written whatever the state is.

A finished job stays as it is if a delivery that is not at work writes it only while it is unfinished
and nobody is at work (`finished_jobs_stay`). Otherwise a redelivery of a completed run starts it again,
and a late handler fails an import that is then completed (`finished_job_changes`).
-/

namespace Matrades

open Base

/-! ## Research runs -/

/-- Does the delivery still write the results or the failure of what it has started? -/
def ResearchPhase.atWork : ResearchPhase → Bool
  | .working | .storing _ _ | .failing true | .markingFailed true _ => true
  | _ => false

namespace ResearchSystem

def AtWork (s : ResearchSystem) (n : ℕ) : Prop :=
  ∃ phase, s.deliveries.get? n = some phase ∧ phase.atWork = true

def Finished (store : ResearchStore) : Prop := store.record.state.terminal = true

/-- The run is unfinished, and nobody else is at work on it. -/
def Alone (s : ResearchSystem) (n : ℕ) : Prop :=
  ¬Finished s.store ∧ ∀ m, s.AtWork m → m = n

/-- **The steps that leave a finished run alone.** A delivery that is not at work starts or fails the
run alone. -/
def OneAtATime (s : ResearchSystem) : ResearchEvent → Prop
  | .act n .start => ∀ loaded, s.deliveries.get? n = some (.starting loaded) → s.Alone n
  | .act n (.markFailed _) =>
    ∀ loaded, s.deliveries.get? n = some (.markingFailed false loaded) → s.Alone n
  | _ => True

/-- A step of the system that one writer at a time takes. -/
abbrev Exclusively (s s' : ResearchSystem) : Prop :=
  ExclusiveStep ResearchSystem.store Finished AtWork s s'

abbrev OneWriter (s : ResearchSystem) : Prop := Exclusive ResearchSystem.store Finished AtWork s

theorem atWork_set {s : ResearchSystem} {n m : ℕ} {phase : ResearchPhase}
    (store : ResearchStore) (h : AtWork { s.setPhase n phase with store } m) :
    m = n ∧ phase.atWork = true ∨ m ≠ n ∧ s.AtWork m := by
  obtain ⟨p, hp, hwork⟩ := h
  by_cases heq : m = n
  · subst heq
    rw [setPhase, Dict.get?_set_self] at hp
    cases hp
    exact .inl ⟨rfl, hwork⟩
  · rw [setPhase, Dict.get?_set_ne _ _ heq] at hp
    exact .inr ⟨heq, p, hp, hwork⟩

/-- A delivery goes on without writing. -/
theorem exclusively_setPhase {s : ResearchSystem} {n : ℕ} {phase : ResearchPhase}
    (h : phase.atWork = true → s.AtWork n) : Exclusively s (s.setPhase n phase) := by
  refine .still rfl fun m hm => ?_
  rcases atWork_set s.store hm with ⟨rfl, hwork⟩ | ⟨-, hm⟩
  · exact h hwork
  · exact hm

/-- The delivery at work writes, and leaves. -/
theorem exclusively_leave {s : ResearchSystem} (hs : s.OneWriter) {n : ℕ} (hn : s.AtWork n)
    {phase : ResearchPhase} (hphase : phase.atWork = false) (store : ResearchStore) :
    Exclusively s { s.setPhase n phase with store } := by
  refine .write n hn fun m hm => ?_
  rcases atWork_set store hm with ⟨-, hwork⟩ | ⟨hne, hm⟩
  · rw [hphase] at hwork
    cases hwork
  · exact absurd (hs.one m n hm hn) hne

/-- A delivery writes alone. -/
theorem exclusively_alone {s : ResearchSystem} {n : ℕ} (halone : s.Alone n) {phase : ResearchPhase}
    {store : ResearchStore} (hphase : phase.atWork = true → ¬Finished store) :
    Exclusively s { s.setPhase n phase with store } := by
  refine .enter n halone.1 halone.2 fun m hm => ?_
  rcases atWork_set store hm with ⟨rfl, hwork⟩ | ⟨hne, hm⟩
  · exact ⟨rfl, hphase hwork⟩
  · exact absurd (halone.2 m hm) hne

theorem alone_of_keys {s : ResearchSystem} {n : ℕ} (h : s.store.record.state.terminal = false)
    (hkeys : ∀ m ∈ s.deliveries.keys, m = n) : s.Alone n := by
  refine ⟨by rw [Finished, h]; decide, ?_⟩
  rintro m ⟨phase, hphase, -⟩
  exact hkeys m (Dict.get?_isSome.1 (by rw [hphase]; rfl))

/-- A run that is started is not finished. -/
theorem startResearch_unfinished {store : ResearchStore} (h : ¬Finished store)
    (loaded : JobRecord ResearchRunState) (now : Time) :
    ¬Finished (startResearch store loaded now) := by
  show ¬(if _ then _ else _ : ResearchRunState).terminal = true
  split
  · exact h
  · exact Bool.false_ne_true

theorem throw_exclusively (s : ResearchSystem) {n : ℕ} {phase : ResearchPhase}
    (hphase : s.deliveries.get? n = some phase) : Exclusively s (s.throw n phase) := by
  cases phase with
  | delivered | starting | stored | failing | markingFailed =>
    exact exclusively_setPhase fun h => by cases h
  | working | storing => exact exclusively_setPhase fun _ => ⟨_, hphase, rfl⟩
  | ended => exact .still rfl fun _ h => h

/-- **A step that meets the condition is exclusive.** -/
theorem step_exclusively {s : ResearchSystem} {l : ResearchEvent} (hs : s.OneWriter)
    (hg : s.OneAtATime l) : Exclusively s (s.step l) := by
  cases l with
  | wait duration => exact .still rfl fun _ h => h
  | deliver n =>
    rw [step]
    split
    · exact .still rfl fun _ h => h
    · exact exclusively_setPhase fun h => by cases h
  | lose n => exact exclusively_setPhase fun h => by cases h
  | act n action =>
    rw [step]
    split
    · exact .still rfl fun _ h => h
    rename_i phase hphase
    cases action with
    | throw =>
      have hthrow := s.throw_exclusively hphase
      cases phase <;> exact hthrow
    | load =>
      cases phase with
      | delivered => exact exclusively_setPhase fun h => by cases h
      | _ => exact .still rfl fun _ h => h
    | start =>
      cases phase with
      | starting loaded =>
        have halone := hg loaded hphase
        exact exclusively_alone halone fun _ => startResearch_unfinished halone.1 loaded s.now
      | _ => exact .still rfl fun _ h => h
    | gather outcome =>
      cases phase with
      | working => exact exclusively_setPhase fun _ => ⟨_, hphase, rfl⟩
      | _ => exact .still rfl fun _ h => h
    | store =>
      cases phase with
      | storing loaded outcome => exact exclusively_leave hs ⟨_, hphase, rfl⟩ rfl _
      | _ => exact .still rfl fun _ h => h
    | returns =>
      cases phase with
      | stored => exact exclusively_setPhase fun h => by cases h
      | _ => exact .still rfl fun _ h => h
    | loadFailed =>
      cases phase with
      | failing working =>
        refine exclusively_setPhase fun h => ⟨_, hphase, ?_⟩
        cases working with
        | true => rfl
        | false => cases h
      | _ => exact .still rfl fun _ h => h
    | markFailed details =>
      cases phase with
      | markingFailed working loaded =>
        cases working with
        | true => exact exclusively_leave hs ⟨_, hphase, rfl⟩ rfl _
        | false => exact exclusively_alone (hg loaded hphase) fun h => by cases h
      | _ => exact .still rfl fun _ h => h

end ResearchSystem

/-! ## History imports -/

/-- Does the delivery still write the results or the failure of what it has started? -/
def ImportPhase.atWork : ImportPhase → Bool
  | .working | .storing _ _ | .failing true | .markingFailed true _ => true
  | _ => false

namespace ImportSystem

/-- The delivery is alive and at work. -/
def AtWork (s : ImportSystem) (n : ℕ) : Prop :=
  ∃ d, s.alive? n = some d ∧ d.phase.atWork = true

def Finished (store : ImportStore) : Prop := store.record.state.terminal = true

/-- The import is unfinished, and nobody else is at work on it. -/
def Alone (s : ImportSystem) (n : ℕ) : Prop :=
  ¬Finished s.store ∧ ∀ m, s.AtWork m → m = n

/-- **The steps that leave a finished import alone.** A delivery that is not at work fails the import
alone. -/
def OneAtATime (s : ImportSystem) : ImportEvent → Prop
  | .act n (.markFailed _) =>
    ∀ d loaded, s.alive? n = some d → d.phase = .markingFailed false loaded → s.Alone n
  | _ => True

abbrev Exclusively (s s' : ImportSystem) : Prop :=
  ExclusiveStep ImportSystem.store Finished AtWork s s'

/-- What steps that meet the condition keep: who is at work has started the import, not before it
began itself. -/
structure Accounted (s : ImportSystem) : Prop where
  begun : ∀ n d, s.deliveries.get? n = some d → d.begunAt ≤ s.now
  one : ∀ n m, s.AtWork n → s.AtWork m → n = m
  owned : ∀ n d, s.alive? n = some d → d.phase.atWork = true → s.store.record.state = .ingesting ∧
    ∃ startedAt, s.store.record.data.startedAt = some startedAt ∧ d.begunAt ≤ startedAt

theorem Accounted.exclusive {s : ImportSystem} (h : s.Accounted) :
    Exclusive ImportSystem.store Finished AtWork s := by
  refine ⟨h.one, ?_⟩
  rintro n ⟨d, hd, hwork⟩ hfinished
  rw [Finished, (h.owned n d hd hwork).1] at hfinished
  cases hfinished

theorem alive?_eq_some {s : ImportSystem} {n : ℕ} {d : ImportDelivery} :
    s.alive? n = some d ↔ s.deliveries.get? n = some d ∧ s.now < d.begunAt + importLimit := by
  simp [alive?, Option.filter_eq_some_iff]

theorem importLimit_le : importLimit ≤ importRecoveryDelay := by
  norm_num [importLimit, importRecoveryDelay, minute, second]

/-- A step that keeps the invariant and is exclusive. -/
structure Safe (s s' : ImportSystem) : Prop where
  accounted : s'.Accounted
  exclusively : Exclusively s s'

section
variable {s : ImportSystem} (h : s.Accounted)
include h

/-- Nothing is written, and nobody comes to work. -/
theorem Accounted.frame {s' : ImportSystem} (hstore : s'.store = s.store)
    (hbegun : ∀ n d, s'.deliveries.get? n = some d → d.begunAt ≤ s'.now)
    (hwork : ∀ n d, s'.alive? n = some d → d.phase.atWork = true →
      ∃ d₀, s.alive? n = some d₀ ∧ d₀.phase.atWork = true ∧ d₀.begunAt = d.begunAt) :
    Safe s s' := by
  have hwrites : ∀ n, s'.AtWork n → s.AtWork n := by
    rintro n ⟨d, hd, hn⟩
    obtain ⟨d₀, hd₀, hn₀, -⟩ := hwork n d hd hn
    exact ⟨d₀, hd₀, hn₀⟩
  refine ⟨⟨hbegun, fun n m hn hm => h.one n m (hwrites n hn) (hwrites m hm), ?_⟩,
    .still hstore hwrites⟩
  intro n d hd hn
  obtain ⟨d₀, hd₀, hn₀, hbegan⟩ := hwork n d hd hn
  rw [hstore, ← hbegan]
  exact h.owned n d₀ hd₀ hn₀

omit h in
/-- Nobody is at work. -/
theorem accounted_of_nobody (hbegun : ∀ n d, s.deliveries.get? n = some d → d.begunAt ≤ s.now)
    (hnobody : ∀ n, ¬s.AtWork n) : s.Accounted where
  begun := hbegun
  one := fun n _ hn _ => absurd hn (hnobody n)
  owned := fun n d hd hn => absurd ⟨d, hd, hn⟩ (hnobody n)

theorem Accounted.begun_setPhase {n : ℕ} {d : ImportDelivery} (hd : s.alive? n = some d)
    (phase : ImportPhase) :
    ∀ m e, (s.setPhase n d phase).deliveries.get? m = some e → e.begunAt ≤ s.now := by
  intro m e he
  by_cases heq : m = n
  · subst heq
    rw [setPhase, Dict.get?_set_self] at he
    cases he
    exact h.begun m d (alive?_eq_some.1 hd).1
  · rw [setPhase, Dict.get?_set_ne _ _ heq] at he
    exact h.begun m e he

omit h in
theorem alive_setPhase {n m : ℕ} {d e : ImportDelivery} {phase : ImportPhase}
    (store : ImportStore) (he : alive? { s.setPhase n d phase with store } m = some e) :
    m = n ∧ e = { d with phase } ∨ m ≠ n ∧ s.alive? m = some e := by
  obtain ⟨hget, hlimit⟩ := alive?_eq_some.1 he
  by_cases heq : m = n
  · subst heq
    rw [setPhase, Dict.get?_set_self] at hget
    cases hget
    exact .inl ⟨rfl, rfl⟩
  · rw [setPhase, Dict.get?_set_ne _ _ heq] at hget
    exact .inr ⟨heq, alive?_eq_some.2 ⟨hget, hlimit⟩⟩

theorem Accounted.refl : Safe s s :=
  h.frame rfl h.begun fun _ d hd hn => ⟨d, hd, hn, rfl⟩

/-- A delivery goes on without writing. -/
theorem Accounted.setPhase {n : ℕ} {d : ImportDelivery} {phase : ImportPhase}
    (hd : s.alive? n = some d) (hphase : phase.atWork = true → d.phase.atWork = true) :
    Safe s (s.setPhase n d phase) := by
  refine h.frame rfl (h.begun_setPhase hd phase) fun m e he hwork => ?_
  rcases alive_setPhase s.store he with ⟨rfl, rfl⟩ | ⟨-, he⟩
  · exact ⟨d, hd, hphase hwork, rfl⟩
  · exact ⟨e, he, hwork, rfl⟩

/-- The delivery at work writes, and leaves. -/
theorem Accounted.leave {n : ℕ} {d : ImportDelivery} (hd : s.alive? n = some d)
    (hwork : d.phase.atWork = true) {phase : ImportPhase} (hphase : phase.atWork = false)
    (store : ImportStore) : Safe s { s.setPhase n d phase with store } := by
  have hnobody : ∀ m, ¬AtWork { s.setPhase n d phase with store } m := by
    rintro m ⟨e, he, hm⟩
    rcases alive_setPhase _ he with ⟨rfl, rfl⟩ | ⟨hne, he⟩
    · rw [hphase] at hm
      cases hm
    · exact hne (h.one m n ⟨e, he, hm⟩ ⟨d, hd, hwork⟩)
  exact ⟨accounted_of_nobody (h.begun_setPhase hd phase) hnobody,
    .write n ⟨d, hd, hwork⟩ fun m hm => absurd hm (hnobody m)⟩

/-- A delivery that is not at work fails the import alone. -/
theorem Accounted.fail {n : ℕ} {d : ImportDelivery} (hd : s.alive? n = some d)
    (halone : s.Alone n) (store : ImportStore) :
    Safe s { s.setPhase n d .ended with store } := by
  have hnobody : ∀ m, ¬AtWork { s.setPhase n d .ended with store } m := by
    rintro m ⟨e, he, hm⟩
    rcases alive_setPhase _ he with ⟨rfl, rfl⟩ | ⟨hne, he⟩
    · cases hm
    · exact hne (halone.2 m ⟨e, he, hm⟩)
  exact ⟨accounted_of_nobody (h.begun_setPhase hd .ended) hnobody,
    .enter n halone.1 halone.2 fun m hm => absurd hm (hnobody m)⟩

/-- Nobody is at work on an import that is not ingesting. -/
theorem Accounted.nobody (hstate : s.store.record.state ≠ .ingesting) : ∀ m, ¬s.AtWork m := by
  rintro m ⟨d, hd, hwork⟩
  exact hstate (h.owned m d hd hwork).1

/-- **A queued import is started by one delivery.** -/
theorem Accounted.start {n : ℕ} {d : ImportDelivery} (hd : s.alive? n = some d) :
    Safe s (s.start n d) := by
  unfold ImportSystem.start
  split
  · exact h.setPhase hd fun hwork => by cases hwork
  rename_i hstate
  rw [not_not] at hstate
  have hnobody := h.nobody (by rw [hstate]; decide)
  have hown : ∀ m e, alive? { s.setPhase n d .working with store := startImport s.store s.now } m =
      some e → e.phase.atWork = true → m = n ∧ e = { d with phase := .working } := by
    intro m e he hwork
    rcases alive_setPhase _ he with hn | ⟨-, he⟩
    · exact hn
    · exact absurd ⟨e, he, hwork⟩ (hnobody m)
  refine ⟨⟨h.begun_setPhase hd .working, ?_, ?_⟩, .enter n ?_ ?_ ?_⟩
  · rintro m m' ⟨e, he, hm⟩ ⟨e', he', hm'⟩
    rw [(hown m e he hm).1, (hown m' e' he' hm').1]
  · intro m e he hwork
    obtain ⟨rfl, rfl⟩ := hown m e he hwork
    exact ⟨rfl, s.now, rfl, h.begun m d (alive?_eq_some.1 hd).1⟩
  · rw [Finished, hstate]
    decide
  · exact fun m hm => absurd hm (hnobody m)
  · rintro m ⟨e, he, hwork⟩
    exact ⟨(hown m e he hwork).1, Bool.false_ne_true⟩

/-- **Whoever started an import 25 minutes ago has been killed.** -/
theorem Accounted.recover : Safe s s.recover := by
  unfold ImportSystem.recover
  split
  · rename_i hlost
    obtain ⟨hstate, hany⟩ := hlost
    have hnobody : ∀ n, ¬s.AtWork n := by
      rintro n ⟨d, hd, hwork⟩
      obtain ⟨-, startedAt, hstarted, hbegan⟩ := h.owned n d hd hwork
      have hlimit := (alive?_eq_some.1 hd).2
      rw [hstarted, Option.any_some, decide_eq_true_eq] at hany
      have hkilled : d.begunAt + importLimit ≤ startedAt + importRecoveryDelay :=
        Nat.add_le_add hbegan importLimit_le
      exact absurd (hkilled.trans hany) (Nat.not_le.2 hlimit)
    have hafter : ∀ n, ¬AtWork { s with store := { s.store with record :=
        { s.store.record with state := .queued } } } n := fun n hn => hnobody n hn
    refine ⟨accounted_of_nobody h.begun hafter, .enter 0 ?_ ?_ ?_⟩
    · rw [Finished, hstate]
      decide
    · exact fun m hm => absurd hm (hnobody m)
    · exact fun m hm => absurd hm (hafter m)
  · exact h.refl

theorem Accounted.throw {n : ℕ} {d : ImportDelivery} (hd : s.alive? n = some d) :
    Safe s (s.throw n d) := by
  unfold ImportSystem.throw
  cases hphase : d.phase with
  | delivered | stored | failing | markingFailed =>
    exact h.setPhase hd fun hwork => by cases hwork
  | working | storing => exact h.setPhase hd fun _ => by rw [hphase]; rfl
  | ended => exact h.refl

theorem Accounted.proceed {n : ℕ} {d : ImportDelivery} (hd : s.alive? n = some d)
    (action : ImportAction) (hg : s.OneAtATime (.act n action)) :
    Safe s (s.proceed n d action) := by
  unfold ImportSystem.proceed
  split
  · exact h.start hd
  · rename_i hphase
    exact h.setPhase hd fun _ => by rw [hphase]; rfl
  · rename_i hphase
    exact h.leave hd (by rw [hphase]; rfl) rfl _
  · exact h.setPhase hd fun hwork => by cases hwork
  · rename_i working hphase
    refine h.setPhase hd fun hwork => ?_
    rw [hphase]
    cases working with
    | true => rfl
    | false => cases hwork
  · rename_i working loaded errorType hphase
    cases working with
    | true => exact h.leave hd (by rw [hphase]; rfl) rfl _
    | false => exact h.fail hd (hg d loaded hd hphase) _
  · exact h.throw hd
  · exact h.refl

/-- **A step that meets the condition keeps the invariant.** -/
theorem Accounted.step {l : ImportEvent} (hg : s.OneAtATime l) : Safe s (s.step l) := by
  cases l with
  | wait duration =>
    refine h.frame rfl (fun n d hd => (h.begun n d hd).trans (Nat.le_add_right _ _)) ?_
    intro n d hd hwork
    obtain ⟨hget, hlimit⟩ := alive?_eq_some.1 hd
    exact ⟨d, alive?_eq_some.2 ⟨hget, (Nat.le_add_right _ _).trans_lt hlimit⟩, hwork, rfl⟩
  | deliver n =>
    rw [ImportSystem.step]
    split
    · exact h.refl
    refine h.frame rfl ?_ ?_
    · intro m e he
      by_cases heq : m = n
      · subst heq
        rw [Dict.get?_set_self] at he
        cases he
        exact le_refl _
      · rw [Dict.get?_set_ne _ _ heq] at he
        exact h.begun m e he
    · intro m e he hwork
      obtain ⟨hget, hlimit⟩ := alive?_eq_some.1 he
      by_cases heq : m = n
      · subst heq
        rw [Dict.get?_set_self] at hget
        cases hget
        cases hwork
      · rw [Dict.get?_set_ne _ _ heq] at hget
        exact ⟨e, alive?_eq_some.2 ⟨hget, hlimit⟩, hwork, rfl⟩
  | act n action =>
    rw [ImportSystem.step]
    split
    · exact h.refl
    · rename_i d hd
      exact h.proceed hd action hg
  | lose n =>
    rw [ImportSystem.step]
    split
    · exact h.refl
    rename_i d hd
    refine h.frame rfl ?_ ?_
    · intro m e he
      by_cases heq : m = n
      · subst heq
        rw [ImportSystem.setPhase, Dict.get?_set_self] at he
        cases he
        exact h.begun m d hd
      · rw [ImportSystem.setPhase, Dict.get?_set_ne _ _ heq] at he
        exact h.begun m e he
    · intro m e he hwork
      rcases alive_setPhase s.store he with ⟨rfl, rfl⟩ | ⟨-, he⟩
      · cases hwork
      · exact ⟨e, he, hwork, rfl⟩
  | recover => exact h.recover

end

end ImportSystem

/-! ## Runs -/

/-- **Finished research jobs stay finished**, with their results, their selections and their instruments,
if a delivery that is not at work writes only alone. -/
theorem finished_jobs_stay (research : ResearchSystem) (before after : List ResearchEvent)
    (imports : ImportSystem) (before' after' : List ImportEvent)
    (hresearch : research.deliveries = Dict.empty) (himports : imports.deliveries = Dict.empty) :
    (Along ResearchSystem.step ResearchSystem.OneAtATime research (before ++ after) →
      (run ResearchSystem.step research before).store.record.state.terminal = true →
      (run ResearchSystem.step research (before ++ after)).store =
        (run ResearchSystem.step research before).store) ∧
    (Along ImportSystem.step ImportSystem.OneAtATime imports (before' ++ after') →
      (run ImportSystem.step imports before').store.record.state.terminal = true →
      (run ImportSystem.step imports (before' ++ after')).store =
        (run ImportSystem.step imports before').store) := by
  constructor
  · intro hg hfinished
    have hnobody : ∀ n, ¬research.AtWork n := by
      rintro n ⟨phase, hphase, -⟩
      rw [hresearch] at hphase
      cases hphase
    have hone : research.OneWriter :=
      ⟨fun n _ hn _ => absurd hn (hnobody n), fun n hn => absurd hn (hnobody n)⟩
    have hexclusive : ∀ s : ResearchSystem, s.OneWriter →
        Exclusive ResearchSystem.store ResearchSystem.Finished ResearchSystem.AtWork s :=
      fun _ hs => hs
    exact finished_stays hexclusive (fun _ _ hs hg => (hs.step (ResearchSystem.step_exclusively hs hg)).1)
      (fun _ _ hs hg => ResearchSystem.step_exclusively hs hg) hone hg hfinished
  · intro hg hfinished
    have haccounted : imports.Accounted := by
      apply ImportSystem.accounted_of_nobody
      · simp [himports]
      · rintro n ⟨d, hd, -⟩
        rw [ImportSystem.alive?, himports] at hd
        cases hd
    have hexclusive : ∀ s : ImportSystem, s.Accounted →
        Exclusive ImportSystem.store ImportSystem.Finished ImportSystem.AtWork s :=
      fun _ hs => hs.exclusive
    exact finished_stays hexclusive (fun _ _ hs hg => (hs.step hg).accounted) (fun _ _ hs hg => (hs.step hg).exclusively)
      haccounted hg hfinished

/-! ## A run and an import -/

def queuedResearch : ResearchSystem := ⟨0, ⟨⟨.queued, {}⟩, Dict.empty, Dict.empty⟩, Dict.empty⟩

def queuedImport : ImportSystem := ⟨0, ⟨⟨.queued, {}⟩, Dict.empty⟩, Dict.empty⟩

def euroListing : VenueInstrument where
  id := ⟨10⟩
  underlyingId := ⟨11⟩
  symbol := "EURUSD"
  assetClass := .forex
  instrumentType := .spot

def euroTerms : InstrumentSpecificationVersion where
  id := ⟨12⟩
  effectiveFrom := 0
  quantityUnit := .units
  provenance := [("source", "venue")]

def euroFingerprint : TypedMarketFingerprint where
  listingId := ⟨10⟩
  assetClass := .forex
  instrumentType := .spot
  observedAt := 0
  sourceCutId := "cut"
  regime := "RANGING"
  trendScore := 0
  volatilityScore := 0
  liquidityScore := 1 / 2
  dataQuality := 1 / 2
  criteria := Dict.empty
  limitations := []
  marketSession := "NO_WEEKEND_CLOSURE"
  quoteObservedAt := none
  candleObservedAt := none
  sessionCloseReference := none

def euroCandidate (score : ℚ) : TypedResearchCandidate :=
  ⟨⟨13⟩, ⟨.forex, .spot⟩, euroListing, euroTerms, 1, score, euroFingerprint, []⟩

def euroResult (score : ℚ) : ResearchLaneResult where
  lane := ⟨.forex, .spot⟩
  status := .ready
  candidate := some (euroCandidate score)
  rankedCandidates := [euroCandidate score]

/-- A cycle whose only lane has a winner. -/
def euroCycle (score : ℚ) : CycleOutcome where
  serialized := Dict.ofList [("status", "COMPLETED")]
  degraded := false
  run := some {
    id := ⟨1⟩
    ownerId := ⟨2⟩
    accountId := ⟨3⟩
    matrixVersion := 1
    requestedLanes := [⟨.forex, .spot⟩]
    laneResults := [euroResult score]
    state := .completed }

def cycleOf (n : ℕ) (score : ℚ) : List ResearchEvent :=
  [.deliver n, .act n .load, .act n .start, .act n (.gather (euroCycle score)), .act n .store]

def euroImport : ImportOutcome := ⟨"dataset", Dict.ofList [("checksum", "c")]⟩

def importBy (n : ℕ) : List ImportEvent :=
  [.deliver n, .act n .start, .act n (.load euroImport), .act n .store]

/-- A redelivery that is lost before it starts, and one of an import that is completed. -/
theorem finished_jobs_stay_redelivered :
    (run ResearchSystem.step queuedResearch
        (cycleOf 1 60 ++ [.act 1 .returns, .deliver 2, .act 2 .load, .lose 2])).store =
      (run ResearchSystem.step queuedResearch (cycleOf 1 60)).store ∧
    (run ImportSystem.step queuedImport (importBy 1 ++
        [.act 1 .returns, .deliver 2, .act 2 .start])).store =
      (run ImportSystem.step queuedImport (importBy 1)).store := by
  have hresearch : Along ResearchSystem.step ResearchSystem.OneAtATime queuedResearch
      (cycleOf 1 60 ++ [.act 1 .returns, .deliver 2, .act 2 .load, .lose 2]) := by
    refine ⟨trivial, trivial, fun _ _ => ?_, trivial, trivial, trivial, trivial, trivial, trivial,
      trivial⟩
    exact ResearchSystem.alone_of_keys (by decide +kernel) (by decide +kernel)
  have himports : Along ImportSystem.step ImportSystem.OneAtATime queuedImport
      (importBy 1 ++ [.act 1 .returns, .deliver 2, .act 2 .start]) :=
    ⟨trivial, trivial, trivial, trivial, trivial, trivial, trivial, trivial⟩
  obtain ⟨hrun, himport⟩ := finished_jobs_stay queuedResearch (cycleOf 1 60)
    [.act 1 .returns, .deliver 2, .act 2 .load, .lose 2] queuedImport (importBy 1)
    [.act 1 .returns, .deliver 2, .act 2 .start] rfl rfl
  exact ⟨hrun hresearch (by decide +kernel), himport himports (by decide +kernel)⟩

def selectedScore (s : ResearchSystem) : Option ℚ :=
  (s.store.selections.get? ⟨.forex, .spot⟩).map fun selection => selection.candidate.score

/-- **A redelivery starts a completed run again** and refreshes its selection, a late handler fails it;
and an import that a handler has failed is completed by another delivery. -/
theorem finished_job_changes :
    (let s := run ResearchSystem.step queuedResearch (cycleOf 1 60)
     let again := run ResearchSystem.step s [.deliver 2, .act 2 .load, .act 2 .start]
     let refreshed := run ResearchSystem.step s (cycleOf 2 40)
     let failed := run ResearchSystem.step s
       [.act 1 .throw, .act 1 .loadFailed, .act 1 (.markFailed Dict.empty)]
     s.store.record.state = .completed ∧ selectedScore s = some 60 ∧
       again.store.record.state = .researching ∧ selectedScore refreshed = some 40 ∧
       failed.store.record.state = .failed) ∧
    let s := run ImportSystem.step queuedImport [.deliver 1, .deliver 2, .act 1 .throw,
      .act 2 .start, .act 1 .loadFailed, .act 1 (.markFailed "OperationalError")]
    let s' := run ImportSystem.step s [.act 2 (.load euroImport), .act 2 .store]
    s.store.record.state = .failed ∧ s'.store.record.state = .completed := by
  decide +kernel

end Matrades

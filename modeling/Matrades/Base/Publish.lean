import Mathlib.Logic.Function.Basic
import Matrades.Base.Run

/-!
# Publishing files by linking

Names lead to inodes, inodes hold bytes. A writer of the payload of a job makes a temporary file, writes it in
any number of pieces, closes it and links it under the name of the job, unless the name is taken by then; where
the name is taken at the start it writes nothing. Writers may fail or crash between any two steps. A linked
inode is reached from the name, and from the temporary name of its writer until that is removed.

`Sound` holds of every state that writers reach from an empty directory (`sound_run`): a name leads to the
complete payload of a job with this name, to which nobody writes, and a writer that is done has its name. So a
name that exists keeps its contents forever (`kept_run`).
-/

namespace Matrades.Base

namespace Publish

/-- Where a writer is. Its temporary file is `inode`. -/
inductive Stage
  | begun
  | writing (inode written : ℕ)
  | closed (inode : ℕ)
  | done
  | failed
  deriving DecidableEq, Repr

structure Directory (J ν β : Type) where
  target : ν → Option ℕ := fun _ => none
  content : ℕ → List β := fun _ => []
  /-- No inode from here on is in use. -/
  next : ℕ := 0
  writers : ℕ → Option (J × Stage) := fun _ => none
  /-- The jobs begun. -/
  jobs : List J := []

inductive Event (J : Type)
  | begin (w : ℕ) (job : J)
  /-- Is there a file of the name? If not, a temporary file is made. -/
  | check (w : ℕ)
  | write (w n : ℕ)
  | close (w : ℕ)
  | link (w : ℕ)
  | fail (w : ℕ)
  | crash (w : ℕ)

variable {J ν β : Type}

def move (d : Directory J ν β) (w : ℕ) (job : J) (stage : Stage) : Directory J ν β :=
  { d with writers := Function.update d.writers w (some (job, stage)) }

/-- The inode that a writer may still write to or link. -/
def Stage.holds : Stage → Option ℕ
  | .writing inode _ => some inode
  | .closed inode => some inode
  | _ => none

section
variable (name : J → ν) (payload : J → List β)

structure Sound (d : Directory J ν β) : Prop where
  published : ∀ n inode, d.target n = some inode →
    inode < d.next ∧ ∃ job ∈ d.jobs, name job = n ∧ d.content inode = payload job
  unwritten : ∀ n inode, d.target n = some inode →
    ∀ w job stage, d.writers w = some (job, stage) → stage.holds ≠ some inode
  begun : ∀ w job stage, d.writers w = some (job, stage) → job ∈ d.jobs
  inUse : ∀ w job stage inode, d.writers w = some (job, stage) → stage.holds = some inode → inode < d.next
  own : ∀ w w' job job' stage stage' inode, d.writers w = some (job, stage) →
    d.writers w' = some (job', stage') → stage.holds = some inode → stage'.holds = some inode → w = w'
  partly : ∀ w job inode written, d.writers w = some (job, .writing inode written) →
    d.content inode = (payload job).take written
  complete : ∀ w job inode, d.writers w = some (job, .closed inode) → d.content inode = payload job
  done : ∀ w job, d.writers w = some (job, .done) → (d.target (name job)).isSome

variable {name payload}

theorem Sound.initial : Sound name payload ({} : Directory J ν β) where
  published _ _ h := by cases h
  unwritten _ _ h := by cases h
  begun _ _ _ h := by cases h
  inUse _ _ _ _ h := by cases h
  own _ _ _ _ _ _ _ h := by cases h
  partly _ _ _ _ h := by cases h
  complete _ _ _ h := by cases h
  done _ _ h := by cases h

/-- A writer of the directory in which `w` has moved. -/
theorem of_move {d : Directory J ν β} {w w' : ℕ} {job job' : J} {stage stage' : Stage}
    (h : (move d w job stage).writers w' = some (job', stage')) :
    w' = w ∧ job' = job ∧ stage' = stage ∨ w' ≠ w ∧ d.writers w' = some (job', stage') := by
  unfold move at h
  by_cases hw : w' = w
  · subst hw
    simp only [Function.update_self] at h
    cases h
    exact .inl ⟨rfl, rfl, rfl⟩
  · simp only [Function.update_of_ne hw] at h
    exact .inr ⟨hw, h⟩

namespace Sound

variable {d : Directory J ν β} (h : Sound name payload d)
include h

/-- A writer moves on and leaves the files as they are. -/
theorem move {w : ℕ} {job : J} {old stage : Stage} (hw : d.writers w = some (job, old))
    (hholds : ∀ inode, stage.holds = some inode → old.holds = some inode)
    (hpartly : ∀ inode written, stage = .writing inode written →
      d.content inode = (payload job).take written)
    (hcomplete : ∀ inode, stage = .closed inode → d.content inode = payload job)
    (hdone : stage = .done → (d.target (name job)).isSome) :
    Sound name payload (move d w job stage) where
  published := h.published
  unwritten n inode htarget w' job' stage' hw' hinode := by
    rcases of_move hw' with ⟨-, -, rfl⟩ | ⟨-, hw'⟩
    · exact h.unwritten n inode htarget w job old hw (hholds inode hinode)
    · exact h.unwritten n inode htarget w' job' stage' hw' hinode
  begun w' job' stage' hw' := by
    rcases of_move hw' with ⟨-, rfl, -⟩ | ⟨-, hw'⟩
    · exact h.begun w job' old hw
    · exact h.begun w' job' stage' hw'
  inUse w' job' stage' inode hw' hinode := by
    rcases of_move hw' with ⟨-, rfl, rfl⟩ | ⟨-, hw'⟩
    · exact h.inUse w job' old inode hw (hholds inode hinode)
    · exact h.inUse w' job' stage' inode hw' hinode
  own w₁ w₂ job₁ job₂ stage₁ stage₂ inode h₁ h₂ hi₁ hi₂ := by
    have hold : ∀ w' job' stage', (Publish.move d w job stage).writers w' = some (job', stage') →
        stage'.holds = some inode → ∃ job'' stage'', d.writers w' = some (job'', stage'') ∧
          stage''.holds = some inode := by
      intro w' job' stage' hw' hi
      rcases of_move hw' with ⟨rfl, rfl, rfl⟩ | ⟨-, hw'⟩
      · exact ⟨_, _, hw, hholds inode hi⟩
      · exact ⟨_, _, hw', hi⟩
    obtain ⟨_, _, h₁, hi₁⟩ := hold w₁ job₁ stage₁ h₁ hi₁
    obtain ⟨_, _, h₂, hi₂⟩ := hold w₂ job₂ stage₂ h₂ hi₂
    exact h.own w₁ w₂ _ _ _ _ inode h₁ h₂ hi₁ hi₂
  partly w' job' inode written hw' := by
    rcases of_move hw' with ⟨-, rfl, hstage⟩ | ⟨-, hw'⟩
    · exact hpartly inode written hstage.symm
    · exact h.partly w' job' inode written hw'
  complete w' job' inode hw' := by
    rcases of_move hw' with ⟨-, rfl, hstage⟩ | ⟨-, hw'⟩
    · exact hcomplete inode hstage.symm
    · exact h.complete w' job' inode hw'
  done w' job' hw' := by
    rcases of_move hw' with ⟨-, rfl, hstage⟩ | ⟨-, hw'⟩
    · exact hdone hstage.symm
    · exact h.done w' job' hw'

/-- A writer makes its temporary file. -/
theorem create {w : ℕ} {job : J} (hw : d.writers w = some (job, .begun)) :
    Sound name payload { Publish.move d w job (.writing d.next 0) with
      content := Function.update d.content d.next [], next := d.next + 1 } := by
  have hnew : ∀ w' job' stage', d.writers w' = some (job', stage') → stage'.holds ≠ some d.next := by
    intro w' job' stage' hw' hinode
    exact absurd (h.inUse w' job' stage' d.next hw' hinode) (Nat.lt_irrefl _)
  have hcontent : ∀ inode, inode < d.next → Function.update d.content d.next [] inode = d.content inode :=
    fun inode hlt => Function.update_of_ne (Nat.ne_of_lt hlt) _ _
  constructor
  case published =>
    intro n inode htarget
    obtain ⟨hlt, job', hjob', hname, hpayload⟩ := h.published n inode htarget
    exact ⟨Nat.lt_succ_of_lt hlt, job', hjob', hname, (hcontent inode hlt).trans hpayload⟩
  case unwritten =>
    intro n inode htarget w' job' stage' hw' hinode
    rcases of_move hw' with ⟨-, -, rfl⟩ | ⟨-, hw'⟩
    · cases hinode
      exact absurd (h.published n d.next htarget).1 (Nat.lt_irrefl _)
    · exact h.unwritten n inode htarget w' job' stage' hw' hinode
  case begun =>
    intro w' job' stage' hw'
    rcases of_move hw' with ⟨-, rfl, -⟩ | ⟨-, hw'⟩
    · exact h.begun w job' _ hw
    · exact h.begun w' job' stage' hw'
  case inUse =>
    intro w' job' stage' inode hw' hinode
    rcases of_move hw' with ⟨-, -, rfl⟩ | ⟨-, hw'⟩
    · cases hinode
      exact Nat.lt_succ_self _
    · exact Nat.lt_succ_of_lt (h.inUse w' job' stage' inode hw' hinode)
  case own =>
    intro w₁ w₂ job₁ job₂ stage₁ stage₂ inode h₁ h₂ hi₁ hi₂
    rcases of_move h₁ with ⟨hw₁, -, rfl⟩ | ⟨-, h₁⟩
    · cases hi₁
      rcases of_move h₂ with ⟨hw₂, -, -⟩ | ⟨-, h₂⟩
      · rw [hw₁, hw₂]
      · exact absurd hi₂ (hnew w₂ job₂ stage₂ h₂)
    · rcases of_move h₂ with ⟨-, -, rfl⟩ | ⟨-, h₂⟩
      · cases hi₂
        exact absurd hi₁ (hnew w₁ job₁ stage₁ h₁)
      · exact h.own w₁ w₂ job₁ job₂ stage₁ stage₂ inode h₁ h₂ hi₁ hi₂
  case partly =>
    intro w' job' inode written hw'
    rcases of_move hw' with ⟨-, -, hstage⟩ | ⟨-, hw'⟩
    · cases hstage
      exact Function.update_self _ _ _
    · exact (hcontent inode (h.inUse w' job' _ inode hw' rfl)).trans (h.partly w' job' inode written hw')
  case complete =>
    intro w' job' inode hw'
    rcases of_move hw' with ⟨-, -, hstage⟩ | ⟨-, hw'⟩
    · cases hstage
    · exact (hcontent inode (h.inUse w' job' _ inode hw' rfl)).trans (h.complete w' job' inode hw')
  case done =>
    intro w' job' hw'
    rcases of_move hw' with ⟨-, -, hstage⟩ | ⟨-, hw'⟩
    · cases hstage
    · exact h.done w' job' hw'

/-- A writer writes to its temporary file; no other file changes. -/
theorem write {w : ℕ} {job : J} {inode written : ℕ} (hw : d.writers w = some (job, .writing inode written))
    (n : ℕ) :
    Sound name payload { Publish.move d w job (.writing inode (written + n)) with
      content := Function.update d.content inode ((payload job).take (written + n)) } := by
  have hother : ∀ w' job' stage' inode', w' ≠ w → d.writers w' = some (job', stage') →
      stage'.holds = some inode' →
      Function.update d.content inode ((payload job).take (written + n)) inode' = d.content inode' := by
    intro w' job' stage' inode' hne hw' hinode'
    refine Function.update_of_ne (fun heq => hne ?_) _ _
    exact h.own w' w job' job stage' _ inode hw' hw (heq ▸ hinode') rfl
  have hmoved : ∀ w' job' stage', (Publish.move d w job (.writing inode (written + n))).writers w' =
      some (job', stage') → ∃ stage'', d.writers w' = some (job', stage'') ∧
        ∀ i, stage'.holds = some i → stage''.holds = some i := by
    intro w' job' stage' hw'
    rcases of_move hw' with ⟨rfl, rfl, rfl⟩ | ⟨-, hw'⟩
    · exact ⟨_, hw, fun i hi => hi⟩
    · exact ⟨stage', hw', fun i hi => hi⟩
  constructor
  case published =>
    intro n' inode' htarget
    obtain ⟨hlt, job', hjob', hname, hpayload⟩ := h.published n' inode' htarget
    refine ⟨hlt, job', hjob', hname, ?_⟩
    have hne : inode' ≠ inode := by
      rintro rfl
      exact h.unwritten n' inode' htarget w job _ hw rfl
    exact (Function.update_of_ne hne _ _).trans hpayload
  case unwritten =>
    intro n' inode' htarget w' job' stage' hw' hinode
    obtain ⟨stage'', hw'', hholds⟩ := hmoved w' job' stage' hw'
    exact h.unwritten n' inode' htarget w' job' stage'' hw'' (hholds inode' hinode)
  case begun =>
    intro w' job' stage' hw'
    obtain ⟨stage'', hw'', -⟩ := hmoved w' job' stage' hw'
    exact h.begun w' job' stage'' hw''
  case inUse =>
    intro w' job' stage' inode' hw' hinode
    obtain ⟨stage'', hw'', hholds⟩ := hmoved w' job' stage' hw'
    exact h.inUse w' job' stage'' inode' hw'' (hholds inode' hinode)
  case own =>
    intro w₁ w₂ job₁ job₂ stage₁ stage₂ inode' h₁ h₂ hi₁ hi₂
    obtain ⟨_, h₁, hh₁⟩ := hmoved w₁ job₁ stage₁ h₁
    obtain ⟨_, h₂, hh₂⟩ := hmoved w₂ job₂ stage₂ h₂
    exact h.own w₁ w₂ _ _ _ _ inode' h₁ h₂ (hh₁ inode' hi₁) (hh₂ inode' hi₂)
  case partly =>
    intro w' job' inode' written' hw'
    rcases of_move hw' with ⟨-, rfl, hstage⟩ | ⟨hne, hw'⟩
    · cases hstage
      exact Function.update_self _ _ _
    · exact (hother w' job' _ inode' hne hw' rfl).trans (h.partly w' job' inode' written' hw')
  case complete =>
    intro w' job' inode' hw'
    rcases of_move hw' with ⟨-, -, hstage⟩ | ⟨hne, hw'⟩
    · cases hstage
    · exact (hother w' job' _ inode' hne hw' rfl).trans (h.complete w' job' inode' hw')
  case done =>
    intro w' job' hw'
    rcases of_move hw' with ⟨-, -, hstage⟩ | ⟨-, hw'⟩
    · cases hstage
    · exact h.done w' job' hw'

/-- A writer begins, or is gone. -/
theorem enter (w : ℕ) (writer : Option (J × Stage)) {jobs : List J} (hjobs : ∀ job ∈ d.jobs, job ∈ jobs)
    (hwriter : ∀ job stage, writer = some (job, stage) → job ∈ jobs ∧ stage = .begun) :
    Sound name payload { d with writers := Function.update d.writers w writer, jobs } := by
  have hold : ∀ w' job' stage', Function.update d.writers w writer w' = some (job', stage') →
      stage' = .begun ∨ d.writers w' = some (job', stage') := by
    intro w' job' stage' hw'
    by_cases hne : w' = w
    · subst hne
      rw [Function.update_self] at hw'
      exact .inl (hwriter job' stage' hw').2
    · rw [Function.update_of_ne hne] at hw'
      exact .inr hw'
  have hholds : ∀ w' job' stage' inode, Function.update d.writers w writer w' = some (job', stage') →
      stage'.holds = some inode → d.writers w' = some (job', stage') := by
    intro w' job' stage' inode hw' hinode
    rcases hold w' job' stage' hw' with rfl | hw'
    · cases hinode
    · exact hw'
  constructor
  case published =>
    intro n inode htarget
    obtain ⟨hlt, job, hjob, hname, hpayload⟩ := h.published n inode htarget
    exact ⟨hlt, job, hjobs job hjob, hname, hpayload⟩
  case unwritten =>
    intro n inode htarget w' job' stage' hw' hinode
    exact h.unwritten n inode htarget w' job' stage' (hholds w' job' stage' inode hw' hinode) hinode
  case begun =>
    intro w' job' stage' hw'
    by_cases hne : w' = w
    · subst hne
      simp only [Function.update_self] at hw'
      exact (hwriter job' stage' hw').1
    · simp only [Function.update_of_ne hne] at hw'
      exact hjobs job' (h.begun w' job' stage' hw')
  case inUse =>
    intro w' job' stage' inode hw' hinode
    exact h.inUse w' job' stage' inode (hholds w' job' stage' inode hw' hinode) hinode
  case own =>
    intro w₁ w₂ job₁ job₂ stage₁ stage₂ inode h₁ h₂ hi₁ hi₂
    exact h.own w₁ w₂ job₁ job₂ stage₁ stage₂ inode (hholds w₁ job₁ stage₁ inode h₁ hi₁)
      (hholds w₂ job₂ stage₂ inode h₂ hi₂) hi₁ hi₂
  case partly =>
    intro w' job' inode written hw'
    exact h.partly w' job' inode written (hholds w' job' _ inode hw' rfl)
  case complete =>
    intro w' job' inode hw'
    exact h.complete w' job' inode (hholds w' job' _ inode hw' rfl)
  case done =>
    intro w' job' hw'
    rcases hold w' job' _ hw' with hstage | hw'
    · cases hstage
    · exact h.done w' job' hw'

end Sound

end

/-! ## The steps -/

section
variable [DecidableEq ν] (name : J → ν) (payload : J → List β)

def step (d : Directory J ν β) : Event J → Directory J ν β
  | .begin w job =>
    match d.writers w with
    | none => { move d w job .begun with jobs := d.jobs ++ [job] }
    | some _ => d
  | .check w =>
    match d.writers w with
    | some (job, .begun) =>
      if (d.target (name job)).isSome then move d w job .done
      else
        { move d w job (.writing d.next 0) with
          content := Function.update d.content d.next []
          next := d.next + 1 }
    | _ => d
  | .write w n =>
    match d.writers w with
    | some (job, .writing inode written) =>
      { move d w job (.writing inode (written + n)) with
        content := Function.update d.content inode ((payload job).take (written + n)) }
    | _ => d
  | .close w =>
    match d.writers w with
    | some (job, .writing inode written) =>
      if (payload job).length ≤ written then move d w job (.closed inode) else d
    | _ => d
  | .link w =>
    match d.writers w with
    | some (job, .closed inode) =>
      match d.target (name job) with
      | some _ => move d w job .done
      | none => { move d w job .done with target := Function.update d.target (name job) (some inode) }
    | _ => d
  | .fail w =>
    match d.writers w with
    | some (_, .done) => d
    | some (job, _) => move d w job .failed
    | none => d
  | .crash w => { d with writers := Function.update d.writers w none }

variable {name payload}

namespace Sound

variable {d : Directory J ν β} (h : Sound name payload d)
include h

/-- A writer links its complete file under a free name. -/
theorem link {w : ℕ} {job : J} {inode : ℕ} (hw : d.writers w = some (job, .closed inode))
    (hfree : d.target (name job) = none) :
    Sound name payload { Publish.move d w job .done with
      target := Function.update d.target (name job) (some inode) } := by
  have hmoved : ∀ w' job' stage' i, (Publish.move d w job .done).writers w' = some (job', stage') →
      stage'.holds = some i → w' ≠ w ∧ d.writers w' = some (job', stage') := by
    intro w' job' stage' i hw' hi
    rcases of_move hw' with ⟨-, -, rfl⟩ | hw'
    · cases hi
    · exact hw'
  have hkept : ∀ n, (d.target n).isSome →
      (Function.update d.target (name job) (some inode) n).isSome := by
    intro n hn
    by_cases hname : n = name job
    · rw [hname, hfree] at hn
      cases hn
    · rw [Function.update_of_ne hname]
      exact hn
  constructor
  case published =>
    intro n inode' htarget
    by_cases hname : n = name job
    · subst hname
      simp only [Function.update_self] at htarget
      cases htarget
      exact ⟨h.inUse w job _ inode hw rfl, job, h.begun w job _ hw, rfl, h.complete w job inode hw⟩
    · simp only [Function.update_of_ne hname] at htarget
      exact h.published n inode' htarget
  case unwritten =>
    intro n inode' htarget w' job' stage' hw' hinode
    obtain ⟨hne, hw'⟩ := hmoved w' job' stage' inode' hw' hinode
    by_cases hname : n = name job
    · subst hname
      simp only [Function.update_self] at htarget
      cases htarget
      exact hne (h.own w' w job' job stage' _ inode hw' hw hinode rfl)
    · simp only [Function.update_of_ne hname] at htarget
      exact h.unwritten n inode' htarget w' job' stage' hw' hinode
  case begun =>
    intro w' job' stage' hw'
    rcases of_move hw' with ⟨-, rfl, -⟩ | ⟨-, hw'⟩
    · exact h.begun w job' _ hw
    · exact h.begun w' job' stage' hw'
  case inUse =>
    intro w' job' stage' inode' hw' hinode
    exact h.inUse w' job' stage' inode' (hmoved w' job' stage' inode' hw' hinode).2 hinode
  case own =>
    intro w₁ w₂ job₁ job₂ stage₁ stage₂ inode' h₁ h₂ hi₁ hi₂
    exact h.own w₁ w₂ job₁ job₂ stage₁ stage₂ inode' (hmoved w₁ job₁ stage₁ inode' h₁ hi₁).2
      (hmoved w₂ job₂ stage₂ inode' h₂ hi₂).2 hi₁ hi₂
  case partly =>
    intro w' job' inode' written hw'
    exact h.partly w' job' inode' written (hmoved w' job' _ inode' hw' rfl).2
  case complete =>
    intro w' job' inode' hw'
    exact h.complete w' job' inode' (hmoved w' job' _ inode' hw' rfl).2
  case done =>
    intro w' job' hw'
    rcases of_move hw' with ⟨-, rfl, -⟩ | ⟨-, hw'⟩
    · have hnow : Function.update d.target (name job') (some inode) (name job') = some inode :=
        Function.update_self _ _ _
      exact Option.isSome_iff_exists.2 ⟨inode, hnow⟩
    · exact hkept _ (h.done w' job' hw')

/-- The step lemma. -/
theorem step (e : Event J) : Sound name payload (Publish.step name payload d e) := by
  cases e with
  | begin w job =>
    rw [Publish.step]
    split
    next =>
      exact h.enter w (some (job, .begun)) (fun job' hjob' => List.mem_append_left _ hjob')
        fun job' stage' heq => by
          cases heq
          exact ⟨List.mem_append_right _ List.mem_cons_self, rfl⟩
    next => exact h
  | check w =>
    rw [Publish.step]
    split
    next job hw =>
      split
      next hexists =>
        exact h.move hw (fun _ hi => by cases hi) (fun _ _ hs => by cases hs) (fun _ hs => by cases hs)
          fun _ => hexists
      next => exact h.create hw
    next => exact h
  | write w n =>
    rw [Publish.step]
    split
    next job inode written hw => exact h.write hw n
    next => exact h
  | close w =>
    rw [Publish.step]
    split
    next job inode written hw =>
      split
      next hall =>
        refine h.move hw (fun _ hi => hi) (fun _ _ hs => by cases hs) (fun inode' hs => ?_) fun hs => by
          cases hs
        cases hs
        rw [h.partly w job inode written hw, List.take_of_length_le hall]
      next => exact h
    next => exact h
  | link w =>
    rw [Publish.step]
    split
    next job inode hw =>
      split
      next inode' htaken =>
        exact h.move hw (fun _ hi => by cases hi) (fun _ _ hs => by cases hs) (fun _ hs => by cases hs)
          fun _ => by rw [htaken]; rfl
      next hfree => exact h.link hw hfree
    next => exact h
  | fail w =>
    rw [Publish.step]
    split
    next => exact h
    next job stage _ hw =>
      exact h.move hw (fun _ hi => by cases hi) (fun _ _ hs => by cases hs) (fun _ hs => by cases hs)
        fun hs => by cases hs
    next => exact h
  | crash w => exact h.enter w none (fun _ hjob => hjob) fun _ _ heq => by cases heq

end Sound

/-- What a name leads to, and its contents. -/
def file (d : Directory J ν β) (n : ν) : Option (List β) := (d.target n).map d.content

/-- **A file that exists is never changed.** -/
theorem Sound.kept {d : Directory J ν β} (h : Sound name payload d) (e : Event J) {n : ν} {bytes : List β}
    (hfile : file d n = some bytes) : file (Publish.step name payload d e) n = some bytes := by
  obtain ⟨inode, htarget, rfl⟩ := Option.map_eq_some_iff.1 hfile
  have hnotOwn : ∀ w job stage, d.writers w = some (job, stage) → stage.holds ≠ some inode :=
    h.unwritten n inode htarget
  cases e with
  | write w k =>
    rw [Publish.step]
    split
    next job inode' written hw =>
      have hne : inode ≠ inode' := by
        rintro rfl
        exact hnotOwn w job _ hw rfl
      refine Option.map_eq_some_iff.2 ⟨inode, htarget, ?_⟩
      exact Function.update_of_ne hne _ _
    next => exact hfile
  | check w =>
    rw [Publish.step]
    split
    next job hw =>
      split
      next => exact hfile
      next =>
        refine Option.map_eq_some_iff.2 ⟨inode, htarget, ?_⟩
        exact Function.update_of_ne (Nat.ne_of_lt (h.published n inode htarget).1) _ _
    next => exact hfile
  | link w =>
    rw [Publish.step]
    split
    next job inode' hw =>
      split
      next => exact hfile
      next hfree =>
        refine Option.map_eq_some_iff.2 ⟨inode, ?_, rfl⟩
        have hname : n ≠ name job := by
          rintro rfl
          rw [hfree] at htarget
          cases htarget
        exact (Function.update_of_ne hname _ _).trans htarget
    next => exact hfile
  | _ =>
    rw [Publish.step]
    first | exact hfile | (split <;> first | exact hfile | (split <;> exact hfile))

variable {ι : Type} {event : ι → Event J} {ls : List ι}

theorem sound_run {d : Directory J ν β} (h : Sound name payload d) :
    Sound name payload (run (fun d l => step name payload d (event l)) d ls) :=
  run_inv_of_step (fun _ l h => h.step (event l)) h ls

theorem mem_jobs_step {d : Directory J ν β} {job : J} (hjob : job ∈ d.jobs) (e : Event J) :
    job ∈ (Publish.step name payload d e).jobs := by
  cases e with
  | begin w job' =>
    rw [Publish.step]
    split
    next => exact List.mem_append_left _ hjob
    next => exact hjob
  | _ =>
    rw [Publish.step]
    first | exact hjob | (split <;> first | exact hjob | (split <;> exact hjob))

theorem mem_jobs_run {d : Directory J ν β} {job : J} (hjob : job ∈ d.jobs) :
    job ∈ (run (fun d l => step name payload d (event l)) d ls).jobs := by
  induction ls generalizing d with
  | nil => exact hjob
  | cons l ls ih => exact ih (mem_jobs_step hjob (event l))

theorem kept_run {d : Directory J ν β} (h : Sound name payload d) {n : ν} {bytes : List β}
    (hfile : file d n = some bytes) :
    file (run (fun d l => step name payload d (event l)) d ls) n = some bytes := by
  induction ls generalizing d with
  | nil => exact hfile
  | cons l ls ih => exact ih (h.step (event l)) (h.kept (event l) hfile)

end

end Publish

end Matrades.Base

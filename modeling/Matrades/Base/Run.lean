import Mathlib.Data.List.Basic
import Mathlib.Logic.Relation

/-!
# Runs of a step function

`run step s ls` feeds the labels `ls` to `step` from the state `s`. A label carries everything the
environment chooses, so `step` is a function. `Along step P s ls` says that `P` holds of the state
before and the label of every step of the run; `States step P s ls` that `P` holds of every state
the run reaches, `s` included. `AlongRest` is `Along` for a property that looks ahead.

Invariants are carried along a run under a guard: a step that meets the guard keeps the invariant,
so every run whose steps all meet the guard keeps it (`run_inv`, `states_of_inv`), and a property
of single steps that the invariant ties to the guard holds along exactly those runs
(`along_iff_of_inv`).

The outputs of a run that one party sees, where other parties take steps too. If a relation between
states is kept by every step of the party on both sides, with the same output, and by every foreign
step on one side alone, without an output, then the party sees in the run what it sees in the run of
its own steps (`outputs_filter`). So two runs with the same own steps show it the same
(`outputs_agree`).

Parties write a shared record that finishes. `writes s n` says that party `n` may still write it in the
state `s`. A step is *exclusive* if it leaves the record alone, or is taken by a party while nobody
else may write and the record is not finished, or by the party that writes it (`ExclusiveStep`). Under
exclusive steps there is one writer, none of a finished record (`Exclusive`), so a finished record is
never written again (`finished_stays`).

`Leads next s t`: the table `next` leads from `s` to `t`, in any number of steps. `within next n s` lists
what it leads to in at most `n` steps. Where the list is closed under the table, it is everything
(`leads_iff`).
-/

namespace Matrades.Base

/-! ## Runs -/

section
variable {σ ι : Type}

/-- The state after the labels `ls`. -/
def run (step : σ → ι → σ) : σ → List ι → σ
  | s, [] => s
  | s, l :: ls => run step (step s l) ls

/-- `P` holds of every step's state before and label. -/
def Along (step : σ → ι → σ) (P : σ → ι → Prop) : σ → List ι → Prop
  | _, [] => True
  | s, l :: ls => P s l ∧ Along step P (step s l) ls

/-- `P` holds of every state reached, the first included. -/
def States (step : σ → ι → σ) (P : σ → Prop) : σ → List ι → Prop
  | s, [] => P s
  | s, l :: ls => P s ∧ States step P (step s l) ls

/-- `P` holds of every step's state before and label, and of the labels that follow. -/
def AlongRest (step : σ → ι → σ) (P : σ → ι → List ι → Prop) : σ → List ι → Prop
  | _, [] => True
  | s, l :: ls => P s l ls ∧ AlongRest step P (step s l) ls

section
variable {step : σ → ι → σ}

instance AlongRest.decidable {P : σ → ι → List ι → Prop} [∀ s l ls, Decidable (P s l ls)] :
    ∀ (s : σ) (ls : List ι), Decidable (AlongRest step P s ls)
  | _, [] => .isTrue trivial
  | s, l :: ls =>
    have := AlongRest.decidable (P := P) (step s l) ls
    inferInstanceAs (Decidable (P s l ls ∧ AlongRest step P (step s l) ls))

theorem AlongRest.at_step {P : σ → ι → List ι → Prop} {s : σ} {ls : List ι} {l : ι} {ls' : List ι}
    (h : AlongRest step P s (ls ++ l :: ls')) : P (run step s ls) l ls' := by
  induction ls generalizing s with
  | nil => exact h.1
  | cons l' ls ih => exact ih h.2

theorem AlongRest.mono {P Q : σ → ι → List ι → Prop} (h : ∀ s l ls, P s l ls → Q s l ls) {s : σ}
    {ls : List ι} (hp : AlongRest step P s ls) : AlongRest step Q s ls := by
  induction ls generalizing s with
  | nil => trivial
  | cons l ls ih => exact ⟨h _ _ _ hp.1, ih hp.2⟩

instance Along.decidable {P : σ → ι → Prop} [∀ s l, Decidable (P s l)] :
    ∀ (s : σ) (ls : List ι), Decidable (Along step P s ls)
  | _, [] => .isTrue trivial
  | s, l :: ls =>
    have := Along.decidable (P := P) (step s l) ls
    inferInstanceAs (Decidable (P s l ∧ Along step P (step s l) ls))

@[simp] theorem run_nil (s : σ) : run step s [] = s := rfl

@[simp] theorem run_cons (s : σ) (l : ι) (ls : List ι) :
    run step s (l :: ls) = run step (step s l) ls := rfl

theorem run_append (s : σ) (ls ls' : List ι) :
    run step s (ls ++ ls') = run step (run step s ls) ls' := by
  induction ls generalizing s with
  | nil => rfl
  | cons l ls ih => exact ih (step s l)

theorem along_append {P : σ → ι → Prop} {s : σ} {ls ls' : List ι} :
    Along step P s (ls ++ ls') ↔ Along step P s ls ∧ Along step P (run step s ls) ls' := by
  induction ls generalizing s with
  | nil => simp [Along]
  | cons l ls ih => simp [Along, ih, and_assoc]

theorem Along.mono {P Q : σ → ι → Prop} (h : ∀ s l, P s l → Q s l) {s : σ} {ls : List ι}
    (hp : Along step P s ls) : Along step Q s ls := by
  induction ls generalizing s with
  | nil => trivial
  | cons l ls ih => exact ⟨h _ _ hp.1, ih hp.2⟩

theorem along_of_forall {P : σ → ι → Prop} (h : ∀ s l, P s l) (s : σ) (ls : List ι) :
    Along step P s ls := by
  induction ls generalizing s with
  | nil => trivial
  | cons l ls ih => exact ⟨h s l, ih _⟩

theorem along_and {P Q : σ → ι → Prop} {s : σ} {ls : List ι} (hp : Along step P s ls)
    (hq : Along step Q s ls) : Along step (fun s l => P s l ∧ Q s l) s ls := by
  induction ls generalizing s with
  | nil => trivial
  | cons l ls ih => exact ⟨⟨hp.1, hq.1⟩, ih hp.2 hq.2⟩

/-- What holds of every label of the run. -/
theorem along_of_mem {P : ι → Prop} {ls : List ι} (h : ∀ l ∈ ls, P l) (s : σ) :
    Along step (fun _ l => P l) s ls := by
  induction ls generalizing s with
  | nil => trivial
  | cons l ls ih =>
    exact ⟨h l List.mem_cons_self, ih (fun l' hl' => h l' (List.mem_cons_of_mem _ hl')) _⟩

theorem States.head {P : σ → Prop} {s : σ} {ls : List ι} (h : States step P s ls) : P s := by
  cases ls with
  | nil => exact h
  | cons l ls => exact h.1

theorem States.last {P : σ → Prop} {s : σ} {ls : List ι} (h : States step P s ls) :
    P (run step s ls) := by
  induction ls generalizing s with
  | nil => exact h
  | cons l ls ih => exact ih h.2

theorem States.mono {P Q : σ → Prop} (h : ∀ s, P s → Q s) {s : σ} {ls : List ι}
    (hp : States step P s ls) : States step Q s ls := by
  induction ls generalizing s with
  | nil => exact h _ hp
  | cons l ls ih => exact ⟨h _ hp.1, ih hp.2⟩

/-! ## Invariants under a guard -/

section
variable {I : σ → Prop} {guard : σ → ι → Prop}
  (keep : ∀ s l, I s → guard s l → I (step s l))
include keep

theorem run_inv {s : σ} {ls : List ι} (hi : I s) (hg : Along step guard s ls) :
    I (run step s ls) := by
  induction ls generalizing s with
  | nil => exact hi
  | cons l ls ih => exact ih (keep s l hi hg.1) hg.2

theorem states_of_inv {s : σ} {ls : List ι} (hi : I s) (hg : Along step guard s ls) :
    States step I s ls := by
  induction ls generalizing s with
  | nil => exact hi
  | cons l ls ih => exact ⟨hi, ih (keep s l hi hg.1) hg.2⟩

/-- A property of single steps that follows from the invariant and the guard. -/
theorem along_of_inv {Q : σ → ι → Prop} (hq : ∀ s l, I s → guard s l → Q s l) {s : σ}
    {ls : List ι} (hi : I s) (hg : Along step guard s ls) : Along step Q s ls := by
  induction ls generalizing s with
  | nil => trivial
  | cons l ls ih => exact ⟨hq s l hi hg.1, ih (keep s l hi hg.1) hg.2⟩

/-- A property of single steps that the invariant makes equivalent to the guard. -/
theorem along_iff_of_inv {Q : σ → ι → Prop} (hq : ∀ s l, I s → (Q s l ↔ guard s l)) {s : σ}
    {ls : List ι} (hi : I s) : Along step Q s ls ↔ Along step guard s ls := by
  induction ls generalizing s with
  | nil => exact Iff.rfl
  | cons l ls ih =>
    constructor
    · intro h
      have hg := (hq s l hi).1 h.1
      exact ⟨hg, (ih (keep s l hi hg)).1 h.2⟩
    · intro h
      exact ⟨(hq s l hi).2 h.1, (ih (keep s l hi h.1)).2 h.2⟩

end

/-- Where, on the allowed steps, keeping the invariant is the same as meeting `guard`, a run of
allowed steps keeps it exactly if all its steps meet `guard`. -/
theorem states_iff_along {I : σ → Prop} {allowed guard : σ → ι → Prop}
    (hstep : ∀ s l, I s → allowed s l → (I (step s l) ↔ guard s l)) {s : σ} {ls : List ι}
    (hi : I s) (ha : Along step allowed s ls) : States step I s ls ↔ Along step guard s ls := by
  induction ls generalizing s with
  | nil => exact ⟨fun _ => trivial, fun _ => hi⟩
  | cons l ls ih =>
    constructor
    · intro h
      have hnext : I (step s l) := h.2.head
      exact ⟨(hstep s l hi ha.1).1 hnext, (ih hnext ha.2).1 h.2⟩
    · intro h
      have hnext : I (step s l) := (hstep s l hi ha.1).2 h.1
      exact ⟨hi, (ih hnext ha.2).2 h.2⟩

/-- Where every step keeps `I`, and under `I` keeps `Q` exactly if it meets `guard`, a run keeps `Q`
exactly if all its steps meet `guard`. -/
theorem states_iff_along_of_inv {I Q : σ → Prop} {guard : σ → ι → Prop}
    (keep : ∀ s l, I s → I (step s l)) (hstep : ∀ s l, I s → Q s → (Q (step s l) ↔ guard s l))
    {s : σ} {ls : List ι} (hi : I s) (hq : Q s) : States step Q s ls ↔ Along step guard s ls := by
  induction ls generalizing s with
  | nil => exact ⟨fun _ => trivial, fun _ => hq⟩
  | cons l ls ih =>
    constructor
    · intro h
      have hnext : Q (step s l) := h.2.head
      exact ⟨(hstep s l hi hq).1 hnext, (ih (keep s l hi) hnext).1 h.2⟩
    · intro h
      have hnext : Q (step s l) := (hstep s l hi hq).2 h.1
      exact ⟨hq, (ih (keep s l hi) hnext).2 h.2⟩

/-- Where the steps that meet `guard` keep `I`, `I` gives `Q`, and a step after which `Q` holds meets
`guard`, a run keeps `Q` exactly if all its steps meet `guard`. -/
theorem states_iff_along_of_guard {I Q : σ → Prop} {guard : σ → ι → Prop}
    (keep : ∀ s l, I s → guard s l → I (step s l)) (hq : ∀ s, I s → Q s)
    (hguard : ∀ s l, I s → Q (step s l) → guard s l) {s : σ} {ls : List ι} (hi : I s) :
    States step Q s ls ↔ Along step guard s ls := by
  induction ls generalizing s with
  | nil => exact ⟨fun _ => trivial, fun _ => hq s hi⟩
  | cons l ls ih =>
    constructor
    · intro h
      have hg := hguard s l hi h.2.head
      exact ⟨hg, (ih (keep s l hi hg)).1 h.2⟩
    · intro h
      exact ⟨hq s hi, (ih (keep s l hi h.1)).2 h.2⟩

/-- What holds at the end, but not always, began to hold at a step and has held since. -/
theorem exists_since {P : σ → Prop} {s : σ} {ls : List ι} (hs : ¬States step P s ls)
    (h : P (run step s ls)) :
    ∃ before l after, ls = before ++ l :: after ∧ ¬P (run step s before) ∧
      States step P (step (run step s before) l) after := by
  induction ls generalizing s with
  | nil => exact absurd h hs
  | cons l ls ih =>
    by_cases hrest : States step P (step s l) ls
    · exact ⟨[], l, ls, rfl, fun hp => hs ⟨hp, hrest⟩, hrest⟩
    · obtain ⟨before, l', after, rfl, hbefore, hsince⟩ := ih hrest h
      exact ⟨l :: before, l', after, rfl, hbefore, hsince⟩

/-- An invariant every step keeps. -/
theorem run_inv_of_step {I : σ → Prop} (keep : ∀ s l, I s → I (step s l)) {s : σ} (hi : I s)
    (ls : List ι) : I (run step s ls) := by
  induction ls generalizing s with
  | nil => exact hi
  | cons l ls ih => exact ih (keep s l hi)

end

end

/-! ## Unwinding -/

section
variable {σ ι ο : Type}

/-- The outputs of a run. -/
def outputs (step : σ → ι → σ) (out : σ → ι → Option ο) : σ → List ι → List ο
  | _, [] => []
  | s, l :: ls => (out s l).toList ++ outputs step out (step s l) ls

section
variable {step : σ → ι → σ} {out : σ → ι → Option ο} {R : σ → σ → Prop} {own : ι → Bool}
  {guard : σ → ι → Prop}
  (hown : ∀ s t l, R s t → own l = true → guard s l →
    R (step s l) (step t l) ∧ out s l = out t l)
  (hforeign : ∀ s t l, R s t → own l = false → guard s l → R (step s l) t ∧ out s l = none)
include hown hforeign

theorem outputs_filter {s t : σ} {ls : List ι} (hr : R s t) (hg : Along step guard s ls) :
    outputs step out s ls = outputs step out t (ls.filter own) := by
  induction ls generalizing s t with
  | nil => rfl
  | cons l ls ih =>
    cases hl : own l with
    | true =>
      obtain ⟨hnext, hsame⟩ := hown s t l hr hl hg.1
      rw [List.filter_cons_of_pos hl, outputs, outputs, hsame, ih hnext hg.2]
    | false =>
      obtain ⟨hnext, hsilent⟩ := hforeign s t l hr hl hg.1
      rw [List.filter_cons_of_neg (by simp [hl]), outputs, hsilent, ih hnext hg.2]
      rfl

/-- Two runs with the same own steps show the same. -/
theorem outputs_agree {s : σ} {ls ls' : List ι} (hr : R s s) (hsame : ls.filter own = ls'.filter own)
    (hg : Along step guard s ls) (hg' : Along step guard s ls') :
    outputs step out s ls = outputs step out s ls' := by
  rw [outputs_filter hown hforeign hr hg, outputs_filter hown hforeign hr hg', hsame]

end

end

/-! ## One writer at a time -/

section
variable {σ ρ ι π : Type} (record : σ → ρ) (finished : ρ → Prop) (writes : σ → π → Prop)

/-- One writer, and none of a finished record. -/
structure Exclusive (s : σ) : Prop where
  one : ∀ n m, writes s n → writes s m → n = m
  unfinished : ∀ n, writes s n → ¬finished (record s)

inductive ExclusiveStep (s s' : σ) : Prop
  /-- The record is left alone; writers may leave. -/
  | still (hrecord : record s' = record s) (hwrites : ∀ n, writes s' n → writes s n)
  /-- A party writes the record while nobody else may, and may write it again if it is not finished. -/
  | enter (n : π) (hunfinished : ¬finished (record s)) (halone : ∀ m, writes s m → m = n)
      (hwrites : ∀ m, writes s' m → m = n ∧ ¬finished (record s'))
  /-- The writer writes. -/
  | write (n : π) (hn : writes s n)
      (hwrites : ∀ m, writes s' m → writes s m ∧ ¬finished (record s'))

variable {record finished writes}

/-- The step lemma. -/
theorem Exclusive.step {s s' : σ} (h : Exclusive record finished writes s)
    (hstep : ExclusiveStep record finished writes s s') :
    Exclusive record finished writes s' ∧ (finished (record s) → record s' = record s) := by
  cases hstep with
  | still hrecord hwrites =>
    refine ⟨⟨fun n m hn hm => h.one n m (hwrites n hn) (hwrites m hm), ?_⟩, fun _ => hrecord⟩
    intro n hn
    rw [hrecord]
    exact h.unfinished n (hwrites n hn)
  | enter n hunfinished halone hwrites =>
    refine ⟨⟨?_, fun m hm => (hwrites m hm).2⟩, fun hfinished => absurd hfinished hunfinished⟩
    intro m m' hm hm'
    rw [(hwrites m hm).1, (hwrites m' hm').1]
  | write n hn hwrites =>
    refine ⟨⟨?_, fun m hm => (hwrites m hm).2⟩,
      fun hfinished => absurd hfinished (h.unfinished n hn)⟩
    intro m m' hm hm'
    exact h.one m m' (hwrites m hm).1 (hwrites m' hm').1

variable {step : σ → ι → σ}

/-- What is finished stays, if every step keeps it. -/
theorem stays_of_along {s : σ} {ls : List ι}
    (h : Along step (fun s l => finished (record s) → record (step s l) = record s) s ls)
    (hfinished : finished (record s)) : record (run step s ls) = record s := by
  induction ls generalizing s with
  | nil => rfl
  | cons l ls ih =>
    have hnext := h.1 hfinished
    rw [run_cons, ih h.2 (by rw [hnext]; exact hfinished), hnext]

/-- **A finished record is never written again**, if all steps are exclusive. -/
theorem finished_stays {I : σ → Prop} {guard : σ → ι → Prop}
    (hexclusive : ∀ s, I s → Exclusive record finished writes s)
    (keep : ∀ s l, I s → guard s l → I (step s l))
    (hstep : ∀ s l, I s → guard s l → ExclusiveStep record finished writes s (step s l)) {s : σ}
    (hi : I s) {before after : List ι} (hg : Along step guard s (before ++ after))
    (hfinished : finished (record (run step s before))) :
    record (run step s (before ++ after)) = record (run step s before) := by
  obtain ⟨hbefore, hafter⟩ := along_append.1 hg
  rw [run_append]
  have hkeeps : Along step (fun s l => finished (record s) → record (step s l) = record s)
      (run step s before) after :=
    along_of_inv keep (fun s l hi hg => ((hexclusive s hi).step (hstep s l hi hg)).2)
      (run_inv keep hi hbefore) hafter
  exact stays_of_along hkeeps hfinished

end

/-! ## What a transition table reaches -/

section
variable {α : Type} {next : α → List α}

def Leads (next : α → List α) : α → α → Prop := Relation.ReflTransGen fun s t => t ∈ next s

theorem Leads.refl (s : α) : Leads next s s := Relation.ReflTransGen.refl

theorem Leads.trans {s t u : α} (h : Leads next s t) (h' : Leads next t u) : Leads next s u :=
  Relation.ReflTransGen.trans h h'

def within (next : α → List α) : ℕ → α → List α
  | 0, s => [s]
  | n + 1, s => s :: (next s).flatMap (within next n)

theorem mem_within_self (n : ℕ) (s : α) : s ∈ within next n s := by
  cases n <;> exact List.mem_cons_self

theorem leads_of_mem_within {n : ℕ} {s t : α} (h : t ∈ within next n s) : Leads next s t := by
  induction n generalizing s with
  | zero =>
    rw [List.mem_singleton.1 h]
    exact Leads.refl s
  | succ n ih =>
    rcases List.mem_cons.1 h with rfl | h
    · exact Leads.refl t
    · obtain ⟨u, hu, ht⟩ := List.mem_flatMap.1 h
      exact Relation.ReflTransGen.head hu (ih ht)

theorem leads_iff {n : ℕ} {s : α}
    (hclosed : ∀ t ∈ within next n s, ∀ u ∈ next t, u ∈ within next n s) {t : α} :
    Leads next s t ↔ t ∈ within next n s := by
  refine ⟨fun h => ?_, leads_of_mem_within⟩
  induction h with
  | refl => exact mem_within_self n s
  | tail _ hu ih => exact hclosed _ ih _ hu

end

end Matrades.Base

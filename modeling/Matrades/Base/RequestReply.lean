import Mathlib.Data.List.Nodup
import Mathlib.Logic.Function.Basic
import Matrades.Base.Run

/-!
# Requests and replies over a shared queue

Callers put requests on one queue and wait for a reply under the request's identifier; workers take the oldest
request, work, and leave a reply. Nothing is atomic but the single step: a worker may crash with a request in
hand, a caller may leave before its reply comes, and replies may be dropped at any time.

The lists `issued`, `taken`, `answered` and `closed` are histories that no step reads. Where the identifiers
are fresh, `Delivery` holds in every state (`delivery_run`): the requests taken and the requests on the queue
are those issued, in their order; no request is answered twice or closed twice; and the reply a caller closes
with was made for its own request. `answered_from` says by which step.
-/

namespace Matrades.Base

structure Exchange (κ α β : Type) where
  /-- The newest first. -/
  queue : List α := []
  held : ℕ → Option α := fun _ => none
  replies : κ → List β := fun _ => []
  waiting : κ → Option α := fun _ => none
  issued : List α := []
  taken : List α := []
  answered : List (α × β) := []
  /-- The requests whose callers have ended, with the reply they got, if any. -/
  closed : List (α × Option β) := []

namespace Exchange

variable {κ α β : Type}

inductive Event (κ α β : Type)
  | issue (a : α)
  | take (worker : ℕ)
  | answer (worker : ℕ) (reply : α → β)
  | crash (worker : ℕ)
  | receive (k : κ)
  | leave (k : κ)
  | drop (k : κ)

/-! ## What holds in every state -/

section
variable (ident : α → κ)

structure Delivery (s : Exchange κ α β) : Prop where
  unique : (s.issued.map ident).Nodup
  order : s.taken ++ s.queue.reverse = s.issued
  heldTaken : ∀ w a, s.held w = some a → a ∈ s.taken ∧ ident a ∉ s.answered.map (ident ·.1)
  heldOne : ∀ w w' a a', s.held w = some a → s.held w' = some a' → ident a = ident a' → w = w'
  answeredOnce : (s.answered.map (ident ·.1)).Nodup
  answeredTaken : ∀ p ∈ s.answered, p.1 ∈ s.taken
  replyAnswered : ∀ k, ∀ b ∈ s.replies k, ∃ a, ident a = k ∧ (a, b) ∈ s.answered
  waitingIssued : ∀ k a, s.waiting k = some a →
    ident a = k ∧ a ∈ s.issued ∧ k ∉ s.closed.map (ident ·.1)
  closedIssued : ∀ p ∈ s.closed, p.1 ∈ s.issued
  closedOnce : (s.closed.map (ident ·.1)).Nodup
  closedAnswered : ∀ a b, (a, some b) ∈ s.closed → (a, b) ∈ s.answered

/-- An issued request has an identifier that was not issued before. -/
def Fresh (s : Exchange κ α β) : Event κ α β → Prop
  | .issue a => ident a ∉ s.issued.map ident
  | _ => True

variable {ident}

theorem Delivery.initial : Delivery ident ({} : Exchange κ α β) where
  unique := List.nodup_nil
  order := rfl
  heldTaken _ _ h := by cases h
  heldOne _ _ _ _ h := by cases h
  answeredOnce := List.nodup_nil
  answeredTaken _ h := by cases h
  replyAnswered _ _ h := by cases h
  waitingIssued _ _ h := by cases h
  closedIssued _ h := by cases h
  closedOnce := List.nodup_nil
  closedAnswered _ _ h := by cases h

namespace Delivery

variable {s : Exchange κ α β} (h : Delivery ident s)
include h

theorem taken_issued {a : α} (ha : a ∈ s.taken) : a ∈ s.issued := by
  rw [← h.order]
  exact List.mem_append_left _ ha

/-- Two issued requests with one identifier are the same. -/
theorem eq_of_ident {a a' : α} (ha : a ∈ s.issued) (ha' : a' ∈ s.issued) (heq : ident a = ident a') :
    a = a' :=
  List.inj_on_of_nodup_map h.unique ha ha' heq

/-- The oldest request on the queue has not been taken. -/
theorem not_taken {a b : α} (hlast : s.queue.getLast? = some a) (hb : b ∈ s.taken) :
    ident b ≠ ident a := by
  have hqueue : a ∈ s.queue.reverse := List.mem_reverse.2 (List.mem_of_getLast? hlast)
  have hnodup := h.unique
  rw [← h.order, List.map_append, List.nodup_append] at hnodup
  exact hnodup.2.2 (ident b) (List.mem_map_of_mem hb) (ident a) (List.mem_map_of_mem hqueue)

theorem not_answered {a : α} (hlast : s.queue.getLast? = some a) :
    ident a ∉ s.answered.map (ident ·.1) := by
  intro hmem
  obtain ⟨p, hp, hid⟩ := List.mem_map.1 hmem
  exact h.not_taken hlast (h.answeredTaken p hp) hid

theorem take {w : ℕ} {a : α} (hidle : s.held w = none) (hlast : s.queue.getLast? = some a) :
    Delivery ident { s with
      queue := s.queue.dropLast, held := Function.update s.held w (some a), taken := s.taken ++ [a] } where
  unique := h.unique
  order := by
    rw [← h.order]
    conv_rhs => rw [← List.dropLast_append_getLast? a hlast, List.reverse_append]
    rw [List.append_assoc]
    rfl
  heldTaken w' b hb := by
    by_cases hw : w' = w
    · subst hw
      simp only [Function.update_self] at hb
      cases hb
      exact ⟨List.mem_append_right _ (List.mem_singleton.2 rfl), h.not_answered hlast⟩
    · simp only [Function.update_of_ne hw] at hb
      exact ⟨List.mem_append_left _ (h.heldTaken w' b hb).1, (h.heldTaken w' b hb).2⟩
  heldOne w₁ w₂ b b' hb hb' hid := by
    have hold : ∀ w' c, w' ≠ w → Function.update s.held w (some a) w' = some c → s.held w' = some c := by
      intro w' c hne hc
      rwa [Function.update_of_ne hne] at hc
    have hnew : ∀ c, Function.update s.held w (some a) w = some c → c = a := by
      intro c hc
      rw [Function.update_self] at hc
      cases hc
      rfl
    by_cases h₁ : w₁ = w <;> by_cases h₂ : w₂ = w
    · rw [h₁, h₂]
    · subst h₁
      rw [hnew b hb] at hid
      exact absurd hid.symm (h.not_taken hlast (h.heldTaken w₂ b' (hold w₂ b' h₂ hb')).1)
    · subst h₂
      rw [hnew b' hb'] at hid
      exact absurd hid (h.not_taken hlast (h.heldTaken w₁ b (hold w₁ b h₁ hb)).1)
    · exact h.heldOne w₁ w₂ b b' (hold w₁ b h₁ hb) (hold w₂ b' h₂ hb') hid
  answeredOnce := h.answeredOnce
  answeredTaken p hp := List.mem_append_left _ (h.answeredTaken p hp)
  replyAnswered := h.replyAnswered
  waitingIssued := h.waitingIssued
  closedIssued := h.closedIssued
  closedOnce := h.closedOnce
  closedAnswered := h.closedAnswered

theorem crash (w : ℕ) : Delivery ident { s with held := Function.update s.held w none } := by
  have hold : ∀ w' c, Function.update s.held w none w' = some c → s.held w' = some c := by
    intro w' c hc
    by_cases hw : w' = w
    · subst hw
      rw [Function.update_self] at hc
      cases hc
    · rwa [Function.update_of_ne hw] at hc
  exact { h with
    heldTaken := fun w' a ha => h.heldTaken w' a (hold w' a ha)
    heldOne := fun w₁ w₂ a a' ha ha' => h.heldOne w₁ w₂ a a' (hold w₁ a ha) (hold w₂ a' ha') }

end Delivery

end

/-! ## The steps -/

section
variable [DecidableEq κ] (ident : α → κ)

def step (s : Exchange κ α β) : Event κ α β → Exchange κ α β
  | .issue a =>
    { s with
      queue := a :: s.queue
      waiting := Function.update s.waiting (ident a) (some a)
      issued := s.issued ++ [a] }
  | .take worker =>
    match s.held worker, s.queue.getLast? with
    | none, some a =>
      { s with
        queue := s.queue.dropLast
        held := Function.update s.held worker (some a)
        taken := s.taken ++ [a] }
    | _, _ => s
  | .answer worker reply =>
    match s.held worker with
    | some a =>
      { s with
        held := Function.update s.held worker none
        replies := Function.update s.replies (ident a) (s.replies (ident a) ++ [reply a])
        answered := s.answered ++ [(a, reply a)] }
    | none => s
  | .crash worker => { s with held := Function.update s.held worker none }
  | .receive k =>
    match s.waiting k, s.replies k with
    | some a, b :: rest =>
      { s with
        waiting := Function.update s.waiting k none
        replies := Function.update s.replies k rest
        closed := s.closed ++ [(a, some b)] }
    | _, _ => s
  | .leave k =>
    match s.waiting k with
    | some a =>
      { s with waiting := Function.update s.waiting k none, closed := s.closed ++ [(a, none)] }
    | none => s
  | .drop k => { s with replies := Function.update s.replies k [] }

variable {ident}

namespace Delivery

variable {s : Exchange κ α β} (h : Delivery ident s)
include h

theorem issue {a : α} (hfresh : ident a ∉ s.issued.map ident) :
    Delivery ident { s with
      queue := a :: s.queue, waiting := Function.update s.waiting (ident a) (some a),
      issued := s.issued ++ [a] } where
  unique := by
    rw [List.map_append, List.nodup_append]
    refine ⟨h.unique, List.nodup_singleton _, ?_⟩
    intro k hk k' hk' heq
    rw [List.map_cons, List.map_nil, List.mem_singleton] at hk'
    exact hfresh (by rw [← hk', ← heq]; exact hk)
  order := by rw [List.reverse_cons, ← List.append_assoc, h.order]
  heldTaken := h.heldTaken
  heldOne := h.heldOne
  answeredOnce := h.answeredOnce
  answeredTaken := h.answeredTaken
  replyAnswered := h.replyAnswered
  waitingIssued k b hb := by
    by_cases hk : k = ident a
    · subst hk
      simp only [Function.update_self] at hb
      cases hb
      refine ⟨rfl, List.mem_append_right _ (List.mem_singleton.2 rfl), ?_⟩
      intro hmem
      obtain ⟨p, hp, hid⟩ := List.mem_map.1 hmem
      exact hfresh (List.mem_map.2 ⟨p.1, h.closedIssued p hp, hid⟩)
    · simp only [Function.update_of_ne hk] at hb
      obtain ⟨hid, hmem, hopen⟩ := h.waitingIssued k b hb
      exact ⟨hid, List.mem_append_left _ hmem, hopen⟩
  closedIssued p hp := List.mem_append_left _ (h.closedIssued p hp)
  closedOnce := h.closedOnce
  closedAnswered := h.closedAnswered

theorem answer {w : ℕ} {a : α} (hheld : s.held w = some a) (b : β) :
    Delivery ident { s with
      held := Function.update s.held w none
      replies := Function.update s.replies (ident a) (s.replies (ident a) ++ [b])
      answered := s.answered ++ [(a, b)] } where
  unique := h.unique
  order := h.order
  heldTaken w' c hc := by
    by_cases hw : w' = w
    · subst hw
      simp only [Function.update_self] at hc
      cases hc
    · simp only [Function.update_of_ne hw] at hc
      obtain ⟨htaken, hopen⟩ := h.heldTaken w' c hc
      refine ⟨htaken, ?_⟩
      rw [List.map_append, List.mem_append, not_or]
      refine ⟨hopen, ?_⟩
      rw [List.map_cons, List.map_nil, List.mem_singleton]
      exact fun hid => hw (h.heldOne w' w c a hc hheld hid)
  heldOne := (h.crash w).heldOne
  answeredOnce := by
    rw [List.map_append, List.nodup_append]
    refine ⟨h.answeredOnce, List.nodup_singleton _, ?_⟩
    intro k hk k' hk' heq
    rw [List.map_cons, List.map_nil, List.mem_singleton] at hk'
    exact (h.heldTaken w a hheld).2 (by rw [← hk', ← heq]; exact hk)
  answeredTaken p hp := by
    rcases List.mem_append.1 hp with hp | hp
    · exact h.answeredTaken p hp
    · rw [List.mem_singleton.1 hp]
      exact (h.heldTaken w a hheld).1
  replyAnswered k c hc := by
    by_cases hk : k = ident a
    · subst hk
      simp only [Function.update_self, List.mem_append, List.mem_singleton] at hc
      rcases hc with hc | rfl
      · obtain ⟨a', hid, hmem⟩ := h.replyAnswered _ c hc
        exact ⟨a', hid, List.mem_append_left _ hmem⟩
      · exact ⟨a, rfl, List.mem_append_right _ (List.mem_singleton.2 rfl)⟩
    · simp only [Function.update_of_ne hk] at hc
      obtain ⟨a', hid, hmem⟩ := h.replyAnswered k c hc
      exact ⟨a', hid, List.mem_append_left _ hmem⟩
  waitingIssued := h.waitingIssued
  closedIssued := h.closedIssued
  closedOnce := h.closedOnce
  closedAnswered a' b' hp := List.mem_append_left _ (h.closedAnswered a' b' hp)

/-- A caller ends. -/
theorem close {k : κ} {a : α} (hwaiting : s.waiting k = some a) (b : Option β)
    (hanswered : ∀ b', b = some b' → (a, b') ∈ s.answered) :
    Delivery ident { s with
      waiting := Function.update s.waiting k none, closed := s.closed ++ [(a, b)] } where
  unique := h.unique
  order := h.order
  heldTaken := h.heldTaken
  heldOne := h.heldOne
  answeredOnce := h.answeredOnce
  answeredTaken := h.answeredTaken
  replyAnswered := h.replyAnswered
  waitingIssued k' a' ha' := by
    obtain ⟨hid, -, -⟩ := h.waitingIssued k a hwaiting
    by_cases hk : k' = k
    · subst hk
      simp only [Function.update_self] at ha'
      cases ha'
    · simp only [Function.update_of_ne hk] at ha'
      obtain ⟨hid', hmem, hopen⟩ := h.waitingIssued k' a' ha'
      refine ⟨hid', hmem, ?_⟩
      rw [List.map_append, List.mem_append, not_or]
      refine ⟨hopen, ?_⟩
      rw [List.map_cons, List.map_nil, List.mem_singleton, hid]
      exact hk
  closedIssued p hp := by
    rcases List.mem_append.1 hp with hp | hp
    · exact h.closedIssued p hp
    · rw [List.mem_singleton.1 hp]
      exact (h.waitingIssued k a hwaiting).2.1
  closedOnce := by
    obtain ⟨hid, -, hopen⟩ := h.waitingIssued k a hwaiting
    rw [List.map_append, List.nodup_append]
    refine ⟨h.closedOnce, List.nodup_singleton _, ?_⟩
    intro j hj j' hj' heq
    rw [List.map_cons, List.map_nil, List.mem_singleton] at hj'
    exact hopen (by rw [← hid, ← hj', ← heq]; exact hj)
  closedAnswered a' b' hp := by
    rcases List.mem_append.1 hp with hp | hp
    · exact h.closedAnswered a' b' hp
    · obtain ⟨rfl, hb⟩ := Prod.mk.inj (List.mem_singleton.1 hp)
      exact hanswered b' hb.symm

/-- Replies get lost. -/
theorem forget {k : κ} {rest : List β} (hrest : ∀ b ∈ rest, b ∈ s.replies k) :
    Delivery ident { s with replies := Function.update s.replies k rest } :=
  { h with
    replyAnswered := fun k' b hb => by
      by_cases hk : k' = k
      · subst hk
        simp only [Function.update_self] at hb
        exact h.replyAnswered k' b (hrest b hb)
      · simp only [Function.update_of_ne hk] at hb
        exact h.replyAnswered k' b hb }

/-- The step lemma. -/
theorem step (e : Event κ α β) (hfresh : Fresh ident s e) : Delivery ident (s.step ident e) := by
  cases e with
  | issue a => exact h.issue hfresh
  | take w =>
    rw [Exchange.step]
    split
    next a hidle hlast => exact h.take hidle hlast
    next => exact h
  | answer w reply =>
    rw [Exchange.step]
    split
    next a hheld => exact h.answer hheld (reply a)
    next => exact h
  | crash w => exact h.crash w
  | receive k =>
    rw [Exchange.step]
    split
    next a b rest hwaiting hreplies =>
      obtain ⟨hid, hissued, -⟩ := h.waitingIssued k a hwaiting
      obtain ⟨a', hid', hanswered⟩ := h.replyAnswered k b (by rw [hreplies]; exact List.mem_cons_self)
      -- the reply under the caller's identifier was made for the caller's request
      have hsame : a' = a :=
        h.eq_of_ident (h.taken_issued (h.answeredTaken _ hanswered)) hissued (hid'.trans hid.symm)
      rw [hsame] at hanswered
      have hrest : ∀ b' ∈ rest, b' ∈ s.replies k := fun b' hb' => by
        rw [hreplies]
        exact List.mem_cons_of_mem _ hb'
      have hforget := h.forget hrest
      exact hforget.close hwaiting (some b) fun b' hb' => by
        cases hb'
        exact hanswered
    next => exact h
  | leave k =>
    rw [Exchange.step]
    split
    next a hwaiting => exact h.close hwaiting none fun b' hb' => by cases hb'
    next => exact h
  | drop k => exact h.forget fun b hb => by cases hb

end Delivery

/-! ## Runs

The labels of a system stand for events. -/

variable {ι : Type} {event : ι → Event κ α β} {ls : List ι}

theorem delivery_run
    (hfresh : Along (fun s l => step ident s (event l)) (fun s l => Fresh ident s (event l)) {} ls) :
    Delivery ident (run (fun s l => step ident s (event l)) {} ls) :=
  run_inv (fun _ l h hf => h.step (event l) hf) Delivery.initial hfresh

/-- An answer was made by a worker's step, from the request it held. -/
theorem answered_from {s : Exchange κ α β} {a : α} {b : β}
    (h : (a, b) ∈ (run (fun s l => step ident s (event l)) s ls).answered) :
    (a, b) ∈ s.answered ∨ ∃ l ∈ ls, ∃ w reply, event l = .answer w reply ∧ b = reply a := by
  induction ls generalizing s with
  | nil => exact .inl h
  | cons l ls ih =>
    rcases ih h with h | ⟨l', hmem, hanswer⟩
    · change (a, b) ∈ (step ident s (event l)).answered at h
      cases he : event l with
      | answer w reply =>
        rw [he, step] at h
        split at h
        next a' hheld =>
          rcases List.mem_append.1 h with h | h
          · exact .inl h
          · obtain ⟨rfl, rfl⟩ := Prod.mk.inj (List.mem_singleton.1 h)
            exact .inr ⟨l, List.mem_cons_self, w, reply, he, rfl⟩
        next => exact .inl h
      | _ =>
        rw [he, step] at h
        first | exact .inl h | (split at h <;> exact .inl h)
    · exact .inr ⟨l', List.mem_cons_of_mem _ hmem, hanswer⟩

end

end Exchange

end Matrades.Base

import Matrades.Base.Result

/-!
# Transactions with external effects

`Tx σ ω ε α`: a computation on a store `σ` that may emit external effects `ω` and ends with a value
or an error. An emitted effect stays emitted whatever happens later, and a raised error leaves the
store as the steps before it left it. `unitOfWork` is the transaction boundary: an error restores
the store of the beginning, and takes back no effect.

A sequence is run step by step (`bind_next`, `bind_error` and the rules for each primitive), or
bounded as a whole: `Within R t` says that `t` emits nothing and moves the store along the preorder
`R`, also where it raises, and is composed along `bind`. `zoom` runs a computation on a part of the store.
-/

namespace Matrades.Base

/-- What a computation leaves behind. -/
structure Outcome (σ ω ε α : Type) where
  result : Except ε α
  state : σ
  emitted : List ω

/-- A computation on the store `σ`, emitting `ω` and raising `ε`. -/
def Tx (σ ω ε α : Type) : Type := σ → Outcome σ ω ε α

namespace Tx

variable {σ ω ε α β : Type}

protected def pure (a : α) : Tx σ ω ε α := fun s => ⟨.ok a, s, []⟩

protected def bind (t : Tx σ ω ε α) (f : α → Tx σ ω ε β) : Tx σ ω ε β := fun s =>
  match (t s).result with
  | .ok a =>
    let o := f a (t s).state
    ⟨o.result, o.state, (t s).emitted ++ o.emitted⟩
  | .error e => ⟨.error e, (t s).state, (t s).emitted⟩

instance : Monad (Tx σ ω ε) where
  pure := Tx.pure
  bind := Tx.bind

def raise (e : ε) : Tx σ ω ε α := fun s => ⟨.error e, s, []⟩

def get : Tx σ ω ε σ := fun s => ⟨.ok s, s, []⟩

def modify (f : σ → σ) : Tx σ ω ε Unit := fun s => ⟨.ok (), f s, []⟩

def emit (w : ω) : Tx σ ω ε Unit := fun s => ⟨.ok (), s, [w]⟩

/-- A result computed without the store. -/
def lift (r : Except ε α) : Tx σ ω ε α := fun s => ⟨r, s, []⟩

/-- `raise e` where the condition fails. -/
def require (c : Prop) [Decidable c] (e : ε) : Tx σ ω ε Unit :=
  if c then Tx.pure () else raise e

/-- The value, or `e`. -/
def orRaise (o : Option α) (e : ε) : Tx σ ω ε α :=
  match o with
  | some a => Tx.pure a
  | none => raise e

/-- Run as one transaction: an error rolls the store back. -/
def unitOfWork (t : Tx σ ω ε α) : Tx σ ω ε α := fun s =>
  match (t s).result with
  | .ok _ => t s
  | .error e => ⟨.error e, s, (t s).emitted⟩

/-! ## Running -/

@[simp] theorem pure_run (a : α) (s : σ) : (pure a : Tx σ ω ε α) s = ⟨.ok a, s, []⟩ := rfl

theorem bind_run (t : Tx σ ω ε α) (f : α → Tx σ ω ε β) (s : σ) : (t >>= f) s =
    match (t s).result with
    | .ok a => ⟨(f a (t s).state).result, (f a (t s).state).state,
        (t s).emitted ++ (f a (t s).state).emitted⟩
    | .error e => ⟨.error e, (t s).state, (t s).emitted⟩ := rfl

theorem bind_ok {t : Tx σ ω ε α} {f : α → Tx σ ω ε β} {s s' : σ} {a : α} {ws : List ω}
    (h : t s = ⟨.ok a, s', ws⟩) :
    (t >>= f) s = ⟨(f a s').result, (f a s').state, ws ++ (f a s').emitted⟩ := by
  rw [bind_run, h]

theorem bind_error {t : Tx σ ω ε α} {f : α → Tx σ ω ε β} {s s' : σ} {e : ε} {ws : List ω}
    (h : t s = ⟨.error e, s', ws⟩) : (t >>= f) s = ⟨.error e, s', ws⟩ := by
  rw [bind_run, h]

@[simp] theorem raise_run (e : ε) (s : σ) : (raise e : Tx σ ω ε α) s = ⟨.error e, s, []⟩ := rfl

@[simp] theorem get_run (s : σ) : (get : Tx σ ω ε σ) s = ⟨.ok s, s, []⟩ := rfl

@[simp] theorem modify_run (f : σ → σ) (s : σ) :
    (modify f : Tx σ ω ε Unit) s = ⟨.ok (), f s, []⟩ := rfl

@[simp] theorem emit_run (w : ω) (s : σ) : (emit w : Tx σ ω ε Unit) s = ⟨.ok (), s, [w]⟩ := rfl

@[simp] theorem lift_run (r : Except ε α) (s : σ) : (lift r : Tx σ ω ε α) s = ⟨r, s, []⟩ := rfl

theorem require_pos {c : Prop} [Decidable c] (h : c) (e : ε) (s : σ) :
    (require c e : Tx σ ω ε Unit) s = ⟨.ok (), s, []⟩ := by
  rw [require, if_pos h]
  rfl

theorem require_neg {c : Prop} [Decidable c] (h : ¬c) (e : ε) (s : σ) :
    (require c e : Tx σ ω ε Unit) s = ⟨.error e, s, []⟩ := by
  rw [require, if_neg h]
  rfl

/-! ### Running one step of a sequence -/

/-- A step that succeeds silently hands its value and its store on. -/
theorem bind_next {t : Tx σ ω ε α} {f : α → Tx σ ω ε β} {s s' : σ} {a : α}
    (h : t s = ⟨.ok a, s', []⟩) : (t >>= f) s = f a s' := by
  rw [bind_ok h, List.nil_append]

theorem get_bind (f : σ → Tx σ ω ε β) (s : σ) : (get >>= f) s = f s s := bind_next rfl

theorem modify_bind (g : σ → σ) (f : Unit → Tx σ ω ε β) (s : σ) :
    (modify g >>= f) s = f () (g s) := bind_next rfl

theorem require_bind_pos {c : Prop} [Decidable c] (h : c) (e : ε) (f : Unit → Tx σ ω ε β) (s : σ) :
    (require c e >>= f) s = f () s := bind_next (require_pos h e s)

theorem require_bind_neg {c : Prop} [Decidable c] (h : ¬c) (e : ε) (f : Unit → Tx σ ω ε β)
    (s : σ) : (require c e >>= f) s = ⟨.error e, s, []⟩ := bind_error (require_neg h e s)

theorem orRaise_bind_some {o : Option α} {a : α} (h : o = some a) (e : ε) (f : α → Tx σ ω ε β)
    (s : σ) : (orRaise o e >>= f) s = f a s := by
  subst h
  exact bind_next rfl

theorem orRaise_bind_none {o : Option α} (h : o = none) (e : ε) (f : α → Tx σ ω ε β) (s : σ) :
    (orRaise o e >>= f) s = ⟨.error e, s, []⟩ := by
  subst h
  exact bind_error rfl

theorem lift_bind_ok {r : Except ε α} {a : α} (h : r = .ok a) (f : α → Tx σ ω ε β) (s : σ) :
    (lift r >>= f) s = f a s := by
  subst h
  exact bind_next rfl

theorem lift_bind_error {r : Except ε α} {e : ε} (h : r = .error e) (f : α → Tx σ ω ε β) (s : σ) :
    (lift r >>= f) s = ⟨.error e, s, []⟩ := by
  subst h
  exact bind_error rfl

/-- A successful `bind` is two successful parts. -/
theorem bind_eq_ok {t : Tx σ ω ε α} {f : α → Tx σ ω ε β} {s : σ} {b : β}
    (h : ((t >>= f) s).result = .ok b) :
    ∃ a, (t s).result = .ok a ∧ (f a (t s).state).result = .ok b ∧
      ((t >>= f) s).state = (f a (t s).state).state := by
  rw [bind_run] at h ⊢
  cases ha : (t s).result with
  | ok a => rw [ha] at h; exact ⟨a, rfl, h, rfl⟩
  | error e => rw [ha] at h; cases h

/-! ## Silent computations along a relation -/

/-- A preorder of stores: what a computation may do to the store, in any number of steps. -/
structure StoreOrder (R : σ → σ → Prop) : Prop where
  refl : ∀ s, R s s
  trans : ∀ {a b c}, R a b → R b c → R a c

/-- `t` emits nothing, and moves the store along `R`, whether it succeeds or raises. -/
def Within (R : σ → σ → Prop) (t : Tx σ ω ε α) : Prop :=
  ∀ s, R s (t s).state ∧ (t s).emitted = []

section
variable {R : σ → σ → Prop} (hR : StoreOrder R)
include hR

theorem within_pure (a : α) : Within R (pure a : Tx σ ω ε α) := fun s => ⟨hR.refl s, rfl⟩
theorem within_raise (e : ε) : Within R (raise e : Tx σ ω ε α) := fun s => ⟨hR.refl s, rfl⟩
theorem within_get : Within R (get : Tx σ ω ε σ) := fun s => ⟨hR.refl s, rfl⟩
theorem within_lift (r : Except ε α) : Within R (lift r : Tx σ ω ε α) := fun s => ⟨hR.refl s, rfl⟩

theorem within_require (c : Prop) [Decidable c] (e : ε) :
    Within R (require c e : Tx σ ω ε Unit) := fun s => by
  unfold require
  split <;> exact ⟨hR.refl s, rfl⟩

theorem within_orRaise (o : Option α) (e : ε) : Within R (orRaise o e : Tx σ ω ε α) := fun s => by
  unfold orRaise
  split <;> exact ⟨hR.refl s, rfl⟩

theorem within_bind {t : Tx σ ω ε α} {f : α → Tx σ ω ε β} (ht : Within R t)
    (hf : ∀ a, Within R (f a)) : Within R (t >>= f) := fun s => by
  rw [bind_run]
  obtain ⟨hstate, hsilent⟩ := ht s
  cases (t s).result with
  | ok a =>
    obtain ⟨hstate', hsilent'⟩ := hf a (t s).state
    exact ⟨hR.trans hstate hstate', by simp [hsilent, hsilent']⟩
  | error e => exact ⟨hstate, hsilent⟩

/-- After a computed value the rest may use what was computed. -/
theorem within_lift_bind {r : Except ε α} {f : α → Tx σ ω ε β}
    (hf : ∀ a, r = .ok a → Within R (f a)) : Within R (lift r >>= f) := fun s => by
  cases r with
  | ok a =>
    rw [lift_bind_ok rfl]
    exact hf a rfl s
  | error e =>
    rw [lift_bind_error rfl]
    exact ⟨hR.refl s, rfl⟩

/-- The boundary only adds "unchanged" to what a transaction does. -/
theorem unitOfWork_within {t : Tx σ ω ε α} {s : σ} (ht : R s (t s).state ∧ (t s).emitted = []) :
    R s (unitOfWork t s).state ∧ (unitOfWork t s).emitted = [] := by
  unfold unitOfWork
  split
  · exact ht
  · exact ⟨hR.refl s, ht.2⟩

theorem within_unitOfWork {t : Tx σ ω ε α} (ht : Within R t) : Within R (unitOfWork t) := fun s =>
  unitOfWork_within hR (ht s)

end

theorem within_modify {R : σ → σ → Prop} {f : σ → σ} (h : ∀ s, R s (f s)) :
    Within R (modify f : Tx σ ω ε Unit) := fun s => ⟨h s, rfl⟩

theorem within_ite {R : σ → σ → Prop} {c : Prop} [Decidable c] {t u : Tx σ ω ε α}
    (ht : Within R t) (hu : Within R u) : Within R (if c then t else u) := by
  split <;> assumption

/-! ## The transaction boundary -/

theorem unitOfWork_ok {t : Tx σ ω ε α} {s : σ} {a : α} (h : (t s).result = .ok a) :
    unitOfWork t s = t s := by
  unfold unitOfWork; rw [h]

theorem unitOfWork_error {t : Tx σ ω ε α} {s : σ} {e : ε} (h : (t s).result = .error e) :
    unitOfWork t s = ⟨.error e, s, (t s).emitted⟩ := by
  unfold unitOfWork; rw [h]

theorem unitOfWork_of_ok {t : Tx σ ω ε α} {s s' : σ} {a : α} {ws : List ω}
    (h : t s = ⟨.ok a, s', ws⟩) : unitOfWork t s = ⟨.ok a, s', ws⟩ := by
  rw [unitOfWork_ok (a := a) (by rw [h]), h]

/-- An error takes the store back, and no effect. -/
theorem unitOfWork_of_error {t : Tx σ ω ε α} {s r : σ} {e : ε} {ws : List ω}
    (h : t s = ⟨.error e, r, ws⟩) : unitOfWork t s = ⟨.error e, s, ws⟩ := by
  rw [unitOfWork_error (e := e) (by rw [h]), h]

/-- A transaction that leaves the store as it was does so at its boundary. -/
theorem unitOfWork_same {t : Tx σ ω ε α} {s : σ} (h : (t s).state = s) :
    (unitOfWork t s).state = s := by
  unfold unitOfWork
  split
  · exact h
  · rfl

theorem unitOfWork_congr {t t' : Tx σ ω ε α} {s : σ} (h : t s = t' s) :
    unitOfWork t s = unitOfWork t' s := by
  unfold unitOfWork
  rw [h]

/-- What is made of the value changes nothing that is committed. -/
theorem unitOfWork_map (t : Tx σ ω ε α) (f : α → β) (s : σ) :
    (unitOfWork (t >>= fun a => pure (f a)) s).state = (unitOfWork t s).state := by
  cases h : t s with
  | mk result s' ws =>
    cases result with
    | error e => rw [unitOfWork_of_error h, unitOfWork_of_error (bind_error h)]
    | ok a =>
      rw [unitOfWork_of_ok h, unitOfWork_of_ok (bind_ok h)]
      rfl

/-! ## A part of the store -/

section
variable {τ : Type} (part : σ → τ) (replace : σ → τ → σ)

/-- Run a computation on a part of the store. -/
def zoom (t : Tx τ ω ε α) : Tx σ ω ε α := fun s =>
  ⟨(t (part s)).result, replace s (t (part s)).state, (t (part s)).emitted⟩

theorem zoom_bind_next {t : Tx τ ω ε α} {f : α → Tx σ ω ε β} {s : σ} {p : τ} {a : α}
    (h : t (part s) = ⟨.ok a, p, []⟩) : (zoom part replace t >>= f) s = f a (replace s p) := by
  refine bind_next ?_
  rw [zoom, h]

theorem zoom_bind_error {t : Tx τ ω ε α} {f : α → Tx σ ω ε β} {s : σ} {p : τ} {e : ε} {ws : List ω}
    (h : t (part s) = ⟨.error e, p, ws⟩) :
    (zoom part replace t >>= f) s = ⟨.error e, replace s p, ws⟩ := by
  refine bind_error ?_
  rw [zoom, h]

end

end Tx

end Matrades.Base

/-!
## What a computation may do and raise

`Confined R P t`: wherever `t` is run, it moves the store along the preorder `R`, and what it raises has
the property `P`. The rules compose it along a sequence; `RaisesOnly P r` is the same for a computation
without a store.
-/

namespace Matrades.Base

variable {ε α β : Type} {P : ε → Prop}

/-- What the computation raises has the property. -/
def RaisesOnly (P : ε → Prop) (r : Except ε α) : Prop := ∀ e, r = .error e → P e

theorem raisesOnly_ok (a : α) : RaisesOnly P (.ok a : Except ε α) := fun _ h => by cases h

theorem raisesOnly_error {e : ε} (h : P e) : RaisesOnly P (.error e : Except ε α) := fun _ heq => by
  cases heq
  exact h

theorem raisesOnly_bind {r : Except ε α} {f : α → Except ε β} (hr : RaisesOnly P r)
    (hf : ∀ a, RaisesOnly P (f a)) : RaisesOnly P (r >>= f) := by
  cases r with
  | ok a => exact hf a
  | error e => exact raisesOnly_error (hr e rfl)

theorem raisesOnly_ite {c : Prop} [Decidable c] {r r' : Except ε α} (hr : RaisesOnly P r)
    (hr' : RaisesOnly P r') : RaisesOnly P (if c then r else r') := by
  split <;> assumption

theorem raisesOnly_orError (o : Option α) {e : ε} (h : P e) : RaisesOnly P (orError o e) := by
  cases o with
  | none => exact raisesOnly_error h
  | some a => exact raisesOnly_ok a

theorem raisesOnly_mapM {f : α → Except ε β} (hf : ∀ a, RaisesOnly P (f a)) (items : List α) :
    RaisesOnly P (items.mapM f) := by
  induction items with
  | nil => exact raisesOnly_ok []
  | cons a items ih =>
    rw [List.mapM_cons]
    exact raisesOnly_bind (hf a) fun b => raisesOnly_bind ih fun bs => raisesOnly_ok (b :: bs)

namespace Tx
variable {σ ω : Type} {R : σ → σ → Prop}

/-- The computation moves the store along `R`, and what it raises has the property `P`. -/
def Confined (R : σ → σ → Prop) (P : ε → Prop) (t : Tx σ ω ε α) : Prop :=
  ∀ s, R s (t s).state ∧ RaisesOnly P (t s).result

theorem confined_modify {f : σ → σ} (h : ∀ s, R s (f s)) :
    Confined R P (modify f : Tx σ ω ε Unit) := fun s => ⟨h s, raisesOnly_ok ()⟩

theorem confined_ite {c : Prop} [Decidable c] {t t' : Tx σ ω ε α} (ht : Confined R P t)
    (ht' : Confined R P t') : Confined R P (if c then t else t') := by
  split <;> assumption

section
variable (hR : StoreOrder R)
include hR

theorem confined_pure (a : α) : Confined R P (pure a : Tx σ ω ε α) :=
  fun s => ⟨hR.refl s, raisesOnly_ok a⟩

theorem confined_get : Confined R P (get : Tx σ ω ε σ) := fun s => ⟨hR.refl s, raisesOnly_ok s⟩

theorem confined_lift {r : Except ε α} (h : RaisesOnly P r) : Confined R P (lift r : Tx σ ω ε α) :=
  fun s => ⟨hR.refl s, h⟩

theorem confined_require (c : Prop) [Decidable c] {e : ε} (h : P e) :
    Confined R P (require c e : Tx σ ω ε Unit) := fun s => by
  by_cases hc : c
  · rw [require_pos hc]
    exact ⟨hR.refl s, raisesOnly_ok ()⟩
  · rw [require_neg hc]
    exact ⟨hR.refl s, raisesOnly_error h⟩

theorem confined_orRaise (o : Option α) {e : ε} (h : P e) :
    Confined R P (orRaise o e : Tx σ ω ε α) := fun s => by
  cases o with
  | none => exact ⟨hR.refl s, raisesOnly_error h⟩
  | some a => exact ⟨hR.refl s, raisesOnly_ok a⟩

theorem confined_bind {t : Tx σ ω ε α} {f : α → Tx σ ω ε β} (ht : Confined R P t)
    (hf : ∀ a, Confined R P (f a)) : Confined R P (t >>= f) := fun s => by
  obtain ⟨hstate, hraises⟩ := ht s
  rw [bind_run]
  cases hresult : (t s).result with
  | ok a =>
    obtain ⟨hstate', hraises'⟩ := hf a (t s).state
    exact ⟨hR.trans hstate hstate', hraises'⟩
  | error e => exact ⟨hstate, raisesOnly_error (hraises e hresult)⟩

end

end Tx

end Matrades.Base

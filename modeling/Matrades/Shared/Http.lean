import Matrades.Base.Result
import Matrades.Shared.DomainTypes

/-!
# Errors of requests

The `HttpException` that a route raises. A transaction whose route raises is rolled back.
-/

namespace Matrades

open Base

/-- The error of a refused request. -/
structure HttpException where
  status : ℕ
  detail : String
  deriving DecidableEq, Repr

/-- The answer to an exception that no route catches. -/
def internalError : HttpException := ⟨500, "Internal Server Error"⟩

/-- `if c: raise e`. -/
def raiseIf (c : Prop) [Decidable c] (e : HttpException) : Except HttpException Unit :=
  if c then .error e else .ok ()

theorem raiseIf_eq_ok {c : Prop} [Decidable c] {e : HttpException} {u : Unit} :
    raiseIf c e = .ok u ↔ ¬c := by
  unfold raiseIf
  split <;> simp [*]

/-- What follows a check that did not raise. -/
theorem ok_of_raiseIf {α : Type} {c : Prop} [Decidable c] {e : HttpException}
    {f : Unit → Except HttpException α} {a : α} (h : (raiseIf c e >>= f) = .ok a) :
    ¬c ∧ f () = .ok a := by
  obtain ⟨_, hc, hf⟩ := ok_of_bind h
  exact ⟨raiseIf_eq_ok.1 hc, hf⟩

end Matrades

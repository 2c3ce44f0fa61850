import Mathlib.Data.List.MinMax
import Matrades.Shared.DomainTypes

/-!
# Effective limits

`modules/policy`: the constraints that apply to an account and the strictest one of each kind. A
hard constraint always precedes the soft ones of its kind.
-/

namespace Matrades

inductive Enforcement
  | hard | soft
  deriving DecidableEq, Repr

inductive ConstraintKind
  | maxRiskPerTrade | maxDailyLoss | maxTotalDrawdown | maxPortfolioRisk | maxCorrelatedRisk
  | maxConcurrentTrades
  deriving DecidableEq, Repr

def ConstraintKind.value : ConstraintKind → String
  | maxRiskPerTrade => "MAX_RISK_PER_TRADE"
  | maxDailyLoss => "MAX_DAILY_LOSS"
  | maxTotalDrawdown => "MAX_TOTAL_DRAWDOWN"
  | maxPortfolioRisk => "MAX_PORTFOLIO_RISK"
  | maxCorrelatedRisk => "MAX_CORRELATED_RISK"
  | maxConcurrentTrades => "MAX_CONCURRENT_TRADES"

structure EffectiveConstraint where
  kind : ConstraintKind
  value : ℚ
  source : String
  sourceVersion : String
  enforcement : Enforcement := .hard

/-- The hard choices of a kind, or all of them where none is hard. -/
def choicesOf (constraints : List EffectiveConstraint) (kind : ConstraintKind) :
    List EffectiveConstraint :=
  let choices := constraints.filter (·.kind = kind)
  let hard := choices.filter (·.enforcement = .hard)
  if hard.isEmpty then choices else hard

/-- `strictest_applicable`, at one kind. -/
def strictestApplicable (constraints : List EffectiveConstraint) (kind : ConstraintKind) :
    Option EffectiveConstraint :=
  (choicesOf constraints kind).argmin EffectiveConstraint.value

/-- The values of the dictionary `strictest_applicable` builds. -/
def limitValues (constraints : List EffectiveConstraint) : List EffectiveConstraint :=
  (constraints.map EffectiveConstraint.kind).eraseDups.filterMap (strictestApplicable constraints)

theorem choicesOf_kind {constraints : List EffectiveConstraint} {kind : ConstraintKind}
    {c : EffectiveConstraint} (h : c ∈ choicesOf constraints kind) :
    c ∈ constraints ∧ c.kind = kind := by
  unfold choicesOf at h
  dsimp only at h
  split at h
  · simpa using h
  · rw [List.mem_filter] at h
    simpa using h.1

/-- The effective limit is one of the constraints of its kind, and the least of those it was
chosen from. -/
theorem strictestApplicable_spec {constraints : List EffectiveConstraint} {kind : ConstraintKind}
    {c : EffectiveConstraint} (h : strictestApplicable constraints kind = some c) :
    c ∈ constraints ∧ c.kind = kind ∧ ∀ d ∈ choicesOf constraints kind, c.value ≤ d.value := by
  have hm := List.argmin_mem (Option.mem_def.2 h)
  obtain ⟨hc, hk⟩ := choicesOf_kind hm
  exact ⟨hc, hk, fun d hd => List.le_of_mem_argmin hd (Option.mem_def.2 h)⟩

/-- A sole constraint of its kind is the effective one. -/
theorem strictestApplicable_of_filter {constraints : List EffectiveConstraint}
    {kind : ConstraintKind} {c : EffectiveConstraint}
    (h : constraints.filter (·.kind = kind) = [c]) :
    strictestApplicable constraints kind = some c := by
  unfold strictestApplicable choicesOf
  rw [h]
  by_cases hc : c.enforcement = .hard <;> simp [hc]

end Matrades

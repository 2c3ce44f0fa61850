import Mathlib.Algebra.Order.Ring.Rat
import Mathlib.Data.Prod.Lex
import Mathlib.Data.String.Basic
import Matrades.Base.Missing
import Matrades.Strategies.Hypotheses

/-!
# Screening of hypotheses

`cfd_family_hypotheses` of `modules/strategies/family_library.py`, `screen_hypotheses` and
`retain_family_alternatives` of `modules/strategies/screening.py`, and how `_generate_strategy` joins them.
The backtest of a specification on the holdout is a parameter: it depends on the specification alone. The
parameter sweep keeps a hypothesis or replaces it by a variant.
-/

namespace Matrades

open Base Schema

/-! ## Baselines -/

/-- `data.update(..)` -/
def updateDocument (document : Json) (updates : List (String × Json)) : Json :=
  match document with
  | .obj fields => .obj (updates ++ fields)
  | other => other

/-- The rules, regimes and family of a baseline. -/
structure FamilyBaseline where
  family : StrategyFamily
  entries : List Schema.Condition
  regimes : List String

def baselineRule (feature : String) (operator : Operator) (value : String) : Schema.Condition :=
  ⟨feature, operator, .text value⟩

/-- `families` -/
def familyBaselines (direction : TradeDirection) : List FamilyBaseline :=
  let up := direction = .long
  let greater : Operator := if up then .gt else .lt
  let lesser : Operator := if up then .lt else .gt
  let side := if up then "low" else "high"
  let touches : Operator := if up then .le else .ge
  let reversal := if up then "prior_low" else "prior_high"
  let momentum := baselineRule "momentum" greater "0"
  let trend := baselineRule "close" greater "slow_average"
  [⟨.trend, [trend, momentum], ["TRENDING"]⟩,
    ⟨.momentum, [momentum, baselineRule "close" greater "moving_average"], ["TRENDING"]⟩,
    ⟨.breakout, [baselineRule "close" greater (if up then "prior_high" else "prior_low")],
      ["TRENDING", "RANGING"]⟩,
    ⟨.pullback, [trend, baselineRule side touches "moving_average", momentum], ["TRENDING"]⟩,
    ⟨.meanReversion, [baselineRule "close" lesser "slow_average", momentum], ["RANGING"]⟩,
    ⟨.range, [baselineRule side touches reversal, momentum], ["RANGING"]⟩,
    ⟨.liquiditySweep, [baselineRule side lesser reversal, baselineRule "close" greater reversal],
      ["RANGING"]⟩]

/-- The trade rules of every baseline. -/
def baselineTradeRules (direction : TradeDirection) : TradeRulesFields where
  direction
  stopVolatilityMultiple := ⟨false, 15, -1⟩
  takeProfitRMultiples := [⟨false, 1, 0⟩, ⟨false, 2, 0⟩]

/-- What a baseline replaces in the document of the prototype. -/
def baselineUpdates (prototype : SpecificationFields) (direction : TradeDirection)
    (baseline : FamilyBaseline) : List (String × Json) :=
  let lesser : Operator := if direction = .long then .lt else .gt
  let rules := fun conditions : List Schema.Condition => SpecificationFields.conditions.dump conditions
  let instrument := prototype.instruments.headD ""
  [("name", .str s!"{instrument} {baseline.family.value} {directionText direction} baseline"),
    ("family", .str baseline.family.value),
    ("regimes", SpecificationFields.texts.dump baseline.regimes),
    ("entry", rules baseline.entries),
    ("exit", rules [baselineRule "momentum" lesser "0"]),
    ("confirmations", .arr []), ("filters", .arr []), ("invalidation", .arr []),
    ("sessions", SpecificationFields.texts.dump prototype.sessions),
    ("event_rules", SpecificationFields.texts.dump prototype.eventRules),
    ("parameters", .obj []), ("position_management", .obj []),
    ("stop_loss", Condition.codec.dump (baselineRule "volatility" .gt "0")),
    ("take_profit", .arr []),
    ("trade_rules", .obj (TradeRulesFields.record.write (baselineTradeRules direction))),
    ("evaluator_version", .str "strategy-evaluator-v2")]

def baselineId (family : StrategyFamily) (direction : TradeDirection) : String :=
  s!"BASELINE_{family.value}_{directionText direction}"

/-- The baseline of one family and direction. -/
def familyHypothesis (prototype : Schema.StrategySpecification) (evidenceRef : String)
    (direction : TradeDirection) (baseline : FamilyBaseline) : Except String StrategyHypothesis := do
  let specification ← orError
    (StrategySpecification.modelValidate
      (updateDocument prototype.modelDump (baselineUpdates prototype.1 direction baseline)))
    "ValidationError"
  return {
    hypothesisId := baselineId baseline.family direction
    specification
    rationale := "Fixed research baseline; establish eligibility per instrument and regime after execution costs."
    breakdown := ["Detect regime from completed bars", "Evaluate fixed family entry at next bar open",
      "Simulate volatility protection and costs; validate before use"]
    evidenceRefs := [evidenceRef]
    agentId := "deterministic_family_library"
    rationale_nonempty := by decide
    breakdown_length := by decide
    refs_nonempty := List.cons_ne_nil _ _ }

/-- The families of both directions. -/
def directedBaselines : List (TradeDirection × FamilyBaseline) :=
  [TradeDirection.long, .short].flatMap fun direction =>
    (familyBaselines direction).map fun baseline => (direction, baseline)

/-- `cfd_family_hypotheses` -/
def cfdFamilyHypotheses (prototype : Schema.StrategySpecification) (evidenceRef : String) :
    Except String (List StrategyHypothesis) :=
  if prototype.1.instrumentType ≠ some .cfd then .ok []
  else directedBaselines.mapM fun (direction, baseline) =>
    familyHypothesis prototype evidenceRef direction baseline

/-! ## The list that is screened -/

/-- The variant of a hypothesis that the sweep has selected. -/
def quantVariant (h : StrategyHypothesis) (variant : Schema.StrategySpecification) :
    StrategyHypothesis :=
  { h with
    hypothesisId := h.hypothesisId ++ "_QUANT"
    specification := variant
    rationale := h.rationale ++ " Parameters selected from a stable discovery-only region."
    rationale_nonempty := by
      rw [ne_eq, String.append_eq_empty_iff]
      exact fun hempty => h.rationale_nonempty hempty.1 }

/-- `parameter_sweep`: the variant it selects for the hypothesis at a position, if any. -/
def parameterSweep (selected : ℕ → Option Schema.StrategySpecification)
    (hypotheses : List StrategyHypothesis) : List StrategyHypothesis :=
  hypotheses.mapIdx fun index h => (selected index).elim h (quantVariant h)

/-- The hypotheses of a research run: those of the agent and the baselines, after the sweep. -/
def screenedHypotheses (historyReference : String) (selected : ℕ → Option Schema.StrategySpecification)
    (generated : List StrategyHypothesis) : Except String (List StrategyHypothesis) := do
  match generated with
  | [] => return []
  | first :: _ =>
    let baselines ← cfdFamilyHypotheses first.specification historyReference
    return parameterSweep selected (generated ++ baselines)

/-! ## The screen -/

/-- What the screen reads of a backtest. -/
structure ScreenBacktest where
  tradeCount : ℕ
  netProfit : ℚ
  r : ℚ
  gates : Dict String Bool

structure HypothesisScreenResult where
  hypothesisId : String
  eligible : Bool
  score : ℚ
  reasons : List String
  tradeCount : ℕ
  netProfit : ℚ
  passedGates : ℕ
  gates : Dict String Bool
  family : String

/-- Why a backtest does not qualify. -/
def ScreenBacktest.reasons (b : ScreenBacktest) : List String :=
  (if b.tradeCount = 0 then ["zero trades"] else []) ++
    (if b.netProfit ≤ 0 then ["non-positive net profit after costs"] else [])

/-- The order of results: passed gates first, then the score, then the id. -/
def HypothesisScreenResult.rank (r : HypothesisScreenResult) : ℤ ×ₗ ℚ ×ₗ String :=
  toLex (-r.passedGates, toLex (-r.score, r.hypothesisId))

structure PreliminaryScreen where
  selectedHypothesisId : Option String
  results : List HypothesisScreenResult

/-- The results in the order of their ranks. -/
def rankedResults (results : List HypothesisScreenResult) : List HypothesisScreenResult :=
  results.insertionSort fun a b => a.rank ≤ b.rank

section
variable (run : Schema.StrategySpecification → ScreenBacktest)

def screenResult (h : StrategyHypothesis) : HypothesisScreenResult :=
  let backtest := run h.specification
  { hypothesisId := h.hypothesisId
    eligible := backtest.reasons.isEmpty
    score := backtest.r
    reasons := backtest.reasons
    tradeCount := backtest.tradeCount
    netProfit := backtest.netProfit
    passedGates := (backtest.gates.values.filter id).length
    gates := backtest.gates
    family := h.specification.1.family.value }

/-- `screen_hypotheses` -/
def screenHypotheses (hypotheses : List StrategyHypothesis) : PreliminaryScreen :=
  let results := (hypotheses.insertionSort fun a b => a.hypothesisId ≤ b.hypothesisId).map (screenResult run)
  { selectedHypothesisId :=
      (rankedResults (results.filter HypothesisScreenResult.eligible)).head?.map
        HypothesisScreenResult.hypothesisId
    results }

end

/-! ## What is stored -/

/-- The first hypothesis with an id. -/
def firstWithId (hypotheses : List StrategyHypothesis) (id : String) : Option StrategyHypothesis :=
  hypotheses.find? fun h => h.hypothesisId = id

/-- `by_id`: the last hypothesis with an id counts. -/
def lastWithId (hypotheses : List StrategyHypothesis) (id : String) : Option StrategyHypothesis :=
  (Dict.ofList (hypotheses.map fun h => (h.hypothesisId, h))).get? id

/-- The family and direction of a CFD strategy with trade rules. -/
def alternativeKey (s : Schema.StrategySpecification) : Option (StrategyFamily × TradeDirection) :=
  match s.1.instrumentType, s.1.tradeRules with
  | some .cfd, some rules => some (s.1.family, rules.1.direction)
  | _, _ => none

/-- The alternative a result stands for. -/
def alternativeOf (hypotheses : List StrategyHypothesis) (result : HypothesisScreenResult) :
    Except String (Option StrategyHypothesis) := do
  let hypothesis ← orError (lastWithId hypotheses result.hypothesisId) "KeyError"
  return if !result.eligible || (alternativeKey hypothesis.specification).isNone then none
    else some hypothesis

/-- `retain_family_alternatives` -/
def retainFamilyAlternatives (hypotheses : List StrategyHypothesis) (screen : PreliminaryScreen) :
    Except String (List StrategyHypothesis) := do
  let alternatives ← (rankedResults screen.results).mapM (alternativeOf hypotheses)
  return Dict.firstByKey (fun h : StrategyHypothesis => alternativeKey h.specification)
    alternatives.reduceOption

/-- The proposal of `_generate_strategy`, where the screen selects one. -/
def selectedProposal (hypotheses : List StrategyHypothesis) (screen : PreliminaryScreen) :
    Except String (Option StrategyHypothesis) :=
  match screen.selectedHypothesisId with
  | none => .ok none
  | some id => (orError (firstWithId hypotheses id) "StopIteration").map some

example : (familyBaselines .short).map (fun b => baselineId b.family .short) =
    ["BASELINE_TREND_SHORT", "BASELINE_MOMENTUM_SHORT", "BASELINE_BREAKOUT_SHORT",
      "BASELINE_PULLBACK_SHORT", "BASELINE_MEAN_REVERSION_SHORT", "BASELINE_RANGE_SHORT",
      "BASELINE_LIQUIDITY_SWEEP_SHORT"] := by decide +kernel

end Matrades

import Matrades.Base.Dict
import Matrades.Routes.PaperTrading

/-!
# The validation records of a strategy version

A version, its backtest runs and its paper sessions, as the routes and the worker store them, with
the gates of `modules/backtesting/promotion.py` and `validation_passed` of
`modules/strategies/monitoring.py`. Every write of the version adds one to its `revision`, the
`version` of the record.
-/

namespace Matrades

open Base

inductive BacktestState
  | queued | running | passed | failed | waitingForData
  deriving DecidableEq, Repr

/-- Is the run finished? -/
def BacktestState.terminal : BacktestState → Bool
  | queued | running => false
  | passed | failed | waitingForData => true

/-- The verdicts of gates by their names. -/
abbrev GateVerdicts := Dict String Bool

structure BacktestRun where
  state : BacktestState
  startedAt : Option Time := none
  artifactHash : Option String := none
  gates : GateVerdicts := Dict.empty
  deriving DecidableEq

structure StrategyVersion where
  id : Uuid
  state : StrategyState
  artifactHash : String
  /-- The hash `compile_strategy` computes for the stored specification. -/
  compiledHash : String
  latestBacktestId : Option Uuid := none
  latestBacktestState : Option BacktestState := none
  validationEvidence : GateVerdicts := Dict.empty
  paperRunId : Option Uuid := none
  healthSuspend : Bool := false
  revision : ℕ := 0

/-- The records of one version. -/
structure ValidationStore where
  version : StrategyVersion
  backtests : Dict Uuid BacktestRun := Dict.empty
  paperRuns : Dict Uuid PaperRun := Dict.empty

/-- A write of the version. -/
def ValidationStore.withVersion (s : ValidationStore) (version : StrategyVersion) : ValidationStore :=
  { s with version := { version with revision := s.version.revision + 1 } }

/-! ## GateVerdicts -/

def validationGates : List String := ["backtest", "out_of_sample", "walk_forward", "stress", "policy"]

def optionalGates : List String := ["parameter_sensitivity", "cost_stress", "event_driven_execution"]

/-- `validation_passed` -/
def validationPassed (evidence : GateVerdicts) : Bool :=
  validationGates.all (fun gate => (evidence.get? gate).getD false) &&
    optionalGates.all fun gate => (evidence.get? gate).getD true

/-- `promotable` -/
def promotable (evidence : GateVerdicts) : Bool :=
  (validationGates ++ ["paper"]).all (fun gate => (evidence.get? gate).getD false) &&
    optionalGates.all fun gate => (evidence.get? gate).getD true

end Matrades

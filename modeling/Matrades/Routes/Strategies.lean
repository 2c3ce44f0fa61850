import Matrades.Strategies.Validation

/-!
# The lifecycle routes of a strategy version

`create_backtest`, `transition_strategy`, `start_paper_trading`, `stop_paper_entries`,
`complete_paper_trading` and `promote` of `routes/strategies.py`, and the monitor's evaluation
(`_evaluate` of `tasks/strategy_monitoring.py`). Each locks the version, so they happen one after the
other. The requests are past the checks of their payloads and of the provider basis.
-/

namespace Matrades

open Base

def conflict (detail : String) : Except HttpException ValidationStore :=
  .error { status := 409, detail }

/-- `create_backtest` -/
def createBacktest (s : ValidationStore) (backtestId : Uuid) : Except HttpException ValidationStore :=
  if s.version.state ∈ [.active, .paperTrading, .backtesting, .retired] then
    conflict "Finish paper/backtesting or suspend monitoring before starting another backtest"
  else
    .ok ({ s with backtests := s.backtests.set backtestId { state := .queued } }.withVersion
      { s.version with
        state := .backtesting
        latestBacktestId := some backtestId
        latestBacktestState := some .queued
        validationEvidence := Dict.ofList [("compiler", true)] })

/-- `transition_strategy` -/
def transitionStrategy (s : ValidationStore) (target : StrategyState) :
    Except HttpException ValidationStore :=
  if target ∈ [.paperTrading, .approved, .active] then
    conflict "evidence-gated stages are advanced only by recorded validation work"
  else
    match s.version.state.transition target with
    | .error detail => conflict detail
    | .ok target => .ok (s.withVersion { s.version with state := target })

/-! ## Paper trading -/

/-- The view of a version a paper session has. -/
def StrategyVersion.paperView (version : StrategyVersion) : PaperVersion where
  id := version.id
  state := version.state
  artifactHash := version.artifactHash
  compiledHash := version.compiledHash
  paperRunId := version.paperRunId
  paper := (version.validationEvidence.get? "paper").getD false
  paperForward := (version.validationEvidence.get? "paper_forward").getD false

/-- The records of one of the version's sessions. -/
def ValidationStore.session? (s : ValidationStore) (paperRunId : Uuid) : Option PaperTrading :=
  (s.paperRuns.get? paperRunId).map fun run => { version := s.version.paperView, run }

/-- `start_paper_trading`: a session that is queued or running is returned as it is. -/
def startPaperTrading (s : ValidationStore) (paperRunId : Uuid) (now entryCutoff : AwareTime) :
    Except HttpException ValidationStore :=
  if s.paperRuns.values.any fun run => run.state = .queued || run.state = .running then .ok s
  else if s.version.state ≠ .validating then conflict "strategy is not ready for paper trading"
  else if !validationPassed s.version.validationEvidence then
    conflict "all formal validation gates must pass first"
  else
    match s.version.latestBacktestId.bind s.backtests.get? with
    | none => conflict "A passing formal backtest is required"
    | some backtest =>
      if backtest.state ≠ .passed then conflict "A passing formal backtest is required"
      else if backtest.artifactHash ≠ some s.version.artifactHash then
        conflict "The passing backtest does not match this strategy implementation"
      else
        let run : PaperRun :=
          { id := paperRunId, strategyVersionId := s.version.id, state := .running
            artifactHash := s.version.artifactHash
            data :=
              { startedAt := now, entryCutoff := some entryCutoff, engine := some engineName
                dataComplete := some true } }
        .ok ({ s with paperRuns := s.paperRuns.set paperRunId run }.withVersion
          { s.version with state := .paperTrading, paperRunId := some paperRunId })

/-- `stop_paper_entries` -/
def stopEntries (s : ValidationStore) (paperRunId : Uuid) (now : AwareTime) :
    Except HttpException ValidationStore :=
  match s.session? paperRunId with
  | none => .error { status := 404, detail := "Paper session not found" }
  | some session =>
    match stopPaperEntries session now with
    | .error refused => .error refused
    | .ok stopped => .ok { s with paperRuns := s.paperRuns.set paperRunId stopped.run }

/-- `complete_paper_trading` -/
def completePaper (s : ValidationStore) (paperRunId : Uuid) (now : AwareTime) :
    Except HttpException ValidationStore :=
  match s.session? paperRunId with
  | none => .error { status := 404, detail := "paper-trading run not found" }
  | some session =>
    match completePaperTrading session paperRunId now with
    | .error refused => .error refused
    | .ok reviewed =>
      .ok ({ s with paperRuns := s.paperRuns.set paperRunId reviewed.run }.withVersion
        { s.version with
          state := reviewed.version.state
          validationEvidence := s.version.validationEvidence.update
            (Dict.ofList [("paper", reviewed.version.paper),
              ("paper_forward", reviewed.version.paperForward)]) })

/-! ## Activation and monitoring -/

/-- `promote` -/
def promote (s : ValidationStore) : Except HttpException ValidationStore :=
  let version := s.version
  if (version.validationEvidence.get? "paper_forward").getD false = false ∨
      version.state ∉ [.approved, .suspended] ∨
      ¬(version.artifactHash ≠ "" ∧ promotable version.validationEvidence = true) then
    conflict
      "promotion requires complete compatible backtest, validation, policy, and paper evidence"
  else if version.healthSuspend then
    conflict
      "This version lost its recent edge; research and validate a new version before activation"
  else if version.compiledHash ≠ version.artifactHash then
    conflict "Strategy implementation changed; revalidate it"
  else .ok (s.withVersion { version with state := .active })

section
variable (library : TechnicalLibrary) (zones : ZoneInfo) (spec : StrategySpecification)
  (tf : Timeframe) (configuration : BacktestConfiguration)

/-- `_evaluate`: a paper session observes the tick; an activated version is suspended when its
recorded performance asks for it. A failed evaluation only marks the version. -/
def evaluateVersion (s : ValidationStore) (tick : Tick) (health : Option Bool) : ValidationStore :=
  let evidence := s.version.validationEvidence
  match s.version.state with
  | .paperTrading =>
    if !validationPassed evidence then s.withVersion s.version
    else
      let observed := match s.version.paperRunId.bind s.session? with
        | none => s
        | some session =>
          let evaluated := evaluatePaper library zones spec tf configuration session tick
          { s with paperRuns := s.paperRuns.set session.run.id evaluated.run }
      observed.withVersion { s.version with healthSuspend := health.getD s.version.healthSuspend }
  | .active =>
    if !validationPassed evidence ∨ evidence.get? "paper" ≠ some true ∨
        evidence.get? "paper_forward" ≠ some true ∨
        s.version.compiledHash ≠ s.version.artifactHash then
      s.withVersion s.version
    else
      match health with
      | none => s.withVersion s.version
      | some suspend =>
        s.withVersion { s.version with
          healthSuspend := suspend
          state := if suspend then .suspended else .active }
  | _ => s

end

end Matrades

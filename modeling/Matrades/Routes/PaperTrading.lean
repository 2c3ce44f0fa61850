import Matrades.Shared.Http
import Matrades.Strategies.Schema
import Matrades.Strategies.Monitoring

/-!
# Paper sessions and their review

The worker's evaluation of a paper session (`_evaluate` of `tasks/strategy_monitoring.py`), and the
routes that stop its entries and review it (`routes/strategies.py`). The three lock the strategy
version, so they happen one after the other.
-/

namespace Matrades

inductive PaperRunState
  | queued | running | passed | failed
  deriving DecidableEq, Repr

structure PaperRun where
  id : Uuid
  strategyVersionId : Uuid
  state : PaperRunState
  artifactHash : String
  failure : Option String := none
  gates : Option PaperGates := none
  data : ForwardState

/-- A strategy version, with the evidence of its paper session. -/
structure PaperVersion where
  id : Uuid
  state : StrategyState
  artifactHash : String
  /-- The hash `compile_strategy` computes for the stored specification. -/
  compiledHash : String
  paperRunId : Option Uuid
  paper : Bool := false
  paperForward : Bool := false

/-- The records of a session. -/
structure PaperTrading where
  version : PaperVersion
  run : PaperRun

/-- What happens to a session. -/
inductive PaperEvent
  | tick (tick : Tick)
  | monitoringFailure (reason : String)
  | stopEntries (now : AwareTime)
  | complete (paperRunId : Uuid) (now : AwareTime)

section
variable (library : TechnicalLibrary) (zones : ZoneInfo) (spec : StrategySpecification)
  (tf : Timeframe) (configuration : BacktestConfiguration)

/-- An evaluation that fails keeps the ledger and is remembered. -/
def evaluationFailure (session : PaperTrading) (reason : String) : PaperTrading :=
  if session.version.state ≠ .paperTrading then session
  else { session with run := { session.run with failure := some reason } }

/-- `_evaluate`, for a version in paper trading. A check that fails before the run is loaded leaves
it as it is. -/
def evaluatePaper (session : PaperTrading) (tick : Tick) : PaperTrading :=
  if session.version.state ≠ .paperTrading then session
  else if session.version.compiledHash ≠ session.version.artifactHash then session
  else if spec.tradeRules.isNone then session
  else if session.run.state ≠ .running ∨ session.run.data.engine ≠ some engineName then
    evaluationFailure session "Start a new forward paper session for this strategy"
  else if session.run.artifactHash ≠ session.version.artifactHash then
    evaluationFailure session "Paper session implementation no longer matches the version"
  else
    match observe library zones spec tf configuration session.run.data tick true with
    | .ok data => { session with run := { session.run with data, failure := none } }
    | .error reason => evaluationFailure session reason

/-- `stop_paper_entries` -/
def stopPaperEntries (session : PaperTrading) (now : AwareTime) :
    Except HttpException PaperTrading :=
  if session.run.strategyVersionId ≠ session.version.id then
    .error { status := 404, detail := "Paper session not found" }
  else if session.version.state ≠ .paperTrading ∨ session.run.state ≠ .running then
    .error { status := 409, detail := "Paper session is not running" }
  else
    .ok { session with run :=
      { session.run with data := { session.run.data with entryCutoff := some now } } }

/-- The checks of a review before its gates. -/
def reviewRefused (session : PaperTrading) (paperRunId : Uuid) (now : AwareTime) :
    Option HttpException :=
  let conflict (detail : String) : Option HttpException := some { status := 409, detail }
  let run := session.run
  if run.strategyVersionId ≠ session.version.id then
    conflict "paper run is linked to another strategy"
  else if session.version.paperRunId ≠ some paperRunId then
    conflict "Only the current paper session can be reviewed"
  else if session.version.state ≠ .paperTrading ∨ ¬(run.state = .running ∨ run.state = .queued) then
    conflict "paper-trading run is not active"
  else if run.data.engine ≠ some engineName then
    conflict
      "Start a new forward paper session; manually entered metrics cannot approve a strategy"
  else if run.data.openPositions ≠ [] ∨ run.data.pendingEntries ≠ [] then
    conflict "Paper entries or positions are still open"
  else if run.failure.isSome then conflict "Resolve the paper monitoring failure before review"
  else
    match run.data.entryCutoff with
    | none => some { status := 500, detail := "entry_cutoff" }
    | some cutoff =>
      if now.instant < cutoff.instant then
        conflict "Stop new paper entries or wait for the observation window to end before review"
      else if run.artifactHash ≠ session.version.artifactHash then
        conflict "Paper evidence belongs to a different implementation"
      else if session.version.compiledHash ≠ session.version.artifactHash then
        conflict "Strategy implementation changed; revalidate it"
      else none

/-- `complete_paper_trading`: the gates decide whether the session becomes paper evidence. -/
def completePaperTrading (session : PaperTrading) (paperRunId : Uuid) (now : AwareTime) :
    Except HttpException PaperTrading :=
  if session.run.id ≠ paperRunId then
    .error { status := 404, detail := "paper-trading run not found" }
  else
    match reviewRefused session paperRunId now with
    | some refused => .error refused
    | none =>
      let gates := paperGates session.run.data
      .ok {
        version := { session.version with
          state := if gates.passed then .approved else .validating
          paper := gates.passed
          paperForward := gates.passed }
        run := { session.run with
          state := if gates.passed then .passed else .failed
          gates := some gates } }

/-- A refused request changes nothing. -/
def paperStep (session : PaperTrading) : PaperEvent → PaperTrading
  | .tick tick => evaluatePaper library zones spec tf configuration session tick
  | .monitoringFailure reason => evaluationFailure session reason
  | .stopEntries now => (stopPaperEntries session now).toOption.getD session
  | .complete paperRunId now => (completePaperTrading session paperRunId now).toOption.getD session

end

end Matrades

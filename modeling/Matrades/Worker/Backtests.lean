import Matrades.Routes.Strategies

/-!
# Backtest deliveries

`_run_backtest`, `_mark_backtest_failed`, `run_strategy_backtest` and `_resume_strategy_backtests` of
`tasks/strategies.py`. A delivery of a run starts it in one transaction and completes it in another;
an exception is handled by a third one. Each of them locks the run. The recovery reads the runs
without their locks and writes them later. A delivery is killed 900 seconds after it began.
-/

namespace Matrades

open Base

/-! ## Transactions -/

/-- The result of a backtest. -/
structure BacktestOutcome where
  gates : GateVerdicts
  waitingForData : Bool := false
  artifactHash : String

def BacktestOutcome.state (o : BacktestOutcome) : BacktestState :=
  if o.waitingForData then .waitingForData
  else if o.gates.values.all id then .passed
  else .failed

/-- The first transaction of `_run_backtest`, for a queued run. -/
def startBacktest (s : ValidationStore) (backtestId : Uuid) (run : BacktestRun) (now : Time) :
    ValidationStore :=
  { s with backtests :=
      s.backtests.set backtestId { run with state := .running, startedAt := some now } }

/-- The last transaction of `_run_backtest`: a superseded run leaves the version alone. -/
def completeBacktest (s : ValidationStore) (backtestId : Uuid) (run : BacktestRun)
    (outcome : BacktestOutcome) : ValidationStore :=
  let run' := { run with
    state := outcome.state
    artifactHash := some outcome.artifactHash
    gates := outcome.gates }
  let s' := { s with backtests := s.backtests.set backtestId run' }
  if s.version.latestBacktestId ≠ some backtestId then s'
  else
    s'.withVersion { s.version with
      state := .validating
      latestBacktestState := some outcome.state
      validationEvidence := s.version.validationEvidence.update outcome.gates }

def failedGates : GateVerdicts := Dict.ofList (validationGates.map fun gate => (gate, false))

/-- `_mark_backtest_failed` -/
def markBacktestFailed (s : ValidationStore) (backtestId : Uuid) (run : BacktestRun) :
    ValidationStore :=
  let s' := { s with backtests := s.backtests.set backtestId { run with state := .failed } }
  if s.version.latestBacktestId ≠ none ∧ s.version.latestBacktestId ≠ some backtestId then s'
  else
    s'.withVersion { s.version with
      state := .validating
      latestBacktestId := some backtestId
      latestBacktestState := some .failed
      validationEvidence := s.version.validationEvidence.update failedGates }

/-! ## Deliveries -/

inductive DeliveryPhase
  | delivered
  | working
  /-- An exception is being handled; `marked` if the delivery has marked the run as running. -/
  | failing (marked : Bool)
  | returned
  | ended
  deriving DecidableEq, Repr

structure BacktestDelivery where
  backtestId : Uuid
  begunAt : Time
  phase : DeliveryPhase

def taskLimit : Time := 900 * second

def recoveryDelay : Time := 20 * minute

structure ValidationSystem where
  now : Time
  store : ValidationStore
  deliveries : Dict ℕ BacktestDelivery := Dict.empty
  /-- The lost runs a recovery has read and not written yet. -/
  recovering : List (Uuid × BacktestRun) := []

namespace ValidationSystem

/-- A delivery that has not been killed. -/
def alive? (s : ValidationSystem) (n : ℕ) : Option BacktestDelivery :=
  (s.deliveries.get? n).filter fun d => s.now < d.begunAt + taskLimit

def setPhase (s : ValidationSystem) (n : ℕ) (d : BacktestDelivery) (phase : DeliveryPhase) :
    ValidationSystem :=
  { s with deliveries := s.deliveries.set n { d with phase } }

end ValidationSystem

/-- What happens to the records of a version. -/
inductive ValidationEvent
  | wait (duration : Time)
  | deliver (n : ℕ) (backtestId : Uuid)
  | start (n : ℕ)
  | complete (n : ℕ) (outcome : BacktestOutcome)
  | throw (n : ℕ)
  | markFailed (n : ℕ)
  | recover (asOf : Time)
  | requeue (k : ℕ)
  | createBacktest (backtestId : Uuid)
  | transition (target : StrategyState)
  | startPaper (paperRunId : Uuid) (now entryCutoff : AwareTime)
  | stopEntries (paperRunId : Uuid) (now : AwareTime)
  | completePaper (paperRunId : Uuid) (now : AwareTime)
  | promote
  | evaluate (tick : Tick) (health : Option Bool)

namespace ValidationSystem

/-- A delivery begins. -/
def deliver (s : ValidationSystem) (n : ℕ) (backtestId : Uuid) : ValidationSystem :=
  if (s.deliveries.get? n).isSome then s
  else { s with deliveries := s.deliveries.set n ⟨backtestId, s.now, .delivered⟩ }

/-- A run that is not queued is left as it is; one that does not exist is an exception. -/
def start (s : ValidationSystem) (n : ℕ) : ValidationSystem :=
  match s.alive? n with
  | none => s
  | some d =>
    if d.phase ≠ .delivered then s
    else
      match s.store.backtests.get? d.backtestId with
      | none => s.setPhase n d (.failing false)
      | some run =>
        if run.state ≠ .queued then s.setPhase n d .returned
        else { s.setPhase n d .working with
          store := startBacktest s.store d.backtestId run s.now }

def complete (s : ValidationSystem) (n : ℕ) (outcome : BacktestOutcome) : ValidationSystem :=
  match s.alive? n with
  | none => s
  | some d =>
    if d.phase ≠ .working then s
    else
      match s.store.backtests.get? d.backtestId with
      | none => s.setPhase n d (.failing true)
      | some run =>
        { s.setPhase n d .returned with
          store := completeBacktest s.store d.backtestId run outcome }

/-- An exception: nothing of the transaction that was open stays. -/
def throw (s : ValidationSystem) (n : ℕ) : ValidationSystem :=
  match s.alive? n with
  | none => s
  | some d =>
    match d.phase with
    | .delivered => s.setPhase n d (.failing false)
    | .working => s.setPhase n d (.failing true)
    | .returned => s.setPhase n d (.failing false)
    | .failing _ => s.setPhase n d .ended
    | .ended => s

def markFailed (s : ValidationSystem) (n : ℕ) : ValidationSystem :=
  match s.alive? n with
  | none => s
  | some d =>
    match d.phase with
    | .failing _ =>
      match s.store.backtests.get? d.backtestId with
      | none => s.setPhase n d .ended
      | some run =>
        { s.setPhase n d .ended with
          store := markBacktestFailed s.store d.backtestId run }
    | _ => s

/-- Has the run been running for twenty minutes? -/
def lost (asOf : Time) (run : BacktestRun) : Bool :=
  run.state = .running && run.startedAt.any fun startedAt => startedAt + recoveryDelay < asOf

/-- The recovery reads the runs at or behind its time `asOf`. -/
def recover (s : ValidationSystem) (asOf : Time) : ValidationSystem :=
  if s.now < asOf then s
  else { s with recovering :=
      s.recovering ++ s.store.backtests.entries.filter fun (_, run) => lost asOf run }

/-- It writes what it has read, and queues the run. -/
def requeue (s : ValidationSystem) (k : ℕ) : ValidationSystem :=
  match s.recovering[k]? with
  | none => s
  | some (backtestId, run) =>
    { s with
      recovering := s.recovering.eraseIdx k
      store := { s.store with
        backtests := s.store.backtests.set backtestId { run with state := .queued } } }

/-- A refused request changes nothing. -/
def request (s : ValidationSystem) (response : Except HttpException ValidationStore) :
    ValidationSystem :=
  { s with store := response.toOption.getD s.store }

section
variable (library : TechnicalLibrary) (zones : ZoneInfo) (spec : StrategySpecification)
  (tf : Timeframe) (configuration : BacktestConfiguration)

/-- New records have new ids. -/
def step (s : ValidationSystem) : ValidationEvent → ValidationSystem
  | .wait duration => { s with now := s.now + duration }
  | .deliver n backtestId => s.deliver n backtestId
  | .start n => s.start n
  | .complete n outcome => s.complete n outcome
  | .throw n => s.throw n
  | .markFailed n => s.markFailed n
  | .recover asOf => s.recover asOf
  | .requeue k => s.requeue k
  | .createBacktest backtestId =>
    if (s.store.backtests.get? backtestId).isSome then s
    else s.request (createBacktest s.store backtestId)
  | .transition target => s.request (transitionStrategy s.store target)
  | .startPaper paperRunId now entryCutoff =>
    if (s.store.paperRuns.get? paperRunId).isSome then s
    else s.request (startPaperTrading s.store paperRunId now entryCutoff)
  | .stopEntries paperRunId now => s.request (stopEntries s.store paperRunId now)
  | .completePaper paperRunId now => s.request (completePaper s.store paperRunId now)
  | .promote => s.request (promote s.store)
  | .evaluate tick health =>
    { s with store := evaluateVersion library zones spec tf configuration s.store tick health }

end

end ValidationSystem

end Matrades

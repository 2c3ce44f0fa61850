import Matrades.Research.Workflow
import Matrades.Worker.Backtests

/-!
# Research deliveries

`run_research_cycle` with `_execute_research_cycle` and `_mark_failed` (`tasks/research.py`), and
`ingest_research_history` with `_ingest`, `_failed` and `_recover` (`tasks/research_data.py`), for one
record. A transaction that does not lock the record reads it first and writes it later; the write sets
the columns that it changes. Nothing of a transaction that raises stays.
-/

namespace Matrades

open Base

/-! ## Records -/

/-- The column `data` of a job: the time it was started, and the other entries as texts. -/
structure JobData where
  startedAt : Option Time := none
  entries : Dict String String := Dict.empty
  deriving DecidableEq

structure JobRecord (S : Type) where
  state : S
  data : JobData
  deriving DecidableEq

/-- `ResourceStore.update` of a record that was read as `loaded`: a column is written if its value
differs from the one that was read. -/
def JobRecord.update {S : Type} [DecidableEq S] (current loaded : JobRecord S) (data : JobData)
    (state : S) : JobRecord S where
  state := if state = loaded.state then current.state else state
  data := if data = loaded.data then current.data else data

inductive ResearchRunState
  | queued | researching | completed | degraded | failed
  deriving DecidableEq, Repr

def ResearchRunState.terminal : ResearchRunState → Bool
  | .completed | .degraded | .failed => true
  | _ => false

/-- `_typed_instrument_data` -/
structure TypedInstrument where
  accountId : Uuid
  assetClass : AssetClass
  instrumentType : InstrumentType
  venueInstrumentId : Uuid
  quantityUnit : QuantityUnit
  listing : VenueInstrument
  specification : InstrumentSpecificationVersion
  specificationVersionId : Uuid
  connectionBindingId : Option Uuid
  sourceCutRefs : List String
  freshness : String

/-- A selection, always in the state `ACTIVE_MARKET_ANALYSIS`. -/
structure MarketSelection where
  researchRunId : Uuid
  accountId : Uuid
  lane : ResearchLaneKey
  connectionBindingId : Option Uuid
  candidate : TypedResearchCandidate
  rankedCandidates : List TypedResearchCandidate
  sourceCutRefs : List String

/-- The record of a run, and what is derived from it. The id of an instrument is made from its listing
and its specification, the id of a selection from its lane. -/
structure ResearchStore where
  record : JobRecord ResearchRunState
  instruments : Dict (Uuid × Uuid) TypedInstrument := Dict.empty
  selections : Dict ResearchLaneKey MarketSelection := Dict.empty

/-! ## A research cycle -/

/-- What a cycle gathers: its serialized result, and the results of the lanes if it has lanes. -/
structure CycleOutcome where
  serialized : Dict String String
  degraded : Bool
  run : Option TypedResearchRun := none
  bindings : Dict ResearchLaneKey Uuid := Dict.empty

def CycleOutcome.state (o : CycleOutcome) : ResearchRunState :=
  if o.degraded then .degraded else .completed

def typedInstrumentData (accountId : Uuid) (candidate : TypedResearchCandidate)
    (result : ResearchLaneResult) (binding : Option Uuid) : TypedInstrument where
  accountId
  assetClass := candidate.lane.assetClass
  instrumentType := candidate.lane.instrumentType
  venueInstrumentId := candidate.listing.id
  quantityUnit := candidate.specification.quantityUnit
  listing := candidate.listing
  specification := candidate.specification
  specificationVersionId := candidate.specification.id
  connectionBindingId := binding
  sourceCutRefs := result.sourceCutRefs
  freshness := candidate.specification.freshness

/-- The instrument and the selection of a lane with a winner: created, or refreshed. -/
def persistLane (run : TypedResearchRun) (bindings : Dict ResearchLaneKey Uuid) (s : ResearchStore)
    (result : ResearchLaneResult) : ResearchStore :=
  match result.status, result.candidate with
  | .ready, some candidate =>
    let binding := bindings.get? result.lane
    { s with
      instruments := s.instruments.set (candidate.listing.id, candidate.specification.id)
        (typedInstrumentData run.accountId candidate result binding)
      selections := s.selections.set result.lane {
        researchRunId := run.id
        accountId := run.accountId
        lane := result.lane
        connectionBindingId := binding
        candidate
        rankedCandidates := result.rankedCandidates
        sourceCutRefs := result.sourceCutRefs } }
  | _, _ => s

/-- The first transaction of `_execute_research_cycle`. -/
def startResearch (s : ResearchStore) (loaded : JobRecord ResearchRunState) (now : Time) :
    ResearchStore :=
  let data := { loaded.data with startedAt := some now }
  { s with record := s.record.update loaded data .researching }

/-- The transaction that stores the results. -/
def storeResearch (s : ResearchStore) (loaded : JobRecord ResearchRunState) (outcome : CycleOutcome) :
    ResearchStore :=
  let data := { loaded.data with entries := loaded.data.entries.update outcome.serialized }
  let s' := { s with record := s.record.update loaded data outcome.state }
  match outcome.run with
  | none => s'
  | some run => run.laneResults.foldl (persistLane run outcome.bindings) s'

/-- `_mark_failed`; `details` holds the state, the time, the failure and the artifact. -/
def markResearchFailed (s : ResearchStore) (loaded : JobRecord ResearchRunState)
    (details : Dict String String) : ResearchStore :=
  let data := { loaded.data with entries := loaded.data.entries.update details }
  { s with record := s.record.update loaded data .failed }

/-- A delivery of `run_research_cycle`. -/
inductive ResearchPhase
  | delivered
  | starting (loaded : JobRecord ResearchRunState)
  | working
  | storing (loaded : JobRecord ResearchRunState) (outcome : CycleOutcome)
  /-- The results are committed, the gateways not closed. -/
  | stored
  /-- The failure handler runs; `working` if the exception was raised at work. -/
  | failing (working : Bool)
  | markingFailed (working : Bool) (loaded : JobRecord ResearchRunState)
  | ended

structure ResearchSystem where
  now : Time
  store : ResearchStore
  deliveries : Dict ℕ ResearchPhase := Dict.empty

/-- What a delivery does next. -/
inductive ResearchAction
  | load
  | start
  | gather (outcome : CycleOutcome)
  | store
  | returns
  | throw
  | loadFailed
  | markFailed (details : Dict String String)

inductive ResearchEvent
  | wait (duration : Time)
  | deliver (n : ℕ)
  | act (n : ℕ) (action : ResearchAction)
  | lose (n : ℕ)

namespace ResearchSystem

def setPhase (s : ResearchSystem) (n : ℕ) (phase : ResearchPhase) : ResearchSystem :=
  { s with deliveries := s.deliveries.set n phase }

/-- An exception; one of the handler itself ends the delivery. -/
def throw (s : ResearchSystem) (n : ℕ) : ResearchPhase → ResearchSystem
  | .delivered | .starting _ | .stored => s.setPhase n (.failing false)
  | .working | .storing _ _ => s.setPhase n (.failing true)
  | .failing _ | .markingFailed _ _ => s.setPhase n .ended
  | .ended => s

/-- The step of a delivery in its phase. -/
def proceed (s : ResearchSystem) (n : ℕ) : ResearchPhase → ResearchAction → ResearchSystem
  | .delivered, .load => s.setPhase n (.starting s.store.record)
  | .starting loaded, .start =>
    { s.setPhase n .working with store := startResearch s.store loaded s.now }
  | .working, .gather outcome => s.setPhase n (.storing s.store.record outcome)
  | .storing loaded outcome, .store =>
    { s.setPhase n .stored with store := storeResearch s.store loaded outcome }
  | .stored, .returns => s.setPhase n .ended
  | .failing working, .loadFailed => s.setPhase n (.markingFailed working s.store.record)
  | .markingFailed _ loaded, .markFailed details =>
    { s.setPhase n .ended with store := markResearchFailed s.store loaded details }
  | phase, .throw => s.throw n phase
  | _, _ => s

def step (s : ResearchSystem) : ResearchEvent → ResearchSystem
  | .wait duration => { s with now := s.now + duration }
  | .deliver n => if (s.deliveries.get? n).isSome then s else s.setPhase n .delivered
  | .act n action =>
    match s.deliveries.get? n with
    | none => s
    | some phase => s.proceed n phase action
  | .lose n => s.setPhase n .ended

end ResearchSystem

/-! ## A history import -/

inductive ImportState
  | queued | ingesting | completed | failed
  deriving DecidableEq, Repr

def ImportState.terminal : ImportState → Bool
  | .completed | .failed => true
  | _ => false

/-- What an import downloads: the identity of its dataset, and the entries it adds to the record. -/
structure ImportOutcome where
  datasetId : String
  entries : Dict String String

/-- The record of an import, and the datasets it has archived. -/
structure ImportStore where
  record : JobRecord ImportState
  datasets : Dict String (Dict String String) := Dict.empty

/-- The first transaction of `_ingest`, for a queued import. It holds the lock of the record. -/
def startImport (s : ImportStore) (now : Time) : ImportStore :=
  { s with record := { state := .ingesting, data := { s.record.data with startedAt := some now } } }

/-- The last transaction of `_ingest`: a dataset that exists is left as it is. -/
def storeImport (s : ImportStore) (loaded : JobRecord ImportState) (outcome : ImportOutcome) :
    ImportStore :=
  let data := { loaded.data with entries := loaded.data.entries.update outcome.entries }
  { record := s.record.update loaded data .completed
    datasets := s.datasets.setDefault outcome.datasetId outcome.entries }

/-- `_failed` -/
def markImportFailed (s : ImportStore) (loaded : JobRecord ImportState) (errorType : String) :
    ImportStore :=
  let data := { loaded.data with entries := loaded.data.entries.set "error_type" errorType }
  { s with record := s.record.update loaded data .failed }

inductive ImportPhase
  | delivered
  | working
  | storing (loaded : JobRecord ImportState) (outcome : ImportOutcome)
  | stored
  | failing (working : Bool)
  | markingFailed (working : Bool) (loaded : JobRecord ImportState)
  | ended

structure ImportDelivery where
  begunAt : Time
  phase : ImportPhase

/-- A delivery is killed after 1260 seconds. -/
def importLimit : Time := 1260 * second

def importRecoveryDelay : Time := 25 * minute

structure ImportSystem where
  now : Time
  store : ImportStore
  deliveries : Dict ℕ ImportDelivery := Dict.empty

inductive ImportAction
  | start
  | load (outcome : ImportOutcome)
  | store
  | returns
  | throw
  | loadFailed
  | markFailed (errorType : String)

inductive ImportEvent
  | wait (duration : Time)
  | deliver (n : ℕ)
  | act (n : ℕ) (action : ImportAction)
  | lose (n : ℕ)
  | recover

namespace ImportSystem

/-- A delivery that has not been killed. -/
def alive? (s : ImportSystem) (n : ℕ) : Option ImportDelivery :=
  (s.deliveries.get? n).filter fun d => s.now < d.begunAt + importLimit

def setPhase (s : ImportSystem) (n : ℕ) (d : ImportDelivery) (phase : ImportPhase) : ImportSystem :=
  { s with deliveries := s.deliveries.set n { d with phase } }

/-- An import that is not queued is left as it is. -/
def start (s : ImportSystem) (n : ℕ) (d : ImportDelivery) : ImportSystem :=
  if s.store.record.state ≠ .queued then s.setPhase n d .ended
  else { s.setPhase n d .working with store := startImport s.store s.now }

def throw (s : ImportSystem) (n : ℕ) (d : ImportDelivery) : ImportSystem :=
  match d.phase with
  | .delivered | .stored => s.setPhase n d (.failing false)
  | .working | .storing _ _ => s.setPhase n d (.failing true)
  | .failing _ | .markingFailed _ _ => s.setPhase n d .ended
  | .ended => s

/-- The step of a delivery that is alive. -/
def proceed (s : ImportSystem) (n : ℕ) (d : ImportDelivery) (action : ImportAction) : ImportSystem :=
  match d.phase, action with
  | .delivered, .start => s.start n d
  | .working, .load outcome => s.setPhase n d (.storing s.store.record outcome)
  | .storing loaded outcome, .store =>
    { s.setPhase n d .stored with store := storeImport s.store loaded outcome }
  | .stored, .returns => s.setPhase n d .ended
  | .failing working, .loadFailed => s.setPhase n d (.markingFailed working s.store.record)
  | .markingFailed _ loaded, .markFailed errorType =>
    { s.setPhase n d .ended with store := markImportFailed s.store loaded errorType }
  | _, .throw => s.throw n d
  | _, _ => s

/-- `_recover` locks the record: an import that was started 25 minutes ago is queued again. -/
def recover (s : ImportSystem) : ImportSystem :=
  if s.store.record.state = .ingesting ∧
      s.store.record.data.startedAt.any fun startedAt => startedAt + importRecoveryDelay ≤ s.now then
    { s with store := { s.store with record := { s.store.record with state := .queued } } }
  else s

def step (s : ImportSystem) : ImportEvent → ImportSystem
  | .wait duration => { s with now := s.now + duration }
  | .deliver n =>
    if (s.deliveries.get? n).isSome then s
    else { s with deliveries := s.deliveries.set n ⟨s.now, .delivered⟩ }
  | .act n action =>
    match s.alive? n with
    | none => s
    | some d => s.proceed n d action
  | .lose n =>
    match s.deliveries.get? n with
    | none => s
    | some d => s.setPhase n d .ended
  | .recover => s.recover

end ImportSystem

end Matrades

import Matrades.Base.Dict
import Matrades.Shared.DomainTypes

/-!
# Typed research

The inputs and results of a research run (`modules/research/models.py`, with the listings and
specifications of `modules/market_data/models.py` as far as a run reads them), the checks their models
make, and `aggregate_status`. A float of an input is a rational or one of the values that are not
finite. The texts that print floats stay apart (`EvidenceLine`).
-/

namespace Matrades

open Base

/-! ## Lanes -/

inductive LaneStatus
  | ready | noTrade | notConfigured | unavailable | stale | blocked
  deriving DecidableEq, Repr

structure ResearchLaneKey where
  assetClass : AssetClass
  instrumentType : InstrumentType
  deriving DecidableEq, Repr

namespace ResearchLaneKey

def asString (lane : ResearchLaneKey) : String :=
  lane.assetClass.value ++ ":" ++ lane.instrumentType.value

theorem asString_injective : Function.Injective asString := by
  rintro ⟨a, t⟩ ⟨b, u⟩ h
  cases a <;> cases t <;> cases b <;> cases u <;> first | rfl | exact absurd h (by decide)

end ResearchLaneKey

/-! ## Inputs -/

/-- A float of an input. -/
inductive PyFloat
  | finite (q : ℚ)
  | posInf
  | negInf
  | nan
  deriving DecidableEq, Repr

namespace PyFloat

/-- `bound < value`, false of `nan`. -/
def above (bound : ℚ) : PyFloat → Bool
  | finite q => bound < q
  | posInf => true
  | _ => false

/-- `bound <= value` -/
def atLeast (bound : ℚ) : PyFloat → Bool
  | finite q => bound ≤ q
  | posInf => true
  | _ => false

/-- `value <= bound` -/
def atMost (bound : ℚ) : PyFloat → Bool
  | finite q => q ≤ bound
  | negInf => true
  | _ => false

def finite? : PyFloat → Option ℚ
  | finite q => some q
  | _ => none

end PyFloat

structure VenueInstrument where
  id : Uuid
  underlyingId : Uuid
  symbol : String
  assetClass : AssetClass
  instrumentType : InstrumentType
  futuresContractId : Option Uuid := none
  executable : Bool := true
  continuousAnalytical : Bool := false
  deriving DecidableEq, Repr

/-- `lifecycle_consistency` -/
def VenueInstrument.valid (v : VenueInstrument) : Bool :=
  !(v.continuousAnalytical && v.instrumentType != .futures) &&
  !(v.continuousAnalytical && v.executable) &&
  !(v.instrumentType == .futures && !v.continuousAnalytical && v.futuresContractId.isNone)

structure InstrumentSpecificationVersion where
  id : Uuid
  version : ℤ := 1
  effectiveFrom : ℤ
  effectiveTo : Option ℤ := none
  quantityUnit : QuantityUnit
  contractMultiplier : ℚ := 1
  tickSize : ℚ := 1 / 100000
  quantityMinimum : ℚ := 1 / 100
  quantityStep : ℚ := 1 / 100
  provenance : List (String × String)
  freshness : String := "VALID"
  deriving DecidableEq, Repr

/-- `valid_terms`, and the bound of `version`. -/
def InstrumentSpecificationVersion.valid (s : InstrumentSpecificationVersion) : Bool :=
  1 ≤ s.version && 0 < s.contractMultiplier && 0 < s.tickSize && 0 < s.quantityMinimum &&
  0 < s.quantityStep && !s.provenance.isEmpty && s.effectiveTo.all fun t => s.effectiveFrom < t

/-- Times are instants in microseconds. -/
structure TypedResearchSnapshot where
  listing : VenueInstrument
  specification : InstrumentSpecificationVersion
  closes : List PyFloat
  bid : PyFloat
  ask : PyFloat
  volume : PyFloat := .finite 0
  observedAt : ℤ
  sourceCutId : String
  quoteObservedAt : Option ℤ := none
  candleObservedAt : Option ℤ := none
  spreadVerified : Bool := false
  timeframeSeconds : ℤ := 3600
  macroScore : Option PyFloat := none
  sentimentScore : Option PyFloat := none
  eventRisk : Option PyFloat := none
  deriving DecidableEq, Repr

/-- The bounds of the fields. -/
def TypedResearchSnapshot.valid (s : TypedResearchSnapshot) : Bool :=
  s.listing.valid && s.specification.valid && 3 ≤ s.closes.length && s.bid.above 0 &&
  s.ask.above 0 && s.volume.atLeast 0 && 0 < s.timeframeSeconds &&
  (s.macroScore.all fun x => x.atLeast (-1) && x.atMost 1) &&
  (s.sentimentScore.all fun x => x.atLeast (-1) && x.atMost 1) &&
  s.eventRisk.all fun x => x.atLeast 0 && x.atMost 1

/-! ## Results -/

/-- A line of evidence: a text, or a line that prints numbers. -/
inductive EvidenceLine
  | text (line : String)
  | researchScore (score : ℚ) (regime : String)
  | criterion (key : String) (value : Option ℚ)
  | overlapPenalty (penalty : ℚ)
  deriving DecidableEq, Repr

structure TypedMarketFingerprint where
  listingId : Uuid
  assetClass : AssetClass
  instrumentType : InstrumentType
  observedAt : ℤ
  sourceCutId : String
  regime : String
  trendScore : ℚ
  volatilityScore : ℚ
  liquidityScore : ℚ
  dataQuality : ℚ
  criteria : Dict String (Option ℚ)
  limitations : List String
  marketSession : String
  quoteObservedAt : Option ℤ
  candleObservedAt : Option ℤ
  sessionCloseReference : Option ℤ

structure TypedResearchCandidate where
  candidateId : Uuid
  lane : ResearchLaneKey
  listing : VenueInstrument
  specification : InstrumentSpecificationVersion
  rank : ℕ
  score : ℚ
  fingerprint : TypedMarketFingerprint
  evidence : List EvidenceLine

structure AgentReview where
  logicalId : String
  status : String
  rawDecision : Option String := none
  evidence : List String := []
  scoreAdjustments : Dict String ℚ := Dict.empty

structure ResearchLaneResult where
  lane : ResearchLaneKey
  status : LaneStatus
  candidate : Option TypedResearchCandidate := none
  rankedCandidates : List TypedResearchCandidate := []
  exclusions : List String := []
  sourceCutRefs : List String := []
  observedCandidates : List String := []
  agentReviews : List AgentReview := []
  reasonCode : Option String := none
  failureDetail : Option String := none

/-- `candidate_matches_lane` -/
def ResearchLaneResult.valid (r : ResearchLaneResult) : Bool :=
  if r.status = .ready then
    match r.candidate with
    | none => false
    | some candidate =>
      candidate.lane = r.lane &&
      match r.rankedCandidates with
      | [] => true
      | first :: _ => first.candidateId = candidate.candidateId
  else r.candidate.isNone && r.rankedCandidates.isEmpty

inductive ResearchState
  | researching | completed | degraded
  deriving DecidableEq, Repr

structure TypedResearchRun where
  id : Uuid
  ownerId : Uuid
  accountId : Uuid
  matrixVersion : ℤ
  requestedLanes : List ResearchLaneKey
  laneResults : List ResearchLaneResult := []
  state : ResearchState := .researching

/-- `one_result_per_lane` -/
def TypedResearchRun.oneResultPerLane (run : TypedResearchRun) : Prop :=
  (run.laneResults.map fun r => r.lane.asString).Nodup ∧
  ∀ r ∈ run.laneResults, r.lane.asString ∈ run.requestedLanes.map ResearchLaneKey.asString

instance (run : TypedResearchRun) : Decidable run.oneResultPerLane :=
  inferInstanceAs (Decidable (_ ∧ _))

/-- What the model admits: one to twelve lanes. -/
structure TypedResearchRun.Valid (run : TypedResearchRun) : Prop where
  lanes : 1 ≤ run.requestedLanes.length ∧ run.requestedLanes.length ≤ 12
  results : run.oneResultPerLane

def LaneStatus.isDegraded (s : LaneStatus) : Bool := s = .unavailable || s = .stale || s = .blocked

def LaneStatus.isComplete (s : LaneStatus) : Bool := s = .ready || s = .noTrade || s = .notConfigured

/-- `aggregate_status` -/
def aggregateStatus (results : List ResearchLaneResult) : ResearchState :=
  if results.isEmpty then .researching
  else if results.any fun r => r.status.isDegraded then .degraded
  else if results.all fun r => r.status.isComplete then .completed
  else .researching

theorem LaneStatus.terminal (s : LaneStatus) : s.isDegraded = true ∨ s.isComplete = true := by
  cases s <;> decide

/-- A run with results is over. -/
theorem aggregateStatus_ne_researching {results : List ResearchLaneResult} (h : results ≠ []) :
    aggregateStatus results ≠ .researching := by
  unfold aggregateStatus
  rw [if_neg (by simpa using h)]
  split
  · decide
  rename_i hdegraded
  rw [if_pos]
  · decide
  · rw [List.all_eq_true]
    intro r hr
    rcases r.status.terminal with hd | hc
    · exact absurd (List.any_eq_true.2 ⟨r, hr, hd⟩) hdegraded
    · exact hc

end Matrades

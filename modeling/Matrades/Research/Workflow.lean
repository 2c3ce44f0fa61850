import Matrades.Base.Result
import Matrades.Base.Text
import Matrades.Research.Features

/-!
# The research matrix

`run_matrix` (`modules/research/workflow.py`). What the provider, the agents and the clock do for the
`i`th requested lane is its `LaneBehaviour`; the payloads of the agents are left to it. An exception
that `run_matrix` does not catch ends it (`RunError`).
-/

namespace Matrades

open Base

/-! ## The provider and the agents -/

/-- An exception: the name of its type, and its text. -/
structure RaisedException where
  typeName : String
  text : String
  deriving DecidableEq, Repr

/-- The attribute `lane_status` of an exception. -/
inductive StatusAttribute
  | missing
  | status (s : LaneStatus)
  | other
  deriving DecidableEq, Repr

/-- A value in the place of a snapshot: its fields, or a value that has no such fields. -/
inductive SnapshotItem
  | fields (s : TypedResearchSnapshot)
  | malformed
  deriving DecidableEq, Repr

inductive GatherOutcome
  | snapshots (items : List SnapshotItem)
  | notIterable
  | attributeError
  | raised (e : RaisedException) (laneStatus : StatusAttribute)
  deriving DecidableEq, Repr

/-- A value in the place of an adjustment. -/
inductive AdjustmentValue
  | number (x : PyFloat)
  | hugeInteger
  | other
  deriving DecidableEq, Repr

/-- An element of a list of adjustments: its instrument, if it is a dictionary that has one. -/
structure AdjustmentItem where
  instrument : Option String
  adjustment : AdjustmentValue
  deriving DecidableEq, Repr

inductive RawAdjustments
  | items (items : List AdjustmentItem)
  | mapping (entries : Dict String AdjustmentValue)
  | other

/-- The response of an agent; `evidence` may be no list. -/
structure AgentResponse where
  evidence : Except RaisedException (List String)
  scoreAdjustments : RawAdjustments
  decision : String

/-- The invocation raises, also for a response that is no dictionary, or there is a response. -/
abbrev AgentOutcome := Except RaisedException AgentResponse

structure LaneBehaviour where
  gather : GatherOutcome
  /-- The clock at the `k`th fingerprint. -/
  clock : ℕ → ℤ
  agents : String → AgentOutcome
  candidateId : ℕ → Uuid

/-- The exceptions that nothing catches. -/
inductive RunError
  | validationError (model : String)
  | typeError
  | keyError
  deriving DecidableEq, Repr

/-! ## Reviews -/

def analystRoles : List String :=
  ["technical_analyst", "fundamental_analyst", "sentiment_analyst", "regime_analyst"]

def assetClassRole : AssetClass → String
  | .forex => "forex_research"
  | .metals => "metals_research"
  | .cryptocurrency => "crypto_research"
  | .stocks => "stocks_research"

/-- `max(-10.0, min(10.0, float(value)))` -/
def boundAdjustment : PyFloat → ℚ
  | .finite q => max (-10) (min 10 q)
  | .posInf => 10
  | .negInf => -10
  | .nan => 10

/-- A list of adjustments as a dictionary: the last one of an instrument counts. -/
def adjustmentEntries : RawAdjustments → Dict String AdjustmentValue
  | .items items => Dict.ofList (items.filterMap fun item =>
      item.instrument.map fun instrument => (instrument, item.adjustment))
  | .mapping entries => entries
  | .other => Dict.empty

/-- `_bounded_adjustments` -/
def boundedAdjustments (raw : RawAdjustments) : Except RaisedException (Dict String ℚ) :=
  (adjustmentEntries raw).entries.foldlM (fun adjustments (instrument, value) =>
    match value with
    | .number x => .ok (adjustments.set instrument (boundAdjustment x))
    | .hugeInteger => .error ⟨"OverflowError", "int too large to convert to float"⟩
    | .other => .ok adjustments) Dict.empty

def stripped (text : String) : String := String.ofList (strip text.toList)

/-- `_review_decision`: the verdict, and what the agent said. -/
def reviewDecision (decision : String) : String × String :=
  let raw := if stripped decision = "" then "REASSESS" else stripped decision
  (if upper raw = "PASS" then "PASS" else "REASSESS", raw)

/-- The review of an agent, unless reading its response raises. -/
def agentReview (role : String) (outcome : AgentOutcome) : Except RaisedException AgentReview := do
  let response ← outcome
  let evidence ← response.evidence
  let scoreAdjustments ← boundedAdjustments response.scoreAdjustments
  let (status, raw) := reviewDecision response.decision
  return { logicalId := role, status, rawDecision := some raw, evidence, scoreAdjustments }

def firstCharacters (n : ℕ) (text : String) : String := String.ofList (text.toList.take n)

/-- `_provider_failure_detail` -/
def providerFailureDetail (e : RaisedException) : Option String :=
  if e.typeName ≠ "ResearchDataUnavailable" ∨ stripped e.text = "" then none
  else some (firstCharacters 500 (stripped e.text))

/-- `_agent_failure_detail` -/
def agentFailureDetail (e : RaisedException) : String :=
  firstCharacters 500 (e.typeName ++ ": " ++ stripped e.text)

/-! ## Scores -/

/-- A candidate's score stays within 15 of its measured score, and between 0 and 100. -/
def adjustScores (base adjusted adjustments : Dict String ℚ) : Dict String ℚ :=
  adjustments.entries.foldl (fun adjusted (symbol, adjustment) =>
    match adjusted.get? symbol with
    | none => adjusted
    | some score =>
      let measured := (base.get? symbol).getD 0
      adjusted.set symbol
        (max (max 0 (measured - 15)) (min (min 100 (measured + 15)) (score + adjustment)))) adjusted

/-- What the analysts make of a lane. -/
inductive AnalystOutcome
  | passed (adjusted : Dict String ℚ) (reviews : List AgentReview)
  | reassess (reviews : List AgentReview)
  | unavailable (role : String) (e : RaisedException) (reviews : List AgentReview)

/-- The analysts in turn, until one of them does not pass. -/
def runAnalysts (agents : String → AgentOutcome) (base : Dict String ℚ) :
    List String → Dict String ℚ → List AgentReview → AnalystOutcome
  | [], adjusted, reviews => .passed adjusted reviews
  | role :: roles, adjusted, reviews =>
    match agentReview role (agents role) with
    | .error e => .unavailable role e (reviews ++ [{
        logicalId := role
        status := "UNAVAILABLE"
        evidence := ["Agent invocation failed: " ++ agentFailureDetail e] }])
    | .ok review =>
      if review.status ≠ "PASS" then .reassess (reviews ++ [review])
      else runAnalysts agents base roles (adjustScores base adjusted review.scoreAdjustments)
        (reviews ++ [review])

/-! ## Candidates -/

/-- `TypedResearchSnapshot.model_validate` -/
def modelValidate : SnapshotItem → Except RunError TypedResearchSnapshot
  | .malformed => .error (.validationError "TypedResearchSnapshot")
  | .fields s =>
    if s.valid then .ok s else .error (.validationError "TypedResearchSnapshot")

/-- The snapshots of a lane after the fingerprints. -/
structure MeasuredLane where
  measured : Dict String MeasuredCandidate := Dict.empty
  eligible : List TypedResearchSnapshot := []
  rejected : List String := []

/-- The bound of `data_quality`. -/
def TypedMarketFingerprint.valid (f : TypedMarketFingerprint) : Bool :=
  0 ≤ f.dataQuality && f.dataQuality ≤ 1

/-- The fingerprint of one snapshot: an ineligible one is rejected with the reason. -/
def measureSnapshot (zones : ZoneDatabase) (lane : MeasuredLane) (s : TypedResearchSnapshot)
    (now : ℤ) : Except RunError MeasuredLane :=
  match typedFingerprint zones s now with
  | .error reason =>
    .ok { lane with rejected := lane.rejected ++ [s.listing.symbol ++ ":" ++ reason] }
  | .ok m =>
    if m.fingerprint.valid then
      .ok { lane with
        measured := lane.measured.set s.listing.symbol m
        eligible := lane.eligible ++ [s] }
    else .error (.validationError "TypedMarketFingerprint")

def measureAll (zones : ZoneDatabase) (clock : ℕ → ℤ) (snapshots : List TypedResearchSnapshot) :
    Except RunError MeasuredLane :=
  snapshots.zipIdx.foldlM (fun lane (s, k) => measureSnapshot zones lane s (clock k)) {}

/-- The order of `(-score, symbol)`. -/
def rankedBefore (s : ℚ × String) (t : ℚ × String) : Bool :=
  t.1 < s.1 || (t.1 = s.1 && notBehind s.2.toList t.2.toList)

def rankSnapshots (adjusted : Dict String ℚ) (snapshots : List TypedResearchSnapshot) :
    List TypedResearchSnapshot :=
  let key (s : TypedResearchSnapshot) : ℚ × String :=
    ((adjusted.get? s.listing.symbol).getD 0, s.listing.symbol)
  snapshots.mergeSort fun s t => rankedBefore (key s) (key t)

/-- The candidate at a rank. The bounds are those of its score. -/
def makeCandidate (lane : ResearchLaneKey) (measured : Dict String MeasuredCandidate)
    (adjusted : Dict String ℚ) (reviews : List AgentReview) (candidateId : ℕ → Uuid) (k : ℕ)
    (s : TypedResearchSnapshot) : Except RunError TypedResearchCandidate := do
  let m ← orError (measured.get? s.listing.symbol) .keyError
  let adjustedScore ← orError (adjusted.get? s.listing.symbol) .keyError
  let score := roundTo 4 adjustedScore
  if score < 0 ∨ 100 < score then .error (.validationError "TypedResearchCandidate")
  else return {
    candidateId := candidateId k
    lane
    listing := s.listing
    specification := s.specification
    rank := k + 1
    score
    fingerprint := m.fingerprint
    evidence := [.text ("source_cut=" ++ s.sourceCutId)] ++ m.evidence ++
      reviews.flatMap fun review => review.evidence.map .text }

/-! ## A lane -/

/-- The model of a result checks its candidate. -/
def laneResult (r : ResearchLaneResult) : Except RunError ResearchLaneResult :=
  if r.valid then .ok r else .error (.validationError "ResearchLaneResult")

/-- What a lane adds to the results. -/
inductive LaneOutcome
  | result (r : ResearchLaneResult)
  /-- Added unless the last result is one of the same lane. -/
  | reassess (r : ResearchLaneResult)

/-- `list(dict.fromkeys(..))` -/
def firstOccurrences (texts : List String) : List String :=
  (Dict.ofList (texts.map fun text => (text, ()))).keys

/-- A provider that raises. -/
def providerFailed (lane : ResearchLaneKey) (e : RaisedException) :
    StatusAttribute → Except RunError ResearchLaneResult
  | .other => .error (.validationError "ResearchLaneResult")
  | .missing => laneResult {
      lane, status := .unavailable
      reasonCode := some ("PROVIDER_ERROR:" ++ e.typeName)
      failureDetail := providerFailureDetail e }
  | .status s => laneResult {
      lane, status := s
      reasonCode := some ("PROVIDER_ERROR:" ++ e.typeName)
      failureDetail := providerFailureDetail e }

/-- The critic, and the candidates of a lane that it passes. -/
def runCritic (lane : ResearchLaneKey) (behaviour : LaneBehaviour) (m : MeasuredLane)
    (base adjusted : Dict String ℚ) (reviews : List AgentReview)
    (sourceCutRefs observedCandidates : List String) : Except RunError ResearchLaneResult :=
  let ranked := rankSnapshots adjusted m.eligible
  match agentReview "critic" (behaviour.agents "critic") with
  | .error e => laneResult {
      lane, status := .unavailable
      reasonCode := some ("CRITIC_ERROR:" ++ e.typeName)
      sourceCutRefs, observedCandidates
      agentReviews := reviews ++ [{
        logicalId := "critic"
        status := "UNAVAILABLE"
        evidence := ["Agent invocation failed: " ++ e.typeName] }] }
  | .ok review =>
    let reviews := reviews ++ [review]
    if review.status ≠ "PASS" then
      laneResult {
        lane, status := .noTrade
        reasonCode := some "CRITIC_REASSESS"
        exclusions := ranked.map fun s => s.listing.symbol
        sourceCutRefs, observedCandidates, agentReviews := reviews }
    else do
      let adjusted := adjustScores base adjusted review.scoreAdjustments
      let ranked := rankSnapshots adjusted m.eligible
      let candidates ← ranked.zipIdx.mapM fun (s, k) =>
        makeCandidate lane m.measured adjusted reviews behaviour.candidateId k s
      laneResult {
        lane, status := .ready
        candidate := candidates.head?
        rankedCandidates := candidates
        exclusions := m.rejected ++ ranked.tail.map fun s => s.listing.symbol
        sourceCutRefs, observedCandidates, agentReviews := reviews }

/-- The analysts and the critic of a lane with eligible candidates. -/
def reviewLane (lane : ResearchLaneKey) (behaviour : LaneBehaviour) (m : MeasuredLane)
    (sourceCutRefs observedCandidates : List String) : Except RunError LaneOutcome :=
  let base := m.measured.map MeasuredCandidate.score
  match runAnalysts behaviour.agents base (analystRoles ++ [assetClassRole lane.assetClass]) base []
  with
  | .unavailable role e reviews => LaneOutcome.result <$> laneResult {
      lane, status := .unavailable
      reasonCode := some ("AGENT_ERROR:" ++ role ++ ":" ++ e.typeName)
      failureDetail := some (agentFailureDetail e)
      exclusions := ["agent=" ++ role]
      sourceCutRefs, observedCandidates, agentReviews := reviews }
  | .reassess reviews => LaneOutcome.reassess <$> laneResult {
      lane, status := .noTrade
      reasonCode := some "ANALYST_REASSESS"
      exclusions := (reviews.filter fun review => review.status ≠ "PASS").map AgentReview.logicalId
      sourceCutRefs, observedCandidates, agentReviews := reviews }
  | .passed adjusted reviews => LaneOutcome.result <$>
      runCritic lane behaviour m base adjusted reviews sourceCutRefs observedCandidates

/-- The snapshots that the provider has gathered for a lane. -/
def gatheredLane (zones : ZoneDatabase) (lane : ResearchLaneKey) (behaviour : LaneBehaviour)
    (items : List SnapshotItem) : Except RunError LaneOutcome := do
  let typed ← items.mapM modelValidate
  let observedCandidates := typed.map fun s => s.listing.symbol
  let sourceCutRefs := firstOccurrences (typed.map TypedResearchSnapshot.sourceCutId)
  let m ← measureAll zones behaviour.clock typed
  if m.eligible.isEmpty then
    LaneOutcome.result <$> laneResult {
      lane, status := .noTrade
      reasonCode := some "NO_ELIGIBLE_CANDIDATE"
      exclusions := m.rejected
      observedCandidates, sourceCutRefs }
  else reviewLane lane behaviour m sourceCutRefs observedCandidates

/-- One pass of the loop, up to the result. -/
def runLane (zones : ZoneDatabase) (lane : ResearchLaneKey) (behaviour : LaneBehaviour) :
    Except RunError LaneOutcome :=
  match behaviour.gather with
  | .attributeError => LaneOutcome.result <$> laneResult {
      lane, status := .notConfigured
      reasonCode := some "PROVIDER_LANE_CAPABILITY_MISSING" }
  | .raised e laneStatus => LaneOutcome.result <$> providerFailed lane e laneStatus
  | .notIterable => .error .typeError
  | .snapshots items => gatheredLane zones lane behaviour items

def addOutcome (results : List ResearchLaneResult) : LaneOutcome → List ResearchLaneResult
  | .result r => results ++ [r]
  | .reassess r =>
    if results.getLast?.all fun last => last.lane ≠ r.lane then results ++ [r] else results

/-- The loop over the requested lanes. -/
def runLanes (zones : ZoneDatabase) (behaviour : ℕ → LaneBehaviour) (lanes : List ResearchLaneKey) :
    Except RunError (List ResearchLaneResult) :=
  lanes.zipIdx.foldlM (fun results (lane, i) => do
    let outcome ← runLane zones lane (behaviour i)
    return addOutcome results outcome) []

/-! ## Diversification -/

/-- What the winners so far are exposed to. -/
structure Exposures where
  underlyings : List Uuid := []
  currencies : Finset (List Char × ℚ) := ∅

def directionOf (c : TypedResearchCandidate) : ℚ :=
  ((c.fingerprint.criteria.get? "direction").bind id).getD 0

/-- The two currencies of a pair, with their directions. -/
def pairExposures (c : TypedResearchCandidate) : Finset (List Char × ℚ) :=
  let symbol := (upper c.listing.symbol).toList.filter (· ≠ '/')
  if c.lane.assetClass = .forex ∧ symbol.length = 6 then
    {(symbol.take 3, directionOf c), (symbol.drop 3, -directionOf c)}
  else ∅

def overlapPenalty (e : Exposures) (c : TypedResearchCandidate) : ℚ :=
  min 15 (10 * (if c.listing.underlyingId ∈ e.underlyings then 1 else 0) +
    5 * (pairExposures c ∩ e.currencies).card)

/-- Candidates of one symbol share their fingerprint: the last penalty stays in its criteria. -/
def penalize (e : Exposures) (candidates : List TypedResearchCandidate) :
    List TypedResearchCandidate :=
  candidates.map fun c =>
    let penalty := overlapPenalty e c
    let last := (candidates.reverse.find? fun d => d.listing.symbol = c.listing.symbol).getD c
    { c with
      score := roundTo 4 (max 0 (c.score - penalty))
      fingerprint := { c.fingerprint with
        criteria := c.fingerprint.criteria.set "diversification_penalty"
          (some (overlapPenalty e last)) }
      evidence := c.evidence ++ [.overlapPenalty penalty] }

def rankCandidates (candidates : List TypedResearchCandidate) : List TypedResearchCandidate :=
  (candidates.mergeSort fun c d =>
    rankedBefore (c.score, c.listing.symbol) (d.score, d.listing.symbol)).zipIdx.map
      fun (c, k) => { c with rank := k + 1 }

/-- A lane's candidates ranked anew. -/
def diversifyResult (e : Exposures) (r : ResearchLaneResult) : ResearchLaneResult :=
  let ranked := rankCandidates (penalize e r.rankedCandidates)
  { r with
    candidate := ranked.head?
    rankedCandidates := ranked
    exclusions := (r.exclusions.filter fun entry => entry.toList.contains ':') ++
      ranked.tail.map fun c => c.listing.symbol }

def Exposures.add (e : Exposures) (winner : TypedResearchCandidate) : Exposures where
  underlyings := winner.listing.underlyingId :: e.underlyings
  currencies := e.currencies ∪ pairExposures winner

def diversifyStep (state : Exposures × List ResearchLaneResult) (i : ℕ) :
    Exposures × List ResearchLaneResult :=
  match state.2[i]? with
  | none => state
  | some r =>
    let r' := diversifyResult state.1 r
    (r'.candidate.elim state.1 state.1.add, state.2.set i r')

/-- The places of the lanes with a winner, the best winner first. -/
def readyLanes (results : List ResearchLaneResult) : List ℕ :=
  let key (r : ResearchLaneResult) : ℚ × String :=
    ((r.candidate.map TypedResearchCandidate.score).getD 0, r.lane.asString)
  ((results.zipIdx.filter fun p => p.1.status = .ready).mergeSort fun p q =>
    rankedBefore (key p.1) (key q.1)).map Prod.snd

def diversify (results : List ResearchLaneResult) : List ResearchLaneResult :=
  ((readyLanes results).foldl diversifyStep ({}, results)).2

/-- `run_matrix` -/
def runMatrix (zones : ZoneDatabase) (run : TypedResearchRun) (behaviour : ℕ → LaneBehaviour) :
    Except RunError TypedResearchRun := do
  let results ← runLanes zones behaviour run.requestedLanes
  let laneResults := diversify results
  return { run with laneResults, state := aggregateStatus laneResults }

end Matrades

import Matrades.Research.Proof.Scores

/-!
# One result per lane

A pass of the loop returns exactly if its provider is *tolerated*: it raises an exception whose
`lane_status` fits a result without a candidate, or its snapshots are all valid (`runLane_returns`).
Nothing behind the provider aborts a lane: what is measured and adjusted is accepted (`measured_within`,
`Scored.adjust`), whatever the agents answer is a result. A pass adds a result of its own lane, unless
the lane has just been requested and the analysts ask for a reassessment. So `run_matrix` has one result
per lane exactly if all providers are tolerated and no other lane is repeated
(`one_result_per_lane_iff`).
-/

namespace Matrades

open Base

/-! ## The condition -/

/-- Does the value validate as a snapshot? -/
def SnapshotItem.valid : SnapshotItem → Bool
  | .fields s => s.valid
  | .malformed => false

/-- The provider's answers that a lane survives. -/
def GatherOutcome.Tolerated : GatherOutcome → Prop
  | .snapshots items => ∀ item ∈ items, item.valid = true
  | .notIterable => False
  | .attributeError => True
  | .raised _ laneStatus => laneStatus ≠ .other ∧ laneStatus ≠ .status .ready

/-- The first agent that does not pass answers, and asks for a reassessment. -/
def asksReassessment (agents : String → AgentOutcome) : List String → Bool
  | [] => false
  | role :: roles =>
    match agentReview role (agents role) with
    | .error _ => false
    | .ok review => review.status ≠ "PASS" || asksReassessment agents roles

/-- Is one of the snapshots eligible? -/
def GatherOutcome.hasEligible (zones : ZoneDatabase) (clock : ℕ → ℤ) : GatherOutcome → Bool
  | .snapshots items => items.zipIdx.any fun (item, k) =>
      match item with
      | .fields s => (typedFingerprint zones s (clock k)).toOption.isSome
      | .malformed => false
  | _ => false

/-- The analysts of a lane ask for a reassessment. -/
def Reassessed (zones : ZoneDatabase) (lane : ResearchLaneKey) (behaviour : LaneBehaviour) : Prop :=
  behaviour.gather.hasEligible zones behaviour.clock = true ∧
    asksReassessment behaviour.agents (analystRoles ++ [assetClassRole lane.assetClass]) = true

instance (zones : ZoneDatabase) (lane : ResearchLaneKey) (behaviour : LaneBehaviour) :
    Decidable (Reassessed zones lane behaviour) := inferInstanceAs (Decidable (_ ∧ _))

/-- The requests that are left without those that repeat the one before and are reassessed. -/
def keptLanes (zones : ZoneDatabase) (behaviour : ℕ → LaneBehaviour) :
    Option ResearchLaneKey → List (ResearchLaneKey × ℕ) → List ResearchLaneKey
  | _, [] => []
  | before, (lane, i) :: requests =>
    if before = some lane ∧ Reassessed zones lane (behaviour i) then
      keptLanes zones behaviour (some lane) requests
    else lane :: keptLanes zones behaviour (some lane) requests

/-- **The runs that have one result per lane.** -/
structure TolerantMatrix (zones : ZoneDatabase) (behaviour : ℕ → LaneBehaviour)
    (lanes : List ResearchLaneKey) : Prop where
  providers : ∀ i lane, lanes[i]? = some lane → (behaviour i).gather.Tolerated
  repeats : (keptLanes zones behaviour none lanes.zipIdx).Nodup

/-! ## Fingerprints -/

theorem modelValidate_eq_ok {item : SnapshotItem} {s : TypedResearchSnapshot} :
    modelValidate item = .ok s ↔ item = .fields s ∧ s.valid = true := by
  cases item with
  | malformed => simp [modelValidate]
  | fields t =>
    rw [modelValidate]
    by_cases ht : t.valid = true
    · rw [if_pos ht]
      constructor
      · intro h
        cases h
        exact ⟨rfl, ht⟩
      · rintro ⟨h, -⟩
        cases h
        rfl
    · rw [if_neg ht]
      constructor
      · intro h
        cases h
      · rintro ⟨h, hs⟩
        cases h
        exact absurd hs ht

/-- The values validate exactly if each one does. -/
theorem modelValidate_returns {items : List SnapshotItem} :
    Returns (items.mapM modelValidate) ↔ ∀ item ∈ items, item.valid = true := by
  constructor
  · rintro ⟨typed, htyped⟩ item hitem
    obtain ⟨s, -, hs⟩ := ok_of_mem_mapM htyped hitem
    obtain ⟨rfl, hvalid⟩ := modelValidate_eq_ok.1 hs
    exact hvalid
  · intro h
    have hall : ∀ item ∈ items, ∃ s, modelValidate item = .ok s ∧ True := by
      intro item hitem
      have hvalid := h item hitem
      cases item with
      | malformed => cases hvalid
      | fields s => exact ⟨s, modelValidate_eq_ok.2 ⟨rfl, hvalid⟩, trivial⟩
    obtain ⟨typed, htyped, -⟩ := exists_mapM_ok hall
    exact ⟨typed, htyped⟩

theorem modelValidate_all {items : List SnapshotItem} {typed : List TypedResearchSnapshot}
    (h : items.mapM modelValidate = .ok typed) :
    items = typed.map .fields ∧ ∀ s ∈ typed, s.valid = true := by
  have hall := ok_of_mapM h
  clear h
  induction hall with
  | nil => exact ⟨rfl, by simp⟩
  | cons hs _ ih =>
    obtain ⟨rfl, hvalid⟩ := modelValidate_eq_ok.1 hs
    exact ⟨by rw [List.map_cons, ih.1], List.forall_mem_cons.2 ⟨hvalid, ih.2⟩⟩

/-- What the fingerprints of a lane leave. -/
structure MeasuredLane.Sound (m : MeasuredLane) : Prop where
  scores : AllScores (m.measured.map MeasuredCandidate.score)
  measured : ∀ s ∈ m.eligible, (m.measured.get? s.listing.symbol).isSome = true

theorem MeasuredLane.sound_empty : MeasuredLane.Sound {} where
  scores := by
    intro symbol x h
    cases h
  measured := by simp

/-- One fingerprint. -/
theorem MeasuredLane.Sound.measure {m : MeasuredLane} (hm : m.Sound) (zones : ZoneDatabase)
    {s : TypedResearchSnapshot} (hs : s.valid = true) (now : ℤ) :
    ∃ m', measureSnapshot zones m s now = .ok m' ∧ m'.Sound ∧
      (m'.eligible.isEmpty = false ↔
        m.eligible.isEmpty = false ∨ (typedFingerprint zones s now).toOption.isSome = true) := by
  unfold measureSnapshot
  cases hfingerprint : typedFingerprint zones s now with
  | error reason =>
    refine ⟨_, rfl, ⟨hm.scores, hm.measured⟩, ?_⟩
    simp [Except.toOption]
  | ok c =>
    obtain ⟨hscore, hvalid⟩ := measured_within hs hfingerprint
    refine ⟨_, if_pos hvalid, ⟨?_, ?_⟩, ?_⟩
    · intro symbol x hx
      rw [Dict.get?_map] at hx
      by_cases heq : symbol = s.listing.symbol
      · subst heq
        rw [Dict.get?_set_self] at hx
        cases hx
        exact hscore
      · rw [Dict.get?_set_ne _ _ heq] at hx
        exact hm.scores symbol x (by rw [Dict.get?_map]; exact hx)
    · intro t ht
      by_cases heq : t.listing.symbol = s.listing.symbol
      · rw [heq, Dict.get?_set_self]
        rfl
      · rw [Dict.get?_set_ne _ _ heq]
        rcases List.mem_append.1 ht with ht | ht
        · exact hm.measured t ht
        · rw [List.mem_singleton] at ht
          exact absurd (by rw [ht]) heq
    · simp [Except.toOption]

theorem MeasuredLane.Sound.measureAll {m : MeasuredLane} (hm : m.Sound) (zones : ZoneDatabase)
    (clock : ℕ → ℤ) {pairs : List (TypedResearchSnapshot × ℕ)}
    (hpairs : ∀ p ∈ pairs, p.1.valid = true) :
    ∃ m', pairs.foldlM (fun lane (s, k) => measureSnapshot zones lane s (clock k)) m = .ok m' ∧
      m'.Sound ∧ (m'.eligible.isEmpty = false ↔ m.eligible.isEmpty = false ∨
        ∃ p ∈ pairs, (typedFingerprint zones p.1 (clock p.2)).toOption.isSome = true) := by
  induction pairs generalizing m with
  | nil => exact ⟨m, rfl, hm, by simp⟩
  | cons p pairs ih =>
    obtain ⟨hp, hpairs⟩ := List.forall_mem_cons.1 hpairs
    obtain ⟨m₁, hstep, hm₁, heligible₁⟩ := hm.measure zones hp (clock p.2)
    obtain ⟨m₂, hrest, hm₂, heligible₂⟩ := ih hm₁ hpairs
    refine ⟨m₂, ?_, hm₂, ?_⟩
    · rw [List.foldlM_cons]
      exact (bind_ok_eq hstep _).trans hrest
    · simp [heligible₂, heligible₁, or_assoc]

/-! ## Candidates -/

theorem laneResult_eq_ok {r r' : ResearchLaneResult} :
    laneResult r = .ok r' ↔ r' = r ∧ r.valid = true := by
  unfold laneResult
  by_cases hr : r.valid = true
  · rw [if_pos hr]
    constructor
    · intro h
      cases h
      exact ⟨rfl, hr⟩
    · rintro ⟨rfl, -⟩
      rfl
  · rw [if_neg hr]
    constructor
    · intro h
      cases h
    · rintro ⟨-, h⟩
      exact absurd h hr

/-- A result without a candidate. -/
theorem laneResult_noCandidate {r : ResearchLaneResult} (hstatus : r.status ≠ .ready)
    (hcandidate : r.candidate = none) (hranked : r.rankedCandidates = []) :
    laneResult r = .ok r := by
  rw [laneResult_eq_ok]
  exact ⟨rfl, by simp [ResearchLaneResult.valid, hstatus, hcandidate, hranked]⟩

theorem outcome_noCandidate (f : ResearchLaneResult → LaneOutcome) {r : ResearchLaneResult}
    (hstatus : r.status ≠ .ready) (hcandidate : r.candidate = none)
    (hranked : r.rankedCandidates = []) : f <$> laneResult r = .ok (f r) := by
  rw [laneResult_noCandidate hstatus hcandidate hranked]
  rfl

section
variable {m : MeasuredLane} (hm : m.Sound)
include hm

/-- An eligible snapshot with a score becomes a candidate of its lane. -/
theorem MeasuredLane.Sound.candidate {adjusted : Dict String ℚ}
    (hadjusted : Scored (m.measured.map MeasuredCandidate.score) adjusted) (lane : ResearchLaneKey)
    (reviews : List AgentReview) (candidateId : ℕ → Uuid) (k : ℕ) {s : TypedResearchSnapshot}
    (hs : s ∈ m.eligible) :
    ∃ c, makeCandidate lane m.measured adjusted reviews candidateId k s = .ok c ∧ c.lane = lane := by
  have hmeasured := hm.measured s hs
  obtain ⟨c, hc⟩ := Option.isSome_iff_exists.1 hmeasured
  have hbase : ((m.measured.map MeasuredCandidate.score).get? s.listing.symbol).isSome = true := by
    rw [Dict.get?_map, hc]
    rfl
  obtain ⟨x, hx⟩ := Option.isSome_iff_exists.1 (hadjusted.2 _ hbase)
  have hscore : Score (roundTo 4 x) := (hadjusted.1 _ _ hx).roundTo 4
  unfold makeCandidate
  rw [bind_ok_eq (orError_eq_ok.2 hc), bind_ok_eq (orError_eq_ok.2 hx)]
  refine ⟨_, if_neg ?_, rfl⟩
  obtain ⟨h0, h100⟩ := hscore
  rintro (h | h)
  · linarith
  · linarith

/-- **The critic's answers all lead to a result.** -/
theorem MeasuredLane.Sound.critic (heligible : m.eligible.isEmpty = false)
    {adjusted : Dict String ℚ}
    (hadjusted : Scored (m.measured.map MeasuredCandidate.score) adjusted) (lane : ResearchLaneKey)
    (behaviour : LaneBehaviour) (reviews : List AgentReview)
    (sourceCutRefs observedCandidates : List String) :
    ∃ r, runCritic lane behaviour m (m.measured.map MeasuredCandidate.score) adjusted reviews
      sourceCutRefs observedCandidates = .ok r ∧ r.lane = lane := by
  unfold runCritic
  dsimp only
  split
  · exact ⟨_, laneResult_noCandidate (by simp) rfl rfl, rfl⟩
  rename_i review _
  split
  · exact ⟨_, laneResult_noCandidate (by simp) rfl rfl, rfl⟩
  have hadjusted' := hadjusted.adjust hm.scores review.scoreAdjustments
  have hall : ∀ p ∈ (rankSnapshots (adjustScores (m.measured.map MeasuredCandidate.score) adjusted
      review.scoreAdjustments) m.eligible).zipIdx,
      ∃ c, makeCandidate lane m.measured (adjustScores (m.measured.map MeasuredCandidate.score)
        adjusted review.scoreAdjustments) (reviews ++ [review]) behaviour.candidateId p.2 p.1 = .ok c ∧
        c.lane = lane := by
    intro p hp
    apply hm.candidate hadjusted'
    exact List.mem_mergeSort.1 (List.fst_mem_of_mem_zipIdx hp)
  obtain ⟨candidates, hcandidates, hlane⟩ := exists_mapM_ok hall
  rw [bind_ok_eq hcandidates]
  refine ⟨_, laneResult_eq_ok.2 ⟨rfl, ?_⟩, rfl⟩
  cases candidates with
  | nil =>
    -- there is an eligible snapshot
    have hlength := (ok_of_mapM hcandidates).length_eq
    rw [List.length_zipIdx, rankSnapshots, List.length_mergeSort, List.length_nil] at hlength
    rw [List.length_eq_zero_iff.1 hlength] at heligible
    cases heligible
  | cons c cs => simp [ResearchLaneResult.valid, hlane c List.mem_cons_self]

end

/-! ## A lane -/

/-- The analysts keep the scores, and ask for a reassessment or not. -/
theorem runAnalysts_spec (agents : String → AgentOutcome) {base adjusted : Dict String ℚ}
    (hbase : AllScores base) (h : Scored base adjusted) (roles : List String)
    (reviews : List AgentReview) :
    match runAnalysts agents base roles adjusted reviews with
    | .passed adjusted' _ => Scored base adjusted' ∧ asksReassessment agents roles = false
    | .reassess _ => asksReassessment agents roles = true
    | .unavailable _ _ _ => asksReassessment agents roles = false := by
  induction roles generalizing adjusted reviews with
  | nil => exact ⟨h, rfl⟩
  | cons role roles ih =>
    rw [runAnalysts, asksReassessment]
    cases hreview : agentReview role (agents role) with
    | error e => rfl
    | ok review =>
      by_cases hpass : review.status = "PASS"
      · simp only [hpass, ne_eq, not_true_eq_false, decide_false, Bool.false_or, if_false]
        exact ih (h.adjust hbase review.scoreAdjustments) (reviews ++ [review])
      · simp [hpass]

def LaneOutcome.row : LaneOutcome → ResearchLaneResult
  | .result r => r
  | .reassess r => r

def LaneOutcome.isReassess : LaneOutcome → Bool
  | .result _ => false
  | .reassess _ => true

/-- A lane with eligible candidates has a result, whatever the agents do. -/
theorem reviewLane_spec {m : MeasuredLane} (hm : m.Sound) (heligible : m.eligible.isEmpty = false)
    (lane : ResearchLaneKey) (behaviour : LaneBehaviour)
    (sourceCutRefs observedCandidates : List String) :
    ∃ o, reviewLane lane behaviour m sourceCutRefs observedCandidates = .ok o ∧ o.row.lane = lane ∧
      o.isReassess = asksReassessment behaviour.agents
        (analystRoles ++ [assetClassRole lane.assetClass]) := by
  have hspec := runAnalysts_spec behaviour.agents hm.scores ⟨hm.scores, fun _ h => h⟩
    (analystRoles ++ [assetClassRole lane.assetClass]) []
  unfold reviewLane
  dsimp only
  split at hspec
  · rename_i adjusted reviews hout
    rw [hout]
    obtain ⟨r, hr, hlane⟩ := hm.critic heligible hspec.1 lane behaviour reviews sourceCutRefs
      observedCandidates
    refine ⟨.result r, ?_, hlane, hspec.2.symm⟩
    show Except.map _ (runCritic ..) = _
    rw [hr]
    rfl
  · rename_i reviews hout
    rw [hout]
    exact ⟨_, outcome_noCandidate .reassess (by simp) rfl rfl, rfl, hspec.symm⟩
  · rename_i role e reviews hout
    rw [hout]
    exact ⟨_, outcome_noCandidate .result (by simp) rfl rfl, rfl, hspec.symm⟩

/-- The lane of valid snapshots. -/
theorem gatheredLane_spec {zones : ZoneDatabase} {items : List SnapshotItem}
    (hvalid : ∀ item ∈ items, item.valid = true) (lane : ResearchLaneKey)
    (behaviour : LaneBehaviour) :
    ∃ o, gatheredLane zones lane behaviour items = .ok o ∧ o.row.lane = lane ∧
      (o.isReassess = true ↔
        (GatherOutcome.snapshots items).hasEligible zones behaviour.clock = true ∧
        asksReassessment behaviour.agents (analystRoles ++ [assetClassRole lane.assetClass]) =
          true) := by
  obtain ⟨typed, htyped⟩ := modelValidate_returns.2 hvalid
  obtain ⟨rfl, hall⟩ := modelValidate_all htyped
  have hpairs : ∀ p ∈ typed.zipIdx, p.1.valid = true :=
    fun p hp => hall p.1 (List.fst_mem_of_mem_zipIdx hp)
  obtain ⟨m, hmeasure, hm, heligible⟩ :=
    MeasuredLane.sound_empty.measureAll zones behaviour.clock hpairs
  have hhas : m.eligible.isEmpty = false ↔
      (GatherOutcome.snapshots (typed.map .fields)).hasEligible zones behaviour.clock = true := by
    rw [heligible, GatherOutcome.hasEligible, List.zipIdx_map, List.any_map, List.any_eq_true]
    constructor
    · rintro (hnone | ⟨p, hp, hok⟩)
      · cases hnone
      · exact ⟨p, hp, hok⟩
    · rintro ⟨p, hp, hok⟩
      exact .inr ⟨p, hp, hok⟩
  unfold gatheredLane
  rw [bind_ok_eq htyped]
  dsimp only
  rw [measureAll, bind_ok_eq hmeasure]
  cases hempty : m.eligible.isEmpty with
  | true =>
    rw [hempty] at hhas
    rw [if_pos rfl]
    refine ⟨_, outcome_noCandidate .result (by simp) rfl rfl, rfl, ?_⟩
    constructor
    · intro h
      cases h
    · rintro ⟨h, -⟩
      cases hhas.2 h
  | false =>
    rw [hempty] at hhas
    obtain ⟨o, ho, hlane, hreassess⟩ := reviewLane_spec hm hempty lane behaviour
      (firstOccurrences (typed.map TypedResearchSnapshot.sourceCutId))
      (typed.map fun s => s.listing.symbol)
    refine ⟨o, ?_, hlane, ?_⟩
    · rw [if_neg (by decide)]
      exact ho
    · rw [hreassess]
      exact ⟨fun h => ⟨hhas.1 rfl, h⟩, fun h => h.2⟩

/-- A pass over a tolerated provider. -/
theorem runLane_spec (zones : ZoneDatabase) (lane : ResearchLaneKey) {behaviour : LaneBehaviour}
    (h : behaviour.gather.Tolerated) :
    ∃ o, runLane zones lane behaviour = .ok o ∧ o.row.lane = lane ∧
      (o.isReassess = true ↔ Reassessed zones lane behaviour) := by
  unfold runLane Reassessed
  cases hgather : behaviour.gather with
  | snapshots items =>
    rw [hgather] at h
    exact gatheredLane_spec h lane behaviour
  | notIterable =>
    rw [hgather] at h
    cases h
  | attributeError =>
    exact ⟨_, outcome_noCandidate .result (by simp) rfl rfl, rfl,
      by simp [LaneOutcome.isReassess, GatherOutcome.hasEligible]⟩
  | raised e laneStatus =>
    rw [hgather] at h
    obtain ⟨hother, hready⟩ := h
    cases laneStatus with
    | other => exact absurd rfl hother
    | missing =>
      exact ⟨_, outcome_noCandidate .result (by simp) rfl rfl, rfl,
        by simp [LaneOutcome.isReassess, GatherOutcome.hasEligible]⟩
    | status s =>
      have hs : s ≠ .ready := by
        rintro rfl
        exact hready rfl
      exact ⟨_, outcome_noCandidate .result hs rfl rfl, rfl,
        by simp [LaneOutcome.isReassess, GatherOutcome.hasEligible]⟩

/-- **A pass returns exactly if its provider is tolerated.** -/
theorem runLane_returns {zones : ZoneDatabase} {lane : ResearchLaneKey}
    {behaviour : LaneBehaviour} :
    Returns (runLane zones lane behaviour) ↔ behaviour.gather.Tolerated := by
  constructor
  · rintro ⟨o, ho⟩
    unfold runLane at ho
    cases hgather : behaviour.gather with
    | snapshots items =>
      rw [hgather] at ho
      obtain ⟨typed, htyped, -⟩ := ok_of_bind ho
      exact modelValidate_returns.1 ⟨typed, htyped⟩
    | notIterable =>
      rw [hgather] at ho
      cases ho
    | attributeError => trivial
    | raised e laneStatus =>
      rw [hgather] at ho
      constructor
      · rintro rfl
        cases ho
      · rintro rfl
        cases ho
  · intro h
    obtain ⟨o, ho, -⟩ := runLane_spec zones lane h
    exact ⟨o, ho⟩

/-- What a pass adds is a result of its lane. -/
theorem runLane_ok {zones : ZoneDatabase} {lane : ResearchLaneKey} {behaviour : LaneBehaviour}
    {o : LaneOutcome} (h : runLane zones lane behaviour = .ok o) :
    o.row.lane = lane ∧ (o.isReassess = true ↔ Reassessed zones lane behaviour) := by
  obtain ⟨o', ho', hspec⟩ := runLane_spec zones lane (runLane_returns.1 ⟨o, h⟩)
  rw [h] at ho'
  cases ho'
  exact hspec

/-! ## The loop -/

/-- The lane of the last result. -/
def lastLane (results : List ResearchLaneResult) : Option ResearchLaneKey :=
  results.getLast?.map ResearchLaneResult.lane

theorem addOutcome_eq (results : List ResearchLaneResult) (o : LaneOutcome) :
    addOutcome results o =
      if lastLane results = some o.row.lane ∧ o.isReassess = true then results
      else results ++ [o.row] := by
  cases o with
  | result r => simp [addOutcome, LaneOutcome.isReassess, LaneOutcome.row]
  | reassess r =>
    rw [addOutcome, lastLane]
    cases results.getLast? with
    | none => simp [LaneOutcome.row]
    | some last =>
      by_cases heq : last.lane = r.lane
      · simp [LaneOutcome.isReassess, LaneOutcome.row, heq]
      · simp [LaneOutcome.isReassess, LaneOutcome.row, heq]

theorem lastLane_append (results : List ResearchLaneResult) (r : ResearchLaneResult) :
    lastLane (results ++ [r]) = some r.lane := by
  simp [lastLane]

theorem mem_of_lastLane {results : List ResearchLaneResult} {lane : ResearchLaneKey}
    (h : lastLane results = some lane) : lane ∈ results.map ResearchLaneResult.lane := by
  obtain ⟨r, hr, rfl⟩ := Option.map_eq_some_iff.1 h
  exact List.mem_map_of_mem (List.mem_of_getLast? hr)

section
variable (zones : ZoneDatabase) (behaviour : ℕ → LaneBehaviour)

/-- One pass of the loop. -/
def loopStep (results : List ResearchLaneResult) (request : ResearchLaneKey × ℕ) :
    Except RunError (List ResearchLaneResult) := do
  let outcome ← runLane zones request.1 (behaviour request.2)
  return addOutcome results outcome

theorem runLanes_eq (lanes : List ResearchLaneKey) :
    runLanes zones behaviour lanes = lanes.zipIdx.foldlM (loopStep zones behaviour) [] := rfl

variable {zones behaviour}

theorem loop_returns {requests : List (ResearchLaneKey × ℕ)} {results : List ResearchLaneResult} :
    Returns (requests.foldlM (loopStep zones behaviour) results) ↔
      ∀ request ∈ requests, (behaviour request.2).gather.Tolerated := by
  induction requests generalizing results with
  | nil => exact ⟨fun _ => by simp, fun _ => ⟨results, rfl⟩⟩
  | cons request requests ih =>
    rw [List.foldlM_cons, returns_bind, List.forall_mem_cons]
    constructor
    · rintro ⟨results', hstep, hrest⟩
      obtain ⟨o, ho, -⟩ := ok_of_bind hstep
      exact ⟨runLane_returns.1 ⟨o, ho⟩, ih.1 hrest⟩
    · rintro ⟨htolerated, hrest⟩
      obtain ⟨o, ho⟩ := runLane_returns.2 htolerated
      exact ⟨_, bind_ok_eq ho _, ih.2 hrest⟩

/-- **The lanes of the results.** -/
theorem loop_lanes {requests : List (ResearchLaneKey × ℕ)}
    {results results' : List ResearchLaneResult}
    (h : requests.foldlM (loopStep zones behaviour) results = .ok results') :
    results'.map ResearchLaneResult.lane = results.map ResearchLaneResult.lane ++
      keptLanes zones behaviour (lastLane results) requests := by
  induction requests generalizing results with
  | nil =>
    cases h
    simp [keptLanes]
  | cons request requests ih =>
    obtain ⟨lane, i⟩ := request
    rw [List.foldlM_cons] at h
    obtain ⟨next, hstep, hrest⟩ := ok_of_bind h
    obtain ⟨o, ho, hnext⟩ := ok_of_bind hstep
    cases hnext
    obtain ⟨hlane, hreassess⟩ := runLane_ok ho
    have hiff : (lastLane results = some o.row.lane ∧ o.isReassess = true) ↔
        (lastLane results = some lane ∧ Reassessed zones lane (behaviour i)) := by
      rw [hlane, hreassess]
    rw [ih hrest, addOutcome_eq, keptLanes]
    by_cases hdropped : lastLane results = some lane ∧ Reassessed zones lane (behaviour i)
    · rw [if_pos (hiff.2 hdropped), if_pos hdropped, hdropped.1]
    · rw [if_neg (mt hiff.1 hdropped), if_neg hdropped, lastLane_append, hlane]
      simp [hlane]

/-- **Each lane has its own result**: the first request for a lane adds what a pass of that lane gives. -/
theorem loop_first {requests : List (ResearchLaneKey × ℕ)}
    {results results' : List ResearchLaneResult}
    (h : requests.foldlM (loopStep zones behaviour) results = .ok results') :
    results ⊆ results' ∧ ∀ earlier lane i later, requests = earlier ++ (lane, i) :: later →
      lane ∉ results.map ResearchLaneResult.lane → lane ∉ earlier.map Prod.fst →
      ∃ o, runLane zones lane (behaviour i) = .ok o ∧ o.row ∈ results' := by
  induction requests generalizing results with
  | nil =>
    cases h
    refine ⟨List.Subset.refl _, ?_⟩
    intro earlier lane i later hsplit
    simp at hsplit
  | cons request requests ih =>
    rw [List.foldlM_cons] at h
    obtain ⟨next, hstep, hrest⟩ := ok_of_bind h
    obtain ⟨o, ho, hnext⟩ := ok_of_bind hstep
    cases hnext
    obtain ⟨hlane, -⟩ := runLane_ok ho
    obtain ⟨hsubset, hfirst⟩ := ih hrest
    have hgrow : results ⊆ addOutcome results o := by
      rw [addOutcome_eq]
      split
      · exact List.Subset.refl _
      · exact List.subset_append_left _ _
    refine ⟨List.Subset.trans hgrow hsubset, ?_⟩
    intro earlier lane i later hsplit hresults hearlier
    cases earlier with
    | nil =>
      cases hsplit
      refine ⟨o, ho, hsubset ?_⟩
      rw [addOutcome_eq, if_neg]
      · simp
      · rintro ⟨hlast, -⟩
        rw [hlane] at hlast
        exact hresults (mem_of_lastLane hlast)
    | cons request' earlier =>
      cases hsplit
      rw [List.map_cons, List.mem_cons, not_or] at hearlier
      apply hfirst earlier lane i later rfl ?_ hearlier.2
      rw [addOutcome_eq]
      split
      · exact hresults
      · rw [List.map_append, List.mem_append, not_or]
        refine ⟨hresults, ?_⟩
        simpa [hlane] using hearlier.1

/-- The lane alone. -/
theorem runLanes_alone {lane : ResearchLaneKey} {b : LaneBehaviour} {o : LaneOutcome}
    (h : runLane zones lane b = .ok o) : runLanes zones (fun _ => b) [lane] = .ok [o.row] := by
  show (runLane zones lane b >>= fun o => .ok (addOutcome [] o)) >>= _ = _
  rw [h]
  cases o <;> rfl

/-! ## The lanes that are left -/

theorem keptLanes_subset {before : Option ResearchLaneKey}
    {requests : List (ResearchLaneKey × ℕ)} {lane : ResearchLaneKey}
    (h : lane ∈ keptLanes zones behaviour before requests) : lane ∈ requests.map Prod.fst := by
  induction requests generalizing before with
  | nil => cases h
  | cons request requests ih =>
    rw [keptLanes] at h
    split at h
    · exact List.mem_cons_of_mem _ (ih h)
    · rcases List.mem_cons.1 h with rfl | h
      · exact List.mem_cons_self
      · exact List.mem_cons_of_mem _ (ih h)

/-- A requested lane is left, or has just been requested. -/
theorem keptLanes_covers {before : Option ResearchLaneKey}
    {requests : List (ResearchLaneKey × ℕ)} {lane : ResearchLaneKey}
    (h : lane ∈ requests.map Prod.fst) :
    lane ∈ keptLanes zones behaviour before requests ∨ before = some lane := by
  induction requests generalizing before with
  | nil => cases h
  | cons request requests ih =>
    have hrest : lane ∈ requests.map Prod.fst →
        lane ∈ keptLanes zones behaviour (some request.1) requests ∨ request.1 = lane := by
      intro hmem
      exact (ih hmem).imp_right fun heq => by simpa using heq
    rw [keptLanes]
    split
    · rename_i hdropped
      rcases List.mem_cons.1 h with rfl | h
      · exact .inr hdropped.1
      · rcases hrest h with hkept | rfl
        · exact .inl hkept
        · exact .inr hdropped.1
    · rcases List.mem_cons.1 h with rfl | h
      · exact .inl List.mem_cons_self
      · rcases hrest h with hkept | rfl
        · exact .inl (List.mem_cons_of_mem _ hkept)
        · exact .inl List.mem_cons_self

end

/-! ## Diversification -/

/-- What the diversification may change of a result: the ranking of a lane with a winner. -/
structure Diversified (r r' : ResearchLaneResult) : Prop where
  ranking : r' = { r with
    candidate := r'.candidate
    rankedCandidates := r'.rankedCandidates
    exclusions := r'.exclusions }
  others : r.status ≠ .ready → r' = r

theorem Diversified.refl (r : ResearchLaneResult) : Diversified r r := ⟨rfl, fun _ => rfl⟩

theorem Diversified.lane {r r' : ResearchLaneResult} (h : Diversified r r') : r'.lane = r.lane := by
  rw [h.ranking]

/-- The results in place, each one diversified. -/
structure InPlace (results results' : List ResearchLaneResult) : Prop where
  length : results'.length = results.length
  each : ∀ (i : ℕ) r, results[i]? = some r → ∃ r', results'[i]? = some r' ∧ Diversified r r'

theorem InPlace.refl (results : List ResearchLaneResult) : InPlace results results :=
  ⟨rfl, fun _ r hr => ⟨r, hr, .refl r⟩⟩

theorem InPlace.step {results : List ResearchLaneResult}
    {state : Exposures × List ResearchLaneResult} (h : InPlace results state.2) {i : ℕ}
    (hready : ∀ r, results[i]? = some r → r.status = .ready) :
    InPlace results (diversifyStep state i).2 := by
  unfold diversifyStep
  split
  · exact h
  rename_i r hr
  refine ⟨by rw [List.length_set]; exact h.length, ?_⟩
  intro j r₀ hr₀
  obtain ⟨r₁, hr₁, hdiversified⟩ := h.each j r₀ hr₀
  by_cases heq : i = j
  · subst heq
    rw [hr] at hr₁
    cases hr₁
    refine ⟨diversifyResult state.1 r, List.getElem?_set_self (List.getElem?_eq_some_iff.1 hr).1, ?_⟩
    refine ⟨?_, fun hnot => absurd (hready r₀ hr₀) hnot⟩
    rw [diversifyResult, hdiversified.ranking]
  · exact ⟨r₁, by rw [List.getElem?_set_ne heq]; exact hr₁, hdiversified⟩

theorem InPlace.foldl {results : List ResearchLaneResult} {is : List ℕ}
    (his : ∀ i ∈ is, ∀ r, results[i]? = some r → r.status = .ready)
    (state : Exposures × List ResearchLaneResult) (h : InPlace results state.2) :
    InPlace results (is.foldl diversifyStep state).2 := by
  induction is generalizing state with
  | nil => exact h
  | cons i is ih =>
    obtain ⟨hi, his⟩ := List.forall_mem_cons.1 his
    exact ih his _ (h.step hi)

theorem readyLanes_ready {results : List ResearchLaneResult} :
    ∀ i ∈ readyLanes results, ∀ r, results[i]? = some r → r.status = .ready := by
  intro i hi r hr
  obtain ⟨⟨r', j⟩, hp, rfl⟩ := List.mem_map.1 hi
  obtain ⟨hmem, hready⟩ := List.mem_filter.1 (List.mem_mergeSort.1 hp)
  rw [List.mk_mem_zipIdx_iff_getElem?, hr] at hmem
  cases hmem
  simpa using hready

/-- **The diversification leaves the results in place.** -/
theorem diversify_inPlace (results : List ResearchLaneResult) :
    InPlace results (diversify results) :=
  InPlace.foldl readyLanes_ready ({}, results) (InPlace.refl results)

theorem InPlace.lanes {results results' : List ResearchLaneResult} (h : InPlace results results') :
    results'.map ResearchLaneResult.lane = results.map ResearchLaneResult.lane := by
  apply List.ext_getElem?
  intro i
  rw [List.getElem?_map, List.getElem?_map]
  cases hr : results[i]? with
  | none =>
    rw [List.getElem?_eq_none_iff, ← h.length, ← List.getElem?_eq_none_iff] at hr
    rw [hr]
  | some r =>
    obtain ⟨r', hr', hdiversified⟩ := h.each i r hr
    rw [hr', Option.map_some, Option.map_some, hdiversified.lane]

/-! ## Runs -/

/-- One result per lane, over the results `results` of the loop. -/
structure OneResultPerLane (zones : ZoneDatabase) (behaviour : ℕ → LaneBehaviour)
    (run run' : TypedResearchRun) (results : List ResearchLaneResult) : Prop where
  validator : run'.oneResultPerLane
  each : ∀ lane ∈ run.requestedLanes, (run'.laneResults.map ResearchLaneResult.lane).count lane = 1
  ended : run'.state ≠ .researching
  diversified : InPlace results run'.laneResults
  /-- What a lane gets is what it gets without the others. -/
  own : ∀ i lane, run.requestedLanes[i]? = some lane → lane ∉ run.requestedLanes.take i →
    ∃ r ∈ results, r.lane = lane ∧ runLanes zones (fun _ => behaviour i) [lane] = .ok [r]

theorem nodup_keys {results : List ResearchLaneResult} :
    (results.map fun r => r.lane.asString).Nodup ↔ (results.map ResearchLaneResult.lane).Nodup := by
  have hcomp : results.map (fun r => r.lane.asString) =
      (results.map ResearchLaneResult.lane).map ResearchLaneKey.asString := by
    rw [List.map_map]
    rfl
  rw [hcomp, List.nodup_map_iff ResearchLaneKey.asString_injective]

def zonesAtUtc : ZoneDatabase := ⟨fun _ _ => 0, fun _ time => time⟩

def forexSpot : ResearchLaneKey := ⟨.forex, .spot⟩

def cryptoSpot : ResearchLaneKey := ⟨.cryptocurrency, .spot⟩

def requestedRun (requestedLanes : List ResearchLaneKey) : TypedResearchRun where
  id := ⟨1⟩
  ownerId := ⟨2⟩
  accountId := ⟨3⟩
  matrixVersion := 1
  requestedLanes

def laneGathering (gather : GatherOutcome) : LaneBehaviour where
  gather
  clock := fun _ => 0
  agents := fun _ => .error ⟨"TimeoutError", ""⟩
  candidateId := fun _ => ⟨4⟩

theorem twoLanes_valid : (requestedRun [forexSpot, cryptoSpot]).Valid :=
  ⟨by decide, by decide⟩

/-- A provider that raises, and one without the lane. -/
def failingLanes (i : ℕ) : LaneBehaviour :=
  if i = 0 then laneGathering (.raised ⟨"ResearchDataUnavailable", "rate limit"⟩ .missing)
  else laneGathering .attributeError

/-- A snapshot that does not validate. -/
def malformedFirst (i : ℕ) : LaneBehaviour :=
  if i = 0 then laneGathering (.snapshots [.malformed]) else laneGathering .attributeError

end Matrades

import Matrades.Research.Proof.Ranking

/-!
# Candidates with their own measures

What a lane measures is kept by symbol, so a candidate has the measures of the last eligible snapshot with
its symbol. They are its own exactly if snapshots that share a symbol are measured alike
(`OwnCandidates`, `candidates_own_iff`); two listings of one symbol are not
(`shared_symbol_contaminates`).
-/

namespace Matrades

open Base

/-! ## The candidates that a lane should have -/

/-- A candidate with the fingerprint, the base score and the evidence of its own snapshot. -/
structure OwnEvidence (base : Dict String ℚ) (reviews : List AgentReview)
    (p : TypedResearchSnapshot × MeasuredCandidate) (c : TypedResearchCandidate) : Prop where
  listing : c.listing = p.1.listing
  specification : c.specification = p.1.specification
  origin : c.fingerprint.listingId = p.1.listing.id ∧ c.fingerprint.sourceCutId = p.1.sourceCutId
  fingerprint : ∃ criterion, c.fingerprint = p.2.fingerprint.penalized criterion
  score : base.get? c.listing.symbol = some p.2.score
  evidence : ∃ penalty, c.evidence = [.text ("source_cut=" ++ p.1.sourceCutId)] ++ p.2.evidence ++
    (reviews.flatMap fun review => review.evidence.map .text) ++ [.overlapPenalty penalty]

/-- The candidates are the eligible snapshots, each with its own evidence, and none is a listing that was
rejected. -/
structure OwnCandidates (zones : ZoneDatabase) (behaviour : LaneBehaviour) (r : ResearchLaneResult) :
    Prop where
  own : ∃ own, own.Perm (laneMeasures zones behaviour) ∧
    List.Forall₂ (OwnEvidence (laneBase zones behaviour) r.agentReviews) own r.rankedCandidates
  rejected : ∀ s k, (s, k) ∈ (laneSnapshots behaviour).zipIdx →
    (typedFingerprint zones s (behaviour.clock k)).toOption = none →
      ∀ c ∈ r.rankedCandidates, c.listing.id ≠ s.listing.id

/-- Eligible snapshots of one symbol are measured alike, and the listings of rejected ones are not
eligible. -/
structure SeparateListings (zones : ZoneDatabase) (behaviour : LaneBehaviour) : Prop where
  symbols : ∀ p ∈ laneMeasures zones behaviour, ∀ q ∈ laneMeasures zones behaviour,
    p.1.listing.symbol = q.1.listing.symbol → p.2 = q.2
  rejected : ∀ s k, (s, k) ∈ (laneSnapshots behaviour).zipIdx →
    (typedFingerprint zones s (behaviour.clock k)).toOption = none →
      ∀ p ∈ laneMeasures zones behaviour, p.1.listing.id ≠ s.listing.id

/-- Agents that pass. -/
def PassingAgents (behaviour : LaneBehaviour) : Prop :=
  ∀ role, ∃ review, agentReview role (behaviour.agents role) = .ok review ∧ review.status = "PASS"

/-! ## Fingerprints -/

theorem fingerprint_origin {zones : ZoneDatabase} {s : TypedResearchSnapshot} {now : ℤ}
    {m : MeasuredCandidate} (h : typedFingerprint zones s now = .ok m) :
    m.fingerprint.listingId = s.listing.id ∧ m.fingerprint.sourceCutId = s.sourceCutId ∧
      "diversification_penalty" ∉ m.fingerprint.criteria.keys := by
  unfold typedFingerprint at h
  obtain ⟨q, -, h⟩ := ok_of_bind h
  obtain ⟨_, -, h⟩ := ok_of_bind h
  cases h
  refine ⟨rfl, rfl, ?_⟩
  intro hmem
  have hkeys : ((measure s q).criteria (if s.spreadVerified then some q.spreadRatio else none)).keys =
      ["trend_strength", "market_structure", "volatility_suitability", "trading_cost",
        "timeframe_alignment", "event_suitability", "spread_to_movement", "relative_volatility",
        "direction"] := rfl
  rw [hkeys] at hmem
  revert hmem
  decide

/-- The penalty hides nothing of a fingerprint. -/
theorem penalized_injective {f g : TypedMarketFingerprint} {x y : ℚ}
    (hf : "diversification_penalty" ∉ f.criteria.keys) (hg : "diversification_penalty" ∉ g.criteria.keys)
    (h : f.penalized x = g.penalized y) : f = g := by
  have hcriteria : f.criteria.set "diversification_penalty" (some x) =
      g.criteria.set "diversification_penalty" (some y) := congrArg TypedMarketFingerprint.criteria h
  have hsame : f.criteria = g.criteria := Dict.eq_of_set_eq hf hg hcriteria
  calc f = { f.penalized x with criteria := f.criteria } := rfl
    _ = { g.penalized y with criteria := g.criteria } := by rw [h, hsame]
    _ = g := rfl

/-- Two lists beside a third one. -/
theorem forall₂_joined {α β γ : Type} {R : α → β → Prop} {S : α → γ → Prop} {T : β → γ → Prop}
    (hRST : ∀ a b c, R a b → S a c → T b c) {as : List α} {bs : List β} {cs : List γ}
    (hR : List.Forall₂ R as bs) (hS : List.Forall₂ S as cs) : List.Forall₂ T bs cs := by
  induction hR generalizing cs with
  | nil =>
    cases hS
    exact .nil
  | cons hab _ ih =>
    cases hS with
    | cons hac hrest => exact .cons (hRST _ _ _ hab hac) (ih hrest)

section
variable {zones : ZoneDatabase} {behaviour : LaneBehaviour} {r : ResearchLaneResult}
  (h : FinalLane zones behaviour r)
include h

theorem FinalLane.measured_origin {symbol : String} {m : MeasuredCandidate}
    (hm : (laneMeasured zones behaviour).get? symbol = some m) :
    "diversification_penalty" ∉ m.fingerprint.criteria.keys := by
  obtain ⟨p, hp, -, rfl⟩ := h.mem_measures hm
  obtain ⟨k, -, hfingerprint⟩ := mem_measuresOf.1 hp
  exact (fingerprint_origin hfingerprint).2.2

/-- A candidate with its own evidence has the measures that are kept for its symbol. -/
theorem FinalLane.kept_measure {p : TypedResearchSnapshot × MeasuredCandidate}
    (hp : p ∈ laneMeasures zones behaviour) {c : TypedResearchCandidate} (hc : c ∈ r.rankedCandidates)
    (hown : OwnEvidence (laneBase zones behaviour) r.agentReviews p c) :
    (laneMeasured zones behaviour).get? p.1.listing.symbol = some p.2 := by
  obtain ⟨own, -, hfinal⟩ := h.own
  obtain ⟨s, -, hs⟩ := exists_left_of_mem hfinal hc
  obtain ⟨m, x, penalty, criterion, hm, -, -, -, -, hfingerprint, hevidence⟩ := hs.measures
  have hlisting : s.listing = p.1.listing := hs.listing.symm.trans hown.listing
  obtain ⟨k, -, hmeasured⟩ := mem_measuresOf.1 hp
  have hfingerprints : m.fingerprint = p.2.fingerprint := by
    obtain ⟨criterion', hcriterion'⟩ := hown.fingerprint
    exact penalized_injective (h.measured_origin hm) (fingerprint_origin hmeasured).2.2
      (hfingerprint.symm.trans hcriterion')
  have hscores : m.score = p.2.score := by
    have hbase := hown.score
    rw [hs.listing, laneBase, Dict.get?_map, hm] at hbase
    exact Option.some.inj hbase
  have hlines : m.evidence = p.2.evidence := by
    obtain ⟨penalty', hpenalty'⟩ := hown.evidence
    have hboth := hevidence.symm.trans hpenalty'
    have hprefix := List.append_inj_left' (List.append_inj_left' hboth rfl) rfl
    exact List.append_inj_right hprefix rfl
  have hsame : m = p.2 := by
    cases m
    cases hp2 : p.2
    rw [hp2] at hfingerprints hscores hlines
    cases hfingerprints
    cases hscores
    cases hlines
    rfl
  rw [← hlisting, hm, hsame]

/-- **A ready lane has its own candidates exactly if its listings are separate.** -/
theorem FinalLane.own_iff : OwnCandidates zones behaviour r ↔ SeparateListings zones behaviour := by
  constructor
  · intro hown
    obtain ⟨own, hperm, hall⟩ := hown.own
    have hcandidate : ∀ p ∈ laneMeasures zones behaviour, ∃ c ∈ r.rankedCandidates,
        OwnEvidence (laneBase zones behaviour) r.agentReviews p c := fun p hp =>
      exists_right_of_mem hall (hperm.mem_iff.2 hp)
    constructor
    · intro p hp q hq hsymbol
      obtain ⟨c, hc, hpc⟩ := hcandidate p hp
      obtain ⟨d, hd, hqd⟩ := hcandidate q hq
      have hkept := h.kept_measure hp hc hpc
      rw [hsymbol, h.kept_measure hq hd hqd] at hkept
      exact (Option.some.inj hkept).symm
    · intro s k hs hrejected p hp
      obtain ⟨c, hc, hpc⟩ := hcandidate p hp
      have hne := hown.rejected s k hs hrejected c hc
      rwa [hpc.listing] at hne
  · intro hseparate
    obtain ⟨snapshots, hperm, hfinal⟩ := h.own
    have hpairs : List.Forall₂ (fun s p => s = p.1 ∧ p ∈ laneMeasures zones behaviour)
        ((laneMeasures zones behaviour).map Prod.fst) (laneMeasures zones behaviour) := by
      rw [List.forall₂_map_left_iff, List.forall₂_same]
      exact fun p hp => ⟨rfl, hp⟩
    obtain ⟨own, hown, hownPerm⟩ := List.perm_comp_forall₂ hperm hpairs
    have hkept : ∀ s p c, (s = p.1 ∧ p ∈ laneMeasures zones behaviour) →
        FinalOf (laneMeasured zones behaviour)
          (adjustedScores (laneBase zones behaviour) r.agentReviews) r.agentReviews s c →
        OwnEvidence (laneBase zones behaviour) r.agentReviews p c := by
      intro s p c hsp hc
      obtain ⟨rfl, hp⟩ := hsp
      obtain ⟨m, x, penalty, criterion, hm, -, -, -, -, hfingerprint, hevidence⟩ := hc.measures
      obtain ⟨q, hq, hsymbol, rfl⟩ := h.mem_measures hm
      have hsame : p.2 = q.2 := hseparate.symbols p hp q hq hsymbol.symm
      rw [← hsame] at hfingerprint hevidence hm
      obtain ⟨k, -, hmeasured⟩ := mem_measuresOf.1 hp
      obtain ⟨hid, hcut, -⟩ := fingerprint_origin hmeasured
      refine ⟨hc.listing, hc.specification, ⟨?_, ?_⟩, ⟨criterion, hfingerprint⟩, ?_,
        ⟨penalty, hevidence⟩⟩
      · rw [hfingerprint]
        exact hid
      · rw [hfingerprint]
        exact hcut
      · rw [hc.listing, laneBase, Dict.get?_map, hm]
        rfl
    constructor
    · exact ⟨own, hownPerm, forall₂_joined hkept hown hfinal⟩
    · intro s k hs hrejected c hc
      obtain ⟨t, ht, htc⟩ := exists_left_of_mem hfinal hc
      obtain ⟨p, -, rfl, hp⟩ := exists_right_of_mem hown ht
      rw [htc.listing]
      exact hseparate.rejected s k hs hrejected p hp

end

/-- Without eligible snapshots there is nothing to mix up. -/
theorem unranked_own_iff {zones : ZoneDatabase} {behaviour : LaneBehaviour} {r : ResearchLaneResult}
    (hnone : laneMeasures zones behaviour = []) (hunranked : r.rankedCandidates = []) :
    OwnCandidates zones behaviour r ↔ SeparateListings zones behaviour := by
  constructor
  · intro _
    exact ⟨by simp [hnone], by simp [hnone]⟩
  · intro _
    refine ⟨⟨[], by rw [hnone], ?_⟩, by simp [hunranked]⟩
    rw [hunranked]
    exact .nil

/-! ## Lanes whose agents pass -/

theorem runAnalysts_passing {agents : String → AgentOutcome}
    (hagents : ∀ role, ∃ review, agentReview role (agents role) = .ok review ∧ review.status = "PASS")
    (base : Dict String ℚ) (roles : List String) (adjusted : Dict String ℚ)
    (reviews : List AgentReview) :
    ∃ adjusted' reviews', runAnalysts agents base roles adjusted reviews = .passed adjusted' reviews' := by
  induction roles generalizing adjusted reviews with
  | nil => exact ⟨adjusted, reviews, rfl⟩
  | cons role roles ih =>
    obtain ⟨review, hreview, hpass⟩ := hagents role
    rw [runAnalysts, hreview]
    dsimp only
    rw [if_neg (by simp [hpass])]
    exact ih _ _

/-- A critic that passes makes the lane ready. -/
theorem runCritic_passing {lane : ResearchLaneKey} {behaviour : LaneBehaviour}
    (hagents : PassingAgents behaviour) {m : MeasuredLane} {base adjusted : Dict String ℚ}
    {reviews : List AgentReview} {sourceCutRefs observedCandidates : List String}
    {r : ResearchLaneResult}
    (h : runCritic lane behaviour m base adjusted reviews sourceCutRefs observedCandidates = .ok r) :
    r.status = .ready := by
  obtain ⟨review, hreview, hpass⟩ := hagents "critic"
  unfold runCritic at h
  dsimp only at h
  rw [hreview] at h
  dsimp only at h
  rw [if_neg (by simp [hpass])] at h
  obtain ⟨candidates, -, h⟩ := ok_of_bind h
  obtain ⟨rfl, -⟩ := laneResult_valid h
  rfl

/-- What a lane adds that nothing sends back: a ready result, or one for nothing eligible. -/
structure PassedOutcome (zones : ZoneDatabase) (behaviour : LaneBehaviour) (o : LaneOutcome) : Prop where
  kept : o.isReassess = false
  ready : o.row.status ≠ .ready → laneMeasures zones behaviour = [] ∧ o.row.rankedCandidates = []

theorem passedOutcome_of_map {zones : ZoneDatabase} {behaviour : LaneBehaviour}
    {r : ResearchLaneResult} {o : LaneOutcome} (h : LaneOutcome.result <$> laneResult r = .ok o)
    (hnone : laneMeasures zones behaviour = []) : PassedOutcome zones behaviour o := by
  obtain ⟨r', hr', rfl⟩ := outcome_of_map h
  obtain ⟨rfl, hvalid⟩ := laneResult_valid hr'
  exact ⟨rfl, fun hready => ⟨hnone, (ResearchLaneResult.unranked hvalid hready).2⟩⟩

theorem runLane_passing {zones : ZoneDatabase} {lane : ResearchLaneKey} {behaviour : LaneBehaviour}
    (hagents : PassingAgents behaviour) {o : LaneOutcome} (h : runLane zones lane behaviour = .ok o) :
    PassedOutcome zones behaviour o := by
  unfold runLane at h
  cases hgather : behaviour.gather with
  | notIterable =>
    rw [hgather] at h
    cases h
  | attributeError =>
    rw [hgather] at h
    exact passedOutcome_of_map h (by rw [laneMeasures, laneSnapshots, hgather]; rfl)
  | raised e laneStatus =>
    have hnone : laneMeasures zones behaviour = [] := by
      rw [laneMeasures, laneSnapshots, hgather]
      rfl
    rw [hgather] at h
    cases laneStatus with
    | other => cases h
    | missing => exact passedOutcome_of_map h hnone
    | status s => exact passedOutcome_of_map h hnone
  | snapshots items =>
    rw [hgather] at h
    obtain ⟨typed, htyped, h⟩ := ok_of_bind h
    obtain ⟨m, hm, h⟩ := ok_of_bind h
    rw [← laneSnapshots_eq hgather htyped] at hm
    obtain ⟨heligible, -, -⟩ := measureAll_eq hm
    split at h
    · rename_i hempty
      apply passedOutcome_of_map h
      rw [heligible, List.isEmpty_iff, List.map_eq_nil_iff] at hempty
      exact hempty
    obtain ⟨adjusted, reviews, hanalysts⟩ := runAnalysts_passing hagents
      (m.measured.map MeasuredCandidate.score) (analystRoles ++ [assetClassRole lane.assetClass])
      (m.measured.map MeasuredCandidate.score) []
    unfold reviewLane at h
    dsimp only at h
    rw [hanalysts] at h
    obtain ⟨r, hr, rfl⟩ := outcome_of_map h
    exact ⟨rfl, fun hready => absurd (runCritic_passing hagents hr) hready⟩

/-- The results of a loop that keeps all of them are those of its requests, in their order. -/
theorem loop_aligned {zones : ZoneDatabase} {behaviour : ℕ → LaneBehaviour}
    {requests : List (ResearchLaneKey × ℕ)} {results results' : List ResearchLaneResult}
    (hagents : ∀ i, PassingAgents (behaviour i))
    (h : requests.foldlM (loopStep zones behaviour) results = .ok results') :
    ∃ rows, results' = results ++ rows ∧ List.Forall₂ (fun request row => ∃ o,
      runLane zones request.1 (behaviour request.2) = .ok o ∧ o.row = row) requests rows := by
  induction requests generalizing results with
  | nil =>
    cases h
    exact ⟨[], (List.append_nil _).symm, .nil⟩
  | cons request requests ih =>
    rw [List.foldlM_cons] at h
    obtain ⟨next, hstep, hrest⟩ := ok_of_bind h
    obtain ⟨o, ho, hnext⟩ := ok_of_bind hstep
    cases hnext
    have hkept := (runLane_passing (hagents request.2) ho).kept
    have hadd : addOutcome results o = results ++ [o.row] := by
      rw [addOutcome_eq, if_neg]
      simp [hkept]
    rw [hadd] at hrest
    obtain ⟨rows, hrows, hall⟩ := ih hrest
    refine ⟨o.row :: rows, ?_, .cons ⟨o, ho, rfl⟩ hall⟩
    rw [hrows, List.append_assoc, List.singleton_append]

/-- **The result of each lane whose agents pass**: a ready one, unless nothing is eligible. -/
theorem runMatrix_passing {zones : ZoneDatabase} {run run' : TypedResearchRun}
    {behaviour : ℕ → LaneBehaviour} (hagents : ∀ i, PassingAgents (behaviour i))
    (h : runMatrix zones run behaviour = .ok run') :
    run'.laneResults.length = run.requestedLanes.length ∧
    ∀ i lane r, run.requestedLanes[i]? = some lane → run'.laneResults[i]? = some r →
      r.lane = lane ∧ (FinalLane zones (behaviour i) r ∨
        laneMeasures zones (behaviour i) = [] ∧ r.rankedCandidates = []) := by
  obtain ⟨results, hresults, hrun⟩ := ok_of_bind h
  cases hrun
  obtain ⟨rows, hrows, hall⟩ := loop_aligned hagents hresults
  rw [List.nil_append] at hrows
  subst hrows
  have hlength : results.length = run.requestedLanes.length := by
    rw [← hall.length_eq, List.length_zipIdx]
  have hinPlace := diversify_inPlace results
  refine ⟨hinPlace.length.trans hlength, ?_⟩
  intro i lane r hlane hr
  have hi : i < results.length := by
    rw [hlength]
    exact (List.getElem?_eq_some_iff.1 hlane).1
  have hrow := List.getElem?_eq_getElem hi
  obtain ⟨o, ho, hoi⟩ : ∃ o, runLane zones lane (behaviour i) = .ok o ∧ o.row = results[i] := by
    have hz : i < run.requestedLanes.zipIdx.length := by rwa [List.length_zipIdx, ← hlength]
    obtain ⟨o, ho, hoi⟩ := hall.get hz hi
    rw [List.get_eq_getElem, List.getElem_zipIdx, Nat.zero_add,
      (List.getElem?_eq_some_iff.1 hlane).2] at ho
    exact ⟨o, ho, hoi⟩
  obtain ⟨r', hr', hdiversified⟩ := hinPlace.each i _ hrow
  rw [show (diversify results)[i]? = some r from hr] at hr'
  cases hr'
  have hrowLane : results[i].lane = lane := by
    rw [← hoi]
    exact (runLane_ok ho).1
  refine ⟨hdiversified.lane.trans hrowLane, ?_⟩
  by_cases hready : results[i].status = .ready
  · obtain ⟨e, he⟩ := diversify_ready hrow hready
    rw [show (diversify results)[i]? = some r from hr] at he
    cases he
    have hranked := runLane_ready ho (by rw [hoi]; exact hready)
    rw [hoi] at hranked
    exact .inl (hranked.diversified e)
  · have hsame : r = results[i] := hdiversified.others hready
    obtain ⟨hnone, hunranked⟩ := (runLane_passing (hagents i) ho).ready (by rw [hoi]; exact hready)
    rw [hoi, ← hsame] at hunranked
    exact .inr ⟨hnone, hunranked⟩

theorem runMatrix_returns {zones : ZoneDatabase} {run : TypedResearchRun} {behaviour : ℕ → LaneBehaviour}
    (h : ∀ i, (behaviour i).gather.Tolerated) :
    ∃ run', runMatrix zones run behaviour = .ok run' := by
  obtain ⟨results, hresults⟩ : Returns (runLanes zones behaviour run.requestedLanes) :=
    loop_returns.2 fun request _ => h request.2
  exact ⟨_, bind_ok_eq hresults _⟩

/-- **With agents that pass, the candidates of each lane have their own measures exactly if its listings
are separate.** -/
theorem candidates_own_iff {zones : ZoneDatabase} {run run' : TypedResearchRun}
    {behaviour : ℕ → LaneBehaviour} (hagents : ∀ i, PassingAgents (behaviour i))
    (h : runMatrix zones run behaviour = .ok run') :
    run'.laneResults.length = run.requestedLanes.length ∧
    ∀ i lane r, run.requestedLanes[i]? = some lane → run'.laneResults[i]? = some r →
      r.lane = lane ∧ (OwnCandidates zones (behaviour i) r ↔ SeparateListings zones (behaviour i)) := by
  obtain ⟨hlength, hlanes⟩ := runMatrix_passing hagents h
  refine ⟨hlength, fun i lane r hlane hr => ?_⟩
  obtain ⟨hrowLane, hfinal | ⟨hnone, hunranked⟩⟩ := hlanes i lane r hlane hr
  · exact ⟨hrowLane, hfinal.own_iff⟩
  · exact ⟨hrowLane, unranked_own_iff hnone hunranked⟩

/-! ## Two venues with one symbol -/

/-- The symbol on another venue, with falling closes. -/
def fallingSnapshot : TypedResearchSnapshot :=
  { risingSnapshot with
    listing := { risingSnapshot.listing with id := ⟨20⟩ }
    closes := (List.range 20).map fun i => .finite (40 - i)
    sourceCutId := "other cut" }

def twoVenues : LaneBehaviour := praisedLane [.fields risingSnapshot, .fields fallingSnapshot]

theorem praised_passing (items : List SnapshotItem) : PassingAgents (praisedLane items) := by
  intro role
  refine ⟨_, rfl, ?_⟩
  have hpass : (reviewDecision "PASS").1 = "PASS" := by decide
  exact hpass

theorem twoVenues_measures : (laneMeasures zonesAtUtc twoVenues).map (fun p =>
    (p.1.listing.symbol, p.2.fingerprint.listingId)) = [("BTCUSD", ⟨10⟩), ("BTCUSD", ⟨20⟩)] := by
  decide +kernel

theorem twoVenues_mixed : ¬SeparateListings zonesAtUtc twoVenues := by
  intro hseparate
  have hfirst : ("BTCUSD", (⟨10⟩ : Uuid)) ∈ (laneMeasures zonesAtUtc twoVenues).map (fun p =>
      (p.1.listing.symbol, p.2.fingerprint.listingId)) := by
    rw [twoVenues_measures]
    exact List.mem_cons_self
  have hsecond : ("BTCUSD", (⟨20⟩ : Uuid)) ∈ (laneMeasures zonesAtUtc twoVenues).map (fun p =>
      (p.1.listing.symbol, p.2.fingerprint.listingId)) := by
    rw [twoVenues_measures]
    exact List.mem_cons_of_mem _ List.mem_cons_self
  obtain ⟨p, hp, hp10⟩ := List.mem_map.1 hfirst
  obtain ⟨q, hq, hq20⟩ := List.mem_map.1 hsecond
  obtain ⟨hpsymbol, hpid⟩ := Prod.mk.inj hp10
  obtain ⟨hqsymbol, hqid⟩ := Prod.mk.inj hq20
  have hsame := hseparate.symbols p hp q hq (hpsymbol.trans hqsymbol.symm)
  rw [hsame, hqid] at hpid
  cases hpid

/-- **The candidate of one venue has the measures of the other.** -/
theorem shared_symbol_contaminates : ∃ run' r,
    runMatrix zonesAtUtc (requestedRun [cryptoSpot]) (fun _ => twoVenues) = .ok run' ∧
      run'.laneResults[0]? = some r ∧ ¬OwnCandidates zonesAtUtc twoVenues r := by
  have htolerated : twoVenues.gather.Tolerated := by
    show ∀ item ∈ [SnapshotItem.fields risingSnapshot, .fields fallingSnapshot], item.valid = true
    decide +kernel
  obtain ⟨run', hrun⟩ : ∃ run', runMatrix zonesAtUtc (requestedRun [cryptoSpot])
    (fun _ => twoVenues) = .ok run' := runMatrix_returns fun _ => htolerated
  have hagents : ∀ _ : ℕ, PassingAgents twoVenues := fun _ => praised_passing _
  obtain ⟨hlength, hlanes⟩ := runMatrix_passing hagents hrun
  have h0 : 0 < run'.laneResults.length := by
    rw [hlength]
    exact Nat.one_pos
  refine ⟨run', run'.laneResults[0], hrun, List.getElem?_eq_getElem h0, ?_⟩
  obtain ⟨-, hfinal | ⟨hnone, -⟩⟩ := hlanes 0 cryptoSpot _ rfl (List.getElem?_eq_getElem h0)
  · rw [hfinal.own_iff]
    exact twoVenues_mixed
  · have hmeasures := twoVenues_measures
    rw [hnone] at hmeasures
    cases hmeasures

theorem rising_separate : SeparateListings zonesAtUtc (praisedLane [.fields risingSnapshot]) := by
  have honly : ∀ s k, (s, k) ∈ (laneSnapshots (praisedLane [.fields risingSnapshot])).zipIdx →
      s = risingSnapshot := by
    intro s k hmem
    have hs : s ∈ [risingSnapshot] := List.fst_mem_of_mem_zipIdx hmem
    simpa using hs
  constructor
  · intro p hp q hq _
    obtain ⟨k, hk, hpm⟩ := mem_measuresOf.1 hp
    obtain ⟨j, hj, hqm⟩ := mem_measuresOf.1 hq
    have hsame : Except.ok p.2 = (.ok q.2 : Except String MeasuredCandidate) := by
      rw [← hpm, ← hqm, honly _ _ hk, honly _ _ hj]
      rfl
    exact Except.ok.inj hsame
  · intro s k hmem hrejected
    rw [honly s k hmem] at hrejected
    have haccepted := rising_accepted
    rw [show typedFingerprint zonesAtUtc risingSnapshot 0 = typedFingerprint zonesAtUtc risingSnapshot
      ((praisedLane [.fields risingSnapshot]).clock k) from rfl, hrejected] at haccepted
    cases haccepted

/-- One venue alone has its own measures. -/
theorem candidates_own_iff_rising : ∃ run' r,
    runMatrix zonesAtUtc (requestedRun [cryptoSpot]) (fun _ => praisedLane [.fields risingSnapshot]) =
      .ok run' ∧ run'.laneResults[0]? = some r ∧
        OwnCandidates zonesAtUtc (praisedLane [.fields risingSnapshot]) r := by
  have htolerated : (praisedLane [.fields risingSnapshot]).gather.Tolerated := by
    show ∀ item ∈ [SnapshotItem.fields risingSnapshot], item.valid = true
    decide +kernel
  obtain ⟨run', hrun⟩ : ∃ run', runMatrix zonesAtUtc (requestedRun [cryptoSpot])
      (fun _ => praisedLane [.fields risingSnapshot]) = .ok run' :=
    runMatrix_returns fun _ => htolerated
  obtain ⟨hlength, hlanes⟩ := candidates_own_iff (fun _ => praised_passing _) hrun
  have h0 : 0 < run'.laneResults.length := by
    rw [hlength]
    exact Nat.one_pos
  refine ⟨run', run'.laneResults[0], hrun, List.getElem?_eq_getElem h0, ?_⟩
  refine (hlanes 0 cryptoSpot _ rfl (List.getElem?_eq_getElem h0)).2.2 rising_separate

end Matrades

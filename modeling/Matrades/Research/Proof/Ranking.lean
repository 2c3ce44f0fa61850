import Mathlib.Data.List.Forall2
import Matrades.Research.Proof.PriceScale

/-!
# What a ready lane ranks

The candidates of a ready lane are its eligible snapshots (`RankedLane`): each has the measures and the
adjusted score of its symbol, and the diversification lowers that score by at most 15 (`FinalLane`).
The adjustments of all agents together stay within 15 of the measured score (`Near.fold`), so final
scores are bounded up to the rounding to four places, and the ranks follow them
(`research_scores_bounded`).
-/

namespace Matrades

open Base

/-! ## Lists side by side -/

section
variable {α β : Type} {R : α → β → Prop} {xs : List α} {ys : List β} (h : List.Forall₂ R xs ys)
include h

theorem exists_left_of_mem {y : β} (hy : y ∈ ys) : ∃ x ∈ xs, R x y := by
  induction h with
  | nil => cases hy
  | @cons x _ _ _ hxy _ ih =>
    rcases List.mem_cons.1 hy with heq | hy
    · exact ⟨x, List.mem_cons_self, heq ▸ hxy⟩
    · obtain ⟨x', hx', hR⟩ := ih hy
      exact ⟨x', List.mem_cons_of_mem _ hx', hR⟩

theorem exists_right_of_mem {x : α} (hx : x ∈ xs) : ∃ y ∈ ys, R x y :=
  exists_left_of_mem h.flip hx

end

/-! ## The order of ranks -/

theorem notBehind_total (cs ds : List Char) : notBehind cs ds = true ∨ notBehind ds cs = true := by
  induction cs generalizing ds with
  | nil => exact .inl rfl
  | cons c cs ih =>
    cases ds with
    | nil => exact .inr rfl
    | cons d ds =>
      simp only [notBehind, Bool.or_eq_true, Bool.and_eq_true, decide_eq_true_eq]
      rcases lt_trichotomy c.toNat d.toNat with h | h | h
      · exact .inl (.inl h)
      · have heq : c = d := Char.toNat_inj.1 h
        exact (ih ds).imp (fun h => .inr ⟨heq, h⟩) fun h => .inr ⟨heq.symm, h⟩
      · exact .inr (.inl h)

theorem notBehind_trans {cs ds es : List Char} (h : notBehind cs ds = true)
    (h' : notBehind ds es = true) : notBehind cs es = true := by
  induction cs generalizing ds es with
  | nil => rfl
  | cons c cs ih =>
    cases ds with
    | nil => cases h
    | cons d ds =>
      cases es with
      | nil => cases h'
      | cons e es =>
        simp only [notBehind, Bool.or_eq_true, Bool.and_eq_true, decide_eq_true_eq] at h h' ⊢
        rcases h with h | ⟨rfl, h⟩
        · rcases h' with h' | ⟨rfl, h'⟩
          · exact .inl (h.trans h')
          · exact .inl h
        · rcases h' with h' | ⟨rfl, h'⟩
          · exact .inl h'
          · exact .inr ⟨rfl, ih h h'⟩

theorem rankedBefore_total (s t : ℚ × String) : (rankedBefore s t || rankedBefore t s) = true := by
  simp only [rankedBefore, Bool.or_eq_true, Bool.and_eq_true, decide_eq_true_eq]
  rcases lt_trichotomy s.1 t.1 with h | h | h
  · exact .inr (.inl h)
  · rcases notBehind_total s.2.toList t.2.toList with hn | hn
    · exact .inl (.inr ⟨h.symm, hn⟩)
    · exact .inr (.inr ⟨h, hn⟩)
  · exact .inl (.inl h)

theorem rankedBefore_trans (s t u : ℚ × String) (h : rankedBefore s t = true)
    (h' : rankedBefore t u = true) : rankedBefore s u = true := by
  simp only [rankedBefore, Bool.or_eq_true, Bool.and_eq_true, decide_eq_true_eq] at h h' ⊢
  rcases h with h | ⟨heq, h⟩
  · rcases h' with h' | ⟨heq', -⟩
    · exact .inl (h'.trans h)
    · exact .inl (heq' ▸ h)
  · rcases h' with h' | ⟨heq', h'⟩
    · exact .inl (heq ▸ h')
    · exact .inr ⟨heq'.trans heq, notBehind_trans h h'⟩

/-! ## The measures of a lane -/

/-- The snapshots of a lane. -/
def laneSnapshots (behaviour : LaneBehaviour) : List TypedResearchSnapshot :=
  match behaviour.gather with
  | .snapshots items => items.filterMap fun
    | .fields s => some s
    | .malformed => none
  | _ => []

/-- The eligible snapshots with what is measured of them. -/
def measuresOf (zones : ZoneDatabase) (clock : ℕ → ℤ) (pairs : List (TypedResearchSnapshot × ℕ)) :
    List (TypedResearchSnapshot × MeasuredCandidate) :=
  pairs.filterMap fun (s, k) => (typedFingerprint zones s (clock k)).toOption.map fun m => (s, m)

def laneMeasures (zones : ZoneDatabase) (behaviour : LaneBehaviour) :
    List (TypedResearchSnapshot × MeasuredCandidate) :=
  measuresOf zones behaviour.clock (laneSnapshots behaviour).zipIdx

/-- `measured`: by symbol. -/
def laneMeasured (zones : ZoneDatabase) (behaviour : LaneBehaviour) : Dict String MeasuredCandidate :=
  match measureAll zones behaviour.clock (laneSnapshots behaviour) with
  | .ok m => m.measured
  | .error _ => Dict.empty

/-- `base_scores` -/
def laneBase (zones : ZoneDatabase) (behaviour : LaneBehaviour) : Dict String ℚ :=
  (laneMeasured zones behaviour).map MeasuredCandidate.score

/-- The scores after the responses of the agents, in their order. -/
def adjustedScores (base : Dict String ℚ) (reviews : List AgentReview) : Dict String ℚ :=
  reviews.foldl (fun adjusted review => adjustScores base adjusted review.scoreAdjustments) base

theorem measures_of_fold {zones : ZoneDatabase} {clock : ℕ → ℤ}
    {pairs : List (TypedResearchSnapshot × ℕ)} {m m' : MeasuredLane}
    (h : pairs.foldlM (fun lane (s, k) => measureSnapshot zones lane s (clock k)) m = .ok m') :
    m'.eligible = m.eligible ++ (measuresOf zones clock pairs).map Prod.fst ∧
    m'.measured = ((measuresOf zones clock pairs).map fun p => (p.1.listing.symbol, p.2)).foldl
      (fun d p => d.set p.1 p.2) m.measured := by
  induction pairs generalizing m with
  | nil =>
    cases h
    exact ⟨(List.append_nil _).symm, rfl⟩
  | cons p pairs ih =>
    obtain ⟨s, k⟩ := p
    rw [List.foldlM_cons] at h
    obtain ⟨m₁, hstep, hrest⟩ := ok_of_bind h
    obtain ⟨heligible, hmeasured⟩ := ih hrest
    replace hstep : measureSnapshot zones m s (clock k) = .ok m₁ := hstep
    unfold measureSnapshot at hstep
    cases hfingerprint : typedFingerprint zones s (clock k) with
    | error reason =>
      have hskip : measuresOf zones clock ((s, k) :: pairs) = measuresOf zones clock pairs := by
        simp [measuresOf, hfingerprint, Except.toOption]
      rw [hfingerprint] at hstep
      cases hstep
      rw [hskip]
      exact ⟨heligible, hmeasured⟩
    | ok c =>
      have hcons : measuresOf zones clock ((s, k) :: pairs) = (s, c) :: measuresOf zones clock pairs := by
        simp [measuresOf, hfingerprint, Except.toOption]
      rw [hfingerprint] at hstep
      dsimp only at hstep
      split at hstep
      · cases hstep
        rw [hcons, heligible, hmeasured]
        simp
      · cases hstep

/-- **The eligible snapshots, and the last measure of each symbol.** -/
theorem measureAll_eq {zones : ZoneDatabase} {behaviour : LaneBehaviour} {m : MeasuredLane}
    (h : measureAll zones behaviour.clock (laneSnapshots behaviour) = .ok m) :
    m.eligible = (laneMeasures zones behaviour).map Prod.fst ∧
    m.measured = laneMeasured zones behaviour ∧
    laneMeasured zones behaviour =
      Dict.ofList ((laneMeasures zones behaviour).map fun p => (p.1.listing.symbol, p.2)) := by
  obtain ⟨heligible, hmeasured⟩ := measures_of_fold h
  have hlane : laneMeasured zones behaviour = m.measured := by
    rw [laneMeasured, h]
  exact ⟨heligible, hlane.symm, hlane.trans hmeasured⟩

theorem laneSnapshots_eq {behaviour : LaneBehaviour} {items : List SnapshotItem}
    {typed : List TypedResearchSnapshot} (hgather : behaviour.gather = .snapshots items)
    (h : items.mapM modelValidate = .ok typed) : laneSnapshots behaviour = typed := by
  rw [laneSnapshots, hgather]
  obtain ⟨rfl, -⟩ := modelValidate_all h
  dsimp only
  rw [List.filterMap_map]
  exact List.filterMap_some

/-! ## A ready lane -/

/-- The candidate of a snapshot before the diversification. -/
structure CandidateOf (measured : Dict String MeasuredCandidate) (adjusted : Dict String ℚ)
    (reviews : List AgentReview) (s : TypedResearchSnapshot) (c : TypedResearchCandidate) : Prop where
  listing : c.listing = s.listing
  specification : c.specification = s.specification
  measures : ∃ m x, measured.get? s.listing.symbol = some m ∧
    adjusted.get? s.listing.symbol = some x ∧ c.score = roundTo 4 x ∧ c.fingerprint = m.fingerprint ∧
    c.evidence = [.text ("source_cut=" ++ s.sourceCutId)] ++ m.evidence ++
      reviews.flatMap fun review => review.evidence.map .text

/-- A result whose candidates are the eligible snapshots. -/
structure RankedLane (zones : ZoneDatabase) (behaviour : LaneBehaviour) (r : ResearchLaneResult) :
    Prop where
  own : ∃ own : List TypedResearchSnapshot, own.Perm ((laneMeasures zones behaviour).map Prod.fst) ∧
    List.Forall₂ (CandidateOf (laneMeasured zones behaviour)
      (adjustedScores (laneBase zones behaviour) r.agentReviews) r.agentReviews) own r.rankedCandidates
  nonempty : r.rankedCandidates ≠ []
  valid : ∀ s ∈ laneSnapshots behaviour, s.valid = true
  measured : laneMeasured zones behaviour =
    Dict.ofList ((laneMeasures zones behaviour).map fun p => (p.1.listing.symbol, p.2))

theorem makeCandidate_ok {lane : ResearchLaneKey} {measured : Dict String MeasuredCandidate}
    {adjusted : Dict String ℚ} {reviews : List AgentReview} {candidateId : ℕ → Uuid} {k : ℕ}
    {s : TypedResearchSnapshot} {c : TypedResearchCandidate}
    (h : makeCandidate lane measured adjusted reviews candidateId k s = .ok c) :
    CandidateOf measured adjusted reviews s c := by
  unfold makeCandidate at h
  obtain ⟨m, hm, h⟩ := ok_of_bind h
  obtain ⟨x, hx, h⟩ := ok_of_bind h
  dsimp only at h
  split at h
  · cases h
  · cases h
    exact ⟨rfl, rfl, m, x, orError_eq_ok.1 hm, orError_eq_ok.1 hx, rfl, rfl, rfl⟩

/-- The analysts that have passed have adjusted the scores in turn. -/
theorem runAnalysts_passed {agents : String → AgentOutcome} {base adjusted adjusted' : Dict String ℚ}
    {roles : List String} {reviews reviews' : List AgentReview}
    (h : runAnalysts agents base roles adjusted reviews = .passed adjusted' reviews') :
    ∃ passed, reviews' = reviews ++ passed ∧ adjusted' =
      passed.foldl (fun adjusted review => adjustScores base adjusted review.scoreAdjustments)
        adjusted := by
  induction roles generalizing adjusted reviews with
  | nil =>
    cases h
    exact ⟨[], (List.append_nil _).symm, rfl⟩
  | cons role roles ih =>
    rw [runAnalysts] at h
    split at h
    · cases h
    rename_i review _
    split at h
    · cases h
    obtain ⟨passed, hreviews, hadjusted⟩ := ih h
    refine ⟨review :: passed, ?_, hadjusted⟩
    rw [hreviews, List.append_assoc, List.singleton_append]

theorem laneResult_valid {r r' : ResearchLaneResult} (h : laneResult r = .ok r') :
    r' = r ∧ r'.valid = true := by
  obtain ⟨rfl, hvalid⟩ := laneResult_eq_ok.1 h
  exact ⟨rfl, hvalid⟩

/-- A result that is not ready has no candidates. -/
theorem ResearchLaneResult.unranked {r : ResearchLaneResult} (h : r.valid = true)
    (hready : r.status ≠ .ready) : r.candidate = none ∧ r.rankedCandidates = [] := by
  unfold ResearchLaneResult.valid at h
  rw [if_neg hready, Bool.and_eq_true, Option.isNone_iff_eq_none, List.isEmpty_iff] at h
  exact h

/-- A ready result has a candidate. -/
theorem ResearchLaneResult.ready_candidate {r : ResearchLaneResult} (h : r.valid = true)
    (hready : r.status = .ready) : r.candidate ≠ none := by
  intro hnone
  unfold ResearchLaneResult.valid at h
  rw [if_pos hready, hnone] at h
  cases h

section
variable {zones : ZoneDatabase} {lane : ResearchLaneKey} {behaviour : LaneBehaviour}

/-- A critic that passes ranks all eligible snapshots. -/
theorem runCritic_ready {m : MeasuredLane} {base adjusted : Dict String ℚ}
    {reviews : List AgentReview} {sourceCutRefs observedCandidates : List String}
    {r : ResearchLaneResult}
    (h : runCritic lane behaviour m base adjusted reviews sourceCutRefs observedCandidates = .ok r)
    (hready : r.status = .ready) :
    r.rankedCandidates ≠ [] ∧ ∃ review, r.agentReviews = reviews ++ [review] ∧
      ∃ own : List TypedResearchSnapshot, own.Perm m.eligible ∧ List.Forall₂ (CandidateOf m.measured
        (adjustScores base adjusted review.scoreAdjustments) r.agentReviews) own
          r.rankedCandidates := by
  unfold runCritic at h
  dsimp only at h
  split at h
  · obtain ⟨rfl, -⟩ := laneResult_valid h
    cases hready
  rename_i review _
  split at h
  · obtain ⟨rfl, -⟩ := laneResult_valid h
    cases hready
  obtain ⟨candidates, hcandidates, h⟩ := ok_of_bind h
  obtain ⟨rfl, hvalid⟩ := laneResult_valid h
  have hnonempty : candidates ≠ [] := by
    intro hnil
    apply ResearchLaneResult.ready_candidate hvalid hready
    show candidates.head? = none
    rw [hnil]
    rfl
  refine ⟨hnonempty, review, rfl,
    rankSnapshots (adjustScores base adjusted review.scoreAdjustments) m.eligible,
    List.mergeSort_perm _ _, ?_⟩
  have hall := ok_of_mapM hcandidates
  have hmade : List.Forall₂ (fun (p : TypedResearchSnapshot × ℕ) c => CandidateOf m.measured
      (adjustScores base adjusted review.scoreAdjustments) (reviews ++ [review]) p.1 c)
      (rankSnapshots (adjustScores base adjusted review.scoreAdjustments) m.eligible).zipIdx
      candidates := hall.imp fun _ _ h => makeCandidate_ok h
  rw [← List.forall₂_map_left_iff, List.zipIdx_map_fst] at hmade
  exact hmade

theorem outcome_of_map {f : ResearchLaneResult → LaneOutcome} {t : Except RunError ResearchLaneResult}
    {o : LaneOutcome} (h : f <$> t = .ok o) : ∃ r, t = .ok r ∧ o = f r := by
  cases t with
  | error e => cases h
  | ok r =>
    cases h
    exact ⟨r, rfl, rfl⟩

/-- The lane of a result that is not ready. -/
theorem not_ready_of_map {f : ResearchLaneResult → LaneOutcome} (hf : ∀ r, (f r).row = r)
    {r : ResearchLaneResult} {o : LaneOutcome} (h : f <$> laneResult r = .ok o)
    (hcandidate : r.candidate = none) : o.row.status ≠ .ready := by
  obtain ⟨r', hr', rfl⟩ := outcome_of_map h
  obtain ⟨rfl, hvalid⟩ := laneResult_valid hr'
  rw [hf]
  exact fun hready => ResearchLaneResult.ready_candidate hvalid hready hcandidate

/-- **A ready lane ranks its eligible snapshots.** -/
theorem runLane_ready {o : LaneOutcome} (h : runLane zones lane behaviour = .ok o)
    (hready : o.row.status = .ready) : RankedLane zones behaviour o.row := by
  unfold runLane at h
  cases hgather : behaviour.gather with
  | notIterable =>
    rw [hgather] at h
    cases h
  | attributeError =>
    rw [hgather] at h
    exact absurd hready (not_ready_of_map (fun _ => rfl) h rfl)
  | raised e laneStatus =>
    rw [hgather] at h
    cases laneStatus with
    | other => cases h
    | missing => exact absurd hready (not_ready_of_map (fun _ => rfl) h rfl)
    | status s => exact absurd hready (not_ready_of_map (fun _ => rfl) h rfl)
  | snapshots items =>
    rw [hgather] at h
    obtain ⟨typed, htyped, h⟩ := ok_of_bind h
    obtain ⟨m, hm, h⟩ := ok_of_bind h
    have hsnapshots := laneSnapshots_eq hgather htyped
    rw [← hsnapshots] at hm
    obtain ⟨heligible, hmeasured, hlast⟩ := measureAll_eq hm
    split at h
    · exact absurd hready (not_ready_of_map (fun _ => rfl) h rfl)
    unfold reviewLane at h
    dsimp only at h
    split at h
    · exact absurd hready (not_ready_of_map (fun _ => rfl) h rfl)
    · exact absurd hready (not_ready_of_map (fun _ => rfl) h rfl)
    rename_i adjusted reviews hanalysts
    obtain ⟨r, hr, rfl⟩ := outcome_of_map h
    obtain ⟨passed, hreviews, hadjusted⟩ := runAnalysts_passed hanalysts
    obtain ⟨hnonempty, review, hall, own, hperm, hown⟩ := runCritic_ready hr hready
    have hscores : adjustScores (m.measured.map MeasuredCandidate.score) adjusted
        review.scoreAdjustments = adjustedScores (laneBase zones behaviour) r.agentReviews := by
      rw [hall, hreviews, hadjusted, adjustedScores, List.foldl_append, laneBase, ← hmeasured]
      rfl
    rw [hscores, hmeasured] at hown
    refine ⟨⟨own, heligible ▸ hperm, hown⟩, hnonempty, ?_, hlast⟩
    rw [hsnapshots]
    exact (modelValidate_all htyped).2

end

/-! ## Penalties -/

def TypedMarketFingerprint.penalized (f : TypedMarketFingerprint) (penalty : ℚ) :
    TypedMarketFingerprint :=
  { f with criteria := f.criteria.set "diversification_penalty" (some penalty) }

theorem overlapPenalty_nat (e : Exposures) (c : TypedResearchCandidate) :
    ∃ n : ℕ, overlapPenalty e c = n ∧ n ≤ 15 := by
  refine ⟨min 15 (10 * (if c.listing.underlyingId ∈ e.underlyings then 1 else 0) +
    5 * (pairExposures c ∩ e.currencies).card), ?_, min_le_left _ _⟩
  unfold overlapPenalty
  push_cast
  rfl

/-- The candidate of a snapshot in the end. -/
structure FinalOf (measured : Dict String MeasuredCandidate) (adjusted : Dict String ℚ)
    (reviews : List AgentReview) (s : TypedResearchSnapshot) (c : TypedResearchCandidate) : Prop where
  listing : c.listing = s.listing
  specification : c.specification = s.specification
  measures : ∃ (m : MeasuredCandidate) (x penalty criterion : ℚ),
    measured.get? s.listing.symbol = some m ∧ adjusted.get? s.listing.symbol = some x ∧
    0 ≤ penalty ∧ penalty ≤ 15 ∧ c.score = max 0 (roundTo 4 x - penalty) ∧
    c.fingerprint = m.fingerprint.penalized criterion ∧
    c.evidence = [.text ("source_cut=" ++ s.sourceCutId)] ++ m.evidence ++
      (reviews.flatMap fun review => review.evidence.map .text) ++ [.overlapPenalty penalty]

section
variable {measured : Dict String MeasuredCandidate} {adjusted : Dict String ℚ}
  {reviews : List AgentReview}

/-- The second rounding changes nothing: the penalty is an integer. -/
theorem penalized_score (x : ℚ) (n : ℕ) :
    roundTo 4 (max 0 (roundTo 4 x - n)) = max 0 (roundTo 4 x - n) := by
  have hplaces : max 0 (roundTo 4 x - n) * 10 ^ 4 =
      ((max 0 (roundEven (x * 10 ^ 4) - n * 10 ^ 4) : ℤ) : ℚ) := by
    rw [max_mul_of_nonneg _ _ (by positivity), zero_mul, sub_mul, roundTo_places]
    push_cast
    norm_num
  exact roundTo_of_places 4 hplaces

theorem CandidateOf.penalized {s : TypedResearchSnapshot} {c : TypedResearchCandidate}
    (h : CandidateOf measured adjusted reviews s c) (e : Exposures) (criterion : ℚ) :
    FinalOf measured adjusted reviews s { c with
      score := roundTo 4 (max 0 (c.score - overlapPenalty e c))
      fingerprint := c.fingerprint.penalized criterion
      evidence := c.evidence ++ [.overlapPenalty (overlapPenalty e c)] } := by
  obtain ⟨hlisting, hspecification, m, x, hm, hx, hscore, hfingerprint, hevidence⟩ := h
  obtain ⟨n, hn, hle⟩ := overlapPenalty_nat e c
  refine ⟨hlisting, hspecification, m, x, n, criterion, hm, hx, Nat.cast_nonneg n, by exact_mod_cast hle,
    ?_, ?_, ?_⟩
  · show roundTo 4 (max 0 (c.score - overlapPenalty e c)) = _
    rw [hn, hscore, penalized_score]
  · show c.fingerprint.penalized criterion = _
    rw [hfingerprint]
  · show c.evidence ++ [.overlapPenalty (overlapPenalty e c)] = _
    rw [hn, hevidence]

theorem penalize_final {own : List TypedResearchSnapshot} {cs : List TypedResearchCandidate}
    (h : List.Forall₂ (CandidateOf measured adjusted reviews) own cs) (e : Exposures) :
    List.Forall₂ (FinalOf measured adjusted reviews) own (penalize e cs) := by
  unfold penalize
  rw [List.forall₂_map_right_iff]
  exact h.imp fun s c hc => hc.penalized e _

theorem FinalOf.rank {s : TypedResearchSnapshot} {c : TypedResearchCandidate}
    (h : FinalOf measured adjusted reviews s c) (rank : ℕ) :
    FinalOf measured adjusted reviews s { c with rank } := ⟨h.listing, h.specification, h.measures⟩

theorem forall₂_ranked {own : List TypedResearchSnapshot} {cs : List TypedResearchCandidate}
    (h : List.Forall₂ (FinalOf measured adjusted reviews) own cs) (n : ℕ) :
    List.Forall₂ (FinalOf measured adjusted reviews) own
      ((cs.zipIdx n).map fun (c, k) => { c with rank := k + 1 }) := by
  induction h generalizing n with
  | nil => exact .nil
  | cons hc _ ih => exact .cons (hc.rank (n + 1)) (ih (n + 1))

/-- **The ranked candidates are the candidates in another order.** -/
theorem rankCandidates_final {own : List TypedResearchSnapshot} {cs : List TypedResearchCandidate}
    (h : List.Forall₂ (FinalOf measured adjusted reviews) own cs) :
    ∃ own', own'.Perm own ∧ List.Forall₂ (FinalOf measured adjusted reviews) own' (rankCandidates cs) := by
  obtain ⟨own', hown', hperm⟩ := List.perm_comp_forall₂
    (List.mergeSort_perm cs fun c d => rankedBefore (c.score, c.listing.symbol) (d.score, d.listing.symbol))
    h.flip
  exact ⟨own', hperm, forall₂_ranked hown'.flip 0⟩

end

/-- The order of the candidates of a lane. -/
def candidateBefore (c d : TypedResearchCandidate) : Bool :=
  rankedBefore (c.score, c.listing.symbol) (d.score, d.listing.symbol)

theorem candidateBefore_total (c d : TypedResearchCandidate) :
    (candidateBefore c d || candidateBefore d c) = true := rankedBefore_total _ _

theorem candidateBefore_trans (c d e : TypedResearchCandidate) (h : candidateBefore c d = true)
    (h' : candidateBefore d e = true) : candidateBefore c e = true := rankedBefore_trans _ _ _ h h'

theorem rankCandidates_eq (cs : List TypedResearchCandidate) :
    rankCandidates cs = (cs.mergeSort candidateBefore).zipIdx.map fun (c, k) =>
      { c with rank := k + 1 } := rfl

/-- The ranks are 1, 2, ..., and the scores do not increase. -/
theorem rankCandidates_ranks (cs : List TypedResearchCandidate) :
    (rankCandidates cs).map TypedResearchCandidate.rank = List.range' 1 cs.length ∧
    (rankCandidates cs).Pairwise fun c d => d.score ≤ c.score := by
  rw [rankCandidates_eq]
  have hsorted : (cs.mergeSort candidateBefore).Pairwise fun c d => candidateBefore c d = true :=
    List.pairwise_mergeSort candidateBefore_trans candidateBefore_total cs
  have hlength : (cs.mergeSort candidateBefore).length = cs.length := List.length_mergeSort cs
  revert hsorted hlength
  generalize cs.mergeSort candidateBefore = ranked
  intro hsorted hlength
  constructor
  · rw [List.map_map, ← hlength]
    show (ranked.zipIdx.map fun p => p.2 + 1) = _
    have hsplit : (ranked.zipIdx.map fun p => p.2 + 1) = (ranked.zipIdx.map Prod.snd).map (· + 1) := by
      rw [List.map_map]
      rfl
    have hsucc : (· + 1) = fun k : ℕ => 1 + k := funext fun k => Nat.add_comm k 1
    rw [hsplit, List.zipIdx_map_snd, hsucc, List.map_add_range']
  · rw [← List.zipIdx_map_fst 0 ranked, List.pairwise_map] at hsorted
    rw [List.pairwise_map]
    refine hsorted.imp fun {p q} h => ?_
    simp only [candidateBefore, rankedBefore, Bool.or_eq_true, Bool.and_eq_true, decide_eq_true_eq] at h
    rcases h with h | ⟨heq, -⟩
    · exact h.le
    · exact heq.le

/-! ## Adjustments -/

/-- The scores are within 15 of the measured ones. -/
def Near (base adjusted : Dict String ℚ) : Prop :=
  ∀ symbol b x, base.get? symbol = some b → adjusted.get? symbol = some x → |x - b| ≤ 15

theorem adjusted_near {b : ℚ} (hb : Score b) (x : ℚ) :
    |max (max 0 (b - 15)) (min (min 100 (b + 15)) x) - b| ≤ 15 := by
  obtain ⟨h0, h100⟩ := hb
  have hlow : b - 15 ≤ max (max 0 (b - 15)) (min (min 100 (b + 15)) x) :=
    (le_max_right _ _).trans (le_max_left _ _)
  have hhigh : max (max 0 (b - 15)) (min (min 100 (b + 15)) x) ≤ b + 15 := by
    apply max_le
    · exact max_le (by linarith) (by linarith)
    · exact (min_le_left _ _).trans (min_le_right _ _)
  rw [abs_le]
  constructor <;> linarith

theorem Near.adjust {base adjusted : Dict String ℚ} (hbase : AllScores base) (h : Near base adjusted)
    (adjustments : Dict String ℚ) : Near base (adjustScores base adjusted adjustments) := by
  unfold adjustScores
  induction adjustments.entries generalizing adjusted with
  | nil => exact h
  | cons e es ih =>
    apply ih
    dsimp only
    split
    · exact h
    intro symbol b x hb hx
    by_cases heq : symbol = e.1
    · subst heq
      rw [Dict.get?_set_self, hb, Option.getD_some] at hx
      cases hx
      exact adjusted_near (hbase e.1 b hb) _
    · rw [Dict.get?_set_ne _ _ heq] at hx
      exact h symbol b x hb hx

/-- **All responses together move a score by at most 15**, and leave it between 0 and 100. -/
theorem adjustedScores_near {base : Dict String ℚ} (hbase : AllScores base)
    (reviews : List AgentReview) :
    Scored base (adjustedScores base reviews) ∧ Near base (adjustedScores base reviews) := by
  have hall (adjusted : Dict String ℚ) (h : Scored base adjusted ∧ Near base adjusted) :
      let after := reviews.foldl
        (fun adjusted review => adjustScores base adjusted review.scoreAdjustments) adjusted
      Scored base after ∧ Near base after := by
    induction reviews generalizing adjusted with
    | nil => exact h
    | cons review reviews ih =>
      exact ih _ ⟨h.1.adjust hbase review.scoreAdjustments, h.2.adjust hbase review.scoreAdjustments⟩
  apply hall base
  refine ⟨⟨hbase, fun _ h => h⟩, ?_⟩
  intro symbol b x hb hx
  rw [hb] at hx
  cases hx
  simp

/-! ## Runs -/

/-- The places of ready lanes are visited once each. -/
theorem readyLanes_nodup (results : List ResearchLaneResult) : (readyLanes results).Nodup := by
  unfold readyLanes
  dsimp only
  refine (List.Perm.nodup_iff ((List.mergeSort_perm _ _).map Prod.snd)).2 ?_
  have hsublist : ((results.zipIdx.filter fun p => p.1.status = .ready).map Prod.snd).Sublist
      (results.zipIdx.map Prod.snd) := List.filter_sublist.map Prod.snd
  refine hsublist.nodup ?_
  rw [List.zipIdx_map_snd]
  exact List.nodup_range'

theorem mem_readyLanes {results : List ResearchLaneResult} {i : ℕ} {r : ResearchLaneResult}
    (hr : results[i]? = some r) (hready : r.status = .ready) : i ∈ readyLanes results := by
  apply List.mem_map.2
  refine ⟨(r, i), List.mem_mergeSort.2 (List.mem_filter.2 ⟨?_, by simpa using hready⟩), rfl⟩
  exact List.mk_mem_zipIdx_iff_getElem?.2 hr

theorem diversifyStep_other {state : Exposures × List ResearchLaneResult} {i j : ℕ} (h : i ≠ j) :
    (diversifyStep state i).2[j]? = state.2[j]? := by
  unfold diversifyStep
  split
  · rfl
  · exact List.getElem?_set_ne h

theorem foldl_diversifyStep_other {is : List ℕ} {j : ℕ} (h : j ∉ is)
    (state : Exposures × List ResearchLaneResult) :
    (is.foldl diversifyStep state).2[j]? = state.2[j]? := by
  induction is generalizing state with
  | nil => rfl
  | cons i is ih =>
    rw [List.mem_cons, not_or] at h
    rw [List.foldl_cons, ih h.2, diversifyStep_other fun heq => h.1 heq.symm]

/-- A lane that is visited is diversified once. -/
theorem foldl_diversifyStep_once {is : List ℕ} (hnodup : is.Nodup) {j : ℕ} (h : j ∈ is)
    {state : Exposures × List ResearchLaneResult} {r : ResearchLaneResult}
    (hr : state.2[j]? = some r) :
    ∃ e, (is.foldl diversifyStep state).2[j]? = some (diversifyResult e r) := by
  induction is generalizing state with
  | nil => cases h
  | cons i is ih =>
    obtain ⟨hnot, hnodup⟩ := List.nodup_cons.1 hnodup
    rw [List.foldl_cons]
    by_cases heq : i = j
    · subst heq
      refine ⟨state.1, ?_⟩
      rw [foldl_diversifyStep_other hnot]
      unfold diversifyStep
      rw [hr]
      exact List.getElem?_set_self (List.getElem?_eq_some_iff.1 hr).1
    · have hrest : j ∈ is := (List.mem_cons.1 h).resolve_left fun hj => heq hj.symm
      exact ih hnodup hrest (by rw [diversifyStep_other heq]; exact hr)

theorem diversify_ready {results : List ResearchLaneResult} {i : ℕ} {r : ResearchLaneResult}
    (hr : results[i]? = some r) (hready : r.status = .ready) :
    ∃ e, (diversify results)[i]? = some (diversifyResult e r) :=
  foldl_diversifyStep_once (readyLanes_nodup results) (mem_readyLanes hr hready) hr

/-- A ready lane in the end. -/
structure FinalLane (zones : ZoneDatabase) (behaviour : LaneBehaviour) (r : ResearchLaneResult) :
    Prop where
  own : ∃ own : List TypedResearchSnapshot, own.Perm ((laneMeasures zones behaviour).map Prod.fst) ∧
    List.Forall₂ (FinalOf (laneMeasured zones behaviour)
      (adjustedScores (laneBase zones behaviour) r.agentReviews) r.agentReviews) own r.rankedCandidates
  valid : ∀ s ∈ laneSnapshots behaviour, s.valid = true
  measured : laneMeasured zones behaviour =
    Dict.ofList ((laneMeasures zones behaviour).map fun p => (p.1.listing.symbol, p.2))
  ranks : r.rankedCandidates.map TypedResearchCandidate.rank = List.range' 1 r.rankedCandidates.length
  sorted : r.rankedCandidates.Pairwise fun c d => d.score ≤ c.score
  first : ∃ c, r.candidate = some c ∧ r.rankedCandidates.head? = some c

theorem RankedLane.diversified {zones : ZoneDatabase} {behaviour : LaneBehaviour}
    {r : ResearchLaneResult} (h : RankedLane zones behaviour r) (e : Exposures) :
    FinalLane zones behaviour (diversifyResult e r) := by
  obtain ⟨own, hperm, hown⟩ := h.own
  obtain ⟨own', hperm', hown'⟩ := rankCandidates_final (penalize_final hown e)
  have hranks := rankCandidates_ranks (penalize e r.rankedCandidates)
  have hlength : (rankCandidates (penalize e r.rankedCandidates)).length =
      (penalize e r.rankedCandidates).length := by
    simp [rankCandidates, List.length_mergeSort]
  have hnonempty : rankCandidates (penalize e r.rankedCandidates) ≠ [] := by
    intro hnil
    rw [hnil] at hlength
    have hsame : (penalize e r.rankedCandidates).length = r.rankedCandidates.length := List.length_map _
    exact h.nonempty (List.length_eq_zero_iff.1 (hsame.symm.trans hlength.symm))
  obtain ⟨c, hc⟩ := Option.isSome_iff_exists.1 (List.isSome_head?.2 hnonempty)
  refine ⟨⟨own', hperm'.trans hperm, hown'⟩, h.valid, h.measured, ?_, hranks.2, c, hc, hc⟩
  show (rankCandidates (penalize e r.rankedCandidates)).map TypedResearchCandidate.rank =
    List.range' 1 (rankCandidates (penalize e r.rankedCandidates)).length
  rw [hlength]
  exact hranks.1

theorem mem_measuresOf {zones : ZoneDatabase} {clock : ℕ → ℤ}
    {pairs : List (TypedResearchSnapshot × ℕ)} {p : TypedResearchSnapshot × MeasuredCandidate} :
    p ∈ measuresOf zones clock pairs ↔
      ∃ k, (p.1, k) ∈ pairs ∧ typedFingerprint zones p.1 (clock k) = .ok p.2 := by
  obtain ⟨s, m⟩ := p
  simp only [measuresOf, List.mem_filterMap, Option.map_eq_some_iff, toOption_eq_some, Prod.mk.injEq]
  constructor
  · intro ⟨⟨t, k⟩, hmem, c, hc, ht, hm⟩
    subst ht hm
    exact ⟨k, hmem, hc⟩
  · intro ⟨k, hmem, hm⟩
    exact ⟨(s, k), hmem, m, hm, rfl, rfl⟩

/-- The measure of a symbol is one of an eligible snapshot with that symbol. -/
theorem FinalLane.mem_measures {zones : ZoneDatabase} {behaviour : LaneBehaviour}
    {r : ResearchLaneResult} (h : FinalLane zones behaviour r) {symbol : String} {m : MeasuredCandidate}
    (hm : (laneMeasured zones behaviour).get? symbol = some m) :
    ∃ p ∈ laneMeasures zones behaviour, p.1.listing.symbol = symbol ∧ p.2 = m := by
  rw [h.measured, Dict.get?_ofList_last] at hm
  have hmem := List.mem_reverse.1 (Dict.mem_of_lookup hm)
  obtain ⟨p, hp, heq⟩ := List.mem_map.1 hmem
  cases heq
  exact ⟨p, hp, rfl, rfl⟩

theorem FinalLane.base_scores {zones : ZoneDatabase} {behaviour : LaneBehaviour}
    {r : ResearchLaneResult} (h : FinalLane zones behaviour r) :
    AllScores (laneBase zones behaviour) := by
  intro symbol b hb
  rw [laneBase, Dict.get?_map] at hb
  obtain ⟨m, hm, rfl⟩ := Option.map_eq_some_iff.1 hb
  obtain ⟨p, hp, -, rfl⟩ := h.mem_measures hm
  obtain ⟨k, hk, hfingerprint⟩ := mem_measuresOf.1 hp
  exact (measured_within (h.valid _ (List.fst_mem_of_mem_zipIdx hk)) hfingerprint).1

/-- What the loop adds comes from passes over the requested lanes. -/
theorem loop_rows {zones : ZoneDatabase} {behaviour : ℕ → LaneBehaviour}
    {requests : List (ResearchLaneKey × ℕ)} {results results' : List ResearchLaneResult}
    (h : requests.foldlM (loopStep zones behaviour) results = .ok results') {r : ResearchLaneResult}
    (hr : r ∈ results') :
    r ∈ results ∨ ∃ request ∈ requests, ∃ o,
      runLane zones request.1 (behaviour request.2) = .ok o ∧ o.row = r := by
  induction requests generalizing results with
  | nil =>
    cases h
    exact .inl hr
  | cons request requests ih =>
    rw [List.foldlM_cons] at h
    obtain ⟨next, hstep, hrest⟩ := ok_of_bind h
    obtain ⟨o, ho, hnext⟩ := ok_of_bind hstep
    cases hnext
    rcases ih hrest with hr | ⟨request', hmem, hrow⟩
    · rw [addOutcome_eq] at hr
      split at hr
      · exact .inl hr
      · rcases List.mem_append.1 hr with hr | hr
        · exact .inl hr
        · exact .inr ⟨request, List.mem_cons_self, o, ho, (List.mem_singleton.1 hr).symm⟩
    · exact .inr ⟨request', List.mem_cons_of_mem _ hmem, hrow⟩

/-- **The ready results of a run are final lanes of its requests.** -/
theorem runMatrix_ready {zones : ZoneDatabase} {run run' : TypedResearchRun}
    {behaviour : ℕ → LaneBehaviour} (h : runMatrix zones run behaviour = .ok run')
    {r : ResearchLaneResult} (hr : r ∈ run'.laneResults) (hready : r.status = .ready) :
    ∃ i, run.requestedLanes[i]? = some r.lane ∧ FinalLane zones (behaviour i) r := by
  obtain ⟨results, hresults, hrun⟩ := ok_of_bind h
  cases hrun
  obtain ⟨j, hj⟩ := List.mem_iff_getElem?.1 hr
  have hinPlace := diversify_inPlace results
  have hbound : j < results.length := by
    rw [← hinPlace.length]
    exact (List.getElem?_eq_some_iff.1 hj).1
  obtain ⟨r', hr', hdiversified⟩ := hinPlace.each j _ (List.getElem?_eq_getElem hbound)
  rw [hj] at hr'
  cases hr'
  have hstatus : results[j].status = .ready := by
    rw [← hready, hdiversified.ranking]
  obtain ⟨e, he⟩ := diversify_ready (List.getElem?_eq_getElem hbound) hstatus
  rw [hj] at he
  cases he
  rcases loop_rows hresults (List.getElem_mem hbound) with hnil | ⟨⟨lane, i⟩, hmem, o, ho, hrow⟩
  · cases hnil
  · refine ⟨i, ?_, ?_⟩
    · rw [← List.mk_mem_zipIdx_iff_getElem?]
      have hlane : (diversifyResult e results[j]).lane = lane := by
        have hrowLane := (runLane_ok ho).1
        rw [hrow] at hrowLane
        exact hrowLane
      rw [hlane]
      exact hmem
    · rw [← hrow]
      refine (runLane_ready ho ?_).diversified e
      rw [hrow]
      exact hstatus

/-! ## Bounds -/

/-- The scores of a candidate: measured, adjusted, and final. -/
structure BoundedScore (base adjusted : Dict String ℚ) (c : TypedResearchCandidate) (b x : ℚ) :
    Prop where
  base : base.get? c.listing.symbol = some b
  adjusted : adjusted.get? c.listing.symbol = some x
  measured : Score b
  within : Score x ∧ |x - b| ≤ 15
  final : Score c.score
  lower : b - 30 - 1 / 20000 ≤ c.score
  upper : c.score ≤ b + 15 + 1 / 20000

theorem FinalLane.bounded {zones : ZoneDatabase} {behaviour : LaneBehaviour} {r : ResearchLaneResult}
    (h : FinalLane zones behaviour r) {c : TypedResearchCandidate} (hc : c ∈ r.rankedCandidates) :
    ∃ b x, BoundedScore (laneBase zones behaviour)
      (adjustedScores (laneBase zones behaviour) r.agentReviews) c b x := by
  obtain ⟨own, -, hown⟩ := h.own
  obtain ⟨s, -, hs⟩ := exists_left_of_mem hown hc
  obtain ⟨m, x, penalty, criterion, hm, hx, h0, h15, hscore, -, -⟩ := hs.measures
  have hbase := h.base_scores
  have hb : (laneBase zones behaviour).get? s.listing.symbol = some m.score := by
    rw [laneBase, Dict.get?_map, hm]
    rfl
  obtain ⟨hscored, hnear⟩ := adjustedScores_near hbase r.agentReviews
  have hmeasured := hbase _ _ hb
  have hadjusted := hscored.1 _ _ hx
  have hclose := hnear _ _ _ hb hx
  have hrounded := hadjusted.roundTo 4
  have herror := abs_roundTo_sub_le 4 x
  rw [abs_le] at herror
  obtain ⟨hlow, hhigh⟩ := abs_le.1 hclose
  norm_num at herror
  refine ⟨m.score, x, ⟨hs.listing ▸ hb, hs.listing ▸ hx, hmeasured, ⟨hadjusted, hclose⟩, ?_, ?_, ?_⟩⟩
  · rw [hscore]
    exact ⟨le_max_left _ _, max_le (by norm_num) (by linarith [hrounded.2])⟩
  · rw [hscore]
    refine le_trans ?_ (le_max_right _ _)
    linarith
  · rw [hscore]
    refine max_le ?_ ?_
    · linarith [hmeasured.1]
    · linarith

/-- The candidates of a ready lane are ranked by their scores. -/
structure RankedByScore (r : ResearchLaneResult) : Prop where
  ranks : r.rankedCandidates.map TypedResearchCandidate.rank = List.range' 1 r.rankedCandidates.length
  sorted : r.rankedCandidates.Pairwise fun c d => d.score ≤ c.score
  first : ∃ c, r.candidate = some c ∧ r.rankedCandidates.head? = some c

/-- **Scores are bounded, and ranks follow them**: measured scores are between 0 and 100; any responses,
in any order, leave the adjusted scores there and within 15 of the measured ones; and the candidates of
ready lanes have bounded final scores and are ranked by them. -/
theorem research_scores_bounded (zones : ZoneDatabase) :
    (∀ s now m, s.valid = true → typedFingerprint zones s now = .ok m → Score m.score) ∧
    (∀ base reviews, AllScores base → AllScores (adjustedScores base reviews) ∧
      Near base (adjustedScores base reviews)) ∧
    ∀ run behaviour run', runMatrix zones run behaviour = .ok run' → ∀ r ∈ run'.laneResults,
      r.status = .ready → RankedByScore r ∧ ∃ i, run.requestedLanes[i]? = some r.lane ∧
        ∀ c ∈ r.rankedCandidates, ∃ b x, BoundedScore (laneBase zones (behaviour i))
          (adjustedScores (laneBase zones (behaviour i)) r.agentReviews) c b x := by
  refine ⟨fun s now m hs hm => (measured_within hs hm).1, fun base reviews hbase => ?_, ?_⟩
  · obtain ⟨hscored, hnear⟩ := adjustedScores_near hbase reviews
    exact ⟨hscored.1, hnear⟩
  · intro run behaviour run' hrun r hr hready
    obtain ⟨i, hi, hfinal⟩ := runMatrix_ready hrun hr hready
    exact ⟨⟨hfinal.ranks, hfinal.sorted, hfinal.first⟩, i, hi, fun c hc => hfinal.bounded hc⟩

/-! ## A score that is rounded up -/

/-- Six decimals, of which four are kept. -/
def preciseSnapshot : TypedResearchSnapshot :=
  { risingSnapshot with
    ask := .finite (41 / 2)
    spreadVerified := true
    eventRisk := some (.finite (876544 / 1000000)) }

def praising : AgentResponse where
  evidence := .ok []
  scoreAdjustments := .mapping (Dict.ofList [("BTCUSD", .number (.finite 10))])
  decision := "PASS"

def praisedLane (items : List SnapshotItem) : LaneBehaviour where
  gather := .snapshots items
  clock := fun _ => 0
  agents := fun _ => .ok praising
  candidateId := fun k => ⟨k⟩

def preciseRun : Except RunError TypedResearchRun :=
  runMatrix zonesAtUtc (requestedRun [cryptoSpot]) fun _ => praisedLane [.fields preciseSnapshot]

theorem preciseRun_results : preciseRun.toOption.map (fun run => run.laneResults.map fun r =>
    (r.status, r.rankedCandidates.map TypedResearchCandidate.score)) =
      some [(.ready, [862346 / 10000])] := by
  decide +kernel

theorem preciseRun_ready : ∃ run' r, preciseRun = .ok run' ∧ r ∈ run'.laneResults ∧
    r.status = .ready ∧ r.rankedCandidates.map TypedResearchCandidate.score = [862346 / 10000] := by
  obtain ⟨run', hrun, hresults⟩ := Option.map_eq_some_iff.1 preciseRun_results
  have hmem : (LaneStatus.ready, [(862346 / 10000 : ℚ)]) ∈ run'.laneResults.map fun r =>
      (r.status, r.rankedCandidates.map TypedResearchCandidate.score) := by
    rw [hresults]
    exact List.mem_singleton_self _
  obtain ⟨r, hr, heq⟩ := List.mem_map.1 hmem
  obtain ⟨hready, hscores⟩ := Prod.mk.inj heq
  exact ⟨run', r, toOption_eq_some.1 hrun, hr, hready, hscores⟩

/-- The agents are allowed 15 points, and the lane's candidate has a little more. -/
theorem final_score_exceeds : ∃ run' r c, preciseRun = .ok run' ∧ r ∈ run'.laneResults ∧
    r.status = .ready ∧ c ∈ r.rankedCandidates ∧
    (typedFingerprint zonesAtUtc preciseSnapshot 0).toOption.map MeasuredCandidate.score =
      some (7123456 / 100000) ∧ ¬c.score ≤ 7123456 / 100000 + 15 := by
  obtain ⟨run', r, hrun, hr, hready, hscores⟩ := preciseRun_ready
  have hmem : (862346 / 10000 : ℚ) ∈ r.rankedCandidates.map TypedResearchCandidate.score := by
    rw [hscores]
    exact List.mem_singleton_self _
  obtain ⟨c, hc, hscore⟩ := List.mem_map.1 hmem
  refine ⟨run', r, c, hrun, hr, hready, hc, by decide +kernel, ?_⟩
  rw [hscore]
  norm_num

theorem research_scores_bounded_precise : ∃ run' r, preciseRun = .ok run' ∧ r ∈ run'.laneResults ∧
    RankedByScore r := by
  obtain ⟨run', r, hrun, hr, hready, -⟩ := preciseRun_ready
  have hbounded := (research_scores_bounded zonesAtUtc).2.2 _ _ _ hrun r hr hready
  exact ⟨run', r, hrun, hr, hbounded.1⟩

end Matrades

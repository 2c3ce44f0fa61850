import Matrades.Strategies.Proof.Grounded
import Matrades.Strategies.Screening

/-!
# Whose evidence a stored strategy has

The screen ranks results by the ids of hypotheses; the proposal is the first hypothesis with the selected id,
an alternative the last one with the id of its result. Whatever the backtests say, what is stored is backed
by its own backtest when every id is looked up to a specification that may stand for it
(`evidence_stays_iff`).
-/

namespace Matrades

open Base Schema

/-! ## Lookups -/

section
variable {hs : List StrategyHypothesis}

theorem lastWithId_mem {id : String} {u : StrategyHypothesis} (h : lastWithId hs id = some u) :
    u ∈ hs ∧ u.hypothesisId = id := by
  unfold lastWithId at h
  rw [Dict.get?_ofList_last, ← List.map_reverse] at h
  obtain ⟨v, hv, hsame⟩ := List.mem_map.1 (Dict.mem_of_lookup h)
  cases hsame
  exact ⟨List.mem_reverse.1 hv, rfl⟩

theorem exists_lastWithId {h : StrategyHypothesis} (hmem : h ∈ hs) :
    ∃ u, lastWithId hs h.hypothesisId = some u := by
  unfold lastWithId
  rw [Dict.get?_ofList_last, ← List.map_reverse]
  cases hlookup : (hs.reverse.map fun h => (h.hypothesisId, h)).lookup h.hypothesisId with
  | some u => exact ⟨u, rfl⟩
  | none =>
    have hentry := List.mem_map_of_mem (f := fun h => (h.hypothesisId, h)) (List.mem_reverse.2 hmem)
    exact absurd (List.lookup_eq_none_iff.1 hlookup _ hentry) (by simp)

theorem firstWithId_mem {id : String} {f : StrategyHypothesis} (h : firstWithId hs id = some f) :
    f ∈ hs ∧ f.hypothesisId = id := by
  have hid := List.find?_some h
  exact ⟨List.mem_of_find?_eq_some h, of_decide_eq_true hid⟩

theorem exists_firstWithId {h : StrategyHypothesis} (hmem : h ∈ hs) :
    ∃ f, firstWithId hs h.hypothesisId = some f := by
  have hsome : (firstWithId hs h.hypothesisId).isSome :=
    List.find?_isSome.2 ⟨h, hmem, decide_eq_true rfl⟩
  exact Option.isSome_iff_exists.1 hsome

/-! ## Ranked results -/

variable {run : Schema.StrategySpecification → ScreenBacktest}

theorem mem_rankedResults {results : List HypothesisScreenResult} {r : HypothesisScreenResult} :
    r ∈ rankedResults results ↔ r ∈ results := List.mem_insertionSort _

theorem rankedResults_sorted (results : List HypothesisScreenResult) :
    (rankedResults results).Pairwise fun a b => a.rank ≤ b.rank := by
  have : Std.Total fun a b : HypothesisScreenResult => a.rank ≤ b.rank := ⟨fun a b => le_total _ _⟩
  have : IsTrans HypothesisScreenResult fun a b => a.rank ≤ b.rank := ⟨fun _ _ _ => le_trans⟩
  exact List.pairwise_insertionSort _ _

theorem mem_results {r : HypothesisScreenResult} :
    r ∈ (screenHypotheses run hs).results ↔ ∃ h ∈ hs, screenResult run h = r := by
  show r ∈ (hs.insertionSort _).map (screenResult run) ↔ _
  simp only [List.mem_map, List.mem_insertionSort]

/-- The rank of a hypothesis by its own backtest. -/
def ownRank (run : Schema.StrategySpecification → ScreenBacktest) (h : StrategyHypothesis) :
    ℤ ×ₗ ℚ ×ₗ String := (screenResult run h).rank

/-- Does the hypothesis's own backtest qualify? -/
def Qualifies (run : Schema.StrategySpecification → ScreenBacktest) (h : StrategyHypothesis) : Prop :=
  (screenResult run h).eligible = true

theorem Qualifies.congr {h g : StrategyHypothesis} (hsame : g.specification = h.specification)
    (hh : Qualifies run h) : Qualifies run g := by
  unfold Qualifies screenResult at hh ⊢
  rw [hsame]
  exact hh

/-- Of two hypotheses with one specification the smaller id ranks first. -/
theorem ownRank_lt {h g : StrategyHypothesis} (hsame : g.specification = h.specification) :
    ownRank run g < ownRank run h ↔ g.hypothesisId < h.hypothesisId := by
  unfold ownRank HypothesisScreenResult.rank screenResult
  rw [hsame]
  simp [Prod.Lex.toLex_lt_toLex]

/-- The results that qualify, in the order of their ranks. -/
def eligibleResults (run : Schema.StrategySpecification → ScreenBacktest)
    (hs : List StrategyHypothesis) : List HypothesisScreenResult :=
  rankedResults ((screenHypotheses run hs).results.filter HypothesisScreenResult.eligible)

theorem selected_eq : (screenHypotheses run hs).selectedHypothesisId =
    (eligibleResults run hs).head?.map HypothesisScreenResult.hypothesisId := rfl

theorem mem_eligibleResults {r : HypothesisScreenResult} :
    r ∈ eligibleResults run hs ↔ ∃ h ∈ hs, Qualifies run h ∧ screenResult run h = r := by
  rw [eligibleResults, mem_rankedResults, List.mem_filter, mem_results]
  constructor
  · rintro ⟨⟨h, hmem, rfl⟩, heligible⟩
    exact ⟨h, hmem, heligible, rfl⟩
  · rintro ⟨h, hmem, heligible, rfl⟩
    exact ⟨⟨h, hmem, rfl⟩, heligible⟩

/-- The screen selects the id of the best hypothesis that qualifies. -/
theorem selected_spec {id : String}
    (h : (screenHypotheses run hs).selectedHypothesisId = some id) :
    ∃ b ∈ hs, b.hypothesisId = id ∧ Qualifies run b ∧
      ∀ g ∈ hs, Qualifies run g → ownRank run b ≤ ownRank run g := by
  rw [selected_eq] at h
  obtain ⟨r, hhead, rfl⟩ := Option.map_eq_some_iff.1 h
  obtain ⟨rest, hrest⟩ := List.head?_eq_some_iff.1 hhead
  have hsorted : (eligibleResults run hs).Pairwise fun a b => a.rank ≤ b.rank := rankedResults_sorted _
  obtain ⟨b, hb, hqualifies, rfl⟩ := mem_eligibleResults.1 (List.mem_of_head? hhead)
  refine ⟨b, hb, rfl, hqualifies, fun g hg hother => ?_⟩
  have hresult : screenResult run g ∈ eligibleResults run hs :=
    mem_eligibleResults.2 ⟨g, hg, hother, rfl⟩
  rw [hrest] at hresult hsorted
  rcases List.mem_cons.1 hresult with heq | hresult
  · exact le_of_eq (congrArg HypothesisScreenResult.rank heq.symm)
  · exact (List.pairwise_cons.1 hsorted).1 _ hresult

/-- Where a hypothesis qualifies, some id is selected. -/
theorem exists_selected {h : StrategyHypothesis} (hmem : h ∈ hs) (hqualifies : Qualifies run h) :
    ∃ id, (screenHypotheses run hs).selectedHypothesisId = some id := by
  have hresult : screenResult run h ∈ eligibleResults run hs :=
    mem_eligibleResults.2 ⟨h, hmem, hqualifies, rfl⟩
  rw [selected_eq]
  cases hhead : (eligibleResults run hs).head? with
  | some r => exact ⟨r.hypothesisId, rfl⟩
  | none =>
    rw [List.head?_eq_none_iff.1 hhead] at hresult
    cases hresult

/-! ## Alternatives -/

/-- The alternative of a result of the screen. -/
def alternativeAt (hs : List StrategyHypothesis) (r : HypothesisScreenResult) :
    Option StrategyHypothesis :=
  (lastWithId hs r.hypothesisId).filter fun u => r.eligible && (alternativeKey u.specification).isSome

theorem alternativeOf_ok {r : HypothesisScreenResult} (h : r ∈ (screenHypotheses run hs).results) :
    alternativeOf hs r = .ok (alternativeAt hs r) := by
  obtain ⟨g, hg, rfl⟩ := mem_results.1 h
  obtain ⟨u, hu⟩ := exists_lastWithId hg
  have hlast : lastWithId hs (screenResult run g).hypothesisId = some u := hu
  unfold alternativeOf alternativeAt
  rw [bind_ok_eq (orError_eq_ok.2 hlast), hlast]
  cases (screenResult run g).eligible <;> cases hkey : alternativeKey u.specification <;>
    simp [Option.filter, hkey] <;> rfl

/-- What is retained: of each key the alternative of the first result in the order of the ranks. -/
theorem retained_eq : retainFamilyAlternatives hs (screenHypotheses run hs) =
    .ok (Dict.firstByKey (fun h : StrategyHypothesis => alternativeKey h.specification)
      ((rankedResults (screenHypotheses run hs).results).filterMap (alternativeAt hs))) := by
  have halternatives (rs : List HypothesisScreenResult) :
      (rs.map (alternativeAt hs)).reduceOption = rs.filterMap (alternativeAt hs) :=
    List.filterMap_map
  unfold retainFamilyAlternatives
  rw [bind_ok_eq (mapM_eq_ok fun r hr => alternativeOf_ok (mem_rankedResults.1 hr)), halternatives]
  rfl

/-- The hypothesis that a result of `h` stands for, where it is retained for a key. -/
structure StandsFor (run : Schema.StrategySpecification → ScreenBacktest) (hs : List StrategyHypothesis)
    (h u : StrategyHypothesis) (key : StrategyFamily × TradeDirection) : Prop where
  mem : h ∈ hs
  last : lastWithId hs h.hypothesisId = some u
  qualifies : Qualifies run h
  key : alternativeKey u.specification = some key

theorem alternativeAt_eq_some {h u : StrategyHypothesis} (hmem : h ∈ hs) :
    alternativeAt hs (screenResult run h) = some u ↔ ∃ key, StandsFor run hs h u key := by
  unfold alternativeAt
  rw [Option.filter_eq_some_iff, Bool.and_eq_true, Option.isSome_iff_exists]
  constructor
  · rintro ⟨hlast, hqualifies, key, hkey⟩
    exact ⟨key, hmem, hlast, hqualifies, hkey⟩
  · rintro ⟨key, hstands⟩
    exact ⟨hstands.last, hstands.qualifies, key, hstands.key⟩

/-- A retained alternative stands for the best hypothesis that has an alternative of its key. -/
theorem retained_spec {kept : List StrategyHypothesis}
    (hkept : retainFamilyAlternatives hs (screenHypotheses run hs) = .ok kept) {a : StrategyHypothesis}
    (ha : a ∈ kept) : ∃ h key, StandsFor run hs h a key ∧
      ∀ g u, StandsFor run hs g u key → ownRank run h ≤ ownRank run g := by
  cases retained_eq.symm.trans hkept
  obtain ⟨r, hr, halternative, hleast⟩ := Dict.firstByKey_least
    (fun r : HypothesisScreenResult => le_refl r.rank) (rankedResults_sorted _) ha
  obtain ⟨h, hmem, rfl⟩ := mem_results.1 (mem_rankedResults.1 hr)
  obtain ⟨key, hstands⟩ := (alternativeAt_eq_some hmem).1 halternative
  refine ⟨h, key, hstands, fun g u hother => ?_⟩
  refine hleast (screenResult run g) ?_ u ((alternativeAt_eq_some hother.mem).2 ⟨key, hother⟩) ?_
  · exact mem_rankedResults.2 (mem_results.2 ⟨g, hother.mem, rfl⟩)
  · exact hother.key.trans hstands.key.symm

/-- Where a hypothesis has an alternative of a key, one is retained. -/
theorem exists_retained {kept : List StrategyHypothesis}
    (hkept : retainFamilyAlternatives hs (screenHypotheses run hs) = .ok kept)
    {h u : StrategyHypothesis} {key : StrategyFamily × TradeDirection}
    (hstands : StandsFor run hs h u key) :
    ∃ a ∈ kept, alternativeKey a.specification = some key := by
  cases retained_eq.symm.trans hkept
  have hresult : screenResult run h ∈ rankedResults (screenHypotheses run hs).results :=
    mem_rankedResults.2 (mem_results.2 ⟨h, hstands.mem, rfl⟩)
  have halternative := (alternativeAt_eq_some hstands.mem).2 ⟨key, hstands⟩
  have hlisted := List.mem_filterMap.2 ⟨_, hresult, halternative⟩
  obtain ⟨a, ha, hkey⟩ := @Dict.exists_firstByKey _ _ _ (fun h => alternativeKey h.specification) _ _ hlisted
  exact ⟨a, ha, hkey.trans hstands.key⟩

/-! ## Evidence -/

/-- What is stored qualifies by its own backtest, and no qualifying strategy of an alternative's family and
direction ranks above it. -/
structure EvidenceStays (run : Schema.StrategySpecification → ScreenBacktest)
    (hs : List StrategyHypothesis) : Prop where
  selected : ∃ proposal, selectedProposal hs (screenHypotheses run hs) = .ok proposal ∧
    ∀ h ∈ proposal, h ∈ hs ∧ Qualifies run h
  retained : ∃ kept, retainFamilyAlternatives hs (screenHypotheses run hs) = .ok kept ∧
    (kept.map fun a => alternativeKey a.specification).Nodup ∧
    ∀ a ∈ kept, a ∈ hs ∧ Qualifies run a ∧ ∃ key, alternativeKey a.specification = some key ∧
      ∀ g ∈ hs, Qualifies run g → alternativeKey g.specification = some key →
        ¬ownRank run g < ownRank run a

/-- May the last hypothesis `u` with the id of `h` be looked up for it? -/
def MayStandFor (hs : List StrategyHypothesis) (h u : StrategyHypothesis) : Prop :=
  u.specification = h.specification ∨
  (alternativeKey u.specification = none ∧ ∀ g ∈ hs, ∀ v, lastWithId hs g.hypothesisId = some v →
    alternativeKey v.specification ≠ none →
      alternativeKey v.specification ≠ alternativeKey h.specification) ∨
  ((alternativeKey u.specification = none ∨
      alternativeKey u.specification = alternativeKey h.specification) ∧
    ∃ w ∈ hs, w.specification = h.specification ∧ w.hypothesisId < h.hypothesisId ∧
      lastWithId hs w.hypothesisId = some w)

/-- Ids are looked up to specifications that may stand for those that have them. -/
structure IdsKeep (hs : List StrategyHypothesis) : Prop where
  /-- Of the hypotheses with one specification, the smallest id finds the specification. -/
  first : ∀ h ∈ hs, (∀ g ∈ hs, g.specification = h.specification → ¬g.hypothesisId < h.hypothesisId) →
    ∀ f, firstWithId hs h.hypothesisId = some f → f.specification = h.specification
  last : ∀ h ∈ hs, ∀ u, lastWithId hs h.hypothesisId = some u → MayStandFor hs h u

theorem selected_stays (hids : IdsKeep hs) :
    ∃ proposal, selectedProposal hs (screenHypotheses run hs) = .ok proposal ∧
      ∀ h ∈ proposal, h ∈ hs ∧ Qualifies run h := by
  unfold selectedProposal
  cases hselected : (screenHypotheses run hs).selectedHypothesisId with
  | none => exact ⟨none, rfl, fun h hmem => by cases hmem⟩
  | some id =>
    obtain ⟨b, hb, rfl, hqualifies, hbest⟩ := selected_spec hselected
    obtain ⟨f, hf⟩ := exists_firstWithId hb
    have hspec : f.specification = b.specification := hids.first b hb (fun g hg hsame hlt =>
      absurd (hbest g hg (hqualifies.congr hsame)) (not_le.2 ((ownRank_lt hsame).2 hlt))) f hf
    refine ⟨some f, ?_, fun h hmem => ?_⟩
    · dsimp only
      rw [orError_eq_ok.2 hf]
      rfl
    · cases hmem
      exact ⟨(firstWithId_mem hf).1, hqualifies.congr hspec⟩

/-- The alternative retained for a hypothesis has its specification. -/
theorem retained_specification (hids : IdsKeep hs) {h a : StrategyHypothesis}
    {key : StrategyFamily × TradeDirection} (hstands : StandsFor run hs h a key)
    (hleast : ∀ g u, StandsFor run hs g u key → ownRank run h ≤ ownRank run g) :
    a.specification = h.specification := by
  rcases hids.last h hstands.mem a hstands.last with hsame | ⟨hnone, _⟩ | ⟨hkey, w, hw, hsame, hlt, hlast⟩
  · exact hsame
  · rw [hstands.key] at hnone
    cases hnone
  · -- A hypothesis with the same specification and a smaller id would have been first.
    have hkeys : alternativeKey h.specification = some key := by
      rcases hkey with hkey | hkey
      · rw [hstands.key] at hkey
        cases hkey
      · exact hkey.symm.trans hstands.key
    have hother : StandsFor run hs w w key :=
      ⟨hw, hlast, hstands.qualifies.congr hsame, (congrArg alternativeKey hsame).trans hkeys⟩
    exact absurd (hleast w w hother) (not_le.2 ((ownRank_lt hsame).2 hlt))

theorem retained_stays (hids : IdsKeep hs) {kept : List StrategyHypothesis}
    (hkept : retainFamilyAlternatives hs (screenHypotheses run hs) = .ok kept) {a : StrategyHypothesis}
    (ha : a ∈ kept) : a ∈ hs ∧ Qualifies run a ∧ ∃ key, alternativeKey a.specification = some key ∧
      ∀ g ∈ hs, Qualifies run g → alternativeKey g.specification = some key →
        ¬ownRank run g < ownRank run a := by
  obtain ⟨h, key, hstands, hleast⟩ := retained_spec hkept ha
  have hsame := retained_specification hids hstands hleast
  obtain ⟨hmem, hid⟩ := lastWithId_mem hstands.last
  have hrank : ownRank run a = ownRank run h := by
    unfold ownRank HypothesisScreenResult.rank screenResult
    rw [hsame, hid]
  refine ⟨hmem, hstands.qualifies.congr hsame, key, hstands.key, fun g hg hqualifies hkey habove => ?_⟩
  rw [hrank] at habove
  obtain ⟨u, hu⟩ := exists_lastWithId hg
  by_cases hown : u.specification = g.specification
  · have hother : StandsFor run hs g u key :=
      ⟨hg, hu, hqualifies, (congrArg alternativeKey hown).trans hkey⟩
    exact absurd (hleast g u hother) (not_le.2 habove)
  rcases hids.last g hg u hu with hown' | ⟨_, hnever⟩ | ⟨_, w, hw, hsame', hlt, hlast⟩
  · exact hown hown'
  · refine hnever h hstands.mem a hstands.last ?_ (hstands.key.trans hkey.symm)
    rw [hstands.key]
    exact Option.some_ne_none _
  · have hother : StandsFor run hs w w key :=
      ⟨hw, hlast, hqualifies.congr hsame', (congrArg alternativeKey hsame').trans hkey⟩
    exact absurd (hleast w w hother) (not_le.2 (((ownRank_lt hsame').2 hlt).trans habove))

theorem IdsKeep.evidence_stays (hids : IdsKeep hs) (run : Schema.StrategySpecification → ScreenBacktest) :
    EvidenceStays run hs := by
  refine ⟨selected_stays hids, _, retained_eq, ?_, fun a => retained_stays hids retained_eq⟩
  apply List.Nodup.map_on
  · exact fun a ha b hb hkey => Dict.firstByKey_inj ha hb hkey
  · exact Dict.firstByKey_nodup _ _

end

/-! ## Backtests that tell ids apart -/

section
variable {hs : List StrategyHypothesis} {best second : Schema.StrategySpecification}

open Classical in
/-- Only two specifications qualify, and the first ranks above the second. -/
noncomputable def preferring (best second s : Schema.StrategySpecification) : ScreenBacktest :=
  if s = best then ⟨1, 1, 1, Dict.empty⟩
  else if s = second then ⟨1, 1, 0, Dict.empty⟩
  else ⟨0, 0, 0, Dict.empty⟩

theorem qualifies_preferring {h : StrategyHypothesis} : Qualifies (preferring best second) h ↔
    h.specification = best ∨ h.specification = second := by
  unfold Qualifies screenResult preferring
  dsimp only
  split
  · rename_i hbest
    simp [ScreenBacktest.reasons, hbest]
  · rename_i hbest
    split
    · rename_i hsecond
      simp [ScreenBacktest.reasons, hsecond]
    · rename_i hsecond
      simp [ScreenBacktest.reasons, hbest, hsecond]

/-- What has the best specification ranks above what has not. -/
theorem ownRank_preferring {h g : StrategyHypothesis} (hh : h.specification = best)
    (hg : g.specification ≠ best) :
    ownRank (preferring best second) h < ownRank (preferring best second) g := by
  have hscore : (preferring best second g.specification).r = 0 := by
    unfold preferring
    rw [if_neg hg]
    split <;> rfl
  have hbest : preferring best second h.specification = ⟨1, 1, 1, Dict.empty⟩ := if_pos hh
  have hgates : (preferring best second g.specification).gates = Dict.empty := by
    unfold preferring
    rw [if_neg hg]
    split <;> rfl
  unfold ownRank HypothesisScreenResult.rank screenResult
  dsimp only
  rw [hbest, hscore, hgates, Prod.Lex.toLex_lt_toLex, Prod.Lex.toLex_lt_toLex]
  exact .inr ⟨rfl, .inl (by norm_num)⟩

/-- The smallest id of a specification is selected where nothing else qualifies. -/
theorem IdsKeep.first_of_evidence (hstays : ∀ run, EvidenceStays run hs) {h : StrategyHypothesis}
    (hmem : h ∈ hs)
    (hsmallest : ∀ g ∈ hs, g.specification = h.specification → ¬g.hypothesisId < h.hypothesisId)
    {f : StrategyHypothesis} (hf : firstWithId hs h.hypothesisId = some f) :
    f.specification = h.specification := by
  have honly := @qualifies_preferring h.specification h.specification
  obtain ⟨id, hid⟩ := exists_selected hmem (honly.2 (.inl rfl))
  obtain ⟨b, hb, hsame, hqualifies, hbest⟩ := selected_spec hid
  have hspec : b.specification = h.specification := or_self_iff.1 (honly.1 hqualifies)
  have hle := hbest h hmem (honly.2 (.inl rfl))
  have hids : id = h.hypothesisId := by
    rw [← hsame]
    refine le_antisymm (not_lt.1 fun hlt => ?_) (not_lt.1 (hsmallest b hb hspec))
    exact absurd hle (not_le.2 ((ownRank_lt hspec.symm).2 hlt))
  obtain ⟨proposal, hproposal, hown⟩ := (hstays (preferring h.specification h.specification)).selected
  unfold selectedProposal at hproposal
  rw [hid] at hproposal
  dsimp only at hproposal
  rw [hids, orError_eq_ok.2 hf] at hproposal
  cases hproposal
  exact or_self_iff.1 (honly.1 (hown f rfl).2)

/-- A hypothesis whose key is retained for has a hypothesis of its specification and of no larger id that is
looked up to itself. -/
theorem exists_retained_best (hstays : ∀ run, EvidenceStays run hs) {h g v : StrategyHypothesis}
    (hmem : h ∈ hs) (hg : g ∈ hs) (hv : lastWithId hs g.hypothesisId = some v)
    {key : StrategyFamily × TradeDirection} (hkey : alternativeKey v.specification = some key) :
    ∃ a ∈ hs, lastWithId hs a.hypothesisId = some a ∧ alternativeKey a.specification = some key ∧
      (a.specification = h.specification ∨ a.specification = g.specification) ∧
      (alternativeKey h.specification = some key →
        a.specification = h.specification ∧ a.hypothesisId ≤ h.hypothesisId) := by
  have honly := @qualifies_preferring h.specification g.specification
  obtain ⟨kept, hkept, _, hown⟩ := (hstays (preferring h.specification g.specification)).retained
  obtain ⟨a, ha, hakey⟩ := exists_retained hkept ⟨hg, hv, honly.2 (.inr rfl), hkey⟩
  obtain ⟨hmem', hqualifies, key', hkey', habove⟩ := hown a ha
  cases hakey.symm.trans hkey'
  obtain ⟨h₁, _, hstands, _⟩ := retained_spec hkept ha
  have hlast := hstands.last
  rw [← (lastWithId_mem hlast).2] at hlast
  refine ⟨a, hmem', hlast, hakey, honly.1 hqualifies, fun hkeys => ?_⟩
  have hbelow := habove h hmem (honly.2 (.inl rfl)) hkeys
  have hspec : a.specification = h.specification := by
    by_contra hnot
    exact hbelow (ownRank_preferring rfl hnot)
  exact ⟨hspec, not_lt.1 fun hlt => hbelow ((ownRank_lt hspec.symm).2 hlt)⟩

theorem IdsKeep.last_of_evidence (hstays : ∀ run, EvidenceStays run hs) {h u : StrategyHypothesis}
    (hmem : h ∈ hs) (hu : lastWithId hs h.hypothesisId = some u) : MayStandFor hs h u := by
  by_cases hspec : u.specification = h.specification
  · exact .inl hspec
  -- What is looked up to itself has another id than what is looked up to another specification.
  have hsmaller : ∀ a, lastWithId hs a.hypothesisId = some a → a.specification = h.specification →
      a.hypothesisId ≤ h.hypothesisId → a.hypothesisId < h.hypothesisId := by
    intro a hlast hsame hle
    refine lt_of_le_of_ne hle fun heq => hspec ?_
    rw [heq, hu] at hlast
    cases hlast
    exact hsame
  cases hkey : alternativeKey u.specification with
  | some key =>
    obtain ⟨a, ha, hlast, hakey, hsame, hle⟩ := exists_retained_best hstays hmem hmem hu hkey
    have hown : a.specification = h.specification := or_self_iff.1 hsame
    have hkeys : alternativeKey h.specification = some key := by rw [← hown, hakey]
    exact .inr (.inr ⟨.inr (hkey.trans hkeys.symm), a, ha, hown,
      hsmaller a hlast hown (hle hkeys).2, hlast⟩)
  | none =>
    by_cases hnever : ∀ g ∈ hs, ∀ v, lastWithId hs g.hypothesisId = some v →
        alternativeKey v.specification ≠ none →
          alternativeKey v.specification ≠ alternativeKey h.specification
    · exact .inr (.inl ⟨hkey, hnever⟩)
    · push Not at hnever
      obtain ⟨g, hg, v, hv, hsome, hkeys⟩ := hnever
      obtain ⟨key, hvkey⟩ := Option.ne_none_iff_exists'.1 hsome
      obtain ⟨a, ha, hlast, _, _, hle⟩ := exists_retained_best hstays hmem hg hv hvkey
      obtain ⟨hown, hle⟩ := hle (hkeys.symm.trans hvkey)
      exact .inr (.inr ⟨.inl hkey, a, ha, hown, hsmaller a hlast hown hle, hlast⟩)

theorem ids_keep (hstays : ∀ run, EvidenceStays run hs) : IdsKeep hs where
  first _ hmem hsmallest _ hf := IdsKeep.first_of_evidence hstays hmem hsmallest hf
  last _ hmem _ hu := IdsKeep.last_of_evidence hstays hmem hu

/-- **Screening evidence stays with its hypothesis, whatever the backtests say, exactly when ids are looked up
to specifications that may stand for those that have them.** -/
theorem evidence_stays_iff (hs : List StrategyHypothesis) :
    (∀ run, EvidenceStays run hs) ↔ IdsKeep hs :=
  ⟨ids_keep, fun hids run => hids.evidence_stays run⟩

end

/-! ## Ids of a research run -/

theorem IdsKeep.of_nodup {hs : List StrategyHypothesis}
    (hnodup : (hs.map StrategyHypothesis.hypothesisId).Nodup) : IdsKeep hs := by
  have hinj := List.inj_on_of_nodup_map hnodup
  refine ⟨fun h hmem _ f hf => ?_, fun h hmem u hu => .inl ?_⟩
  · obtain ⟨hfmem, hid⟩ := firstWithId_mem hf
    rw [hinj hfmem hmem hid]
  · obtain ⟨humem, hid⟩ := lastWithId_mem hu
    rw [hinj humem hmem hid]

/-- The ids of the baselines. -/
def baselineIds : List String :=
  directedBaselines.map fun (direction, baseline) => baselineId baseline.family direction

theorem cfdFamilyHypotheses_ids {prototype : Schema.StrategySpecification} {ref : String}
    {baselines : List StrategyHypothesis} (h : cfdFamilyHypotheses prototype ref = .ok baselines) :
    baselines.map StrategyHypothesis.hypothesisId = [] ∨
      baselines.map StrategyHypothesis.hypothesisId = baselineIds := by
  unfold cfdFamilyHypotheses at h
  split at h
  · cases h
    exact .inl rfl
  · right
    have hall := ok_of_mapM h
    clear h
    unfold baselineIds
    generalize directedBaselines = directed at hall ⊢
    induction hall with
    | nil => rfl
    | cons hone _ ih =>
      obtain ⟨_, _, hone⟩ := ok_of_bind hone
      cases hone
      rw [List.map_cons, List.map_cons, ih]

/-- The id a swept hypothesis has. -/
def SweptId (id swept : String) : Prop := swept = id ∨ swept = id ++ "_QUANT"

theorem parameterSweep_ids_nodup {selected : ℕ → Option Schema.StrategySpecification}
    {hs : List StrategyHypothesis} (hnodup : (hs.map StrategyHypothesis.hypothesisId).Nodup)
    (hapart : ∀ x ∈ hs, ∀ y ∈ hs, x.hypothesisId ≠ y.hypothesisId ++ "_QUANT") :
    ((parameterSweep selected hs).map StrategyHypothesis.hypothesisId).Nodup := by
  have hswept : ∀ (index : ℕ) (h : StrategyHypothesis),
      SweptId h.hypothesisId ((selected index).elim h (quantVariant h)).hypothesisId := by
    intro index h
    cases selected index with
    | none => exact .inl rfl
    | some variant => exact .inr rfl
  unfold parameterSweep
  rw [List.nodup_iff_pairwise_ne, List.pairwise_iff_getElem] at hnodup ⊢
  simp only [List.length_map, List.length_mapIdx, List.getElem_map, List.getElem_mapIdx] at hnodup ⊢
  intro i j hi hj hij heq
  have hdistinct := hnodup i j hi hj hij
  rcases hswept i hs[i] with hfirst | hfirst <;> rcases hswept j hs[j] with hlater | hlater <;>
    rw [hfirst, hlater] at heq
  · exact hdistinct heq
  · exact hapart _ (List.getElem_mem _) _ (List.getElem_mem _) heq
  · exact hapart _ (List.getElem_mem _) _ (List.getElem_mem _) heq.symm
  · exact hdistinct (String.append_left_inj _ |>.1 heq)

/-- Ids of the agent that are no baseline's, and of which none is another with the ending of a variant. -/
theorem screenedHypotheses_keep {ref : String} {selected : ℕ → Option Schema.StrategySpecification}
    {generated hs : List StrategyHypothesis} (h : screenedHypotheses ref selected generated = .ok hs)
    (hnodup : (generated.map StrategyHypothesis.hypothesisId).Nodup)
    (hbaselines : ∀ g ∈ generated, g.hypothesisId ∉ baselineIds)
    (hvariants : ∀ x ∈ generated.map StrategyHypothesis.hypothesisId ++ baselineIds,
      ∀ y ∈ generated.map StrategyHypothesis.hypothesisId ++ baselineIds, x ≠ y ++ "_QUANT") :
    IdsKeep hs := by
  apply IdsKeep.of_nodup
  cases generated with
  | nil =>
    cases h
    exact List.nodup_nil
  | cons first rest =>
    obtain ⟨baselines, hbase, h⟩ := ok_of_bind h
    cases h
    have hsub : ∀ x ∈ (first :: rest) ++ baselines, x.hypothesisId ∈
        (first :: rest).map StrategyHypothesis.hypothesisId ++ baselineIds := by
      intro x hx
      rcases List.mem_append.1 hx with hx | hx
      · exact List.mem_append_left _ (List.mem_map_of_mem hx)
      · have hid := List.mem_map_of_mem (f := StrategyHypothesis.hypothesisId) hx
        rcases cfdFamilyHypotheses_ids hbase with hids | hids
        · rw [hids] at hid
          cases hid
        · exact List.mem_append_right _ (hids ▸ hid)
    apply parameterSweep_ids_nodup
    · rw [List.map_append]
      rcases cfdFamilyHypotheses_ids hbase with hids | hids
      · rw [hids, List.append_nil]
        exact hnodup
      · rw [hids]
        refine List.nodup_append.2 ⟨hnodup, by decide, ?_⟩
        intro a ha b hb hab
        obtain ⟨g, hg, rfl⟩ := List.mem_map.1 ha
        exact hbaselines g hg (hab ▸ hb)
    · exact fun x hx y hy => hvariants _ (hsub x hx) _ (hsub y hy)

/-! ## An id of a baseline -/

/-- The agent's hypotheses, the first with the id of a baseline. -/
def namesakeHypotheses : Except String (List StrategyHypothesis) := do
  let generated ← trendHypotheses trendStrategy ["BASELINE_TREND_LONG", "H2", "H3"]
  screenedHypotheses "HISTORY" (fun _ => none) generated

/-- Is there a hypothesis of a name of its own, while the first with its id has another name? -/
def misnamed (hs : List StrategyHypothesis) : Bool :=
  hs.any fun h => (hs.filter fun g => g.specification.1.name = h.specification.1.name).length = 1 &&
    (firstWithId hs h.hypothesisId).any fun f => f.specification.1.name ≠ h.specification.1.name

theorem baseline_id_taken : ∃ generated hs,
    trendHypotheses trendStrategy ["BASELINE_TREND_LONG", "H2", "H3"] = .ok generated ∧
      screenedHypotheses "HISTORY" (fun _ => none) generated = .ok hs ∧
      ∃ run, ¬EvidenceStays run hs := by
  have hany : namesakeHypotheses.toOption.any misnamed = true := by decide +kernel
  obtain ⟨hs, hok, hmisnamed⟩ := (Option.any_eq_true _ _).1 hany
  obtain ⟨generated, hgenerated, hscreened⟩ := ok_of_bind (toOption_eq_some.1 hok)
  refine ⟨generated, hs, hgenerated, hscreened, ?_⟩
  by_contra hstays
  push Not at hstays
  have hids := ids_keep hstays
  obtain ⟨h, hmem, hh⟩ := List.any_eq_true.1 hmisnamed
  rw [Bool.and_eq_true, decide_eq_true_eq, Option.any_eq_true] at hh
  obtain ⟨hone, f, hf, hname⟩ := hh
  obtain ⟨only, honly⟩ := List.length_eq_one_iff.1 hone
  have hsingle : ∀ g ∈ hs, g.specification = h.specification → g = only := by
    intro g hg hsame
    have hmem' : g ∈ hs.filter fun g => g.specification.1.name = h.specification.1.name :=
      List.mem_filter.2 ⟨hg, decide_eq_true (by rw [hsame])⟩
    rw [honly] at hmem'
    exact List.mem_singleton.1 hmem'
  have hspec := hids.first h hmem (fun g hg hsame hlt => by
    rw [hsingle g hg hsame, ← hsingle h hmem rfl] at hlt
    exact lt_irrefl _ hlt) f hf
  exact of_decide_eq_true hname (by rw [hspec])

end Matrades

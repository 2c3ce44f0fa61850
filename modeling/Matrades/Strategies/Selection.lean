import Mathlib.Algebra.Order.Ring.Rat
import Mathlib.Data.Prod.Lex
import Mathlib.Data.String.Basic
import Matrades.Base.Ranked
import Matrades.Strategies.Hypotheses

/-!
# Selection of a strategy

`select_strategy` of `modules/strategies/performance.py`. A candidate carries the entries of its dictionary
that the selection reads; averages are exact.

The ranking ends with the version's id, so entries of one rank have one id: the selected id depends on the
set of eligible entries alone (`selected_of_subset`). The list of eligible entries depends on the order of
the candidates exactly when two entries of one rank differ, in their trade counts (`sameEligible_iff`).
-/

namespace Matrades

open Base

/-! ## Selection of a strategy -/

/-- `FORMAL_GATES` -/
def formalGates : List String :=
  ["backtest", "out_of_sample", "walk_forward", "stress", "policy", "parameter_sensitivity", "cost_stress"]

/-- `MIN_REGIME_TRADES` -/
def minRegimeTrades : ℤ := 10

/-- The statistics of trades that a candidate was given, as far as they are there. -/
structure PerformanceSample where
  tradeCount : Option ℤ := none
  averageR : Option ℚ := none
  deriving DecidableEq

/-- A candidate strategy. `authority` holds its entries under the keys of a scope. -/
structure StrategyCandidate where
  strategyVersionId : String
  authority : Dict String String
  state : Option String
  validationEvidence : Dict String Json := .empty
  regimePerformance : Dict String PerformanceSample := .empty
  health : Dict String Json := .empty
  recent : PerformanceSample := {}
  artifactHash : Option String := none
  performanceArtifactHash : Option String := none

def scopeKeys : List String :=
  ["account_id", "instrument", "timeframe", "connection_id", "venue_instrument_id",
    "specification_version_id"]

/-- An eligible strategy in the answer. -/
structure EligibleStrategy where
  strategyVersionId : String
  recentAverageR : ℚ
  historicalAverageR : ℚ
  historicalTradeCount : ℤ
  deriving DecidableEq

/-- The declared ranking: recent performance, historical performance, then the version's id. -/
def EligibleStrategy.rank (e : EligibleStrategy) : ℚ ×ₗ ℚ ×ₗ String :=
  toLex (-e.recentAverageR, toLex (-e.historicalAverageR, e.strategyVersionId))

structure RejectedStrategy where
  strategyVersionId : String
  reasons : List String
  deriving DecidableEq

structure StrategySelection where
  selectedVersionId : Option String
  regime : String
  eligible : List EligibleStrategy
  rejected : List RejectedStrategy
  minimumRegimeTrades : ℤ := minRegimeTrades
  executionAuthorized : Bool := false

/-- Enough trades and a positive average? -/
def PerformanceSample.positive (s : PerformanceSample) (trades : ℤ) : Bool :=
  decide (trades ≤ s.tradeCount.getD 0) && decide (0 < s.averageR.getD 0)

/-- `value is True` -/
def isTrue : Json → Bool
  | .bool true => true
  | _ => false

section
variable (scope : Dict String String) (regime : String)

/-- Does the candidate stand under the scope, which has a value under every key? -/
def withinScope (c : StrategyCandidate) : Bool :=
  scopeKeys.all fun key => (scope.get? key).getD "" ≠ "" && c.authority.get? key = scope.get? key

/-- `candidate.get("regime_performance", {}).get(regime, {})` -/
def regimeSample (c : StrategyCandidate) : PerformanceSample := (c.regimePerformance.get? regime).getD {}

/-- Why a candidate is not eligible. -/
def rejectionReasons (c : StrategyCandidate) : List String :=
  (if withinScope scope c then [] else ["Provider/account/instrument/timeframe authority does not match"]) ++
  (if c.state = some "ACTIVE" then [] else ["Strategy is not active"]) ++
  (if (formalGates ++ ["paper", "paper_forward"]).all fun gate => truthy (c.validationEvidence.get? gate)
    then [] else ["Formal robustness and forward paper gates are incomplete"]) ++
  (if isTrue ((c.validationEvidence.get? "event_driven_execution").getD (.bool true)) then []
    else ["Native event-driven execution validation did not pass"]) ++
  (if (regimeSample regime c).positive minRegimeTrades then []
    else ["Insufficient positive historical evidence for the current regime"]) ++
  (if truthy (c.health.get? "suspend") then ["Recorded recent performance has degraded"] else []) ++
  (if c.recent.positive 10 then [] else ["Insufficient positive forward performance"]) ++
  if c.artifactHash.getD "" ≠ "" ∧ c.performanceArtifactHash = c.artifactHash then []
    else ["Performance does not match the immutable implementation"]

/-- The entry of an eligible candidate. -/
def eligibleEntry (c : StrategyCandidate) : Option EligibleStrategy :=
  if rejectionReasons scope regime c = [] then
    some
      { strategyVersionId := c.strategyVersionId
        recentAverageR := c.recent.averageR.getD 0
        historicalAverageR := (regimeSample regime c).averageR.getD 0
        historicalTradeCount := (regimeSample regime c).tradeCount.getD 0 }
  else none

def rejectedEntry (c : StrategyCandidate) : Option RejectedStrategy :=
  let reasons := rejectionReasons scope regime c
  if reasons = [] then none else some ⟨c.strategyVersionId, reasons⟩

/-- `select_strategy` -/
def selectStrategy (candidates : List StrategyCandidate) : StrategySelection :=
  let eligible := ranked EligibleStrategy.rank (candidates.filterMap (eligibleEntry scope regime))
  { selectedVersionId := eligible.head?.map fun e => e.strategyVersionId
    regime
    eligible
    rejected := candidates.filterMap (rejectedEntry scope regime) }

end

/-! ## Selection by content -/

section
variable {scope : Dict String String} {regime : String} {l l' : List StrategyCandidate}

theorem mem_eligible {e : EligibleStrategy} : e ∈ (selectStrategy scope regime l).eligible ↔
    ∃ c ∈ l, eligibleEntry scope regime c = some e := by
  show e ∈ ranked _ _ ↔ _
  rw [mem_ranked, List.mem_filterMap]

/-- Entries of one rank have one id. -/
theorem strategyVersionId_of_rank {e f : EligibleStrategy} (h : e.rank = f.rank) :
    e.strategyVersionId = f.strategyVersionId :=
  congrArg (fun rank => (ofLex (ofLex rank).2).2) h

theorem eligibleEntry_id {c : StrategyCandidate} {e : EligibleStrategy}
    (h : eligibleEntry scope regime c = some e) : e.strategyVersionId = c.strategyVersionId := by
  unfold eligibleEntry at h
  split at h
  · cases h
    rfl
  · cases h

/-- The eligible entry that stands first. -/
def topEntry (scope : Dict String String) (regime : String) (l : List StrategyCandidate) :
    Option EligibleStrategy := (selectStrategy scope regime l).eligible.head?

theorem topEntry_eq : topEntry scope regime l =
    least EligibleStrategy.rank (l.filterMap (eligibleEntry scope regime)) := rfl

theorem selectedVersionId_eq : (selectStrategy scope regime l).selectedVersionId =
    (topEntry scope regime l).map fun e => e.strategyVersionId := rfl

theorem topEntry_eq_none : topEntry scope regime l = none ↔
    ∀ c ∈ l, eligibleEntry scope regime c = none := by
  rw [topEntry_eq, least_eq_none, List.filterMap_eq_nil_iff]

/-- What stands first is an eligible candidate's, and none ranks above it. -/
theorem topEntry_some {top : EligibleStrategy} (h : topEntry scope regime l = some top) :
    (∃ c ∈ l, eligibleEntry scope regime c = some top) ∧
      ∀ c ∈ l, ∀ e, eligibleEntry scope regime c = some e → top.rank ≤ e.rank := by
  rw [topEntry_eq] at h
  refine ⟨List.mem_filterMap.1 (least_mem h), fun c hc e he => ?_⟩
  exact least_le h (List.mem_filterMap.2 ⟨c, hc, he⟩)

/-! ## Other lists of candidates -/

/-- The selected candidate, if there is one, is still there. -/
def KeepsSelected (scope : Dict String String) (regime : String) (l l' : List StrategyCandidate) : Prop :=
  ∀ top, topEntry scope regime l = some top → ∃ c ∈ l', eligibleEntry scope regime c = some top

theorem selected_of_subset (hsub : ∀ c ∈ l', c ∈ l) (hkeep : KeepsSelected scope regime l l') :
    (selectStrategy scope regime l').selectedVersionId =
      (selectStrategy scope regime l).selectedVersionId := by
  rw [selectedVersionId_eq, selectedVersionId_eq]
  cases htop : topEntry scope regime l with
  | none =>
    have hnone : topEntry scope regime l' = none :=
      topEntry_eq_none.2 fun c hc => topEntry_eq_none.1 htop c (hsub c hc)
    rw [hnone]
  | some top =>
    obtain ⟨c, hc, hentry⟩ := hkeep top htop
    cases htop' : topEntry scope regime l' with
    | none =>
      rw [topEntry_eq_none.1 htop' c hc] at hentry
      cases hentry
    | some top' =>
      obtain ⟨⟨d, hd, hdentry⟩, hleast⟩ := topEntry_some htop'
      have hle : top.rank ≤ top'.rank := (topEntry_some htop).2 d (hsub d hd) top' hdentry
      have hge : top'.rank ≤ top.rank := hleast c hc top hentry
      exact congrArg some (strategyVersionId_of_rank (le_antisymm hge hle))

theorem keepsSelected_perm (hperm : l.Perm l') : KeepsSelected scope regime l l' := by
  intro top htop
  obtain ⟨c, hc, hentry⟩ := (topEntry_some htop).1
  exact ⟨c, hperm.mem_iff.1 hc, hentry⟩

theorem eligible_perm (hperm : l.Perm l') :
    ((selectStrategy scope regime l').eligible).Perm (selectStrategy scope regime l).eligible := by
  have hentries := hperm.symm.filterMap (eligibleEntry scope regime)
  exact ((ranked_permutes _ _).trans hentries).trans (ranked_permutes _ _).symm

/-! ## The list of eligible entries -/

/-- No permutation changes the list of eligible entries. -/
def SameEligible (scope : Dict String String) (regime : String) (l : List StrategyCandidate) : Prop :=
  ∀ l', l.Perm l' → (selectStrategy scope regime l').eligible = (selectStrategy scope regime l).eligible

/-- Eligible candidates of one rank have the same entry. -/
def RankDetermines (scope : Dict String String) (regime : String) (l : List StrategyCandidate) : Prop :=
  ∀ a ∈ l, ∀ b ∈ l, ∀ e f, eligibleEntry scope regime a = some e → eligibleEntry scope regime b = some f →
    e.rank = f.rank → e = f

theorem sameEligible_of (h : RankDetermines scope regime l) : SameEligible scope regime l := by
  intro l' hperm
  refine (ranked_perm (hperm.filterMap _) fun e he f hf hrank => ?_).symm
  obtain ⟨a, ha, hae⟩ := List.mem_filterMap.1 he
  obtain ⟨b, hb, hbf⟩ := List.mem_filterMap.1 hf
  exact h a ha b hb e f hae hbf hrank

theorem eligible_filter (k : ℚ ×ₗ ℚ ×ₗ String) :
    (selectStrategy scope regime l).eligible.filter (fun e => e.rank = k) =
      (l.filterMap (eligibleEntry scope regime)).filter fun e => e.rank = k :=
  filter_ranked k _

/-- Swapping two candidates of one rank swaps their entries. -/
theorem rankDetermines_of (h : SameEligible scope regime l) : RankDetermines scope regime l := by
  intro a ha b hb e f hae hbf hrank
  by_cases hab : a = b
  · subst hab
    exact Option.some.inj (hae.symm.trans hbf)
  · obtain ⟨rest, hrest⟩ : ∃ rest, l.Perm (a :: b :: rest) := by
      obtain ⟨front, back, rfl⟩ := List.append_of_mem ha
      have hb' : b ∈ front ++ back := by
        rcases List.mem_cons.1 (List.perm_middle.mem_iff.1 hb) with heq | hmem
        · exact absurd heq.symm hab
        · exact hmem
      obtain ⟨front', back', hsplit⟩ := List.append_of_mem hb'
      refine ⟨front' ++ back', List.perm_middle.trans (List.Perm.cons a ?_)⟩
      rw [hsplit]
      exact List.perm_middle
    have hsame := (h _ hrest).trans (h _ (hrest.trans (List.Perm.swap b a rest))).symm
    have hfilter := congrArg (List.filter fun g : EligibleStrategy => g.rank = f.rank) hsame
    rw [eligible_filter, eligible_filter] at hfilter
    simp only [List.filterMap_cons, hae, hbf, List.filter_cons, hrank, decide_true, if_true] at hfilter
    exact (List.cons.inj hfilter).1

theorem sameEligible_iff : SameEligible scope regime l ↔ RankDetermines scope regime l :=
  ⟨rankDetermines_of, sameEligible_of⟩

/-! ## The selection -/

/-- The selection depends on what the candidates are and takes the best. -/
structure SelectsBest (scope : Dict String String) (regime : String) (l : List StrategyCandidate) : Prop where
  permuted : ∀ l', l.Perm l' → (selectStrategy scope regime l').selectedVersionId =
    (selectStrategy scope regime l).selectedVersionId
  removed : ∀ l', (∀ c ∈ l', c ∈ l) → KeepsSelected scope regime l l' →
    (selectStrategy scope regime l').selectedVersionId = (selectStrategy scope regime l).selectedVersionId
  best : ∀ id, (selectStrategy scope regime l).selectedVersionId = some id →
    ∃ c ∈ l, ∃ e, c.strategyVersionId = id ∧ eligibleEntry scope regime c = some e ∧
      ∀ d ∈ l, ∀ f, eligibleEntry scope regime d = some f → e.rank ≤ f.rank
  none : (selectStrategy scope regime l).selectedVersionId = none ↔
    ∀ c ∈ l, eligibleEntry scope regime c = none

theorem selectsBest (scope : Dict String String) (regime : String) (l : List StrategyCandidate) :
    SelectsBest scope regime l where
  permuted := fun _ hperm => selected_of_subset (fun _ hc => hperm.mem_iff.2 hc) (keepsSelected_perm hperm)
  removed := fun _ hsub hkeep => selected_of_subset hsub hkeep
  best := by
    intro id hid
    rw [selectedVersionId_eq] at hid
    obtain ⟨top, htop, rfl⟩ := Option.map_eq_some_iff.1 hid
    obtain ⟨⟨c, hc, hentry⟩, hleast⟩ := topEntry_some htop
    exact ⟨c, hc, top, (eligibleEntry_id hentry).symm, hentry, hleast⟩
  none := by
    rw [selectedVersionId_eq, Option.map_eq_none_iff, topEntry_eq_none]

/-- **Selection by content.** The selected strategy does not depend on the order of the candidates or on
the other ones, and is the best; the eligible list keeps its entries, and keeps their order under every
permutation exactly when candidates of one rank have the same entry. -/
theorem selection_by_content (scope : Dict String String) (regime : String) (l : List StrategyCandidate) :
    SelectsBest scope regime l ∧
      (∀ l', l.Perm l' → ((selectStrategy scope regime l').eligible).Perm
        (selectStrategy scope regime l).eligible) ∧
      (SameEligible scope regime l ↔ RankDetermines scope regime l) :=
  ⟨selectsBest scope regime l, fun _ hperm => eligible_perm hperm, sameEligible_iff⟩

/-! One version given twice, with different numbers of historical trades. -/

def exampleScope : Dict String String := .ofList (scopeKeys.map fun key => (key, key))

def provenCandidate (historicalTrades : ℤ) : StrategyCandidate where
  strategyVersionId := "v1"
  authority := exampleScope
  state := some "ACTIVE"
  validationEvidence := .ofList ((formalGates ++ ["paper", "paper_forward"]).map fun gate => (gate, .bool true))
  regimePerformance := .ofList [("TREND", ⟨some historicalTrades, some 1⟩)]
  recent := ⟨some 10, some (1 / 2)⟩
  artifactHash := some "immutable"
  performanceArtifactHash := some "immutable"

theorem provenCandidate_entry : ∀ n ∈ [10, 12], eligibleEntry exampleScope "TREND" (provenCandidate n) =
    some ⟨"v1", 1 / 2, 1, n⟩ := by
  decide +kernel

/-- The order of such candidates is the order of their entries. -/
theorem selection_depends_on_order :
    ¬∀ scope regime l, SelectsBest scope regime l ∧ SameEligible scope regime l := by
  intro h
  have hsame := (h exampleScope "TREND" [provenCandidate 10, provenCandidate 12]).2
  have hentry := sameEligible_iff.1 hsame (provenCandidate 10) (by simp) (provenCandidate 12) (by simp) _ _
    (provenCandidate_entry 10 (by simp)) (provenCandidate_entry 12 (by simp)) rfl
  have hcounts := congrArg EligibleStrategy.historicalTradeCount hentry
  exact absurd hcounts (by decide)

end

end Matrades

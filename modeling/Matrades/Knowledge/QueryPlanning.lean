import Mathlib.Algebra.Order.Ring.Rat
import Mathlib.Data.Prod.Lex
import Mathlib.Data.String.Basic
import Matrades.Base.Ranked
import Matrades.Base.Missing
import Matrades.Base.Run
import Matrades.Research.Models
import Matrades.Strategies.Schema

/-!
# Queries of scheduled discovery

`choose_scheduled_query` of `modules/knowledge/query_planning.py`: one query per scheduled run, for the least
searched of the top pairs and the least searched topic of its regime. The records are as read from the
store; what a selection's JSON says is given as the fields that were read.

Each choice is a least used one of the recorded plans (`chosen_pair_least`, `chosen_topic_least`), so the
plans of a run keep the balance of pairs, and of topics within each pair (`Rotated`).
-/

namespace Matrades

open Base

/-! ## Topics -/

/-- `TOPICS` -/
def topicQueries : List (String × String) :=
  [("trend", "trend following strategy rules backtest"),
    ("pullback", "pullback entry confirmation strategy backtest"),
    ("momentum", "momentum trading strategy rules backtest"),
    ("breakout", "breakout trading strategy rules backtest"),
    ("mean_reversion", "mean reversion trading strategy rules backtest"),
    ("range", "range trading support resistance strategy backtest"),
    ("liquidity", "liquidity sweep reversal strategy rules backtest"),
    ("validation", "walk forward backtesting spread slippage strategy robustness")]

def topicNames : List String := topicQueries.map Prod.fst

/-- `set(re.findall(r"[A-Z_]+", regime.upper()))` -/
def regimeTags (regime : String) : List String :=
  let tag (c : Char) : Bool := c.isUpper || c = '_'
  (((regime.toList.map Char.toUpper).splitOnP fun c => !tag c).filter fun cs => cs ≠ []).map String.ofList

/-- `_topics` -/
def regimeTopics (regime : String) : List String :=
  if "RANGING" ∈ regimeTags regime then ["mean_reversion", "range", "liquidity", "breakout", "validation"]
  else if "TRENDING" ∈ regimeTags regime then ["trend", "pullback", "momentum", "breakout", "validation"]
  else topicNames

/-- `_regime_words` -/
def regimeWords (regime : String) : String :=
  " ".intercalate <| ([("TRENDING", "trending market"), ("RANGING", "range bound market"),
    ("HIGH_VOLATILITY", "high volatility"), ("LOW_VOLATILITY", "low volatility")].filter fun tag =>
      tag.1 ∈ regimeTags regime).map Prod.snd

/-- `_instrument_words` -/
def instrumentWords (instrument assetClass : String) : String :=
  let compact := (instrument.toList.map Char.toUpper).filter fun c => c ≠ '/' ∧ c ≠ '-'
  let currencies := ["USD", "EUR", "GBP", "JPY", "CHF", "CAD", "AUD", "NZD"]
  let base := String.ofList (compact.take 3)
  let quote := String.ofList ((compact.drop 3).take 3)
  let named := [("XAUUSD", "gold XAUUSD"), ("XAGUSD", "silver XAGUSD")].find? fun n =>
    assetClass = "METALS" ∧ n.1.toList.isPrefixOf compact = true
  match named with
  | some n => n.2
  | none =>
    if assetClass = "FOREX" ∧ base ∈ currencies ∧ quote ∈ currencies then base ++ "/" ++ quote ++ " forex"
    else instrument ++ " " ++ String.ofList (assetClass.toList.map Char.toLower)

/-! ## Records -/

/-- A completed or failed research run; `accountId` is `str(run.data.get("account_id"))`. -/
structure ResearchRunRow where
  id : String
  accountId : String
  state : String

/-- What was read of `candidate`, `listing`, `lane` and `fingerprint` of a selection. -/
structure SelectionReading where
  symbol : String
  assetClass : String
  instrumentType : String
  regime : String := "UNCLASSIFIED"
  /-- `none`: missing, not a time, or without an offset. -/
  observedAt : Option AwareTime
  /-- `none`: not a number. -/
  score : Option PyFloat

structure SavedSelection where
  id : String
  state : String
  researchRunId : String
  accountId : String
  /-- `none`: one of the parts is not a dictionary. -/
  reading : Option SelectionReading

structure QueryCandidate where
  pairKey : String
  instrument : String
  assetClass : String
  instrumentType : String
  regime : String
  accountId : String
  marketResearchRunId : String
  marketSelectionId : String
  basisObservedAt : AwareTime
  score : ℚ
  deriving DecidableEq

inductive QueryPlan
  | fixed (query reason : String)
  | general (topic query reason : String)
  | market (candidate : QueryCandidate) (topic query reason : String)
  deriving DecidableEq

namespace QueryPlan

/-- `plan.get("pair_key")` -/
def pairKey : QueryPlan → Option String
  | market candidate _ _ _ => some candidate.pairKey
  | _ => none

/-- `plan.get("topic")` -/
def topic : QueryPlan → Option String
  | market _ topic _ _ => some topic
  | general topic _ _ => some topic
  | fixed .. => none

/-- `plan.get("basis") == "GENERAL_EDUCATION"` -/
def isGeneral : QueryPlan → Bool
  | general .. => true
  | _ => false

end QueryPlan

/-- A `youtube_discovery_run`. -/
structure DiscoveryRun where
  trigger : String
  queryPlan : Option QueryPlan
  state : String := "QUEUED"

/-- What one scheduled run reads, apart from the earlier ones. The runs stand newest first. -/
structure PlannerInputs where
  queryMode : Option String
  query : Option String
  now : ℤ
  runs : List ResearchRunRow
  accounts : List (String × String)
  selections : List SavedSelection

/-! ## Candidates -/

/-- `re.fullmatch(r"[A-Za-z0-9][A-Za-z0-9/._# -]{0,49}", instrument)` -/
def instrumentName (instrument : String) : Bool :=
  match instrument.toList with
  | [] => false
  | c :: cs => c.isAlphanum && decide (cs.length ≤ 49) &&
      cs.all fun c => c.isAlphanum || c ∈ ['/', '.', '_', '#', ' ', '-']

/-- `MAX_BASIS_AGE`, in microseconds -/
def maxBasisAge : ℤ := 72 * 3600000000

/-- The score, where it is a number from 0 to 100. -/
def readScore (score : Option PyFloat) : Option ℚ :=
  (score.bind PyFloat.finite?).filter fun q => 0 ≤ q ∧ q ≤ 100

/-- The latest finished run of each active account. -/
def currentRuns (i : PlannerInputs) : List ResearchRunRow :=
  (Dict.firstByKey ResearchRunRow.accountId
    (i.runs.filter fun run => run.state = "COMPLETED" ∨ run.state = "DEGRADED")).filter fun run =>
      (run.accountId, "ACTIVE") ∈ i.accounts

def queryCandidate (i : PlannerInputs) (s : SavedSelection) : Option QueryCandidate := do
  let run ← (currentRuns i).find? fun run => run.id = s.researchRunId
  let r ← s.reading
  let observedAt ← r.observedAt
  let score ← readScore r.score
  if s.state = "ACTIVE_MARKET_ANALYSIS" ∧ instrumentName r.symbol = true ∧
      observedAt.instant ≤ i.now + 5 * 60000000 ∧ i.now - observedAt.instant ≤ maxBasisAge ∧
      s.accountId = run.accountId ∧
      r.assetClass ∈ [AssetClass.forex, .metals, .cryptocurrency, .stocks].map AssetClass.value ∧
      r.instrumentType ∈ [InstrumentType.spot, .cfd, .futures].map InstrumentType.value then
    some
      { pairKey := run.accountId ++ ":" ++ r.assetClass ++ ":" ++ r.instrumentType ++ ":" ++ r.symbol
        instrument := r.symbol
        assetClass := r.assetClass
        instrumentType := r.instrumentType
        regime := r.regime
        accountId := run.accountId
        marketResearchRunId := run.id
        marketSelectionId := s.id
        basisObservedAt := observedAt
        score }
  else none

/-- The order of candidates: the best score, then the key. -/
def QueryCandidate.rank (c : QueryCandidate) : ℚ ×ₗ String := toLex (-c.score, c.pairKey)

/-- The top four candidates. -/
def topCandidates (i : PlannerInputs) : List QueryCandidate :=
  (ranked QueryCandidate.rank (i.selections.filterMap (queryCandidate i))).take 4

/-! ## The choice -/

/-- The plans of the scheduled runs that were not deleted. -/
def scheduledPlans (history : List DiscoveryRun) : List QueryPlan :=
  (history.filter fun run => run.state ≠ "DELETED" ∧ run.trigger = "SCHEDULED").filterMap DiscoveryRun.queryPlan

def marketPlan (selected : QueryCandidate) (topic : String) : QueryPlan :=
  let words := [instrumentWords selected.instrument selected.assetClass, selected.instrumentType,
    regimeWords selected.regime, (topicQueries.lookup topic).getD ""]
  .market selected topic (String.ofList ((" ".intercalate (words.filter fun w => w ≠ "")).toList.take 240))
    "Rotate among the latest top pairs, prioritizing least-searched pairs and regime-compatible topics."

/-- `choose_scheduled_query` -/
def chooseScheduledQuery (i : PlannerInputs) (history : List DiscoveryRun) : QueryPlan :=
  let plans := scheduledPlans history
  if i.queryMode ≠ some "AUTO_MARKET" then
    .fixed (i.query.getD "trading strategy") "Use the explicitly configured scheduled query."
  else
    match least (fun c => plans.countP fun plan => plan.pairKey = some c.pairKey) (topCandidates i) with
    | none =>
      let topic := (least (fun name => plans.countP fun plan =>
        plan.isGeneral = true ∧ plan.topic = some name) topicNames).getD ""
      .general topic ("trading " ++ (topicQueries.lookup topic).getD "")
        ("No fresh selected pair is available; rotate general educational topics " ++
          "without claiming a current regime.")
    | some selected =>
      let topic := (least (fun name => plans.countP fun plan =>
        plan.pairKey = some selected.pairKey ∧ plan.topic = some name) (regimeTopics selected.regime)).getD ""
      marketPlan selected topic

/-- A scheduled run records the plan it chose. -/
def scheduledRun (history : List DiscoveryRun) (i : PlannerInputs) : List DiscoveryRun :=
  history ++ [⟨"SCHEDULED", some (chooseScheduledQuery i history), "QUEUED"⟩]

/-! ## Least searched -/

/-- How often a pair was chosen. -/
def timesChosen (history : List DiscoveryRun) (key : String) : ℕ :=
  (scheduledPlans history).countP fun plan => plan.pairKey = some key

/-- How often a topic was chosen for a pair. -/
def timesSearched (history : List DiscoveryRun) (key topic : String) : ℕ :=
  (scheduledPlans history).countP fun plan => plan.pairKey = some key ∧ plan.topic = some topic

/-- The pairs of the scheduled plans. -/
def chosenPairs (history : List DiscoveryRun) : List String :=
  (scheduledPlans history).filterMap QueryPlan.pairKey

/-- The topics of the scheduled plans for a pair. -/
def chosenTopics (history : List DiscoveryRun) (key : String) : List String :=
  (scheduledPlans history).filterMap fun plan => if plan.pairKey = some key then plan.topic else none

theorem timesChosen_eq (history : List DiscoveryRun) (key : String) :
    timesChosen history key = (chosenPairs history).count key := by
  rw [timesChosen, chosenPairs, List.count_filterMap]
  exact List.countP_congr fun plan _ => by simp

theorem timesSearched_eq (history : List DiscoveryRun) (key topic : String) :
    timesSearched history key topic = (chosenTopics history key).count topic := by
  rw [timesSearched, chosenTopics, List.count_filterMap]
  refine List.countP_congr fun plan _ => ?_
  by_cases hkey : plan.pairKey = some key
  · simp [hkey]
  · simp [hkey]

theorem regimeTopics_nodup (regime : String) : (regimeTopics regime).Nodup := by
  unfold regimeTopics
  split
  · decide
  · split
    · decide
    · decide

theorem regimeTopics_ne_nil (regime : String) : regimeTopics regime ≠ [] := by
  unfold regimeTopics
  split
  · decide
  · split
    · decide
    · decide

/-- What the planner chooses from offered candidates: a least searched pair, and a least searched topic of
its regime. -/
theorem chooseScheduledQuery_least {i : PlannerInputs} (hauto : i.queryMode = some "AUTO_MARKET")
    (hoffered : topCandidates i ≠ []) (history : List DiscoveryRun) :
    ∃ selected ∈ topCandidates i, ∃ topic ∈ regimeTopics selected.regime,
      chooseScheduledQuery i history = marketPlan selected topic ∧
      (∀ c ∈ topCandidates i, timesChosen history selected.pairKey ≤ timesChosen history c.pairKey) ∧
      ∀ name ∈ regimeTopics selected.regime,
        timesSearched history selected.pairKey topic ≤ timesSearched history selected.pairKey name := by
  obtain ⟨offered, hoffered⟩ := List.exists_mem_of_ne_nil _ hoffered
  obtain ⟨selected, hselected⟩ : ∃ selected, least (fun c => timesChosen history c.pairKey)
      (topCandidates i) = some selected := exists_least hoffered
  obtain ⟨name, hname⟩ := List.exists_mem_of_ne_nil _ (regimeTopics_ne_nil selected.regime)
  obtain ⟨topic, htopic⟩ : ∃ topic, least (fun name => timesSearched history selected.pairKey name)
      (regimeTopics selected.regime) = some topic := exists_least hname
  have hpair : ∀ c ∈ topCandidates i, timesChosen history selected.pairKey ≤ timesChosen history c.pairKey :=
    fun _ hc => @least_le _ ℕ _ (fun c => timesChosen history c.pairKey) _ _ _ hselected hc
  refine ⟨selected, least_mem hselected, topic, least_mem htopic, ?_, hpair, fun name hname => least_le htopic hname⟩
  unfold timesChosen at hselected
  unfold timesSearched at htopic
  unfold chooseScheduledQuery
  rw [if_neg (by simp [hauto])]
  simp only [hselected, htopic, Option.getD_some]

/-! ## Rotation -/

theorem scheduledPlans_run (history : List DiscoveryRun) (i : PlannerInputs) :
    scheduledPlans (scheduledRun history i) = scheduledPlans history ++ [chooseScheduledQuery i history] := by
  simp [scheduledPlans, scheduledRun]

/-- The scheduled plans search the given pairs in rotation. A pair stands with its regime. -/
structure Rotated (pairs : List (String × String)) (history : List DiscoveryRun) : Prop where
  offered : ∀ key ∈ chosenPairs history, key ∈ pairs.map Prod.fst
  balanced : Balanced (pairs.map Prod.fst) (chosenPairs history)
  topics : ∀ p ∈ pairs, ∀ topic ∈ chosenTopics history p.1, topic ∈ regimeTopics p.2
  topicsBalanced : ∀ p ∈ pairs, Balanced (regimeTopics p.2) (chosenTopics history p.1)
  topicsLength : ∀ p ∈ pairs, (chosenTopics history p.1).length = (chosenPairs history).count p.1

theorem Rotated.start {pairs : List (String × String)} {history : List DiscoveryRun}
    (h : scheduledPlans history = []) : Rotated pairs history := by
  have hpairs : chosenPairs history = [] := by rw [chosenPairs, h]; rfl
  have htopics : ∀ key, chosenTopics history key = [] := fun key => by rw [chosenTopics, h]; rfl
  refine ⟨?_, ?_, fun p _ => ?_, fun p _ => ?_, fun p _ => ?_⟩
  · simp [hpairs]
  · rw [hpairs]
    exact Balanced.nil
  · simp [htopics]
  · rw [htopics]
    exact Balanced.nil
  · rw [htopics, hpairs]
    rfl

/-- The top candidates are the given pairs, each in its regime. -/
structure Offers (pairs : List (String × String)) (i : PlannerInputs) : Prop where
  auto : i.queryMode = some "AUTO_MARKET"
  pairs : ((topCandidates i).map fun c => (c.pairKey, c.regime)).Perm pairs

section
variable {pairs : List (String × String)} (hnodup : (pairs.map Prod.fst).Nodup)
include hnodup

/-- A scheduled run keeps the rotation and adds one chosen pair. -/
theorem Rotated.scheduledRun {history : List DiscoveryRun} (h : Rotated pairs history) {i : PlannerInputs}
    (hi : Offers pairs i) (hne : pairs ≠ []) : Rotated pairs (scheduledRun history i) ∧
      (chosenPairs (Matrades.scheduledRun history i)).length = (chosenPairs history).length + 1 := by
  have htop : topCandidates i ≠ [] := by
    intro hnil
    have hperm := hi.pairs
    rw [hnil] at hperm
    exact hne (List.nil_perm.1 hperm)
  obtain ⟨selected, hselected, topic, htopic, hplan, hleast, hleastTopic⟩ :=
    chooseScheduledQuery_least hi.auto htop history
  have hpair : (selected.pairKey, selected.regime) ∈ pairs :=
    hi.pairs.mem_iff.1 (List.mem_map.2 ⟨selected, hselected, rfl⟩)
  have hregime : ∀ p ∈ pairs, p.1 = selected.pairKey → p.2 = selected.regime := by
    intro p hp hkey
    exact congrArg Prod.snd (List.inj_on_of_nodup_map hnodup hp hpair hkey)
  have hpairs : chosenPairs (Matrades.scheduledRun history i) =
      chosenPairs history ++ [selected.pairKey] := by
    rw [chosenPairs, scheduledPlans_run, hplan, List.filterMap_append]
    rfl
  have htopics : ∀ key, chosenTopics (Matrades.scheduledRun history i) key =
      chosenTopics history key ++ if selected.pairKey = key then [topic] else [] := by
    intro key
    rw [chosenTopics, scheduledPlans_run, hplan, List.filterMap_append]
    by_cases hkey : selected.pairKey = key
    · simp [chosenTopics, marketPlan, QueryPlan.pairKey, QueryPlan.topic, hkey]
    · simp [chosenTopics, marketPlan, QueryPlan.pairKey, hkey]
  refine ⟨⟨?_, ?_, fun p hp => ?_, fun p hp => ?_, fun p hp => ?_⟩, by rw [hpairs, List.length_append]; rfl⟩
  · intro key hkey
    rw [hpairs, List.mem_append, List.mem_singleton] at hkey
    rcases hkey with hkey | rfl
    · exact h.offered key hkey
    · exact List.mem_map_of_mem hpair
  · rw [hpairs]
    refine h.balanced.append fun key hkey => ?_
    obtain ⟨p, hp, rfl⟩ := List.mem_map.1 hkey
    obtain ⟨c, hc, rfl⟩ := List.mem_map.1 (hi.pairs.mem_iff.2 hp)
    rw [← timesChosen_eq, ← timesChosen_eq]
    exact hleast c hc
  · rw [htopics]
    split
    · rename_i hkey
      intro t ht
      rw [List.mem_append, List.mem_singleton] at ht
      rcases ht with ht | rfl
      · exact h.topics p hp t ht
      · rw [hregime p hp hkey.symm]
        exact htopic
    · rw [List.append_nil]
      exact h.topics p hp
  · rw [htopics]
    split
    · rename_i hkey
      refine (h.topicsBalanced p hp).append fun name hname => ?_
      rw [hregime p hp hkey.symm] at hname
      rw [← timesSearched_eq, ← timesSearched_eq, ← hkey]
      exact hleastTopic name hname
    · rw [List.append_nil]
      exact h.topicsBalanced p hp
  · rw [htopics, hpairs, List.count_append, List.length_append, h.topicsLength p hp]
    by_cases hkey : selected.pairKey = p.1
    · simp [hkey]
    · simp [hkey]

theorem Rotated.runs {history : List DiscoveryRun} (h : Rotated pairs history) (hne : pairs ≠ [])
    {inputs : List PlannerInputs} (hinputs : ∀ i ∈ inputs, Offers pairs i) :
    Rotated pairs (run Matrades.scheduledRun history inputs) ∧
      (chosenPairs (run Matrades.scheduledRun history inputs)).length =
        (chosenPairs history).length + inputs.length := by
  induction inputs generalizing history with
  | nil => exact ⟨h, rfl⟩
  | cons i inputs ih =>
    obtain ⟨hstep, hlength⟩ := h.scheduledRun hnodup (hinputs i List.mem_cons_self) hne
    obtain ⟨hrest, htotal⟩ := ih hstep fun j hj => hinputs j (List.mem_cons_of_mem _ hj)
    refine ⟨hrest, htotal.trans ?_⟩
    rw [hlength, List.length_cons]
    omega

end

/-- **Scheduled queries are fair.** After any number of scheduled runs on the same pairs, every pair was
chosen the floor or the ceiling of its share of the runs, and every topic of its regime the floor or the
ceiling of its share of these. -/
theorem scheduled_queries_fair {pairs : List (String × String)} (hnodup : (pairs.map Prod.fst).Nodup)
    {before : List DiscoveryRun} (hbefore : scheduledPlans before = []) {inputs : List PlannerInputs}
    (hinputs : ∀ i ∈ inputs, Offers pairs i) :
    ∀ p ∈ pairs,
      Share (timesChosen (run scheduledRun before inputs) p.1) inputs.length pairs.length ∧
      ∀ topic ∈ regimeTopics p.2, Share (timesSearched (run scheduledRun before inputs) p.1 topic)
        (timesChosen (run scheduledRun before inputs) p.1) (regimeTopics p.2).length := by
  intro p hp
  have hstart : Rotated pairs before := Rotated.start hbefore
  obtain ⟨hrotated, hlength⟩ := hstart.runs hnodup (List.ne_nil_of_mem hp) hinputs
  have hnone : (chosenPairs before).length = 0 := by rw [chosenPairs, hbefore]; rfl
  have hshare := hrotated.balanced.share hnodup hrotated.offered (List.mem_map_of_mem hp)
  rw [hlength, hnone, Nat.zero_add, List.length_map] at hshare
  refine ⟨by rw [timesChosen_eq]; exact hshare, fun topic htopic => ?_⟩
  rw [timesSearched_eq, timesChosen_eq, ← hrotated.topicsLength p hp]
  exact (hrotated.topicsBalanced p hp).share (regimeTopics_nodup p.2) (hrotated.topics p hp) htopic

/-! Two pairs on offer, for three runs. -/

def savedSelection (symbol : String) (score : ℚ) : SavedSelection where
  id := symbol
  state := "ACTIVE_MARKET_ANALYSIS"
  researchRunId := "run"
  accountId := "account"
  reading := some
    { symbol
      assetClass := "FOREX"
      instrumentType := "SPOT"
      regime := "TRENDING"
      observedAt := some ⟨0, 0⟩
      score := some (.finite score) }

def twoPairs : PlannerInputs where
  queryMode := some "AUTO_MARKET"
  query := none
  now := 0
  runs := [⟨"run", "account", "COMPLETED"⟩]
  accounts := [("account", "ACTIVE")]
  selections := [savedSelection "EURUSD" 70, savedSelection "GBPUSD" 80]

theorem twoPairs_offers : Offers [("account:FOREX:SPOT:GBPUSD", "TRENDING"),
    ("account:FOREX:SPOT:EURUSD", "TRENDING")] twoPairs where
  auto := rfl
  pairs := by
    have htop : (topCandidates twoPairs).map (fun c => (c.pairKey, c.regime)) =
        [("account:FOREX:SPOT:GBPUSD", "TRENDING"), ("account:FOREX:SPOT:EURUSD", "TRENDING")] := by
      decide
    rw [htop]

theorem scheduled_queries_fair_three :
    Share (timesChosen (run scheduledRun [] [twoPairs, twoPairs, twoPairs]) "account:FOREX:SPOT:GBPUSD") 3 2 := by
  have hoffers : ∀ i ∈ [twoPairs, twoPairs, twoPairs], Offers [("account:FOREX:SPOT:GBPUSD", "TRENDING"),
      ("account:FOREX:SPOT:EURUSD", "TRENDING")] i := by
    simp [twoPairs_offers]
  exact (scheduled_queries_fair (by decide) rfl hoffers _ List.mem_cons_self).1

end Matrades

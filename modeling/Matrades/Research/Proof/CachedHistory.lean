import Matrades.Base.Run
import Matrades.Base.Window
import Matrades.Research.History

/-!
# When stored history is the history of a direct import

A dataset holds the bars that its interval holds whole. The cache asks that the intervals cover the
request, so a bar across the point where two of them meet is in neither, and what an import was served
with such a gap it stores under its whole interval. The rows that are served are those of the bars that
the interval of some directly imported dataset holds (`cachedRows_eq`), in order and once each. They are
the bars of a direct import exactly if there is such a dataset for each of these, and the store's floats
keep its prices (`cached_history_iff`).
-/

namespace Matrades

open Base

/-- The bars of a series as its provider has them: one for each time, in UTC. -/
structure PriceFeed where
  candles : List BacktestCandle
  ordered : candles.Pairwise fun a b => a.observedAt.instant < b.observedAt.instant
  utc : ∀ c ∈ candles, c.observedAt.offset = 0

/-- **The provider has the same bar for the same time on every request.** -/
def FeedAnswers (history : HistoryBinding → ℤ → ℤ → List BacktestCandle) (feeds : HistoryBinding → PriceFeed) :
    Prop :=
  ∀ binding startAt endAt, (history binding startAt endAt).filter (spans binding.timeframe startAt endAt) =
    (feeds binding).candles.filter (spans binding.timeframe startAt endAt)

/-- The interval of a directly imported dataset holds the bar. -/
def heldDirectly (datasets : Datasets) (binding : HistoryBinding) (c : BacktestCandle) : Bool :=
  datasets.values.any fun d => d.source.binding = binding ∧ d.source.cachedDatasetIds = none ∧
    d.source.holds c

theorem HistoryTimeframe.length_pos (t : HistoryTimeframe) : 0 < t.length := by
  cases t <;> decide

theorem heldDirectly_iff {datasets : Datasets} {binding : HistoryBinding} {c : BacktestCandle} :
    heldDirectly datasets binding c = true ↔ ∃ d ∈ datasets.values, d.source.binding = binding ∧
      d.source.cachedDatasetIds = none ∧ d.source.holds c = true := by
  unfold heldDirectly
  rw [List.any_eq_true]
  exact exists_congr fun d => and_congr_right fun _ => by rw [decide_eq_true_eq]

section
variable {timeframe : HistoryTimeframe} {viaFloat : ℚ → ℚ}

theorem spans_iff {startAt endAt : ℤ} {c : BacktestCandle} : spans timeframe startAt endAt c = true ↔
    startAt ≤ c.observedAt.instant ∧ c.observedAt.instant + timeframe.length ≤ endAt := by
  unfold spans
  rw [Bool.and_eq_true, decide_eq_true_eq, decide_eq_true_eq]

/-- A row tells which bar of the feed it is of. -/
theorem candleRow_inj {feed : PriceFeed} {c c' : BacktestCandle} (hc : c ∈ feed.candles)
    (hc' : c' ∈ feed.candles)
    (h : (candleRow viaFloat timeframe c).availableAt = (candleRow viaFloat timeframe c').availableAt) :
    c = c' := by
  have htime : c.observedAt.instant = c'.observedAt.instant := by
    unfold candleRow at h
    dsimp only at h
    omega
  have hdistinct : (feed.candles.map fun c => c.observedAt.instant).Nodup :=
    List.pairwise_map.2 (feed.ordered.imp fun hab => hab.ne)
  exact List.inj_on_of_nodup_map hdistinct hc hc' htime

/-- The candle of a candle's row, where the floats keep its prices. -/
def keptByFloat (viaFloat : ℚ → ℚ) (c : BacktestCandle) : Prop :=
  viaFloat c.openPrice = c.openPrice ∧ viaFloat c.high = c.high ∧ viaFloat c.low = c.low ∧
    viaFloat c.close = c.close ∧ viaFloat c.volume = c.volume

theorem candle_candleRow {c : BacktestCandle} (hutc : c.observedAt.offset = 0) :
    (candleRow viaFloat timeframe c).candle timeframe = c ↔ keptByFloat viaFloat c := by
  obtain ⟨⟨instant, offset⟩, openPrice, high, low, close, volume⟩ := c
  dsimp only at hutc
  subst hutc
  unfold keptByFloat BarRow.candle candleRow
  simp

end

/-! ## What the store holds -/

section
variable {history : HistoryBinding → ℤ → ℤ → List BacktestCandle} {feeds : HistoryBinding → PriceFeed}
  {viaFloat : ℚ → ℚ}

/-- What an import got: rows of bars that its interval holds; from the provider all of them, and from the
cache those that directly imported datasets hold. -/
structure Imported (feeds : HistoryBinding → PriceFeed) (viaFloat : ℚ → ℚ) (datasets : Datasets)
    (source : HistorySource) : Prop where
  rows : ∀ row ∈ source.rows, ∃ c ∈ (feeds source.binding).candles,
    row = candleRow viaFloat source.binding.timeframe c ∧ source.holds c = true ∧
      (source.cachedDatasetIds ≠ none → heldDirectly datasets source.binding c = true)
  direct : source.cachedDatasetIds = none → ∀ c ∈ (feeds source.binding).candles, source.holds c = true →
    candleRow viaFloat source.binding.timeframe c ∈ source.rows ∧ checkCandle c = .ok ()

/-- The store holds imports, and so do the jobs under way. -/
structure Archived (feeds : HistoryBinding → PriceFeed) (viaFloat : ℚ → ℚ) (s : HistoryStore) : Prop where
  datasets : ∀ d ∈ s.datasets.values, Imported feeds viaFloat s.datasets d.source
  fetched : ∀ job source, s.fetched.get? job = some source → Imported feeds viaFloat s.datasets source

theorem archived_empty : Archived feeds viaFloat HistoryStore.empty where
  datasets := fun d hd => absurd hd List.not_mem_nil
  fetched := fun job source h => by simp [HistoryStore.empty, Dict.empty, Dict.get?] at h

theorem mem_values_setDefault {datasets : Datasets} {id : DatasetId} {d d' : MarketDataset}
    (h : d' ∈ (datasets.setDefault id d).values) : d' ∈ datasets.values ∨ d' = d := by
  unfold Dict.setDefault at h
  split at h
  · exact .inl h
  · exact (Dict.mem_values_set h).symm

theorem heldDirectly_setDefault {datasets : Datasets} {id : DatasetId} {d : MarketDataset}
    {binding : HistoryBinding} {c : BacktestCandle} (h : heldDirectly datasets binding c = true) :
    heldDirectly (datasets.setDefault id d) binding c = true := by
  obtain ⟨d', hd', hrest⟩ := heldDirectly_iff.1 h
  refine heldDirectly_iff.2 ⟨d', ?_, hrest⟩
  obtain ⟨e, he, rfl⟩ := List.mem_map.1 hd'
  have hsome := Dict.get?_setDefault_some (Dict.get?_of_mem he) id d
  exact List.mem_map_of_mem (Dict.mem_of_lookup hsome)

theorem Imported.setDefault {datasets : Datasets} {source : HistorySource}
    (h : Imported feeds viaFloat datasets source) (id : DatasetId) (d : MarketDataset) :
    Imported feeds viaFloat (datasets.setDefault id d) source where
  rows := by
    intro row hrow
    obtain ⟨c, hc, heq, hholds, hcached⟩ := h.rows row hrow
    exact ⟨c, hc, heq, hholds, fun hsome => heldDirectly_setDefault (hcached hsome)⟩
  direct := h.direct

/-! ## What the cache serves -/

theorem mem_relevantDatasets {datasets : Datasets} {request : HistoryRequest} {e : DatasetId × MarketDataset} :
    e ∈ relevantDatasets datasets request ↔ e ∈ datasets.entries ∧
      e.2.source.binding = request.binding ∧ e.2.source.requestedStartAt < request.endAt ∧
        request.startAt < e.2.source.requestedEndAt := by
  unfold relevantDatasets
  rw [List.mem_filter, List.mem_reverse, decide_eq_true_eq]

/-- A dataset that holds a bar of the request is relevant. -/
theorem relevant_of_holds {datasets : Datasets} {request : HistoryRequest} {e : DatasetId × MarketDataset}
    {c : BacktestCandle} (he : e ∈ datasets.entries) (hbinding : e.2.source.binding = request.binding)
    (hholds : e.2.source.holds c = true)
    (hspans : spans request.binding.timeframe request.startAt request.endAt c = true) :
    e ∈ relevantDatasets datasets request := by
  have hlength := request.binding.timeframe.length_pos
  unfold HistorySource.holds at hholds
  rw [hbinding, spans_iff] at hholds
  rw [spans_iff] at hspans
  exact mem_relevantDatasets.2 ⟨he, hbinding, by omega, by omega⟩

theorem firstSeen_ordered (rows : List BarRow) :
    (firstSeen rows).Pairwise fun a b => a.availableAt < b.availableAt :=
  pairwise_lt_of_le (List.pairwise_insertionSort _ _)
    ((List.perm_insertionSort _ _).nodup_iff.2 (Dict.firstByKey_nodup _ rows)) fun _ ha _ hb h =>
      Dict.firstByKey_inj ((List.mem_insertionSort _).1 ha) ((List.mem_insertionSort _).1 hb) h

theorem mem_firstSeen {rows : List BarRow}
    (hinj : ∀ a ∈ rows, ∀ b ∈ rows, a.availableAt = b.availableAt → a = b) {row : BarRow} :
    row ∈ firstSeen rows ↔ row ∈ rows := by
  unfold firstSeen
  rw [List.mem_insertionSort]
  exact ⟨Dict.firstByKey_subset, Dict.mem_firstByKey_of_inj hinj⟩

/-- The rows that the cache puts together are of bars that directly imported datasets hold. -/
theorem relevant_rows {s : HistoryStore} (h : Archived feeds viaFloat s) {request : HistoryRequest}
    {row : BarRow} : row ∈ ((relevantDatasets s.datasets request).insertionSort fun a b =>
        a.2.createdAt ≤ b.2.createdAt).flatMap (·.2.source.rows) →
      ∃ c ∈ (feeds request.binding).candles, row = candleRow viaFloat request.binding.timeframe c ∧
        heldDirectly s.datasets request.binding c = true := by
  intro hrow
  obtain ⟨e, he, hrow⟩ := List.mem_flatMap.1 hrow
  rw [List.mem_insertionSort] at he
  obtain ⟨hentry, hbinding, -, -⟩ := mem_relevantDatasets.1 he
  have hdataset : e.2 ∈ s.datasets.values := List.mem_map_of_mem hentry
  obtain ⟨c, hc, heq, hholds, hcached⟩ := (h.datasets e.2 hdataset).rows row hrow
  rw [hbinding] at hc heq hcached
  refine ⟨c, hc, heq, ?_⟩
  by_cases hdirect : e.2.source.cachedDatasetIds = none
  · exact heldDirectly_iff.2 ⟨e.2, hdataset, hbinding, hdirect, hholds⟩
  · exact hcached hdirect

/-- **What the cache serves**: the rows of the bars of the request that directly imported datasets hold. -/
theorem cachedRows_eq {s : HistoryStore} (h : Archived feeds viaFloat s) (request : HistoryRequest) :
    cachedRows s.datasets request =
      (((feeds request.binding).candles.filter
        (spans request.binding.timeframe request.startAt request.endAt)).filter
          (heldDirectly s.datasets request.binding)).map
            (candleRow viaFloat request.binding.timeframe) := by
  have hinj : ∀ a ∈ ((relevantDatasets s.datasets request).insertionSort fun a b =>
        a.2.createdAt ≤ b.2.createdAt).flatMap (·.2.source.rows),
      ∀ b ∈ ((relevantDatasets s.datasets request).insertionSort fun a b =>
        a.2.createdAt ≤ b.2.createdAt).flatMap (·.2.source.rows),
      a.availableAt = b.availableAt → a = b := by
    intro a ha b hb heq
    obtain ⟨c, hc, rfl, -⟩ := relevant_rows h ha
    obtain ⟨c', hc', rfl, -⟩ := relevant_rows h hb
    rw [candleRow_inj hc hc' heq]
  have hwithin : ∀ c, (request.startAt ≤ (candleRow viaFloat request.binding.timeframe c).availableAt -
        request.binding.timeframe.length ∧
      (candleRow viaFloat request.binding.timeframe c).availableAt ≤ request.endAt) ↔
      spans request.binding.timeframe request.startAt request.endAt c = true := by
    intro c
    rw [spans_iff]
    unfold candleRow
    dsimp only
    omega
  have hleft : (cachedRows s.datasets request).Pairwise fun a b => a.availableAt < b.availableAt :=
    (firstSeen_ordered _).filter _
  have hright : ((((feeds request.binding).candles.filter
        (spans request.binding.timeframe request.startAt request.endAt)).filter
          (heldDirectly s.datasets request.binding)).map
            (candleRow viaFloat request.binding.timeframe)).Pairwise fun a b =>
              a.availableAt < b.availableAt := by
    rw [List.pairwise_map]
    refine (((feeds request.binding).ordered.filter _).filter _).imp fun {a b} hab => ?_
    unfold candleRow
    dsimp only
    omega
  have hirrefl : Std.Irrefl fun a b : BarRow => a.availableAt < b.availableAt := ⟨fun _ => lt_irrefl _⟩
  refine hleft.eq_of_mem_iff hright fun row => ?_
  unfold cachedRows
  rw [List.mem_filter, mem_firstSeen hinj, decide_eq_true_eq, List.mem_map]
  constructor
  · rintro ⟨hrow, hbounds⟩
    obtain ⟨c, hc, rfl, hheld⟩ := relevant_rows h hrow
    exact ⟨c, List.mem_filter.2 ⟨List.mem_filter.2 ⟨hc, (hwithin c).1 hbounds⟩, hheld⟩, rfl⟩
  · rintro ⟨c, hmem, rfl⟩
    obtain ⟨hmem, hheld⟩ := List.mem_filter.1 hmem
    obtain ⟨hc, hspans⟩ := List.mem_filter.1 hmem
    refine ⟨?_, (hwithin c).2 hspans⟩
    obtain ⟨d, hd, hbinding, hdirect, hholds⟩ := heldDirectly_iff.1 hheld
    obtain ⟨e, he, rfl⟩ := List.mem_map.1 hd
    refine List.mem_flatMap.2 ⟨e, (List.mem_insertionSort _).2 (relevant_of_holds he hbinding hholds hspans), ?_⟩
    have hrow := ((h.datasets e.2 hd).direct hdirect c (by rw [hbinding]; exact hc) hholds).1
    rw [hbinding] at hrow
    exact hrow

/-- What the cache serves is its rows, with their candles. -/
theorem cachedHistory_rows {datasets : Datasets} {request : HistoryRequest} {cached : CachedHistory}
    (h : cachedHistory datasets request = some cached) :
    cached.rows = cachedRows datasets request ∧ cachedRows datasets request ≠ [] ∧
      cached.candles = (cachedRows datasets request).map (·.candle request.binding.timeframe) := by
  unfold cachedHistory at h
  split at h
  · cases h
  · split at h
    · cases h
    · split at h
      · cases h
      · split at h
        · cases h
        · rename_i hrows
          cases h
          exact ⟨rfl, fun hnil => hrows (by rw [hnil]; rfl), rfl⟩

/-- A direct import returns the bars that the interval holds, if there are any and all are sound. -/
theorem archivedHistory_ok_iff (hanswers : FeedAnswers history feeds) {request : HistoryRequest}
    {candles : List BacktestCandle} {rows : List BarRow} :
    archivedHistory history viaFloat request = .ok (candles, rows) ↔
      candles = (feeds request.binding).candles.filter
          (spans request.binding.timeframe request.startAt request.endAt) ∧
        candles ≠ [] ∧ (∀ c ∈ candles, checkCandle c = .ok ()) ∧
          rows = candles.map (candleRow viaFloat request.binding.timeframe) := by
  have hordered : ((feeds request.binding).candles.filter
      (spans request.binding.timeframe request.startAt request.endAt)).Pairwise fun a b =>
        a.observedAt.instant < b.observedAt.instant := (feeds request.binding).ordered.filter _
  unfold archivedHistory
  dsimp only
  rw [hanswers request.binding request.startAt request.endAt]
  generalize (feeds request.binding).candles.filter
    (spans request.binding.timeframe request.startAt request.endAt) = bars at hordered ⊢
  by_cases hempty : bars = []
  · subst hempty
    constructor
    · intro h
      cases h
    · rintro ⟨rfl, hne, -⟩
      exact absurd rfl hne
  · have hchronological : chronological bars = true := by
      unfold chronological
      rw [decide_eq_true_eq, List.pairwise_map]
      exact hordered
    have hlength : ¬bars.length < 1 := by
      have hpos := List.length_pos_of_ne_nil hempty
      omega
    rw [if_neg (by simpa using hempty)]
    unfold validateCandles
    rw [if_neg hlength, hchronological]
    simp only [Bool.not_true, Bool.false_eq_true, if_false]
    constructor
    · intro h
      split at h
      · cases h
      · rename_i hvalid
        cases h
        exact ⟨rfl, hempty, forM_eq_ok.1 hvalid, rfl⟩
    · rintro ⟨rfl, -, hvalid, rfl⟩
      rw [forM_eq_ok.2 hvalid]

/-! ## Runs of imports -/

theorem imported_fetch (hanswers : FeedAnswers history feeds) {s : HistoryStore} (h : Archived feeds viaFloat s)
    {request : HistoryRequest} {source : HistorySource}
    (hfetch : HistoryStore.fetch history viaFloat s.datasets request = .ok source) :
    Imported feeds viaFloat s.datasets source := by
  unfold HistoryStore.fetch at hfetch
  split at hfetch
  · rename_i cached hcached
    cases hfetch
    refine ⟨fun row hrow => ?_, fun hnone => by cases hnone⟩
    dsimp only at hrow ⊢
    rw [(cachedHistory_rows hcached).1, cachedRows_eq h] at hrow
    obtain ⟨c, hmem, rfl⟩ := List.mem_map.1 hrow
    obtain ⟨hmem, hheld⟩ := List.mem_filter.1 hmem
    obtain ⟨hc, hspans⟩ := List.mem_filter.1 hmem
    exact ⟨c, hc, rfl, hspans, fun _ => hheld⟩
  · split at hfetch
    · cases hfetch
    · rename_i candles rows harchived
      cases hfetch
      obtain ⟨rfl, -, hvalid, rfl⟩ := (archivedHistory_ok_iff hanswers).1 harchived
      refine ⟨fun row hrow => ?_, fun _ c hc hholds => ?_⟩
      · obtain ⟨c, hmem, rfl⟩ := List.mem_map.1 hrow
        obtain ⟨hc, hspans⟩ := List.mem_filter.1 hmem
        exact ⟨c, hc, rfl, hspans, fun hsome => absurd rfl hsome⟩
      · have hmem := List.mem_filter.2 ⟨hc, hholds⟩
        exact ⟨List.mem_map_of_mem hmem, hvalid c hmem⟩

theorem Archived.step (hanswers : FeedAnswers history feeds) {s : HistoryStore} (h : Archived feeds viaFloat s)
    (l : HistoryLabel) : Archived feeds viaFloat (s.step history viaFloat l) := by
  cases l with
  | fetch job request =>
    rw [HistoryStore.step]
    split
    · exact h
    · rename_i source hfetch
      refine ⟨h.datasets, fun job' source' hsource => ?_⟩
      rw [Dict.get?_set] at hsource
      split at hsource
      · rw [← Option.some.inj hsource]
        exact imported_fetch hanswers h hfetch
      · exact h.fetched job' source' hsource
  | persist job now =>
    rw [HistoryStore.step]
    split
    · exact h
    · rename_i source hsource
      refine ⟨fun d hd => ?_, fun job' source' hsource' => (h.fetched job' source' hsource').setDefault _ _⟩
      rcases mem_values_setDefault hd with hold | rfl
      · exact (h.datasets d hold).setDefault _ _
      · exact (h.fetched job source hsource).setDefault _ _

theorem archived_run (hanswers : FeedAnswers history feeds) (ls : List HistoryLabel) :
    Archived feeds viaFloat (run (HistoryStore.step history viaFloat) HistoryStore.empty ls) :=
  run_inv_of_step (fun _ l h => h.step hanswers l) archived_empty ls

/-- Part of a list, changed, is the whole list exactly if nothing is left out and nothing changed. -/
theorem map_filter_eq_self {α : Type} {p : α → Bool} {f : α → α} {xs : List α} :
    (xs.filter p).map f = xs ↔ ∀ x ∈ xs, p x = true ∧ f x = x := by
  constructor
  · intro h
    have hlength : (xs.filter p).length = xs.length := by
      have heq := congrArg List.length h
      rwa [List.length_map] at heq
    have hall := List.length_filter_eq_length_iff.1 hlength
    rw [List.filter_eq_self.2 hall] at h
    intro x hx
    refine ⟨hall x hx, ?_⟩
    have hmap : xs.map f = xs.map id := by rw [h, List.map_id]
    exact List.map_inj_left.1 hmap x hx
  · intro h
    rw [List.filter_eq_self.2 fun x hx => (h x hx).1]
    conv_rhs => rw [← List.map_id xs]
    exact List.map_congr_left fun x hx => (h x hx).2

theorem Archived.served_iff (hanswers : FeedAnswers history feeds) {s : HistoryStore}
    (h : Archived feeds viaFloat s) {request : HistoryRequest} {cached : CachedHistory}
    (hcached : cachedHistory s.datasets request = some cached) :
    let bars := (feeds request.binding).candles.filter
      (spans request.binding.timeframe request.startAt request.endAt)
    cached.candles = (bars.filter (heldDirectly s.datasets request.binding)).map (fun c =>
        (candleRow viaFloat request.binding.timeframe c).candle request.binding.timeframe) ∧
      ((∃ rows, archivedHistory history viaFloat request = .ok (cached.candles, rows)) ↔
        ∀ c ∈ bars, heldDirectly s.datasets request.binding c = true ∧ keptByFloat viaFloat c) := by
  intro bars
  obtain ⟨-, hnonempty, hcandles⟩ := cachedHistory_rows hcached
  rw [cachedRows_eq h] at hnonempty hcandles
  rw [List.map_map] at hcandles
  refine ⟨hcandles, ?_⟩
  have hutc : ∀ c ∈ bars, c.observedAt.offset = 0 := fun c hc =>
    (feeds request.binding).utc c (List.mem_of_mem_filter hc)
  constructor
  · rintro ⟨rows, hdirect⟩
    have hsame := ((archivedHistory_ok_iff hanswers).1 hdirect).1
    rw [hcandles] at hsame
    intro c hc
    obtain ⟨hheld, hrow⟩ := map_filter_eq_self.1 hsame c hc
    exact ⟨hheld, (candle_candleRow (hutc c hc)).1 hrow⟩
  · intro hall
    have hsame : cached.candles = bars := by
      rw [hcandles]
      exact map_filter_eq_self.2 fun c hc =>
        ⟨(hall c hc).1, (candle_candleRow (hutc c hc)).2 (hall c hc).2⟩
    refine ⟨_, (archivedHistory_ok_iff hanswers).2 ⟨hsame, ?_, ?_, rfl⟩⟩
    · rw [hcandles]
      intro hnil
      rw [List.map_eq_nil_iff] at hnil
      exact hnonempty (by rw [hnil]; rfl)
    · rw [hsame]
      intro c hc
      obtain ⟨d, hd, hbinding, hdirect, hholds⟩ := heldDirectly_iff.1 (hall c hc).1
      have hfeed : c ∈ (feeds d.source.binding).candles := by
        rw [hbinding]
        exact List.mem_of_mem_filter hc
      exact ((h.datasets d hd).direct hdirect c hfeed hholds).2

/-- **When the cache serves a direct import.** After any imports, served from the cache or imported
directly, at once or interleaved: what the cache serves are bars of a direct import of the request, each
once and in order, namely those that the interval of some directly imported dataset holds. They are the
candles that a direct import returns exactly if there is such a dataset for every bar of the request, and
the floats keep its prices. -/
theorem cached_history_iff (hanswers : FeedAnswers history feeds) (ls : List HistoryLabel)
    (request : HistoryRequest) (cached : CachedHistory)
    (hcached : cachedHistory (run (HistoryStore.step history viaFloat) HistoryStore.empty ls).datasets
      request = some cached) :
    let datasets := (run (HistoryStore.step history viaFloat) HistoryStore.empty ls).datasets
    let bars := (feeds request.binding).candles.filter
      (spans request.binding.timeframe request.startAt request.endAt)
    cached.candles = (bars.filter (heldDirectly datasets request.binding)).map (fun c =>
        (candleRow viaFloat request.binding.timeframe c).candle request.binding.timeframe) ∧
      ((∃ rows, archivedHistory history viaFloat request = .ok (cached.candles, rows)) ↔
        ∀ c ∈ bars, heldDirectly datasets request.binding c = true ∧ keptByFloat viaFloat c) :=
  (archived_run hanswers ls).served_iff hanswers hcached

end

/-! ## A bar across two intervals -/

/-- Three bars of a minute. -/
def minuteBars : List BacktestCandle :=
  [⟨⟨0, 0⟩, 1, 2, 1, 2, 5⟩, ⟨⟨60000000, 0⟩, 2, 3, 1, 2, 5⟩, ⟨⟨120000000, 0⟩, 2, 2, 1, 1, 5⟩]

def minuteFeed : HistoryBinding → PriceFeed := fun _ => ⟨minuteBars, by decide, by decide⟩

def minuteRequest (startAt endAt : ℤ) : HistoryRequest :=
  ⟨⟨.ofNat 1, .ofNat 2, "EUR/USD", .m1, "c"⟩, "DUKASCOPY", startAt, endAt⟩

/-- An import of an interval, stored at a time. -/
def importRun (job : ℕ) (startAt endAt : ℤ) : List HistoryLabel :=
  [.fetch job (minuteRequest startAt endAt), .persist job job]

def minuteStore (ls : List HistoryLabel) : HistoryStore :=
  run (HistoryStore.step (fun _ _ _ => minuteBars) id) HistoryStore.empty ls

theorem minuteAnswers : FeedAnswers (fun _ _ _ => minuteBars) minuteFeed := fun _ _ _ => rfl

/-- Two intervals that meet between two bars. -/
theorem cached_history_iff_minute : ∃ cached rows,
    cachedHistory (minuteStore (importRun 0 0 60000000 ++ importRun 1 60000000 180000000)).datasets
      (minuteRequest 0 180000000) = some cached ∧
    archivedHistory (fun _ _ _ => minuteBars) id (minuteRequest 0 180000000) = .ok (cached.candles, rows) := by
  have hserved : (cachedHistory (minuteStore (importRun 0 0 60000000 ++
      importRun 1 60000000 180000000)).datasets (minuteRequest 0 180000000)).isSome = true := by
    decide +kernel
  have hheld : ∀ c ∈ minuteBars, heldDirectly (minuteStore (importRun 0 0 60000000 ++
      importRun 1 60000000 180000000)).datasets (minuteRequest 0 180000000).binding c = true := by
    decide +kernel
  obtain ⟨cached, hcached⟩ := Option.isSome_iff_exists.1 hserved
  obtain ⟨rows, hdirect⟩ := (cached_history_iff minuteAnswers _ _ cached hcached).2.2 fun c hc =>
    ⟨hheld c (List.mem_of_mem_filter hc), rfl, rfl, rfl, rfl, rfl⟩
  exact ⟨cached, rows, hcached, hdirect⟩

/-- **A bar across the point where two intervals meet is missing.** -/
theorem boundary_bar_missing : ∃ cached,
    cachedHistory (minuteStore (importRun 0 0 90000000 ++ importRun 1 90000000 180000000)).datasets
      (minuteRequest 0 180000000) = some cached ∧
    ¬∃ rows, archivedHistory (fun _ _ _ => minuteBars) id (minuteRequest 0 180000000) =
      .ok (cached.candles, rows) := by
  have hserved : (cachedHistory (minuteStore (importRun 0 0 90000000 ++
      importRun 1 90000000 180000000)).datasets (minuteRequest 0 180000000)).isSome = true := by
    decide +kernel
  have hmissing : ∃ c ∈ minuteBars.filter (spans .m1 0 180000000),
      ¬heldDirectly (minuteStore (importRun 0 0 90000000 ++ importRun 1 90000000 180000000)).datasets
        (minuteRequest 0 180000000).binding c = true := by decide +kernel
  obtain ⟨cached, hcached⟩ := Option.isSome_iff_exists.1 hserved
  refine ⟨cached, hcached, fun hdirect => ?_⟩
  obtain ⟨c, hc, hnot⟩ := hmissing
  have harchived : Archived minuteFeed id
      (minuteStore (importRun 0 0 90000000 ++ importRun 1 90000000 180000000)) :=
    archived_run minuteAnswers _
  exact hnot (((harchived.served_iff minuteAnswers hcached).2.1 hdirect c hc).1)

end Matrades

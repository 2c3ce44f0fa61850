import Mathlib.Data.List.Sort
import Matrades.Backtesting.Engine
import Matrades.Base.Missing
import Matrades.Shared.DomainTypes

/-!
# Imported price history

`cached_history`, `archived_history` and `persist_dataset` of `modules/market_data/research_history.py`.
An import is served from the stored datasets where their intervals cover the request, and else from the
provider; what it gets it stores as a dataset of its own. Times are in microseconds. The id of a dataset is
the `uuid5` of a name with the checksum of its rows; here it is the name, with the rows.
-/

namespace Matrades

open Base

/-- `TIMEFRAMES` -/
inductive HistoryTimeframe
  | m1 | m5 | m15 | h1 | h4 | d1
  deriving DecidableEq, Repr

/-- The length of a bar. -/
def HistoryTimeframe.seconds : HistoryTimeframe → ℤ
  | .m1 => 60
  | .m5 => 300
  | .m15 => 900
  | .h1 => 3600
  | .h4 => 14400
  | .d1 => 86400

def HistoryTimeframe.length (t : HistoryTimeframe) : ℤ := t.seconds * 1000000

/-- `PRICE_SOURCES` -/
def priceSources : List String := ["DUKASCOPY", "CCXT", "YAHOO_FINANCE"]

/-- What a dataset is looked up by. -/
structure HistoryBinding where
  accountId : Uuid
  connectionId : Uuid
  instrument : String
  timeframe : HistoryTimeframe
  configurationHash : String
  deriving DecidableEq

structure HistoryRequest where
  binding : HistoryBinding
  /-- The provider of the connection. -/
  provider : String
  startAt : ℤ
  endAt : ℤ

/-- A row of a frame: the prices of a bar at its close, as floats. -/
structure BarRow where
  availableAt : ℤ
  openPrice : ℚ
  high : ℚ
  low : ℚ
  close : ℚ
  volume : ℚ
  deriving DecidableEq

/-- `candle_frame`: the row of a candle. `viaFloat` is `Decimal(str(float(value)))`. -/
def candleRow (viaFloat : ℚ → ℚ) (timeframe : HistoryTimeframe) (c : BacktestCandle) : BarRow where
  availableAt := c.observedAt.instant + timeframe.length
  openPrice := viaFloat c.openPrice
  high := viaFloat c.high
  low := viaFloat c.low
  close := viaFloat c.close
  volume := viaFloat c.volume

/-- The candle of a row, in UTC. -/
def BarRow.candle (timeframe : HistoryTimeframe) (row : BarRow) : BacktestCandle where
  observedAt := ⟨row.availableAt - timeframe.length, 0⟩
  openPrice := row.openPrice
  high := row.high
  low := row.low
  close := row.close
  volume := row.volume

/-- Does the interval hold the whole bar? -/
def spans (timeframe : HistoryTimeframe) (startAt endAt : ℤ) (c : BacktestCandle) : Bool :=
  startAt ≤ c.observedAt.instant && c.observedAt.instant + timeframe.length ≤ endAt

/-! ## Datasets -/

/-- The name of a dataset: owner, account, connection, instrument, timeframe and checksum. -/
structure DatasetId where
  accountId : Uuid
  connectionId : Uuid
  instrument : String
  timeframe : HistoryTimeframe
  rows : List BarRow
  deriving DecidableEq

/-- What an import got, with the datasets it was served from. -/
structure HistorySource where
  binding : HistoryBinding
  requestedStartAt : ℤ
  requestedEndAt : ℤ
  rows : List BarRow
  cachedDatasetIds : Option (List DatasetId)

def HistorySource.datasetId (source : HistorySource) : DatasetId where
  accountId := source.binding.accountId
  connectionId := source.binding.connectionId
  instrument := source.binding.instrument
  timeframe := source.binding.timeframe
  rows := source.rows

/-- Does the requested interval hold the whole bar? -/
def HistorySource.holds (source : HistorySource) (c : BacktestCandle) : Bool :=
  spans source.binding.timeframe source.requestedStartAt source.requestedEndAt c

structure MarketDataset where
  source : HistorySource
  createdAt : Time

abbrev Datasets := Dict DatasetId MarketDataset

/-- The datasets of the binding that overlap the request, as the store lists them. -/
def relevantDatasets (datasets : Datasets) (request : HistoryRequest) : List (DatasetId × MarketDataset) :=
  datasets.entries.reverse.filter fun d => d.2.source.binding = request.binding ∧
    d.2.source.requestedStartAt < request.endAt ∧ request.startAt < d.2.source.requestedEndAt

/-- The loop over the intervals by their start: how far they cover without a gap. -/
def coveredTo : ℤ → List HistorySource → Option ℤ
  | cursor, [] => some cursor
  | cursor, source :: rest =>
    if cursor < source.requestedStartAt then none else coveredTo (max cursor source.requestedEndAt) rest

/-- `frame[~frame.index.duplicated(keep="first")].sort_index()` -/
def firstSeen (rows : List BarRow) : List BarRow :=
  (Dict.firstByKey BarRow.availableAt rows).insertionSort fun a b => a.availableAt ≤ b.availableAt

/-- What the cache serves. -/
structure CachedHistory where
  candles : List BacktestCandle
  rows : List BarRow
  datasetIds : List DatasetId

/-- The rows of the datasets, the first that was stored of each time, within the request. -/
def cachedRows (datasets : Datasets) (request : HistoryRequest) : List BarRow :=
  (firstSeen (((relevantDatasets datasets request).insertionSort fun a b =>
      a.2.createdAt ≤ b.2.createdAt).flatMap (·.2.source.rows))).filter fun row =>
    request.startAt ≤ row.availableAt - request.binding.timeframe.length ∧ row.availableAt ≤ request.endAt

def cachedHistory (datasets : Datasets) (request : HistoryRequest) : Option CachedHistory :=
  if request.provider ∉ priceSources then none
  else
    match coveredTo request.startAt (((relevantDatasets datasets request).map (·.2.source)).insertionSort
      fun a b => a.requestedStartAt ≤ b.requestedStartAt) with
    | none => none
    | some cursor =>
      if cursor < request.endAt ∨ (relevantDatasets datasets request).isEmpty then none
      else if (cachedRows datasets request).isEmpty then none
      else some
        { candles := (cachedRows datasets request).map (·.candle request.binding.timeframe)
          rows := cachedRows datasets request
          datasetIds := ((relevantDatasets datasets request).insertionSort fun a b =>
            a.2.createdAt ≤ b.2.createdAt).map Prod.fst }

/-- `archived_history`: a direct import, with the rows that it stores. -/
def archivedHistory (history : HistoryBinding → ℤ → ℤ → List BacktestCandle) (viaFloat : ℚ → ℚ)
    (request : HistoryRequest) : Except String (List BacktestCandle × List BarRow) :=
  let candles := (history request.binding request.startAt request.endAt).filter
    (spans request.binding.timeframe request.startAt request.endAt)
  if candles.isEmpty then .error "no completed history at the requested cutoff"
  else
    match validateCandles 1 candles with
    | .error e => .error e
    | .ok () => .ok (candles, candles.map (candleRow viaFloat request.binding.timeframe))

/-! ## Imports -/

structure HistoryStore where
  datasets : Datasets
  /-- What the imports under way have got. -/
  fetched : Dict ℕ HistorySource

inductive HistoryLabel
  /-- An import gets its history, from the cache or the provider. -/
  | fetch (job : ℕ) (request : HistoryRequest)
  /-- It stores it. -/
  | persist (job : ℕ) (now : Time)

namespace HistoryStore

def empty : HistoryStore := ⟨.empty, .empty⟩

/-- What an import gets: `cached or await archived_history(…)`. -/
def fetch (history : HistoryBinding → ℤ → ℤ → List BacktestCandle) (viaFloat : ℚ → ℚ)
    (datasets : Datasets) (request : HistoryRequest) : Except String HistorySource :=
  match cachedHistory datasets request with
  | some cached => .ok ⟨request.binding, request.startAt, request.endAt, cached.rows, some cached.datasetIds⟩
  | none =>
    match archivedHistory history viaFloat request with
    | .error e => .error e
    | .ok (_, rows) => .ok ⟨request.binding, request.startAt, request.endAt, rows, none⟩

/-- One step. A dataset that is there stays as it is. -/
def step (history : HistoryBinding → ℤ → ℤ → List BacktestCandle) (viaFloat : ℚ → ℚ) (s : HistoryStore) :
    HistoryLabel → HistoryStore
  | .fetch job request =>
    match fetch history viaFloat s.datasets request with
    | .error _ => s
    | .ok source => { s with fetched := s.fetched.set job source }
  | .persist job now =>
    match s.fetched.get? job with
    | none => s
    | some source => { s with datasets := s.datasets.setDefault source.datasetId ⟨source, now⟩ }

end HistoryStore

end Matrades

import Matrades.Backtesting.Engine
import Matrades.Base.Online
import Matrades.Research.Models
import Matrades.Strategies.EntryContext

/-!
# Quantitative features

`candle_frame`, `technical_features` and `build_features` of `modules/research/quantitative_features.py`. The
features of a row are known when its candle closes, so none of them may read a later row: a feature is a
`Column` of the frame, whose values are cut with it, and is composed as in the source. What reads the whole
frame (the range of the previous day) or other prices (the aligned proxies) needs the order of the rows.

`F` are the floats, `Analytics` the functions of TA-Lib and the rolling statistics of pandas, which are online.
-/

namespace Matrades

open Base

/-! ## Floats -/

class FloatArithmetic (F : Type) where
  ofRat : ℚ → F
  nan : F
  sub : F → F → F
  mul : F → F → F
  div : F → F → F
  maximum : F → F → F
  minimum : F → F → F
  abs : F → F
  sign : F → F
  log : F → F
  lt : F → F → Bool
  le : F → F → Bool
  eq : F → F → Bool
  isNan : F → Bool
  isInf : F → Bool
  isNan_nan : isNan nan = true
  eq_nan : ∀ x, eq x nan = false
  nan_eq : ∀ x, eq nan x = false
  isNan_ofRat : ∀ q, isNan (ofRat q) = false

inductive RollingStatistic
  | sum | mean | populationStd | percentRank | variance
  deriving DecidableEq, Repr

inductive PairStatistic
  | correlation | covariance
  deriving DecidableEq, Repr

/-- TA-Lib on prices (high, low, close; close; close, volume) and pandas' `rolling(window, min_periods)` and
`expanding(min_periods)`. -/
structure Analytics (F : Type) where
  atr : ℕ → OnlineFunction (F × F × F) F
  adx : ℕ → OnlineFunction (F × F × F) F
  cci : ℕ → OnlineFunction (F × F × F) F
  willr : ℕ → OnlineFunction (F × F × F) F
  trange : OnlineFunction (F × F × F) F
  rsi : ℕ → OnlineFunction F F
  ema : ℕ → OnlineFunction F F
  sma : ℕ → OnlineFunction F F
  roc : ℕ → OnlineFunction F F
  obv : OnlineFunction (F × F) F
  macd : OnlineFunction F (F × F × F)
  bbands : ℕ → OnlineFunction F (F × F × F)
  stoch : OnlineFunction (F × F × F) (F × F)
  rolling : RollingStatistic → ℕ → ℕ → OnlineFunction F F
  rollingPair : PairStatistic → ℕ → ℕ → OnlineFunction (F × F) F
  expandingStd : ℕ → OnlineFunction F F

/-! ## The frame -/

/-- The prices of a candle, under the time at which it closes. -/
structure PriceRow (F : Type) where
  time : ℤ
  openPrice : F
  high : F
  low : F
  close : F
  volume : F

structure PriceFrame (F : Type) where
  rows : List (PriceRow F)
  ordered : rows.Pairwise fun a b => a.time < b.time

namespace PriceFrame

variable {F : Type}

theorem cut_ordered (n : ℕ) (f : PriceFrame F) : (f.rows.take n).Pairwise fun a b => a.time < b.time :=
  f.ordered.sublist (List.take_sublist n f.rows)

instance : Rows (PriceFrame F) where
  size f := f.rows.length
  cut n f := ⟨f.rows.take n, cut_ordered n f⟩

@[simp] theorem cut_rows (n : ℕ) (f : PriceFrame F) : (Rows.cut n f).rows = f.rows.take n := rfl

theorem upTo_ordered (t : ℤ) (f : PriceFrame F) :
    (f.rows.filter fun row => row.time ≤ t).Pairwise fun a b => a.time < b.time := f.ordered.filter _

/-- `frame[frame.index <= t]` -/
def upTo (t : ℤ) (f : PriceFrame F) : PriceFrame F := ⟨f.rows.filter fun row => row.time ≤ t, upTo_ordered t f⟩

def countUpTo (t : ℤ) (f : PriceFrame F) : ℕ := f.rows.countP fun row => row.time ≤ t

theorem upTo_eq_cut (t : ℤ) (f : PriceFrame F) : f.upTo t = Rows.cut (f.countUpTo t) f := by
  have hrows : (f.rows.filter fun row => row.time ≤ t) = f.rows.take (f.countUpTo t) :=
    filter_le_eq_take (f.ordered.imp le_of_lt) t
  unfold upTo
  congr 1

theorem length_map {β : Type} (g : PriceRow F → β) (f : PriceFrame F) :
    (f.rows.map g).length = Rows.size f := List.length_map _

theorem map_cut {β : Type} (g : PriceRow F → β) (n : ℕ) (f : PriceFrame F) :
    (Rows.cut n f).rows.map g = (f.rows.map g).take n := List.map_take

/-- What a row says by itself. -/
def column {β : Type} (g : PriceRow F → β) : Column (PriceFrame F) β where
  values f := f.rows.map g
  length_values := length_map g
  values_cut := map_cut g

theorem ordered_on {key : PriceRow F → ℤ} (hkey : ∀ a b : PriceRow F, a.time ≤ b.time → key a ≤ key b)
    (f : PriceFrame F) : f.rows.Pairwise fun a b => key a ≤ key b :=
  f.ordered.imp fun hab => hkey _ _ hab.le

end PriceFrame

namespace Features

variable {F : Type}

def microsecondsPerDay : ℤ := 86400000000

def openedAt (timeframeSeconds : ℤ) (row : PriceRow F) : ℤ := row.time - 1000000 * timeframeSeconds

def dayOpened (timeframeSeconds : ℤ) (row : PriceRow F) : ℤ :=
  openedAt timeframeSeconds row / microsecondsPerDay

theorem dayOpened_le (timeframeSeconds : ℤ) (a b : PriceRow F) (h : a.time ≤ b.time) :
    dayOpened timeframeSeconds a ≤ dayOpened timeframeSeconds b :=
  Int.ediv_le_ediv (by decide) (Int.sub_le_sub_right h _)

end Features

section
variable {F : Type} [FloatArithmetic F]

open FloatArithmetic

/-- `candle_frame` -/
def priceRow (timeframeSeconds : ℤ) (c : BacktestCandle) : PriceRow F where
  time := c.observedAt.instant + 1000000 * timeframeSeconds
  openPrice := ofRat c.openPrice
  high := ofRat c.high
  low := ofRat c.low
  close := ofRat c.close
  volume := ofRat c.volume

theorem priceRows_ordered {candles : List BacktestCandle} (timeframeSeconds : ℤ)
    (h : chronological candles = true) :
    (candles.map (priceRow (F := F) timeframeSeconds)).Pairwise fun a b => a.time < b.time := by
  unfold chronological at h
  rw [decide_eq_true_eq, List.pairwise_map] at h
  rw [List.pairwise_map]
  exact h.imp fun hab => Int.add_lt_add_right hab _

theorem chronological_of_valid {minimum : ℕ} {candles : List BacktestCandle} {u : Unit}
    (h : validateCandles minimum candles = .ok u) : chronological candles = true := by
  unfold validateCandles at h
  split at h
  next => cases h
  next =>
    split at h
    next => cases h
    next hordered => simpa using hordered

def candleFrame (candles : List BacktestCandle) (timeframeSeconds : ℤ) : Except String (PriceFrame F) :=
  match h : validateCandles 1 candles with
  | .error message => .error message
  | .ok _ => .ok ⟨candles.map (priceRow timeframeSeconds),
      priceRows_ordered timeframeSeconds (chronological_of_valid h)⟩

/-! ## Series -/

abbrev FloatColumn (F : Type) := Column (PriceFrame F) F

abbrev FlagColumn (F : Type) := Column (PriceFrame F) Bool

/-- The latest value that is a number. -/
def carry : F → List F → List F :=
  trace fun last x => let value := if isNan x then last else x; (value, value)

/-- The greatest value so far, where there is one. -/
def cumulative (extremum : F → F → F) : F → List F → List F :=
  trace fun best x =>
    if isNan x then (best, nan)
    else
      let value := if isNan best then x else extremum best x
      (value, value)

def extremumOf (extremum : F → F → F) : List F → F
  | [] => nan
  | x :: xs => xs.foldl extremum x

/-- `rolling(n).max()` and `rolling(n).min()` -/
def rollingExtremum (extremum : F → F → F) (n : ℕ) : List F → List F :=
  eachPrefix fun xs =>
    let window := (lastly n xs).filter fun x => !isNan x
    if window.length < n then nan else extremumOf extremum window

namespace FloatColumn

variable (a b : FloatColumn F)

instance : Sub (FloatColumn F) := ⟨Column.zipWith sub⟩

instance : Mul (FloatColumn F) := ⟨Column.zipWith mul⟩

instance : Div (FloatColumn F) := ⟨Column.zipWith div⟩

def const (q : ℚ) : FloatColumn F := PriceFrame.column fun _ => ofRat q

def abs : FloatColumn F := a.map FloatArithmetic.abs

def sign : FloatColumn F := a.map FloatArithmetic.sign

def log : FloatColumn F := a.map FloatArithmetic.log

def lt : FlagColumn F := a.zipWith FloatArithmetic.lt b

def le : FlagColumn F := a.zipWith FloatArithmetic.le b

def eq : FlagColumn F := a.zipWith FloatArithmetic.eq b

def shift (n : ℕ) : FloatColumn F := a.through (Base.shift nan n) (shift_online nan n)

def diff (n : ℕ) : FloatColumn F := a - shift a n

def pctChange (n : ℕ) : FloatColumn F := a / shift a n - const 1

def ffill : FloatColumn F := a.through (carry nan) (trace_online _ nan)

/-- `a.where(flags)` -/
def keepWhere (flags : FlagColumn F) : FloatColumn F := a.zipWith (fun x flag => if flag then x else nan) flags

def rollingMax (n : ℕ) : FloatColumn F := a.through (rollingExtremum maximum n) (eachPrefix_online _)

def rollingMin (n : ℕ) : FloatColumn F := a.through (rollingExtremum minimum n) (eachPrefix_online _)

def rolling (lib : Analytics F) (statistic : RollingStatistic) (window minPeriods : ℕ) : FloatColumn F :=
  a.through (lib.rolling statistic window minPeriods).1 (lib.rolling statistic window minPeriods).2

def rollingPair (lib : Analytics F) (statistic : PairStatistic) (window minPeriods : ℕ) : FloatColumn F :=
  (a.zipWith Prod.mk b).through (lib.rollingPair statistic window minPeriods).1
    (lib.rollingPair statistic window minPeriods).2

end FloatColumn

def FlagColumn.and (a b : FlagColumn F) : FlagColumn F := a.zipWith Bool.and b

/-- The aggregate of the group before that of a row: `groupby(key).agg(..).shift(1)`, mapped back. -/
def previousGroup (key : PriceRow F → ℤ) (aggregate : List (PriceRow F) → F) (rows : List (PriceRow F))
    (row : PriceRow F) : F :=
  match ((rows.filter fun r => key r < key row).map key).max? with
  | none => nan
  | some k => aggregate (rows.filter fun r => key r = k)

/-- The group before that of a row is among the rows before it. -/
theorem previousGroup_take {key : PriceRow F → ℤ} {aggregate : List (PriceRow F) → F}
    {rows : List (PriceRow F)} (h : rows.Pairwise fun a b => key a ≤ key b) {n : ℕ} {row : PriceRow F}
    (hrow : row ∈ rows.take n) :
    previousGroup key aggregate (rows.take n) row = previousGroup key aggregate rows row := by
  have hearlier : ((rows.take n).filter fun r => key r < key row) = rows.filter fun r => key r < key row :=
    filter_take_of_lt h hrow fun b hb => by simpa using hb
  unfold previousGroup
  rw [hearlier]
  split
  next => rfl
  next k hk =>
    have hmem : k ∈ (rows.filter fun r => key r < key row).map key := List.max?_mem hk
    obtain ⟨r, hr, rfl⟩ := List.mem_map.1 hmem
    have hlt : key r < key row := by simpa using (List.mem_filter.1 hr).2
    congr 1
    refine filter_take_of_lt h hrow fun b hb => ?_
    have hb' : key b = key r := by simpa using hb
    rw [hb']
    exact hlt

theorem previousColumn_cut {key : PriceRow F → ℤ}
    (hkey : ∀ a b : PriceRow F, a.time ≤ b.time → key a ≤ key b) (aggregate : List (PriceRow F) → F) (n : ℕ)
    (f : PriceFrame F) :
    (Rows.cut n f).rows.map (previousGroup key aggregate (Rows.cut n f).rows) =
      (f.rows.map (previousGroup key aggregate f.rows)).take n := by
  rw [← List.map_take]
  exact List.map_congr_left fun row hrow => previousGroup_take (f.ordered_on hkey) hrow

def previousColumn (key : PriceRow F → ℤ) (hkey : ∀ a b : PriceRow F, a.time ≤ b.time → key a ≤ key b)
    (aggregate : List (PriceRow F) → F) : FloatColumn F where
  values f := f.rows.map (previousGroup key aggregate f.rows)
  length_values f := PriceFrame.length_map (previousGroup key aggregate f.rows) f
  values_cut := previousColumn_cut hkey aggregate

/-! ## Technical features -/

namespace Features

def openPrice : FloatColumn F := PriceFrame.column PriceRow.openPrice

def high : FloatColumn F := PriceFrame.column PriceRow.high

def low : FloatColumn F := PriceFrame.column PriceRow.low

def close : FloatColumn F := PriceFrame.column PriceRow.close

def volume : FloatColumn F := PriceFrame.column PriceRow.volume

/-- A TA-Lib function of the high, the low and the close. -/
def ofBars (f : OnlineFunction (F × F × F) F) : FloatColumn F :=
  (PriceFrame.column fun row => (row.high, row.low, row.close)).through f.1 f.2

def ofClose {β : Type} (f : OnlineFunction F β) : Column (PriceFrame F) β := close.through f.1 f.2

variable (lib : Analytics F)

def atr : FloatColumn F := ofBars (lib.atr 14)

def macd : Column (PriceFrame F) (F × F × F) := ofClose lib.macd

def bands : Column (PriceFrame F) (F × F × F) := ofClose (lib.bbands 20)

def bbUpper : FloatColumn F := (bands lib).map fun band => band.1

def bbMiddle : FloatColumn F := (bands lib).map fun band => band.2.1

def bbLower : FloatColumn F := (bands lib).map fun band => band.2.2

def stoch : Column (PriceFrame F) (F × F) :=
  (PriceFrame.column fun row => (row.high, row.low, row.close)).through lib.stoch.1 lib.stoch.2

/-- `technical_features`: the prices and their indicators. -/
def technicalFeatures : List (String × FloatColumn F) :=
  [("open", openPrice), ("high", high), ("low", low), ("close", close), ("volume", volume),
    ("atr", atr lib),
    ("adx", ofBars (lib.adx 14)),
    ("rsi", ofClose (lib.rsi 14)),
    ("ema", ofClose (lib.ema 20)),
    ("sma", ofClose (lib.sma 20)),
    ("roc", ofClose (lib.roc 10)),
    ("obv", (close.zipWith Prod.mk volume).through lib.obv.1 lib.obv.2),
    ("cci", ofBars (lib.cci 14)),
    ("willr", ofBars (lib.willr 14)),
    ("trange", ofBars lib.trange),
    ("macd", (macd lib).map fun m => m.1),
    ("macd_signal", (macd lib).map fun m => m.2.1),
    ("macd_histogram", (macd lib).map fun m => m.2.2),
    ("bb_upper", bbUpper lib),
    ("bb_middle", bbMiddle lib),
    ("bb_lower", bbLower lib),
    ("stoch_k", (stoch lib).map Prod.fst),
    ("stoch_d", (stoch lib).map Prod.snd),
    ("bb_width", (bbUpper lib - bbLower lib) / bbMiddle lib)]

/-! ## Structure -/

def efficiency : FloatColumn F :=
  (close.diff 20).abs / (close.diff 1).abs.rolling lib .sum 20 20

def trendSlope : FloatColumn F := close.pctChange 20 / FloatColumn.const 20

def maSeparation : FloatColumn F := (ofClose (lib.ema 10) - ofClose (lib.ema 30)) / close

def realizedVolatility : FloatColumn F := (close.log.diff 1).rolling lib .populationStd 20 20

def volatilityExpansion : FloatColumn F := atr lib / (atr lib).rolling lib .mean 60 20

def rangeHigh : FloatColumn F := (high.shift 1).rollingMax 20

def rangeLow : FloatColumn F := (low.shift 1).rollingMin 20

/-- A pivot of five bars, two bars after it. -/
def highPivot : FloatColumn F := (high.shift 2).keepWhere ((high.shift 2).eq (high.rollingMax 5))

def lowPivot : FloatColumn F := (low.shift 2).keepWhere ((low.shift 2).eq (low.rollingMin 5))

def swingHigh : FloatColumn F := highPivot.ffill

def swingLow : FloatColumn F := lowPivot.ffill

def priorHigh : FloatColumn F := highPivot.ffill.shift 1

def priorLow : FloatColumn F := lowPivot.ffill.shift 1

def tolerance : FloatColumn F := atr lib * FloatColumn.const (5 / 100)

def bodyHigh : FloatColumn F := openPrice.zipWith maximum close

def bodyLow : FloatColumn F := openPrice.zipWith minimum close

/-! ## Days and sessions -/

def previousDayHigh (timeframeSeconds : ℤ) : FloatColumn F :=
  previousColumn (dayOpened timeframeSeconds) (dayOpened_le timeframeSeconds)
    fun rows => extremumOf maximum (rows.map PriceRow.high)

def previousDayLow (timeframeSeconds : ℤ) : FloatColumn F :=
  previousColumn (dayOpened timeframeSeconds) (dayOpened_le timeframeSeconds)
    fun rows => extremumOf minimum (rows.map PriceRow.low)

/-- A trading session: the hours of a time zone. -/
structure Session where
  name : String
  zone : Zone
  start : ℤ
  stop : ℤ

def sessions : List Session :=
  [⟨"asia", .tokyo, 9, 17⟩, ⟨"london", .london, 8, 17⟩, ⟨"new_york", .newYork, 8, 17⟩]

section
variable (zones : ZoneInfo) (timeframeSeconds : ℤ) (session : Session)

def localOpening : Column (PriceFrame F) ℤ :=
  PriceFrame.column fun row => localTime zones session.zone ⟨openedAt timeframeSeconds row, 0⟩

def inSession : FlagColumn F :=
  (localOpening zones timeframeSeconds session).map fun time =>
    session.start ≤ hourOf time && hourOf time < session.stop

def localDays : Column (PriceFrame F) ℤ :=
  (localOpening zones timeframeSeconds session).map fun time => time / microsecondsPerDay

/-- The running extremum of the session, carried to the end of the day. -/
def sessionExtremum (extremum : F → F → F) (prices : FloatColumn F) : FloatColumn F :=
  let days := localDays zones timeframeSeconds session
  let running := (prices.keepWhere (inSession zones timeframeSeconds session)).groupBy days
    (cumulative extremum nan) (trace_online _ nan) nan
  running.groupBy days (carry nan) (trace_online _ nan) nan

def sessionVolatility : FloatColumn F :=
  ((close.log.diff 1).keepWhere (inSession zones timeframeSeconds session)).groupBy
    (localDays zones timeframeSeconds session) (lib.expandingStd 2).1 (lib.expandingStd 2).2 nan

end

/-! ## Regimes -/

def behaviour : Column (PriceFrame F) String :=
  (efficiency lib).map fun x =>
    if isNan x then "UNKNOWN" else if le (ofRat (35 / 100)) x then "TRENDING" else "RANGING"

def direction : Column (PriceFrame F) String :=
  trendSlope.map fun x =>
    if isNan x then "UNKNOWN"
    else if FloatArithmetic.eq x (ofRat 0) then "FLAT"
    else if FloatArithmetic.lt (ofRat 0) x then "BULLISH"
    else "BEARISH"

def volatilityRegime : Column (PriceFrame F) String :=
  (volatilityExpansion lib).map fun x =>
    if isNan x then "UNKNOWN"
    else if FloatArithmetic.le (ofRat (15 / 10)) x then "HIGH_VOLATILITY"
    else if FloatArithmetic.le x (ofRat (75 / 100)) then "LOW_VOLATILITY"
    else "NORMAL_VOLATILITY"

def regime : Column (PriceFrame F) String :=
  ((behaviour lib).zipWith (fun a b => a ++ ":" ++ b) direction).zipWith (fun a b => a ++ ":" ++ b)
    (volatilityRegime lib)

end Features

/-! ## Other markets -/

/-- Prices of another market, under the times at which they became available. -/
structure Proxy (F : Type) where
  name : String
  prices : List (ℤ × F)

/-- `reindex(index, method="ffill", tolerance=3 days)` for one time -/
def alignedPrice (prices : List (ℤ × F)) (time : ℤ) : F :=
  match (prices.filter fun p => p.1 ≤ time).getLast? with
  | none => nan
  | some (availableAt, price) => if time - availableAt ≤ 3 * Features.microsecondsPerDay then price else nan

inductive Cell (F : Type)
  | number (x : F)
  | flag (b : Bool)
  | text (s : String)

namespace Features

open FloatColumn

def numberCells (columns : List (String × FloatColumn F)) : List (String × Column (PriceFrame F) (Cell F)) :=
  columns.map fun c => (c.1, c.2.map Cell.number)

def flagCells (columns : List (String × FlagColumn F)) : List (String × Column (PriceFrame F) (Cell F)) :=
  columns.map fun c => (c.1, c.2.map Cell.flag)

def textCells (columns : List (String × Column (PriceFrame F) String)) :
    List (String × Column (PriceFrame F) (Cell F)) :=
  columns.map fun c => (c.1, c.2.map Cell.text)

/-- Do the changes have different signs, where both are known? -/
def divergenceCell (left right : F) : Cell F :=
  if !isNan left && !isNan right then .flag !(FloatArithmetic.eq (FloatArithmetic.sign left)
    (FloatArithmetic.sign right))
  else .number nan

section
variable (lib : Analytics F)

/-- The features of one proxy. -/
def proxyFeatures (name : String) (aligned : FloatColumn F) : List (String × Column (PriceFrame F) (Cell F)) :=
  let returns := pctChange close 1
  let proxyReturns := pctChange aligned 1
  [(name ++ "_correlation", (rollingPair returns proxyReturns lib .correlation 60 20).map Cell.number),
    (name ++ "_beta", (rollingPair returns proxyReturns lib .covariance 60 20 /
      rolling proxyReturns lib .variance 60 20).map Cell.number),
    (name ++ "_relative_strength", (pctChange close 20 - pctChange aligned 20).map Cell.number),
    (name ++ "_divergence", (diff close 20).zipWith divergenceCell (diff aligned 20)),
    (name ++ "_risk_proxy_direction", (sign (diff aligned 20)).map Cell.number)]

def aligned (proxy : Proxy F) : FloatColumn F := PriceFrame.column fun row => alignedPrice proxy.prices row.time

def sessionFeatures (zones : ZoneInfo) (timeframeSeconds : ℤ) (session : Session) :
    List (String × Column (PriceFrame F) (Cell F)) :=
  let highs := sessionExtremum zones timeframeSeconds session maximum high
  let lows := sessionExtremum zones timeframeSeconds session minimum low
  [(session.name ++ "_high", highs.map Cell.number),
    (session.name ++ "_low", lows.map Cell.number),
    (session.name ++ "_range", (highs - lows).map Cell.number),
    (session.name ++ "_volatility", (sessionVolatility lib zones timeframeSeconds session).map Cell.number),
    (session.name ++ "_active", (inSession zones timeframeSeconds session).map Cell.flag)]

/-- The columns that need the prices of the instrument only. -/
def ownFeatures (zones : ZoneInfo) (timeframeSeconds : ℤ) : List (String × Column (PriceFrame F) (Cell F)) :=
  numberCells (technicalFeatures lib) ++
  numberCells
    [("efficiency", efficiency lib),
      ("trend_slope", trendSlope),
      ("ma_separation", maSeparation lib),
      ("realized_volatility", realizedVolatility lib),
      ("volatility_expansion", volatilityExpansion lib)] ++
  flagCells [("volatility_contraction", (volatilityExpansion lib).lt (FloatColumn.const (75 / 100)))] ++
  numberCells
    [("atr_percentile", (atr lib).rolling lib .percentRank 100 20),
      ("historical_volatility_percentile", (realizedVolatility lib).rolling lib .percentRank 100 20),
      ("range_high", rangeHigh),
      ("range_low", rangeLow),
      ("distance_high", (rangeHigh - close) / atr lib),
      ("distance_low", (close - rangeLow) / atr lib),
      ("swing_high", swingHigh),
      ("swing_low", swingLow)] ++
  flagCells
    [("higher_high", priorHigh.lt highPivot),
      ("lower_high", highPivot.lt priorHigh),
      ("higher_low", priorLow.lt lowPivot),
      ("lower_low", lowPivot.lt priorLow),
      ("bos_up", (swingHigh.shift 1).lt close),
      ("bos_down", close.lt (swingLow.shift 1)),
      ("equal_highs", (high - rangeHigh : FloatColumn F).abs.le (tolerance lib)),
      ("equal_lows", (low - rangeLow : FloatColumn F).abs.le (tolerance lib)),
      ("sweep_high", FlagColumn.and (rangeHigh.lt high) (close.lt rangeHigh)),
      ("sweep_low", FlagColumn.and (low.lt rangeLow) (rangeLow.lt close))] ++
  numberCells
    [("rejection_up", (high - bodyHigh) / (high - low)),
      ("rejection_down", (bodyLow - low) / (high - low)),
      ("volume_anomaly", volume / (volume.shift 1).rolling lib .mean 20 20),
      ("previous_day_high", previousDayHigh timeframeSeconds),
      ("previous_day_low", previousDayLow timeframeSeconds)] ++
  sessions.flatMap (sessionFeatures lib zones timeframeSeconds) ++
  textCells
    [("behaviour", behaviour lib),
      ("direction", direction),
      ("volatility_regime", volatilityRegime lib),
      ("regime", regime lib)]

end

end Features

/-- `replace([inf, -inf], nan)` -/
def Cell.clean : Cell F → Cell F
  | .number x => if isInf x then .number nan else .number x
  | cell => cell

/-! ## The features -/

structure FeatureTable (F : Type) where
  index : List ℤ
  columns : List (String × List (Cell F))

/-- The rows that are known at a time. -/
def FeatureTable.upTo (t : ℤ) (table : FeatureTable F) : FeatureTable F :=
  let n := table.index.countP fun time => time ≤ t
  { index := table.index.take n, columns := table.columns.map fun c => (c.1, c.2.take n) }

/-- The checks of the proxies. -/
def checkProxy (isIdentifier : String → Bool) (proxy : Proxy F) : Except String Unit :=
  if !isIdentifier proxy.name then
    .error "intermarket input requires named UTC availability-indexed prices"
  else if ¬(proxy.prices.map Prod.fst).Pairwise (· < ·) then
    .error "intermarket proxy availability must be aware, ordered and unique"
  else .ok ()

section
variable (lib : Analytics F) (zones : ZoneInfo) (isIdentifier : String → Bool)

def featureTable (timeframeSeconds : ℤ) (intermarket : List (Proxy F)) (frame : PriceFrame F) : FeatureTable F where
  index := frame.rows.map PriceRow.time
  columns :=
    (Features.ownFeatures lib zones timeframeSeconds ++
      intermarket.flatMap fun proxy => Features.proxyFeatures lib proxy.name (Features.aligned proxy)).map
      fun c => (c.1, (c.2.values frame).map Cell.clean)

def buildFeatures (candles : List BacktestCandle) (timeframeSeconds : ℤ) (intermarket : List (Proxy F))
    (asOf : Option ℤ) : Except String (FeatureTable F) := do
  let frame ← candleFrame candles timeframeSeconds
  let frame := match asOf with
    | some t => frame.upTo t
    | none => frame
  if frame.rows.isEmpty then .error "no completed candles at the research cutoff"
  else do
    intermarket.forM (checkProxy isIdentifier)
    return featureTable lib zones timeframeSeconds intermarket frame

end

/-! ## No look-ahead -/

/-- Has the candle closed? -/
def closedBy (timeframeSeconds t : ℤ) (c : BacktestCandle) : Bool :=
  c.observedAt.instant + 1000000 * timeframeSeconds ≤ t

/-- The prices that were available at a time. -/
def Proxy.upTo (t : ℤ) (proxy : Proxy F) : Proxy F :=
  { proxy with prices := proxy.prices.filter fun p => p.1 ≤ t }

theorem alignedPrice_upTo {t time : ℤ} (h : time ≤ t) (prices : List (ℤ × F)) :
    alignedPrice (prices.filter fun p => p.1 ≤ t) time = alignedPrice prices time := by
  have hfilter : ((prices.filter fun p => p.1 ≤ t).filter fun p => p.1 ≤ time) =
      prices.filter fun p => p.1 ≤ time := by
    rw [List.filter_filter]
    refine List.filter_congr fun p _ => ?_
    by_cases hp : p.1 ≤ time
    · simp [hp, hp.trans h]
    · simp [hp]
  unfold alignedPrice
  rw [hfilter]

section
variable {lib : Analytics F} {zones : ZoneInfo} {isIdentifier : String → Bool}

/-- The features of a proxy depend on its aligned prices. -/
theorem proxyFeatures_congr (name : String) {a b : FloatColumn F} {frame : PriceFrame F}
    (h : a.values frame = b.values frame) :
    ((Features.proxyFeatures lib name a).map fun c => (c.1, (c.2.values frame).map Cell.clean)) =
      (Features.proxyFeatures lib name b).map fun c => (c.1, (c.2.values frame).map Cell.clean) := by
  have hchange : ∀ n, (FloatColumn.pctChange a n).values frame = (FloatColumn.pctChange b n).values frame := by
    intro n
    change List.zipWith sub (List.zipWith div (a.values frame) (shift nan n (a.values frame))) _ =
      List.zipWith sub (List.zipWith div (b.values frame) (shift nan n (b.values frame))) _
    rw [h]
  have hdiff : ∀ n, (FloatColumn.diff a n).values frame = (FloatColumn.diff b n).values frame := by
    intro n
    change List.zipWith sub (a.values frame) (shift nan n (a.values frame)) =
      List.zipWith sub (b.values frame) (shift nan n (b.values frame))
    rw [h]
  have hpair : ∀ statistic w m, (FloatColumn.rollingPair (FloatColumn.pctChange Features.close 1)
      (FloatColumn.pctChange a 1) lib statistic w m).values frame =
      (FloatColumn.rollingPair (FloatColumn.pctChange Features.close 1)
        (FloatColumn.pctChange b 1) lib statistic w m).values frame := by
    intro statistic w m
    unfold FloatColumn.rollingPair
    rw [Column.values_through, Column.values_through, Column.values_zipWith, Column.values_zipWith, hchange]
  have hvariance : (FloatColumn.rolling (FloatColumn.pctChange a 1) lib .variance 60 20).values frame =
      (FloatColumn.rolling (FloatColumn.pctChange b 1) lib .variance 60 20).values frame := by
    unfold FloatColumn.rolling
    rw [Column.values_through, Column.values_through, hchange]
  have hdivision : ∀ x y : FloatColumn F, (x / y).values frame =
      List.zipWith div (x.values frame) (y.values frame) := fun _ _ => rfl
  have hdifference : ∀ x y : FloatColumn F, (x - y).values frame =
      List.zipWith sub (x.values frame) (y.values frame) := fun _ _ => rfl
  unfold Features.proxyFeatures
  simp only [List.map_cons, List.map_nil, Column.values_map, Column.values_zipWith, FloatColumn.sign,
    hdivision, hdifference, hpair, hvariance, hchange, hdiff]

/-- At the rows up to a time, later prices of the proxies make no difference. -/
theorem featureTable_upTo_proxies {timeframeSeconds t : ℤ} (intermarket : List (Proxy F)) {frame : PriceFrame F}
    (h : ∀ row ∈ frame.rows, row.time ≤ t) :
    featureTable lib zones timeframeSeconds (intermarket.map (Proxy.upTo t)) frame =
      featureTable lib zones timeframeSeconds intermarket frame := by
  have haligned : ∀ proxy : Proxy F, (Features.aligned (proxy.upTo t)).values frame =
      (Features.aligned proxy).values frame := by
    intro proxy
    exact List.map_congr_left fun row hrow => alignedPrice_upTo (h row hrow) proxy.prices
  have hcolumns : ∀ proxies : List (Proxy F),
      (((proxies.map (Proxy.upTo t)).flatMap fun proxy =>
        Features.proxyFeatures lib proxy.name (Features.aligned proxy)).map fun c =>
          (c.1, (c.2.values frame).map Cell.clean)) =
      (proxies.flatMap fun proxy => Features.proxyFeatures lib proxy.name (Features.aligned proxy)).map fun c =>
        (c.1, (c.2.values frame).map Cell.clean) := by
    intro proxies
    induction proxies with
    | nil => rfl
    | cons proxy proxies ih =>
      rw [List.map_cons, List.flatMap_cons, List.flatMap_cons, List.map_append, List.map_append, ih]
      exact congrArg (· ++ _) (proxyFeatures_congr proxy.name (haligned proxy))
  unfold featureTable
  rw [List.map_append, List.map_append, hcolumns]

/-- The features of the first rows are the first rows of the features. -/
theorem featureTable_upTo {timeframeSeconds : ℤ} {intermarket : List (Proxy F)} (t : ℤ) (frame : PriceFrame F) :
    featureTable lib zones timeframeSeconds intermarket (frame.upTo t) =
      (featureTable lib zones timeframeSeconds intermarket frame).upTo t := by
  have hcount : ((frame.rows.map PriceRow.time).countP fun time => time ≤ t) = frame.countUpTo t :=
    List.countP_map
  have hrows : (Rows.cut (frame.countUpTo t) frame).rows.map PriceRow.time =
      (frame.rows.map PriceRow.time).take (frame.countUpTo t) := List.map_take
  rw [PriceFrame.upTo_eq_cut]
  unfold featureTable FeatureTable.upTo
  simp only [hcount, hrows, List.map_map, FeatureTable.mk.injEq, true_and]
  refine List.map_congr_left fun c _ => ?_
  simp only [Function.comp_apply, c.2.values_cut, List.map_take]

theorem candleFrame_eq_ok {candles : List BacktestCandle} {timeframeSeconds : ℤ} {frame : PriceFrame F} :
    candleFrame candles timeframeSeconds = .ok frame ↔
      validateCandles 1 candles = .ok () ∧ frame.rows = candles.map (priceRow timeframeSeconds) := by
  unfold candleFrame
  split
  next message hvalid =>
    rw [hvalid]
    exact ⟨fun h => (by cases h), fun h => (by cases h.1)⟩
  next u hvalid =>
    constructor
    · intro h
      cases h
      exact ⟨hvalid, rfl⟩
    · rintro ⟨-, hrows⟩
      obtain ⟨rows, hordered⟩ := frame
      subst hrows
      rfl

/-- What the features are built of. -/
theorem buildFeatures_eq_ok {candles : List BacktestCandle} {timeframeSeconds : ℤ}
    {intermarket : List (Proxy F)} {table : FeatureTable F} :
    buildFeatures lib zones isIdentifier candles timeframeSeconds intermarket none = .ok table ↔
      ∃ frame, candleFrame candles timeframeSeconds = .ok frame ∧ frame.rows ≠ [] ∧
        intermarket.forM (checkProxy isIdentifier) = .ok () ∧
        table = featureTable lib zones timeframeSeconds intermarket frame := by
  unfold buildFeatures
  constructor
  · intro h
    obtain ⟨frame, hframe, h⟩ := ok_of_bind h
    obtain ⟨hnonempty, h⟩ := ok_of_guard h
    obtain ⟨⟨⟩, hchecked, h⟩ := ok_of_bind h
    cases h
    exact ⟨frame, hframe, by simpa using hnonempty, hchecked, rfl⟩
  · rintro ⟨frame, hframe, hnonempty, hchecked, rfl⟩
    rw [bind_ok_eq hframe]
    simp only
    rw [if_neg (by simpa using hnonempty), bind_ok_eq hchecked]
    rfl

theorem rows_upTo {candles : List BacktestCandle} {timeframeSeconds t : ℤ} :
    ((candles.map (priceRow (F := F) timeframeSeconds)).filter fun row => row.time ≤ t) =
      (candles.filter (closedBy timeframeSeconds t)).map (priceRow timeframeSeconds) := by
  rw [List.filter_map]
  rfl

/-- **No look-ahead.** Features built as of a time are the rows known by then of the features built without a
limit, and it does not matter whether the proxies are cut at that time. Histories that agree on the candles
closed by a time and on the prices available by then have the same rows up to this time. -/
theorem buildFeatures_no_lookahead {candles : List BacktestCandle} {timeframeSeconds : ℤ}
    {intermarket : List (Proxy F)} {table : FeatureTable F}
    (h : buildFeatures lib zones isIdentifier candles timeframeSeconds intermarket none = .ok table) (t : ℤ) :
    (buildFeatures lib zones isIdentifier candles timeframeSeconds intermarket (some t) =
      if (table.upTo t).index = [] then .error "no completed candles at the research cutoff"
      else .ok (table.upTo t)) ∧
    ∀ candles' intermarket' table',
      buildFeatures lib zones isIdentifier candles' timeframeSeconds intermarket' none = .ok table' →
      candles'.filter (closedBy timeframeSeconds t) = candles.filter (closedBy timeframeSeconds t) →
      intermarket'.map (Proxy.upTo t) = intermarket.map (Proxy.upTo t) → table'.upTo t = table.upTo t := by
  have hknown : ∀ frame : PriceFrame F, ∀ row ∈ (frame.upTo t).rows, row.time ≤ t := by
    intro frame row hrow
    simpa using (List.mem_filter.1 hrow).2
  obtain ⟨frame, hframe, hnonempty, hchecked, rfl⟩ := buildFeatures_eq_ok.1 h
  refine ⟨?_, fun candles' intermarket' table' h' hcandles hproxies => ?_⟩
  · rw [← featureTable_upTo]
    have hindex : (featureTable lib zones timeframeSeconds intermarket (frame.upTo t)).index = [] ↔
        (frame.upTo t).rows.isEmpty = true := by
      rw [List.isEmpty_iff]
      exact List.map_eq_nil_iff
    unfold buildFeatures
    rw [bind_ok_eq hframe]
    simp only [hindex]
    split
    next => rfl
    next =>
      rw [bind_ok_eq hchecked]
      rfl
  · obtain ⟨frame', hframe', -, -, rfl⟩ := buildFeatures_eq_ok.1 h'
    have hsame : frame'.upTo t = frame.upTo t := by
      unfold PriceFrame.upTo
      congr 1
      rw [(candleFrame_eq_ok.1 hframe').2, (candleFrame_eq_ok.1 hframe).2, rows_upTo, rows_upTo, hcandles]
    rw [← featureTable_upTo, ← featureTable_upTo, hsame,
      ← featureTable_upTo_proxies intermarket (hknown frame),
      ← featureTable_upTo_proxies intermarket' (hknown frame), hproxies]

end

/-! ## Swings -/

theorem getElem?_carry {last : F} {xs : List F} {i : ℕ} (h : i < xs.length) :
    (carry last xs)[i]? = some (((xs.take (i + 1)).filter fun x => !isNan x).getLastD last) := by
  induction xs generalizing last i with
  | nil => cases h
  | cons x xs ih =>
    have hstep : carry last (x :: xs) =
        (if isNan x then last else x) :: carry (if isNan x then last else x) xs := rfl
    have hkeep : ∀ ys, ((x :: ys).filter fun x => !isNan x).getLastD last =
        (ys.filter fun x => !isNan x).getLastD (if isNan x then last else x) := by
      intro ys
      by_cases hx : isNan x = true
      · rw [List.filter_cons_of_neg (by simp [hx]), if_pos hx]
      · rw [List.filter_cons_of_pos (by simp [hx]), List.getLastD_cons, if_neg hx]
    rw [hstep, List.take_succ_cons, hkeep]
    cases i with
    | zero => rfl
    | succ i => exact ih (by simpa using h)

/-- The price of a bar is the extremum of the five bars around it. -/
def IsPivot (extremum : F → F → F) (prices : List F) (j : ℕ) : Prop :=
  2 ≤ j ∧ ∃ price, prices[j]? = some price ∧
    FloatArithmetic.eq price (extremumOf extremum ((prices.drop (j - 2)).take 5)) = true

section
variable {extremum : F → F → F} {prices : List F}

/-- The pivots of a series, each two places after its bar. -/
def pivots (extremum : F → F → F) (prices : List F) : List F :=
  List.zipWith (fun x flag => if flag then x else nan) (shift nan 2 prices)
    (List.zipWith FloatArithmetic.eq (shift nan 2 prices) (rollingExtremum extremum 5 prices))

theorem getElem?_rollingExtremum (hnumbers : ∀ p ∈ prices, isNan p = false) {i : ℕ} (h : i < prices.length) :
    (rollingExtremum extremum 5 prices)[i]? =
      some (if i < 4 then nan else extremumOf extremum ((prices.drop (i - 4)).take 5)) := by
  have hwindow : ((lastly 5 (prices.take (i + 1))).filter fun x => !isNan x) =
      lastly 5 (prices.take (i + 1)) := by
    refine List.filter_eq_self.2 fun p hp => ?_
    rw [hnumbers p (List.mem_of_mem_take (List.mem_of_mem_drop hp))]
    rfl
  have hlength : (lastly 5 (prices.take (i + 1))).length = min 5 (i + 1) := by
    unfold lastly
    rw [List.length_drop, List.length_take]
    omega
  unfold rollingExtremum
  rw [getElem?_eachPrefix h]
  simp only [hwindow, hlength]
  by_cases hi : i < 4
  · rw [if_pos (by omega), if_pos hi]
  · have hlast : lastly 5 (prices.take (i + 1)) = (prices.drop (i - 4)).take 5 := by
      unfold lastly
      rw [List.length_take, List.drop_take]
      congr 1
      · omega
      · congr 1
        omega
    rw [if_neg (by omega), if_neg hi, hlast]

/-- A pivot column has the price of a pivot two bars after it, and no other numbers. -/
theorem getElem?_pivots (extremum : F → F → F) (hnumbers : ∀ p ∈ prices, isNan p = false) {i : ℕ} (h : i < prices.length) :
    ∃ x, (pivots extremum prices)[i]? = some x ∧
      ((∃ j, i = j + 2 ∧ IsPivot extremum prices j ∧ prices[j]? = some x ∧ isNan x = false) ∨
        (∀ j, i = j + 2 → ¬IsPivot extremum prices j) ∧ isNan x = true) := by
  have hvalue : ∀ x, (shift nan 2 prices)[i]? = some x → (pivots extremum prices)[i]? =
      some (if FloatArithmetic.eq x
        (if i < 4 then nan else extremumOf extremum ((prices.drop (i - 4)).take 5)) then x else nan) := by
    intro x hx
    unfold pivots
    rw [List.getElem?_zipWith, List.getElem?_zipWith, hx, getElem?_rollingExtremum hnumbers h]
  have hnot : ∀ j, i = j + 2 → i < 4 → ¬IsPivot extremum prices j := fun j hj hi hpivot => by
    have := hpivot.1
    omega
  by_cases hi : i < 2
  · refine ⟨nan, ?_, .inr ⟨fun j hj => hnot j hj (by omega), isNan_nan⟩⟩
    rw [hvalue nan (by rw [getElem?_shift h, if_pos hi]), nan_eq]
    rfl
  · obtain ⟨price, hprice⟩ : ∃ price, prices[i - 2]? = some price :=
      ⟨_, List.getElem?_eq_getElem (by omega)⟩
    have hx := hvalue price (by rw [getElem?_shift h, if_neg hi, hprice])
    have hnumber := hnumbers price (List.mem_of_getElem? hprice)
    by_cases hfour : i < 4
    · refine ⟨nan, ?_, .inr ⟨fun j hj => hnot j hj hfour, isNan_nan⟩⟩
      rw [hx, if_pos hfour, eq_nan]
      rfl
    · rw [if_neg hfour] at hx
      by_cases heq : FloatArithmetic.eq price (extremumOf extremum ((prices.drop (i - 4)).take 5)) = true
      · rw [heq, if_pos rfl] at hx
        exact ⟨price, hx, .inl ⟨i - 2, by omega, ⟨by omega, price, hprice, heq⟩, hprice, hnumber⟩⟩
      · refine ⟨nan, by rw [hx, if_neg heq], .inr ⟨fun j hj hpivot => ?_, isNan_nan⟩⟩
        obtain ⟨-, price', hprice', heq'⟩ := hpivot
        have hj' : j = i - 2 := by omega
        subst hj'
        cases hprice.symm.trans hprice'
        exact heq heq'

/-- The price of the latest pivot whose five bars are among the first `n`; no number if there is none. -/
def LatestPivot (extremum : F → F → F) (prices : List F) (n : ℕ) (x : F) : Prop :=
  (∃ j, j + 2 < n ∧ IsPivot extremum prices j ∧ prices[j]? = some x ∧
    ∀ k, j < k → k + 2 < n → ¬IsPivot extremum prices k) ∨
  (∀ k, k + 2 < n → ¬IsPivot extremum prices k) ∧ isNan x = true

theorem latest_pivot (hnumbers : ∀ p ∈ prices, isNan p = false) {n : ℕ} (h : n ≤ prices.length) :
    LatestPivot extremum prices n
      ((((pivots extremum prices).take n).filter fun x => !isNan x).getLastD nan) := by
  induction n with
  | zero => exact .inr ⟨fun k hk => by omega, isNan_nan⟩
  | succ i ih =>
    obtain ⟨x, hx, hcases⟩ := getElem?_pivots extremum hnumbers h
    have htake : (pivots extremum prices).take (i + 1) = (pivots extremum prices).take i ++ [x] := by
      obtain ⟨hlt, rfl⟩ := List.getElem?_eq_some_iff.1 hx
      exact List.take_succ_eq_append_getElem hlt
    rcases hcases with ⟨j, hj, hpivot, hprice, hnumber⟩ | ⟨hnone, hnan⟩
    · have hlatest : (((pivots extremum prices).take (i + 1)).filter fun x => !isNan x).getLastD nan = x := by
        simp [htake, List.filter_append, hnumber]
      rw [hlatest]
      exact .inl ⟨j, by omega, hpivot, hprice, fun k hk hk' => by omega⟩
    · have hlatest : (((pivots extremum prices).take (i + 1)).filter fun x => !isNan x).getLastD nan =
          (((pivots extremum prices).take i).filter fun x => !isNan x).getLastD nan := by
        simp [htake, List.filter_append, hnan]
      have hstep : ∀ k, k + 2 < i + 1 → ¬k + 2 < i → ¬IsPivot extremum prices k :=
        fun k hk hk' => hnone k (by omega)
      rw [hlatest]
      rcases ih (by omega) with ⟨j, hj, hpivot, hprice, hlater⟩ | ⟨hnever, hnan'⟩
      · refine .inl ⟨j, by omega, hpivot, hprice, fun k hk hk' => ?_⟩
        by_cases hki : k + 2 < i
        · exact hlater k hk hki
        · exact hstep k hk' hki
      · refine .inr ⟨fun k hk => ?_, hnan'⟩
        by_cases hki : k + 2 < i
        · exact hnever k hki
        · exact hstep k hk hki

theorem swing_of_pivots (hnumbers : ∀ p ∈ prices, isNan p = false) {i : ℕ} (h : i < prices.length) :
    ∃ x, (carry nan (pivots extremum prices))[i]? = some x ∧ LatestPivot extremum prices (i + 1) x := by
  have hlength : i < (pivots extremum prices).length := by
    obtain ⟨x, hx, -⟩ := getElem?_pivots extremum hnumbers h
    exact (List.getElem?_eq_some_iff.1 hx).1
  exact ⟨_, getElem?_carry hlength, latest_pivot hnumbers h⟩

end

/-- **A swing is recorded when it is confirmed.** The swing high of a row is the high of the latest bar, at
least two rows before it, that is the highest of the five bars around it, and the swing low the low of the
latest such lowest bar; where there is none, there is no number. -/
theorem swing_confirmed {candles : List BacktestCandle} {timeframeSeconds : ℤ} {frame : PriceFrame F}
    (h : candleFrame candles timeframeSeconds = .ok frame) {i : ℕ} (hi : i < candles.length) :
    (∃ x, (Features.swingHigh.values frame)[i]? = some x ∧
      LatestPivot maximum (candles.map fun c => ofRat c.high) (i + 1) x) ∧
    ∃ x, (Features.swingLow.values frame)[i]? = some x ∧
      LatestPivot minimum (candles.map fun c => ofRat c.low) (i + 1) x := by
  have hrows := (candleFrame_eq_ok.1 h).2
  have hhigh : Features.high.values frame = candles.map fun c => ofRat c.high := by
    change frame.rows.map PriceRow.high = _
    rw [hrows, List.map_map]
    rfl
  have hlow : Features.low.values frame = candles.map fun c => ofRat c.low := by
    change frame.rows.map PriceRow.low = _
    rw [hrows, List.map_map]
    rfl
  have hswingHigh : Features.swingHigh.values frame =
      carry nan (pivots maximum (Features.high.values frame)) := rfl
  have hswingLow : Features.swingLow.values frame =
      carry nan (pivots minimum (Features.low.values frame)) := rfl
  have hnumbers : ∀ price : BacktestCandle → ℚ, ∀ p ∈ candles.map (fun c => ofRat (F := F) (price c)),
      isNan p = false := by
    intro price p hp
    obtain ⟨c, -, rfl⟩ := List.mem_map.1 hp
    exact isNan_ofRat _
  rw [hswingHigh, hswingLow, hhigh, hlow]
  exact ⟨swing_of_pivots (hnumbers fun c => c.high) (by rwa [List.length_map]),
    swing_of_pivots (hnumbers fun c => c.low) (by rwa [List.length_map])⟩

end

/-! ## A short history -/

namespace PyFloat

def map₂ (f : ℚ → ℚ → ℚ) : PyFloat → PyFloat → PyFloat
  | finite x, finite y => finite (f x y)
  | _, _ => nan

def test₂ (f : ℚ → ℚ → Bool) : PyFloat → PyFloat → Bool
  | finite x, finite y => f x y
  | _, _ => false

def map₁ (f : ℚ → ℚ) : PyFloat → PyFloat
  | finite x => finite (f x)
  | _ => nan

def divide : PyFloat → PyFloat → PyFloat
  | finite x, finite y =>
    if y ≠ 0 then finite (x / y) else if x = 0 then nan else if 0 < x then posInf else negInf
  | _, _ => nan

def isNan : PyFloat → Bool
  | nan => true
  | _ => false

def isInfinite : PyFloat → Bool
  | posInf => true
  | negInf => true
  | _ => false

theorem test₂_nan (f : ℚ → ℚ → Bool) (x : PyFloat) : test₂ f x nan = false := by cases x <;> rfl

theorem nan_test₂ (f : ℚ → ℚ → Bool) (x : PyFloat) : test₂ f nan x = false := rfl

theorem isNan_nan : isNan nan = true := rfl

theorem isNan_finite (q : ℚ) : isNan (finite q) = false := rfl

/-- Exact on finite numbers; the logarithm of 1 only. -/
instance : FloatArithmetic PyFloat where
  ofRat := finite
  nan := nan
  sub := map₂ fun x y => x - y
  mul := map₂ fun x y => x * y
  div := divide
  maximum := map₂ max
  minimum := map₂ min
  abs := map₁ fun x => |x|
  sign := map₁ fun x => if 0 < x then 1 else if x < 0 then -1 else 0
  log := fun x => if x = finite 1 then finite 0 else nan
  lt := test₂ fun x y => x < y
  le := test₂ fun x y => x ≤ y
  eq := test₂ fun x y => x = y
  isNan := isNan
  isInf := isInfinite
  isNan_nan := isNan_nan
  eq_nan := test₂_nan _
  nan_eq := nan_test₂ _
  isNan_ofRat := isNan_finite

end PyFloat

/-- The values of windows that have not filled. -/
def unfilled {α β : Type} (missing : β) : OnlineFunction α β := ⟨List.map fun _ => missing, Online.map _⟩

/-- The indicators of fewer than nine rows: only the true range and the balance of the volumes have values. -/
def shortAnalytics : Analytics PyFloat where
  atr _ := unfilled .nan
  adx _ := unfilled .nan
  cci _ := unfilled .nan
  willr _ := unfilled .nan
  trange :=
    ⟨trace (fun (last : PyFloat) (bar : PyFloat × PyFloat × PyFloat) =>
      (bar.2.2, FloatArithmetic.sub (FloatArithmetic.maximum bar.1 last)
        (FloatArithmetic.minimum bar.2.1 last))) .nan, trace_online _ _⟩
  rsi _ := unfilled .nan
  ema _ := unfilled .nan
  sma _ := unfilled .nan
  roc _ := unfilled .nan
  obv :=
    ⟨trace (fun (last : Option (PyFloat × PyFloat)) (bar : PyFloat × PyFloat) =>
      match last with
      | none => (some bar, bar.2)
      | some (close, balance) =>
        let next :=
          if FloatArithmetic.lt close bar.1 then PyFloat.map₂ (· + ·) balance bar.2
          else if FloatArithmetic.lt bar.1 close then FloatArithmetic.sub balance bar.2
          else balance
        (some (bar.1, next), next)) none, trace_online _ _⟩
  macd := unfilled (.nan, .nan, .nan)
  bbands _ := unfilled (.nan, .nan, .nan)
  stoch := unfilled (.nan, .nan)
  rolling _ _ _ := unfilled .nan
  rollingPair _ _ _ := unfilled .nan
  expandingStd _ := unfilled .nan

/-- Time zones in winter. -/
def winterZones : ZoneInfo := fun zone _ =>
  match zone with
  | .london => 0
  | .newYork => -18000000000
  | .tokyo => 32400000000
  | .sydney => 39600000000

/-- A quarter of an hour that begins `n` quarters after ten in the evening, 5 January 2026. -/
def eveningBar (n : ℕ) (high : ℚ) : BacktestCandle where
  observedAt := ⟨1767650400000000 + 900000000 * n, 0⟩
  openPrice := 1
  high := high
  low := 1
  close := 1
  volume := 4

def eveningBars : List BacktestCandle :=
  [eveningBar 0 1, eveningBar 1 2, eveningBar 2 3, eveningBar 3 2, eveningBar 4 1]

/-- A proxy with a price on the third of January and one in the future. -/
def eveningProxy (later : ℚ) : Proxy PyFloat where
  name := "dxy"
  prices := [(1767398400000000, .finite 100), (1767657600000000, .finite later)]

theorem eveningBars_valid (n : ℕ) (hn : n = 3 ∨ n = 5) : validateCandles 1 (eveningBars.take n) = .ok () := by
  rcases hn with rfl | rfl <;> rfl

theorem eveningFeatures (n : ℕ) (hn : n = 3 ∨ n = 5) (later : ℚ) :
    ∃ table, buildFeatures shortAnalytics winterZones (fun name => name = "dxy") (eveningBars.take n) 900
      [eveningProxy later] none = .ok table := by
  have hvalid := eveningBars_valid n hn
  have hchronological := chronological_of_valid hvalid
  refine ⟨_, buildFeatures_eq_ok.2 ⟨⟨_, priceRows_ordered 900 hchronological⟩,
    candleFrame_eq_ok.2 ⟨hvalid, rfl⟩, ?_, ?_, rfl⟩⟩
  · rcases hn with rfl | rfl <;> simp [eveningBars]
  · simp [checkProxy, eveningProxy]

theorem evening_no_lookahead :
    ∃ early late, (buildFeatures shortAnalytics winterZones (fun name => name = "dxy") eveningBars 900
      [eveningProxy 101] none = .ok late) ∧
      (buildFeatures shortAnalytics winterZones (fun name => name = "dxy") (eveningBars.take 3) 900
        [eveningProxy 90] none = .ok early) ∧
      late.upTo 1767653100000000 = early.upTo 1767653100000000 := by
  obtain ⟨late, hlate⟩ := eveningFeatures 5 (.inr rfl) 101
  obtain ⟨early, hearly⟩ := eveningFeatures 3 (.inl rfl) 90
  refine ⟨early, late, hlate, hearly, ?_⟩
  exact (buildFeatures_no_lookahead hearly 1767653100000000).2 eveningBars [eveningProxy 101] late hlate rfl rfl

theorem evening_swing : ∃ frame : PriceFrame PyFloat, candleFrame eveningBars 900 = .ok frame ∧
    (Features.swingHigh.values frame)[4]? = some (.finite 3) := by
  have hvalid := eveningBars_valid 5 (.inr rfl)
  have hframe : candleFrame eveningBars 900 =
      .ok (⟨_, priceRows_ordered (F := PyFloat) 900 (chronological_of_valid hvalid)⟩ : PriceFrame PyFloat) :=
    candleFrame_eq_ok.2 ⟨hvalid, rfl⟩
  refine ⟨_, hframe, ?_⟩
  have hpivot : IsPivot (F := PyFloat) FloatArithmetic.maximum
      (eveningBars.map fun c => FloatArithmetic.ofRat c.high) 2 := ⟨le_rfl, .finite 3, rfl, rfl⟩
  obtain ⟨⟨x, hx, hlatest⟩, -⟩ := swing_confirmed hframe (i := 4) (by decide)
  rw [hx]
  rcases hlatest with ⟨j, hj, hjpivot, hprice, -⟩ | ⟨hnone, -⟩
  · have htwo : j = 2 := by
      have := hjpivot.1
      omega
    subst htwo
    exact hprice.symm
  · exact absurd hpivot (hnone 2 (by decide))

end Matrades

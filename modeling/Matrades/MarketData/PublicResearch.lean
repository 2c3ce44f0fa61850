import Matrades.Base.Codec
import Matrades.Base.Result
import Matrades.Base.Window
import Matrades.MarketData.FourHour
import Matrades.Research.History
import Matrades.Research.Models

/-!
# Public research feeds

`ccxt_history` and `decode_ticks` of `adapters/market_data/public_research.py`.

An exchange answers `fetch_ohlcv` with rows from a time on, a page at a time; the n-th call may answer
differently from the calls before. `ccxtPages` is the loop over the pages. From an exchange that answers with
rows of one book, in order and at least one while there are any (`Honest`), the loop collects all rows of the
interval and no other (`ccxtPages_complete`).

A Dukascopy partition is a sequence of records of 20 bytes, compressed. `decompress` is the LZMA decoder, with
the greatest length of its output; it also says whether the stream has ended. What is accepted is exactly the
valid ticks of the hour in the order of their times, packed (`decodeTicks_iff`).
-/

namespace Matrades

open Base

/-! ## Candles of an exchange -/

/-- A row of `fetch_ohlcv`; the time in milliseconds. -/
structure OhlcvRow where
  time : ℤ
  openPrice : ℚ
  high : ℚ
  low : ℚ
  close : ℚ
  volume : ℚ
  deriving DecidableEq, Repr

def OhlcvRow.candle (row : OhlcvRow) : BacktestCandle where
  observedAt := ⟨1000 * row.time, 0⟩
  openPrice := row.openPrice
  high := row.high
  low := row.low
  close := row.close
  volume := row.volume

structure PublicExchange where
  id : String
  markets : List String
  hasFetchOhlcv : Bool
  timeframes : List HistoryTimeframe
  fetchOhlcv : ℕ → String → HistoryTimeframe → ℤ → List OhlcvRow

/-- `EXCHANGES` -/
def publicExchanges : List String := ["coinbase", "binance", "binanceusdm", "kraken", "okx", "bybit"]

/-- `max(row[0] for row in batch)` -/
def latestTime (first : OhlcvRow) (rest : List OhlcvRow) : ℤ :=
  rest.foldl (fun time row => max time row.time) first.time

/-- The rows of a page that lie in the interval. -/
def keepRows (step cursor stop : ℤ) (rows : Dict ℤ OhlcvRow) (batch : List OhlcvRow) : Dict ℤ OhlcvRow :=
  batch.foldl
    (fun rows row => if cursor ≤ row.time ∧ row.time + step ≤ stop then rows.set row.time row else rows) rows

/-- The loop over the pages, with the calls that are left and the number of calls made. -/
def ccxtPages (fetch : ℕ → ℤ → List OhlcvRow) (step stop : ℤ) :
    ℕ → ℕ → ℤ → Dict ℤ OhlcvRow → Except String (Dict ℤ OhlcvRow)
  | 0, _, _, _ => .error "exchange history pagination budget exhausted; import smaller chunks"
  | fuel + 1, n, cursor, rows =>
    match fetch n cursor with
    | [] => .ok rows
    | first :: rest =>
      let rows := keepRows step cursor stop rows (first :: rest)
      let next := latestTime first rest + step
      if next ≤ cursor then .error "exchange history pagination made no progress"
      else if stop ≤ next then .ok rows
      else ccxtPages fetch step stop fuel (n + 1) next rows

def nativeTimeframe (exchange : PublicExchange) (timeframe : HistoryTimeframe) :
    Except String HistoryTimeframe :=
  if timeframe = .h4 ∧ timeframe ∉ exchange.timeframes ∧ .h1 ∈ exchange.timeframes then .ok .h1
  else if timeframe ∉ exchange.timeframes then .error "exchange does not support requested timeframe"
  else .ok timeframe

/-- `ccxt_history`: the candles, and the timeframe in which they were fetched. Instants are microseconds. -/
def ccxtHistory (exchange : PublicExchange) (symbol : String) (start stop : ℤ)
    (timeframe : HistoryTimeframe) : Except String (List BacktestCandle × HistoryTimeframe) := do
  if exchange.id ∉ publicExchanges then .error "unsupported public exchange or timeframe"
  else if symbol ∉ exchange.markets ∨ exchange.hasFetchOhlcv = false then
    .error "exchange does not support mapped instrument OHLCV"
  else
    let native ← nativeTimeframe exchange timeframe
    let rows ← ccxtPages (fun n since => exchange.fetchOhlcv n symbol native since)
      (native.seconds * 1000) (stop.tdiv 1000) 100 0 (start.tdiv 1000) Dict.empty
    let candles := (ranked Prod.fst rows.entries).map fun e => e.2.candle
    if native ≠ timeframe then .ok (publicFourHourCandles candles start stop, native)
    else .ok (candles, native)

/-! ### All candles of the interval -/

/-- The rows of a book that lie in the interval. -/
def rowsWithin (step start stop : ℤ) (book : List OhlcvRow) : List OhlcvRow :=
  book.filter fun row => start ≤ row.time ∧ row.time + step ≤ stop

/-- Every answer is a page of the book, with a row on it if there is one. -/
structure Honest (fetch : ℕ → ℤ → List OhlcvRow) (step : ℤ) (book : List OhlcvRow) : Prop where
  spaced : Spaced OhlcvRow.time step book
  pages : ∀ n since, ∃ k, 0 < k ∧ fetch n since = pageFrom OhlcvRow.time since k book

section
variable {step start stop : ℤ} {book : List OhlcvRow}

/-- Rows under their times. -/
def timed (rows : List OhlcvRow) : List (ℤ × OhlcvRow) := rows.map fun row => (row.time, row)

theorem keepRows_eq (cursor : ℤ) (rows : Dict ℤ OhlcvRow) (batch : List OhlcvRow) :
    keepRows step cursor stop rows batch =
      (timed (rowsWithin step cursor stop batch)).foldl (fun d e => d.set e.1 e.2) rows := by
  unfold keepRows
  induction batch generalizing rows with
  | nil => rfl
  | cons row batch ih =>
    rw [List.foldl_cons, ih]
    unfold rowsWithin timed
    by_cases hin : cursor ≤ row.time ∧ row.time + step ≤ stop
    · rw [if_pos hin, List.filter_cons_of_pos (by simpa using hin)]
      rfl
    · rw [if_neg hin, List.filter_cons_of_neg (by simpa using hin)]

/-- Distinct rows of the book have distinct times. -/
theorem timed_nodup (h : Spaced OhlcvRow.time step book) (hstep : 0 < step) {rows : List OhlcvRow}
    (hsub : rows.Sublist book) : ((timed rows).map Prod.fst).Nodup := by
  have hlt : (book.map OhlcvRow.time).Pairwise (· < ·) :=
    List.pairwise_map.2 (h.imp fun hab => by omega)
  have htimes : (timed rows).map Prod.fst = rows.map OhlcvRow.time := by
    rw [timed, List.map_map]
    rfl
  rw [htimes]
  exact (hlt.sublist (hsub.map _)).imp ne_of_lt

theorem rowsWithin_of_between {lo hi : ℤ} (hstart : start ≤ lo) :
    rowsWithin step start stop (between OhlcvRow.time lo hi book) =
      rowsWithin step lo stop (between OhlcvRow.time lo hi book) := by
  refine List.filter_congr fun row hrow => ?_
  have hlo := (of_decide_eq_true (List.mem_filter.1 hrow).2).1
  simp only [decide_eq_decide]
  omega

/-- What is collected once everything before the cursor has been read. -/
def Collected (step start stop cursor : ℤ) (book : List OhlcvRow) (rows : Dict ℤ OhlcvRow) : Prop :=
  rows.entries = timed (rowsWithin step start stop (between OhlcvRow.time start cursor book))

/-- One page: the rows up to the next cursor. -/
theorem Collected.page (hspaced : Spaced OhlcvRow.time step book) (hstep : 0 < step) {cursor : ℤ} {k : ℕ}
    {rows : Dict ℤ OhlcvRow} (h : Collected step start stop cursor book rows) (hcursor : start ≤ cursor)
    {first : OhlcvRow} {rest : List OhlcvRow}
    (hpage : pageFrom OhlcvRow.time cursor k book = first :: rest) :
    cursor < latestTime first rest + step ∧ Collected step start stop (latestTime first rest + step) book
      (keepRows step cursor stop rows (first :: rest)) := by
  obtain ⟨last, hlast⟩ : ∃ last, (first :: rest).getLast? = some last :=
    ⟨_, List.getLast?_eq_some_getLast (List.cons_ne_nil _ _)⟩
  have hsub : (first :: rest).Sublist book := by
    rw [← hpage]
    exact (List.take_sublist _ _).trans List.filter_sublist
  have hlatest : latestTime first rest = last.time :=
    foldl_max_key ((hspaced.sorted hstep.le).sublist hsub) hlast
  have hbetween : first :: rest = between OhlcvRow.time cursor (last.time + step) book := by
    rw [← hpage]
    exact page_eq_between hspaced hstep (hpage ▸ hlast)
  have hmember : ∀ row ∈ first :: rest, cursor ≤ row.time := by
    intro row hrow
    rw [hbetween] at hrow
    exact (of_decide_eq_true (List.mem_filter.1 hrow).2).1
  have hreaches := hmember last (List.mem_of_getLast? hlast)
  refine ⟨by omega, ?_⟩
  have hjoined : between OhlcvRow.time start (last.time + step) book =
      between OhlcvRow.time start cursor book ++ (first :: rest) := by
    rw [hbetween]
    exact (between_append (hspaced.sorted hstep.le) hcursor (by omega)).symm
  have hwithin : rowsWithin step start stop (between OhlcvRow.time start (last.time + step) book) =
      rowsWithin step start stop (between OhlcvRow.time start cursor book) ++
        rowsWithin step cursor stop (first :: rest) := by
    rw [hjoined]
    refine (List.filter_append _ _).trans ?_
    rw [hbetween, ← rowsWithin_of_between hcursor]
    rfl
  unfold Collected
  rw [hlatest, hwithin, keepRows_eq]
  have hnodup : ((rows.entries ++ timed (rowsWithin step cursor stop (first :: rest))).map
      Prod.fst).Nodup := by
    rw [h, timed, timed, ← List.map_append, ← hwithin]
    exact timed_nodup hspaced hstep (List.filter_sublist.trans List.filter_sublist)
  rw [Dict.entries_foldl_set hnodup, h]
  exact (List.map_append).symm

/-- **The loop collects all rows of the interval.** -/
theorem ccxtPages_complete {fetch : ℕ → ℤ → List OhlcvRow} (h : Honest fetch step book) (hstep : 0 < step)
    (fuel n : ℕ) {cursor : ℤ} (hcursor : start ≤ cursor) {rows : Dict ℤ OhlcvRow}
    (hrows : Collected step start stop cursor book rows) :
    (∃ all, ccxtPages fetch step stop fuel n cursor rows = .ok all ∧
      all.entries = timed (rowsWithin step start stop book)) ∨
    ccxtPages fetch step stop fuel n cursor rows =
      .error "exchange history pagination budget exhausted; import smaller chunks" := by
  induction fuel generalizing n cursor rows with
  | zero => exact .inr rfl
  | succ fuel ih =>
    obtain ⟨k, hk, hfetch⟩ := h.pages n cursor
    cases hbatch : fetch n cursor with
    | nil =>
      refine .inl ⟨rows, by rw [ccxtPages, hbatch], ?_⟩
      -- nothing is left from the cursor on
      have hnone : ∀ row ∈ book, row.time < cursor := by
        rw [hfetch, pageFrom, List.take_eq_nil_iff, List.filter_eq_nil_iff] at hbatch
        intro row hrow
        have := hbatch.resolve_left hk.ne' row hrow
        simpa using this
      rw [hrows]
      have hall : between OhlcvRow.time start cursor book = book.filter fun row => start ≤ row.time := by
        refine List.filter_congr fun row hrow => ?_
        have := hnone row hrow
        simp only [decide_eq_decide]
        omega
      have hsame : rowsWithin step start stop (book.filter fun row => start ≤ row.time) =
          rowsWithin step start stop book := by
        unfold rowsWithin
        rw [List.filter_filter]
        refine List.filter_congr fun row _ => ?_
        simp only [Bool.decide_and]
        cases decide (start ≤ row.time) <;> simp
      rw [hall, hsame]
    | cons first rest =>
      obtain ⟨hforward, hnext⟩ := hrows.page h.spaced hstep hcursor (hfetch ▸ hbatch)
      rw [ccxtPages, hbatch]
      simp only
      rw [if_neg (not_le.2 hforward)]
      split
      next hend =>
        refine .inl ⟨_, rfl, ?_⟩
        rw [hnext]
        have hsame : rowsWithin step start stop
            (between OhlcvRow.time start (latestTime first rest + step) book) =
            rowsWithin step start stop book := by
          unfold rowsWithin between
          rw [List.filter_filter]
          refine List.filter_congr fun row _ => ?_
          simp only [← Bool.decide_and, decide_eq_decide]
          omega
        rw [hsame]
      next => exact ih (n + 1) (hcursor.trans hforward.le) hnext

/-- Rows of the book are collected in the order of their times. -/
theorem ranked_timed (h : Spaced OhlcvRow.time step book) (hstep : 0 < step) {rows : List OhlcvRow}
    (hsub : rows.Sublist book) : ranked Prod.fst (timed rows) = timed rows := by
  have hsorted : (timed rows).Pairwise fun a b => a.1 ≤ b.1 :=
    List.pairwise_map.2 ((h.sorted hstep.le).sublist hsub)
  refine eq_of_sorted (ranked_permutes _ _) ?_ (ranked_sorted _ _) hsorted
  intro a ha b hb hkey
  exact List.inj_on_of_nodup_map (timed_nodup h hstep hsub) ((mem_ranked _).1 ha) ((mem_ranked _).1 hb) hkey

theorem HistoryTimeframe.seconds_pos (timeframe : HistoryTimeframe) : 0 < timeframe.seconds := by
  cases timeframe <;> decide

end

/-- Three hourly candles, each on a page of its own. -/
def hourlyBook : List OhlcvRow :=
  [⟨0, 1, 2, 1, 2, 5⟩, ⟨3600000, 2, 3, 2, 3, 5⟩, ⟨7200000, 3, 3, 1, 1, 5⟩]

def pagedExchange : PublicExchange where
  id := "kraken"
  markets := ["BTC/USD"]
  hasFetchOhlcv := true
  timeframes := [.h1]
  fetchOhlcv := fun _ _ _ since => pageFrom OhlcvRow.time since 1 hourlyBook

/-- A record `>IIIff`: milliseconds, ask, bid, and the bits of two floats. -/
structure RawTick where
  ms : BitVec 32
  ask : BitVec 32
  bid : BitVec 32
  askSize : BitVec 32
  bidSize : BitVec 32
  deriving DecidableEq, Repr

namespace RawTick

def read (bytes : List UInt8) : RawTick where
  ms := readWord bytes
  ask := readWord (bytes.drop 4)
  bid := readWord (bytes.drop 8)
  askSize := readWord (bytes.drop 12)
  bidSize := readWord (bytes.drop 16)

def write (t : RawTick) : List UInt8 :=
  writeWord t.ms ++ (writeWord t.ask ++ (writeWord t.bid ++ (writeWord t.askSize ++ writeWord t.bidSize)))

theorem write_length (t : RawTick) : t.write.length = 20 := rfl

theorem read_write (t : RawTick) (rest : List UInt8) : read (t.write ++ rest) = t := by
  have hbehind : ∀ (n : ℕ) (w : BitVec 32) (bytes : List UInt8),
      (writeWord w ++ bytes).drop (n + 4) = bytes.drop n := by
    intro n w bytes
    rw [Nat.add_comm, ← List.drop_drop, drop_writeWord]
  unfold read write
  simp only [List.append_assoc, readWord_writeWord, drop_writeWord, hbehind 4, hbehind 8, hbehind 12]

theorem write_read {bytes : List UInt8} (h : 20 ≤ bytes.length) : (read bytes).write = bytes.take 20 := by
  have hword : ∀ n, n + 4 ≤ bytes.length → writeWord (readWord (bytes.drop n)) = (bytes.drop n).take 4 :=
    fun n hn => writeWord_readWord (by rw [List.length_drop]; omega)
  have hsplit : ∀ n m, (bytes.drop n).take 4 ++ (bytes.drop (n + 4)).take m = (bytes.drop n).take (4 + m) := by
    intro n m
    rw [← List.drop_drop, List.take_add]
  unfold read write
  simp only
  rw [writeWord_readWord (by omega), hword 4 (by omega), hword 8 (by omega), hword 12 (by omega),
    hword 16 (by omega), hsplit 12 4, hsplit 8 8, hsplit 4 12]
  exact hsplit 0 16

end RawTick

/-- The value of a single-precision float. -/
def float32 (bits : BitVec 32) : PyFloat :=
  let exponent := bits.toNat / 8388608 % 256
  let fraction := bits.toNat % 8388608
  let negative := 2147483648 ≤ bits.toNat
  if exponent = 255 then
    if fraction ≠ 0 then .nan else if negative then .negInf else .posInf
  else
    let magnitude : ℚ :=
      if exponent = 0 then fraction / 2 ^ 149 else (8388608 + fraction) * 2 ^ exponent / 2 ^ 150
    .finite (if negative then -magnitude else magnitude)

/-- `math.isfinite(v) and v >= 0` -/
def finiteSize (bits : BitVec 32) : Option ℚ :=
  match float32 bits with
  | .finite size => if 0 ≤ size then some size else none
  | _ => none

structure ResearchTick where
  time : ℤ
  bid : ℚ
  ask : ℚ
  bidSize : ℚ
  askSize : ℚ
  deriving DecidableEq, Repr

/-- The row of one record, if it is a valid tick of the hour. -/
def tickRow (hour : ℤ) (scale : ℚ) (t : RawTick) : Option ResearchTick :=
  if 3600000 ≤ t.ms.toNat ∨ ¬(0 < t.bid.toNat ∧ t.bid.toNat ≤ t.ask.toNat) then none
  else
    match finiteSize t.askSize, finiteSize t.bidSize with
    | some askSize, some bidSize =>
      some
        { time := hour + 1000 * t.ms.toNat
          bid := t.bid.toNat / scale
          ask := t.ask.toNat / scale
          bidSize
          askSize }
    | _, _ => none

/-- `any(a["time"] > b["time"] for a, b in zip(rows, rows[1:]))` -/
def unordered (rows : List ResearchTick) : Bool := (rows.zip rows.tail).any fun p => p.2.time < p.1.time

/-- `decode_ticks` -/
def decodeTicks (decompress : List UInt8 → ℕ → Except String (List UInt8 × Bool)) (payload : List UInt8)
    (hour : ℤ) (scale : PyFloat) : Except String (List ResearchTick) :=
  match scale with
  | .finite scale =>
    if scale ≤ 0 then .error "a verified positive instrument price_scale is required"
    else do
      let (raw, eof) ← decompress payload 20000001
      if !eof ∨ 20000000 < raw.length ∨ raw.length % 20 ≠ 0 then
        .error "invalid or oversized Dukascopy tick partition"
      else
        match (unpack 20 RawTick.read (raw.length / 20) raw).mapM (tickRow hour scale) with
        | none => .error "invalid Dukascopy tick"
        | some rows => if unordered rows then .error "unordered Dukascopy ticks" else .ok rows
  | _ => .error "a verified positive instrument price_scale is required"

theorem unordered_eq_false {rows : List ResearchTick} :
    unordered rows = false ↔ rows.Pairwise fun a b => a.time ≤ b.time := by
  induction rows with
  | nil => simp [unordered]
  | cons x rows ih =>
    cases rows with
    | nil => simp [unordered]
    | cons y rows =>
      have hstep : unordered (x :: y :: rows) = (decide (y.time < x.time) || unordered (y :: rows)) := rfl
      rw [hstep, Bool.or_eq_false_iff]
      constructor
      · rintro ⟨hxy, hrest⟩
        rw [ih] at hrest
        have hle : x.time ≤ y.time := by simpa using hxy
        refine List.pairwise_cons.2 ⟨fun z hz => ?_, hrest⟩
        rcases List.mem_cons.1 hz with rfl | hz
        · exact hle
        · exact hle.trans ((List.pairwise_cons.1 hrest).1 z hz)
      · intro h
        obtain ⟨hx, hrest⟩ := List.pairwise_cons.1 h
        exact ⟨by simpa using hx y List.mem_cons_self, ih.2 hrest⟩

/-- A tick of the hour, as `decode_ticks` requires it. -/
structure ValidTick (t : RawTick) : Prop where
  inHour : t.ms.toNat < 3600000
  positive : 0 < t.bid.toNat
  spread : t.bid.toNat ≤ t.ask.toNat
  sizes : ∃ askSize bidSize, finiteSize t.askSize = some askSize ∧ finiteSize t.bidSize = some bidSize

theorem tickRow_isSome {hour : ℤ} {scale : ℚ} {t : RawTick} :
    (∃ row, tickRow hour scale t = some row) ↔ ValidTick t := by
  unfold tickRow
  constructor
  · rintro ⟨row, hrow⟩
    split at hrow
    next => cases hrow
    next hbounds =>
      split at hrow
      next askSize bidSize hask hbid =>
        exact ⟨by omega, by omega, by omega, askSize, bidSize, hask, hbid⟩
      next => cases hrow
  · rintro ⟨hhour, hpositive, hspread, askSize, bidSize, hask, hbid⟩
    rw [if_neg (by omega), hask, hbid]
    exact ⟨_, rfl⟩

theorem tickRow_time {hour : ℤ} {scale : ℚ} {t : RawTick} {row : ResearchTick}
    (h : tickRow hour scale t = some row) : row.time = hour + 1000 * t.ms.toNat := by
  unfold tickRow at h
  split at h
  next => cases h
  next =>
    split at h
    next =>
      cases h
      rfl
    next => cases h

/-- A row lies in the hour and has a spread. -/
theorem tickRow_bounds {hour : ℤ} {scale : ℚ} (hscale : 0 < scale) {t : RawTick} {row : ResearchTick}
    (h : tickRow hour scale t = some row) :
    hour ≤ row.time ∧ row.time < hour + 3600000000 ∧ 0 < row.bid ∧ row.bid ≤ row.ask ∧
      0 ≤ row.bidSize ∧ 0 ≤ row.askSize := by
  have hsize : ∀ {bits : BitVec 32} {size : ℚ}, finiteSize bits = some size → 0 ≤ size := by
    intro bits size hfinite
    unfold finiteSize at hfinite
    split at hfinite
    next =>
      split at hfinite
      next hle =>
        cases hfinite
        exact hle
      next => cases hfinite
    next => cases hfinite
  unfold tickRow at h
  split at h
  next => cases h
  next hbounds =>
    split at h
    next askSize bidSize hask hbid =>
      cases h
      have hbidPos : (0 : ℚ) < t.bid.toNat := by
        have : 0 < t.bid.toNat := by omega
        exact_mod_cast this
      have hspread : (t.bid.toNat : ℚ) ≤ t.ask.toNat := by
        have : t.bid.toNat ≤ t.ask.toNat := by omega
        exact_mod_cast this
      exact ⟨by simp only; omega, by simp only; omega, div_pos hbidPos hscale,
        div_le_div_of_nonneg_right hspread hscale.le, hsize hbid, hsize hask⟩
    next => cases h

/-- The outcomes of a partition that is accepted. -/
theorem decodeTicks_eq_ok {decompress : List UInt8 → ℕ → Except String (List UInt8 × Bool)}
    {payload : List UInt8} {hour : ℤ} {scale : PyFloat} {rows : List ResearchTick} :
    decodeTicks decompress payload hour scale = .ok rows ↔
      ∃ q, scale = .finite q ∧ 0 < q ∧ ∃ raw, decompress payload 20000001 = .ok (raw, true) ∧
        raw.length ≤ 20000000 ∧ raw.length % 20 = 0 ∧
        (unpack 20 RawTick.read (raw.length / 20) raw).mapM (tickRow hour q) = some rows ∧
        unordered rows = false := by
  constructor
  · intro h
    unfold decodeTicks at h
    split at h
    next q =>
      obtain ⟨hpos, h⟩ := ok_of_guard h
      obtain ⟨⟨raw, eof⟩, hraw, h⟩ := ok_of_bind h
      obtain ⟨hsize, h⟩ := ok_of_guard h
      simp only [not_or, not_lt, Bool.not_eq_true', Bool.not_eq_false, not_not] at hsize
      obtain ⟨heof, hlength, hmod⟩ := hsize
      split at h
      next => cases h
      next rows' hrows =>
        obtain ⟨hordered, h⟩ := ok_of_guard h
        cases h
        exact ⟨q, rfl, not_le.1 hpos, raw, heof ▸ hraw, hlength, hmod, hrows, by simpa using hordered⟩
    next => cases h
  · rintro ⟨q, rfl, hpos, raw, hraw, hlength, hmod, hrows, hordered⟩
    unfold decodeTicks
    simp only
    rw [if_neg (not_le.2 hpos), bind_ok_eq hraw]
    simp only [Bool.not_true, Bool.false_eq_true, false_or, hrows, hordered, if_false]
    rw [if_neg (by omega)]

theorem mapM_eq_some {α β : Type} {f : α → Option β} {xs : List α} {ys : List β} :
    xs.mapM f = some ys ↔ xs.map f = ys.map some := by
  induction xs generalizing ys with
  | nil => cases ys <;> simp
  | cons x xs ih =>
    rw [List.mapM_cons]
    cases ys with
    | nil =>
      simp only [Option.pure_def, Option.bind_eq_bind, Option.bind_eq_some_iff]
      constructor
      · rintro ⟨_, -, _, -, h⟩
        cases h
      · intro h
        cases h
    | cons y ys =>
      simp only [Option.pure_def, Option.bind_eq_bind, Option.bind_eq_some_iff, Option.some.injEq,
        List.cons.injEq, List.map_cons]
      constructor
      · rintro ⟨y', hy, zs, hzs, rfl, rfl⟩
        exact ⟨hy, ih.1 hzs⟩
      · rintro ⟨hy, hrest⟩
        exact ⟨y, hy, ys, ih.2 hrest, rfl, rfl⟩

/-- The rows of ticks have their times. -/
theorem map_time_of_rows {hour : ℤ} {q : ℚ} {ticks : List RawTick} {rows : List ResearchTick}
    (h : ticks.map (tickRow hour q) = rows.map some) :
    rows.map (fun row => row.time) = ticks.map fun t => hour + 1000 * (t.ms.toNat : ℤ) := by
  induction ticks generalizing rows with
  | nil =>
    cases rows with
    | nil => rfl
    | cons row rows => cases h
  | cons t ticks ih =>
    cases rows with
    | nil => cases h
    | cons row rows =>
      obtain ⟨hrow, hrest⟩ := List.cons.inj h
      rw [List.map_cons, List.map_cons, tickRow_time hrow, ih hrest]

theorem unordered_of_rows {hour : ℤ} {q : ℚ} {ticks : List RawTick} {rows : List ResearchTick}
    (h : ticks.map (tickRow hour q) = rows.map some) :
    unordered rows = false ↔ ticks.Pairwise fun a b => a.ms.toNat ≤ b.ms.toNat := by
  have hticks : (ticks.Pairwise fun a b => a.ms.toNat ≤ b.ms.toNat) ↔
      (ticks.map fun t => hour + 1000 * (t.ms.toNat : ℤ)).Pairwise (· ≤ ·) := by
    rw [List.pairwise_map]
    exact ⟨fun hp => hp.imp fun hab => by omega, fun hp => hp.imp fun hab => by omega⟩
  rw [unordered_eq_false, hticks, ← map_time_of_rows h, List.pairwise_map]

end Matrades

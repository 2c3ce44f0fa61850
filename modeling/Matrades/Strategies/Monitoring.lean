import Mathlib.Data.List.Sort
import Matrades.Backtesting.Protection
import Matrades.Strategies.TradeSetup

/-!
# Forward observation

`modules/strategies/monitoring.py`: a tick freezes the completed candles, replays the recorded entry
intents over them and records a new intent while no position is open. The state of a session is what
the ticks have stored; keys that are absent before the first tick are absent options or empty.
-/

namespace Matrades

open Base

/-! ## The stored state -/

/-- A recorded entry: when it was decided, and the setup it was decided on. -/
structure EntryIntent where
  observedAt : AwareTime
  signal : IndicativeSetup
  deriving DecidableEq

/-- A simulated trade with its account result. -/
structure ForwardTrade where
  fill : TradeFill
  simulationAccountPnl : ℚ
  deriving DecidableEq

/-- The results of the account, as the state shows them. -/
structure AccountSummary where
  netProfit : ℚ
  profitFactor : Option ℚ
  grossProfit : ℚ
  grossLoss : ℚ
  maxDrawdown : ℚ
  endingEquity : ℚ
  deriving DecidableEq, Repr

def engineName : String := "forward-paper-v1"

structure ForwardState where
  startedAt : AwareTime
  entryCutoff : Option AwareTime := none
  engine : Option String := none
  candles : List BacktestCandle := []
  entryIntents : Dict AwareTime EntryIntent := Dict.empty
  newsContexts : Dict AwareTime NewsState := Dict.empty
  trades : List ForwardTrade := []
  openPositions : List SimulatedPosition := []
  pendingEntries : List AwareTime := []
  tradeCount : ℕ := 0
  account : Option AccountSummary := none
  policyPassed : Option Bool := none
  dataComplete : Option Bool := none
  lastCheckedAt : Option AwareTime := none
  lastCandleAt : Option AwareTime := none
  latestSignal : Option IndicativeSetup := none

/-! ## Candle evidence -/

def checkMonitoringCandle (c : BacktestCandle) : Except String Unit :=
  if !c.pricesPositive then .error "Invalid monitoring price evidence"
  else if !c.boundsConsistent then .error "Inconsistent monitoring OHLC evidence"
  else .ok ()

/-- The order the candles are sorted in. -/
def NotAfter (a b : BacktestCandle) : Prop := a.observedAt.instant ≤ b.observedAt.instant

instance : DecidableRel NotAfter := fun a b =>
  inferInstanceAs (Decidable (a.observedAt.instant ≤ b.observedAt.instant))

/-- The completed candles among the incoming ones, oldest first. -/
def completedCandles (incoming : List BacktestCandle) (now : AwareTime) (period : ℤ) :
    List BacktestCandle :=
  (incoming.filter fun c => c.observedAt.instant + period ≤ now.instant).insertionSort NotAfter

/-- The completed candles that are stored: the ones behind the last stored candle, or the last
hundred as the warm-up before anything is stored. -/
def newCandles (stored closed : List BacktestCandle) : List BacktestCandle :=
  match stored.getLast? with
  | none => lastN 100 closed
  | some last => closed.filter fun c => last.observedAt.instant < c.observedAt.instant

def freeze (stored closed : List BacktestCandle) : List BacktestCandle :=
  stored ++ newCandles stored closed

/-- The candles a tick works on, or why it does not. -/
def frozenCandles (stored incoming : List BacktestCandle) (now : AwareTime) (period : ℤ) :
    Except String (List BacktestCandle) :=
  let closed := completedCandles incoming now period
  if closed.length < 6 then
    .error "At least six completed candles are required for monitoring"
  else do
    closed.forM checkMonitoringCandle
    if 100000 < (freeze stored closed).length then
      .error "Paper observation limit reached; finish this session"
    else .ok (freeze stored closed)

/-- The grid times strictly between two candles. -/
def gridBetween (earlier later : AwareTime) (period : ℤ) : List AwareTime :=
  ((List.range ((later.instant - earlier.instant) / period).toNat).map fun (k : ℕ) =>
    earlier.plus (period * (k + 1))).filter fun cursor => cursor.instant < later.instant

/-- Is the session of the asset class closed at a grid time? -/
def sessionClosed (zones : ZoneInfo) (assetClass : Option AssetClass) (cursor : AwareTime) : Bool :=
  if assetClass = some .stocks then stockSessionClosed zones cursor
  else weekendClose zones assetClass cursor

/-- Do two neighbours leave out a bar of an open session? -/
def gapBetween (zones : ZoneInfo) (assetClass : Option AssetClass) (period : ℤ)
    (start : AwareTime) (pair : BacktestCandle × BacktestCandle) : Bool :=
  let (earlier, later) := pair
  period < later.observedAt.instant - earlier.observedAt.instant &&
    start.instant ≤ later.observedAt.instant &&
    (gridBetween earlier.observedAt later.observedAt period).any fun cursor =>
      !sessionClosed zones assetClass cursor

/-- Does a captured entry or an open trade span missing bars? -/
def hasMissing (zones : ZoneInfo) (assetClass : Option AssetClass) (period : ℤ)
    (start : AwareTime) (candles : List BacktestCandle) : Bool :=
  (candles.zip candles.tail).any (gapBetween zones assetClass period start)

/-! ## Decisions -/

/-- Is the tick within five minutes, or a quarter of the timeframe, of the entry bar's opening? -/
def inEntryWindow (now entryTime : AwareTime) (tf : Timeframe) : Bool :=
  let delay := now.instant - entryTime.instant
  0 ≤ delay && delay ≤ 300000000 && 4 * delay ≤ tf.period

/-- Why a tick offers no entry. -/
def blockReason (zones : ZoneInfo) (spec : StrategySpecification) (state : ForwardState)
    (now : AwareTime) (calendar : Option (List CalendarEvent)) (paper : Bool) : Option String :=
  if paper && state.policyPassed = some false then
    some "Paper loss limits were breached; review this session"
  else if paper && state.dataComplete = some false then
    some "Paper history has missing observations; start a new validation session"
  else entryContextReason zones spec now calendar

def blockSetup (setup : IndicativeSetup) : Option String → IndicativeSetup
  | none => setup
  | some reason =>
    if setup.status = .marketClosed then setup else setup.withdrawn .blocked reason

/-- The news state of the entry bar is stored by the first tick within its window. -/
def recordNews (spec : StrategySpecification) (state : ForwardState) (now entryTime : AwareTime)
    (tf : Timeframe) (calendar : Option (List CalendarEvent)) : Dict AwareTime NewsState :=
  if state.startedAt.instant ≤ entryTime.instant && inEntryWindow now entryTime tf then
    state.newsContexts.setDefault entryTime (newsState spec.instrument now calendar)
  else state.newsContexts

/-- May this tick record an entry, with no position open? -/
def recordable (state : ForwardState) (setup : IndicativeSetup) (missing : Bool)
    (now entryTime : AwareTime) (tf : Timeframe) : Bool :=
  setup.status = .signal && !missing && state.startedAt.instant ≤ entryTime.instant &&
    state.entryCutoff.all (fun cutoff => entryTime.instant < cutoff.instant) &&
    inEntryWindow now entryTime tf

/-- The signal a tick shows. -/
def shownSignal (state : ForwardState) (setup : IndicativeSetup) (positionOpen policy missing : Bool)
    (now : AwareTime) : IndicativeSetup :=
  if !policy then setup.withdrawn .blocked "Paper loss limits were breached"
  else if missing then setup.withdrawn .blocked "Paper observations are incomplete"
  else if positionOpen then
    setup.withdrawn .positionOpen "Managing the existing simulated position"
  else if state.entryCutoff.any (fun cutoff => cutoff.instant ≤ now.instant) then
    setup.withdrawn .wait "Observation window ended; review the paper results"
  else setup

def summarize (account : AccountMetrics) (configuration : BacktestConfiguration) :
    AccountSummary where
  netProfit := account.netProfit configuration
  profitFactor :=
    if account.grossLoss = 0 then none else some (account.grossProfit / account.grossLoss)
  grossProfit := account.grossProfit
  grossLoss := account.grossLoss
  maxDrawdown := account.maxDrawdown
  endingEquity := account.endingEquity

/-! ## A tick -/

/-- What a tick brings. -/
structure Tick where
  incoming : List BacktestCandle
  now : AwareTime
  calendar : Option (List CalendarEvent) := none

section
variable (library : TechnicalLibrary) (zones : ZoneInfo) (spec : StrategySpecification)
  (tf : Timeframe) (configuration : BacktestConfiguration)

/-- The replay of the recorded intents. -/
def replayOf (state : ForwardState) (newsContexts : Dict AwareTime NewsState)
    (calendar : Option (List CalendarEvent)) : Replay where
  closeAtEnd := false
  allowedEntryTimes := some state.entryIntents.keys
  calendar
  newsContexts := some newsContexts

/-- The intents behind a tick: a new one is recorded while flat, and not retained when the tick
discovers a breach or a gap. -/
def recordIntent (state : ForwardState) (setup : IndicativeSetup) (flat policy missing : Bool)
    (now entryTime : AwareTime) : Dict AwareTime EntryIntent :=
  let intents :=
    if flat && recordable state setup missing now entryTime tf then
      state.entryIntents.setDefault entryTime { observedAt := now, signal := setup }
    else state.entryIntents
  if (!policy || missing) && (state.entryIntents.get? entryTime).isNone then
    intents.remove entryTime
  else intents

/-- What a tick stores once the replay and its account are computed. -/
def ledgerAfter (state : ForwardState) (tick : Tick) (frozen : List BacktestCandle)
    (last : BacktestCandle) (setup : IndicativeSetup) (simulation : Simulation)
    (account : AccountMetrics) : ForwardState :=
  let now := tick.now
  let entryTime := last.observedAt.plus tf.period
  let missing := hasMissing zones spec.assetClass tf.period state.startedAt frozen
  let policy := account.policyPassed configuration
  let flat := simulation.openPositions.isEmpty
  let intents := recordIntent tf state setup flat policy missing now entryTime
  { state with
    engine := some engineName
    candles := frozen
    entryIntents := intents
    newsContexts := recordNews spec state now entryTime tf tick.calendar
    trades := (simulation.attribution.zip account.accountPnls).map fun (fill, pnl) => ⟨fill, pnl⟩
    openPositions := simulation.openPositions
    pendingEntries := intents.keys.filter fun time => last.observedAt.instant < time.instant
    tradeCount := simulation.trades.length
    account := some (summarize account configuration)
    policyPassed := some policy
    dataComplete := some (state.dataComplete.getD true && !missing)
    lastCheckedAt := some now
    lastCandleAt := some last.observedAt
    latestSignal := some (shownSignal state setup (!flat) policy missing now) }

/-- The paper ledger behind a tick. -/
def paperLedger (state : ForwardState) (tick : Tick) (frozen : List BacktestCandle)
    (last : BacktestCandle) (setup : IndicativeSetup) : Except String ForwardState := do
  let newsContexts := recordNews spec state tick.now (last.observedAt.plus tf.period) tf
    tick.calendar
  let simulation ← simulateProtectedTrades library zones spec frozen configuration
    (replayOf state newsContexts tick.calendar)
  let account ← riskNormalizedAccountMetrics simulation.trades
    (simulation.attribution.map TradeFill.exitedAt) configuration spec.riskPerTrade
  return ledgerAfter zones spec tf configuration state tick frozen last setup simulation account

/-- `observe` -/
def observe (state : ForwardState) (tick : Tick) (paper : Bool) : Except String ForwardState := do
  let frozen ← frozenCandles state.candles tick.incoming tick.now tf.period
  match frozen.getLast? with
  | none => .error "list index out of range"
  | some last =>
    let built ← buildStrategySetup library zones spec frozen tick.now tf configuration.tickSize
      tick.calendar
    let setup := blockSetup built (blockReason zones spec state tick.now tick.calendar paper)
    if paper then paperLedger library zones spec tf configuration state tick frozen last setup
    else
      return { state with
        lastCheckedAt := some tick.now
        lastCandleAt := some last.observedAt
        latestSignal := some setup }

/-- A tick of a paper session: one that raises stores nothing. -/
def paperTick (state : ForwardState) (tick : Tick) : ForwardState :=
  match observe library zones spec tf configuration state tick true with
  | .ok state' => state'
  | .error _ => state

end

/-! ## Review -/

/-- The gates of a review, in the order of the dictionary. -/
structure PaperGates where
  forwardObservation : Bool
  minimumTradeCount : Bool
  positiveNetProfit : Bool
  profitFactor : Bool
  policy : Bool
  dataComplete : Bool
  positionsClosed : Bool
  deriving DecidableEq, Repr

/-- `paper_gates` -/
def paperGates (data : ForwardState) : PaperGates where
  forwardObservation := data.engine = some engineName
  minimumTradeCount := 10 ≤ data.tradeCount
  positiveNetProfit := 0 < (data.account.map AccountSummary.netProfit).getD 0
  profitFactor :=
    let profit := (data.account.map AccountSummary.grossProfit).getD 0
    0 < profit && (data.account.map AccountSummary.grossLoss).getD 0 ≤ profit
  policy := data.policyPassed = some true
  dataComplete := data.dataComplete = some true
  positionsClosed := data.openPositions.isEmpty && data.pendingEntries.isEmpty

def PaperGates.passed (g : PaperGates) : Bool :=
  g.forwardObservation && g.minimumTradeCount && g.positiveNetProfit && g.profitFactor &&
    g.policy && g.dataComplete && g.positionsClosed

end Matrades

import Matrades.Base.Rounding
import Matrades.Backtesting.Protection

/-!
# The native order replay

`modules/backtesting/nautilus_validation.py`: the broker's terms, and the strategy that an event-driven
platform runs. The platform is not modelled: what it says at a tick or a fill comes with the event, and
the orders go to it as actions. Quantities and prices that it makes from decimals are exact.
-/

namespace Matrades

open Base

/-! ## Broker terms -/

/-- The contract terms of a broker. -/
structure BrokerContract where
  tickSize : Option ℚ
  priceCurrency : Option String
  quantityStep : Option ℚ
  quantityMinimum : Option ℚ
  contractMultiplier : Option ℚ
  quantityMaximum : Option ℚ := none

/-- The terms in units. -/
structure ReplayTerms where
  tick : ℚ
  sizeStep : ℚ
  minSize : ℚ
  maximum : Option ℚ
  tick_pos : 0 < tick
  step_pos : 0 < sizeStep
  min_pos : 0 < minSize

/-- The checks before a replay; without a result a required term is missing. -/
def replayTerms (c : BrokerContract) : Except String (Option ReplayTerms) :=
  match c.tickSize, c.priceCurrency, c.quantityStep, c.quantityMinimum, c.contractMultiplier with
  | some tick, some _, some step, some least, some multiplier =>
    if h : 0 < tick ∧ 0 < multiplier ∧ 0 < step * multiplier ∧ 0 < least * multiplier then
      .ok (some {
        tick
        sizeStep := step * multiplier
        minSize := least * multiplier
        maximum := c.quantityMaximum.map (· * multiplier)
        tick_pos := h.1
        step_pos := h.2.2.1
        min_pos := h.2.2.2 })
    else .error "positive finite broker contract terms required"
  | _, _, _, _, _ => .ok none

/-! ## Orders -/

inductive OrderSide
  | buy | sell
  deriving DecidableEq, Repr

inductive OrderKind
  | market
  | stopMarket (trigger : ℚ)
  | limit (price : ℚ)
  deriving DecidableEq, Repr

structure ReplayOrder where
  clientOrderId : ℕ
  kind : OrderKind
  side : OrderSide
  quantity : ℚ
  reduceOnly : Bool := false
  deriving DecidableEq, Repr

/-- What the strategy asks of the platform. -/
inductive ReplayAction
  | cancelAllOrders
  | closeAllPositions
  | submitOrder (order : ReplayOrder)
  | modifyOrder (clientOrderId : ℕ) (trigger quantity : Option ℚ)
  deriving DecidableEq, Repr

def entrySide : TradeDirection → OrderSide
  | .long => .buy
  | .short => .sell

def exitSide : TradeDirection → OrderSide
  | .long => .sell
  | .short => .buy

/-! ## Events -/

/-- A quote tick, and what the platform says of the account and the position. -/
structure QuoteEvent where
  tsEvent : ℤ
  balance : ℚ
  unrealized : Option ℚ
  netLong : Bool
  netShort : Bool
  /-- The trigger price of the stop order. -/
  stopTrigger : ℚ

/-- A fill, and what the platform says of the stop order and the open position. -/
structure FillEvent where
  tsEvent : ℤ
  clientOrderId : ℕ
  lastPx : ℚ
  lastQty : ℚ
  commission : ℚ
  stopClosed : Bool
  openQuantity : Option ℚ

/-! ## The strategy -/

/-- The fields of the strategy; orders are numbered as they are made. -/
structure NativeState where
  nextOrderId : ℕ := 0
  previousBar : ℤ := -1
  entryId : Option ℕ := none
  stopOrder : Option ℕ := none
  targets : List ℕ := []
  activeFeatures : Option FeaturePoint := none
  entryPrice : Option ℚ := none
  originalRisk : Option ℚ := none
  positionRisks : List ℚ := []
  fills : List FillEvent := []
  partialHits : ℕ := 0
  equityPeak : ℚ
  maxDrawdown : ℚ := 0

/-- What a replay is run with. -/
structure NativeRun where
  zones : ZoneInfo
  spec : StrategySpecification
  rules : TradeRules
  terms : ReplayTerms
  candles : List BacktestCandle
  series : List FeaturePoint
  calendar : Option (List CalendarEvent)
  timeframeSeconds : ℤ
  /-- Entries are allowed behind this time. -/
  cutoff : ℤ

namespace NativeRun

variable (run : NativeRun)

/-- The bars' opening times in nanoseconds. -/
def barTimes : List ℤ := run.candles.map fun c => c.observedAt.instant * 1000

def lastTime : ℤ := run.barTimes.getLastD 0 + run.timeframeSeconds * 1000000000 - 1

def targetCount : ℕ := run.rules.takeProfitRMultiples.length

/-! ## Sizing -/

/-- Every target must be representable at the broker's step and minimum. -/
def leastUnits : ℚ := max (run.terms.minSize * run.targetCount) (run.terms.sizeStep * run.targetCount)

/-- The units of an entry, unless they are too few. -/
def entryUnits (desired : ℚ) : Option ℚ :=
  let units := wholeSteps run.terms.sizeStep desired
  if units < run.leastUnits then none
  else
    match run.terms.maximum with
    | none => some units
    | some maximum =>
      let units := wholeSteps run.terms.sizeStep (min units maximum)
      if units < run.leastUnits then none else some units

/-- The distance of the stop. -/
def stopDistance (features : FeaturePoint) : ℚ :=
  features.volatility * run.rules.stopVolatilityMultiple

def desiredUnits (equity : ℚ) (features : FeaturePoint) : ℚ :=
  equity * run.spec.riskPerTrade / 100 / run.stopDistance features

/-- The size of each target: equal whole steps, and the last one takes the rest. -/
def targetSizes (quantity : ℚ) (count : ℕ) : List ℚ :=
  let fraction := wholeSteps run.terms.sizeStep (quantity / count)
  (List.range count).map fun i =>
    if i = count - 1 then quantity - fraction * ((count : ℚ) - 1) else fraction

/-! ## Ticks -/

/-- A bar with a position: close it at an exit signal, or move the stop behind the price. -/
def managePosition (s : NativeState) (q : QuoteEvent) (previousClose : ℚ) (features : FeaturePoint) :
    Except String (List ReplayAction) :=
  if conditionsMatch run.spec.exit features || conditionsMatch run.spec.invalidation features then
    .ok [.cancelAllOrders, .closeAllPositions]
  else
    match s.stopOrder, run.spec.positionManagement.trailingStop with
    | some stopOrder, true =>
      match s.originalRisk with
      | none => .error "trailing protection requires recorded entry risk"
      | some originalRisk =>
        let candidate := previousClose - run.rules.direction.sign * originalRisk
        let improved := match run.rules.direction with
          | .long => max candidate q.stopTrigger
          | .short => min candidate q.stopTrigger
        .ok (if improved ≠ q.stopTrigger then [.modifyOrder stopOrder (some improved) none] else [])
    | _, _ => .ok []

/-- May a position open at the tick? -/
def entryDue (s : NativeState) (q : QuoteEvent) (time : AwareTime) (features : FeaturePoint) : Bool :=
  s.entryId.isNone && run.cutoff < q.tsEvent && 0 < features.volatility &&
    entryMatches run.spec features && (entryContextReason run.zones run.spec time run.calendar).isNone

/-- The entry order of a tick, if the account is large enough for one. -/
def submitEntry (s : NativeState) (q : QuoteEvent) (features : FeaturePoint) :
    NativeState × List ReplayAction :=
  let s := { s with activeFeatures := some features }
  match run.entryUnits (run.desiredUnits q.balance features) with
  | none => (s, [])
  | some units =>
    ({ s with nextOrderId := s.nextOrderId + 1, entryId := some s.nextOrderId },
      [.submitOrder {
        clientOrderId := s.nextOrderId
        kind := .market
        side := entrySide run.rules.direction
        quantity := units }])

/-- `on_quote_tick` -/
def onQuoteTick (s : NativeState) (q : QuoteEvent) : Except String (NativeState × List ReplayAction) :=
  let equity := q.balance + q.unrealized.getD 0
  let peak := max s.equityPeak equity
  let s := { s with equityPeak := peak, maxDrawdown := max s.maxDrawdown (peak - equity) }
  let index : ℤ := (run.barTimes.countP fun t => t ≤ q.tsEvent : ℕ) - 1
  if index < 1 then .ok (s, [])
  else if run.lastTime ≤ q.tsEvent then .ok (s, [.cancelAllOrders, .closeAllPositions])
  else if index = s.previousBar then .ok (s, [])
  else
    let s := { s with previousBar := index }
    match run.series[(index - 1).toNat]?, run.candles[(index - 1).toNat]?, run.candles[index.toNat]? with
    | some point, some previous, some candle =>
      let features := point.withNews
        (newsState run.spec.instrument candle.observedAt run.calendar)
      if q.netLong || q.netShort then
        (run.managePosition s q previous.close features).map fun actions => (s, actions)
      else if run.entryDue s q candle.observedAt features then .ok (run.submitEntry s q features)
      else .ok (s, [])
    | _, _, _ => .error "list index out of range"

/-! ## Fills -/

/-- The target orders of a position, numbered from an id on. -/
def targetOrders (firstId : ℕ) (quantity : ℚ) (prices : List ℚ) : List ReplayOrder :=
  ((run.targetSizes quantity prices.length).zip prices).zipIdx.map fun ((size, price), i) => {
    clientOrderId := firstId + i
    kind := .limit price
    side := exitSide run.rules.direction
    quantity := size
    reduceOnly := true }

/-- The protection of a position that has been opened. -/
def protectEntry (s : NativeState) (f : FillEvent) : Except String (NativeState × List ReplayAction) :=
  match s.activeFeatures with
  | none => .error "entry fill requires recorded decision features"
  | some features => do
    let (stop, prices) ← protectionLevels run.rules f.lastPx features.volatility (some run.terms.tick)
    let originalRisk := |f.lastPx - stop|
    let stopOrder : ReplayOrder := {
      clientOrderId := s.nextOrderId
      kind := .stopMarket stop
      side := exitSide run.rules.direction
      quantity := f.lastQty
      reduceOnly := true }
    let orders := run.targetOrders (s.nextOrderId + 1) f.lastQty prices
    return ({ s with
      nextOrderId := s.nextOrderId + 1 + orders.length
      entryId := none
      entryPrice := some f.lastPx
      originalRisk := some originalRisk
      positionRisks := s.positionRisks ++ [originalRisk * f.lastQty]
      partialHits := 0
      stopOrder := some stopOrder.clientOrderId
      targets := s.targets ++ orders.map ReplayOrder.clientOrderId },
      .submitOrder stopOrder :: orders.map .submitOrder)

/-- A target has been filled: the stop order is for what is left, and may move to the entry. -/
def shrinkStop (s : NativeState) (f : FillEvent) : Except String (NativeState × List ReplayAction) :=
  let s := { s with partialHits := s.partialHits + 1 }
  match s.stopOrder, f.stopClosed, f.openQuantity with
  | some stopOrder, false, some quantity =>
    if run.spec.positionManagement.moveToBreakEven then
      match s.entryPrice with
      | none => .error "break-even protection requires recorded entry price"
      | some entryPrice => .ok (s, [.modifyOrder stopOrder (some entryPrice) (some quantity)])
    else .ok (s, [.modifyOrder stopOrder none (some quantity)])
  | _, _, _ => .ok (s, [])

/-- `on_order_filled` -/
def onOrderFilled (s : NativeState) (f : FillEvent) : Except String (NativeState × List ReplayAction) :=
  let s := { s with fills := s.fills ++ [f] }
  if s.entryId = some f.clientOrderId then run.protectEntry s f
  else if f.clientOrderId ∈ s.targets then run.shrinkStop s f
  else .ok (s, [])

end NativeRun

end Matrades

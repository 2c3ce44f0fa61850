import Matrades.Bridge.Advisor
import Matrades.Bridge.Commands
import Matrades.Broker.Schemas

/-!
# The advisor's snapshots

`PositionsJson` and `SnapshotJson` of `bridges/mt5/MatradesMT5BridgeEA.mq5`, as the backend's model
reads their objects. What the advisor does not write keeps the model's default: a published position
has no listing and no specification, a published snapshot no orders and no fills.
-/

namespace Matrades

open Base

/-- `DoubleToString(x, 8)`, read back. -/
def wireDouble (x : ℚ) : ℚ := ⌊x * 10 ^ 8 + 1 / 2⌋ / 10 ^ 8

theorem wireDouble_nonneg {x : ℚ} (h : 0 ≤ x) : 0 ≤ wireDouble x := by
  have hfloor : 0 ≤ ⌊x * 10 ^ 8 + 1 / 2⌋ := Int.floor_nonneg.2 (by positivity)
  unfold wireDouble
  positivity

/-- `IsoTime(TimeGMT())`, read back: whole seconds. -/
def wireTime (now : Time) : Time := now / second * second

/-- The result of closing the position at its stop, where it has one and the terminal can tell. -/
def stopResult (t : Terminal) (p : OpenPosition) : Option ℚ :=
  if 0 < p.stopLoss then t.orderCalcProfit p.symbol (!p.isBuy) p.volume p.priceOpen p.stopLoss
  else none

def lossToStop (t : Terminal) (p : OpenPosition) : Option ℚ :=
  (stopResult t p).map fun result => wireDouble (max 0 (-result))

/-- One object of `PositionsJson`. -/
def publishedPosition (accountId : Uuid) (now : Time) (t : Terminal) (p : OpenPosition) :
    BrokerPosition where
  positionId := p.positionId
  accountId := accountId
  symbol := String.ofList p.symbol
  direction := if p.isBuy then .buy else .sell
  volume := wireDouble p.volume
  entryPrice := wireDouble p.priceOpen
  stopLoss := some (wireDouble p.stopLoss)
  takeProfit := some (wireDouble p.takeProfit)
  pnl := wireDouble p.profit
  observedAt := wireTime now
  assetClass := none
  instrumentType := none
  venueInstrumentId := none
  futuresContractId := none
  specificationVersionId := none
  quantityUnit := none
  lossToStopAccountCurrency := lossToStop t p
  loss_nonneg := by
    intro loss hloss
    obtain ⟨result, _, rfl⟩ := Option.map_eq_some_iff.1 hloss
    exact wireDouble_nonneg (le_max_left _ _)

/-- The account as the terminal shows it. -/
structure AccountFigures where
  balance : ℚ
  equity : ℚ
  realizedDailyPnl : ℚ
  currency : String

/-- `SnapshotJson`; `sequence` is the advisor's counter before it. -/
def publishedSnapshot (accountId messageId : Uuid) (sequence : Nat) (now : Time)
    (figures : AccountFigures) (t : Terminal) : BrokerSnapshot where
  messageId := messageId
  accountId := accountId
  sequence := sequence + 1
  observedAt := wireTime now
  balance := wireDouble figures.balance
  equity := wireDouble figures.equity
  realizedDailyPnl := wireDouble figures.realizedDailyPnl
  accountCurrency := some figures.currency
  positions := (t.positions.filter (·.ticket ≠ 0)).map (publishedPosition accountId now t)
  orders := []
  fills := []

end Matrades

/-!
## The bridge's snapshots

The routes `/ingest` and `/snapshot` of `bridges/mt5/app.py` for a bridge without a reader. The last
snapshot of every account is kept. One whose sequence number does not grow is refused, unless the
advisor has started again: then it counts from 1, and its time is later.
-/

namespace Matrades

open Base

structure BridgeSnapshots where
  latestSnapshots : Dict Uuid BrokerSnapshot
  latestReceived : Dict Uuid Time

namespace BridgeSnapshots

def empty : BridgeSnapshots := { latestSnapshots := .empty, latestReceived := .empty }

/-- Has the advisor started again since the previous snapshot? -/
def restarted (previous payload : BrokerSnapshot) : Bool :=
  payload.sequence = 1 && previous.observedAt < payload.observedAt

def refused (previous payload : BrokerSnapshot) : Bool :=
  payload.sequence ≤ previous.sequence && !restarted previous payload

/-- The answer to a snapshot that is taken. -/
structure Accepted where
  accountId : Uuid
  sequence : Int

def ingest (b : BridgeSnapshots) (now : Time) (payload : BrokerSnapshot) :
    Except HttpError (BridgeSnapshots × Accepted) :=
  if (b.latestSnapshots.get? payload.accountId).any fun previous => refused previous payload then
    .error ⟨409, "out-of-order or replayed broker snapshot"⟩
  else .ok
    ({ latestSnapshots := b.latestSnapshots.set payload.accountId payload
       latestReceived := b.latestReceived.set payload.accountId now },
      ⟨payload.accountId, payload.sequence⟩)

/-- `/snapshot`: the account's last snapshot. Without one the bridge answers with no figures. -/
def snapshot (b : BridgeSnapshots) (accountId : Uuid) : Option BrokerSnapshot :=
  b.latestSnapshots.get? accountId

theorem ingest_ok {b b' : BridgeSnapshots} {now : Time} {payload : BrokerSnapshot}
    {answer : Accepted} (h : b.ingest now payload = .ok (b', answer)) :
    (∀ previous, b.latestSnapshots.get? payload.accountId = some previous →
      refused previous payload = false) ∧
    b'.latestSnapshots = b.latestSnapshots.set payload.accountId payload := by
  unfold ingest at h
  split at h
  · cases h
  · rename_i hnone
    cases h
    refine ⟨fun previous hprevious => ?_, rfl⟩
    rw [hprevious] at hnone
    simpa using hnone

end BridgeSnapshots

end Matrades

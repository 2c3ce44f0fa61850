import Mathlib.Algebra.Order.Monoid.WithTop
import Matrades.Base.Dict
import Matrades.Policy.EffectiveLimits

/-!
# Risk inputs and results

`modules/risk/models.py` and the account snapshot. What the field constraints and the model
validators of the source reject cannot be built: the bounds are fields of the structures. An
exposure is a finite amount or infinite (`⊤`, an open position without a bounded loss); the fields
of `RiskSnapshot` are finite, as the source's decimal fields are.
-/

namespace Matrades

open Base

/-- What the risk functions raise. -/
inductive RiskError
  | valueError (message : String)
  | validationError (field : String)
  | invalidOperation
  deriving DecidableEq, Repr

/-- A finite amount or `Infinity`. -/
abbrev Exposure := WithTop ℚ

structure AccountSnapshot where
  accountId : Uuid
  startingBalance : ℚ
  currentBalance : ℚ
  currentEquity : ℚ
  floatingPnl : ℚ
  realizedDailyPnl : ℚ
  observedAt : Time
  source : String
  sourceVersion : String
  consistentEquity : |currentBalance + floatingPnl - currentEquity| ≤ 1 / 100

structure OpenPositionRisk where
  instrument : String
  marketCategory : String
  currencyExposures : Dict String ℚ
  remainingLossToStop : Option ℚ
  unrealizedPnl : ℚ
  underlyingId : Option Uuid := none

structure CandidateTrade where
  instrument : String
  direction : Direction
  marketCategory : String
  requestedSize : ℚ
  entryPrice : ℚ
  stopLoss : ℚ
  riskPerUnit : ℚ
  sizeIncrement : ℚ
  currencyExposures : Dict String ℚ
  assetClass : Option AssetClass
  instrumentType : Option InstrumentType
  venueInstrumentId : Option Uuid
  futuresContractId : Option Uuid
  specificationVersionId : Option Uuid
  quantityUnit : Option QuantityUnit
  contractMultiplier : ℚ
  tickSize : Option ℚ
  tickValue : Option ℚ
  marginRequired : ℚ
  financingCost : ℚ
  underlyingId : Option Uuid
  requestedSize_pos : 0 < requestedSize
  entryPrice_pos : 0 < entryPrice
  stopLoss_pos : 0 < stopLoss
  riskPerUnit_pos : 0 < riskPerUnit
  sizeIncrement_pos : 0 < sizeIncrement
  marginRequired_nonneg : 0 ≤ marginRequired
  financingCost_nonneg : 0 ≤ financingCost

/-- A value of an instrument specification's dictionary. -/
inductive SpecValue
  | dec (q : ℚ)
  | text (s : String)

structure RiskContext where
  account : AccountSnapshot
  constraints : List EffectiveConstraint
  positions : List OpenPositionRisk
  correlationCaps : Dict String ℚ
  staticMaxConcurrentTrades : Nat
  includeUnrealizedProfit : Bool
  instrumentSpecifications : Dict String (Dict String SpecValue)
  currentSourceCutId : Option String
  activeReservations : List ℚ
  accountCurrencyVerified : Bool

inductive RiskDecision
  | pass | reduceSize | hardBlock
  deriving DecidableEq, Repr

structure RiskSnapshot where
  account : AccountSnapshot
  currentDrawdown : ℚ
  dailyDrawdown : ℚ
  maximumAllowedDrawdown : ℚ
  propFirmDrawdownLimit : Option ℚ
  internalDrawdownLimit : Option ℚ
  remainingDrawdown : ℚ
  dailyLossUsed : ℚ
  dailyLossRemaining : ℚ
  existingOpenRisk : ℚ
  existingCorrelatedExposure : List (String × ℚ)
  candidateTradeRisk : ℚ
  portfolioRiskAfterTrade : ℚ
  remainingTotalLossCapacity : ℚ
  remainingPortfolioRiskCapacity : ℚ
  openTrades : Nat
  maxConcurrentTrades : Nat
  additionalTradeCapacity : Nat
  constraintVersions : List String
  assetClass : Option AssetClass := none
  instrumentType : Option InstrumentType := none
  venueInstrumentId : Option Uuid := none
  futuresContractId : Option Uuid := none
  specificationVersionId : Option Uuid := none
  quantityUnit : Option QuantityUnit := none
  notionalExposure : ℚ := 0
  marginRequired : ℚ := 0
  financingCost : ℚ := 0

structure RiskResult where
  decision : RiskDecision
  approvedSize : ℚ
  reasons : List String
  limitingConstraints : List String
  snapshot : RiskSnapshot

end Matrades

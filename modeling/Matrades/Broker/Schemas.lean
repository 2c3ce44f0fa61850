import Matrades.Shared.DomainTypes

/-!
# What the broker reports

`packages/broker_sdk/schemas.py`: the snapshot of an account with its open positions, its working
orders and its fills.
-/

namespace Matrades

structure BrokerPosition where
  positionId : String
  accountId : Uuid
  symbol : String
  direction : Direction
  volume : ℚ
  entryPrice : ℚ
  stopLoss : Option ℚ
  takeProfit : Option ℚ
  pnl : ℚ
  observedAt : Time
  assetClass : Option AssetClass
  instrumentType : Option InstrumentType
  venueInstrumentId : Option Uuid
  futuresContractId : Option Uuid
  specificationVersionId : Option Uuid
  quantityUnit : Option QuantityUnit
  lossToStopAccountCurrency : Option ℚ
  loss_nonneg : ∀ loss ∈ lossToStopAccountCurrency, 0 ≤ loss

structure BrokerOrder where
  orderId : String
  accountId : Uuid
  commandId : Option Uuid
  symbol : String
  direction : Direction
  requestedVolume : ℚ
  filledVolume : ℚ
  state : String
  version : Nat
  observedAt : Time
  assetClass : Option AssetClass
  instrumentType : Option InstrumentType
  venueInstrumentId : Option Uuid
  futuresContractId : Option Uuid
  specificationVersionId : Option Uuid
  quantityUnit : Option QuantityUnit
  version_pos : 1 ≤ version

structure BrokerFill where
  fillId : String
  accountId : Uuid
  orderId : String
  quantity : ℚ
  price : ℚ
  revision : Nat
  observedAt : Time
  quantity_pos : 0 < quantity
  price_pos : 0 < price
  revision_pos : 1 ≤ revision

structure BrokerSnapshot where
  messageId : Uuid
  accountId : Uuid
  sequence : Int
  observedAt : Time
  balance : ℚ
  equity : ℚ
  realizedDailyPnl : ℚ
  accountCurrency : Option String
  positions : List BrokerPosition
  orders : List BrokerOrder
  fills : List BrokerFill

end Matrades

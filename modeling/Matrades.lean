import Matrades.Base.Run
import Matrades.Base.ReadCommitted
import Matrades.Base.Epoch
import Matrades.Base.Transaction
import Matrades.Base.Result
import Matrades.Base.Decimal
import Matrades.Base.Dict
import Matrades.Base.Table
import Matrades.Base.Text
import Matrades.Base.Json
import Matrades.Shared.DomainTypes
import Matrades.Policy.EffectiveLimits
import Matrades.Broker.Schemas
import Matrades.Risk.Models
import Matrades.Risk.Exposure
import Matrades.Risk.Engine
import Matrades.Risk.Proof.Approval
import Matrades.Risk.Proof.FailClosed
import Matrades.Trading.Models
import Matrades.Store.Database
import Matrades.Risk.Reservations
import Matrades.Risk.Proof.ReservationLife
import Matrades.Bridge.Commands
import Matrades.Bridge.Proof.Envelope
import Matrades.Bridge.Proof.Finality
import Matrades.Bridge.Proof.Isolation
import Matrades.Bridge.Authentication
import Matrades.Bridge.Proof.Nonces
import Matrades.Bridge.Advisor
import Matrades.Bridge.Delivery
import Matrades.Bridge.Proof.SendOnce
import Matrades.Broker.Mt5Bridge
import Matrades.Bridge.Proof.Targets
import Matrades.Bridge.Proof.Decoding
import Matrades.Trading.Execution
import Matrades.Trading.Authority
import Matrades.Routes.Automation
import Matrades.Worker.Execution
import Matrades.Worker.Proof.Dispatch
import Matrades.Worker.Proof.Management
import Matrades.Trading.Proof.Guard
import Matrades.Trading.Proof.SafetyEpochs
import Matrades.Worker.Proof.Lease
import Matrades.Trading.Reconciliation
import Matrades.Routes.TradeManagement
import Matrades.Routes.Proof.Ingestion
import Matrades.Routes.Proof.Acceptance
import Matrades.Worker.Proof.SubmitOnce
import Matrades.Worker.Proof.Lifecycle
import Matrades.Routes.Proof.FilledEntry
import Matrades.Routes.Proof.PositionCredit
import Matrades.Bridge.Snapshot
import Matrades.Routes.Proof.EntryRecognition
import Matrades.Trading.EntryFlow
import Matrades.Trading.Proof.NoEffect
import Matrades.Risk.Authority
import Matrades.Risk.Proof.Capacity
import Matrades.Risk.Proof.Reservable
import Matrades.Trading.Candidates
import Matrades.Trading.Coordinator
import Matrades.Trading.Proof.Queueing
import Matrades.Trading.Proof.Freshness
import Matrades.Trading.Proof.CorrelatedCap
import Matrades.Trading.Proof.OneAuthorization
import Matrades.Trading.Proof.QueueTwice
import Matrades.Trading.Ledger
import Matrades.Trading.Proof.OneIntent
import Matrades.Risk.Proof.Monotone
import Matrades.Risk.Proof.Sizing
import Matrades.Risk.Proof.Order
import Matrades.Risk.Proof.Agreement
import Matrades.Risk.Proof.GroupCaps
import Matrades.Risk.Proof.ErrorAtomic
import Matrades.Risk.Proof.PartialFills
import Matrades.Risk.Proof.Backing
import Matrades.Backtesting.Proof.Causal
import Matrades.Strategies.Monitoring
import Matrades.Strategies.Proof.AppendOnly
import Matrades.Strategies.Proof.Fills
import Matrades.Backtesting.Proof.Reloaded
import Matrades.Routes.Proof.PaperCoverage
import Matrades.Routes.Proof.Postconditions
import Matrades.Routes.Proof.SnapshotPath
import Matrades.Routes.Proof.NewestSnapshot
import Matrades.Routes.Proof.ActionRepeats
import Matrades.Trading.Proof.PlanLifecycle
import Matrades.Research.Archive
import Matrades.Research.Proof.Blackout
import Matrades.Strategies.Validation
import Matrades.Routes.Strategies
import Matrades.Worker.Backtests
import Matrades.Worker.Proof.BacktestRuns
import Matrades.Routes.Proof.SecondFactor
import Matrades.Routes.Proof.PasswordRecovery
import Matrades.Worker.Proof.Outbox
import Matrades.Worker.Proof.Deliveries
import Matrades.Worker.Proof.Schedules
import Matrades.Research.Proof.Matrix
import Matrades.Worker.Proof.ResearchJobs
import Matrades.Worker.Proof.Proposals
import Matrades.Backtesting.Proof.LossBound
import Matrades.Backtesting.Proof.Accounting
import Matrades.Strategies.Proof.ForwardStore
import Matrades.Trading.Proof.RoundTrip
import Matrades.Backtesting.Proof.WarmUp
import Matrades.Worker.Proof.Promotion
import Matrades.Trading.Proof.BoundedEntry
import Matrades.Research.Proof.PriceScale
import Matrades.Research.Proof.Ranking
import Matrades.Research.Proof.OwnMeasures
import Matrades.Research.Proof.Coverage
import Matrades.Base.Rounding
import Matrades.Backtesting.NativeReplay
import Matrades.Backtesting.Proof.NativeOrders
import Matrades.Base.Missing
import Matrades.Worker.BrokerNotifications
import Matrades.Worker.Proof.BrokerEvents
import Matrades.Base.Window
import Matrades.Worker.Journal
import Matrades.Worker.Proof.JournalRecovery
import Matrades.Research.History
import Matrades.Research.Proof.CachedHistory
import Matrades.Strategies.Hypotheses
import Matrades.Strategies.Proof.Grounded
import Matrades.Strategies.Screening
import Matrades.Strategies.Proof.ScreenedEvidence
import Matrades.MarketData.Futures
import Matrades.MarketData.Instruments
import Matrades.Strategies.Selection
import Matrades.Connections.Binding
import Matrades.MarketData.FourHour
import Matrades.Knowledge.QueryPlanning
import Matrades.Knowledge.Reranking
import Matrades.Knowledge.Discovery
import Matrades.Research.NextRun
import Matrades.Routes.Proof.CountedOnce
import Matrades.Base.RequestReply
import Matrades.Agents.Runtime
import Matrades.Agents.Rpc
import Matrades.Agents.AppServer
import Matrades.Base.Publish
import Matrades.MarketData.ResearchStore
import Matrades.MarketData.PublicResearch
import Matrades.Research.QuantitativeFeatures

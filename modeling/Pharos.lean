import Pharos.Async.Program
import Pharos.Async.Pool
import Pharos.Async.Outline
import Pharos.Async.Versioned
import Pharos.Clock
import Pharos.Messaging.Message
import Pharos.Messaging.Outbox
import Pharos.Memory.DashMap
import Pharos.Memory.SagaStore
import Pharos.Memory.Outbox
import Pharos.Saga.Instance
import Pharos.Saga.Runner
import Pharos.Saga.Outline
import Pharos.Saga.Serializable
import Pharos.Saga.Commands
import Pharos.Saga.Terminal
import Pharos.Outbox.Dispatcher
import Pharos.Outbox.Lanes
import Pharos.Outbox.Outline
import Pharos.Outbox.Book
import Pharos.Outbox.Run
import Pharos.Outbox.Accounting
import Pharos.Outbox.Order
import Pharos.Messaging.Inbox
import Pharos.Memory.Inbox
import Pharos.Memory.Broker
import Pharos.Consume.Process
import Pharos.Consume.Outline
import Pharos.Consume.Exclusion
import Pharos.Consume.Completed
import Pharos.Consume.Conservation
import Pharos.Consume.Budget
import Pharos.Outbox.Clients
import Pharos.Outbox.Claims
import Pharos.Outbox.Sweep
import Pharos.Outbox.Published
import Pharos.Aggregate
import Pharos.App.Service
import Pharos.Memory.EventStore
import Pharos.EventSourcing.Repository
import Pharos.EventSourcing.Streams
import Pharos.EventSourcing.Snapshots
import Pharos.EventSourcing.Deletion
import Pharos.EventSourcing.FailedSave
import Pharos.App.UnitOfWork
import Pharos.Memory.UnitOfWork
import Pharos.UnitOfWork.Outline
import Pharos.UnitOfWork.Atomic
import Pharos.UnitOfWork.Transactions
import Pharos.UnitOfWork.LostUpdate
import Pharos.UnitOfWork.Visibility
import Pharos.App.AggregateStore
import Pharos.UnitOfWork.Faults
import Pharos.UnitOfWork.Contract
import Pharos.Realtime.Hub
import Pharos.Realtime.Task
import Pharos.Realtime.Connection
import Pharos.Realtime.Footing
import Pharos.Realtime.Rooms
import Pharos.Realtime.Ledger
import Pharos.Realtime.Streams
import Pharos.Realtime.Handover
import Pharos.Realtime.Incarnations
import Pharos.Realtime.Order
import Pharos.Realtime.Replay
import Pharos.Realtime.Authorization
import Pharos.Async.Scoped
import Pharos.Async.Polls
import Pharos.App.Elevation
import Pharos.App.TenantScope
import Pharos.Tenancy.Scopes
import Pharos.Tenancy.Visits
import Pharos.Tenancy.Admission
import Pharos.UnitOfWork.Writers
import Pharos.UnitOfWork.WriterMoves
import Pharos.UnitOfWork.CommitOrder
import Pharos.Async.Record
import Pharos.App.Command
import Pharos.App.EventBus
import Pharos.App.Delivery
import Pharos.App.Addressing
import Pharos.App.Validation
import Pharos.App.Republish
import Pharos.Saga.Leases
import Pharos.Async.Window
import Pharos.Saga.Rounds
import Pharos.Saga.Contention
import Pharos.Saga.Sweep
import Pharos.App.Json
import Pharos.App.Upcast
import Pharos.Realtime.Backlog
import Pharos.Realtime.Resumption
import Pharos.Text.Fields
import Pharos.Axum.Traceparent
import Pharos.Axum.TraceGrammar
import Pharos.Axum.TraceEmission
import Pharos.Numeric.Signed
import Pharos.Numeric.EvenSplit
import Pharos.Money.Allocation
import Pharos.Money.Currency
import Pharos.Money.Money
import Pharos.Numeric.Decimal
import Pharos.Money.Display
import Pharos.Money.Expression
import Pharos.Serde.Struct
import Pharos.Money.Documents
import Pharos.Proto.DateTime
import Pharos.Proto.Envelope
import Pharos.EventSourcing.Tail
import Pharos.Realtime.Ceiling
import Pharos.Async.Joint
import Pharos.Outbox.Relay
import Pharos.Saga.Delivery
import Pharos.Consume.Pipeline
import Pharos.UnitOfWork.Publication
import Pharos.App.Resilience
import Pharos.Classify
import Pharos.App.Classified
import Pharos.Memory.Repository
import Pharos.Orders.Domain
import Pharos.Orders.Service
import Pharos.Orders.History
import Pharos.Monolith.Contexts
import Pharos.Monolith.Billing
import Pharos.Async.Progress
import Pharos.Outbox.Drain
import Pharos.Async.Alike
import Pharos.App.Concealment
import Pharos.Axum.Boundary
import Pharos.Async.Chain
import Pharos.Consume.Passage
import Pharos.Tenancy.Stamps

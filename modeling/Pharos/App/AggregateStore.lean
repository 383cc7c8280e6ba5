import Pharos.App.Service
import Pharos.App.UnitOfWork

/-!
# The aggregate store

`pharos-app/src/aggregate_store.rs` and `default_store.rs`.  `DefaultAggregateStore` is generic in
the repository and the transactional store, and both are programs, as are the event bus, the
serializer and the ids that `Uuid::now_v7` draws.  Its `save` either saves and publishes in
process or saves and enqueues in one transaction.
-/

namespace Pharos

open Async

/-- Error returned by an aggregate store, with the text of its source. -/
inductive StoreError where
  | notFound
  | concurrencyConflict (expected : ℕ) (actual : Option ℕ)
  | storage (source : String)
  deriving DecidableEq

/-- The `Debug` text of an optional version. -/
def debugVersion : Option ℕ → String
  | some version => "Some(" ++ toString version ++ ")"
  | none => "None"

/-- The text that both error types use for a conflict. -/
def conflictText (expected : ℕ) (actual : Option ℕ) : String :=
  "optimistic concurrency conflict: expected version " ++ toString expected ++ ", found " ++
    debugVersion actual

/-- The `Display` text. -/
def ApplicationError.toText : ApplicationError → String
  | .repository source => "repository failure: " ++ source
  | .concurrencyConflict expected actual => conflictText expected actual
  | .eventBus error => error.toText

/-- The `Display` text. -/
def RepositoryError.toText : RepositoryError → String
  | .concurrencyConflict expected actual => conflictText expected actual
  | .storage source => source

/-- The `Display` text. -/
def SaveAndEnqueueError.toText : SaveAndEnqueueError → String
  | .repository error => error.toText
  | .store source => source
  | .mapping source => "event mapping failed: " ++ source

/-- `StoreError::from` an application error. -/
def StoreError.ofApplicationError : ApplicationError → StoreError
  | .concurrencyConflict expected actual => .concurrencyConflict expected actual
  | other => .storage other.toText

/-- How the outbox delivery maps the errors of its transaction. -/
def StoreError.ofSaveAndEnqueueError : SaveAndEnqueueError → StoreError
  | .repository (.concurrencyConflict expected actual) => .concurrencyConflict expected actual
  | other => .storage other.toText

/-- The methods of `DomainEvent` that a store reads. -/
structure DomainEvent (E : Type) where
  eventType : E → String
  aggregateId : E → String

/-- `OutboxSignal`, a shared handle, by its identity. -/
abbrev OutboxSignal := ℕ

/-- How a store delivers the pending events once the save succeeds. -/
inductive DeliveryMode where
  | inline
  | outbox (topic : String) (signal : Option OutboxSignal)
  deriving DecidableEq

/-- A repository that saves with and without a transaction of the caller. -/
structure StoreRepository (S : Signature) (Tx St E : Type) extends
    TransactionalRepository S Tx St E where
  save : SaveM S St E

/-- What a save uses besides its adapters: `serde_json::to_vec`, `Uuid::now_v7`,
`OutboxMessage::new` and `OutboxSignal::notify`. -/
structure StoreRuntime (S : Signature) (E : Type) where
  toVec : E → Program S (Except String (List UInt8))
  nowV7 : Program S Uuid
  newMessage : Message → Program S OutboxMessage
  notify : OutboxSignal → Program S Unit

/-- `DefaultAggregateStore`. -/
structure DefaultAggregateStore (S : Signature) (Tx St E : Type) where
  repo : StoreRepository S Tx St E
  store : TransactionalStore S Tx
  bus : PublishM S E
  delivery : DeliveryMode
  enrichers : List (Message → Message)

namespace DefaultAggregateStore

section Save

variable {S : Signature} {Tx St E : Type} (events : DomainEvent E) (runtime : StoreRuntime S E)

/-- The message of an event with its payload. -/
def messageOf (enrichers : List (Message → Message)) (topic : String) (id : Uuid)
    (payload : List UInt8) (event : E) : Message :=
  enrichers.foldl (fun message enrich => enrich message)
    (((Message.new id topic payload "application/json").withKey
      (events.aggregateId event)).withHeader "event_type" (events.eventType event))

/-- The closure `map_event`. -/
def mapEvent (enrichers : List (Message → Message)) (topic : String) (event : E) :
    Program S (Except String Message) := do
  match ← runtime.toVec event with
  | .error error => pure (.error error)
  | .ok payload => do
      let id ← runtime.nowV7
      pure (.ok (messageOf events enrichers topic id payload event))

/-- `AggregateStore::save`. -/
def save (self : DefaultAggregateStore S Tx St E) (aggregate : Aggregate St E) :
    Program S (Aggregate St E × Except StoreError Unit) :=
  match self.delivery with
  | .inline => do
      let (aggregate, result) ← saveAndPublish self.repo.save self.bus aggregate
      pure (aggregate, result.mapError StoreError.ofApplicationError)
  | .outbox topic signal => do
      let (aggregate, result) ← saveAndEnqueueIn self.store self.repo.toTransactionalRepository
        (mapEvent events runtime self.enrichers topic) runtime.newMessage aggregate
      match result with
      | .error error => pure (aggregate, .error (StoreError.ofSaveAndEnqueueError error))
      | .ok () =>
          match signal with
          | some signal => do
              runtime.notify signal
              pure (aggregate, .ok ())
          | none => pure (aggregate, .ok ())

end Save

end DefaultAggregateStore

end Pharos

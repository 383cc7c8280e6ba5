import Pharos.App.Classified
import Pharos.Async.Alike

/-!
# What an aggregate store tells of its adapters

`DefaultAggregateStore` over adapters of which nothing is known: each method of the repository, of
the transactional store, of the serializer and of the bus is one operation.  When one of them fails
its error carries a text, of a driver or of a handler.  `Conceals` relates replies that differ in
nothing but such texts.  The store does the same for both, and what it returns is again the same up
to such texts (`discreet_find`, `discreet_save`); these have no part in what is public of an error.
-/

namespace Pharos

open Async

/-- What a store awaits of its adapters. -/
inductive AdapterOp (I Tx St E : Type) where
  | findById (id : I)
  | save (aggregate : Aggregate St E)
  | begin
  | saveInTx (tx : Tx) (aggregate : Aggregate St E)
  | insertOutboxInTx (tx : Tx) (message : OutboxMessage)
  | commit (tx : Tx)
  | dropTx (tx : Tx)
  | publish (event : E)
  | toVec (event : E)
  | nowV7
  | newMessage (message : Message)
  | notify (signal : OutboxSignal)

/-- What each of them returns. -/
def AdapterOp.Reply {I Tx St E : Type} : AdapterOp I Tx St E → Type
  | .findById _ => Except String (Option (Aggregate St E))
  | .save _ => Aggregate St E × Except RepositoryError Unit
  | .begin => Except String Tx
  | .saveInTx _ _ => (Tx × Aggregate St E) × Except RepositoryError Unit
  | .insertOutboxInTx _ _ => Tx × Except String Unit
  | .commit _ => Except String Unit
  | .dropTx _ | .notify _ => Unit
  | .publish _ => Except EventBusError Unit
  | .toVec _ => Except String (List UInt8)
  | .nowV7 => Uuid
  | .newMessage _ => OutboxMessage

abbrev adapterSignature (I Tx St E : Type) : Signature where
  Op := AdapterOp I Tx St E
  Reply := AdapterOp.Reply

abbrev AdapterM (I Tx St E : Type) := Program (adapterSignature I Tx St E)

namespace Adapters

section Programs

variable {I Tx St E : Type}

/-- One awaited operation. -/
abbrev ask (op : AdapterOp I Tx St E) : AdapterM I Tx St E op.Reply :=
  Program.call (S := adapterSignature I Tx St E) op

/-- The aggregate store over these adapters. -/
def store (delivery : DeliveryMode) (enrichers : List (Message → Message)) :
    DefaultAggregateStore (adapterSignature I Tx St E) Tx St E where
  repo := { saveInTx := fun tx aggregate => ask (.saveInTx tx aggregate)
            save := fun aggregate => ask (.save aggregate) }
  store := { begin := ask .begin
             commit := fun tx => ask (.commit tx)
             insertOutboxInTx := fun tx message => ask (.insertOutboxInTx tx message)
             dropTx := fun tx => ask (.dropTx tx) }
  bus event := ask (.publish event)
  delivery := delivery
  enrichers := enrichers

/-- What a save uses besides its adapters. -/
def runtime : StoreRuntime (adapterSignature I Tx St E) E where
  toVec event := ask (.toVec event)
  nowV7 := ask .nowV7
  newMessage message := ask (.newMessage message)
  notify signal := ask (.notify signal)

/-- `AggregateStore::find`. -/
def find (id : I) : AdapterM I Tx St E (Except StoreError (Option (Aggregate St E))) := do
  match ← ask (.findById id) with
  | .error source => pure (.error (.storage source))
  | .ok found => pure (.ok found)

/-- `AggregateStore::load`. -/
def load (id : I) : AdapterM I Tx St E (Except StoreError (Aggregate St E)) := do
  match ← find id with
  | .error error => pure (.error error)
  | .ok none => pure (.error .notFound)
  | .ok (some aggregate) => pure (.ok aggregate)

/-- `AggregateStore::save`. -/
def save (delivery : DeliveryMode) (enrichers : List (Message → Message)) (events : DomainEvent E)
    (aggregate : Aggregate St E) : AdapterM I Tx St E (Aggregate St E × Except StoreError Unit) :=
  (store delivery enrichers).save events runtime aggregate

end Programs

/-! ## Replies that differ in the text of a failure -/

/-- The same value, or two errors that `r` relates. -/
inductive SameUpTo {ε α : Type} (r : ε → ε → Prop) : Except ε α → Except ε α → Prop where
  | ok (value : α) : SameUpTo r (.ok value) (.ok value)
  | error (error error' : ε) (related : r error error') : SameUpTo r (.error error) (.error error')

/-- Any two errors. -/
abbrev Anything {ε : Type} : ε → ε → Prop := fun _ _ => True

/-- Repository errors that differ in the text of a storage failure. -/
inductive SameRepositoryError : RepositoryError → RepositoryError → Prop where
  | conflict (expected : ℕ) (actual : Option ℕ) :
      SameRepositoryError (.concurrencyConflict expected actual)
        (.concurrencyConflict expected actual)
  | storage (source source' : String) : SameRepositoryError (.storage source) (.storage source')

/-- Application errors that differ in what a repository or a handler said. -/
inductive SameApplicationError : ApplicationError → ApplicationError → Prop where
  | conflict (expected : ℕ) (actual : Option ℕ) :
      SameApplicationError (.concurrencyConflict expected actual)
        (.concurrencyConflict expected actual)
  | repository (source source' : String) :
      SameApplicationError (.repository source) (.repository source')
  | eventBus (error error' : EventBusError) :
      SameApplicationError (.eventBus error) (.eventBus error')

/-- Errors of a transactional save that differ in such texts. -/
inductive SameEnqueueError : SaveAndEnqueueError → SaveAndEnqueueError → Prop where
  | repository {error error' : RepositoryError} (same : SameRepositoryError error error') :
      SameEnqueueError (.repository error) (.repository error')
  | store (source source' : String) : SameEnqueueError (.store source) (.store source')
  | mapping (source source' : String) : SameEnqueueError (.mapping source) (.mapping source')

/-- Store errors that differ in such texts. -/
inductive SameStoreError : StoreError → StoreError → Prop where
  | notFound : SameStoreError .notFound .notFound
  | conflict (expected : ℕ) (actual : Option ℕ) :
      SameStoreError (.concurrencyConflict expected actual) (.concurrencyConflict expected actual)
  | storage (source source' : String) : SameStoreError (.storage source) (.storage source')

/-- Replies of the adapters that differ in nothing else. -/
def Conceals {I Tx St E : Type} : Likeness (adapterSignature I Tx St E)
  | .findById _, reply, reply' => SameUpTo Anything reply reply'
  | .save _, reply, reply' => reply.1 = reply'.1 ∧ SameUpTo SameRepositoryError reply.2 reply'.2
  | .begin, reply, reply' => SameUpTo Anything reply reply'
  | .saveInTx _ _, reply, reply' =>
      reply.1 = reply'.1 ∧ SameUpTo SameRepositoryError reply.2 reply'.2
  | .insertOutboxInTx _ _, reply, reply' => reply.1 = reply'.1 ∧ SameUpTo Anything reply.2 reply'.2
  | .commit _, reply, reply' => SameUpTo Anything reply reply'
  | .dropTx _, _, _ | .notify _, _, _ => True
  | .publish _, reply, reply' => SameUpTo Anything reply reply'
  | .toVec _, reply, reply' => SameUpTo Anything reply reply'
  | .nowV7, reply, reply' => reply = reply'
  | .newMessage _, reply, reply' => reply = reply'

section Errors

theorem sameApplicationError_of_repository {error error' : RepositoryError}
    (same : SameRepositoryError error error') :
    SameApplicationError (mapRepositoryError error) (mapRepositoryError error') := by
  cases same with
  | conflict expected actual => exact .conflict expected actual
  | storage source source' => exact .repository source source'

theorem sameStoreError_of_application {error error' : ApplicationError}
    (same : SameApplicationError error error') :
    SameStoreError (.ofApplicationError error) (.ofApplicationError error') := by
  cases same with
  | conflict expected actual => exact .conflict expected actual
  | repository _ _ | eventBus _ _ => exact .storage _ _

theorem sameStoreError_of_enqueue {error error' : SaveAndEnqueueError}
    (same : SameEnqueueError error error') :
    SameStoreError (.ofSaveAndEnqueueError error) (.ofSaveAndEnqueueError error') := by
  cases same with
  | repository same =>
      cases same with
      | conflict expected actual => exact .conflict expected actual
      | storage _ _ => exact .storage _ _
  | store _ _ | mapping _ _ => exact .storage _ _

end Errors

/-! ## The store is discreet -/

/-- The same aggregate, and the same result up to errors that `r` relates. -/
def SameOutcome {α ε β : Type} (r : ε → ε → Prop) (out out' : α × Except ε β) : Prop :=
  out.1 = out'.1 ∧ SameUpTo r out.2 out'.2

section Discreet

variable {I Tx St E : Type}

theorem discreet_find (id : I) : (find id : AdapterM I Tx St E _).Discreet Conceals
    (SameUpTo SameStoreError) := by
  refine ⟨rfl, fun reply reply' same => ?_⟩
  cases same with
  | ok found => exact .ok found
  | error source source' _ => exact .error _ _ (.storage source source')

theorem discreet_load (id : I) : (load id : AdapterM I Tx St E _).Discreet Conceals
    (SameUpTo SameStoreError) := by
  refine (discreet_find id).bind fun found found' same => ?_
  cases same with
  | error error error' same => exact .error error error' same
  | ok found =>
      cases found with
      | none => exact .error _ _ .notFound
      | some aggregate => exact .ok aggregate

theorem discreet_publishBatch (aggregate : Aggregate St E) (events : List E) :
    (publishBatch (fun event => (ask (.publish event) : AdapterM I Tx St E _)) aggregate
      events).Discreet Conceals (SameOutcome SameApplicationError) := by
  induction events with
  | nil => exact ⟨rfl, .ok ()⟩
  | cons event events ih =>
      refine ⟨rfl, fun reply reply' same => ?_⟩
      cases same with
      | ok _ => exact ih
      | error error error' _ => exact ⟨rfl, .error _ _ (.eventBus error error')⟩

theorem discreet_saveAndPublish (aggregate : Aggregate St E) :
    (saveAndPublish (fun aggregate => (ask (.save aggregate) : AdapterM I Tx St E _))
      (fun event => ask (.publish event)) aggregate).Discreet Conceals
      (SameOutcome SameApplicationError) := by
  refine ⟨rfl, fun reply reply' same => ?_⟩
  obtain ⟨after, result⟩ := reply
  obtain ⟨after', result'⟩ := reply'
  obtain ⟨kept, results⟩ := same
  cases kept
  cases results with
  | ok _ => exact discreet_publishBatch _ _
  | error error error' same =>
      exact ⟨rfl, .error _ _ (sameApplicationError_of_repository same)⟩

theorem discreet_mapEvent (events : DomainEvent E) (enrichers : List (Message → Message))
    (topic : String) (event : E) :
    (DefaultAggregateStore.mapEvent events (runtime : StoreRuntime (adapterSignature I Tx St E) E)
      enrichers topic event).Discreet Conceals (SameUpTo Anything) := by
  refine ⟨rfl, fun reply reply' same => ?_⟩
  cases same with
  | error error error' _ => exact .error error error' trivial
  | ok payload =>
      refine ⟨rfl, fun id id' same => ?_⟩
      cases same
      exact .ok _

theorem discreet_mapEvents (events : DomainEvent E) (enrichers : List (Message → Message))
    (topic : String) (raised : List E) (messages : List OutboxMessage) :
    (mapEvents (DefaultAggregateStore.mapEvent events
        (runtime : StoreRuntime (adapterSignature I Tx St E) E) enrichers topic) runtime.newMessage
      raised messages).Discreet Conceals (SameUpTo Anything) := by
  induction raised generalizing messages with
  | nil => exact .ok messages
  | cons event raised ih =>
      refine (discreet_mapEvent events enrichers topic event).bind fun mapped mapped' same => ?_
      cases same with
      | error error error' _ => exact .error error error' trivial
      | ok message =>
          refine ⟨rfl, fun record record' same => ?_⟩
          cases same
          exact ih _

theorem discreet_insertEach (delivery : DeliveryMode) (enrichers : List (Message → Message))
    (tx : Tx) (messages : List OutboxMessage) :
    (insertEach (@store I Tx St E delivery enrichers).store tx messages).Discreet Conceals
      (SameOutcome Anything) := by
  induction messages generalizing tx with
  | nil => exact ⟨rfl, .ok ()⟩
  | cons message messages ih =>
      refine ⟨rfl, fun reply reply' same => ?_⟩
      obtain ⟨tx, result⟩ := reply
      obtain ⟨tx', result'⟩ := reply'
      obtain ⟨kept, results⟩ := same
      cases kept
      cases results with
      | ok _ => exact ih tx
      | error error error' _ => exact ⟨rfl, .error error error' trivial⟩

theorem discreet_transact (delivery : DeliveryMode) (enrichers : List (Message → Message))
    (messages : List OutboxMessage) (aggregate : Aggregate St E) :
    (transact (@store I Tx St E delivery enrichers).store
      (@store I Tx St E delivery enrichers).repo.toTransactionalRepository messages
      aggregate).Discreet Conceals (SameOutcome SameEnqueueError) := by
  refine ⟨rfl, fun reply reply' same => ?_⟩
  cases same with
  | error source source' _ => exact ⟨rfl, .error _ _ (.store source source')⟩
  | ok tx =>
      refine ⟨rfl, fun reply reply' same => ?_⟩
      obtain ⟨⟨tx, after⟩, result⟩ := reply
      obtain ⟨⟨tx', after'⟩, result'⟩ := reply'
      obtain ⟨kept, results⟩ := same
      cases kept
      cases results with
      | error error error' same =>
          exact ⟨rfl, fun _ _ _ => ⟨rfl, .error _ _ (.repository same)⟩⟩
      | ok _ =>
          refine (discreet_insertEach delivery enrichers tx messages).bind fun out out' same => ?_
          obtain ⟨tx, result⟩ := out
          obtain ⟨tx', result'⟩ := out'
          obtain ⟨kept, results⟩ := same
          cases kept
          cases results with
          | error source source' _ =>
              exact ⟨rfl, fun _ _ _ => ⟨rfl, .error _ _ (.store source source')⟩⟩
          | ok _ =>
              refine ⟨rfl, fun reply reply' same => ?_⟩
              cases same with
              | error source source' _ => exact ⟨rfl, .error _ _ (.store source source')⟩
              | ok _ => exact ⟨rfl, .ok ()⟩

theorem discreet_saveAndEnqueueIn (delivery : DeliveryMode) (enrichers : List (Message → Message))
    (events : DomainEvent E) (topic : String) (aggregate : Aggregate St E) :
    (saveAndEnqueueIn (@store I Tx St E delivery enrichers).store
      (@store I Tx St E delivery enrichers).repo.toTransactionalRepository
      (DefaultAggregateStore.mapEvent events runtime enrichers topic) runtime.newMessage
      aggregate).Discreet Conceals (SameOutcome SameEnqueueError) := by
  refine (discreet_mapEvents events enrichers topic _ _).bind fun mapped mapped' same => ?_
  cases same with
  | error source source' _ => exact ⟨rfl, .error _ _ (.mapping source source')⟩
  | ok messages =>
      refine (discreet_transact delivery enrichers messages aggregate).bind fun out out' same => ?_
      obtain ⟨after, result⟩ := out
      obtain ⟨after', result'⟩ := out'
      obtain ⟨kept, results⟩ := same
      cases kept
      cases results with
      | ok _ => exact ⟨rfl, .ok ()⟩
      | error error error' same => exact ⟨rfl, .error error error' same⟩

/-- In either delivery mode a save tells nothing of the texts of its adapters. -/
theorem discreet_save (delivery : DeliveryMode) (enrichers : List (Message → Message))
    (events : DomainEvent E) (aggregate : Aggregate St E) :
    (save delivery enrichers events aggregate : AdapterM I Tx St E _).Discreet Conceals
      (SameOutcome SameStoreError) := by
  unfold save DefaultAggregateStore.save
  cases delivery with
  | inline =>
      refine (discreet_saveAndPublish aggregate).bind fun out out' same => ?_
      obtain ⟨after, result⟩ := out
      obtain ⟨after', result'⟩ := out'
      obtain ⟨kept, results⟩ := same
      cases kept
      cases results with
      | ok _ => exact ⟨rfl, .ok ()⟩
      | error error error' same => exact ⟨rfl, .error _ _ (sameStoreError_of_application same)⟩
  | outbox topic signal =>
      refine (discreet_saveAndEnqueueIn _ enrichers events topic aggregate).bind
        fun out out' same => ?_
      obtain ⟨after, result⟩ := out
      obtain ⟨after', result'⟩ := out'
      obtain ⟨kept, results⟩ := same
      cases kept
      cases results with
      | error error error' same => exact ⟨rfl, .error _ _ (sameStoreError_of_enqueue same)⟩
      | ok _ =>
          cases signal with
          | none => exact ⟨rfl, .ok ()⟩
          | some signal => exact ⟨rfl, fun _ _ _ => ⟨rfl, .ok ()⟩⟩

end Discreet

end Adapters

end Pharos

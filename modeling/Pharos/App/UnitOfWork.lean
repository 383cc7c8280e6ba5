import Pharos.Aggregate
import Pharos.Async.Program
import Pharos.Messaging.Outbox

/-!
# Saving and enqueueing in one transaction

`pharos-app/src/unit_of_work.rs`.  `save_and_enqueue_in` is generic in the transactional store,
the repository and the mapping of events to messages: all of them are programs over operations
that the caller chooses, and all may fail.  A handle that goes out of scope on an error path is
dropped, which rolls its transaction back.
-/

namespace Pharos

open Async

/-- `TransactionalStore`, with the destructor of its transaction handle. -/
structure TransactionalStore (S : Signature) (Tx : Type) where
  begin : Program S (Except String Tx)
  commit : Tx → Program S (Except String Unit)
  insertOutboxInTx : Tx → OutboxMessage → Program S (Tx × Except String Unit)
  /-- the handle is dropped without a commit -/
  dropTx : Tx → Program S Unit

/-- `TransactionalRepository`: the handle and the aggregate that `save_in_tx` leaves behind. -/
structure TransactionalRepository (S : Signature) (Tx St E : Type) where
  saveInTx : Tx → Aggregate St E → Program S ((Tx × Aggregate St E) × Except RepositoryError Unit)

/-- Error returned by `save_and_enqueue_in`. -/
inductive SaveAndEnqueueError where
  | repository (error : RepositoryError)
  | store (source : String)
  | mapping (source : String)
  deriving DecidableEq

section SaveAndEnqueue

variable {S : Signature} {Tx St E : Type} (store : TransactionalStore S Tx)
  (repo : TransactionalRepository S Tx St E) (mapEvent : E → Program S (Except String Message))
  (newMessage : Message → Program S OutboxMessage)

/-- The outbox messages of the pending events; `newMessage` is `OutboxMessage::new`. -/
def mapEvents : List E → List OutboxMessage → Program S (Except String (List OutboxMessage))
  | [], messages => pure (.ok messages)
  | event :: events, messages => do
      match ← mapEvent event with
      | .error error => pure (.error error)
      | .ok message => do
          let record ← newMessage message
          mapEvents events (messages ++ [record])

/-- The inserts of one transaction. -/
def insertEach : Tx → List OutboxMessage → Program S (Tx × Except String Unit)
  | tx, [] => pure (tx, .ok ())
  | tx, message :: messages => do
      match ← store.insertOutboxInTx tx message with
      | (tx, .error error) => pure (tx, .error error)
      | (tx, .ok ()) => insertEach tx messages

/-- The inner block: one transaction from `begin` to its commit, or to the drop of its handle. -/
def transact (messages : List OutboxMessage) (aggregate : Aggregate St E) :
    Program S (Aggregate St E × Except SaveAndEnqueueError Unit) := do
  match ← store.begin with
  | .error error => pure (aggregate, .error (.store error))
  | .ok tx =>
      match ← repo.saveInTx tx aggregate with
      | ((tx, aggregate), .error error) => do
          store.dropTx tx
          pure (aggregate, .error (.repository error))
      | ((tx, aggregate), .ok ()) =>
          match ← insertEach store tx messages with
          | (tx, .error error) => do
              store.dropTx tx
              pure (aggregate, .error (.store error))
          | (tx, .ok ()) =>
              match ← store.commit tx with
              | .error error => pure (aggregate, .error (.store error))
              | .ok () => pure (aggregate, .ok ())

/-- `save_and_enqueue_in`. -/
def saveAndEnqueueIn (aggregate : Aggregate St E) :
    Program S (Aggregate St E × Except SaveAndEnqueueError Unit) := do
  let expected := aggregate.version
  match ← mapEvents mapEvent newMessage aggregate.pending [] with
  | .error error => pure (aggregate, .error (.mapping error))
  | .ok messages =>
      match ← transact store repo messages aggregate with
      | (aggregate, .ok ()) => pure (aggregate.drainEvents.1, .ok ())
      | (aggregate, .error error) => pure (aggregate.setVersion expected, .error error)

/-- The contract of `save_in_tx`: it advances the version on success, and touches nothing but the
version of the aggregate. -/
def AdvancesVersion : Prop :=
  ∀ tx aggregate, (repo.saveInTx tx aggregate).Returns fun out =>
    out.1.2.state = aggregate.state ∧ out.1.2.pending = aggregate.pending ∧
      (out.2 = .ok () → out.1.2.version = aggregate.version + 1)

variable {store repo mapEvent newMessage} {aggregate : Aggregate St E}

/-- A transaction leaves the state and the pending events of the aggregate alone, and advances its
version if it commits. -/
theorem returns_transact (advances : AdvancesVersion repo) (messages : List OutboxMessage) :
    (transact store repo messages aggregate).Returns fun out =>
      out.1.state = aggregate.state ∧ out.1.pending = aggregate.pending ∧
        (out.2 = .ok () → out.1.version = aggregate.version + 1) := by
  refine (Program.Returns.any _).bind fun opened _ => ?_
  cases opened with
  | error error => exact ⟨rfl, rfl, nofun⟩
  | ok tx =>
      refine (advances tx aggregate).bind ?_
      rintro ⟨⟨tx, saved⟩, result⟩ ⟨state, pending, version⟩
      cases result with
      | error error => exact (Program.Returns.any _).bind fun _ _ => ⟨state, pending, nofun⟩
      | ok _ =>
          refine (Program.Returns.any _).bind ?_
          rintro ⟨tx, inserted⟩ -
          cases inserted with
          | error error => exact (Program.Returns.any _).bind fun _ _ => ⟨state, pending, nofun⟩
          | ok _ =>
              refine (Program.Returns.any _).bind fun committed _ => ?_
              cases committed with
              | error error => exact ⟨state, pending, nofun⟩
              | ok _ => exact ⟨state, pending, fun _ => version rfl⟩

/-- The aggregate after a call: as it was if the call failed, else advanced and drained. -/
def Settled (aggregate : Aggregate St E)
    (out : Aggregate St E × Except SaveAndEnqueueError Unit) : Prop :=
  match out.2 with
  | .error _ => out.1 = aggregate
  | .ok () => out.1 = { aggregate with version := aggregate.version + 1, pending := [] }

/-- Whatever the store answers and whoever else runs, a failed call leaves the aggregate as it was
and a successful one advances it by one version and drains it. -/
theorem returns_saveAndEnqueueIn (advances : AdvancesVersion repo) (aggregate : Aggregate St E) :
    (saveAndEnqueueIn store repo mapEvent newMessage aggregate).Returns (Settled aggregate) := by
  refine (Program.Returns.any _).bind fun mapped _ => ?_
  cases mapped with
  | error error => rfl
  | ok messages =>
      refine (returns_transact advances messages).bind ?_
      rintro ⟨⟨state, version, pending⟩, result⟩ ⟨sameState, samePending, advanced⟩
      cases sameState
      cases samePending
      cases result with
      | error error => rfl
      | ok _ =>
          cases advanced rfl
          rfl

end SaveAndEnqueue

end Pharos

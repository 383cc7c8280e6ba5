import Pharos.App.UnitOfWork
import Pharos.Async.Pool
import Pharos.Memory.Outbox

/-!
# The in-memory unit of work

`pharos-memory/src/in_memory_unit_of_work.rs`.  `begin` takes the mutex that a transaction holds
until it is committed or dropped; staged writes stay in the handle until `commit` applies them,
the aggregate first and then one outbox message after the other.  Readers and the plain
repository methods do not take the mutex.

Callers are numbered as they arrive.  The mutex knows the number of its holder, and every id
that `Uuid::now_v7` drew for an outbox message is kept with the number of the caller it was
drawn for; no operation reads either.  `now_v7` draws no id twice.
-/

namespace Pharos

open Async

/-- What a caller of the unit of work awaits.  `mapEvent` is the caller's closure, and `nowV7`
is `OutboxMessage::new` from the draw of its id on. -/
inductive UnitOfWorkOp (I St E : Type) where
  | mapEvent (event : E)
  | utcNow
  | nowV7 (caller : ℕ) (now : Time) (message : Message)
  | lock (caller : ℕ)
  | unlock
  | version (id : I)
  | insertAggregate (aggregate : Aggregate St E)
  | insertOutbox (message : OutboxMessage)
  | save (aggregate : Aggregate St E)
  | remove (id : I)
  | find (id : I)
  | outboxRow (id : Uuid)

/-- The replies of the operations. -/
abbrev UnitOfWorkOp.Reply {I St E : Type} : UnitOfWorkOp I St E → Type
  | .mapEvent _ => Except String Message
  | .utcNow => Time
  | .nowV7 _ _ _ => OutboxMessage
  | .lock _ | .unlock | .insertAggregate _ | .remove _ => Unit
  | .version _ => Option ℕ
  | .insertOutbox _ => Except OutboxError Unit
  | .save _ => Except RepositoryError Unit
  | .find _ => Option (Aggregate St E)
  | .outboxRow _ => Option OutboxMessage

abbrev unitOfWorkSignature (I St E : Type) : Signature where
  Op := UnitOfWorkOp I St E
  Reply := UnitOfWorkOp.Reply

abbrev UnitOfWorkM (I St E α : Type) := Program (unitOfWorkSignature I St E) α

/-- Staged writes for one transaction, and the mutex guard. -/
structure InMemoryTx (St E : Type) where
  guard : ℕ
  stagedAggregate : Option (Aggregate St E) := none
  stagedOutbox : List OutboxMessage := []

/-- The aggregate for storage, with its pending events dropped. -/
def snapshotWithoutPendingEvents {St E : Type} (aggregate : Aggregate St E) : Aggregate St E :=
  aggregate.drainEvents.1

namespace InMemoryUnitOfWork

section Programs

variable {I St E : Type}

/-- One awaited operation. -/
abbrev await (op : UnitOfWorkOp I St E) : UnitOfWorkM I St E op.Reply :=
  Program.call (S := unitOfWorkSignature I St E) op

/-- `OutboxMessage::new`. -/
def newMessage (caller : ℕ) (message : Message) : UnitOfWorkM I St E OutboxMessage := do
  let now ← await .utcNow
  await (.nowV7 caller now message)

/-- `TransactionalStore::begin`. -/
def begin (caller : ℕ) : UnitOfWorkM I St E (Except String (InMemoryTx St E)) := do
  await (.lock caller)
  pure (.ok { guard := caller })

/-- The outbox inserts of a commit. -/
def commitEach : List OutboxMessage → UnitOfWorkM I St E (Except String Unit)
  | [] => pure (.ok ())
  | message :: messages => do
      match ← await (.insertOutbox message) with
      | .error _ => pure (.error "infallible")
      | .ok () => commitEach messages

/-- `TransactionalStore::commit`; the guard is dropped at its end. -/
def commit (tx : InMemoryTx St E) : UnitOfWorkM I St E (Except String Unit) := do
  match tx.stagedAggregate with
  | some aggregate => await (.insertAggregate aggregate)
  | none => pure ()
  let result ← commitEach tx.stagedOutbox
  await .unlock
  pure result

/-- `TransactionalStore::insert_outbox_in_tx`. -/
def insertOutboxInTx (tx : InMemoryTx St E) (message : OutboxMessage) :
    UnitOfWorkM I St E (InMemoryTx St E × Except String Unit) :=
  pure ({ tx with stagedOutbox := tx.stagedOutbox ++ [message] }, .ok ())

/-- The transactional store, for one caller. -/
def store (caller : ℕ) :
    TransactionalStore (unitOfWorkSignature I St E) (InMemoryTx St E) where
  begin := begin caller
  commit := commit
  insertOutboxInTx := insertOutboxInTx
  dropTx _ := await .unlock

variable (idOf : St → I)

/-- `TransactionalRepository::save_in_tx`. -/
def saveInTx (tx : InMemoryTx St E) (aggregate : Aggregate St E) :
    UnitOfWorkM I St E ((InMemoryTx St E × Aggregate St E) × Except RepositoryError Unit) := do
  let expected := aggregate.version
  let staged := aggregate.setVersion (expected + 1)
  let accepted := (({ tx with stagedAggregate := some (snapshotWithoutPendingEvents staged) }, staged),
    Except.ok ())
  match ← await (.version (idOf aggregate.state)) with
  | some actual =>
      if actual ≠ expected then
        pure ((tx, aggregate), .error (.concurrencyConflict expected (some actual)))
      else pure accepted
  | none =>
      if expected ≠ 0 then pure ((tx, aggregate), .error (.concurrencyConflict expected none))
      else pure accepted

/-- The transactional repository. -/
def repository :
    TransactionalRepository (unitOfWorkSignature I St E) (InMemoryTx St E) St E where
  saveInTx := saveInTx idOf

theorem advancesVersion_repository :
    AdvancesVersion (repository (E := E) idOf) := by
  intro tx aggregate actual
  cases actual with
  | some actual =>
      show Program.Returns _ (if actual ≠ aggregate.version then _ else _)
      split
      · exact ⟨rfl, rfl, nofun⟩
      · exact ⟨rfl, rfl, fun _ => rfl⟩
  | none =>
      show Program.Returns _ (if aggregate.version ≠ 0 then _ else _)
      split
      · exact ⟨rfl, rfl, nofun⟩
      · exact ⟨rfl, rfl, fun _ => rfl⟩

/-- `Repository::save`. -/
def save (aggregate : Aggregate St E) :
    UnitOfWorkM I St E (Aggregate St E × Except RepositoryError Unit) := do
  match ← await (.save aggregate) with
  | .error error => pure (aggregate, .error error)
  | .ok () => pure (aggregate.setVersion (aggregate.version + 1), .ok ())

/-- `Repository::delete`. -/
def delete (id : I) : UnitOfWorkM I St E (Except String Unit) := do
  await (.remove id)
  pure (.ok ())

/-- `Repository::find_by_id`. -/
def findById (id : I) : UnitOfWorkM I St E (Except String (Option (Aggregate St E))) := do
  let found ← await (.find id)
  pure (.ok found)

/-- `save_and_enqueue_in` over the unit of work. -/
def saveAndEnqueue (caller : ℕ) (aggregate : Aggregate St E) :
    UnitOfWorkM I St E (Aggregate St E × Except SaveAndEnqueueError Unit) :=
  saveAndEnqueueIn (store caller) (repository idOf) (fun event => await (.mapEvent event))
    (newMessage caller) aggregate

end Programs

end InMemoryUnitOfWork

/-! ## Runs over shared state -/

/-- A call on the unit of work; `outboxRow` is any reader of the outbox. -/
inductive UnitOfWorkCall (I St E : Type) where
  | saveAndEnqueue (aggregate : Aggregate St E)
  | save (aggregate : Aggregate St E)
  | delete (id : I)
  | find (id : I)
  | outboxRow (id : Uuid)
  deriving DecidableEq

/-- A call with the number of its caller. -/
structure UnitOfWorkTask (I St E : Type) where
  caller : ℕ
  call : UnitOfWorkCall I St E
  deriving DecidableEq

/-- What a call returns; a save also yields the aggregate it leaves behind. -/
inductive UnitOfWorkReturn (St E : Type) where
  | enqueued (aggregate : Aggregate St E) (result : Except SaveAndEnqueueError Unit)
  | saved (aggregate : Aggregate St E) (result : Except RepositoryError Unit)
  | deleted (result : Except String Unit)
  | found (result : Except String (Option (Aggregate St E)))
  | row (found : Option OutboxMessage)
  deriving DecidableEq

/-- What the environment decides about one operation: the clock, the next UUID and what the
caller's closure makes of an event. -/
structure UnitOfWorkChoice where
  now : Time := 0
  uuid : Uuid := 0
  mapped : Except String Message := .error "unmapped"

/-- The unit of work, the holder of its mutex, and the ids drawn so far. -/
structure UnitOfWorkShared (I St E : Type) [DecidableEq I] where
  aggregates : DashMap I (Aggregate St E)
  outbox : InMemoryOutboxRepository
  holder : Option ℕ := none
  drawn : List (Uuid × ℕ) := []
  callers : ℕ := 0

namespace InMemoryUnitOfWork

section System

variable {I St E : Type} [DecidableEq I] (idOf : St → I)

/-- The entry of `Repository::save`. -/
def saveEntry (aggregates : DashMap I (Aggregate St E)) (aggregate : Aggregate St E) :
    DashMap I (Aggregate St E) × Except RepositoryError Unit :=
  let expected := aggregate.version
  let stored := snapshotWithoutPendingEvents (aggregate.setVersion (expected + 1))
  match aggregates.get (idOf aggregate.state) with
  | some occupied =>
      let actual := occupied.version
      if actual ≠ expected then (aggregates, .error (.concurrencyConflict expected (some actual)))
      else (aggregates.put (idOf aggregate.state) stored, .ok ())
  | none =>
      if expected ≠ 0 then (aggregates, .error (.concurrencyConflict expected none))
      else (aggregates.put (idOf aggregate.state) stored, .ok ())

/-- The id was not drawn before and is not in the outbox. -/
def Undrawn (s : UnitOfWorkShared I St E) (id : Uuid) : Prop :=
  id ∉ s.drawn.map Prod.fst ∧ s.outbox.get id = none

instance (s : UnitOfWorkShared I St E) (id : Uuid) : Decidable (Undrawn s id) :=
  inferInstanceAs (Decidable (id ∉ s.drawn.map Prod.fst ∧ s.outbox.get id = none))

/-- The effect of one operation; the mutex is taken only when it is free. -/
def serve (s : UnitOfWorkShared I St E) (choice : UnitOfWorkChoice) :
    (op : UnitOfWorkOp I St E) → Option (UnitOfWorkShared I St E × op.Reply)
  | .mapEvent _ => some (s, choice.mapped)
  | .utcNow => some (s, choice.now)
  | .nowV7 caller now message =>
      if Undrawn s choice.uuid then
        some ({ s with drawn := (choice.uuid, caller) :: s.drawn }, .new choice.uuid now message)
      else none
  | .lock caller => if s.holder = none then some ({ s with holder := some caller }, ()) else none
  | .unlock => some ({ s with holder := none }, ())
  | .version id => some (s, (s.aggregates.get id).map Aggregate.version)
  | .insertAggregate aggregate =>
      some ({ s with aggregates := s.aggregates.put (idOf aggregate.state) aggregate }, ())
  | .insertOutbox message =>
      let out := s.outbox.insert message
      some ({ s with outbox := out.1 }, out.2)
  | .save aggregate =>
      let out := saveEntry idOf s.aggregates aggregate
      some ({ s with aggregates := out.1 }, out.2)
  | .remove id => some ({ s with aggregates := s.aggregates.remove id }, ())
  | .find id => some (s, s.aggregates.get id)
  | .outboxRow id => some (s, s.outbox.get id)

/-- A call arrives and gets its number. -/
def arrive (s : UnitOfWorkShared I St E) (call : UnitOfWorkCall I St E) :
    Option (UnitOfWorkShared I St E × List (UnitOfWorkTask I St E)) :=
  some ({ s with callers := s.callers + 1 }, [⟨s.callers, call⟩])

/-- The program of one call. -/
def body (task : UnitOfWorkTask I St E) : UnitOfWorkM I St E (UnitOfWorkReturn St E) :=
  match task.call with
  | .saveAndEnqueue aggregate => do
      let (aggregate, result) ← saveAndEnqueue idOf task.caller aggregate
      pure (.enqueued aggregate result)
  | .save aggregate => do
      let (aggregate, result) ← save aggregate
      pure (.saved aggregate result)
  | .delete id => do
      let result ← delete id
      pure (.deleted result)
  | .find id => do
      let result ← findById id
      pure (.found result)
  | .outboxRow id => do
      let found ← await (.outboxRow id)
      pure (.row found)

/-- Any number of callers of one unit of work. -/
def system : System (unitOfWorkSignature I St E) (UnitOfWorkShared I St E) UnitOfWorkChoice
    (UnitOfWorkCall I St E) (UnitOfWorkTask I St E) (UnitOfWorkReturn St E) where
  serve := serve idOf
  arrive := arrive
  body := body idOf

abbrev UnitOfWorkPool (I St E : Type) [DecidableEq I] :=
  Pool (unitOfWorkSignature I St E) (UnitOfWorkShared I St E) UnitOfWorkChoice
    (UnitOfWorkTask I St E) (UnitOfWorkReturn St E)

abbrev RunningCall (I St E : Type) :=
  Async.Task (unitOfWorkSignature I St E) UnitOfWorkChoice (UnitOfWorkTask I St E)
    (UnitOfWorkReturn St E)

abbrev UnitOfWorkEvent (I St E : Type) := Event (unitOfWorkSignature I St E) UnitOfWorkChoice

/-- `InMemoryUnitOfWork::new` over an outbox that may hold messages, and no callers yet. -/
def initial (outbox : InMemoryOutboxRepository) : UnitOfWorkPool I St E where
  shared := { aggregates := ∅, outbox := outbox }

end System

end InMemoryUnitOfWork

end Pharos

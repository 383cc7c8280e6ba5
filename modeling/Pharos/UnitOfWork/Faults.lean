import Pharos.App.AggregateStore
import Pharos.UnitOfWork.Outline

/-!
# A store whose adapters may fail

`DefaultAggregateStore` over the in-memory unit of work, where each call of the repository and of
the transactional store may be refused before it does anything.  `Conditions` says what becomes of
one save: which adapter calls fail, what the serializer and the bus answer, which ids are drawn.
A save runs alone; it waits where the mutex is held and never gets an id that is taken.
-/

namespace Pharos

open Async

/-- The adapter calls of a save; an insert is known by its position in the transaction. -/
inductive AdapterCall where
  | save
  | begin
  | saveInTx
  | insertOutboxInTx (position : ℕ)
  | commit

/-- How an adapter call fails. -/
abbrev AdapterCall.Error : AdapterCall → Type
  | .save | .saveInTx => RepositoryError
  | .begin | .insertOutboxInTx _ | .commit => String

/-- What a save awaits. -/
inductive StoreOp (I St E : Type) where
  | fault (call : AdapterCall)
  | toVec (event : E)
  | nowV7
  | publish (event : E)
  | notify (signal : OutboxSignal)
  | unitOfWork (op : UnitOfWorkOp I St E)

/-- The replies of the operations. -/
abbrev StoreOp.Reply {I St E : Type} : StoreOp I St E → Type
  | .fault call => Option call.Error
  | .toVec _ => Except String (List UInt8)
  | .nowV7 => Uuid
  | .publish _ => Except EventBusError Unit
  | .notify _ => Unit
  | .unitOfWork op => op.Reply

abbrev storeSignature (I St E : Type) : Signature where
  Op := StoreOp I St E
  Reply := StoreOp.Reply

abbrev StoreM (I St E α : Type) := Program (storeSignature I St E) α

/-- What becomes of one save.  The bus answers by the number of events it published before, the
serializer, the clock and the ids by the number of outbox messages made before. -/
structure Conditions (E : Type) where
  fault : (call : AdapterCall) → Option call.Error := fun _ => none
  toVec : ℕ → E → Except String (List UInt8) := fun _ _ => .ok []
  bus : ℕ → Except EventBusError Unit := fun _ => .ok ()
  messageId : ℕ → Uuid := id
  outboxId : ℕ → Uuid := id
  now : ℕ → Time := fun _ => 0

/-- The unit of work, the events the bus published, and the signals that were notified. -/
structure StoreShared (I St E : Type) [DecidableEq I] where
  unitOfWork : UnitOfWorkShared I St E
  published : List E := []
  notified : List OutboxSignal := []

namespace InMemoryUnitOfWork

section Adapters

variable {I St E α : Type}

/-- One awaited operation. -/
abbrev ask (op : StoreOp I St E) : StoreM I St E op.Reply :=
  Program.call (S := storeSignature I St E) op

/-- A program of the unit of work, within a save. -/
def lift (program : UnitOfWorkM I St E α) : StoreM I St E α :=
  program.interpret fun op => ask (.unitOfWork op)

/-- An adapter call, unless it is refused. -/
def guarded (call : AdapterCall) (refused : call.Error → StoreM I St E α)
    (program : UnitOfWorkM I St E α) : StoreM I St E α := do
  match ← ask (.fault call) with
  | some error => refused error
  | none => lift program

/-- The transactional store; a commit that is refused drops the handle. -/
def failingStore : TransactionalStore (storeSignature I St E) (InMemoryTx St E) where
  begin := guarded .begin (fun error => pure (.error error)) (begin 0)
  commit tx := guarded .commit
    (fun error => do
      lift ((store 0).dropTx tx)
      pure (.error error)) (commit tx)
  insertOutboxInTx tx message := guarded (.insertOutboxInTx tx.stagedOutbox.length)
    (fun error => pure (tx, .error error)) (insertOutboxInTx tx message)
  dropTx tx := lift ((store 0).dropTx tx)

/-- The repository. -/
def failingRepository (idOf : St → I) :
    StoreRepository (storeSignature I St E) (InMemoryTx St E) St E where
  saveInTx tx aggregate := guarded .saveInTx (fun error => pure ((tx, aggregate), .error error))
    (saveInTx idOf tx aggregate)
  save aggregate := guarded .save (fun error => pure (aggregate, .error error)) (save aggregate)

/-- The repository that may fail still keeps the contract of `save_in_tx`. -/
theorem advancesVersion_failing (idOf : St → I) :
    AdvancesVersion (failingRepository (E := E) idOf).toTransactionalRepository := by
  intro tx aggregate fault
  cases fault with
  | some error => exact ⟨rfl, rfl, nofun⟩
  | none =>
      have kept := (advancesVersion_repository idOf tx aggregate).interpret
        fun op => ask (.unitOfWork op)
      exact kept

/-- What a save uses besides its adapters. -/
def runtime : StoreRuntime (storeSignature I St E) E where
  toVec event := ask (.toVec event)
  nowV7 := ask .nowV7
  newMessage message := lift (newMessage 0 message)
  notify signal := ask (.notify signal)

/-- The aggregate store over these adapters. -/
def aggregateStore (idOf : St → I) (delivery : DeliveryMode) (enrichers : List (Message → Message)) :
    DefaultAggregateStore (storeSignature I St E) (InMemoryTx St E) St E where
  repo := failingRepository idOf
  store := failingStore
  bus event := ask (.publish event)
  delivery := delivery
  enrichers := enrichers

end Adapters

section Answers

variable {I St E : Type} [DecidableEq I] (idOf : St → I) (conditions : Conditions E)

/-- What the unit of work is given for its next message. -/
def choiceAt (s : UnitOfWorkShared I St E) : UnitOfWorkChoice where
  now := conditions.now s.drawn.length
  uuid := conditions.outboxId s.drawn.length

/-- An operation of the unit of work under these conditions. -/
def servedBy (s : UnitOfWorkShared I St E) (op : UnitOfWorkOp I St E) :
    Option (UnitOfWorkShared I St E × op.Reply) :=
  serve idOf s (choiceAt conditions s) op

/-- The effect of one operation. -/
def answer (s : StoreShared I St E) :
    (op : StoreOp I St E) → Option (StoreShared I St E × op.Reply)
  | .fault call => some (s, conditions.fault call)
  | .toVec event => some (s, conditions.toVec s.unitOfWork.drawn.length event)
  | .nowV7 => some (s, conditions.messageId s.unitOfWork.drawn.length)
  | .publish event =>
      match conditions.bus s.published.length with
      | .error error => some (s, .error error)
      | .ok () => some ({ s with published := s.published ++ [event] }, .ok ())
  | .notify signal => some ({ s with notified := signal :: s.notified }, ())
  | .unitOfWork op =>
      (servedBy idOf conditions s.unitOfWork op).map
        (Prod.map (fun unitOfWork => { s with unitOfWork := unitOfWork }) id)

end Answers

/-! ## The programs of the unit of work, run alone -/

section UnitOfWork

variable {I St E : Type} [DecidableEq I] {idOf : St → I} {conditions : Conditions E}
  {u u' : UnitOfWorkShared I St E} {aggregate : Aggregate St E} {tx : InMemoryTx St E}

/-- The check that both saves make, and what they store. -/
theorem saveEntry_eq (aggregates : DashMap I (Aggregate St E)) (aggregate : Aggregate St E) :
    saveEntry idOf aggregates aggregate =
      if ((aggregates.get (idOf aggregate.state)).map Aggregate.version).getD 0 = aggregate.version
      then (aggregates.put (idOf aggregate.state) (stored aggregate), .ok ())
      else (aggregates, .error (.concurrencyConflict aggregate.version
        ((aggregates.get (idOf aggregate.state)).map Aggregate.version))) := by
  unfold saveEntry
  cases aggregates.get (idOf aggregate.state) with
  | some occupied => exact ite_not _ _ _
  | none =>
      simp only [ne_eq, ite_not, eq_comm (a := aggregate.version)]
      rfl

theorem run_newMessage {message : Message}
    (undrawn : Undrawn u (conditions.outboxId u.drawn.length)) :
    (newMessage 0 message).run (servedBy idOf conditions) u =
      some ({ u with drawn := (conditions.outboxId u.drawn.length, 0) :: u.drawn },
        .new (conditions.outboxId u.drawn.length) (conditions.now u.drawn.length) message) := by
  have answered : servedBy idOf conditions u (.nowV7 0 (conditions.now u.drawn.length) message) =
      some ({ u with drawn := (conditions.outboxId u.drawn.length, 0) :: u.drawn },
        .new (conditions.outboxId u.drawn.length) (conditions.now u.drawn.length) message) :=
    if_pos undrawn
  exact Program.run_call (S := unitOfWorkSignature I St E) answered

/-- An id that was drawn was not taken. -/
theorem undrawn_of_newMessage {message : Message} {out : UnitOfWorkShared I St E × OutboxMessage}
    (ran : (newMessage 0 message).run (servedBy idOf conditions) u = some out) :
    Undrawn u (conditions.outboxId u.drawn.length) := by
  by_contra drawn
  have blocked : servedBy idOf conditions u (.nowV7 0 (conditions.now u.drawn.length) message) =
      none := if_neg drawn
  have stuck : (newMessage 0 message).run (servedBy idOf conditions) u = none := by
    show Option.bind (servedBy idOf conditions u
      (.nowV7 0 (conditions.now u.drawn.length) message)) _ = none
    rw [blocked]
    rfl
  rw [stuck] at ran
  cases ran

theorem run_begin (free : u.holder = none) :
    (begin 0).run (servedBy idOf conditions) u =
      some ({ u with holder := some 0 }, .ok { guard := 0 }) := by
  have answered : servedBy idOf conditions u (.lock 0) = some ({ u with holder := some 0 }, ()) :=
    if_pos free
  show Option.bind (servedBy idOf conditions u (.lock 0)) _ = _
  rw [answered]
  rfl

/-- A transaction opens when no other is open. -/
theorem free_of_begin {out : UnitOfWorkShared I St E × Except String (InMemoryTx St E)}
    (ran : (begin 0).run (servedBy idOf conditions) u = some out) : u.holder = none := by
  by_contra held
  have blocked : servedBy idOf conditions u (.lock 0) = none := if_neg held
  have stuck : (begin 0).run (servedBy idOf conditions) u = none := by
    show Option.bind (servedBy idOf conditions u (.lock 0)) _ = none
    rw [blocked]
    rfl
  rw [stuck] at ran
  cases ran

theorem run_dropTx : ((store 0).dropTx tx).run (servedBy idOf conditions) u =
    some ({ u with holder := none }, ()) := rfl

theorem run_saveInTx (tx : InMemoryTx St E) (aggregate : Aggregate St E) :
    (saveInTx idOf tx aggregate).run (servedBy idOf conditions) u =
      if storedVersion u (idOf aggregate.state) = aggregate.version
      then some (u, ({ tx with stagedAggregate := some (stored aggregate) },
        aggregate.setVersion (aggregate.version + 1)), .ok ())
      else some (u, (tx, aggregate), .error (.concurrencyConflict aggregate.version
        ((u.aggregates.get (idOf aggregate.state)).map Aggregate.version))) := by
  have answered : servedBy idOf conditions u (.version (idOf aggregate.state)) =
      some (u, (u.aggregates.get (idOf aggregate.state)).map Aggregate.version) := rfl
  show Option.bind (servedBy idOf conditions u (.version (idOf aggregate.state))) _ = _
  rw [answered, storedVersion]
  cases (u.aggregates.get (idOf aggregate.state)).map Aggregate.version with
  | some actual =>
      show Program.run _ (if actual ≠ aggregate.version then _ else _) u = _
      by_cases same : actual = aggregate.version
      · rw [if_neg (not_not.mpr same), if_pos (show (some actual).getD 0 = _ from same)]
        rfl
      · rw [if_pos same, if_neg (show (some actual).getD 0 ≠ _ from same)]
        rfl
  | none =>
      show Program.run _ (if aggregate.version ≠ 0 then _ else _) u = _
      by_cases new : aggregate.version = 0
      · rw [if_neg (not_not.mpr new), if_pos (show (none : Option ℕ).getD 0 = _ from new.symm)]
        rfl
      · rw [if_pos new, if_neg (show (none : Option ℕ).getD 0 ≠ _ from Ne.symm new)]
        rfl

theorem run_commitEach (messages : List OutboxMessage) :
    (commitEach messages).run (servedBy idOf conditions) u =
      some ({ u with outbox := messages.foldl InMemoryOutboxRepository.write u.outbox },
        .ok ()) := by
  induction messages generalizing u with
  | nil => rfl
  | cons message messages ih => exact ih

/-- A commit stores what was staged and lets the mutex go. -/
theorem run_commit (staged : tx.stagedAggregate = some aggregate) :
    (commit tx).run (servedBy idOf conditions) u =
      some ({ u with
        aggregates := u.aggregates.put (idOf aggregate.state) aggregate
        outbox := tx.stagedOutbox.foldl InMemoryOutboxRepository.write u.outbox
        holder := none }, .ok ()) := by
  unfold commit
  rw [staged]
  exact Program.run_bind_of_run (run_commitEach tx.stagedOutbox)

theorem run_save (aggregate : Aggregate St E) :
    (save aggregate).run (servedBy idOf conditions) u =
      if storedVersion u (idOf aggregate.state) = aggregate.version
      then some ({ u with aggregates := u.aggregates.put (idOf aggregate.state) (stored aggregate) },
        aggregate.setVersion (aggregate.version + 1), .ok ())
      else some (u, aggregate, .error (.concurrencyConflict aggregate.version
        ((u.aggregates.get (idOf aggregate.state)).map Aggregate.version))) := by
  have answered : servedBy idOf conditions u (.save aggregate) =
      some ({ u with aggregates := (saveEntry idOf u.aggregates aggregate).1 },
        (saveEntry idOf u.aggregates aggregate).2) := rfl
  show Option.bind (servedBy idOf conditions u (.save aggregate)) _ = _
  rw [answered, saveEntry_eq, storedVersion]
  split
  · rfl
  · rfl

end UnitOfWork

/-! ## Adapter calls, run alone -/

section Adapters

variable {I St E α : Type} [DecidableEq I] {idOf : St → I} {conditions : Conditions E}
  {s : StoreShared I St E} {aggregate : Aggregate St E} {tx : InMemoryTx St E}

theorem run_lift (program : UnitOfWorkM I St E α) :
    (lift program).run (answer idOf conditions) s =
      (program.run (servedBy idOf conditions) s.unitOfWork).map
        (Prod.map (fun unitOfWork => { s with unitOfWork := unitOfWork }) id) := by
  refine Program.run_interpret StoreShared.unitOfWork
    (fun s unitOfWork => { s with unitOfWork := unitOfWork }) (fun _ => rfl) (fun _ _ => rfl)
    (fun _ _ _ => rfl) (fun s op => ?_) program s
  show Option.bind ((servedBy idOf conditions s.unitOfWork op).map _) _ = _
  cases servedBy idOf conditions s.unitOfWork op with
  | none => rfl
  | some out => rfl

theorem run_lift_of_run {program : UnitOfWorkM I St E α} {u : UnitOfWorkShared I St E} {value : α}
    (ran : program.run (servedBy idOf conditions) s.unitOfWork = some (u, value)) :
    (lift program).run (answer idOf conditions) s = some ({ s with unitOfWork := u }, value) := by
  rw [run_lift, ran]
  rfl

/-- What runs within a save runs on the unit of work. -/
theorem exists_run_of_lift {program : UnitOfWorkM I St E α} {out : StoreShared I St E × α}
    (ran : (lift program).run (answer idOf conditions) s = some out) :
    ∃ inner, program.run (servedBy idOf conditions) s.unitOfWork = some inner := by
  rw [run_lift] at ran
  obtain ⟨inner, found, -⟩ := Option.map_eq_some_iff.mp ran
  exact ⟨inner, found⟩

variable {call : AdapterCall} {refused : call.Error → StoreM I St E α}
  {program : UnitOfWorkM I St E α}

theorem run_guarded_of_fault {error : call.Error} (fault : conditions.fault call = some error) :
    (guarded call refused program).run (answer idOf conditions) s =
      (refused error).run (answer idOf conditions) s := by
  have answered : answer idOf conditions s (.fault call) = some (s, some error) :=
    congrArg (fun reply => some (s, reply)) fault
  exact Program.run_bind_of_run (Program.run_call (S := storeSignature I St E) answered)

theorem run_guarded_of_none (calm : conditions.fault call = none) :
    (guarded call refused program).run (answer idOf conditions) s =
      (lift program).run (answer idOf conditions) s := by
  have answered : answer idOf conditions s (.fault call) = some (s, none) :=
    congrArg (fun reply => some (s, reply)) calm
  exact Program.run_bind_of_run (Program.run_call (S := storeSignature I St E) answered)

end Adapters

end InMemoryUnitOfWork

end Pharos

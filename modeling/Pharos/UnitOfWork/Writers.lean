import Pharos.App.AggregateStore
import Pharos.UnitOfWork.LostUpdate

/-!
# Writers that load, raise and save

`AggregateStore::find` and `save` of `DefaultAggregateStore` in outbox mode, over the in-memory unit
of work.  A writer has one aggregate at a time, new or loaded; it changes it, raises events, saves it,
and goes on as it likes when a save fails: it may save again, raise more events before it does, or
load the aggregate anew.

`saving` and `saved` mark the call of a save and its return for the specifications; they change
nothing.  The `Attempt` of a writer says how far its running save got.
-/

namespace Pharos

open Async

/-- What a writer awaits. -/
inductive WriterOp (I St E : Type) where
  | saving (aggregate : Aggregate St E)
  | saved (result : Except StoreError Unit)
  | toVec (event : E)
  | messageId
  | notify (signal : OutboxSignal)
  | unitOfWork (op : UnitOfWorkOp I St E)

/-- The replies of the operations. -/
abbrev WriterOp.Reply {I St E : Type} : WriterOp I St E → Type
  | .saving _ | .saved _ | .notify _ => Unit
  | .toVec _ => Except String (List UInt8)
  | .messageId => Uuid
  | .unitOfWork op => op.Reply

abbrev writerSignature (I St E : Type) : Signature where
  Op := WriterOp I St E
  Reply := WriterOp.Reply

abbrev WriterM (I St E α : Type) := Program (writerSignature I St E) α

/-- What the environment decides about one operation. -/
structure WriterChoice where
  unitOfWork : UnitOfWorkChoice := {}
  payload : Except String (List UInt8) := .ok []

abbrev WriterEvent (I St E : Type) := Event (writerSignature I St E) WriterChoice

/-- The code of a writer.  A change of the state leaves the id of the aggregate alone. -/
inductive WriterScript {I St : Type} (E : Type) (idOf : St → I) where
  | stop
  | create (state : St) (next : WriterScript E idOf)
  | load (id : I) (next : Except StoreError (Option (Aggregate St E)) → WriterScript E idOf)
  | raise (change : St → St) (same : ∀ state, idOf (change state) = idOf state) (events : List E)
      (next : WriterScript E idOf)
  | save (next : Except StoreError Unit → WriterScript E idOf)

/-- What the writers of a store have in common. -/
structure OutboxMode (E : Type) where
  events : DomainEvent E
  topic : String
  signal : Option OutboxSignal := none
  enrichers : List (Message → Message) := []

namespace OutboxWriter

section Programs

variable {I St E α β : Type} (idOf : St → I) (mode : OutboxMode E) (caller : ℕ)

/-- One awaited operation. -/
abbrev ask (op : WriterOp I St E) : WriterM I St E op.Reply :=
  Program.call (S := writerSignature I St E) op

/-- A program of the unit of work. -/
def lift (program : UnitOfWorkM I St E α) : WriterM I St E α :=
  program.interpret fun op => ask (.unitOfWork op)

/-- The transactional store of one caller. -/
def store : TransactionalStore (writerSignature I St E) (InMemoryTx St E) where
  begin := lift (InMemoryUnitOfWork.begin caller)
  commit tx := lift (InMemoryUnitOfWork.commit tx)
  insertOutboxInTx tx message := lift (InMemoryUnitOfWork.insertOutboxInTx tx message)
  dropTx tx := lift ((InMemoryUnitOfWork.store caller).dropTx tx)

/-- The repository. -/
def repository : StoreRepository (writerSignature I St E) (InMemoryTx St E) St E where
  saveInTx tx aggregate := lift (InMemoryUnitOfWork.saveInTx idOf tx aggregate)
  save aggregate := lift (InMemoryUnitOfWork.save aggregate)

/-- What a save uses besides its adapters. -/
def runtime : StoreRuntime (writerSignature I St E) E where
  toVec event := ask (.toVec event)
  nowV7 := ask .messageId
  newMessage message := lift (InMemoryUnitOfWork.newMessage caller message)
  notify signal := ask (.notify signal)

/-- The aggregate store, in outbox mode; the bus is not used there. -/
def aggregateStore : DefaultAggregateStore (writerSignature I St E) (InMemoryTx St E) St E where
  repo := repository idOf
  store := store caller
  bus _ := pure (.ok ())
  delivery := .outbox mode.topic mode.signal
  enrichers := mode.enrichers

/-- `AggregateStore::find`. -/
def find (id : I) : WriterM I St E (Except StoreError (Option (Aggregate St E))) := do
  match ← lift (InMemoryUnitOfWork.findById id) with
  | .ok found => pure (.ok found)
  | .error source => pure (.error (.storage source))

/-- `AggregateStore::save`. -/
def save (aggregate : Aggregate St E) : WriterM I St E (Aggregate St E × Except StoreError Unit) :=
  (aggregateStore idOf mode caller).save mode.events (runtime caller) aggregate

/-- The aggregate that a writer goes on with after a load. -/
def loaded (aggregate : Aggregate St E) :
    Except StoreError (Option (Aggregate St E)) → Aggregate St E
  | .ok (some found) => found
  | _ => aggregate

/-- The run of a writer with the aggregate it has. -/
def write : WriterScript E idOf → Aggregate St E → WriterM I St E Unit
  | .stop, _ => pure ()
  | .create state next, _ => write next { state := state }
  | .load id next, aggregate => do
      let result ← find id
      write (next result) (loaded aggregate result)
  | .raise change _ events next, aggregate =>
      write next
        { aggregate with state := change aggregate.state, pending := aggregate.pending ++ events }
  | .save next, aggregate => do
      ask (.saving aggregate)
      let (aggregate, result) ← save idOf mode caller aggregate
      ask (.saved result)
      write (next result) aggregate

end Programs

/-! ## Runs over shared state -/

/-- What a writer is given: the state of a new aggregate and its code. -/
structure Job {I St : Type} (E : Type) (idOf : St → I) where
  start : St
  script : WriterScript E idOf

/-- A job with the number of its writer. -/
structure NumberedJob {I St : Type} (E : Type) (idOf : St → I) extends Job E idOf where
  caller : ℕ

section System

variable {I St E : Type} [DecidableEq I] (idOf : St → I) (mode : OutboxMode E)

/-- The effect of one operation. -/
def serve (s : UnitOfWorkShared I St E) (choice : WriterChoice) :
    (op : WriterOp I St E) → Option (UnitOfWorkShared I St E × op.Reply)
  | .saving _ | .saved _ | .notify _ => some (s, ())
  | .toVec _ => some (s, choice.payload)
  | .messageId => some (s, choice.unitOfWork.uuid)
  | .unitOfWork op => InMemoryUnitOfWork.serve idOf s choice.unitOfWork op

/-- A writer arrives and gets its number. -/
def arrive (s : UnitOfWorkShared I St E) (job : Job E idOf) :
    Option (UnitOfWorkShared I St E × List (NumberedJob E idOf)) :=
  some ({ s with callers := s.callers + 1 }, [{ job with caller := s.callers }])

/-- Any number of writers over one unit of work. -/
def system : System (writerSignature I St E) (UnitOfWorkShared I St E) WriterChoice (Job E idOf)
    (NumberedJob E idOf) Unit where
  serve := serve idOf
  arrive := arrive idOf
  body job := write idOf mode job.caller job.script { state := job.start }

abbrev WriterPool (E : Type) (idOf : St → I) :=
  Pool (writerSignature I St E) (UnitOfWorkShared I St E) WriterChoice (NumberedJob E idOf) Unit

abbrev RunningWriter (E : Type) (idOf : St → I) :=
  Async.Task (writerSignature I St E) WriterChoice (NumberedJob E idOf) Unit

abbrev WriterEntry (E : Type) (idOf : St → I) :=
  Entry (writerSignature I St E) (UnitOfWorkShared I St E) WriterChoice (NumberedJob E idOf)

/-- A new unit of work over an outbox that may hold messages, and no writers yet. -/
def noWriters (outbox : InMemoryOutboxRepository) : WriterPool E idOf where
  shared := { aggregates := ∅, outbox := outbox }

/-- What `Utc::now` returned. -/
def clockOf : WriterEvent I St E → Option Time
  | ⟨_, .unitOfWork .utcNow, now⟩ => some now
  | _ => none

/-- What `Uuid::now_v7` returned. -/
def drawOf : WriterEvent I St E → Option Uuid
  | ⟨_, .messageId, id⟩ => some id
  | ⟨_, .unitOfWork (.nowV7 _ _ _), record⟩ => some record.id
  | _ => none

/-- What the clock and the generator of ids may answer after a trace: `Utc::now` does not go back,
and `Uuid::now_v7` only goes up. -/
def Next (trace : List (WriterEntry E idOf)) (choice : WriterChoice) : WriterOp I St E → Prop
  | .unitOfWork .utcNow => ∀ entry ∈ trace, ∀ earlier ∈ clockOf entry.event,
      earlier ≤ choice.unitOfWork.now
  | .messageId | .unitOfWork (.nowV7 _ _ _) => ∀ entry ∈ trace, ∀ earlier ∈ drawOf entry.event,
      earlier < choice.unitOfWork.uuid
  | _ => True

instance (trace : List (WriterEntry E idOf)) (choice : WriterChoice) :
    DecidablePred (Next idOf trace choice)
  | .unitOfWork .utcNow => inferInstanceAs (Decidable (∀ entry ∈ trace,
      ∀ earlier ∈ clockOf entry.event, earlier ≤ choice.unitOfWork.now))
  | .messageId => inferInstanceAs (Decidable (∀ entry ∈ trace,
      ∀ earlier ∈ drawOf entry.event, earlier < choice.unitOfWork.uuid))
  | .unitOfWork (.nowV7 _ _ _) => inferInstanceAs (Decidable (∀ entry ∈ trace,
      ∀ earlier ∈ drawOf entry.event, earlier < choice.unitOfWork.uuid))
  | .saving _ | .saved _ | .toVec _ | .notify _ => .isTrue trivial
  | .unitOfWork (.mapEvent _) | .unitOfWork (.lock _) | .unitOfWork .unlock => .isTrue trivial
  | .unitOfWork (.version _) | .unitOfWork (.insertAggregate _) => .isTrue trivial
  | .unitOfWork (.insertOutbox _) | .unitOfWork (.save _) => .isTrue trivial
  | .unitOfWork (.remove _) | .unitOfWork (.find _) | .unitOfWork (.outboxRow _) => .isTrue trivial

/-- `Utc::now` is non-decreasing and `Uuid::now_v7` strictly increasing. -/
def Clocked (p : WriterPool E idOf) : Action WriterChoice (Job E idOf) → Prop
  | .arrive _ => True
  | .step i choice => ∀ t ∈ p.tasks[i]?, ∀ op ∈ t.rest.awaited, Next idOf p.trace choice op

instance (p : WriterPool E idOf) : DecidablePred (Clocked idOf p)
  | .arrive _ => .isTrue trivial
  | .step i choice => inferInstanceAs (Decidable (∀ t ∈ p.tasks[i]?, ∀ op ∈ t.rest.awaited,
      Next idOf p.trace choice op))

end System

/-! ## How far a save got -/

/-- How far a save got.  While it builds its messages, it may have the payload of the next event and
a reading of the clock; while it commits, it has messages left to insert. -/
inductive Phase where
  | building (payload : Option (List UInt8)) (clock : Option Time)
  | locked
  | ready
  | refused
  | committing (left : List OutboxMessage)
  | torn
  | aborted
  | committed
  deriving DecidableEq

/-- A running save: its aggregate and the messages it has made. -/
structure Attempt (St E : Type) where
  aggregate : Aggregate St E
  made : List OutboxMessage := []
  phase : Phase := .building none none
  deriving DecidableEq

namespace Attempt

variable {I St E : Type}

/-- The attempt after one more operation. -/
def after (attempt : Attempt St E) : WriterEvent I St E → Attempt St E
  | ⟨_, .toVec _, payload⟩ => { attempt with phase := .building payload.toOption none }
  | ⟨_, .unitOfWork .utcNow, now⟩ =>
      match attempt.phase with
      | .building payload _ => { attempt with phase := .building payload (some now) }
      | _ => attempt
  | ⟨_, .unitOfWork (.nowV7 _ _ _), record⟩ =>
      { attempt with made := attempt.made ++ [record], phase := .building none none }
  | ⟨_, .unitOfWork (.lock _), _⟩ => { attempt with phase := .locked }
  | ⟨_, .unitOfWork (.version _), actual⟩ =>
      if actual.getD 0 = attempt.aggregate.version then { attempt with phase := .ready }
      else { attempt with phase := .refused }
  | ⟨_, .unitOfWork (.insertAggregate _), _⟩ => { attempt with phase := .committing attempt.made }
  | ⟨_, .unitOfWork (.insertOutbox _), .error _⟩ => { attempt with phase := .torn }
  | ⟨_, .unitOfWork (.insertOutbox _), .ok ()⟩ =>
      match attempt.phase with
      | .committing left => { attempt with phase := .committing left.tail }
      | _ => attempt
  | ⟨_, .unitOfWork .unlock, _⟩ =>
      match attempt.phase with
      | .committing _ => { attempt with phase := .committed }
      | _ => { attempt with phase := .aborted }
  | _ => attempt

end Attempt

section Control

variable {I St E α β : Type} {idOf : St → I} {mode : OutboxMode E} {caller : ℕ}
  {past : List (WriterEvent I St E)} {aggregate : Aggregate St E} {made : List OutboxMessage}
  {known : List (Aggregate St E)}

/-- The running save of a writer with a given past. -/
def attempt : List (WriterEvent I St E) → Option (Attempt St E)
  | [] => none
  | ⟨_, .saving aggregate, _⟩ :: _ => some { aggregate := aggregate }
  | ⟨_, .saved _, _⟩ :: _ => none
  | event :: past => (attempt past).map fun running => running.after event

/-- The id and the version of an aggregate that a writer has loaded or committed. -/
def learned (idOf : St → I) : WriterEvent I St E → Option (I × ℕ)
  | ⟨_, .unitOfWork (.find _), found⟩ =>
      found.map fun aggregate => (idOf aggregate.state, aggregate.version)
  | ⟨_, .unitOfWork (.insertAggregate aggregate), _⟩ =>
      some (idOf aggregate.state, aggregate.version)
  | _ => none

/-- The aggregate is new, or its version was learned. -/
def Knows (idOf : St → I) (past : List (WriterEvent I St E)) (aggregate : Aggregate St E) : Prop :=
  aggregate.version = 0 ∨ (idOf aggregate.state, aggregate.version) ∈ past.filterMap (learned idOf)

theorem Knows.cons {event : WriterEvent I St E} (knows : Knows idOf past aggregate) :
    Knows idOf (event :: past) aggregate :=
  knows.imp id fun member => ((List.suffix_cons event past).filterMap (learned idOf)).subset member

/-- What a save may return, by how far it got. -/
def Phase.Returns (phase : Phase) : Except StoreError Unit → Prop
  | .ok () => phase = .committed
  | .error _ => phase = .aborted ∨ ∃ payload clock, phase = .building payload clock

/-- What a writer may do. -/
def Writes (idOf : St → I) (mode : OutboxMode E) (caller : ℕ) (past : List (WriterEvent I St E)) :
    WriterOp I St E → Prop
  | .saving aggregate => attempt past = none ∧ Knows idOf past aggregate
  | .saved result => ∃ running, attempt past = some running ∧ running.phase.Returns result
  | .toVec event => ∃ aggregate made, attempt past = some { aggregate, made } ∧
      aggregate.pending[made.length]? = some event
  | .messageId => ∃ aggregate made payload,
      attempt past = some ⟨aggregate, made, .building payload none⟩
  | .notify _ => ∃ aggregate made, attempt past = some ⟨aggregate, made, .committed⟩
  | .unitOfWork .utcNow => ∃ aggregate made payload,
      attempt past = some ⟨aggregate, made, .building payload none⟩
  | .unitOfWork (.nowV7 number now message) => number = caller ∧ ∃ aggregate made payload event id,
      attempt past = some ⟨aggregate, made, .building (some payload) (some now)⟩ ∧
        aggregate.pending[made.length]? = some event ∧ message =
          DefaultAggregateStore.messageOf mode.events mode.enrichers mode.topic id payload event
  | .unitOfWork (.lock number) => number = caller ∧ ∃ aggregate made,
      attempt past = some { aggregate, made } ∧ made.length = aggregate.pending.length
  | .unitOfWork (.version id) => ∃ aggregate made,
      attempt past = some ⟨aggregate, made, .locked⟩ ∧ id = idOf aggregate.state
  | .unitOfWork (.insertAggregate written) => ∃ aggregate made,
      attempt past = some ⟨aggregate, made, .ready⟩ ∧ written = InMemoryUnitOfWork.stored aggregate
  | .unitOfWork (.insertOutbox message) => ∃ aggregate made left,
      attempt past = some ⟨aggregate, made, .committing (message :: left)⟩
  | .unitOfWork .unlock => ∃ aggregate made phase, attempt past = some ⟨aggregate, made, phase⟩ ∧
      (phase = .refused ∨ phase = .torn ∨ phase = .committing [])
  | .unitOfWork (.find _) => attempt past = none
  | .unitOfWork _ => False

/-- An operation inside a save. -/
def Within : WriterOp I St E → Prop
  | .saving _ | .saved _ => False
  | _ => True

theorem attempt_within (event : WriterEvent I St E) (within : Within event.op) :
    attempt (event :: past) = (attempt past).map fun running => running.after event := by
  obtain ⟨choice, op, reply⟩ := event
  cases op with
  | saving aggregate => exact within.elim
  | saved result => exact within.elim
  | _ => rfl

/-- A save is running, and the versions of some aggregates are known. -/
structure Runs (idOf : St → I) (known : List (Aggregate St E)) (running : Attempt St E)
    (past : List (WriterEvent I St E)) : Prop where
  found : attempt past = some running
  knows : ∀ aggregate ∈ known, Knows idOf past aggregate

theorem Runs.cons {running : Attempt St E}
    (runs : Runs idOf known running past) (event : WriterEvent I St E) (within : Within event.op) :
    Runs idOf known (running.after event) (event :: past) where
  found := by
    rw [attempt_within event within, runs.found]
    rfl
  knows aggregate member := (runs.knows aggregate member).cons

/-- An operation of the unit of work is awaited. -/
theorem obeys_lift {P : List (WriterEvent I St E) → WriterOp I St E → Prop}
    {Q : List (WriterEvent I St E) → β → Prop} {op : UnitOfWorkOp I St E}
    {next : op.Reply → UnitOfWorkM I St E β} (now : P past (.unitOfWork op))
    (rest : ∀ choice reply, (lift (next reply)).Obeys P Q (⟨choice, .unitOfWork op, reply⟩ :: past)) :
    (lift (InMemoryUnitOfWork.await op >>= next)).Obeys P Q past :=
  ⟨now, rest⟩

theorem lift_bind (program : UnitOfWorkM I St E α) (next : α → UnitOfWorkM I St E β) :
    lift (program >>= next) = lift program >>= fun value => lift (next value) := by
  induction program with
  | ret value => rfl
  | await op rest ih =>
      exact congrArg (Program.await (S := writerSignature I St E) (.unitOfWork op)) (funext ih)

/-- The payload and the id of a message are obtained. -/
theorem obeys_mapEvent {event : E} (runs : Runs idOf known { aggregate, made } past)
    (next : aggregate.pending[made.length]? = some event) :
    (DefaultAggregateStore.mapEvent mode.events (runtime caller) mode.enrichers mode.topic
      event).Obeys (Writes idOf mode caller)
      (fun past result => match result with
        | .error _ => Runs idOf known { aggregate, made } past
        | .ok message => ∃ id payload,
            Runs idOf known ⟨aggregate, made, .building (some payload) none⟩ past ∧ message =
              DefaultAggregateStore.messageOf mode.events mode.enrichers mode.topic id payload event)
      past := by
  refine .call (S := writerSignature I St E) ⟨aggregate, made, runs.found, next⟩
    fun choice payload => ?_
  have answered := runs.cons ⟨choice, .toVec event, payload⟩ trivial
  cases payload with
  | error error => exact answered
  | ok payload =>
      refine .call (S := writerSignature I St E) ⟨aggregate, made, some payload, answered.found⟩
        fun choice id => ?_
      exact ⟨id, payload, answered.cons ⟨choice, .messageId, id⟩ trivial, rfl⟩

/-- `OutboxMessage::new`. -/
theorem obeys_newMessage {event : E} {id : Uuid} {payload : List UInt8}
    (runs : Runs idOf known ⟨aggregate, made, .building (some payload) none⟩ past)
    (next : aggregate.pending[made.length]? = some event) :
    ((runtime caller).newMessage (DefaultAggregateStore.messageOf mode.events mode.enrichers
      mode.topic id payload event) : WriterM I St E OutboxMessage).Obeys (Writes idOf mode caller)
      (fun past record => Runs idOf known { aggregate, made := made ++ [record] } past) past := by
  refine obeys_lift ⟨aggregate, made, some payload, runs.found⟩ fun choice now => ?_
  have read := runs.cons ⟨choice, .unitOfWork .utcNow, now⟩ trivial
  refine ⟨⟨rfl, aggregate, made, payload, event, id, read.found, next, rfl⟩, fun choice record => ?_⟩
  exact read.cons ⟨choice, .unitOfWork (.nowV7 caller now _), record⟩ trivial

/-- The messages of the pending events are made in order. -/
theorem obeys_mapEvents {events earlier : List E}
    (runs : Runs idOf known { aggregate, made } past)
    (split : aggregate.pending = earlier ++ events) (all : made.length = earlier.length) :
    (mapEvents (DefaultAggregateStore.mapEvent mode.events (runtime caller) mode.enrichers mode.topic)
      (runtime caller).newMessage events made : WriterM I St E _).Obeys (Writes idOf mode caller)
      (fun past result => match result with
        | .error _ => ∃ made, Runs idOf known { aggregate, made } past
        | .ok messages => Runs idOf known { aggregate, made := messages } past ∧
            messages.length = aggregate.pending.length) past := by
  induction events generalizing made earlier past with
  | nil =>
      refine ⟨runs, ?_⟩
      rw [split, List.append_nil, all]
  | cons event events ih =>
      have next : aggregate.pending[made.length]? = some event := by
        rw [split, all, List.getElem?_append_right (Nat.le_refl _), Nat.sub_self]
        rfl
      refine .bind (obeys_mapEvent runs next) fun past result mapped => ?_
      cases result with
      | error error => exact ⟨made, mapped⟩
      | ok message =>
          obtain ⟨id, payload, built, rfl⟩ := mapped
          refine .bind (obeys_newMessage built next) fun past record made => ?_
          refine ih made (?_ : aggregate.pending = (earlier ++ [event]) ++ events) ?_
          · rw [split, List.append_assoc]
            rfl
          · rw [List.length_append, List.length_append, all]
            rfl

theorem obeys_begin (runs : Runs idOf known { aggregate, made } past)
    (all : made.length = aggregate.pending.length) :
    ((store caller).begin : WriterM I St E _).Obeys (Writes idOf mode caller)
      (fun past opened => opened = .ok { guard := caller } ∧
        Runs idOf known ⟨aggregate, made, .locked⟩ past) past := by
  refine obeys_lift ⟨rfl, aggregate, made, runs.found, all⟩ fun choice _ => ?_
  exact ⟨rfl, runs.cons ⟨choice, .unitOfWork (.lock caller), ()⟩ trivial⟩

/-- The version check. -/
theorem obeys_saveInTx (tx : InMemoryTx St E)
    (runs : Runs idOf known ⟨aggregate, made, .locked⟩ past) :
    ((repository idOf).saveInTx tx aggregate).Obeys (Writes idOf mode caller)
      (fun past out =>
        (∃ error, out = ((tx, aggregate), .error error) ∧
          Runs idOf known ⟨aggregate, made, .refused⟩ past) ∨
        (out = (({ tx with stagedAggregate := some (InMemoryUnitOfWork.stored aggregate) },
            aggregate.setVersion (aggregate.version + 1)), .ok ()) ∧
          Runs idOf known ⟨aggregate, made, .ready⟩ past)) past := by
  show (lift (InMemoryUnitOfWork.saveInTx idOf tx aggregate)).Obeys _ _ _
  rw [InMemoryUnitOfWork.saveInTx_eq]
  refine obeys_lift ⟨aggregate, made, runs.found, rfl⟩ fun choice actual => ?_
  have checked := runs.cons ⟨choice, .unitOfWork (.version (idOf aggregate.state)), actual⟩ trivial
  rw [Attempt.after] at checked
  by_cases current : actual.getD 0 = aggregate.version
  · rw [if_pos current] at checked ⊢
    exact .inr ⟨rfl, checked⟩
  · rw [if_neg current] at checked ⊢
    exact .inl ⟨_, rfl, checked⟩

/-- The messages are staged. -/
theorem insertEach_eq (tx : InMemoryTx St E) (messages : List OutboxMessage) :
    insertEach (store (I := I) caller) tx messages =
      pure ({ tx with stagedOutbox := tx.stagedOutbox ++ messages }, .ok ()) := by
  induction messages generalizing tx with
  | nil =>
      rw [List.append_nil]
      rfl
  | cons message messages ih =>
      have staged : insertEach (store (I := I) caller) tx (message :: messages) =
        insertEach (store (I := I) caller) { tx with stagedOutbox := tx.stagedOutbox ++ [message] }
          messages := rfl
      rw [staged, ih, List.append_assoc]
      rfl

theorem obeys_insertEach {running : Attempt St E} (tx : InMemoryTx St E)
    (messages : List OutboxMessage) (runs : Runs idOf known running past) :
    (insertEach (store (I := I) caller) tx messages).Obeys (Writes idOf mode caller)
      (fun past out => out = ({ tx with stagedOutbox := tx.stagedOutbox ++ messages }, .ok ()) ∧
        Runs idOf known running past) past := by
  rw [insertEach_eq]
  exact ⟨rfl, runs⟩

/-- The outbox inserts of a commit. -/
theorem obeys_commitEach (messages : List OutboxMessage)
    (runs : Runs idOf known ⟨aggregate, made, .committing messages⟩ past) :
    (lift (InMemoryUnitOfWork.commitEach messages) : WriterM I St E _).Obeys (Writes idOf mode caller)
      (fun past result => match result with
        | .error _ => Runs idOf known ⟨aggregate, made, .torn⟩ past
        | .ok _ => Runs idOf known ⟨aggregate, made, .committing []⟩ past) past := by
  induction messages generalizing past with
  | nil => exact runs
  | cons message messages ih =>
      refine obeys_lift ⟨aggregate, made, messages, runs.found⟩ fun choice reply => ?_
      have inserted := runs.cons ⟨choice, .unitOfWork (.insertOutbox message), reply⟩ trivial
      cases reply with
      | error error => exact inserted
      | ok _ => exact ih inserted

/-- The commit of what a transaction has staged. -/
theorem obeys_commit {tx : InMemoryTx St E}
    (runs : Runs idOf known ⟨aggregate, made, .ready⟩ past)
    (staged : tx.stagedAggregate = some (InMemoryUnitOfWork.stored aggregate))
    (messages : tx.stagedOutbox = made) :
    (lift (InMemoryUnitOfWork.commit tx) : WriterM I St E _).Obeys (Writes idOf mode caller)
      (fun past result => match result with
        | .error _ => Runs idOf known ⟨aggregate, made, .aborted⟩ past
        | .ok _ => Runs idOf (InMemoryUnitOfWork.stored aggregate :: known)
            ⟨aggregate, made, .committed⟩ past) past := by
  rw [InMemoryUnitOfWork.commit_eq staged, messages]
  refine obeys_lift ⟨aggregate, made, runs.found, rfl⟩ fun choice reply => ?_
  have written := runs.cons
    ⟨choice, .unitOfWork (.insertAggregate (InMemoryUnitOfWork.stored aggregate)), reply⟩ trivial
  have renewed : Runs idOf (InMemoryUnitOfWork.stored aggregate :: known)
      ⟨aggregate, made, .committing made⟩ (_ :: past) :=
    ⟨written.found, List.forall_mem_cons.mpr ⟨.inr List.mem_cons_self, written.knows⟩⟩
  rw [lift_bind]
  refine .bind (obeys_commitEach made renewed) fun past result inserted => ?_
  cases result with
  | error error =>
      refine obeys_lift ⟨aggregate, made, .torn, inserted.found, .inr (.inl rfl)⟩ fun choice _ => ?_
      have released := inserted.cons ⟨choice, .unitOfWork .unlock, ()⟩ trivial
      exact ⟨released.found, (List.forall_mem_cons.mp released.knows).2⟩
  | ok _ =>
      refine obeys_lift ⟨aggregate, made, .committing [], inserted.found, .inr (.inr rfl)⟩
        fun choice _ => ?_
      exact inserted.cons ⟨choice, .unitOfWork .unlock, ()⟩ trivial

/-- The whole transaction. -/
theorem obeys_transact (runs : Runs idOf known { aggregate, made } past)
    (all : made.length = aggregate.pending.length) :
    (transact (store caller) (repository idOf).toTransactionalRepository made aggregate).Obeys
      (Writes idOf mode caller)
      (fun past out => out.1.state = aggregate.state ∧ match out.2 with
        | .error _ => Runs idOf known ⟨aggregate, made, .aborted⟩ past
        | .ok _ => out.1.version = aggregate.version + 1 ∧
            Runs idOf (InMemoryUnitOfWork.stored aggregate :: known) ⟨aggregate, made, .committed⟩ past)
      past := by
  refine .bind (obeys_begin runs all) fun past opened begun => ?_
  obtain ⟨rfl, locked⟩ := begun
  refine .bind (obeys_saveInTx { guard := caller } locked) fun past out checked => ?_
  rcases checked with ⟨error, rfl, refused⟩ | ⟨rfl, ready⟩
  · refine ⟨⟨aggregate, made, .refused, refused.found, .inl rfl⟩, fun choice _ => ?_⟩
    exact ⟨rfl, refused.cons ⟨choice, .unitOfWork .unlock, ()⟩ trivial⟩
  · refine .bind (obeys_insertEach _ made ready) fun past out staged => ?_
    obtain ⟨rfl, ready⟩ := staged
    refine .bind (obeys_commit ready rfl rfl) fun past result committed => ?_
    cases result with
    | error error => exact ⟨rfl, committed⟩
    | ok _ => exact ⟨rfl, rfl, committed⟩

/-- `AggregateStore::save`. -/
theorem obeys_save (runs : Runs idOf [aggregate] { aggregate } past) :
    (save idOf mode caller aggregate).Obeys (Writes idOf mode caller)
      (fun past out => Knows idOf past out.1 ∧
        ∃ running, attempt past = some running ∧ running.phase.Returns out.2) past := by
  refine .bind (Q := fun past out => Knows idOf past out.1 ∧ ∃ running, attempt past = some running ∧
    running.phase.Returns (out.2.mapError StoreError.ofSaveAndEnqueueError)) ?_
    fun past out enqueued => ?_
  · have all : aggregate.pending = [] ++ aggregate.pending := rfl
    refine .bind (obeys_mapEvents runs all rfl) fun past result mapped => ?_
    cases result with
    | error error =>
        obtain ⟨made, runs⟩ := mapped
        exact ⟨runs.knows aggregate List.mem_cons_self, _, runs.found, .inr ⟨none, none, rfl⟩⟩
    | ok messages =>
        refine .bind (obeys_transact mapped.1 mapped.2) fun past out transacted => ?_
        obtain ⟨⟨state, version, pending⟩, result⟩ := out
        obtain ⟨sameState, transacted⟩ := transacted
        cases sameState
        cases result with
        | error error =>
            have known := transacted.knows aggregate List.mem_cons_self
            exact ⟨known, _, transacted.found, .inl rfl⟩
        | ok _ =>
            obtain ⟨advanced, committed⟩ := transacted
            cases advanced
            exact ⟨committed.knows _ List.mem_cons_self, _, committed.found, rfl⟩
  · obtain ⟨saved, result⟩ := out
    obtain ⟨knows, ⟨aggregate, made, phase⟩, found, returned⟩ := enqueued
    cases result with
    | error error => exact ⟨knows, _, found, returned⟩
    | ok _ =>
        cases returned
        obtain ⟨events, topic, signal, enrichers⟩ := mode
        cases signal with
        | none => exact ⟨knows, _, found, rfl⟩
        | some signal =>
            refine .call (S := writerSignature I St E) ⟨aggregate, made, found⟩ fun choice _ => ?_
            have ended : Runs idOf [saved] ⟨aggregate, made, .committed⟩ past :=
              ⟨found, List.forall_mem_singleton.mpr knows⟩
            have told := ended.cons ⟨choice, .notify signal, ()⟩ trivial
            exact ⟨told.knows saved List.mem_cons_self, _, told.found, rfl⟩

/-- `AggregateStore::find`. -/
theorem obeys_find (id : I) (idle : attempt past = none) (knows : Knows idOf past aggregate) :
    (find id : WriterM I St E _).Obeys (Writes idOf mode caller)
      (fun past result => attempt past = none ∧ Knows idOf past (loaded aggregate result)) past := by
  refine ⟨idle, fun choice found => ?_⟩
  have still : attempt (⟨choice, .unitOfWork (.find id), found⟩ :: past) = none := by
    rw [attempt_within ⟨choice, .unitOfWork (.find id), found⟩ trivial, idle]
    rfl
  cases found with
  | none => exact ⟨still, knows.cons⟩
  | some found => exact ⟨still, .inr List.mem_cons_self⟩

/-- Every writer keeps to its control flow. -/
theorem obeys_write (script : WriterScript E idOf) (idle : attempt past = none)
    (knows : Knows idOf past aggregate) :
    (write idOf mode caller script aggregate).Obeys (Writes idOf mode caller) (fun _ _ => True)
      past := by
  induction script generalizing aggregate past with
  | stop => trivial
  | create state next ih => exact ih idle (.inl rfl)
  | load id next ih =>
      refine .bind (obeys_find id idle knows) fun past result found => ?_
      exact ih result found.1 found.2
  | raise change same events next ih =>
      refine ih idle ?_
      rcases knows with new | member
      · exact .inl new
      · refine .inr ?_
        rw [same]
        exact member
  | save next ih =>
      refine .call (S := writerSignature I St E) ⟨idle, knows⟩ fun choice _ => ?_
      have runs : Runs idOf [aggregate] { aggregate } (⟨choice, .saving aggregate, ()⟩ :: past) :=
        ⟨rfl, List.forall_mem_singleton.mpr knows.cons⟩
      refine .bind (obeys_save runs) fun past out saved => ?_
      refine .call (S := writerSignature I St E) saved.2 fun _ _ => ?_
      exact ih out.2 rfl saved.1.cons

end Control

end OutboxWriter

end Pharos

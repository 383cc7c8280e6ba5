import Pharos.UnitOfWork.Faults

/-!
# The error contract of a save

`AggregateStore::save` promises that a failed save leaves the version and the pending events of
the aggregate intact, so that a retry starts clean.  Delivery through the outbox keeps the promise
whatever fails.  Delivery in process keeps it as long as the failure comes before the aggregate is
stored: when a handler fails afterwards, the version is already advanced.
-/

namespace Pharos

namespace InMemoryUnitOfWork

open Async

section Contract

variable {I St E : Type} [DecidableEq I] (idOf : St → I) (events : DomainEvent E)
  (delivery : DeliveryMode) (enrichers : List (Message → Message))

/-- `AggregateStore::save` over adapters that may fail. -/
def saveAggregate (aggregate : Aggregate St E) :
    StoreM I St E (Aggregate St E × Except StoreError Unit) :=
  (aggregateStore idOf delivery enrichers).save events runtime aggregate

/-- The record is the outbox message of the event. -/
def IsRecordOf (conditions : Conditions E) (topic : String) (event : E) (record : OutboxMessage) :
    Prop :=
  ∃ n payload, conditions.toVec n event = .ok payload ∧
    record = .new (conditions.outboxId n) (conditions.now n)
      (DefaultAggregateStore.messageOf events enrichers topic (conditions.messageId n) payload event)

/-- The outbox gained one new record for each event and nothing else. -/
structure Enqueued (conditions : Conditions E) (topic : String) (pending : List E)
    (before after : InMemoryOutboxRepository) (records : List OutboxMessage) : Prop where
  each : List.Forall₂ (IsRecordOf events enrichers conditions topic) pending records
  distinct : (records.map OutboxMessage.id).Nodup
  new : ∀ record ∈ records, before.get record.id = none
  present : ∀ record ∈ records, after.get record.id = some record
  kept : ∀ id ∉ records.map OutboxMessage.id, after.get id = before.get id

/-- The events were published, or enqueued, in order. -/
def Delivered (conditions : Conditions E) (pending : List E) (s s' : StoreShared I St E) : Prop :=
  match delivery with
  | .inline => s'.published = s.published ++ pending
  | .outbox topic _ => ∃ records, Enqueued events enrichers conditions topic pending
      s.unitOfWork.outbox s'.unitOfWork.outbox records

/-- A save did its work: the aggregate is drained, stored and one version on, and its events are
delivered. -/
structure Completed (conditions : Conditions E) (s s' : StoreShared I St E)
    (aggregate after : Aggregate St E) : Prop where
  drained : after.pending = []
  version : after.version = aggregate.version + 1
  persisted : s'.unitOfWork.aggregates.get (idOf aggregate.state) = some after
  delivered : Delivered events delivery enrichers conditions aggregate.pending s s'

/-- The ids to come are new. -/
def FreshIds (conditions : Conditions E) (s : StoreShared I St E) : Prop :=
  conditions.outboxId.Injective ∧
    ∀ n, s.unitOfWork.drawn.length ≤ n → Undrawn s.unitOfWork (conditions.outboxId n)

/-- Nothing keeps a save of the aggregate from succeeding: no call fails, no transaction is open,
the stored version is the aggregate's, and the ids to come are new. -/
structure CauseGone (conditions : Conditions E) (s : StoreShared I St E)
    (aggregate : Aggregate St E) : Prop where
  calm : ∀ call, conditions.fault call = none
  serializes : ∀ n event, ∃ payload, conditions.toVec n event = .ok payload
  publishes : ∀ n, conditions.bus n = .ok ()
  free : s.unitOfWork.holder = none
  current : storedVersion s.unitOfWork (idOf aggregate.state) = aggregate.version
  fresh : FreshIds conditions s

/-- The contract of one save.  When it fails, the version and the pending events are those before
the call, no transaction is left open, and once the cause is gone another save does its work; when
it succeeds, it did its work. -/
def KeepsContract (conditions : Conditions E) (s : StoreShared I St E)
    (aggregate : Aggregate St E) : Prop :=
  ∀ s' after result, (saveAggregate idOf events delivery enrichers aggregate).run
      (answer idOf conditions) s = some (s', after, result) →
    match result with
    | .error _ => after.version = aggregate.version ∧ after.pending = aggregate.pending ∧
        s'.unitOfWork.holder = s.unitOfWork.holder ∧
        ∀ later t, CauseGone idOf later t after → ∃ t' final,
          (saveAggregate idOf events delivery enrichers after).run (answer idOf later) t =
            some (t', final, .ok ()) ∧
          Completed idOf events delivery enrichers later t t' after final
    | .ok () => Completed idOf events delivery enrichers conditions s s' aggregate after

/-- `Repository::save` refuses the aggregate. -/
def Refused (conditions : Conditions E) (s : StoreShared I St E) (aggregate : Aggregate St E) :
    Prop :=
  (∃ error, conditions.fault .save = some error) ∨
    storedVersion s.unitOfWork (idOf aggregate.state) ≠ aggregate.version

end Contract

/-! ## One transaction -/

section Transaction

variable {I St E : Type} [DecidableEq I] {idOf : St → I} {conditions : Conditions E}
  {s s' : StoreShared I St E} {aggregate : Aggregate St E} {messages : List OutboxMessage}

/-- Something makes a save through the outbox fail. -/
def Troubled (idOf : St → I) (conditions : Conditions E) (s : StoreShared I St E)
    (aggregate : Aggregate St E) : Prop :=
  (∃ call error, conditions.fault call = some error) ∨
    (∃ n event error, conditions.toVec n event = .error error) ∨
    storedVersion s.unitOfWork (idOf aggregate.state) ≠ aggregate.version

/-- The store after the commit of an aggregate and its messages. -/
def committed (idOf : St → I) (s : StoreShared I St E) (aggregate : Aggregate St E)
    (messages : List OutboxMessage) : StoreShared I St E :=
  { s with unitOfWork := { s.unitOfWork with
    aggregates := s.unitOfWork.aggregates.put (idOf aggregate.state) (stored aggregate)
    outbox := messages.foldl InMemoryOutboxRepository.write s.unitOfWork.outbox
    holder := none } }

/-- The store while a transaction is open. -/
def opened (s : StoreShared I St E) : StoreShared I St E :=
  { s with unitOfWork := { s.unitOfWork with holder := some 0 } }

/-- The save within a transaction that has staged nothing yet. -/
theorem run_saves (idOf : St → I) (conditions : Conditions E) (s : StoreShared I St E)
    (aggregate : Aggregate St E) :
    (∃ error, Troubled idOf conditions s aggregate ∧
      ((failingRepository idOf).saveInTx { guard := 0 } aggregate).run (answer idOf conditions)
        (opened s) = some (opened s, ({ guard := 0 }, aggregate), .error error)) ∨
    ((failingRepository idOf).saveInTx { guard := 0 } aggregate).run (answer idOf conditions)
      (opened s) = some (opened s, ({ guard := 0, stagedAggregate := some (stored aggregate) },
        aggregate.setVersion (aggregate.version + 1)), .ok ()) := by
  cases fault : conditions.fault .saveInTx with
  | some error => exact .inl ⟨error, .inl ⟨_, error, fault⟩, run_guarded_of_fault fault⟩
  | none =>
      by_cases current : storedVersion s.unitOfWork (idOf aggregate.state) = aggregate.version
      · exact .inr ((run_guarded_of_none fault).trans
          (run_lift_of_run ((run_saveInTx _ _).trans (if_pos current))))
      · exact .inl ⟨_, .inr (.inr current), (run_guarded_of_none fault).trans
          (run_lift_of_run ((run_saveInTx _ _).trans (if_neg current)))⟩

theorem run_insertEach (idOf : St → I) (conditions : Conditions E) (s : StoreShared I St E)
    (tx : InMemoryTx St E) (messages : List OutboxMessage) :
    (∃ tx' error, (∃ call fault, conditions.fault call = some fault) ∧
      (insertEach failingStore tx messages).run (answer idOf conditions) s =
        some (s, tx', .error error)) ∨
    (insertEach failingStore tx messages).run (answer idOf conditions) s =
      some (s, { tx with stagedOutbox := tx.stagedOutbox ++ messages }, .ok ()) := by
  induction messages generalizing tx with
  | nil =>
      right
      rw [List.append_nil]
      rfl
  | cons message messages ih =>
      cases fault : conditions.fault (.insertOutboxInTx tx.stagedOutbox.length) with
      | some error =>
          have refused : (failingStore.insertOutboxInTx tx message).run (answer idOf conditions) s =
              some (s, tx, .error error) := run_guarded_of_fault fault
          refine .inl ⟨tx, error, ⟨_, error, fault⟩, ?_⟩
          rw [insertEach, Program.run_bind_of_run refused]
          rfl
      | none =>
          have staged : (failingStore.insertOutboxInTx tx message).run (answer idOf conditions) s =
              some (s, { tx with stagedOutbox := tx.stagedOutbox ++ [message] }, .ok ()) :=
            (run_guarded_of_none fault).trans (run_lift_of_run rfl)
          rw [insertEach, Program.run_bind_of_run staged]
          have next := ih { tx with stagedOutbox := tx.stagedOutbox ++ [message] }
          rw [List.append_assoc] at next
          exact next

/-- The mutex is let go as it was found. -/
theorem released (free : s.unitOfWork.holder = none) :
    { opened s with unitOfWork := { (opened s).unitOfWork with holder := none } } = s := by
  obtain ⟨⟨aggregates, outbox, holder, drawn, callers⟩, published, notified⟩ := s
  cases free
  rfl

/-- An open transaction is rolled back. -/
theorem run_rollback {α : Type} (free : s.unitOfWork.holder = none) (tx : InMemoryTx St E)
    (value : α) :
    (failingStore.dropTx tx >>= fun _ => pure value).run (answer idOf conditions) (opened s) =
      some (s, value) := by
  have dropped : (lift ((store 0).dropTx tx)).run (answer idOf conditions) (opened s) =
      some ({ opened s with unitOfWork := { (opened s).unitOfWork with holder := none } }, ()) :=
    run_lift_of_run run_dropTx
  rw [released free] at dropped
  exact Program.run_bind_of_run dropped

/-- The commit of an open transaction that staged the aggregate. -/
theorem run_commits (idOf : St → I) (conditions : Conditions E) (tx : InMemoryTx St E)
    (free : s.unitOfWork.holder = none) (staged : tx.stagedAggregate = some (stored aggregate)) :
    (∃ error, (∃ call fault, conditions.fault call = some fault) ∧
      (failingStore.commit tx).run (answer idOf conditions) (opened s) = some (s, .error error)) ∨
    (failingStore.commit tx).run (answer idOf conditions) (opened s) =
      some (committed idOf s aggregate tx.stagedOutbox, .ok ()) := by
  cases fault : conditions.fault .commit with
  | some error =>
      exact .inl ⟨error, ⟨_, error, fault⟩,
        (run_guarded_of_fault fault).trans (run_rollback free tx _)⟩
  | none => exact .inr ((run_guarded_of_none fault).trans (run_lift_of_run (run_commit staged)))

/-- How a transaction ends: for a reason it is rolled back, or it is committed. -/
inductive TransactionEnd (idOf : St → I) (conditions : Conditions E) (s : StoreShared I St E)
    (aggregate : Aggregate St E) (messages : List OutboxMessage) :
    StoreShared I St E × Aggregate St E × Except SaveAndEnqueueError Unit → Prop where
  | rolledBack {after : Aggregate St E} {error : SaveAndEnqueueError}
      (trouble : Troubled idOf conditions s aggregate) :
      TransactionEnd idOf conditions s aggregate messages (s, after, .error error)
  | committed : TransactionEnd idOf conditions s aggregate messages
      (committed idOf s aggregate messages, aggregate.setVersion (aggregate.version + 1), .ok ())

/-- A transaction that can open comes to its end. -/
theorem run_transact (idOf : St → I) (conditions : Conditions E) (aggregate : Aggregate St E)
    (messages : List OutboxMessage) (opens : s.unitOfWork.holder = none ∨
      ∃ error, conditions.fault .begin = some error) :
    ∃ out, (transact failingStore (failingRepository idOf).toTransactionalRepository messages
      aggregate).run (answer idOf conditions) s = some out ∧
        TransactionEnd idOf conditions s aggregate messages out := by
  unfold transact
  cases begun : conditions.fault .begin with
  | some error =>
      have refused : failingStore.begin.run (answer idOf conditions) s = some (s, .error error) :=
        run_guarded_of_fault begun
      rw [Program.run_bind_of_run refused]
      exact ⟨_, rfl, .rolledBack (.inl ⟨_, error, begun⟩)⟩
  | none =>
      have free : s.unitOfWork.holder = none := by
        rcases opens with free | ⟨error, refused⟩
        · exact free
        · rw [begun] at refused
          cases refused
      have began : failingStore.begin.run (answer idOf conditions) s =
          some (opened s, .ok { guard := 0 }) :=
        (run_guarded_of_none begun).trans (run_lift_of_run (run_begin free))
      rw [Program.run_bind_of_run began]
      rcases run_saves idOf conditions s aggregate with ⟨error, trouble, refused⟩ | saved
      · exact ⟨_, (Program.run_bind_of_run refused).trans (run_rollback free _ _),
          .rolledBack trouble⟩
      · rw [Program.run_bind_of_run saved]
        rcases run_insertEach idOf conditions (opened s) ⟨0, some (stored aggregate), []⟩
          messages with
          ⟨tx, error, fault, refused⟩ | inserted
        · exact ⟨_, (Program.run_bind_of_run refused).trans (run_rollback free _ _),
            .rolledBack (.inl fault)⟩
        · rw [Program.run_bind_of_run inserted]
          rcases run_commits idOf conditions ⟨0, some (stored aggregate), messages⟩ free rfl
            with ⟨error, fault, refused⟩ | done
          · exact ⟨_, Program.run_bind_of_run refused, .rolledBack (.inl fault)⟩
          · exact ⟨_, Program.run_bind_of_run done, .committed⟩

end Transaction

/-! ## The messages of the pending events -/

section Mapping

variable {I St E : Type} [DecidableEq I] {idOf : St → I} {conditions : Conditions E}
  {events : DomainEvent E} {enrichers : List (Message → Message)} {topic : String}
  {s s' : StoreShared I St E} {event : E} {messages : List OutboxMessage}

/-- The store with other ids drawn. -/
def withDrawn (s : StoreShared I St E) (drawn : List (Uuid × ℕ)) : StoreShared I St E :=
  { s with unitOfWork := { s.unitOfWork with drawn := drawn } }

/-- The store after it made its next message. -/
def drew (conditions : Conditions E) (s : StoreShared I St E) : StoreShared I St E :=
  withDrawn s ((conditions.outboxId s.unitOfWork.drawn.length, 0) :: s.unitOfWork.drawn)

/-- New outbox messages for the events. -/
structure Made (conditions : Conditions E) (events : DomainEvent E)
    (enrichers : List (Message → Message)) (topic : String) (s : StoreShared I St E)
    (pending : List E) (records : List OutboxMessage) : Prop where
  each : List.Forall₂ (IsRecordOf events enrichers conditions topic) pending records
  distinct : (records.map OutboxMessage.id).Nodup
  undrawn : ∀ record ∈ records, Undrawn s.unitOfWork record.id

theorem run_mapEvent_of_error {error : String}
    (failed : conditions.toVec s.unitOfWork.drawn.length event = .error error) :
    (DefaultAggregateStore.mapEvent events runtime enrichers topic event).run
      (answer idOf conditions) s = some (s, .error error) := by
  have answered : answer idOf conditions s (.toVec event) = some (s, .error error) :=
    congrArg (fun reply => some (s, reply)) failed
  exact Program.run_bind_of_run (Program.run_call (S := storeSignature I St E) answered)

theorem run_mapEvent_of_ok {payload : List UInt8}
    (serialized : conditions.toVec s.unitOfWork.drawn.length event = .ok payload) :
    (DefaultAggregateStore.mapEvent events runtime enrichers topic event).run
      (answer idOf conditions) s = some (s, .ok (DefaultAggregateStore.messageOf events enrichers
        topic (conditions.messageId s.unitOfWork.drawn.length) payload event)) := by
  have answered : answer idOf conditions s (.toVec event) = some (s, .ok payload) :=
    congrArg (fun reply => some (s, reply)) serialized
  exact Program.run_bind_of_run (Program.run_call (S := storeSignature I St E) answered)

/-- A message that is made for an event comes before those of the other events. -/
theorem Made.cons {payload : List UInt8} {pending : List E} {records : List OutboxMessage}
    (undrawn : Undrawn s.unitOfWork (conditions.outboxId s.unitOfWork.drawn.length))
    (serialized : conditions.toVec s.unitOfWork.drawn.length event = .ok payload)
    (made : Made conditions events enrichers topic (drew conditions s) pending records) :
    Made conditions events enrichers topic s (event :: pending)
      (.new (conditions.outboxId s.unitOfWork.drawn.length)
        (conditions.now s.unitOfWork.drawn.length) (DefaultAggregateStore.messageOf events enrichers
          topic (conditions.messageId s.unitOfWork.drawn.length) payload event) :: records) where
  each := .cons ⟨_, payload, serialized, rfl⟩ made.each
  distinct := by
    rw [List.map_cons, List.nodup_cons]
    refine ⟨fun member => ?_, made.distinct⟩
    obtain ⟨record, member, same⟩ := List.mem_map.mp member
    have fresh := (made.undrawn record member).1
    rw [same] at fresh
    exact fresh List.mem_cons_self
  undrawn := by
    intro record member
    rcases List.mem_cons.mp member with rfl | member
    · exact undrawn
    · obtain ⟨fresh, absent⟩ := made.undrawn record member
      exact ⟨fun drawn => fresh (List.mem_cons_of_mem _ drawn), absent⟩

/-- Mapping the events draws ids and does nothing else; it fails with the serializer, or makes one
new message for each event. -/
theorem mapEvents_cases (pending : List E) {mapped : Except String (List OutboxMessage)}
    (ran : (mapEvents (DefaultAggregateStore.mapEvent events runtime enrichers topic)
      runtime.newMessage pending messages).run (answer idOf conditions) s = some (s', mapped)) :
    (∃ drawn, s' = withDrawn s drawn) ∧
      ((∃ n event error, mapped = .error error ∧ conditions.toVec n event = .error error) ∨
        ∃ records, mapped = .ok (messages ++ records) ∧
          Made conditions events enrichers topic s pending records) := by
  induction pending generalizing s messages with
  | nil =>
      cases ran
      refine ⟨⟨_, rfl⟩, .inr ⟨[], ?_, .nil, .nil, nofun⟩⟩
      rw [List.append_nil]
  | cons event pending ih =>
      rw [mapEvents] at ran
      cases serialized : conditions.toVec s.unitOfWork.drawn.length event with
      | error error =>
          rw [Program.run_bind_of_run (run_mapEvent_of_error serialized)] at ran
          cases ran
          exact ⟨⟨_, rfl⟩, .inl ⟨_, event, error, rfl, serialized⟩⟩
      | ok payload =>
          rw [Program.run_bind_of_run (run_mapEvent_of_ok serialized)] at ran
          obtain ⟨mid, record, drawing, rest⟩ := Program.exists_run_of_bind ran
          obtain ⟨inner, served⟩ := exists_run_of_lift drawing
          have undrawn := undrawn_of_newMessage served
          cases drawing.symm.trans (run_lift_of_run (run_newMessage undrawn))
          obtain ⟨⟨drawn, same⟩, outcome⟩ := ih rest
          refine ⟨⟨drawn, same⟩, outcome.imp id ?_⟩
          rintro ⟨records, rfl, made⟩
          refine ⟨_, ?_, made.cons undrawn serialized⟩
          rw [List.append_assoc]
          rfl

/-- A draw leaves the ids after it new. -/
theorem FreshIds.drew (fresh : FreshIds conditions s) : FreshIds conditions (drew conditions s) := by
  refine ⟨fresh.1, fun n later => ?_⟩
  have next : s.unitOfWork.drawn.length < n := later
  obtain ⟨undrawn, absent⟩ := fresh.2 n (le_of_lt next)
  refine ⟨fun member => ?_, absent⟩
  rcases List.mem_cons.mp member with same | member
  · exact absurd (fresh.1 same) (ne_of_gt next)
  · exact undrawn member

/-- Mapping the events comes to its end if the ids to come are new. -/
theorem exists_run_mapEvents (pending : List E) (fresh : FreshIds conditions s) :
    ∃ out, (mapEvents (DefaultAggregateStore.mapEvent events runtime enrichers topic)
      runtime.newMessage pending messages).run (answer idOf conditions) s = some out := by
  induction pending generalizing s messages with
  | nil => exact ⟨_, rfl⟩
  | cons event pending ih =>
      rw [mapEvents]
      cases serialized : conditions.toVec s.unitOfWork.drawn.length event with
      | error error =>
          exact ⟨_, Program.run_bind_of_run (run_mapEvent_of_error serialized)⟩
      | ok payload =>
          rw [Program.run_bind_of_run (run_mapEvent_of_ok serialized)]
          have undrawn := fresh.2 _ (le_refl s.unitOfWork.drawn.length)
          obtain ⟨out, ran⟩ := ih fresh.drew
          exact ⟨out, (Program.run_bind_of_run (run_lift_of_run (run_newMessage undrawn))).trans ran⟩

end Mapping

/-! ## Saves through the outbox -/

section Outbox

variable {I St E : Type} [DecidableEq I] {idOf : St → I} {conditions : Conditions E}
  {events : DomainEvent E} {enrichers : List (Message → Message)} {topic : String}
  {signal : Option OutboxSignal} {s s' : StoreShared I St E} {aggregate after : Aggregate St E}

/-- A transaction that ended could open. -/
theorem opens_of_transact {messages : List OutboxMessage}
    {out : StoreShared I St E × Aggregate St E × Except SaveAndEnqueueError Unit}
    (ran : (transact failingStore (failingRepository idOf).toTransactionalRepository messages
      aggregate).run (answer idOf conditions) s = some out) :
    s.unitOfWork.holder = none ∨ ∃ error, conditions.fault .begin = some error := by
  cases fault : conditions.fault .begin with
  | some error => exact .inr ⟨error, rfl⟩
  | none =>
      obtain ⟨mid, opened, began, -⟩ := Program.exists_run_of_bind ran
      obtain ⟨inner, served⟩ := exists_run_of_lift ((run_guarded_of_none fault).symm.trans began)
      exact .inl (free_of_begin served)

/-- `save_and_enqueue_in` fails for a reason and leaves the aggregate and the mutex as they were, or
it commits the aggregate with one message for each event. -/
theorem saveAndEnqueueIn_cases {result : Except SaveAndEnqueueError Unit}
    (ran : (saveAndEnqueueIn failingStore (failingRepository idOf).toTransactionalRepository
      (DefaultAggregateStore.mapEvent events runtime enrichers topic) runtime.newMessage
        aggregate).run (answer idOf conditions) s = some (s', after, result)) :
    (∃ error, result = .error error ∧ after = aggregate ∧
      s'.unitOfWork.holder = s.unitOfWork.holder ∧ Troubled idOf conditions s aggregate) ∨
    (result = .ok () ∧ after = stored aggregate ∧ ∃ records drawn,
      Made conditions events enrichers topic s aggregate.pending records ∧
        s' = committed idOf (withDrawn s drawn) aggregate records) := by
  have settled := (returns_saveAndEnqueueIn (advancesVersion_failing idOf) aggregate).run ran
  obtain ⟨mid, mapped, mapping, rest⟩ := Program.exists_run_of_bind ran
  obtain ⟨⟨drawn, rfl⟩, ⟨n, event, error, rfl, failed⟩ | ⟨records, rfl, made⟩⟩ :=
    mapEvents_cases _ mapping
  · cases rest
    exact .inl ⟨_, rfl, rfl, rfl, .inr (.inl ⟨n, event, error, failed⟩)⟩
  · obtain ⟨mid, out, transacting, rest⟩ := Program.exists_run_of_bind rest
    obtain ⟨ended, known, outcome⟩ :=
      run_transact idOf conditions aggregate _ (opens_of_transact transacting)
    cases known.symm.trans transacting
    cases outcome with
    | rolledBack trouble =>
        cases rest
        exact .inl ⟨_, rfl, settled, rfl, trouble⟩
    | committed =>
        cases rest
        exact .inr ⟨rfl, settled, records, drawn, made, rfl⟩

/-- `save_and_enqueue_in` comes to its end when no transaction is open and the ids are new. -/
theorem exists_run_saveAndEnqueueIn (free : s.unitOfWork.holder = none)
    (fresh : FreshIds conditions s) :
    ∃ out, (saveAndEnqueueIn failingStore (failingRepository idOf).toTransactionalRepository
      (DefaultAggregateStore.mapEvent events runtime enrichers topic) runtime.newMessage
        aggregate).run (answer idOf conditions) s = some out := by
  obtain ⟨⟨mid, mapped⟩, mapping⟩ := exists_run_mapEvents aggregate.pending fresh
  rw [saveAndEnqueueIn, Program.run_bind_of_run mapping]
  obtain ⟨⟨drawn, rfl⟩, -⟩ := mapEvents_cases _ mapping
  cases mapped with
  | error error => exact ⟨_, rfl⟩
  | ok messages =>
      have closed : (withDrawn s drawn).unitOfWork.holder = none := free
      obtain ⟨⟨after, left, result⟩, transacting, -⟩ :=
        run_transact idOf conditions aggregate messages (.inl closed)
      rw [Program.run_bind_of_run transacting]
      cases result with
      | error error => exact ⟨_, rfl⟩
      | ok _ => exact ⟨_, rfl⟩

/-- What is committed is persisted and delivered. -/
theorem completed_of_made {records : List OutboxMessage} {drawn : List (Uuid × ℕ)}
    (made : Made conditions events enrichers topic s aggregate.pending records)
    (same : s'.unitOfWork = (committed idOf (withDrawn s drawn) aggregate records).unitOfWork) :
    Completed idOf events (.outbox topic signal) enrichers conditions s s' aggregate
      (stored aggregate) where
  drained := rfl
  version := rfl
  persisted := by
    rw [same]
    exact DashMap.get_put_self _ _ _
  delivered := by
    refine ⟨records, made.each, made.distinct, fun record member => ?_, fun record member => ?_,
      fun id other => ?_⟩
    · exact (made.undrawn record member).2
    · rw [same]
      exact InMemoryOutboxRepository.get_foldl_write records made.distinct member
    · rw [same]
      exact InMemoryOutboxRepository.get_foldl_write_of_notMem records other

/-- A save through the outbox fails for a reason and leaves the aggregate and the mutex as they were,
or it does its work. -/
theorem outbox_cases {result : Except StoreError Unit}
    (ran : (saveAggregate idOf events (.outbox topic signal) enrichers aggregate).run
      (answer idOf conditions) s = some (s', after, result)) :
    (∃ error, result = .error error ∧ after = aggregate ∧
      s'.unitOfWork.holder = s.unitOfWork.holder ∧ Troubled idOf conditions s aggregate) ∨
    (result = .ok () ∧
      Completed idOf events (.outbox topic signal) enrichers conditions s s' aggregate after) := by
  obtain ⟨mid, ⟨left, outcome⟩, saved, rest⟩ := Program.exists_run_of_bind ran
  rcases saveAndEnqueueIn_cases saved with ⟨error, rfl, rfl, released, trouble⟩ |
    ⟨rfl, rfl, records, drawn, made, rfl⟩
  · cases rest
    exact .inl ⟨_, rfl, rfl, released, trouble⟩
  · cases signal with
    | none =>
        cases rest
        exact .inr ⟨rfl, completed_of_made made rfl⟩
    | some signal =>
        cases rest
        exact .inr ⟨rfl, completed_of_made made rfl⟩

theorem exists_run_outbox (free : s.unitOfWork.holder = none) (fresh : FreshIds conditions s) :
    ∃ out, (saveAggregate idOf events (.outbox topic signal) enrichers aggregate).run
      (answer idOf conditions) s = some out := by
  obtain ⟨⟨mid, left, outcome⟩, saved⟩ := exists_run_saveAndEnqueueIn free fresh
  have same : (saveAggregate idOf events (.outbox topic signal) enrichers aggregate).run
      (answer idOf conditions) s = Program.run _ _ mid := Program.run_bind_of_run saved
  rw [same]
  cases outcome with
  | error error => exact ⟨_, rfl⟩
  | ok _ =>
      cases signal with
      | none => exact ⟨_, rfl⟩
      | some signal => exact ⟨_, rfl⟩

/-- Without a cause nothing is in the way. -/
theorem CauseGone.not_troubled (gone : CauseGone idOf conditions s aggregate) :
    ¬ Troubled idOf conditions s aggregate := by
  rintro (⟨call, error, fault⟩ | ⟨n, event, error, failed⟩ | stale)
  · rw [gone.calm] at fault
    cases fault
  · obtain ⟨payload, serialized⟩ := gone.serializes n event
    rw [serialized] at failed
    cases failed
  · exact stale gone.current

/-- Delivery through the outbox keeps the contract, whatever fails. -/
theorem keepsContract_outbox (idOf : St → I) (events : DomainEvent E) (topic : String)
    (signal : Option OutboxSignal) (enrichers : List (Message → Message))
    (conditions : Conditions E) (s : StoreShared I St E) (aggregate : Aggregate St E) :
    KeepsContract idOf events (.outbox topic signal) enrichers conditions s aggregate := by
  intro s' after result ran
  rcases outbox_cases ran with ⟨error, rfl, rfl, released, -⟩ | ⟨rfl, completed⟩
  · refine ⟨rfl, rfl, released, fun later t gone => ?_⟩
    obtain ⟨⟨t', final, result⟩, again⟩ := exists_run_outbox gone.free gone.fresh
    rcases outbox_cases again with ⟨error, -, -, -, trouble⟩ | ⟨rfl, completed⟩
    · exact (gone.not_troubled trouble).elim
    · exact ⟨t', final, again, completed⟩
  · exact completed

end Outbox

/-! ## Saves that publish in process -/

section Inline

variable {I St E : Type} [DecidableEq I] {idOf : St → I} {conditions : Conditions E}
  {events : DomainEvent E} {enrichers : List (Message → Message)} {s : StoreShared I St E}
  {aggregate : Aggregate St E}

/-- The bus publishes every one of the events. -/
def PublishesAll (conditions : Conditions E) (s : StoreShared I St E) (pending : List E) : Prop :=
  ∀ i < pending.length, conditions.bus (s.published.length + i) = .ok ()

/-- The store after the bus published an event. -/
def publishedOne (s : StoreShared I St E) (event : E) : StoreShared I St E :=
  { s with published := s.published ++ [event] }

theorem publishesAll_cons {event : E} {pending : List E} :
    PublishesAll conditions s (event :: pending) ↔
      conditions.bus s.published.length = .ok () ∧
        PublishesAll conditions (publishedOne s event) pending := by
  have moved : ∀ i, (publishedOne s event).published.length + i = s.published.length + (i + 1) := by
    intro i
    rw [publishedOne, List.length_append, List.length_singleton]
    omega
  constructor
  · intro all
    refine ⟨all 0 (Nat.succ_pos _), fun i small => ?_⟩
    rw [moved]
    exact all (i + 1) (Nat.succ_lt_succ small)
  · rintro ⟨first, rest⟩ i small
    cases i with
    | zero => exact first
    | succ i =>
        rw [← moved]
        exact rest i (Nat.lt_of_succ_lt_succ small)

/-- The bus, as the store awaits it. -/
abbrev publishing (event : E) : StoreM I St E (Except EventBusError Unit) := ask (.publish event)

theorem run_publishing_of_ok {event : E} (ok : conditions.bus s.published.length = .ok ()) :
    (publishing event).run (answer idOf conditions) s = some (publishedOne s event, .ok ()) := by
  refine Program.run_call (S := storeSignature I St E) ?_
  show answer idOf conditions s (.publish event) = _
  rw [answer, ok]
  rfl

theorem run_publishing_of_error {event : E} {error : EventBusError}
    (failed : conditions.bus s.published.length = .error error) :
    (publishing event).run (answer idOf conditions) s = some (s, .error error) := by
  refine Program.run_call (S := storeSignature I St E) ?_
  show answer idOf conditions s (.publish event) = _
  rw [answer, failed]

theorem run_publishBatch_of_all (idOf : St → I) (aggregate : Aggregate St E) (pending : List E)
    (all : PublishesAll conditions s pending) :
    (publishBatch publishing aggregate pending).run (answer idOf conditions) s =
      some ({ s with published := s.published ++ pending }, aggregate, .ok ()) := by
  induction pending generalizing s with
  | nil =>
      rw [List.append_nil]
      rfl
  | cons event pending ih =>
      obtain ⟨first, rest⟩ := publishesAll_cons.mp all
      rw [publishBatch, Program.run_bind_of_run (run_publishing_of_ok first)]
      refine (ih rest).trans ?_
      rw [publishedOne, List.append_assoc]
      rfl

/-- A batch that is not published to its end fails, with the version it was given. -/
theorem run_publishBatch_of_not_all (idOf : St → I) (aggregate : Aggregate St E) (pending : List E)
    (notAll : ¬ PublishesAll conditions s pending) :
    ∃ s' after error, (publishBatch publishing aggregate pending).run (answer idOf conditions) s =
      some (s', after, .error error) ∧ after.version = aggregate.version := by
  induction pending generalizing s with
  | nil => exact (notAll nofun).elim
  | cons event pending ih =>
      rw [publishBatch]
      cases answered : conditions.bus s.published.length with
      | error error =>
          rw [Program.run_bind_of_run (run_publishing_of_error answered)]
          exact ⟨_, _, _, rfl, rfl⟩
      | ok _ =>
          rw [Program.run_bind_of_run (run_publishing_of_ok answered)]
          exact ih fun rest => notAll (publishesAll_cons.mpr ⟨answered, rest⟩)

/-- The store after `Repository::save` accepted the aggregate. -/
def savedOne (idOf : St → I) (s : StoreShared I St E) (aggregate : Aggregate St E) :
    StoreShared I St E :=
  { s with unitOfWork := { s.unitOfWork with
    aggregates := s.unitOfWork.aggregates.put (idOf aggregate.state) (stored aggregate) } }

/-- A refused save changes nothing. -/
theorem run_save_of_refused (refused : Refused idOf conditions s aggregate) :
    ∃ error, ((failingRepository idOf).save aggregate).run (answer idOf conditions) s =
      some (s, aggregate, .error error) := by
  cases fault : conditions.fault .save with
  | some error => exact ⟨error, run_guarded_of_fault fault⟩
  | none =>
      rcases refused with ⟨error, failed⟩ | stale
      · rw [fault] at failed
        cases failed
      · exact ⟨_, (run_guarded_of_none fault).trans
          (run_lift_of_run ((run_save aggregate).trans (if_neg stale)))⟩

theorem run_save_of_accepted (accepted : ¬ Refused idOf conditions s aggregate) :
    ((failingRepository idOf).save aggregate).run (answer idOf conditions) s =
      some (savedOne idOf s aggregate, aggregate.setVersion (aggregate.version + 1), .ok ()) := by
  obtain ⟨calm, current⟩ := not_or.mp accepted
  have none : conditions.fault .save = none :=
    Option.eq_none_iff_forall_ne_some.mpr fun error fault => calm ⟨error, fault⟩
  exact (run_guarded_of_none none).trans
    (run_lift_of_run ((run_save aggregate).trans (if_pos (not_not.mp current))))

theorem run_inline_of_refused (refused : Refused idOf conditions s aggregate) :
    ∃ error, (saveAggregate idOf events .inline enrichers aggregate).run (answer idOf conditions) s =
      some (s, aggregate, .error error) := by
  obtain ⟨error, failed⟩ := run_save_of_refused refused
  have passed : (saveAndPublish (failingRepository idOf).save publishing aggregate).run
      (answer idOf conditions) s = some (s, aggregate, .error (mapRepositoryError error)) :=
    Program.run_bind_of_run failed
  exact ⟨_, Program.run_bind_of_run passed⟩

/-- Once the aggregate is stored, the batch decides. -/
theorem run_inline_of_accepted (accepted : ¬ Refused idOf conditions s aggregate)
    {s' : StoreShared I St E} {after : Aggregate St E} {result : Except ApplicationError Unit}
    (batch : (publishBatch publishing (stored aggregate) aggregate.pending).run
      (answer idOf conditions) (savedOne idOf s aggregate) = some (s', after, result)) :
    (saveAggregate idOf events .inline enrichers aggregate).run (answer idOf conditions) s =
      some (s', after, result.mapError StoreError.ofApplicationError) := by
  have passed : (saveAndPublish (failingRepository idOf).save publishing aggregate).run
      (answer idOf conditions) s = some (s', after, result) :=
    (Program.run_bind_of_run (run_save_of_accepted accepted)).trans batch
  exact Program.run_bind_of_run passed

/-- A save that is accepted and publishes everything does its work. -/
theorem completed_inline (accepted : ¬ Refused idOf conditions s aggregate)
    (all : PublishesAll conditions s aggregate.pending) :
    ∃ s', (saveAggregate idOf events .inline enrichers aggregate).run (answer idOf conditions) s =
        some (s', stored aggregate, .ok ()) ∧
      Completed idOf events .inline enrichers conditions s s' aggregate (stored aggregate) := by
  have publishes : PublishesAll conditions (savedOne idOf s aggregate) aggregate.pending := all
  have batch := run_publishBatch_of_all idOf (stored aggregate) aggregate.pending publishes
  exact ⟨_, run_inline_of_accepted accepted batch, rfl, rfl, DashMap.get_put_self _ _ _, rfl⟩

/-- Without a cause the repository accepts the aggregate. -/
theorem CauseGone.not_refused (gone : CauseGone idOf conditions s aggregate) :
    ¬ Refused idOf conditions s aggregate := by
  rintro (⟨error, fault⟩ | stale)
  · rw [gone.calm] at fault
    cases fault
  · exact stale gone.current

/-- Delivery in process keeps the contract if the repository refuses the aggregate or the bus
publishes every event. -/
theorem keepsContract_inline (kept : Refused idOf conditions s aggregate ∨
      PublishesAll conditions s aggregate.pending) :
    KeepsContract idOf events .inline enrichers conditions s aggregate := by
  intro s' after result ran
  by_cases refused : Refused idOf conditions s aggregate
  · obtain ⟨error, failed⟩ := run_inline_of_refused refused
    cases failed.symm.trans ran
    refine ⟨rfl, rfl, rfl, fun later t gone => ?_⟩
    obtain ⟨t', again, completed⟩ := completed_inline gone.not_refused fun i _ => gone.publishes _
    exact ⟨t', _, again, completed⟩
  · obtain ⟨t, done, completed⟩ := completed_inline refused (kept.resolve_left refused)
    cases done.symm.trans ran
    exact completed

/-- A handler that fails after the aggregate was stored breaks it. -/
theorem not_keepsContract_inline (accepted : ¬ Refused idOf conditions s aggregate)
    (notAll : ¬ PublishesAll conditions s aggregate.pending) :
    ¬ KeepsContract idOf events .inline enrichers conditions s aggregate := by
  intro keeps
  have fails : ¬ PublishesAll conditions (savedOne idOf s aggregate) aggregate.pending := notAll
  obtain ⟨s', after, error, batch, version⟩ :=
    run_publishBatch_of_not_all idOf (stored aggregate) aggregate.pending fails
  obtain ⟨same, -⟩ := keeps _ _ _ (run_inline_of_accepted accepted batch)
  have advanced : after.version = aggregate.version + 1 := version
  omega

/-- For every aggregate, every state of the store and every pattern of failures: a save keeps the
contract if and only if it delivers through the outbox, or the repository refuses the aggregate, or
the bus publishes every pending event. -/
theorem keepsContract_iff (idOf : St → I) (events : DomainEvent E) (delivery : DeliveryMode)
    (enrichers : List (Message → Message)) (conditions : Conditions E) (s : StoreShared I St E)
    (aggregate : Aggregate St E) :
    KeepsContract idOf events delivery enrichers conditions s aggregate ↔
      delivery ≠ .inline ∨ Refused idOf conditions s aggregate ∨
        PublishesAll conditions s aggregate.pending := by
  cases delivery with
  | outbox topic signal =>
      exact ⟨fun _ => .inl nofun, fun _ => keepsContract_outbox _ _ _ _ _ _ _ _⟩
  | inline =>
      constructor
      · intro keeps
        by_contra broken
        obtain ⟨accepted, notAll⟩ := not_or.mp (not_or.mp broken).2
        exact not_keepsContract_inline accepted notAll keeps
      · rintro (outbox | kept)
        · exact (outbox rfl).elim
        · exact keepsContract_inline kept

end Inline

/-! ## A handler that fails -/

/-- Orders of numbers, with their events. -/
def orderEvents : DomainEvent ℕ where
  eventType _ := "OrderPlaced"
  aggregateId _ := "1"

/-- A new order with one event. -/
def placed : Aggregate ℕ ℕ where
  state := 1
  pending := [7]

/-- An empty store. -/
def emptyStore : StoreShared ℕ ℕ ℕ where
  unitOfWork := { aggregates := ∅, outbox := .new 10 }

example : CauseGone id ({} : Conditions ℕ) emptyStore placed :=
  ⟨fun _ => rfl, fun _ _ => ⟨[], rfl⟩, fun _ => rfl, rfl, rfl, fun _ _ same => same,
    fun _ _ => ⟨nofun, rfl⟩⟩

/-- The first handler fails. -/
def mailDown : Conditions ℕ where
  bus _ := .error (.handlerError "OrderPlaced" "mail server down")

/-- The save of a new order is reported as failed and leaves the order at version 1; saved again
when the handler is back, it is at version 2. -/
theorem failed_save_advances :
    ((saveAggregate id orderEvents .inline [] placed).run (answer id mailDown) emptyStore).map
        Prod.snd = some ({ state := 1, version := 1, pending := [7] },
          .error (.storage "event handler failed for 'OrderPlaced': mail server down")) ∧
    (((saveAggregate id orderEvents .inline [] placed).run (answer id mailDown) emptyStore).bind
      fun out => ((saveAggregate id orderEvents .inline [] out.2.1).run (answer id {}) out.1).map
        Prod.snd) = some ({ state := 1, version := 2 }, .ok ()) ∧
    ¬ KeepsContract id orderEvents .inline [] mailDown emptyStore placed := by
  have failed : ((saveAggregate id orderEvents .inline [] placed).run (answer id mailDown)
      emptyStore).map Prod.snd = some ({ state := 1, version := 1, pending := [7] },
        .error (.storage "event handler failed for 'OrderPlaced': mail server down")) := by
    decide +kernel
  refine ⟨failed, by decide +kernel, fun keeps => ?_⟩
  obtain ⟨⟨s', after, result⟩, ran, same⟩ := Option.map_eq_some_iff.mp failed
  cases same
  obtain ⟨version, -⟩ := keeps _ _ _ ran
  cases version

end InMemoryUnitOfWork

end Pharos

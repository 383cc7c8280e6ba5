import Pharos.Async.Joint
import Pharos.Consume.Conservation
import Pharos.Outbox.Relay

/-!
# From the outbox to the handlers

An outbox dispatcher publishes to the in-memory broker, and consumers of the broker run
`process_idempotent_with_retry`, all in any interleaving.  A publish call that succeeds is the
arrival of one copy in the broker; one that fails leaves nothing there.  Between the outbox and the
handlers no message is lost, copied or made up (`pipeline_delivers`).
-/

namespace Pharos

namespace Consumer

open Async

/-! ## What the trace of the consumers says -/

/-- The handler succeeded on the message. -/
def HandledOk (id : Uuid) : ConsumeEvent → Prop
  | ⟨_, .handle delivery, .ok _⟩ => delivery.message.messageId = id
  | _ => False

/-- A handler was called with the message. -/
def Handles (message : Message) : ConsumeOp → Prop
  | .handle delivery => delivery.message = message
  | _ => False

section Trace

variable {retry : RetryPolicy} {p : BrokerPool} {staleAfter : Duration} {epoch : Time}
  {C : BrokerPool → Action ConsumeChoice BrokerArrival → Prop}
  (reached : (system (inMemory retry)).Reaches C (initial staleAfter epoch {}) p)

include reached

theorem awaits_of_entry :
    ∀ entry ∈ p.trace, Awaits entry.args entry.past entry.event.op := by
  refine reached.forall_trace rfl ?_
  intro q i t op next choice shared reply before found rest _ _
  exact (awaits_of_reaches before found rest).1

/-- What a task had done stands earlier in the trace. -/
theorem past_in_trace : ∀ entry ∈ p.trace, ∀ event ∈ entry.past,
    ∃ earlier ∈ p.trace, earlier.event = event := by
  have all : Throughout (fun earlier entry => ∀ event ∈ entry.past,
      ∃ e ∈ earlier, e.event = event) p.trace := by
    refine reached.throughout rfl ?_
    intro q i t op next choice shared reply before found _ _ _ event member
    obtain ⟨entry, inTrace, -, -, same⟩ := before.mem_trace rfl rfl found member
    exact ⟨entry, inTrace, same⟩
  intro entry member event inPast
  obtain ⟨earlier, later, split⟩ := List.append_of_mem member
  obtain ⟨e, before, same⟩ := all earlier entry later split event inPast
  exact ⟨e, split ▸ List.mem_append_left _ before, same⟩

theorem genuine_of_entry : ∀ entry ∈ p.trace, Genuine p entry.args.delivery := by
  intro entry member
  obtain ⟨t, found, same⟩ := (reached.past_eq rfl rfl).2 entry member
  exact same ▸ ((stock_of_reaches reached).inCall t (List.mem_of_getElem? found)).1

/-- Dead-letter records stay. -/
theorem dead_of_entry : ∀ entry ∈ p.trace, ∀ dead ∈ entry.before.outside.deadLetters.messages,
    dead ∈ p.shared.outside.deadLetters.messages := by
  refine reached.invariant (P := fun p : BrokerPool => ∀ entry ∈ p.trace,
    ∀ dead ∈ entry.before.outside.deadLetters.messages,
      dead ∈ p.shared.outside.deadLetters.messages) (fun _ member => by cases member) ?_
  intro q r action before kept _ stepped
  obtain ⟨arrival, shared, args, rfl, arrived, rfl⟩ |
    ⟨i, choice, t, op, next, shared, reply, rfl, found, rest, served, rfl⟩ :=
    System.step_cases stepped
  · obtain ⟨message, rfl, rfl⟩ | ⟨topic, consumer, broker, delivery, -, rfl, rfl⟩ :=
      arrive_cases arrived
    · exact kept
    · exact kept
  · have grown : ∀ dead ∈ q.shared.outside.deadLetters.messages,
        dead ∈ shared.outside.deadLetters.messages := by
      intro dead member
      cases op with
      | deadLetter message reason attempts =>
          cases served
          exact List.mem_append_left _ member
      | _ =>
          cases served
          exact member
    intro entry member dead recorded
    rcases List.mem_append.mp member with old | new
    · exact grown dead (kept entry old dead recorded)
    · rw [List.mem_singleton] at new
      subst new
      exact grown dead recorded

/-- A completed message was handled. -/
theorem handled_of_completes {entry : ConsumeEntry InMemoryOutside} (member : entry ∈ p.trace)
    {id : Uuid} {consumer : String} (completes : Completes id consumer entry.event) :
    ∃ earlier ∈ p.trace, HandledOk id earlier.event := by
  have awaits := awaits_of_entry reached entry member
  have known := past_in_trace reached entry member
  obtain ⟨task, args, past, before, choice, op, reply⟩ := entry
  replace awaits : Awaits args past op := awaits
  cases op with
  | markCompleted id' consumer' =>
      cases reply with
      | error error => exact completes.elim
      | ok _ =>
          obtain ⟨rfl, rfl⟩ := completes
          cases awaits with
          | succeeds choice' handles =>
              obtain ⟨earlier, inTrace, same⟩ := known _ List.mem_cons_self
              refine ⟨earlier, inTrace, ?_⟩
              rw [same]
              rfl
  | _ => exact completes.elim

/-- A copy that was acked had its message handled. -/
theorem handled_of_acked {copy : ℕ} (acks : 0 < acked p copy) :
    ∃ message, p.shared.outside.published[copy]? = some message ∧
      ∃ entry ∈ p.trace, HandledOk message.messageId entry.event := by
  obtain ⟨entry, member, own⟩ := List.countP_pos_iff.mp acks
  have own := of_decide_eq_true own
  have awaits := awaits_of_entry reached entry member
  have genuine := genuine_of_entry reached entry member
  obtain ⟨earlier, later, split⟩ := List.append_of_mem member
  have justified := (settled_of_reaches reached).justified earlier entry later split
  obtain ⟨task, args, past, before, choice, op, reply⟩ := entry
  replace awaits : Awaits args past op := awaits
  cases op with
  | ack delivery =>
      obtain ⟨rfl, -⟩ := awaits.of_ack
      obtain rfl : args.delivery.copy = copy := own
      obtain ⟨e, inEarlier, completes⟩ := justified
      exact ⟨args.delivery.message, genuine, handled_of_completes reached
        (split ▸ List.mem_append_left _ inEarlier) completes⟩
  | _ => exact own.elim

/-- A copy that was dropped is on the dead-letter queue. -/
theorem dead_of_dropped {copy : ℕ} (drops : 0 < dropped p copy) :
    ∃ message, p.shared.outside.published[copy]? = some message ∧
      ∃ dead ∈ p.shared.outside.deadLetters.messages, dead.message = message := by
  obtain ⟨entry, member, own⟩ := List.countP_pos_iff.mp drops
  have own := of_decide_eq_true own
  have awaits := awaits_of_entry reached entry member
  have genuine := genuine_of_entry reached entry member
  have kept := dead_of_entry reached entry member
  obtain ⟨earlier, later, split⟩ := List.append_of_mem member
  have justified := (settled_of_reaches reached).justified earlier entry later split
  obtain ⟨task, args, past, before, choice, op, reply⟩ := entry
  replace awaits : Awaits args past op := awaits
  cases op with
  | nack delivery requeue =>
      cases requeue with
      | true => exact own.elim
      | false =>
          obtain ⟨rfl, -⟩ := awaits.of_drop
          obtain rfl : args.delivery.copy = copy := own
          obtain ⟨dead, recorded, same, -⟩ := justified
          exact ⟨args.delivery.message, genuine, dead, kept dead recorded, same⟩
  | _ => exact own.elim

/-- A handler is only ever called with a message that was published. -/
theorem published_of_handles {entry : ConsumeEntry InMemoryOutside} (member : entry ∈ p.trace)
    {message : Message} (handles : Handles message entry.event.op) :
    message ∈ p.shared.outside.published := by
  have awaits := awaits_of_entry reached entry member
  have genuine := genuine_of_entry reached entry member
  obtain ⟨task, args, past, before, choice, op, reply⟩ := entry
  replace awaits : Awaits args past op := awaits
  cases op with
  | handle delivery =>
      obtain rfl : delivery.message = message := handles
      obtain rfl : delivery = args.delivery := by cases awaits; rfl
      exact List.mem_of_getElem? genuine
  | _ => exact handles.elim

end Trace

theorem published_of_next {retry : RetryPolicy} {s s' : ConsumeShared InMemoryOutside}
    {topic consumer : String} {args : List Call}
    (arrived : (system (inMemory retry)).arrive s (.next topic consumer) = some (s', args)) :
    s'.outside.published = s.outside.published := by
  obtain ⟨out, brought, same⟩ := Option.map_eq_some_iff.mp arrived
  simp only [inMemory] at brought
  split at brought
  · cases brought
  · cases brought
    cases same
    rfl

theorem queued_eq_zero {broker : InMemoryMessageBroker}
    (empty : ∀ topic queue, broker.topics.get topic = some queue → queue = []) (copy : ℕ) :
    broker.queued copy = 0 := by
  refine List.sum_eq_zero_iff_forall_eq_nat.mpr fun n listed => ?_
  obtain ⟨⟨topic, queue⟩, member, rfl⟩ := List.mem_map.mp listed
  rw [empty topic queue (AList.mem_lookup_iff.mpr member)]
  rfl

/-! ## A dispatcher in front of the broker -/

/-- The message a publish call that succeeded puts on the broker. -/
def putOnBroker : OutboxDispatcher.DispatchEvent → Option Message
  | ⟨_, .publish record, .ok ()⟩ => some record.message
  | _ => none

/-- The lanes of the dispatcher and the calls of the consumers. -/
def pipeline (config : DispatchConfig) (retry : RetryPolicy) :
    Joint dispatchSignature OutboxShared DispatchChoice OutboxArrival DispatchLane Unit
      consumeSignature (ConsumeShared InMemoryOutside) ConsumeChoice BrokerArrival Call
      ProcessResult where
  left := OutboxDispatcher.system config
  right := system (inMemory retry)
  hands event := (putOnBroker event).map .publish

abbrev PipelinePools :=
  Joint.Pools dispatchSignature OutboxShared DispatchChoice DispatchLane Unit consumeSignature
    (ConsumeShared InMemoryOutside) ConsumeChoice Call ProcessResult

/-- One dispatcher, and nobody else publishes. -/
def Piping (config : DispatchConfig) (c : PipelinePools) :
    Action DispatchChoice OutboxArrival ⊕ Action ConsumeChoice BrokerArrival → Prop
  | .inl action => OutboxDispatcher.Delivering config c.1 action
  | .inr (.arrive (.publish _)) => False
  | .inr (.arrive (.next _ _)) | .inr (.step _ _) => True

instance (config : DispatchConfig) (c : PipelinePools) : DecidablePred (Piping config c)
  | .inl action => inferInstanceAs (Decidable (OutboxDispatcher.Delivering config c.1 action))
  | .inr (.arrive (.publish _)) => .isFalse id
  | .inr (.arrive (.next _ _)) | .inr (.step _ _) => .isTrue trivial

/-- Nothing has happened yet. -/
def pipelineInitial (claimLease : ChronoDuration) (staleAfter : Duration) (epoch : Time) :
    PipelinePools :=
  (OutboxDispatcher.initial claimLease, initial staleAfter epoch {})

/-- Nothing is under way: the dispatcher is between two runs and has no row left to publish, no
call is in flight, and the queues are empty. -/
structure Drained (c : PipelinePools) : Prop where
  dispatcher : c.1.Quiescent
  lanes : c.1.shared.run.waiting = []
  rows : ∀ row ∈ OutboxDispatcher.rows c.1.shared, row.status ≠ .pending
  calls : c.2.Quiescent
  queues : ∀ topic queue, c.2.shared.outside.broker.topics.get topic = some queue → queue = []

theorem drained_iff {c : PipelinePools} : Drained c ↔
    (c.1.Quiescent ∧ c.1.shared.run.waiting = [] ∧
      ∀ row ∈ OutboxDispatcher.rows c.1.shared, row.status ≠ .pending) ∧ c.2.Quiescent ∧
    ∀ topic queue, c.2.shared.outside.broker.topics.get topic = some queue → queue = [] := by
  constructor
  · intro drained
    exact ⟨⟨drained.dispatcher, drained.lanes, drained.rows⟩, drained.calls, drained.queues⟩
  · intro ⟨⟨dispatcher, lanes, rows⟩, calls, queues⟩
    exact ⟨dispatcher, lanes, rows, calls, queues⟩

instance (c : PipelinePools) : Decidable (Drained c) := decidable_of_iff _ drained_iff.symm

section Runs

variable {config : DispatchConfig} {retry : RetryPolicy} {claimLease : ChronoDuration}
  {staleAfter : Duration} {epoch : Time} {c : PipelinePools}
  (reached : (pipeline config retry).Reaches (Piping config)
    (pipelineInitial claimLease staleAfter epoch) c)

include reached

theorem dispatcher_reaches : (OutboxDispatcher.system config).Reaches
    (OutboxDispatcher.Delivering config) (OutboxDispatcher.initial claimLease) c.1 :=
  Joint.Reaches.left reached fun side => side

theorem consumers_reach : (system (inMemory retry)).Reaches System.Any
    (initial staleAfter epoch {}) c.2 :=
  Joint.Reaches.right reached (fun _ _ => trivial) fun _ _ _ _ _ _ => trivial

/-- What is on the broker is what the dispatcher got accepted, in the same order. -/
theorem published_eq_accepted : c.2.shared.outside.published =
    (OutboxDispatcher.acceptedCalls c.1.shared).map (·.record.message) := by
  refine reached.invariant (P := fun c : PipelinePools => c.2.shared.outside.published =
    (OutboxDispatcher.acceptedCalls c.1.shared).map (·.record.message)) rfl ?_
  intro d e action before same side stepped
  obtain ⟨arrival, shared, args, rfl, arrived, rfl⟩ |
    ⟨i, choice, t, op, next, shared, reply, rfl, found, awaits, served, handed⟩ |
    ⟨action, q, rfl, moved, rfl⟩ := Joint.step_cases stepped
  · have kept : shared.calls = d.1.shared.calls := OutboxDispatcher.calls_of_arrive arrived
    rw [Pool.start_shared, OutboxDispatcher.acceptedCalls, kept]
    exact same
  · have grown : shared.calls = d.1.shared.calls ++ (OutboxDispatcher.callMade choice op).toList :=
      OutboxDispatcher.calls_of_serve served
    have added : (OutboxDispatcher.acceptedCalls shared).map (·.record.message) =
        (OutboxDispatcher.acceptedCalls d.1.shared).map (·.record.message) ++
          (putOnBroker ⟨choice, op, reply⟩).toList := by
      unfold OutboxDispatcher.acceptedCalls
      rw [grown, List.filter_append, List.map_append]
      congr 1
      cases op with
      | publish record =>
          obtain rfl : choice.published = reply := congrArg Prod.snd (Option.some.inj served)
          cases outcome : choice.published <;>
            simp [OutboxDispatcher.callMade, putOnBroker, outcome]
      | recordAttempt _ | markPublished _ | decideFor _ _ | markFailed _ _ | scheduleRetry _ _
      | yield _ _ => rfl
    rcases handed with ⟨silent, rfl⟩ | ⟨arrival, q, hands, moved, rfl⟩
    · rw [Option.map_eq_none_iff.mp silent, Option.toList_none, List.append_nil] at added
      rw [Pool.advance_shared, added]
      exact same
    · obtain ⟨message, puts, rfl⟩ := Option.map_eq_some_iff.mp hands
      rw [puts, Option.toList_some] at added
      cases moved
      rw [Pool.advance_shared, added, ← same]
      rfl
  · obtain ⟨arrival, shared, args, rfl, arrived, rfl⟩ |
      ⟨i, choice, t, op, next, shared, reply, rfl, found, rest, served, rfl⟩ :=
      System.step_cases moved
    · cases arrival with
      | publish message => exact side.elim
      | next topic consumer =>
          have kept : shared.outside.published = d.2.shared.outside.published :=
            published_of_next arrived
          rw [Pool.start_shared, kept]
          exact same
    · have kept : shared.outside.published = d.2.shared.outside.published := serve_published served
      rw [Pool.advance_shared, kept]
      exact same

/-- A published row is one copy on the broker. -/
theorem exists_copy {row : OutboxMessage} (listed : row ∈ OutboxDispatcher.rows c.1.shared)
    (published : row.status = .published) : ∃ copy : ℕ,
      c.2.shared.outside.published[copy]? = some row.message := by
  have delivering := dispatcher_reaches reached
  have single := OutboxDispatcher.single_of_delivering delivering
  have found := OutboxDispatcher.mem_rows.mp listed
  have last := (OutboxDispatcher.ledger_of_reaches delivering).last_ok
    (OutboxDispatcher.consistent_of_reaches single) found published
  obtain ⟨call, made, ok⟩ := List.mem_map.mp (List.mem_of_getLast? last)
  obtain ⟨called, same⟩ := List.mem_filter.mp made
  obtain ⟨row', found', message⟩ := OutboxDispatcher.called_message single call called
  rw [of_decide_eq_true same, found] at found'
  cases found'
  refine List.mem_iff_getElem?.mp ?_
  rw [published_eq_accepted reached, message]
  exact List.mem_map_of_mem (OutboxDispatcher.mem_acceptedCalls.mpr ⟨called, ok⟩)

/-- When everything has come to rest a published message was handled or parked. -/
theorem Drained.settled (lease : staleAfter ≤ chronoDurationMax) (drained : Drained c)
    {row : OutboxMessage} (listed : row ∈ OutboxDispatcher.rows c.1.shared)
    (published : row.status = .published) :
    (∃ entry ∈ c.2.trace, HandledOk row.message.messageId entry.event) ∨
      ∃ dead ∈ c.2.shared.outside.deadLetters.messages, dead.message = row.message := by
  have consumers := consumers_reach reached
  obtain ⟨copy, onBroker⟩ := exists_copy reached listed published
  have conserved := (stock_of_reaches consumers).conserved copy
  rw [if_pos (List.getElem?_eq_some_iff.mp onBroker).1, held_eq_inFlight lease consumers] at conserved
  have unqueued : queued c.2 copy = 0 := queued_eq_zero drained.queues copy
  have landed : inFlight c.2 copy = 0 := by
    refine List.countP_eq_zero.mpr fun t started own => ?_
    exact (of_decide_eq_true own).1 (drained.calls t started)
  have returned : 0 < acked c.2 copy ∨ 0 < dropped c.2 copy := by omega
  rcases returned with acks | drops
  · obtain ⟨message, same, handled⟩ := handled_of_acked consumers acks
    cases onBroker.symm.trans same
    exact .inl handled
  · obtain ⟨message, same, dead⟩ := dead_of_dropped consumers drops
    cases onBroker.symm.trans same
    exact .inr dead

/-- From the outbox to the handlers.  One dispatcher publishes to the in-memory broker and any
number of consumers take from it, under a lease in range.  In every configuration that any
interleaving reaches: the broker received the messages of the accepted publish calls, in their
order, and no row was accepted twice; each of these copies is queued, in flight, acked or dropped,
and in one of these places only; handlers are called with messages of outbox rows only.  Once
nothing is under way, every row failed, or its message was handled, or it is on the dead-letter
queue. -/
theorem pipeline_delivers (lease : staleAfter ≤ chronoDurationMax) :
    c.2.shared.outside.published =
      (OutboxDispatcher.acceptedCalls c.1.shared).map (·.record.message) ∧
    ((OutboxDispatcher.acceptedCalls c.1.shared).map (·.record.id)).Nodup ∧
    (∀ copy, queued c.2 copy + inFlight c.2 copy + acked c.2 copy + dropped c.2 copy =
      if copy < (OutboxDispatcher.acceptedCalls c.1.shared).length then 1 else 0) ∧
    (∀ entry ∈ c.2.trace, ∀ message, Handles message entry.event.op →
      ∃ row ∈ OutboxDispatcher.rows c.1.shared, row.message = message) ∧
    (Drained c → ∀ row ∈ OutboxDispatcher.rows c.1.shared, row.status = .failed ∨
      (∃ entry ∈ c.2.trace, HandledOk row.message.messageId entry.event) ∨
      ∃ dead ∈ c.2.shared.outside.deadLetters.messages, dead.message = row.message) := by
  have delivering := dispatcher_reaches reached
  have single := OutboxDispatcher.single_of_delivering delivering
  have consumers := consumers_reach reached
  have same := published_eq_accepted reached
  refine ⟨same, OutboxDispatcher.nodup_accepted delivering, fun copy => ?_,
    fun entry member message handles => ?_, fun drained row listed => ?_⟩
  · have conserved := (stock_of_reaches consumers).conserved copy
    rw [held_eq_inFlight lease consumers, same, List.length_map] at conserved
    exact conserved
  · have published := published_of_handles consumers member handles
    rw [same] at published
    obtain ⟨call, listed, rfl⟩ := List.mem_map.mp published
    obtain ⟨row, found, message⟩ := OutboxDispatcher.called_message single call
      (OutboxDispatcher.mem_acceptedCalls.mp listed).1
    refine ⟨row, OutboxDispatcher.mem_rows.mpr ?_, message⟩
    rwa [InMemoryOutboxRepository.id_of_get found]
  · have accounted := (OutboxDispatcher.ledger_of_reaches delivering).accounted
      (OutboxDispatcher.consistent_of_reaches single) drained.dispatcher drained.lanes
      (OutboxDispatcher.mem_rows.mp listed)
    rcases accounted.2.status_cases with pending | published | failed
    · exact (drained.rows row listed pending).elim
    · exact .inr (drained.settled reached lease listed published)
    · exact .inl failed

end Runs

/-- Two messages of one lane are published; the first is handled, the second one declined. -/
def handledAndParked : List (Action DispatchChoice OutboxArrival ⊕
    Action ConsumeChoice BrokerArrival) :=
  List.flatten [[.inl (.arrive (.insert (OutboxDispatcher.keyed 1 0 (some "a")))),
      .inl (.arrive (.insert (OutboxDispatcher.keyed 2 0 (some "a")))),
      .inl (.arrive (.dispatch 10 0 [1, 2])), .inl (.arrive .nextLane)],
    List.replicate 4 (.inl (.step 0 {})), [.inr take], List.replicate 3 (.inl (.step 0 {})),
    [.inr take, .inr (.step 1 {}), .inr (.step 0 {}),
      .inr (.step 1 { handled := .error "declined" })],
    List.replicate 3 (.inr (.step 0 {})), List.replicate 4 (.inr (.step 1 {}))]

theorem pipeline_delivers_handledAndParked : ∃ c : PipelinePools,
    (pipeline OutboxDispatcher.twoLanes oneAttempt).Reaches (Piping OutboxDispatcher.twoLanes)
      (pipelineInitial 30 10 0) c ∧
    Drained c ∧ (OutboxDispatcher.rows c.1.shared).length = 2 ∧
    ∀ row ∈ OutboxDispatcher.rows c.1.shared, row.status = .failed ∨
      (∃ entry ∈ c.2.trace, HandledOk row.message.messageId entry.event) ∨
      ∃ dead ∈ c.2.shared.outside.deadLetters.messages, dead.message = row.message := by
  have along : (pipeline OutboxDispatcher.twoLanes oneAttempt).Along
      (Piping OutboxDispatcher.twoLanes) (pipelineInitial 30 10 0) handledAndParked := by
    decide +kernel
  obtain ⟨c, reached, found⟩ := Joint.exists_reaches_of_exec
    (f := fun c : PipelinePools =>
      decide (Drained c ∧ (OutboxDispatcher.rows c.1.shared).length = 2)) along
    (by decide +kernel)
  obtain ⟨drained, two⟩ := of_decide_eq_true found
  exact ⟨c, reached, drained, two, (pipeline_delivers reached (by decide)).2.2.2.2 drained⟩

end Consumer

end Pharos

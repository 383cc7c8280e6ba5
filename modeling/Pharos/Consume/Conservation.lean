import Pharos.Consume.Completed

/-!
# Conservation of deliveries

Consumers of the in-memory broker.  Every copy of a published message is queued, held by
a call that has not returned it, acked or dropped, and always in exactly one of these
places (`Stock`).  With a lease that `chrono` can represent a call ends only by returning
its delivery, so what is held is in flight (`deliveries_conserved`).
-/

namespace Pharos

namespace Consumer

open Async

abbrev BrokerPool := ConsumePool InMemoryOutside

/-- The call has not returned its delivery to the broker. -/
def Holds (t : ConsumeTask) : Prop := ∀ event ∈ t.past, ¬ Settles event.op

instance : DecidablePred Holds := fun t =>
  List.decidableBAll (fun event : ConsumeEvent => ¬ Settles event.op) t.past

/-- The operation acks the copy. -/
def Acks (copy : ℕ) : ConsumeOp → Prop
  | .ack delivery => delivery.copy = copy
  | _ => False

/-- The operation returns the copy without requeueing it. -/
def Drops (copy : ℕ) : ConsumeOp → Prop
  | .nack delivery false => delivery.copy = copy
  | _ => False

/-- The operation returns the copy to its queue. -/
def Requeues (copy : ℕ) : ConsumeOp → Prop
  | .nack delivery true => delivery.copy = copy
  | _ => False

instance (copy : ℕ) : DecidablePred (Acks copy)
  | .ack delivery => inferInstanceAs (Decidable (delivery.copy = copy))
  | .beginProcessing _ _ | .handle _ | .markCompleted _ _ | .markFailed _ _ _ | .decide _ _
  | .deadLetter _ _ _ | .nack _ _ => .isFalse id

instance (copy : ℕ) : DecidablePred (Drops copy)
  | .nack delivery false => inferInstanceAs (Decidable (delivery.copy = copy))
  | .nack _ true | .beginProcessing _ _ | .handle _ | .markCompleted _ _ | .markFailed _ _ _
  | .decide _ _ | .deadLetter _ _ _ | .ack _ => .isFalse id

instance (copy : ℕ) : DecidablePred (Requeues copy)
  | .nack delivery true => inferInstanceAs (Decidable (delivery.copy = copy))
  | .nack _ false | .beginProcessing _ _ | .handle _ | .markCompleted _ _ | .markFailed _ _ _
  | .decide _ _ | .deadLetter _ _ _ | .ack _ => .isFalse id

/-- How often the copy is in a queue. -/
def queued (p : BrokerPool) (copy : ℕ) : ℕ := p.shared.outside.broker.queued copy

/-- How many calls hold the copy. -/
def held (p : BrokerPool) (copy : ℕ) : ℕ :=
  p.tasks.countP fun t => Holds t ∧ t.args.delivery.copy = copy

/-- How many calls on the copy are in flight. -/
def inFlight (p : BrokerPool) (copy : ℕ) : ℕ :=
  p.tasks.countP fun t => ¬ t.Finished ∧ t.args.delivery.copy = copy

/-- How often the copy was acked. -/
def acked (p : BrokerPool) (copy : ℕ) : ℕ :=
  p.trace.countP fun entry => Acks copy entry.event.op

/-- How often the copy was dropped. -/
def dropped (p : BrokerPool) (copy : ℕ) : ℕ :=
  p.trace.countP fun entry => Drops copy entry.event.op

/-- The delivery is a copy of what was published under its number. -/
def Genuine (p : BrokerPool) (delivery : Delivery) : Prop :=
  p.shared.outside.published[delivery.copy]? = some delivery.message

section Stock

variable {retry : RetryPolicy} {s s' : ConsumeShared InMemoryOutside} {p q : BrokerPool}
  {choice : ConsumeChoice} {op : ConsumeOp} {reply : op.Reply} {t : ConsumeTask} {i : ℕ}
  {C : BrokerPool → Action ConsumeChoice BrokerArrival → Prop} {staleAfter : Duration}
  {epoch : Time} {a : Call} {past : List ConsumeEvent}

/-! ## What one operation does to the broker -/

theorem serve_published (served : serve (inMemory retry) s choice op = some (s', reply)) :
    s'.outside.published = s.outside.published := by
  cases op <;> cases served <;> rfl

theorem serve_queued (served : serve (inMemory retry) s choice op = some (s', reply)) (copy : ℕ) :
    s'.outside.broker.queued copy =
      s.outside.broker.queued copy + if Requeues copy op then 1 else 0 := by
  cases op with
  | nack delivery requeue =>
      cases served
      cases requeue with
      | true => exact InMemoryMessageBroker.queued_pushBack _ _ copy
      | false => rfl
  | _ =>
      cases served
      rfl

/-- The queues gain nothing but the delivery that is requeued. -/
theorem mem_queue_of_serve (served : serve (inMemory retry) s choice op = some (s', reply))
    {topic : String} {delivery : Delivery} (member : delivery ∈ s'.outside.broker.queue topic) :
    delivery ∈ s.outside.broker.queue topic ∨
      ∃ returned, op = .nack returned true ∧ topic = returned.message.topic ∧
        delivery = { returned with attempt := returned.attempt + 1 } := by
  cases op with
  | nack returned requeue =>
      cases served
      cases requeue with
      | true =>
          rcases InMemoryMessageBroker.mem_queue_pushBack member with old | ⟨same, rfl⟩
          · exact .inl old
          · exact .inr ⟨returned, rfl, same, rfl⟩
      | false => exact .inl member
  | _ =>
      cases served
      exact .inl member

/-- Everything that can arrive: a publish, or the front of a queue for a new call. -/
theorem arrive_cases {arrival : BrokerArrival} {args : List Call}
    (arrived : (system (inMemory retry)).arrive s arrival = some (s', args)) :
    (∃ message, args = [] ∧ s' = { s with outside := { s.outside with
      broker := s.outside.broker.publish message s.outside.published.length
      published := s.outside.published ++ [message] } }) ∨
    ∃ topic consumer broker delivery, s.outside.broker.next topic = (broker, some delivery) ∧
      args = [⟨consumer, delivery, some retry⟩] ∧
      s' = { s with outside := { s.outside with broker := broker } } := by
  obtain ⟨out, brought, same⟩ := Option.map_eq_some_iff.mp arrived
  cases arrival with
  | publish message =>
      cases brought
      cases same
      exact .inl ⟨message, rfl, rfl⟩
  | next topic consumer =>
      simp only [inMemory] at brought
      split at brought
      · cases brought
      · next broker delivery taken =>
        cases brought
        cases same
        exact .inr ⟨topic, consumer, broker, delivery, taken, rfl, rfl⟩

/-! ## The stock of copies -/

/-- Where the copies are.  Everything queued or in a call was published, and is queued under its
own topic. -/
structure Stock (retry : RetryPolicy) (p : BrokerPool) : Prop where
  conserved : ∀ copy, queued p copy + held p copy + acked p copy + dropped p copy =
    if copy < p.shared.outside.published.length then 1 else 0
  inQueue : ∀ topic, ∀ delivery ∈ p.shared.outside.broker.queue topic,
    Genuine p delivery ∧ delivery.message.topic = topic
  inCall : ∀ t ∈ p.tasks, Genuine p t.args.delivery ∧ t.args.retry = some retry

/-- A call that awaits something has not returned its delivery. -/
theorem Awaits.unsettled (awaits : Awaits a past op) : ∀ event ∈ past, ¬ Settles event.op := by
  induction awaits with
  | begins =>
      intro event member
      cases member
  | duplicate _ | contention _ | handles _ _ _ =>
      intro event member
      rw [List.mem_singleton] at member
      exact member ▸ id
  | succeeds _ _ ih | completes _ _ ih | fails _ _ _ ih | requeues _ _ _ _ ih
  | decides _ _ _ _ _ ih | retries _ _ _ _ ih | givesUp _ _ _ _ ih | drops _ _ _ ih =>
      intro event member
      rcases List.mem_cons.mp member with rfl | old
      · exact id
      · exact ih event old

/-- A delivery is returned in exactly one way. -/
theorem Awaits.returned (awaits : Awaits a past op) (copy : ℕ) :
    (if Acks copy op then 1 else 0) + (if Drops copy op then 1 else 0) +
        (if Requeues copy op then 1 else 0) =
      if Settles op ∧ a.delivery.copy = copy then 1 else 0 := by
  by_cases same : a.delivery.copy = copy
  · cases awaits <;> simp [Acks, Drops, Requeues, Settles, same]
  · cases awaits <;> simp [Acks, Drops, Requeues, Settles, same]

/-! How the counts change -/

theorem acked_advance (p : BrokerPool) (t : ConsumeTask) (event : ConsumeEvent)
    (rest : ConsumeM ProcessResult) (copy : ℕ) : acked (p.advance i t event s' rest) copy =
      acked p copy + if Acks copy event.op then 1 else 0 := by
  unfold acked
  rw [Pool.advance_trace, List.countP_append, List.countP_singleton]
  simp only [decide_eq_true_eq]

theorem dropped_advance (p : BrokerPool) (t : ConsumeTask) (event : ConsumeEvent)
    (rest : ConsumeM ProcessResult) (copy : ℕ) : dropped (p.advance i t event s' rest) copy =
      dropped p copy + if Drops copy event.op then 1 else 0 := by
  unfold dropped
  rw [Pool.advance_trace, List.countP_append, List.countP_singleton]
  simp only [decide_eq_true_eq]

/-- The delivery of a call that acts is held until it is returned. -/
theorem held_advance (found : p.tasks[i]? = some t) (awaits : Awaits t.args t.past op)
    (rest : ConsumeM ProcessResult) (copy : ℕ) :
    held (p.advance i t ⟨choice, op, reply⟩ s' rest) copy +
      (if Settles op ∧ t.args.delivery.copy = copy then 1 else 0) = held p copy := by
  have holds : Holds t := awaits.unsettled
  have holds' : Holds ⟨t.args, ⟨choice, op, reply⟩ :: t.past, rest⟩ ↔ ¬ Settles op :=
    ⟨fun all => all _ List.mem_cons_self, fun unsettled event member => by
      rcases List.mem_cons.mp member with rfl | old
      · exact unsettled
      · exact holds event old⟩
  have exchanged := countP_set_add found ⟨t.args, ⟨choice, op, reply⟩ :: t.past, rest⟩
    fun t => decide (Holds t ∧ t.args.delivery.copy = copy)
  unfold held
  rw [Pool.advance_tasks]
  simp only [decide_eq_true_eq, holds, holds', true_and] at exchanged
  by_cases settles : Settles op
  · simp only [settles, true_and, not_true_eq_false, false_and, if_false] at exchanged ⊢
    exact exchanged
  · simp only [settles, false_and, not_false_eq_true, true_and, if_false] at exchanged ⊢
    exact Nat.add_right_cancel exchanged

theorem held_start (p : BrokerPool) (shared : ConsumeShared InMemoryOutside) (a : Call)
    (copy : ℕ) : held (p.start body shared [a]) copy =
      held p copy + if a.delivery.copy = copy then 1 else 0 := by
  have holds : Holds ⟨a, [], body a⟩ := fun event member => by cases member
  unfold held
  rw [Pool.start_tasks, List.countP_append, List.map_singleton, List.countP_singleton]
  simp only [decide_eq_true_eq, holds, true_and]

theorem Stock.publish (stock : Stock retry p) (message : Message) :
    Stock retry { p with shared := { p.shared with outside := { p.shared.outside with
      broker := p.shared.outside.broker.publish message p.shared.outside.published.length
      published := p.shared.outside.published ++ [message] } } } := by
  have still : ∀ {delivery}, Genuine p delivery →
      (p.shared.outside.published ++ [message])[delivery.copy]? = some delivery.message :=
    fun genuine => by
      rw [List.getElem?_append_left (List.getElem?_eq_some_iff.mp genuine).1]
      exact genuine
  refine ⟨fun copy => ?_, fun topic delivery member => ?_, fun t started => ?_⟩
  · have pushed := InMemoryMessageBroker.queued_pushBack p.shared.outside.broker
      ⟨message, 1, p.shared.outside.published.length⟩ copy
    have before := stock.conserved copy
    change InMemoryMessageBroker.queued (InMemoryMessageBroker.pushBack _ _) copy + held p copy +
      acked p copy + dropped p copy = if copy < List.length (_ ++ [message]) then 1 else 0
    rw [pushed, List.length_append, List.length_singleton]
    unfold queued at before
    simp only at before ⊢
    split_ifs at before ⊢ <;> omega
  · rcases InMemoryMessageBroker.mem_queue_pushBack member with old | ⟨same, rfl⟩
    · exact ⟨still (stock.inQueue topic delivery old).1, (stock.inQueue topic delivery old).2⟩
    · exact ⟨List.getElem?_concat_length, same.symm⟩
  · exact ⟨still (stock.inCall t started).1, (stock.inCall t started).2⟩

theorem Stock.next (stock : Stock retry p) {topic consumer : String}
    {broker : InMemoryMessageBroker} {delivery : Delivery}
    (taken : p.shared.outside.broker.next topic = (broker, some delivery)) :
    Stock retry (p.start body
      { p.shared with outside := { p.shared.outside with broker := broker } }
      [⟨consumer, delivery, some retry⟩]) := by
  have genuine := stock.inQueue topic delivery (InMemoryMessageBroker.mem_queue_of_next taken)
  refine ⟨fun copy => ?_, fun other d member => ?_, fun t started => ?_⟩
  · have popped := InMemoryMessageBroker.queued_next taken copy
    have before := stock.conserved copy
    have started : held (p.start body
        { p.shared with outside := { p.shared.outside with broker := broker } }
        [⟨consumer, delivery, some retry⟩]) copy =
          held p copy + if delivery.copy = copy then 1 else 0 := held_start _ _ _ _
    rw [started]
    change broker.queued copy + _ + acked p copy + dropped p copy =
      if copy < p.shared.outside.published.length then 1 else 0
    unfold queued at before
    omega
  · exact stock.inQueue other d (InMemoryMessageBroker.queue_next_subset taken other member)
  · rcases Pool.mem_start started with old | ⟨a, new, rfl⟩
    · exact stock.inCall t old
    · rw [List.mem_singleton] at new
      subst new
      exact ⟨genuine.1, rfl⟩

theorem Stock.step (stock : Stock retry p) (found : p.tasks[i]? = some t)
    (awaits : Awaits t.args t.past op)
    (served : serve (inMemory retry) p.shared choice op = some (s', reply))
    (rest : ConsumeM ProcessResult) :
    Stock retry (p.advance i t ⟨choice, op, reply⟩ s' rest) := by
  have started := List.mem_of_getElem? found
  have published := serve_published served
  refine ⟨fun copy => ?_, fun topic delivery member => ?_, fun u member => ?_⟩
  · have pushed : queued (p.advance i t ⟨choice, op, reply⟩ s' rest) copy =
        queued p copy + if Requeues copy op then 1 else 0 := serve_queued served copy
    have returned := awaits.returned copy
    have released : held (p.advance i t ⟨choice, op, reply⟩ s' rest) copy +
        _ = held p copy := held_advance found awaits rest copy
    have acks : acked (p.advance i t ⟨choice, op, reply⟩ s' rest) copy =
        acked p copy + if Acks copy op then 1 else 0 := acked_advance _ _ _ _ _
    have drops : dropped (p.advance i t ⟨choice, op, reply⟩ s' rest) copy =
        dropped p copy + if Drops copy op then 1 else 0 := dropped_advance _ _ _ _ _
    have before := stock.conserved copy
    rw [acks, drops, pushed, Pool.advance_shared, published]
    omega
  · rw [Genuine, Pool.advance_shared, published]
    rcases mem_queue_of_serve served member with old | ⟨returned, rfl, rfl, rfl⟩
    · exact stock.inQueue topic delivery old
    · have own : returned = t.args.delivery := by
        generalize t.past = past at awaits
        cases awaits <;> rfl
      subst own
      exact ⟨(stock.inCall t started).1, rfl⟩
  · rw [Genuine, Pool.advance_shared, published]
    rcases List.mem_or_eq_of_mem_set member with old | rfl
    · exact stock.inCall u old
    · exact stock.inCall t started

/-- Every copy is accounted for in every run. -/
theorem stock_of_reaches
    (reached : (system (inMemory retry)).Reaches C (initial staleAfter epoch {}) p) :
    Stock retry p := by
  refine reached.invariant ?_ fun {q r action} before stock _ stepped => ?_
  · exact ⟨fun copy => rfl, fun topic delivery member => (by cases member),
      fun t started => by cases started⟩
  · obtain ⟨arrival, shared, args, rfl, arrived, rfl⟩ |
      ⟨i, choice, t, op, next, shared, reply, rfl, found, rest, served, rfl⟩ :=
      System.step_cases stepped
    · obtain ⟨message, rfl, rfl⟩ | ⟨topic, consumer, broker, delivery, taken, rfl, rfl⟩ :=
        arrive_cases arrived
      · rw [Pool.start_nil]
        exact stock.publish message
      · exact stock.next taken
    · exact stock.step found (awaits_of_reaches before found rest).1 served _

/-! ## How calls end -/

/-- Over the in-memory adapters nothing but a lease out of range makes a call return early. -/
theorem not_aborts (served : serve (inMemory retry) s choice op = some (s', reply))
    (lease : s.inbox.staleAfter ≤ chronoDurationMax) (awaits : Awaits a past op)
    (recorded : past ≠ [] → Recorded s a) : ¬ Aborts op reply := by
  intro aborts
  have step := serve_inbox served
  generalize s'.inbox = inbox' at step
  cases step
  case leaseless id consumer source record error found processing outOfRange =>
      unfold fromStd at outOfRange
      rw [if_pos lease] at outOfRange
      cases outOfRange
  case completesNothing id consumer error absent =>
      cases awaits
      exact recorded (List.cons_ne_nil _ _) absent
  case failsNothing id consumer text error absent =>
      cases awaits
      exact recorded (List.cons_ne_nil _ _) absent
  case foreign other =>
      cases op with
      | deadLetter message reason attempts =>
          cases served
          exact aborts
      | beginProcessing id consumer => exact other trivial
      | markCompleted id consumer => exact other trivial
      | markFailed id consumer error => exact other trivial
      | _ => exact aborts
  all_goals exact aborts

theorem unaborted_of_reaches (lease : staleAfter ≤ chronoDurationMax)
    (reached : (system (inMemory retry)).Reaches C (initial staleAfter epoch {}) p) :
    ∀ t ∈ p.tasks, ∀ event ∈ t.past, ¬ Aborts event.op event.reply := by
  refine reached.forall_tasks (Q := fun _ past => ∀ event ∈ past, ¬ Aborts event.op event.reply)
    rfl (fun a event member => by cases member) ?_
  intro q i t op next choice shared reply before found rest _ served all event member
  rcases List.mem_cons.mp member with rfl | old
  · obtain ⟨awaits, recorded⟩ := awaits_of_reaches before found rest
    exact not_aborts served (staleAfter_of_reaches before ▸ lease) awaits recorded
  · exact all event old

/-- A call holds its delivery exactly as long as it is in flight. -/
theorem holds_iff (lease : staleAfter ≤ chronoDurationMax)
    (reached : (system (inMemory retry)).Reaches C (initial staleAfter epoch {}) p)
    (started : t ∈ p.tasks) : Holds t ↔ ¬ t.Finished := by
  obtain ⟨i, found⟩ := List.mem_iff_getElem?.mp started
  constructor
  · intro holds finished
    obtain ⟨choice, op, reply, before, past, -, settles | aborts⟩ :=
      ended_of_reaches reached found finished
    · exact holds _ (past ▸ List.mem_cons_self) settles
    · exact unaborted_of_reaches lease reached t started _ (past ▸ List.mem_cons_self) aborts
  · intro unfinished
    cases rest : t.rest with
    | ret value =>
        refine (unfinished ?_).elim
        rw [Task.Finished, rest]
        trivial
    | await op next => exact (awaits_of_reaches reached found rest).1.unsettled

theorem held_eq_inFlight (lease : staleAfter ≤ chronoDurationMax)
    (reached : (system (inMemory retry)).Reaches C (initial staleAfter epoch {}) p) (copy : ℕ) :
    held p copy = inFlight p copy := by
  refine List.countP_congr fun t started => ?_
  simp only [decide_eq_true_eq, holds_iff lease reached started]

/-! ## What precedes an ack and a drop -/

/-- An ack comes after some call completed the message for this consumer; a delivery is dropped
after a dead-letter record of it was written. -/
def Justified (earlier : List (ConsumeEntry InMemoryOutside))
    (entry : ConsumeEntry InMemoryOutside) : Prop :=
  match entry.event.op with
  | .ack delivery => ∃ e ∈ earlier,
      Completes delivery.message.messageId entry.args.consumer e.event
  | .nack delivery false => ∃ dead ∈ entry.before.outside.deadLetters.messages,
      dead.message = delivery.message ∧ dead.attempts = delivery.attempt
  | _ => True

/-- The call was told that the message is completed. -/
def ToldCompleted : ConsumeEvent → Prop
  | ⟨_, .beginProcessing _ _, .ok .alreadyCompleted⟩ => True
  | _ => False

/-- The dead-letter queue has a record of the delivery. -/
def Parked (s : ConsumeShared InMemoryOutside) (delivery : Delivery) : Prop :=
  ∃ dead ∈ s.outside.deadLetters.messages,
    dead.message = delivery.message ∧ dead.attempts = delivery.attempt

/-- A `dead_letter` that succeeded. -/
def Parks : ConsumeEvent → Prop
  | ⟨_, .deadLetter _ _ _, .ok _⟩ => True
  | _ => False

/-- Only `mark_completed` completes a record. -/
theorem completes_of_completed {β κ : Type} {adapters : Adapters β κ} {s s' : ConsumeShared β}
    (served : serve adapters s choice op = some (s', reply)) {id : Uuid} {consumer : String}
    (completed : Completed s' id consumer) :
    Completed s id consumer ∨ Completes id consumer ⟨choice, op, reply⟩ := by
  obtain ⟨record, found, status⟩ := completed
  rcases (serve_inbox served).get id consumer with same | ⟨-, written⟩ |
    ⟨record', -, ⟨processing, -, -, written⟩ | ⟨completes, -⟩ | ⟨error, -, written⟩⟩
  · exact .inl ⟨record, same.symm.trans found, status⟩
  · cases found.symm.trans written
    cases status
  · cases found.symm.trans written
    cases processing.symm.trans status
  · exact .inr completes
  · cases found.symm.trans written
    cases status

/-- A call that is about to ack was told of a completion or made one. -/
theorem Awaits.of_ack {delivery : Delivery} (awaits : Awaits a past (.ack delivery)) :
    delivery = a.delivery ∧ ((∃ event ∈ past, ToldCompleted event) ∨
      ∃ event ∈ past, Completes a.messageId a.consumer event) := by
  cases awaits with
  | duplicate choice => exact ⟨rfl, .inl ⟨_, List.mem_cons_self, trivial⟩⟩
  | completes choice before => exact ⟨rfl, .inr ⟨_, List.mem_cons_self, rfl, rfl⟩⟩

/-- A call that is about to drop its delivery has written a dead-letter record. -/
theorem Awaits.of_drop {delivery : Delivery} (awaits : Awaits a past (.nack delivery false)) :
    delivery = a.delivery ∧ ∃ event ∈ past, Parks event := by
  cases awaits with
  | drops choice error before => exact ⟨rfl, _, List.mem_cons_self, trivial⟩

theorem completed_of_told (served : serve (inMemory retry) s choice op = some (s', reply))
    (awaits : Awaits a past op) (told : ToldCompleted ⟨choice, op, reply⟩) :
    Completed s a.messageId a.consumer := by
  have step := serve_inbox served
  generalize s'.inbox = inbox' at step
  cases step
  case completed id consumer record found completed =>
      cases awaits
      exact ⟨record, found, completed⟩
  case foreign other =>
      cases op with
      | beginProcessing id consumer => exact (other trivial).elim
      | _ => exact told.elim
  all_goals exact told.elim

theorem Parked.serve {delivery : Delivery} (parked : Parked s delivery)
    (served : serve (inMemory retry) s choice op = some (s', reply)) : Parked s' delivery := by
  obtain ⟨dead, member, same⟩ := parked
  cases op with
  | deadLetter message reason attempts =>
      cases served
      exact ⟨dead, List.mem_append_left _ member, same⟩
  | _ =>
      cases served
      exact ⟨dead, member, same⟩

theorem parked_of_parks (served : serve (inMemory retry) s choice op = some (s', reply))
    (awaits : Awaits a past op) (parks : Parks ⟨choice, op, reply⟩) : Parked s' a.delivery := by
  cases op with
  | deadLetter message reason attempts =>
      cases awaits
      cases served
      exact ⟨_, List.mem_append_right _ (List.mem_singleton_self _), rfl, rfl⟩
  | _ => exact parks.elim

/-- What the calls rely on when they return their deliveries. -/
structure Settled (p : BrokerPool) : Prop where
  justified : Throughout Justified p.trace
  completed : ∀ id consumer, Completed p.shared id consumer →
    ∃ entry ∈ p.trace, Completes id consumer entry.event
  told : ∀ t ∈ p.tasks, ∀ event ∈ t.past, ToldCompleted event →
    ∃ entry ∈ p.trace, Completes t.args.messageId t.args.consumer entry.event
  parked : ∀ t ∈ p.tasks, ∀ event ∈ t.past, Parks event → Parked p.shared t.args.delivery

theorem Settled.justify (settled : Settled p)
    (before : (system (inMemory retry)).Reaches C (initial staleAfter epoch {}) p)
    (found : p.tasks[i]? = some t) (awaits : Awaits t.args t.past op) :
    Justified p.trace ⟨i, t.args, t.past, p.shared, ⟨choice, op, reply⟩⟩ := by
  have started := List.mem_of_getElem? found
  cases op with
  | ack delivery =>
      obtain ⟨rfl, ⟨event, member, told⟩ | ⟨event, member, completes⟩⟩ := awaits.of_ack
      · exact settled.told t started event member told
      · obtain ⟨entry, inTrace, -, -, rfl⟩ := before.mem_trace rfl rfl found member
        exact ⟨entry, inTrace, completes⟩
  | nack delivery requeue =>
      cases requeue with
      | true => trivial
      | false =>
          obtain ⟨rfl, event, member, parks⟩ := awaits.of_drop
          exact settled.parked t started event member parks
  | _ => trivial

theorem Settled.step (settled : Settled p)
    (before : (system (inMemory retry)).Reaches C (initial staleAfter epoch {}) p)
    (found : p.tasks[i]? = some t) (awaits : Awaits t.args t.past op)
    (served : serve (inMemory retry) p.shared choice op = some (s', reply))
    (rest : ConsumeM ProcessResult) : Settled (p.advance i t ⟨choice, op, reply⟩ s' rest) := by
  have started := List.mem_of_getElem? found
  have grown : ∀ {id consumer}, (∃ entry ∈ p.trace, Completes id consumer entry.event) →
      ∃ entry ∈ (p.advance i t ⟨choice, op, reply⟩ s' rest).trace,
        Completes id consumer entry.event := by
    rintro id consumer ⟨entry, member, completes⟩
    exact ⟨entry, List.mem_append_left _ member, completes⟩
  refine ⟨settled.justified.concat (settled.justify before found awaits), ?_, ?_, ?_⟩
  · intro id consumer completed
    rcases completes_of_completed served completed with old | completes
    · exact grown (settled.completed id consumer old)
    · exact ⟨_, List.mem_append_right _ (List.mem_singleton_self _), completes⟩
  · intro u member event inPast told
    rcases List.mem_or_eq_of_mem_set member with old | rfl
    · exact grown (settled.told u old event inPast told)
    · rcases List.mem_cons.mp inPast with rfl | earlier
      · exact grown (settled.completed _ _ (completed_of_told served awaits told))
      · exact grown (settled.told t started event earlier told)
  · intro u member event inPast parks
    rcases List.mem_or_eq_of_mem_set member with old | rfl
    · exact (settled.parked u old event inPast parks).serve served
    · rcases List.mem_cons.mp inPast with rfl | earlier
      · exact parked_of_parks served awaits parks
      · exact (settled.parked t started event earlier parks).serve served

theorem settled_of_reaches
    (reached : (system (inMemory retry)).Reaches C (initial staleAfter epoch {}) p) :
    Settled p := by
  refine reached.invariant ?_ fun {q r action} before settled _ stepped => ?_
  · exact ⟨throughout_nil _, fun id consumer ⟨record, found, _⟩ => (by cases found),
      fun t started => (by cases started), fun t started => by cases started⟩
  · obtain ⟨arrival, shared, args, rfl, arrived, rfl⟩ |
      ⟨i, choice, t, op, next, shared, reply, rfl, found, rest, served, rfl⟩ :=
      System.step_cases stepped
    · obtain ⟨message, rfl, rfl⟩ | ⟨topic, consumer, broker, delivery, -, rfl, rfl⟩ :=
        arrive_cases arrived
      · rw [Pool.start_nil]
        exact ⟨settled.justified, settled.completed, settled.told, settled.parked⟩
      · refine ⟨settled.justified, settled.completed, fun u started event inPast => ?_,
          fun u started event inPast => ?_⟩
        · rcases Pool.mem_start started with old | ⟨a, -, rfl⟩
          · exact settled.told u old event inPast
          · cases inPast
        · rcases Pool.mem_start started with old | ⟨a, -, rfl⟩
          · exact settled.parked u old event inPast
          · cases inPast
    · exact settled.step before found (awaits_of_reaches before found rest).1 served _

/-- Consumer-side conservation, for every interleaving of consumers, publishes and handler
outcomes, under a lease in range: every published copy is at every moment in exactly one place:
queued, held by one call in flight, acked, or dropped; what is queued stands under its own topic
and what is queued or in a call is the message that was published; a copy is acked only after
some call completed the message for that consumer, and dropped only after its dead-letter record
was written. -/
theorem deliveries_conserved (lease : staleAfter ≤ chronoDurationMax)
    (reached : (system (inMemory retry)).Reaches System.Any (initial staleAfter epoch {}) p) :
    (∀ copy, queued p copy + inFlight p copy + acked p copy + dropped p copy =
      if copy < p.shared.outside.published.length then 1 else 0) ∧
    (∀ topic, ∀ delivery ∈ p.shared.outside.broker.queue topic,
      Genuine p delivery ∧ delivery.message.topic = topic) ∧
    (∀ t ∈ p.tasks, Genuine p t.args.delivery) ∧
    Throughout Justified p.trace := by
  have stock := stock_of_reaches reached
  refine ⟨fun copy => ?_, stock.inQueue, fun t started => (stock.inCall t started).1,
    (settled_of_reaches reached).justified⟩
  rw [← held_eq_inFlight lease reached copy]
  exact stock.conserved copy

end Stock

/-- A single attempt. -/
def oneAttempt : RetryPolicy := { maxAttempts := 1, backoff := .fixed 1000000000 }

/-- Copy 0 fails and is dead-lettered, copy 1 is processed, copy 2 is in flight, copy 3 queued. -/
def fourCopies : List (Action ConsumeChoice BrokerArrival) :=
  [.arrive (.publish (order 1)), .arrive (.publish (order 2)), .arrive (.publish (order 3)),
    .arrive (.publish (order 4)), take, take, take, .step 0 {}, .step 1 {}, .step 2 {},
    .step 0 { handled := .error "declined" }, .step 1 {}, .step 0 {}, .step 1 {}, .step 0 {},
    .step 1 {}, .step 0 {}, .step 0 {}]

theorem deliveries_conserved_fourCopies : ∃ p : BrokerPool,
    (system (inMemory oneAttempt)).Reaches System.Any (initial 10 0 {}) p ∧
    dropped p 0 = 1 ∧ acked p 1 = 1 ∧ queued p 2 = 0 ∧ queued p 3 = 1 ∧
    queued p 2 + inFlight p 2 + acked p 2 + dropped p 2 = 1 := by
  have run : (((system (inMemory oneAttempt)).exec (initial 10 0 {}) fourCopies).any fun p =>
      decide (dropped p 0 = 1 ∧ acked p 1 = 1 ∧ queued p 2 = 0 ∧ queued p 3 = 1 ∧
        p.shared.outside.published.length = 4)) = true := by
    decide +kernel
  obtain ⟨p, reached, found⟩ := System.exists_reaches_of_exec
    (C := System.Any) (System.along_any _ _ _) run
  obtain ⟨drop, ack, taken, waits, four⟩ := of_decide_eq_true found
  have conserved := (deliveries_conserved (by decide) reached).1 2
  rw [four] at conserved
  exact ⟨p, reached, drop, ack, taken, waits, conserved⟩

end Consumer

end Pharos

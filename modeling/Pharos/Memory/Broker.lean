import Pharos.Messaging.Inbox
import Pharos.Memory.DashMap

/-!
# The in-memory broker and dead-letter queue

`pharos-memory/src/in_memory_messaging.rs` and `in_memory_dead_letter.rs`.  A topic's
queue is created on first use and never removed, so finding it and locking it is one
atomic step with the push or the pop that follows.

`publish` numbers the copies it queues; see `Delivery.copy`.
-/

namespace Pharos

/-- In-memory broker: the queue of each topic, and the last delivery of each message that was
acked or nacked. -/
structure InMemoryMessageBroker where
  topics : DashMap String (List Delivery) := ∅
  acked : DashMap Uuid Delivery := ∅
  nacked : DashMap Uuid Delivery := ∅

namespace InMemoryMessageBroker

/-- The queue of a topic; an absent one is empty. -/
def queue (broker : InMemoryMessageBroker) (topic : String) : List Delivery :=
  (broker.topics.get topic).getD []

/-- `push_back` on the queue of the delivery's topic. -/
def pushBack (broker : InMemoryMessageBroker) (delivery : Delivery) : InMemoryMessageBroker :=
  let topic := delivery.message.topic
  { broker with topics := broker.topics.put topic (broker.queue topic ++ [delivery]) }

/-- `publish`: a first-attempt delivery of the message, as copy number `copy`. -/
def publish (broker : InMemoryMessageBroker) (message : Message) (copy : ℕ) :
    InMemoryMessageBroker :=
  broker.pushBack ⟨message, 1, copy⟩

/-- `next`: the front of the topic's queue. -/
def next (broker : InMemoryMessageBroker) (topic : String) :
    InMemoryMessageBroker × Option Delivery :=
  match broker.topics.get topic with
  | none => (broker, none)
  | some [] => (broker, none)
  | some (delivery :: rest) =>
      ({ broker with topics := broker.topics.put topic rest }, some delivery)

/-- `ack`. -/
def ack (broker : InMemoryMessageBroker) (delivery : Delivery) :
    InMemoryMessageBroker × Except MessagingError Unit :=
  ({ broker with acked := broker.acked.put delivery.message.messageId delivery }, .ok ())

/-- `nack`: with `requeue` the delivery goes back to its queue as the next attempt. -/
def nack (broker : InMemoryMessageBroker) (delivery : Delivery) (requeue : Bool) :
    InMemoryMessageBroker × Except MessagingError Unit :=
  let broker :=
    { broker with nacked := broker.nacked.put delivery.message.messageId delivery }
  if requeue then
    (broker.pushBack { delivery with attempt := delivery.attempt + 1 }, .ok ())
  else (broker, .ok ())

variable {broker broker' : InMemoryMessageBroker} {delivery : Delivery} {topic : String}

theorem queue_pushBack (broker : InMemoryMessageBroker) (delivery : Delivery) (topic : String) :
    (broker.pushBack delivery).queue topic =
      if topic = delivery.message.topic then broker.queue topic ++ [delivery]
      else broker.queue topic := by
  unfold queue pushBack
  simp only [DashMap.get_put]
  split
  · next same =>
    rw [same]
    rfl
  · rfl

theorem mem_queue_pushBack {pushed : Delivery}
    (member : delivery ∈ (broker.pushBack pushed).queue topic) :
    delivery ∈ broker.queue topic ∨ (topic = pushed.message.topic ∧ delivery = pushed) := by
  rw [queue_pushBack] at member
  split at member
  · next same =>
    rcases List.mem_append.mp member with old | new
    · exact .inl old
    · exact .inr ⟨same, List.mem_singleton.mp new⟩
  · exact .inl member

/-- `next` takes the front of the topic's queue and leaves the other queues. -/
theorem queue_next (taken : broker.next topic = (broker', some delivery)) :
    broker.queue topic = delivery :: broker'.queue topic ∧
      ∀ other, other ≠ topic → broker'.queue other = broker.queue other := by
  unfold next at taken
  split at taken
  · cases taken
  · cases taken
  · next rest found =>
    cases taken
    refine ⟨?_, fun other distinct => ?_⟩
    · simp only [queue, found, Option.getD_some, DashMap.get_put_self]
    · simp only [queue, DashMap.get_put_of_ne distinct]

theorem mem_queue_of_next (taken : broker.next topic = (broker', some delivery)) :
    delivery ∈ broker.queue topic :=
  (queue_next taken).1 ▸ List.mem_cons_self

/-- `next` adds nothing to the queues. -/
theorem queue_next_subset (taken : broker.next topic = (broker', some delivery))
    (other : String) : broker'.queue other ⊆ broker.queue other := by
  obtain ⟨front, rest⟩ := queue_next taken
  by_cases same : other = topic
  · rw [same, front]
    exact List.subset_cons_self _ _
  · rw [rest other same]
    exact List.Subset.refl _

/-- How often the queues hold a copy. -/
def queued (broker : InMemoryMessageBroker) (copy : ℕ) : ℕ :=
  broker.topics.total fun queue => queue.countP fun delivery => delivery.copy = copy

theorem queued_pos (member : delivery ∈ broker.queue topic) : 0 < broker.queued delivery.copy := by
  unfold queue at member
  cases found : broker.topics.get topic with
  | none =>
      rw [found] at member
      cases member
  | some queue =>
      rw [found] at member
      refine lt_of_lt_of_le ?_ (DashMap.le_total _ found)
      exact List.countP_pos_iff.mpr ⟨delivery, member, decide_eq_true rfl⟩

theorem queued_pushBack (broker : InMemoryMessageBroker) (delivery : Delivery) (copy : ℕ) :
    (broker.pushBack delivery).queued copy =
      broker.queued copy + if delivery.copy = copy then 1 else 0 := by
  have exchanged := DashMap.total_put broker.topics delivery.message.topic
    (broker.queue delivery.message.topic ++ [delivery])
    fun queue => queue.countP fun delivery => delivery.copy = copy
  unfold queue at exchanged
  unfold queued pushBack queue
  cases found : broker.topics.get delivery.message.topic with
  | none =>
      rw [found] at exchanged
      simpa [List.countP_cons, found] using exchanged
  | some queue =>
      simp only [found, Option.elim_some, Option.getD_some, List.countP_append, List.countP_cons,
        List.countP_nil, decide_eq_true_eq] at exchanged ⊢
      omega

theorem queued_next (taken : broker.next topic = (broker', some delivery)) (copy : ℕ) :
    broker.queued copy = broker'.queued copy + if delivery.copy = copy then 1 else 0 := by
  unfold next at taken
  split at taken
  · cases taken
  · cases taken
  · next rest found =>
    cases taken
    have exchanged := DashMap.total_put broker.topics topic rest
      fun queue => queue.countP fun delivery => delivery.copy = copy
    rw [found] at exchanged
    simp only [Option.elim_some, List.countP_cons, decide_eq_true_eq] at exchanged
    unfold queued
    simp only
    omega

end InMemoryMessageBroker

/-- In-memory dead-letter queue. -/
structure InMemoryDeadLetterQueue where
  messages : List DeadLetterMessage := []

/-- `dead_letter`. -/
def InMemoryDeadLetterQueue.deadLetter (queue : InMemoryDeadLetterQueue)
    (message : DeadLetterMessage) : InMemoryDeadLetterQueue × Except DeadLetterError Unit :=
  (⟨queue.messages ++ [message]⟩, .ok ())

end Pharos

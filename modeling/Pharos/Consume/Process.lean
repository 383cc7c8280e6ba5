import Pharos.Async.Pool
import Pharos.Memory.Inbox
import Pharos.Memory.Broker

/-!
# The idempotent consumer

`pharos-messaging/src/consume.rs`.  Both process functions share everything up to a
recorded handler failure (`processThen`); they differ in what happens to the delivery
then.  Of the handler's error only the text is kept.

A call runs over an `InMemoryInboxStore`, a `MessageAcknowledger` and a
`DeadLetterQueue`.  The latter two are any `Adapters`; `inMemory` are the in-memory
broker and dead-letter queue, from which consumers take deliveries with `next`.
`clock` is the latest reading of the clock so far; no operation reads it.
-/

namespace Pharos

open Async

/-- Outcome of one process call. -/
inductive ProcessOutcome where
  | processed
  | skippedDuplicate
  | stillProcessing
  | deadLettered
  deriving DecidableEq

/-- Error produced by the idempotent-consumer flow, or by its handler. -/
inductive ProcessError where
  | inbox (error : InboxError)
  | messaging (error : MessagingError)
  | deadLetter (source : DeadLetterError) (handlerError : String)
  | handler (error : String)
  deriving DecidableEq

/-- What a call awaits; `handle` is the handler. -/
inductive ConsumeOp where
  | beginProcessing (messageId : Uuid) (consumer : String)
  | handle (delivery : Delivery)
  | markCompleted (messageId : Uuid) (consumer : String)
  | markFailed (messageId : Uuid) (consumer error : String)
  | decide (retry : RetryPolicy) (attempt : ℕ)
  | deadLetter (message : Message) (reason : String) (attempts : ℕ)
  | ack (delivery : Delivery)
  | nack (delivery : Delivery) (requeue : Bool)
  deriving DecidableEq

/-- The replies of the operations of a call. -/
abbrev ConsumeOp.Reply : ConsumeOp → Type
  | .beginProcessing _ _ => Except InboxError IdempotencyDecision
  | .handle _ => Except String Unit
  | .markCompleted _ _ | .markFailed _ _ _ => Except InboxError Unit
  | .decide _ _ => RetryDecision
  | .deadLetter _ _ _ => Except DeadLetterError Unit
  | .ack _ | .nack _ _ => Except MessagingError Unit

abbrev consumeSignature : Signature where
  Op := ConsumeOp
  Reply := ConsumeOp.Reply

namespace Consumer

abbrev ConsumeM (α : Type) := Program consumeSignature α

abbrev ProcessResult := Except ProcessError ProcessOutcome

/-- One awaited operation of a call. -/
abbrev await (op : ConsumeOp) : ConsumeM op.Reply := Program.call (S := consumeSignature) op

/-- Ack the delivery, then return. -/
def ackThen (delivery : Delivery) (result : ProcessResult) : ConsumeM ProcessResult := do
  match ← await (.ack delivery) with
  | .error error => pure (.error (.messaging error))
  | .ok () => pure result

/-- Nack the delivery, then return. -/
def nackThen (delivery : Delivery) (requeue : Bool) (result : ProcessResult) :
    ConsumeM ProcessResult := do
  match ← await (.nack delivery requeue) with
  | .error error => pure (.error (.messaging error))
  | .ok () => pure result

/-- From the handler on; `failed` follows a recorded handler failure. -/
def handleThen (consumer : String) (delivery : Delivery)
    (failed : String → ConsumeM ProcessResult) : ConsumeM ProcessResult := do
  let messageId := delivery.message.messageId
  match ← await (.handle delivery) with
  | .ok () =>
    match ← await (.markCompleted messageId consumer) with
    | .error error => pure (.error (.inbox error))
    | .ok () => ackThen delivery (.ok .processed)
  | .error error =>
    match ← await (.markFailed messageId consumer error) with
    | .error markError => pure (.error (.inbox markError))
    | .ok () => failed error

/-- The flow of both process functions. -/
def processThen (consumer : String) (delivery : Delivery)
    (failed : String → ConsumeM ProcessResult) : ConsumeM ProcessResult := do
  match ← await (.beginProcessing delivery.message.messageId consumer) with
  | .error error => pure (.error (.inbox error))
  | .ok .alreadyCompleted => ackThen delivery (.ok .skippedDuplicate)
  -- another consumer holds the lease: the delivery goes back to the broker
  | .ok .alreadyProcessing => nackThen delivery true (.ok .stillProcessing)
  | .ok .startProcessing | .ok .retryPreviousFailure => handleThen consumer delivery failed

/-- `process_idempotent`: every failure is requeued. -/
def processIdempotent (consumer : String) (delivery : Delivery) : ConsumeM ProcessResult :=
  processThen consumer delivery fun error => nackThen delivery true (.error (.handler error))

/-- `process_idempotent_with_retry`: dead-letters once `retry` says to stop. -/
def processIdempotentWithRetry (consumer : String) (delivery : Delivery) (retry : RetryPolicy) :
    ConsumeM ProcessResult :=
  processThen consumer delivery fun error => do
    match ← await (.decide retry delivery.attempt) with
    | .retryAfter _ => nackThen delivery true (.error (.handler error))
    | .deadLetter =>
      match ← await (.deadLetter delivery.message error delivery.attempt) with
      | .error source => pure (.error (.deadLetter source error))
      | .ok () => nackThen delivery false (.error (.handler error))

/-! ## Calls over shared state -/

/-- One call of a process function; `retry` is absent for `process_idempotent`. -/
structure Call where
  consumer : String
  delivery : Delivery
  retry : Option RetryPolicy

/-- The message the call is about. -/
abbrev Call.messageId (a : Call) : Uuid := a.delivery.message.messageId

def body (a : Call) : ConsumeM ProcessResult :=
  match a.retry with
  | none => processIdempotent a.consumer a.delivery
  | some retry => processIdempotentWithRetry a.consumer a.delivery retry

/-- A `MessageAcknowledger` and a `DeadLetterQueue` over the state `β`, and what else happens
to that state: an event `κ` from outside may bring about calls. -/
structure Adapters (β κ : Type) where
  ack : β → Delivery → β × Except MessagingError Unit
  nack : β → Delivery → Bool → β × Except MessagingError Unit
  deadLetter : β → DeadLetterMessage → β × Except DeadLetterError Unit
  arrive : β → κ → Option (β × List Call)

/-- The inbox, the latest reading of the clock, and the state of the adapters. -/
structure ConsumeShared (β : Type) where
  inbox : InMemoryInboxStore
  clock : Time
  outside : β

/-- What the environment decides about one operation: the clock as a lease check reads it and
as it is written, the handler, the jitter, the id of a dead-letter record. -/
structure ConsumeChoice where
  read : Time := 0
  now : Time := 0
  handled : Except String Unit := .ok ()
  drawn : Duration := 0
  id : Uuid := 0

section System

variable {β κ : Type} (adapters : Adapters β κ)

/-- The effect of one operation. -/
def serve (s : ConsumeShared β) (choice : ConsumeChoice) :
    (op : ConsumeOp) → Option (ConsumeShared β × op.Reply)
  | .beginProcessing messageId consumer =>
      let out := s.inbox.beginProcessing messageId consumer choice.read choice.now
      some ({ s with inbox := out.1, clock := max s.clock (max choice.read choice.now) }, out.2)
  | .handle _ => some (s, choice.handled)
  | .markCompleted messageId consumer =>
      let out := s.inbox.markCompleted messageId consumer choice.now
      some ({ s with inbox := out.1, clock := max s.clock choice.now }, out.2)
  | .markFailed messageId consumer error =>
      let out := s.inbox.markFailed messageId consumer error choice.now
      some ({ s with inbox := out.1, clock := max s.clock choice.now }, out.2)
  | .decide retry attempt => some (s, retry.decide attempt choice.drawn)
  | .deadLetter message reason attempts =>
      let out := adapters.deadLetter s.outside (.new choice.id choice.now message reason attempts)
      some ({ s with outside := out.1 }, out.2)
  | .ack delivery =>
      let out := adapters.ack s.outside delivery
      some ({ s with outside := out.1 }, out.2)
  | .nack delivery requeue =>
      let out := adapters.nack s.outside delivery requeue
      some ({ s with outside := out.1 }, out.2)

/-- What arrives at the adapters, and the calls it brings about. -/
def arrive (s : ConsumeShared β) (event : κ) : Option (ConsumeShared β × List Call) :=
  (adapters.arrive s.outside event).map fun out => ({ s with outside := out.1 }, out.2)

/-- The calls of any number of consumers. -/
def system :
    System consumeSignature (ConsumeShared β) ConsumeChoice κ Call ProcessResult where
  serve := serve adapters
  arrive := arrive adapters
  body := body

end System

abbrev ConsumePool (β : Type) :=
  Pool consumeSignature (ConsumeShared β) ConsumeChoice Call ProcessResult

abbrev ConsumeTask := Task consumeSignature ConsumeChoice Call ProcessResult

abbrev ConsumeEvent := Event consumeSignature ConsumeChoice

abbrev ConsumeEntry (β : Type) := Entry consumeSignature (ConsumeShared β) ConsumeChoice Call

/-- An empty inbox with a lease, before any call. -/
def initial {β : Type} (staleAfter : Duration) (epoch : Time) (outside : β) : ConsumePool β where
  shared := { inbox := .new staleAfter, clock := epoch, outside := outside }

/-! ## In-memory adapters -/

/-- The broker, the dead-letter queue, and every message that was published, in order; the
position of a publish is the number of its copy. -/
structure InMemoryOutside where
  broker : InMemoryMessageBroker := {}
  deadLetters : InMemoryDeadLetterQueue := {}
  published : List Message := []

/-- What reaches the broker from outside: a publish, and a consumer's `next` that finds a
delivery and is followed by a call. -/
inductive BrokerArrival where
  | publish (message : Message)
  | next (topic consumer : String)

/-- The in-memory broker and dead-letter queue; every call is made with the policy `retry`. -/
def inMemory (retry : RetryPolicy) : Adapters InMemoryOutside BrokerArrival where
  ack s delivery :=
    let out := s.broker.ack delivery
    ({ s with broker := out.1 }, out.2)
  nack s delivery requeue :=
    let out := s.broker.nack delivery requeue
    ({ s with broker := out.1 }, out.2)
  deadLetter s message :=
    let out := s.deadLetters.deadLetter message
    ({ s with deadLetters := out.1 }, out.2)
  arrive s
    | .publish message => some ({ s with
        broker := s.broker.publish message s.published.length
        published := s.published ++ [message] }, [])
    | .next topic consumer =>
        match s.broker.next topic with
        | (_, none) => none
        | (broker, some delivery) =>
            some ({ s with broker := broker }, [⟨consumer, delivery, some retry⟩])

end Consumer

end Pharos

import Pharos.Clock

/-!
# Broker messages and the retry policy

`pharos-messaging/src/messaging.rs`.  Headers keep the key order of the source's
`BTreeMap`.  `Delivery.copy` is the only field that is not in the source: it
numbers the published copies of messages for the specifications, is set once by
`publish`, copied with the delivery, and read by no operation.
-/

namespace Pharos

/-- Broker message representation used by publisher and consumer adapters. -/
structure Message where
  messageId : Uuid
  topic : String
  key : Option String := none
  headers : List (String × String) := []
  payload : List UInt8 := []
  contentType : String := "application/json"
  deriving DecidableEq

/-- `BTreeMap::insert` on the headers. -/
def insertHeader (key value : String) : List (String × String) → List (String × String)
  | [] => [(key, value)]
  | header :: headers =>
      if key < header.1 then (key, value) :: header :: headers
      else if key = header.1 then (key, value) :: headers
      else header :: insertHeader key value headers

namespace Message

/-- `Message::new`, with the id `Uuid::now_v7` drew. -/
def new (id : Uuid) (topic : String) (payload : List UInt8) (contentType : String) : Message where
  messageId := id
  topic := topic
  payload := payload
  contentType := contentType

/-- Sets the routing key. -/
def withKey (message : Message) (key : String) : Message := { message with key := some key }

/-- Adds a header. -/
def withHeader (message : Message) (key value : String) : Message :=
  { message with headers := insertHeader key value message.headers }

end Message

/-- Message delivered to a consumer. -/
structure Delivery where
  message : Message
  attempt : ℕ
  copy : ℕ
  deriving DecidableEq

/-- Error returned by messaging adapters, with the text of its source. -/
inductive MessagingError where
  | publish (source : String)
  | consume (source : String)
  | ack (source : String)
  | nack (source : String)
  | publishPoisoned (source : String)
  deriving DecidableEq

/-- Whether a failure may pass by itself. -/
inductive FailureKind where
  | transient
  | poison
  deriving DecidableEq

namespace MessagingError

def failureKind : MessagingError → FailureKind
  | .publishPoisoned _ => .poison
  | _ => .transient

/-- The `Display` text. -/
def toText : MessagingError → String
  | .publish source => "publish failed: " ++ source
  | .consume source => "consume failed: " ++ source
  | .ack source => "ack failed: " ++ source
  | .nack source => "nack failed: " ++ source
  | .publishPoisoned source => "publish rejected (poisoned message): " ++ source

end MessagingError

/-- Decision produced by a retry policy. -/
inductive RetryDecision where
  | retryAfter (delay : Duration)
  | deadLetter
  deriving DecidableEq

/-- Strategy used to compute the delay between retry attempts.  The exponential
strategy computes in floating point and scales by a random factor; its parameters
are not modelled and its delay is whatever was drawn. -/
inductive BackoffStrategy where
  | fixed (delay : Duration)
  | exponential
  deriving DecidableEq

/-- The delay before the next retry; `drawn` is what the exponential strategy came up with. -/
def BackoffStrategy.delayFor (strategy : BackoffStrategy) (drawn : Duration) : Duration :=
  match strategy with
  | .fixed delay => delay
  | .exponential => drawn

/-- Bounded retry policy with a configurable backoff strategy. -/
structure RetryPolicy where
  maxAttempts : ℕ
  backoff : BackoffStrategy
  deriving DecidableEq

namespace RetryPolicy

/-- Whether the next attempt is retried or dead-lettered, on the attempt count alone. -/
def decide (policy : RetryPolicy) (attempt : ℕ) (drawn : Duration) : RetryDecision :=
  if attempt < policy.maxAttempts then .retryAfter (policy.backoff.delayFor drawn)
  else .deadLetter

/-- Like `decide`, but a poisoned message is dead-lettered at once. -/
def decideFor (policy : RetryPolicy) (attempt : ℕ) (failure : FailureKind) (drawn : Duration) :
    RetryDecision :=
  match failure with
  | .poison => .deadLetter
  | .transient => policy.decide attempt drawn

/-- The number of attempts the policy grants: the first delivery is always made. -/
def budget (policy : RetryPolicy) : ℕ := max 1 policy.maxAttempts

theorem decide_eq_deadLetter {policy : RetryPolicy} {attempt : ℕ} {drawn : Duration} :
    policy.decide attempt drawn = .deadLetter ↔ policy.maxAttempts ≤ attempt := by
  unfold decide
  split <;> simp_all

end RetryPolicy

end Pharos

import Pharos.Messaging.Message

/-!
# Inbox and dead-letter records

`pharos-messaging/src/inbox.rs` and `pharos-messaging/src/dead_letter.rs`: what an
idempotent consumer stores about the messages it received and about those it gave up.
-/

namespace Pharos

/-- Processing status for an inbox record. -/
inductive InboxStatus where
  | processing
  | completed
  | failed
  deriving DecidableEq

/-- Inbox record used to implement idempotent consumers. -/
structure InboxMessage where
  messageId : Uuid
  consumer : String
  status : InboxStatus
  receivedAt : Time
  updatedAt : Time
  lastError : Option String
  deriving DecidableEq

namespace InboxMessage

/-- Creates a processing inbox record at the instant `Utc::now` read. -/
def processing (messageId : Uuid) (consumer : String) (now : Time) : InboxMessage where
  messageId := messageId
  consumer := consumer
  status := .processing
  receivedAt := now
  updatedAt := now
  lastError := none

def markCompleted (record : InboxMessage) (now : Time) : InboxMessage :=
  { record with status := .completed, updatedAt := now, lastError := none }

def markFailed (record : InboxMessage) (now : Time) (error : String) : InboxMessage :=
  { record with status := .failed, updatedAt := now, lastError := some error }

end InboxMessage

/-- Result of trying to start idempotent processing. -/
inductive IdempotencyDecision where
  | startProcessing
  | alreadyProcessing
  | alreadyCompleted
  | retryPreviousFailure
  deriving DecidableEq

/-- Errors produced by inbox stores. -/
inductive InboxError where
  | notFound (messageId : Uuid) (consumer : String)
  | storage (source : String)
  deriving DecidableEq

/-- Message moved to a dead-letter path after processing or publishing failures. -/
structure DeadLetterMessage where
  id : Uuid
  message : Message
  reason : String
  attempts : ℕ
  deadLetteredAt : Time
  deriving DecidableEq

/-- `DeadLetterMessage::new`, with the id `Uuid::now_v7` drew and the instant `Utc::now` read. -/
def DeadLetterMessage.new (id : Uuid) (now : Time) (message : Message) (reason : String)
    (attempts : ℕ) : DeadLetterMessage where
  id := id
  message := message
  reason := reason
  attempts := attempts
  deadLetteredAt := now

/-- Errors produced by dead-letter queues. -/
inductive DeadLetterError where
  | storage (source : String)
  deriving DecidableEq

end Pharos

import Pharos.Messaging.Message

/-!
# Outbox records

`pharos-messaging/src/outbox.rs`: the durable record, its lifecycle methods and
the errors of an outbox repository.
-/

namespace Pharos

/-- Current lifecycle status of an outbox message. -/
inductive OutboxStatus where
  | pending
  | published
  | failed
  | deadLettered
  deriving DecidableEq

/-- Durable message record used by the outbox pattern. -/
structure OutboxMessage where
  id : Uuid
  message : Message
  status : OutboxStatus
  attempts : ℕ
  createdAt : Time
  updatedAt : Time
  nextAttemptAt : Time
  lastError : Option String
  deriving DecidableEq

/-- Errors produced by outbox repositories. -/
inductive OutboxError where
  | notFound (id : Uuid)
  | storage (source : String)
  deriving DecidableEq

namespace OutboxMessage

/-- `OutboxMessage::new`, with the id `Uuid::now_v7` drew and the instant `Utc::now` read. -/
def new (id : Uuid) (now : Time) (message : Message) : OutboxMessage where
  id := id
  message := message
  status := .pending
  attempts := 0
  createdAt := now
  updatedAt := now
  nextAttemptAt := now
  lastError := none

def markPublished (record : OutboxMessage) (now : Time) : OutboxMessage :=
  { record with status := .published, updatedAt := now, lastError := none }

def markFailed (record : OutboxMessage) (now : Time) (error : String) : OutboxMessage :=
  { record with status := .failed, updatedAt := now, lastError := some error }

def recordAttempt (record : OutboxMessage) (now : Time) : OutboxMessage :=
  { record with attempts := record.attempts + 1, updatedAt := now }

end OutboxMessage

end Pharos

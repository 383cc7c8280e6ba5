import Pharos.Messaging.Inbox
import Pharos.Memory.DashMap

/-!
# The in-memory inbox

`pharos-memory/src/in_memory_inbox.rs`.  Every operation works on one entry of the map
under its lock, so each is one atomic step.  `begin_processing` reads the clock once to
check the lease of a record that is being processed (`read`) and once for what it writes
(`now`).

`begins_cases` says everything `begin_processing` can do.  A failed record is handed out
for a retry as it is: the retry is not recorded.
-/

namespace Pharos

/-- The key of an inbox record. -/
abbrev InboxKey := Uuid × String

/-- In-memory inbox store, with the lease of a processing record. -/
structure InMemoryInboxStore where
  store : DashMap InboxKey InboxMessage
  staleAfter : Duration := 300 * 1000000000

namespace InMemoryInboxStore

/-- An empty store. -/
def new (staleAfter : Duration) : InMemoryInboxStore := ⟨∅, staleAfter⟩

/-- The record of a message for a consumer. -/
def get (inbox : InMemoryInboxStore) (messageId : Uuid) (consumer : String) :
    Option InboxMessage :=
  inbox.store.get (messageId, consumer)

def write (inbox : InMemoryInboxStore) (messageId : Uuid) (consumer : String)
    (record : InboxMessage) : InMemoryInboxStore :=
  { inbox with store := inbox.store.put (messageId, consumer) record }

/-- `begin_processing`. -/
def beginProcessing (inbox : InMemoryInboxStore) (messageId : Uuid) (consumer : String)
    (read now : Time) : InMemoryInboxStore × Except InboxError IdempotencyDecision :=
  match inbox.get messageId consumer with
  | none =>
      (inbox.write messageId consumer (.processing messageId consumer now), .ok .startProcessing)
  | some entry =>
      match entry.status with
      | .processing =>
          match fromStd inbox.staleAfter with
          | .error source => (inbox, .error (.storage source))
          | .ok staleAfter =>
              if entry.updatedAt > read - staleAfter then (inbox, .ok .alreadyProcessing)
              else
                -- abandoned by a crashed consumer: take it over
                (inbox.write messageId consumer { entry with updatedAt := now, lastError := none },
                  .ok .startProcessing)
      | .completed => (inbox, .ok .alreadyCompleted)
      | .failed => (inbox, .ok .retryPreviousFailure)

/-- The change of one record that is there. -/
def update (inbox : InMemoryInboxStore) (messageId : Uuid) (consumer : String)
    (change : InboxMessage → InboxMessage) : InMemoryInboxStore × Except InboxError Unit :=
  match inbox.get messageId consumer with
  | none => (inbox, .error (.notFound messageId consumer))
  | some record => (inbox.write messageId consumer (change record), .ok ())

/-- `mark_completed`. -/
def markCompleted (inbox : InMemoryInboxStore) (messageId : Uuid) (consumer : String)
    (now : Time) : InMemoryInboxStore × Except InboxError Unit :=
  inbox.update messageId consumer (·.markCompleted now)

/-- `mark_failed`. -/
def markFailed (inbox : InMemoryInboxStore) (messageId : Uuid) (consumer error : String)
    (now : Time) : InMemoryInboxStore × Except InboxError Unit :=
  inbox.update messageId consumer (·.markFailed now error)

variable {inbox : InMemoryInboxStore} {messageId id : Uuid} {consumer name : String}
  {record : InboxMessage}

@[simp] theorem get_new (staleAfter : Duration) (messageId : Uuid) (consumer : String) :
    (new staleAfter).get messageId consumer = none :=
  DashMap.get_empty _

@[simp] theorem get_write_self :
    (inbox.write messageId consumer record).get messageId consumer = some record :=
  DashMap.get_put_self _ _ _

theorem get_write_of_ne (distinct : (id, name) ≠ (messageId, consumer)) :
    (inbox.write messageId consumer record).get id name = inbox.get id name :=
  DashMap.get_put_of_ne distinct

/-- Everything `begin_processing` can do. -/
theorem begins_cases {read now : Time} {inbox' : InMemoryInboxStore}
    {reply : Except InboxError IdempotencyDecision}
    (begins : inbox.beginProcessing messageId consumer read now = (inbox', reply)) :
    (inbox.get messageId consumer = none ∧ reply = .ok .startProcessing ∧
      inbox' = inbox.write messageId consumer (.processing messageId consumer now)) ∨
    ∃ record, inbox.get messageId consumer = some record ∧
      ((record.status = .processing ∧ (∃ source, fromStd inbox.staleAfter = .error source) ∧
          inbox' = inbox ∧ ∃ error, reply = .error error) ∨
        (record.status = .processing ∧ read < record.updatedAt + inbox.staleAfter ∧
          inbox' = inbox ∧ reply = .ok .alreadyProcessing) ∨
        (record.status = .processing ∧ record.updatedAt + inbox.staleAfter ≤ read ∧
          inbox' = inbox.write messageId consumer { record with updatedAt := now, lastError := none } ∧
          reply = .ok .startProcessing) ∨
        (record.status = .completed ∧ inbox' = inbox ∧ reply = .ok .alreadyCompleted) ∨
        (record.status = .failed ∧ inbox' = inbox ∧ reply = .ok .retryPreviousFailure)) := by
  unfold beginProcessing at begins
  cases found : inbox.get messageId consumer with
  | none =>
      rw [found] at begins
      cases begins
      exact .inl ⟨rfl, rfl, rfl⟩
  | some record =>
      refine .inr ⟨record, rfl, ?_⟩
      rw [found] at begins
      cases status : record.status with
      | processing =>
          simp only [status] at begins
          cases lease : fromStd inbox.staleAfter with
          | error source =>
              simp only [lease] at begins
              cases begins
              exact .inl ⟨rfl, ⟨source, rfl⟩, rfl, _, rfl⟩
          | ok staleAfter =>
              obtain rfl := fromStd_ok lease
              simp only [lease] at begins
              split at begins
              · next held =>
                cases begins
                refine .inr (.inl ⟨rfl, ?_, rfl, rfl⟩)
                exact Int.lt_add_of_sub_right_lt held
              · next expired =>
                cases begins
                refine .inr (.inr (.inl ⟨rfl, ?_, rfl, rfl⟩))
                exact Int.add_le_of_le_sub_right (Int.not_lt.mp expired)
      | completed =>
          simp only [status] at begins
          cases begins
          exact .inr (.inr (.inr (.inl ⟨rfl, rfl, rfl⟩)))
      | failed =>
          simp only [status] at begins
          cases begins
          exact .inr (.inr (.inr (.inr ⟨rfl, rfl, rfl⟩)))

/-- Everything an update of one record can do. -/
theorem update_cases {change : InboxMessage → InboxMessage} {inbox' : InMemoryInboxStore}
    {reply : Except InboxError Unit}
    (updates : inbox.update messageId consumer change = (inbox', reply)) :
    (inbox.get messageId consumer = none ∧ inbox' = inbox ∧
      reply = .error (.notFound messageId consumer)) ∨
    ∃ record, inbox.get messageId consumer = some record ∧
      inbox' = inbox.write messageId consumer (change record) ∧ reply = .ok () := by
  unfold update at updates
  cases found : inbox.get messageId consumer with
  | none =>
      rw [found] at updates
      cases updates
      exact .inl ⟨rfl, rfl, rfl⟩
  | some record =>
      rw [found] at updates
      cases updates
      exact .inr ⟨record, rfl, rfl, rfl⟩

end InMemoryInboxStore

end Pharos

import Pharos.Async.Outline
import Pharos.Messaging.Inbox
import Pharos.Outbox.Dispatcher

/-!
# Concurrent clients of the outbox

Any number of dispatchers, dead-letter sweeps and other callers over one
`InMemoryOutboxRepository`.  Here `pending` and `failed` of
`pharos-memory/src/in_memory_outbox.rs` are not atomic: they read the clock, visit the
entries of the store one at a time in an order of the map's own choosing, and `pending`
then claims its candidates row by row, each step under the lock of one entry.  An
iteration meets every key that is stored when it starts, no key twice, and perhaps keys
that are inserted while it goes on.

A dispatcher's lanes run as tasks of their own, any number at a time, so every bound on
their concurrency is covered.  `sweep_failed_to_dead_letter` is that of
`pharos-messaging/src/outbox.rs`; each record of the dead-letter queue is kept with the id
of the row it was made from.
-/

namespace Pharos

open Async

/-- Error produced by `sweep_failed_to_dead_letter`. -/
inductive SweepError where
  | outbox (error : OutboxError)
  | deadLetter (error : DeadLetterError)
  deriving DecidableEq

/-- What a client of the outbox awaits.  `iter` begins an iteration over the store, `visit`
reads the next entry of it, `claim` is one round of the second pass of `pending`, and `spawn`
hands the lanes of a batch to the executor. -/
inductive ClientOp where
  | utcNow
  | iter
  | visit (key : Uuid)
  | claim (now : Time) (id : Uuid)
  | dispatch (op : DispatchOp)
  | deadLetter (source : OutboxMessage) (reason : String)
  | markDeadLettered (id : Uuid)
  | spawn (lanes : List (List OutboxMessage))

/-- The replies of the clients' operations. -/
abbrev ClientOp.Reply : ClientOp → Type
  | .utcNow => Time
  | .iter => List Uuid
  | .visit _ => Option OutboxMessage
  | .claim _ _ => Option OutboxMessage
  | .dispatch op => op.Reply
  | .deadLetter _ _ => Except DeadLetterError Unit
  | .markDeadLettered _ => Except OutboxError Unit
  | .spawn _ => Unit

abbrev clientSignature : Signature where
  Op := ClientOp
  Reply := ClientOp.Reply

namespace OutboxClients

abbrev ClientM (α : Type) := Program clientSignature α

/-- One awaited operation of a client. -/
abbrev await (op : ClientOp) : ClientM op.Reply := Program.call (S := clientSignature) op

/-! ## The repository's passes over the store -/

/-- Visits `keys` and collects what `wanted` makes of the entries found. -/
def scan {β : Type} (wanted : OutboxMessage → Option β) : List Uuid → ClientM (List β)
  | [] => pure []
  | key :: keys => do
      let entry ← await (.visit key)
      let rest ← scan wanted keys
      pure ((entry.bind wanted).toList ++ rest)

/-- The candidate of an entry that is due. -/
def candidate (now : Time) (entry : OutboxMessage) : Option (Uuid × Time) :=
  if InMemoryOutboxRepository.Due now entry then some (entry.id, entry.createdAt) else none

/-- The second pass of `pending`. -/
def claimEach (now : Time) : List (Uuid × Time) → ClientM (List OutboxMessage)
  | [] => pure []
  | (id, _) :: candidates => do
      let claimed ← await (.claim now id)
      let rest ← claimEach now candidates
      pure (claimed.toList ++ rest)

/-- `OutboxRepository::pending`. -/
def pending (limit : ℕ) : ClientM (Except OutboxError (List OutboxMessage)) := do
  let now ← await .utcNow
  let keys ← await .iter
  let candidates ← scan (candidate now) keys
  let claimed ← claimEach now
    ((candidates.insertionSort InMemoryOutboxRepository.NotAfter).take limit)
  pure (.ok claimed)

/-- The sort key of `failed`: `created_at`, then `id`. -/
def NotLater (a b : OutboxMessage) : Prop :=
  InMemoryOutboxRepository.NotAfter (a.id, a.createdAt) (b.id, b.createdAt)

instance : DecidableRel NotLater := fun a b =>
  inferInstanceAs (Decidable (InMemoryOutboxRepository.NotAfter (a.id, a.createdAt)
    (b.id, b.createdAt)))

/-- The filter of `failed`. -/
def failure (entry : OutboxMessage) : Option OutboxMessage :=
  if entry.status = .failed then some entry else none

/-- `OutboxRepository::failed`. -/
def failed (limit : ℕ) : ClientM (Except OutboxError (List OutboxMessage)) := do
  let keys ← await .iter
  let messages ← scan failure keys
  pure (.ok ((messages.insertionSort NotLater).take limit))

/-! ## Dispatchers and sweeps -/

/-- `dispatch_pending` up to the start of its lanes. -/
def dispatchPending (limit : ℕ) : ClientM Unit := do
  match ← pending limit with
  | .error _ => pure ()
  | .ok batch => await (.spawn (OutboxDispatcher.lanes batch))

/-- One lane of a dispatcher. -/
def lane (messages : List OutboxMessage) : ClientM Unit :=
  (OutboxDispatcher.body ⟨0, messages⟩).interpret fun op => await (.dispatch op)

/-- The loop of `sweep_failed_to_dead_letter`. -/
def sweepEach : List OutboxMessage → ℕ → ClientM (Except SweepError ℕ)
  | [], swept => pure (.ok swept)
  | message :: failed, swept => do
      let reason := message.lastError.getD "publish failed"
      match ← await (.deadLetter message reason) with
      | .error error => pure (.error (.deadLetter error))
      | .ok () =>
        match ← await (.markDeadLettered message.id) with
        | .error error => pure (.error (.outbox error))
        | .ok () => sweepEach failed (swept + 1)

/-- `sweep_failed_to_dead_letter`. -/
def sweepFailedToDeadLetter (limit : ℕ) : ClientM (Except SweepError ℕ) := do
  match ← failed limit with
  | .error error => pure (.error (.outbox error))
  | .ok failed => sweepEach failed 0

end OutboxClients

/-! ## Runs over shared state -/

/-- A call of a client: a method of the repository, a dispatcher run, or a sweep. -/
inductive ClientCall where
  | pending (limit : ℕ)
  | failed (limit : ℕ)
  | operation (op : DispatchOp)
  | markDeadLettered (id : Uuid)
  | dispatchPending (limit : ℕ)
  | sweepFailedToDeadLetter (limit : ℕ)
  deriving DecidableEq

/-- What runs concurrently: the calls, and the lanes the dispatchers spawned. -/
inductive ClientTask where
  | call (call : ClientCall)
  | lane (messages : List OutboxMessage)
  deriving DecidableEq

/-- What a task returns. -/
inductive ClientReturn where
  | listed (result : Except OutboxError (List OutboxMessage))
  | swept (result : Except SweepError ℕ)
  | returned

/-- What the environment decides about one operation: the clock, the publisher, the order of
an iteration, the next UUID and the dead-letter queue. -/
structure ClientChoice extends DispatchChoice where
  order : List Uuid := []
  uuid : Uuid := 0
  parked : Except DeadLetterError Unit := .ok ()

/-- The repository, the lanes that have not begun, and the dead-letter queue. -/
structure ClientShared where
  repo : InMemoryOutboxRepository
  waiting : List (List OutboxMessage) := []
  deadLetters : List (Uuid × DeadLetterMessage) := []

/-- What reaches the outbox from outside: an insert, a call, or the start of a waiting lane. -/
inductive ClientArrival where
  | insert (message : OutboxMessage)
  | call (call : ClientCall)
  | nextLane (index : ℕ)

namespace OutboxClients

variable (config : DispatchConfig)

/-- The effect of one operation. -/
def serve (s : ClientShared) (choice : ClientChoice) :
    (op : ClientOp) → Option (ClientShared × op.Reply)
  | .utcNow => some (s, choice.now)
  | .iter =>
      if choice.order.Nodup ∧ s.repo.store.keys ⊆ choice.order then some (s, choice.order) else none
  | .visit key => some (s, s.repo.get key)
  | .claim now id =>
      let out := s.repo.claim now id
      some ({ s with repo := out.1 }, out.2)
  | .dispatch op =>
      (OutboxDispatcher.serve config { repo := s.repo } choice.toDispatchChoice op).map fun out =>
        ({ s with repo := out.1.repo }, out.2)
  | .deadLetter source reason =>
      match choice.parked with
      | .error error => some (s, .error error)
      | .ok () =>
          let dead := DeadLetterMessage.new choice.uuid choice.now source.message reason
            source.attempts
          some ({ s with deadLetters := s.deadLetters ++ [(source.id, dead)] }, .ok ())
  | .markDeadLettered id =>
      let out := s.repo.markDeadLettered id choice.now
      some ({ s with repo := out.1 }, out.2)
  | .spawn lanes => some ({ s with waiting := s.waiting ++ lanes }, ())

/-- What arrives, and the task it starts. -/
def arrive (s : ClientShared) : ClientArrival → Option (ClientShared × List ClientTask)
  | .insert message => some ({ s with repo := (s.repo.insert message).1 }, [])
  | .call call => some (s, [.call call])
  | .nextLane index =>
      s.waiting[index]?.map fun lane =>
        ({ s with waiting := s.waiting.eraseIdx index }, [.lane lane])

/-- The program of one task. -/
def body : ClientTask → ClientM ClientReturn
  | .call (.pending limit) => do
      let result ← pending limit
      pure (.listed result)
  | .call (.failed limit) => do
      let result ← failed limit
      pure (.listed result)
  | .call (.operation op) => do
      let _ ← await (.dispatch op)
      pure .returned
  | .call (.markDeadLettered id) => do
      let _ ← await (.markDeadLettered id)
      pure .returned
  | .call (.dispatchPending limit) => do
      dispatchPending limit
      pure .returned
  | .call (.sweepFailedToDeadLetter limit) => do
      let result ← sweepFailedToDeadLetter limit
      pure (.swept result)
  | .lane messages => do
      lane messages
      pure .returned

/-- Any number of clients over one repository and one dead-letter queue. -/
def system : System clientSignature ClientShared ClientChoice ClientArrival ClientTask ClientReturn
    where
  serve := serve config
  arrive := arrive
  body := body

abbrev ClientPool :=
  Pool clientSignature ClientShared ClientChoice ClientTask ClientReturn

abbrev ClientEvent := Event clientSignature ClientChoice

abbrev ClientEntry := Entry clientSignature ClientShared ClientChoice ClientTask

/-- An empty repository and no clients yet. -/
def initial (claimLease : ChronoDuration) : ClientPool where
  shared := { repo := .new claimLease }

/-- Messages are inserted under fresh ids. -/
def InsertsFresh (p : ClientPool) : Action ClientChoice ClientArrival → Prop
  | .arrive (.insert message) => p.shared.repo.get message.id = none
  | _ => True

instance (p : ClientPool) : DecidablePred (InsertsFresh p)
  | .arrive (.insert message) =>
      inferInstanceAs (Decidable (p.shared.repo.get message.id = none))
  | .arrive (.call _) | .arrive (.nextLane _) | .step _ _ => .isTrue trivial

/-! ## Which operations a task performs -/

/-- The operations of each kind of task. -/
def Performs : ClientTask → ClientOp → Prop
  | .call (.pending _), op =>
      op = .utcNow ∨ op = .iter ∨ (∃ key, op = .visit key) ∨ ∃ now id, op = .claim now id
  | .call (.dispatchPending _), op =>
      op = .utcNow ∨ op = .iter ∨ (∃ key, op = .visit key) ∨ (∃ now id, op = .claim now id) ∨
        ∃ lanes, op = .spawn lanes
  | .call (.failed _), op => op = .iter ∨ ∃ key, op = .visit key
  | .call (.operation op'), op => op = .dispatch op'
  | .call (.markDeadLettered id), op => op = .markDeadLettered id
  | .call (.sweepFailedToDeadLetter _), op =>
      op = .iter ∨ (∃ key, op = .visit key) ∨ (∃ source reason, op = .deadLetter source reason) ∨
        ∃ id, op = .markDeadLettered id
  | .lane _, op => ∃ op', op = .dispatch op'

section Performs

variable {P : ClientOp → Prop}

theorem only_scan {β : Type} {wanted : OutboxMessage → Option β} (visits : ∀ key, P (.visit key))
    (keys : List Uuid) : (scan wanted keys).Only P := by
  induction keys with
  | nil => trivial
  | cons key keys ih => exact .call (visits key) fun _ => .bind ih fun _ => trivial

theorem only_claimEach {now : Time} (claims : ∀ id, P (.claim now id))
    (candidates : List (Uuid × Time)) : (claimEach now candidates).Only P := by
  induction candidates with
  | nil => trivial
  | cons head candidates ih => exact .call (claims head.1) fun _ => .bind ih fun _ => trivial

theorem only_pending (limit : ℕ) (clock : P .utcNow) (iterates : P .iter)
    (visits : ∀ key, P (.visit key)) (claims : ∀ now id, P (.claim now id)) :
    (pending limit).Only P :=
  .call clock fun now => .call iterates fun keys => .bind (only_scan visits keys) fun _ =>
    .bind (only_claimEach (claims now) _) fun _ => trivial

theorem only_failed (limit : ℕ) (iterates : P .iter) (visits : ∀ key, P (.visit key)) :
    (failed limit).Only P :=
  .call iterates fun keys => .bind (only_scan visits keys) fun _ => trivial

theorem only_sweepEach (parks : ∀ source reason, P (.deadLetter source reason))
    (marks : ∀ id, P (.markDeadLettered id)) (messages : List OutboxMessage) (swept : ℕ) :
    (sweepEach messages swept).Only P := by
  induction messages generalizing swept with
  | nil => trivial
  | cons message messages ih =>
      refine .call (parks _ _) fun parked => ?_
      cases parked with
      | error error => trivial
      | ok _ =>
          refine .call (marks _) fun marked => ?_
          cases marked with
          | error error => trivial
          | ok _ => exact ih (swept + 1)

theorem only_body (task : ClientTask) : (body task).Only (Performs task) := by
  cases task with
  | call call =>
      cases call with
      | pending limit =>
          refine .bind (only_pending limit (.inl rfl) (.inr (.inl rfl)) ?_ ?_) fun _ => trivial
          · exact fun key => .inr (.inr (.inl ⟨key, rfl⟩))
          · exact fun now id => .inr (.inr (.inr ⟨now, id, rfl⟩))
      | failed limit =>
          exact .bind (only_failed limit (.inl rfl) fun key => .inr ⟨key, rfl⟩) fun _ => trivial
      | operation op => exact .call rfl fun _ => trivial
      | markDeadLettered id => exact .call rfl fun _ => trivial
      | dispatchPending limit =>
          refine .bind (.bind (only_pending limit (.inl rfl) (.inr (.inl rfl)) ?_ ?_)
            fun result => ?_) fun _ => trivial
          · exact fun key => .inr (.inr (.inl ⟨key, rfl⟩))
          · exact fun now id => .inr (.inr (.inr (.inl ⟨now, id, rfl⟩)))
          · cases result with
            | error error => trivial
            | ok batch => exact .call (.inr (.inr (.inr (.inr ⟨_, rfl⟩)))) fun _ => trivial
      | sweepFailedToDeadLetter limit =>
          refine .bind (.bind (only_failed limit (.inl rfl) fun key => .inr (.inl ⟨key, rfl⟩))
            fun result => ?_) fun _ => trivial
          cases result with
          | error error => trivial
          | ok messages =>
              refine only_sweepEach ?_ ?_ messages 0
              · exact fun source reason => .inr (.inr (.inl ⟨source, reason, rfl⟩))
              · exact fun id => .inr (.inr (.inr ⟨id, rfl⟩))
  | lane messages =>
      exact .bind (.interpret fun op => .call ⟨op, rfl⟩ fun _ => trivial) fun _ => trivial

end Performs

/-! ## What one operation does to a row -/

/-- How an operation changes the row of `id`. -/
inductive RowStep (lease : ChronoDuration) (id : Uuid) (row : OutboxMessage) :
    ClientOp → OutboxMessage → Prop where
  | claimed {now : Time} (due : InMemoryOutboxRepository.Due now row) :
      RowStep lease id row (.claim now id) (InMemoryOutboxRepository.leased lease now row)
  | recorded {now : Time} :
      RowStep lease id row (.dispatch (.recordAttempt id)) (row.recordAttempt now)
  | published {now : Time} :
      RowStep lease id row (.dispatch (.markPublished id)) (row.markPublished now)
  | failed {now : Time} {error : String} :
      RowStep lease id row (.dispatch (.markFailed id error)) (row.markFailed now error)
  | postponed {delay : Duration} {next updated : Time} :
      RowStep lease id row (.dispatch (.scheduleRetry id delay))
        { row with nextAttemptAt := next, updatedAt := updated }
  | deadLettered {now : Time} :
      RowStep lease id row (.markDeadLettered id)
        { row with status := .deadLettered, updatedAt := now }

/-- A row keeps its id and its creation time. -/
theorem RowStep.kept {lease : ChronoDuration} {id : Uuid} {row row' : OutboxMessage}
    {op : ClientOp} (step : RowStep lease id row op row') :
    row'.id = row.id ∧ row'.createdAt = row.createdAt := by
  cases step <;> exact ⟨rfl, rfl⟩

section Rows

variable {config} {repo : InMemoryOutboxRepository} {s s' : ClientShared} {choice : ClientChoice}
  {op : ClientOp} {reply : op.Reply} {id : Uuid}

/-- At most the row of `id` differs, and it changed by a step of `op`. -/
def OneRow (repo repo' : InMemoryOutboxRepository) (op : ClientOp) : Prop :=
  repo'.claimLease = repo.claimLease ∧ ∀ id, repo'.get id = repo.get id ∨
    ∃ row row', repo.get id = some row ∧ repo'.get id = some row' ∧
      RowStep repo.claimLease id row op row'

theorem OneRow.refl (repo : InMemoryOutboxRepository) (op : ClientOp) : OneRow repo repo op :=
  ⟨rfl, fun _ => .inl rfl⟩

theorem oneRow_write {row row' : OutboxMessage} (found : repo.get id = some row)
    (step : RowStep repo.claimLease id row op row') : OneRow repo (repo.write row') op := by
  have same : row'.id = id := step.kept.1.trans (InMemoryOutboxRepository.id_of_get found)
  refine ⟨rfl, fun other => ?_⟩
  rw [InMemoryOutboxRepository.get_write]
  split
  · next here =>
    rw [here, same]
    exact .inr ⟨row, row', found, rfl, step⟩
  · exact .inl rfl

theorem oneRow_update {change : OutboxMessage → OutboxMessage}
    (step : ∀ row, RowStep repo.claimLease id row op (change row)) :
    OneRow repo (repo.update id change).1 op := by
  unfold InMemoryOutboxRepository.update
  split
  · exact .refl repo op
  · next row found => exact oneRow_write found (step row)

theorem oneRow_scheduleRetry {delay : Duration} {now now' : Time} :
    OneRow repo (repo.scheduleRetry id delay now now').1 (.dispatch (.scheduleRetry id delay)) := by
  unfold InMemoryOutboxRepository.scheduleRetry
  split
  · exact .refl repo _
  · next row found =>
    split
    · exact .refl repo _
    · exact oneRow_write found .postponed

theorem oneRow_claim {now : Time} : OneRow repo (repo.claim now id).1 (.claim now id) := by
  unfold InMemoryOutboxRepository.claim
  split
  · exact .refl repo _
  · next row found =>
    split
    · next due => exact oneRow_write found (.claimed due)
    · exact .refl repo _

/-- Every operation changes at most one row, in one of the six ways. -/
theorem serve_oneRow (served : serve config s choice op = some (s', reply)) :
    OneRow s.repo s'.repo op := by
  cases op with
  | claim now id =>
      cases served
      exact oneRow_claim
  | markDeadLettered id =>
      cases served
      exact oneRow_update fun _ => .deadLettered
  | dispatch op =>
      obtain ⟨out, dispatched, same⟩ := Option.map_eq_some_iff.mp served
      cases same
      cases op with
      | recordAttempt id =>
          cases dispatched
          exact oneRow_update fun _ => .recorded
      | markPublished id =>
          cases dispatched
          exact oneRow_update fun _ => .published
      | markFailed id error =>
          cases dispatched
          exact oneRow_update fun _ => .failed
      | scheduleRetry id delay =>
          cases dispatched
          exact oneRow_scheduleRetry
      | _ =>
          cases dispatched
          exact .refl _ _
  | iter =>
      simp only [serve] at served
      split at served
      · cases served
        exact .refl _ _
      · cases served
  | deadLetter source reason =>
      simp only [serve] at served
      split at served
      · cases served
        exact .refl _ _
      · cases served
        exact .refl _ _
  | _ =>
      cases served
      exact .refl _ _

/-- A claim that succeeded found the row due and leased it. -/
theorem serve_claim {now : Time} {claimed : OutboxMessage}
    (served : serve config s choice (.claim now id) = some (s', some claimed)) :
    ∃ row, s.repo.get id = some row ∧ InMemoryOutboxRepository.Due now row ∧
      claimed = InMemoryOutboxRepository.leased s.repo.claimLease now row ∧
      s'.repo.get id = some claimed := by
  simp only [serve, Option.some.injEq, Prod.mk.injEq] at served
  obtain ⟨rfl, claim⟩ := served
  cases found : s.repo.get id with
  | none =>
      simp only [InMemoryOutboxRepository.claim, found] at claim
      cases claim
  | some row =>
      by_cases due : InMemoryOutboxRepository.Due now row
      · rw [InMemoryOutboxRepository.claim_due found due] at claim ⊢
        cases claim
        refine ⟨row, rfl, due, rfl, ?_⟩
        have same : row.id = id := InMemoryOutboxRepository.id_of_get found
        rw [← same]
        exact InMemoryOutboxRepository.get_write_self
          (InMemoryOutboxRepository.leased s.repo.claimLease now row)
      · simp only [InMemoryOutboxRepository.claim, found, if_neg due] at claim
        cases claim

/-- An iteration meets no key twice. -/
theorem nodup_iter {keys : List Uuid} (served : serve config s choice .iter = some (s', keys)) :
    keys.Nodup := by
  simp only [serve] at served
  split at served
  · next iterated =>
    cases served
    exact iterated.1
  · cases served

theorem claimLease_arrive {arrival : ClientArrival} {args : List ClientTask}
    (arrived : arrive s arrival = some (s', args)) : s'.repo.claimLease = s.repo.claimLease := by
  cases arrival with
  | insert message =>
      cases arrived
      rfl
  | call call =>
      cases arrived
      rfl
  | nextLane index =>
      obtain ⟨lane, -, same⟩ := Option.map_eq_some_iff.mp arrived
      cases same
      rfl

/-- What arrives replaces no row. -/
theorem get_arrive {p : ClientPool} {arrival : ClientArrival} {args : List ClientTask}
    {row : OutboxMessage} (fresh : InsertsFresh p (.arrive arrival))
    (arrived : arrive p.shared arrival = some (s', args))
    (found : p.shared.repo.get id = some row) : s'.repo.get id = some row := by
  cases arrival with
  | insert message =>
      cases arrived
      have absent : p.shared.repo.get message.id = none := fresh
      refine (InMemoryOutboxRepository.get_write_of_ne ?_).trans found
      rintro rfl
      cases found.symm.trans absent
  | call call =>
      cases arrived
      exact found
  | nextLane index =>
      obtain ⟨lane, -, same⟩ := Option.map_eq_some_iff.mp arrived
      cases same
      exact found

/-- Rows are not lost and keep their creation time. -/
def Retains (s s' : ClientShared) : Prop :=
  ∀ id row, s.repo.get id = some row →
    ∃ row', s'.repo.get id = some row' ∧ row'.createdAt = row.createdAt

theorem Retains.refl (s : ClientShared) : Retains s s := fun _ row found => ⟨row, found, rfl⟩

theorem Retains.trans {s'' : ClientShared} (first : Retains s s') (second : Retains s' s'') :
    Retains s s'' := by
  intro id row found
  obtain ⟨row', found', same⟩ := first id row found
  obtain ⟨row'', found'', same'⟩ := second id row' found'
  exact ⟨row'', found'', same'.trans same⟩

theorem retains_serve (served : serve config s choice op = some (s', reply)) : Retains s s' := by
  intro id row found
  rcases (serve_oneRow served).2 id with same | ⟨before, after, found', stored, step⟩
  · exact ⟨row, same.trans found, rfl⟩
  · cases found.symm.trans found'
    exact ⟨after, stored, step.kept.2⟩

theorem retains_arrive {p : ClientPool} {arrival : ClientArrival} {args : List ClientTask}
    (fresh : InsertsFresh p (.arrive arrival))
    (arrived : arrive p.shared arrival = some (s', args)) : Retains p.shared s' :=
  fun _ row found => ⟨row, get_arrive fresh arrived found, rfl⟩

end Rows

/-! ## A message for the runs below -/

/-- Three attempts a message, one second between them. -/
def threeAttempts : DispatchConfig where
  retry := { maxAttempts := 3, backoff := .fixed 1000000000 }

def letter : OutboxMessage := .new 1 0 { messageId := 1, topic := "orders" }

end OutboxClients

end Pharos

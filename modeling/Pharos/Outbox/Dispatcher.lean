import Pharos.Async.Pool
import Pharos.Memory.Outbox

/-!
# The outbox dispatcher

`pharos-messaging/src/outbox_dispatcher.rs` over the in-memory repository and any
publisher.  `dispatch_pending` claims a batch, partitions it into lanes and runs up
to `concurrency` of them at a time (`buffer_unordered`): the claim is the arrival
`dispatch`, a lane begins with the arrival `nextLane`, and each `await` of a lane is one
operation.  A lane that ends yields its outcome to the run.

The publisher is known by the calls it received and the outcome each one had.
-/

namespace Pharos

open Async

/-- Errors returned while dispatching an individual outbox message. -/
inductive OutboxDispatchError where
  | outbox (error : OutboxError)
  | messaging (error : MessagingError)
  deriving DecidableEq

/-- Outcome of a `dispatch_pending` run. -/
structure DispatchResult where
  published : ℕ := 0
  errors : List OutboxDispatchError := []
  deriving DecidableEq

/-- What a lane of the dispatcher awaits; the publisher is given the message of `record`. -/
inductive DispatchOp where
  | recordAttempt (id : Uuid)
  | publish (record : OutboxMessage)
  | markPublished (id : Uuid)
  | decideFor (attempt : ℕ) (failure : FailureKind)
  | markFailed (id : Uuid) (error : String)
  | scheduleRetry (id : Uuid) (delay : Duration)
  | yield (published : ℕ) (errors : List OutboxDispatchError)
  deriving DecidableEq

/-- The replies of the dispatcher's operations. -/
abbrev DispatchOp.Reply : DispatchOp → Type
  | .recordAttempt _ | .markPublished _ | .markFailed _ _ | .scheduleRetry _ _ =>
      Except OutboxError Unit
  | .publish _ => Except MessagingError Unit
  | .decideFor _ _ => RetryDecision
  | .yield _ _ => Unit

abbrev dispatchSignature : Signature where
  Op := DispatchOp
  Reply := DispatchOp.Reply

/-- Tuning of a run. -/
structure DispatchConfig where
  retry : RetryPolicy
  concurrency : ℕ := 1
  deriving DecidableEq

namespace OutboxDispatcher

abbrev DispatchM (α : Type) := Program dispatchSignature α

/-- One awaited operation of a lane. -/
abbrev await (op : DispatchOp) : DispatchM op.Reply := Program.call (S := dispatchSignature) op

/-- Attempts one claimed message and reports `(published, errors, delivered)`. -/
def dispatchOne (message : OutboxMessage) : DispatchM (ℕ × List OutboxDispatchError × Bool) := do
  let attempt := message.attempts + 1
  match ← await (.recordAttempt message.id) with
  -- an attempt that cannot be counted is not made
  | .error error => pure (0, [.outbox error], false)
  | .ok () =>
    match ← await (.publish message) with
    | .ok () =>
      match ← await (.markPublished message.id) with
      | .ok () => pure (1, [], true)
      | .error error => pure (0, [.outbox error], true)
    | .error error =>
      match ← await (.decideFor attempt error.failureKind) with
      | .deadLetter =>
        match ← await (.markFailed message.id error.toText) with
        | .error markError => pure (0, [.outbox markError, .messaging error], false)
        | .ok () => pure (0, [.messaging error], false)
      | .retryAfter delay =>
        match ← await (.scheduleRetry message.id delay) with
        | .error scheduleError => pure (0, [.outbox scheduleError, .messaging error], false)
        | .ok () => pure (0, [.messaging error], false)

/-- One lane: its messages in order, up to the first that was not delivered. -/
def dispatchLane : List OutboxMessage → ℕ → List OutboxDispatchError →
    DispatchM (ℕ × List OutboxDispatchError)
  | [], published, errors => pure (published, errors)
  | message :: lane, published, errors => do
      let (p, e, delivered) ← dispatchOne message
      if delivered then dispatchLane lane (published + p) (errors ++ e)
      else pure (published + p, errors ++ e)

/-- The partition loop: the lanes so far, and the lane of each key. -/
def assign (acc : List (List OutboxMessage) × DashMap String ℕ) (message : OutboxMessage) :
    List (List OutboxMessage) × DashMap String ℕ :=
  match message.message.key with
  | some key =>
      match acc.2.get key with
      | some index => (acc.1.modify index (· ++ [message]), acc.2)
      | none => (acc.1 ++ [[message]], acc.2.put key acc.1.length)
  | none => (acc.1 ++ [[message]], acc.2)

/-- One lane per routing key, one lane per key-less message. -/
def lanes (pending : List OutboxMessage) : List (List OutboxMessage) :=
  (pending.foldl assign ([], ∅)).1

/-- Adds up the outcomes of the lanes. -/
def collect (outcomes : List (ℕ × List OutboxDispatchError)) : DispatchResult :=
  outcomes.foldl (fun result outcome =>
    { published := result.published + outcome.1, errors := result.errors ++ outcome.2 }) {}

end OutboxDispatcher

/-! ## Runs over shared state -/

/-- A call the publisher received, and what came of it. -/
structure PublishCall where
  record : OutboxMessage
  outcome : Except MessagingError Unit

/-- One `dispatch_pending` in progress or ended: the claimed batch, the lanes that have not
begun, the publish calls so far, and the outcomes of the lanes that ended. -/
structure DispatchRun where
  claimed : List OutboxMessage := []
  waiting : List (List OutboxMessage) := []
  calls : List PublishCall := []
  outcomes : List (ℕ × List OutboxDispatchError) := []

/-- The repository, the calls of earlier runs, and the current run with its number. -/
structure OutboxShared where
  repo : InMemoryOutboxRepository
  earlier : List PublishCall := []
  runs : ℕ := 0
  run : DispatchRun := {}

/-- A lane of the run with number `run`. -/
structure DispatchLane where
  run : ℕ
  messages : List OutboxMessage
  deriving DecidableEq

/-- What the environment decides about one operation: the clock, the jitter, the publisher. -/
structure DispatchChoice where
  now : Time := 0
  now' : Time := 0
  drawn : Duration := 0
  published : Except MessagingError Unit := .ok ()

/-- What reaches the dispatcher from outside: an insert into the repository, a call of
`dispatch_pending` (with the clock and the iteration order its claim saw), the next lane. -/
inductive OutboxArrival where
  | insert (message : OutboxMessage)
  | dispatch (limit : ℕ) (now : Time) (order : List Uuid)
  | nextLane

/-- Every publish call ever made. -/
def OutboxShared.calls (s : OutboxShared) : List PublishCall := s.earlier ++ s.run.calls

namespace OutboxDispatcher

variable (config : DispatchConfig)

/-- The effect of one operation. -/
def serve (s : OutboxShared) (choice : DispatchChoice) :
    (op : DispatchOp) → Option (OutboxShared × op.Reply)
  | .recordAttempt id =>
      let out := s.repo.recordAttempt id choice.now
      some ({ s with repo := out.1 }, out.2)
  | .publish record =>
      let call := ⟨record, choice.published⟩
      some ({ s with run := { s.run with calls := s.run.calls ++ [call] } }, choice.published)
  | .markPublished id =>
      let out := s.repo.markPublished id choice.now
      some ({ s with repo := out.1 }, out.2)
  | .decideFor attempt failure => some (s, config.retry.decideFor attempt failure choice.drawn)
  | .markFailed id error =>
      let out := s.repo.markFailed id error choice.now
      some ({ s with repo := out.1 }, out.2)
  | .scheduleRetry id delay =>
      let out := s.repo.scheduleRetry id delay choice.now choice.now'
      some ({ s with repo := out.1 }, out.2)
  | .yield published errors =>
      some ({ s with run := { s.run with outcomes := s.run.outcomes ++ [(published, errors)] } }, ())

/-- `dispatch_pending` up to the start of its lanes. -/
def claimBatch (s : OutboxShared) (limit : ℕ) (now : Time) (order : List Uuid) : OutboxShared :=
  let out := s.repo.pending order now limit
  { repo := out.1
    earlier := s.earlier ++ s.run.calls
    runs := s.runs + 1
    run :=
      match out.2 with
      | .error error => { outcomes := [(0, [.outbox error])] }
      | .ok pending => { claimed := pending, waiting := lanes pending } }

/-- What arrives, and the lane it starts. -/
def arrive (s : OutboxShared) : OutboxArrival → Option (OutboxShared × List DispatchLane)
  | .insert message => some ({ s with repo := (s.repo.insert message).1 }, [])
  | .dispatch limit now order =>
      if order.Perm s.repo.store.keys then some (claimBatch s limit now order, []) else none
  | .nextLane =>
      match s.run.waiting with
      | [] => none
      | lane :: waiting =>
          some ({ s with run := { s.run with waiting := waiting } }, [⟨s.runs, lane⟩])

/-- The future of one lane; its outcome is yielded to the run. -/
def body (lane : DispatchLane) : DispatchM Unit := do
  let (published, errors) ← dispatchLane lane.messages 0 []
  await (.yield published errors)

/-- The lanes of one dispatcher. -/
def system : System dispatchSignature OutboxShared DispatchChoice OutboxArrival DispatchLane Unit
    where
  serve := serve config
  arrive := arrive
  body := body

abbrev DispatchPool :=
  Pool dispatchSignature OutboxShared DispatchChoice DispatchLane Unit

abbrev DispatchEvent := Event dispatchSignature DispatchChoice

/-- The number of lanes that have begun and not ended. -/
def active (p : DispatchPool) : ℕ := p.tasks.countP fun t => !decide t.Finished

/-- A single dispatcher: `dispatch_pending` is called again only after it returned, which
it does when all its lanes have ended; no more lanes run at a time than configured; and
messages are inserted under fresh ids. -/
def Single (config : DispatchConfig) (p : DispatchPool) :
    Action DispatchChoice OutboxArrival → Prop
  | .arrive (.insert message) => p.shared.repo.get message.id = none
  | .arrive (.dispatch _ _ _) => p.Quiescent ∧ p.shared.run.waiting = []
  | .arrive .nextLane => active p < max 1 config.concurrency
  | .step _ _ => True

instance (config : DispatchConfig) (p : DispatchPool) :
    ∀ action, Decidable (Single config p action)
  | .arrive (.insert message) =>
      inferInstanceAs (Decidable (p.shared.repo.get message.id = none))
  | .arrive (.dispatch _ _ _) =>
      inferInstanceAs (Decidable (p.Quiescent ∧ p.shared.run.waiting = []))
  | .arrive .nextLane => inferInstanceAs (Decidable (active p < max 1 config.concurrency))
  | .step _ _ => .isTrue trivial

/-- An empty repository and no run yet. -/
def initial (claimLease : ChronoDuration) : DispatchPool where
  shared := { repo := .new claimLease }

end OutboxDispatcher

end Pharos

import Pharos.Async.Pool
import Pharos.Memory.SagaStore

/-!
# The saga runner

`SagaRunner` of `pharos-saga/src/lib.rs` over the in-memory store and an outbox.
Each `await` of the source is one operation; `Utc::now`, `Uuid::now_v7` and the
user's `react` and `on_timeout` are operations too, so that other tasks may run
between them and the store calls.
-/

namespace Pharos

open Async

/-- What a runner awaits. -/
inductive SagaOp (I St E : Type) where
  | load (id : I)
  | react (current : Option (SagaInstance I St)) (event : E)
  | onTimeout (inst : SagaInstance I St)
  | utcNow
  | nowV7
  | save (inst : SagaInstance I St)
  | claimDue (now : Time) (lease : ChronoDuration) (limit : ℕ)
  | insert (message : OutboxMessage)

/-- The replies of the runner's operations. -/
abbrev SagaOp.Reply (C ε : Type) {I St E : Type} : SagaOp I St E → Type
  | .load _ => Except InMemorySagaStoreError (Option (SagaInstance I St))
  | .react _ _ => Except ε (SagaTransition St C)
  | .onTimeout _ => Except ε (SagaTransition St C)
  | .utcNow => Time
  | .nowV7 => Uuid
  | .save _ => Except (SagaSaveError InMemorySagaStoreError) Unit
  | .claimDue _ _ _ => Except InMemorySagaStoreError (List (SagaInstance I St))
  | .insert _ => Except OutboxError Unit

abbrev sagaSignature (I St E C ε : Type) : Signature where
  Op := SagaOp I St E
  Reply := SagaOp.Reply C ε

/-- The parts of the runner that are not shared state. -/
structure SagaRunner (I St E C ε : Type) where
  saga : Saga I St E C ε
  mapCommand : C → Message

namespace SagaRunner

variable {I St E C ε : Type}

/-- Upper bound on how many times `handle` tries a transition. -/
def maxConflictRetries : ℕ := 8

abbrev RunnerM (I St E C ε α : Type) := Program (sagaSignature I St E C ε) α

abbrev RunnerResult (ε α : Type) := Except (SagaRunnerError ε InMemorySagaStoreError) α

/-- One awaited operation of the runner. -/
abbrev await (op : SagaOp I St E) : RunnerM I St E C ε (op.Reply C ε) :=
  Program.call (S := sagaSignature I St E C ε) op

/-- `OutboxMessage::new` for each message, in order. -/
def newMessages : List Message → RunnerM I St E C ε (List OutboxMessage)
  | [] => pure []
  | message :: messages => do
      let now ← await .utcNow
      let id ← await .nowV7
      let rest ← newMessages messages
      pure (OutboxMessage.new id now message :: rest)

/-- `OutboxRepository::insert_many`: stops at the first error. -/
def insertMany : List OutboxMessage → RunnerM I St E C ε (Except OutboxError Unit)
  | [] => pure (.ok ())
  | message :: messages => do
      match ← await (.insert message) with
      | .error error => pure (.error error)
      | .ok () => insertMany messages

/-- Enqueues `commands` onto the outbox as a single batch. -/
def enqueueAll (runner : SagaRunner I St E C ε) (commands : List C) :
    RunnerM I St E C ε (RunnerResult ε Unit) :=
  match commands with
  | [] => pure (.ok ())
  | _ :: _ => do
      let messages ← newMessages (commands.map runner.mapCommand)
      match ← insertMany messages with
      | .error error => pure (.error (.enqueue error))
      | .ok () => pure (.ok ())

/-- `store.save(instance).await.map_err(SagaRunnerError::from_save_error)?`, then `next`. -/
def saveThen (inst : SagaInstance I St)
    (next : RunnerM I St E C ε (RunnerResult ε Unit)) :
    RunnerM I St E C ε (RunnerResult ε Unit) := do
  match ← await (.save inst) with
  | .error error => pure (.error (.fromSaveError error))
  | .ok () => next

/-- The end of a failure: the compensating commands, then the error. -/
def compensate (runner : SagaRunner I St E C ε) (reason : String) (commands : List C) :
    RunnerM I St E C ε (RunnerResult ε Unit) := do
  match ← runner.enqueueAll commands with
  | .error error => pure (.error error)
  | .ok () => pure (.error (.failed reason))

/-- `current.unwrap_or_else(|| SagaInstance::running(id, state))`. -/
def currentOrRunning (id : I) (current : Option (SagaInstance I St)) (state : St) :
    RunnerM I St E C ε (SagaInstance I St) :=
  match current with
  | some inst => pure inst
  | none => do
      let now ← await .utcNow
      pure (SagaInstance.running id state now)

/-- Persists a transition, then enqueues its commands. -/
def applyTransition (runner : SagaRunner I St E C ε) (id : I)
    (current : Option (SagaInstance I St)) (transition : SagaTransition St C) :
    RunnerM I St E C ε (RunnerResult ε Unit) :=
  match transition with
  | .ignore => pure (.ok ())
  | .start state commands deadline => do
      let now ← await .utcNow
      let inst := { SagaInstance.running id state now with deadline := deadline }
      saveThen inst (runner.enqueueAll commands)
  | .advance state commands deadline => do
      let inst ← currentOrRunning id current state
      let now ← await .utcNow
      let inst := { inst with
        state := state, status := .running, deadline := deadline, updatedAt := now }
      saveThen inst (runner.enqueueAll commands)
  | .complete state commands => do
      let inst ← currentOrRunning id current state
      let now ← await .utcNow
      let inst := { inst with
        state := state, status := .completed, deadline := none, updatedAt := now }
      saveThen inst (runner.enqueueAll commands)
  | .fail reason commands =>
      match current with
      -- a saga that fails before any instance was persisted has no state to mark
      | none => runner.compensate reason commands
      | some inst => do
          let now ← await .utcNow
          let inst := { inst with status := .failed, deadline := none, updatedAt := now }
          saveThen inst (runner.compensate reason commands)

/-- The retry loop of `handle`; `lastConflict` is what the last lost race reported. -/
def handleAttempts (runner : SagaRunner I St E C ε) (id : I) (event : E) :
    ℕ → Option (ℕ × Option ℕ) → RunnerM I St E C ε (RunnerResult ε Unit)
  | 0, lastConflict =>
      let (expected, actual) := lastConflict.getD (0, none)
      pure (.error (.conflict expected actual))
  | retries + 1, _ => do
      match ← await (.load id) with
      | .error error => pure (.error (.store error))
      | .ok current =>
        match ← await (.react current event) with
        | .error error => pure (.error (.saga error))
        | .ok transition =>
          if transition.isIgnore then pure (.ok ())
          -- a terminal instance must not be revived by a duplicate or late event
          else if ∃ inst ∈ current, inst.Terminal then pure (.ok ())
          else
            match ← runner.applyTransition id current transition with
            | .ok () => pure (.ok ())
            | .error (.conflict expected actual) =>
                runner.handleAttempts id event retries (some (expected, actual))
            | .error other => pure (.error other)

/-- Handles an event from start to finish. -/
def handle (runner : SagaRunner I St E C ε) (event : E) :
    RunnerM I St E C ε (RunnerResult ε Unit) :=
  match runner.saga.idFor event with
  | none => pure (.ok ())
  | some id => runner.handleAttempts id event maxConflictRetries none

/-- The loop of `run_due_timeouts` over the claimed instances. -/
def fireTimeouts (runner : SagaRunner I St E C ε) :
    List (SagaInstance I St) → ℕ → RunnerM I St E C ε (RunnerResult ε ℕ)
  | [], processed => pure (.ok processed)
  | inst :: due, processed => do
      match ← await (.onTimeout inst) with
      | .error error => pure (.error (.saga error))
      | .ok transition =>
        if transition.isIgnore then
          -- clear the elapsed deadline so the timeout never refires
          let now ← await .utcNow
          match ← await (.save { inst with deadline := none, updatedAt := now }) with
          | .error error => pure (.error (.fromSaveError error))
          | .ok () => runner.fireTimeouts due (processed + 1)
        else
          match ← runner.applyTransition inst.id (some inst) transition with
          | .ok () => runner.fireTimeouts due (processed + 1)
          | .error (.failed _) => runner.fireTimeouts due (processed + 1)
          | .error error => pure (.error error)

/-- Fires `on_timeout` for up to `limit` running instances whose deadline elapsed. -/
def runDueTimeouts (runner : SagaRunner I St E C ε) (now : Time) (lease : ChronoDuration)
    (limit : ℕ) : RunnerM I St E C ε (RunnerResult ε ℕ) := do
  match ← await (.claimDue now lease limit) with
  | .error error => pure (.error (.store error))
  | .ok due => runner.fireTimeouts due 0

end SagaRunner

/-! ## The runner's calls over shared state -/

/-- A call of the runner. -/
inductive SagaCall (E : Type) where
  | handle (event : E)
  | runDueTimeouts (now : Time) (lease : ChronoDuration) (limit : ℕ)
  deriving DecidableEq

/-- What a call of the runner returns. -/
inductive SagaReturn (ε : Type) where
  | handled (result : SagaRunner.RunnerResult ε Unit)
  | swept (result : SagaRunner.RunnerResult ε ℕ)

/-- Everything the environment decides about one operation: the clock, the next UUID,
the order in which the store is iterated, and whether the outbox accepts an insert. -/
structure SagaChoice (I : Type) where
  now : Time := 0
  uuid : Uuid := 0
  order : List I := []
  outboxError : Option OutboxError := none

/-- The shared state: one store and one outbox, the latter in insertion order. -/
structure SagaShared (I St : Type) where
  store : InMemorySagaStore I St
  outbox : List OutboxMessage

namespace SagaRunner

variable {I St E C ε : Type} [DecidableEq I]

/-- The effect of one operation. -/
def serve (runner : SagaRunner I St E C ε) (s : SagaShared I St) (choice : SagaChoice I) :
    (op : SagaOp I St E) → Option (SagaShared I St × op.Reply C ε)
  | .load id => some (s, s.store.load id)
  | .react current event => some (s, runner.saga.react current event)
  | .onTimeout inst => some (s, runner.saga.onTimeout inst)
  | .utcNow => some (s, choice.now)
  | .nowV7 => some (s, choice.uuid)
  | .save inst => some ({ s with store := (s.store.save inst).1 }, (s.store.save inst).2)
  | .claimDue now lease limit =>
      if choice.order.Perm s.store.keys then
        let out := s.store.claimDue choice.order now lease limit
        some ({ s with store := out.1 }, .ok out.2)
      else none
  | .insert message =>
      match choice.outboxError with
      | some error => some (s, .error error)
      | none => some ({ s with outbox := s.outbox ++ [message] }, .ok ())

/-- The program of one call. -/
def body (runner : SagaRunner I St E C ε) : SagaCall E → RunnerM I St E C ε (SagaReturn ε)
  | .handle event => do
      let result ← runner.handle event
      pure (.handled result)
  | .runDueTimeouts now lease limit => do
      let result ← runner.runDueTimeouts now lease limit
      pure (.swept result)

/-- Any number of calls, each started at any time, over one store and one outbox. -/
def system (runner : SagaRunner I St E C ε) :
    System (sagaSignature I St E C ε) (SagaShared I St) (SagaChoice I) (SagaCall E) (SagaCall E)
      (SagaReturn ε) where
  serve := runner.serve
  arrive s call := some (s, [call])
  body := runner.body

/-- A configuration of concurrent runner calls. -/
abbrev SagaPool (I St E C ε : Type) :=
  Pool (sagaSignature I St E C ε) (SagaShared I St) (SagaChoice I) (SagaCall E) (SagaReturn ε)

abbrev SagaEvent (I St E C ε : Type) := Event (sagaSignature I St E C ε) (SagaChoice I)

abbrev SagaEntry (I St E C ε : Type) :=
  Entry (sagaSignature I St E C ε) (SagaShared I St) (SagaChoice I) (SagaCall E)

/-- An empty store, an empty outbox and no calls yet. -/
def initial : SagaPool I St E C ε where
  shared := { store := ∅, outbox := [] }

/-! ## A small saga

Events name a saga and an amount.  The first one starts it, later ones add their
amount and command it, and the amount 0 completes it. -/

/-- A saga that adds up amounts. -/
def tally : SagaRunner ℕ ℕ (ℕ × ℕ) ℕ String where
  saga :=
    { idFor := fun event => some event.1
      react := fun current event =>
        match current with
        | none => .ok (.start event.2 [event.2] (some 0))
        | some inst =>
            if event.2 = 0 then .ok (.complete inst.state [])
            else .ok (.advance (inst.state + event.2) [event.2] none) }
  mapCommand command := { messageId := command, topic := "tally" }

/-- Saga 7 starts with 1; calls adding 2 and 3 then both load version 1 of it. -/
def tallyRace : List (Action (SagaChoice ℕ) (SagaCall (ℕ × ℕ))) :=
  List.flatten [
    [.arrive (.handle (7, 1)), .arrive (.handle (7, 2)), .arrive (.handle (7, 3))],
    List.replicate 7 (.step 0 {}), [.step 1 {}, .step 2 {}],
    List.replicate 6 (.step 1 {}), List.replicate 10 (.step 2 {})]

end SagaRunner

end Pharos

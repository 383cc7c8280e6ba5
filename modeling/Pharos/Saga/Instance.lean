import Pharos.Messaging.Outbox

/-!
# Sagas

`pharos-saga/src/lib.rs`: the persisted instance, the transitions a saga computes
and the errors of its store and its runner.
-/

namespace Pharos

/-- Lifecycle of a saga instance. -/
inductive SagaStatus where
  | running
  | completed
  | failed
  deriving DecidableEq

/-- Persisted state for one saga instance. -/
structure SagaInstance (I St : Type) where
  id : I
  state : St
  status : SagaStatus
  deadline : Option Time
  updatedAt : Time
  version : ℕ
  deriving DecidableEq

/-- Transition produced by a saga in response to an event or timeout. -/
inductive SagaTransition (St C : Type) where
  | ignore
  | start (state : St) (commands : List C) (deadline : Option Time)
  | advance (state : St) (commands : List C) (deadline : Option Time)
  | complete (state : St) (commands : List C)
  | fail (reason : String) (commands : List C)
  deriving DecidableEq

/-- Error returned by `SagaStore::save`. -/
inductive SagaSaveError (StoreE : Type) where
  | concurrencyConflict (expected : ℕ) (actual : Option ℕ)
  | storage (error : StoreE)
  deriving DecidableEq

/-- Error returned by the runner. -/
inductive SagaRunnerError (ε StoreE : Type) where
  | saga (error : ε)
  | store (error : StoreE)
  | enqueue (error : OutboxError)
  | failed (reason : String)
  | conflict (expected : ℕ) (actual : Option ℕ)
  deriving DecidableEq

/-- A lost race becomes `conflict`, everything else `store`. -/
def SagaRunnerError.fromSaveError {ε StoreE : Type} :
    SagaSaveError StoreE → SagaRunnerError ε StoreE
  | .concurrencyConflict expected actual => .conflict expected actual
  | .storage error => .store error

variable {I St E C ε : Type}

namespace SagaInstance

/-- `SagaInstance::running`, at the instant `Utc::now` read. -/
def running (id : I) (state : St) (now : Time) : SagaInstance I St where
  id := id
  state := state
  status := .running
  deadline := none
  updatedAt := now
  version := 0

/-- What a transition is computed from and changes. -/
def view (inst : SagaInstance I St) : St × SagaStatus := (inst.state, inst.status)

/-- The saga reached `completed` or `failed`. -/
def Terminal (inst : SagaInstance I St) : Prop := inst.status ≠ .running

instance (inst : SagaInstance I St) : Decidable inst.Terminal :=
  inferInstanceAs (Decidable (inst.status ≠ .running))

end SagaInstance

namespace SagaTransition

/-- The follow-up commands, in the order the saga listed them. -/
def commands : SagaTransition St C → List C
  | .ignore => []
  | .start _ commands _ => commands
  | .advance _ commands _ => commands
  | .complete _ commands => commands
  | .fail _ commands => commands

/-- `matches!(transition, SagaTransition::Ignore)`. -/
def isIgnore : SagaTransition St C → Bool
  | .ignore => true
  | _ => false

/-- The abstract effect of a transition on the state and the status of an instance,
`none` standing for an instance that does not exist. -/
def apply : Option (St × SagaStatus) → SagaTransition St C → Option (St × SagaStatus)
  | before, .ignore => before
  | _, .start state _ _ => some (state, .running)
  | _, .advance state _ _ => some (state, .running)
  | _, .complete state _ => some (state, .completed)
  | before, .fail _ _ => before.map fun old => (old.1, .failed)

end SagaTransition

/-- The state machine a user supplies. -/
structure Saga (I St E C ε : Type) where
  idFor : E → Option I
  react : Option (SagaInstance I St) → E → Except ε (SagaTransition St C)
  onTimeout : SagaInstance I St → Except ε (SagaTransition St C) :=
    fun _ => .ok (.fail "saga deadline elapsed" [])

end Pharos

import Pharos.Aggregate
import Pharos.Async.Program

/-!
# Saving and publishing

`pharos-app/src/service.rs` and `error.rs`.  `save_and_publish` is generic in the repository and
the bus: both are programs over operations that the caller chooses.  A method that takes
`&mut aggregate` returns the aggregate it leaves behind beside its result, on every path.
-/

namespace Pharos

open Async

/-- Errors produced while publishing events through the event bus. -/
inductive EventBusError where
  | handlerError (eventType source : String)
  | handlerErrors (eventType : String) (errors : List EventBusError)
  | decodeError (topic source : String)
  | cascadeFailed (eventType source : String)

/-- The `Display` text. -/
def EventBusError.toText : EventBusError → String
  | .handlerError eventType source =>
      "event handler failed for '" ++ eventType ++ "': " ++ source
  | .handlerErrors eventType errors =>
      toString errors.length ++ " event handlers failed for '" ++ eventType ++ "'"
  | .decodeError topic source =>
      "failed to decode payload for topic '" ++ topic ++ "': " ++ source
  | .cascadeFailed eventType source =>
      "cascaded command failed for '" ++ eventType ++ "': " ++ source

/-- Error returned by the application-layer orchestration helpers. -/
inductive ApplicationError where
  | repository (source : String)
  | concurrencyConflict (expected : ℕ) (actual : Option ℕ)
  | eventBus (error : EventBusError)

/-- Maps a repository error into the application-level error type. -/
def mapRepositoryError : RepositoryError → ApplicationError
  | .concurrencyConflict expected actual => .concurrencyConflict expected actual
  | .storage source => .repository source

section Service

variable {S : Signature} {St E : Type}

/-- `Repository::save`: the aggregate it leaves behind, and its result. -/
abbrev SaveM (S : Signature) (St E : Type) :=
  Aggregate St E → Program S (Aggregate St E × Except RepositoryError Unit)

/-- `EventBus::publish`. -/
abbrev PublishM (S : Signature) (E : Type) := E → Program S (Except EventBusError Unit)

/-- Publishes an owned batch, restoring whatever did not make it onto the aggregate. -/
def publishBatch (publish : PublishM S E) (aggregate : Aggregate St E) :
    List E → Program S (Aggregate St E × Except ApplicationError Unit)
  | [] => pure (aggregate, .ok ())
  | event :: remaining => do
      match ← publish event with
      | .error error => pure (aggregate.restoreEvents (event :: remaining), .error (.eventBus error))
      | .ok () => publishBatch publish aggregate remaining

/-- Persists an aggregate and publishes all of its pending domain events. -/
def saveAndPublish (save : SaveM S St E) (publish : PublishM S E) (aggregate : Aggregate St E) :
    Program S (Aggregate St E × Except ApplicationError Unit) := do
  let events := aggregate.pending
  match ← save aggregate with
  | (aggregate, .error error) => pure (aggregate, .error (mapRepositoryError error))
  | (aggregate, .ok ()) =>
      let (aggregate, _) := aggregate.drainEvents
      publishBatch publish aggregate events

/-- Publishes an aggregate's pending domain events without saving it. -/
def republishPending (publish : PublishM S E) (aggregate : Aggregate St E) :
    Program S (Aggregate St E × Except ApplicationError Unit) :=
  let (aggregate, events) := aggregate.drainEvents
  publishBatch publish aggregate events

/-! ## Where an error comes from -/

variable {σ : Type} {handle : σ → (op : S.Op) → σ × S.Reply op} {save : SaveM S St E}
  {publish : PublishM S E} {aggregate : Aggregate St E} {s : σ}

/-- Publishing fails with an error of the bus. -/
theorem publishBatch_error (events : List E) {error : ApplicationError}
    (failed : ((publishBatch publish aggregate events).eval handle s).2.2 = .error error) :
    ∃ fault, error = .eventBus fault := by
  induction events generalizing s with
  | nil => cases failed
  | cons event remaining ih =>
      rw [publishBatch, Program.eval_bind] at failed
      split at failed
      · next fault _ =>
        cases failed
        exact ⟨fault, rfl⟩
      · exact ih failed

theorem mapRepositoryError_ne_eventBus (error : RepositoryError) (fault : EventBusError) :
    mapRepositoryError error ≠ .eventBus fault := by
  cases error with
  | concurrencyConflict expected actual => exact nofun
  | storage source => exact nofun

/-- A failed save is passed on, with the aggregate as the repository left it. -/
theorem saveAndPublish_of_error {error : RepositoryError}
    (failed : ((save aggregate).eval handle s).2.2 = .error error) :
    ((saveAndPublish save publish aggregate).eval handle s).2 =
      (((save aggregate).eval handle s).2.1, .error (mapRepositoryError error)) := by
  rw [saveAndPublish, Program.eval_bind]
  split
  · next after other same =>
    rw [same] at failed ⊢
    cases failed
    rfl
  · next after same =>
    rw [same] at failed
    cases failed

/-- After a successful save only the bus can fail. -/
theorem saveAndPublish_of_ok (saved : ((save aggregate).eval handle s).2.2 = .ok ())
    (error : RepositoryError) :
    ((saveAndPublish save publish aggregate).eval handle s).2.2 ≠
      .error (mapRepositoryError error) := by
  intro failed
  rw [saveAndPublish, Program.eval_bind] at failed
  split at failed
  · next after other same =>
    rw [same] at saved
    cases saved
  · obtain ⟨fault, same⟩ := publishBatch_error _ failed
    exact mapRepositoryError_ne_eventBus error fault same

end Service

end Pharos

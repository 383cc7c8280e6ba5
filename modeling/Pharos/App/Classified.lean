import Pharos.App.AggregateStore
import Pharos.App.Command
import Pharos.Classify

/-!
# The errors that cross a layer

The `ClassifiedError` implementations of `pharos-core/src/repository.rs` and of
`pharos-app/src/command.rs`, `error.rs` and `aggregate_store.rs`, and the texts of the errors they
classify.
-/

namespace Pharos

/-- The `Display` text. -/
def FieldViolation.toText (violation : FieldViolation) : String :=
  if violation.path.isEmpty then violation.message else violation.path ++ ": " ++ violation.message

/-- What `Display` writes from a violation on; only the first follows a colon. -/
def violationTexts : String → List FieldViolation → String
  | _, [] => ""
  | separator, violation :: violations =>
      separator ++ violation.toText ++ violationTexts "; " violations

/-- The `Display` text. -/
def ValidationError.toText (error : ValidationError) : String :=
  "invalid input" ++ violationTexts ": " error.violations

/-- The `Display` text. -/
def StoreError.toText : StoreError → String
  | .notFound => "aggregate not found"
  | .concurrencyConflict expected actual => conflictText expected actual
  | .storage source => "aggregate store failed: " ++ source

instance : ClassifiedError RepositoryError where
  kind
    | .concurrencyConflict _ _ => .conflict
    | .storage _ => .internal
  publicMessage
    | .concurrencyConflict expected actual => conflictText expected actual
    | .storage _ => "internal storage error"

instance : ClassifiedError ValidationError where
  kind _ := .validation
  publicMessage := ValidationError.toText

instance : ClassifiedError StoreError where
  kind
    | .notFound => .notFound
    | .concurrencyConflict _ _ => .conflict
    | .storage _ => .internal
  publicMessage
    | .storage _ => "internal storage error"
    | error => error.toText

instance : ClassifiedError ApplicationError where
  kind
    | .concurrencyConflict _ _ => .conflict
    | .repository _ | .eventBus _ => .internal
  publicMessage
    | .concurrencyConflict expected actual => conflictText expected actual
    | _ => "internal application error"

instance {E : Type} [ClassifiedError E] : ClassifiedError (DispatchError E) where
  kind
    | .validation _ => .validation
    | .handler error => ClassifiedError.kind error
  publicMessage
    | .validation error => ClassifiedError.publicMessage error
    | .handler error => ClassifiedError.publicMessage error

end Pharos

/-!
# Error classification

`pharos-core/src/classify.rs` and `errors.rs`: the small vocabulary in which a layer tells the one
above how to react to a failure, and the errors of the domain.
-/

namespace Pharos

/-- Layer-agnostic classification of a failure. -/
inductive ErrorKind where
  | notFound
  | validation
  | conflict
  | unauthorized
  | forbidden
  | rateLimited
  | unavailable
  | internal
  deriving DecidableEq

/-- `ClassifiedError`: how the layer above should react, and the text that is safe to return. -/
class ClassifiedError (E : Type) where
  kind : E → ErrorKind
  publicMessage : E → String

/-- Common error type for domain validation and business rule failures. -/
inductive DomainError where
  | notFound (message : String)
  | validation (message : String)
  | businessRule (message : String)
  | conflict (message : String)
  deriving DecidableEq

/-- The `Display` text. -/
def DomainError.toText : DomainError → String
  | .notFound message => "not found: " ++ message
  | .validation message => "validation: " ++ message
  | .businessRule message => "business rule violation: " ++ message
  | .conflict message => "conflict: " ++ message

instance : ClassifiedError DomainError where
  kind
    | .notFound _ => .notFound
    | .validation _ => .validation
    | .businessRule _ | .conflict _ => .conflict
  publicMessage := DomainError.toText

end Pharos

import Mathlib.Data.List.Basic

/-!
# Aggregates

`pharos-core/src/aggregate.rs` and `repository.rs`: the domain state, the version that
optimistic concurrency compares, and the events waiting to be published.  An event-sourced
kind of aggregate (`pharos-es/src/lib.rs`) says where a life begins and how an event moves
the domain state; applying an event touches neither the version nor the pending events.
-/

namespace Pharos

/-- Errors of repositories, with the text of their source. -/
inductive RepositoryError where
  | concurrencyConflict (expected : ℕ) (actual : Option ℕ)
  | storage (source : String)
  deriving DecidableEq

/-- An aggregate root. -/
structure Aggregate (St E : Type) where
  state : St
  version : ℕ := 0
  pending : List E := []
  deriving DecidableEq

namespace Aggregate

variable {St E : Type}

/-- `AggregateRoot::drain_events`. -/
def drainEvents (aggregate : Aggregate St E) : Aggregate St E × List E :=
  ({ aggregate with pending := [] }, aggregate.pending)

/-- `AggregateRoot::restore_events`: back to the front of the buffer. -/
def restoreEvents (aggregate : Aggregate St E) (events : List E) : Aggregate St E :=
  if events.isEmpty then aggregate else { aggregate with pending := events ++ aggregate.pending }

/-- `AggregateRoot::set_version`. -/
def setVersion (aggregate : Aggregate St E) (version : ℕ) : Aggregate St E :=
  { aggregate with version := version }

end Aggregate

/-- A kind of event-sourced aggregate: its id, `Default::default` and `EventSourced::apply`. -/
structure EventSourced (I St E : Type) where
  id : St → I
  default : St
  apply : St → E → St

namespace EventSourced

variable {I St E : Type} (kind : EventSourced I St E)

/-- The state after a history of events. -/
def fold (events : List E) : St := events.foldl kind.apply kind.default

theorem fold_append (first second : List E) :
    kind.fold (first ++ second) = second.foldl kind.apply (kind.fold first) :=
  List.foldl_append

end EventSourced

end Pharos

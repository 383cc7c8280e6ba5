import Mathlib.Data.List.Range
import Pharos.Aggregate
import Pharos.Memory.DashMap

/-!
# The in-memory event store

`pharos-memory/src/in_memory_event_store.rs`.  A stream is numbered from 1 without gaps, and
the store carries this with it.  `append` checks the expected version against the length of
the stream and pushes under the lock of one entry; the vacant and the occupied branch number
the events in two different ways.  The timestamps of events and snapshots are not kept: no
function reads them.
-/

namespace Pharos

/-- One event persisted in an event stream. -/
structure StoredEvent (E : Type) where
  sequence : ℕ
  event : E
  deriving DecidableEq

/-- Materialized snapshot of an aggregate. -/
structure Snapshot (A : Type) where
  state : A
  version : ℕ
  deriving DecidableEq

variable {E : Type}

/-- The sequences are 1, 2, …, n. -/
def Numbered (stream : List (StoredEvent E)) : Prop :=
  stream.map StoredEvent.sequence = List.range' 1 stream.length

/-- The push loop of `append` over an occupied entry. -/
def pushAll : List (StoredEvent E) → ℕ → List E → List (StoredEvent E)
  | stream, _, [] => stream
  | stream, sequence, event :: events =>
      pushAll (stream ++ [⟨sequence + 1, event⟩]) (sequence + 1) events

/-- The stream that `append` collects for a vacant entry. -/
def enumerated (events : List E) : List (StoredEvent E) :=
  events.zipIdx.map fun indexed => ⟨indexed.2 + 1, indexed.1⟩

/-- The events with the numbers that follow `sequence`. -/
def numberFrom (sequence : ℕ) (events : List E) : List (StoredEvent E) :=
  (events.zipIdx sequence).map fun indexed => ⟨indexed.2 + 1, indexed.1⟩

theorem pushAll_eq (stream : List (StoredEvent E)) (sequence : ℕ) (events : List E) :
    pushAll stream sequence events = stream ++ numberFrom sequence events := by
  induction events generalizing stream sequence with
  | nil => simp [pushAll, numberFrom]
  | cons event events ih => simp [pushAll, numberFrom, ih, List.zipIdx_cons]

@[simp] theorem map_event_numberFrom (sequence : ℕ) (events : List E) :
    (numberFrom sequence events).map StoredEvent.event = events := by
  unfold numberFrom
  rw [List.map_map]
  exact List.zipIdx_map_fst sequence events

@[simp] theorem map_sequence_numberFrom (sequence : ℕ) (events : List E) :
    (numberFrom sequence events).map StoredEvent.sequence =
      List.range' (sequence + 1) events.length := by
  unfold numberFrom
  induction events generalizing sequence with
  | nil => rfl
  | cons event events ih =>
      simp only [List.zipIdx_cons, List.map_cons, List.length_cons, List.range'_succ]
      rw [ih (sequence + 1)]

@[simp] theorem length_numberFrom (sequence : ℕ) (events : List E) :
    (numberFrom sequence events).length = events.length := by
  simp [numberFrom]

theorem numbered_append {stream : List (StoredEvent E)} (numbered : Numbered stream)
    (events : List E) : Numbered (stream ++ numberFrom stream.length events) := by
  unfold Numbered at numbered ⊢
  rw [List.map_append, numbered, map_sequence_numberFrom, List.length_append, length_numberFrom,
    Nat.add_comm stream.length 1, List.range'_append_1]

theorem filter_eq_drop_of_range' {stream : List (StoredEvent E)} {start : ℕ}
    (numbered : stream.map StoredEvent.sequence = List.range' (start + 1) stream.length)
    (after : ℕ) : (stream.filter fun stored => decide (after < stored.sequence)) =
      stream.drop (after - start) := by
  induction stream generalizing start with
  | nil => rw [List.drop_nil, List.filter_nil]
  | cons head stream ih =>
      rw [List.map_cons, List.length_cons, List.range'_succ] at numbered
      obtain ⟨first, rest⟩ := List.cons.inj numbered
      rw [List.filter_cons, ih rest, first]
      by_cases kept : after ≤ start
      · have none : after - start = 0 := by omega
        have none' : after - (start + 1) = 0 := by omega
        have above : after < start + 1 := by omega
        rw [if_pos (decide_eq_true above), none, none', List.drop_zero, List.drop_zero]
      · have some : after - start = after - (start + 1) + 1 := by omega
        have below : ¬ after < start + 1 := by omega
        rw [if_neg (by simpa using below), some, List.drop_succ_cons]

/-- In a numbered stream the events after a sequence are those behind that many. -/
theorem Numbered.filter_eq_drop {stream : List (StoredEvent E)} (numbered : Numbered stream)
    (after : ℕ) : (stream.filter fun stored => decide (after < stored.sequence)) =
      stream.drop after :=
  filter_eq_drop_of_range' numbered after

theorem enumerated_eq (events : List E) : enumerated events = numberFrom 0 events := rfl

theorem numbered_enumerated (events : List E) : Numbered (enumerated events) := by
  have empty : Numbered ([] : List (StoredEvent E)) := rfl
  exact numbered_append empty events

/-! ## The store -/

variable {I : Type} [DecidableEq I]

/-- The streams, each of them numbered. -/
structure InMemoryEventStore (I E : Type) [DecidableEq I] where
  streams : DashMap I (List (StoredEvent E))
  numbered : ∀ id stream, streams.get id = some stream → Numbered stream

namespace InMemoryEventStore

/-- An empty store. -/
def new : InMemoryEventStore I E where
  streams := ∅
  numbered _ _ found := by cases found

/-- `EventStore::load`. -/
def load (store : InMemoryEventStore I E) (id : I) : List (StoredEvent E) :=
  (store.streams.get id).getD []

/-- The events of a stream. -/
def events (store : InMemoryEventStore I E) (id : I) : List E := (store.load id).map (·.event)

theorem numbered_load (store : InMemoryEventStore I E) (id : I) : Numbered (store.load id) := by
  unfold load
  cases found : store.streams.get id with
  | none => rfl
  | some stream => exact store.numbered id stream found

@[simp] theorem length_events (store : InMemoryEventStore I E) (id : I) :
    (store.events id).length = (store.load id).length :=
  List.length_map ..

/-- Write a numbered stream. -/
def write (store : InMemoryEventStore I E) (id : I) (stream : List (StoredEvent E))
    (valid : Numbered stream) : InMemoryEventStore I E where
  streams := store.streams.put id stream
  numbered other found at_ := by
    rw [DashMap.get_put] at at_
    split at at_
    · cases at_
      exact valid
    · exact store.numbered other found at_

/-- `EventStore::append`. -/
def append (store : InMemoryEventStore I E) (id : I) (expected : ℕ) (events : List E) :
    InMemoryEventStore I E × Except RepositoryError Unit :=
  match found : store.streams.get id with
  | some stream =>
      let actual := stream.length
      if actual ≠ expected then (store, .error (.concurrencyConflict expected (some actual)))
      else
        (store.write id (pushAll stream actual events) (by
          rw [pushAll_eq]
          exact numbered_append (store.numbered id stream found) events), .ok ())
  | none =>
      if expected ≠ 0 then (store, .error (.concurrencyConflict expected none))
      else (store.write id (enumerated events) (numbered_enumerated events), .ok ())

/-- `EventStore::delete_stream`. -/
def deleteStream (store : InMemoryEventStore I E) (id : I) :
    InMemoryEventStore I E × Except String Unit :=
  ({ streams := store.streams.remove id
     numbered := fun other stream found => by
       rw [DashMap.get_remove] at found
       split at found
       · cases found
       · exact store.numbered other stream found }, .ok ())

variable {store store' : InMemoryEventStore I E} {id other : I} {expected : ℕ} {batch : List E}

theorem load_write {stream : List (StoredEvent E)} {valid : Numbered stream} :
    (store.write id stream valid).load other = if other = id then stream else store.load other := by
  unfold load write
  rw [DashMap.get_put]
  split
  · rfl
  · rfl

/-- What `append` can do: refuse and change nothing, or add the batch to a stream of the expected
length. -/
theorem append_cases {reply : Except RepositoryError Unit}
    (appended : store.append id expected batch = (store', reply)) :
    (store' = store ∧ ∃ actual, reply = .error (.concurrencyConflict expected actual)) ∨
    (reply = .ok () ∧ (store.load id).length = expected ∧ ∀ other, store'.load other =
      if other = id then store.load id ++ numberFrom expected batch else store.load other) := by
  unfold append at appended
  split at appended
  · next stream found =>
    have loaded : store.load id = stream := by
      unfold load
      rw [found]
      rfl
    dsimp only at appended
    split at appended
    · cases appended
      exact .inl ⟨rfl, _, rfl⟩
    · next same =>
      have length : stream.length = expected := not_not.mp same
      cases appended
      refine .inr ⟨rfl, by rw [loaded, length], fun other => ?_⟩
      rw [load_write, pushAll_eq, loaded, length]
  · next found =>
    have loaded : store.load id = [] := by
      unfold load
      rw [found]
      rfl
    split at appended
    · cases appended
      exact .inl ⟨rfl, _, rfl⟩
    · next same =>
      have zero : expected = 0 := not_not.mp same
      cases appended
      refine .inr ⟨rfl, by rw [loaded, zero]; rfl, fun other => ?_⟩
      rw [load_write, loaded, zero, enumerated_eq, List.nil_append]

theorem load_deleteStream :
    (store.deleteStream id).1.load other = if other = id then [] else store.load other := by
  unfold load deleteStream
  rw [DashMap.get_remove]
  split
  · rfl
  · rfl

end InMemoryEventStore

/-- In-memory snapshot store. -/
abbrev InMemorySnapshotStore (I A : Type) := DashMap I (Snapshot A)

end Pharos

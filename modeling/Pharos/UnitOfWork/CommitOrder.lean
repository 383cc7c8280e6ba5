import Pharos.UnitOfWork.WriterMoves

/-!
# The order of events in the outbox

A save stamps its messages before it takes the mutex, so the order of the stamps and the order of
the commits could differ.  They do not, for one aggregate: a commit has to find the version that its
writer had loaded, so it was stamped after the commit of that version and before the next one.
-/

namespace Pharos

namespace OutboxWriter

open Async

open InMemoryUnitOfWork (storedVersion stored Undrawn)

/-! ## When messages are stamped -/

section Stamps

variable {I St E : Type} [DecidableEq I] {idOf : St → I} {mode : OutboxMode E}
  {outbox : InMemoryOutboxRepository} {p : WriterPool E idOf} {i : ℕ}
  {trace : List (WriterEntry E idOf)} {running : Attempt St E}

/-- The message that an entry made, and the aggregate it is for. -/
def makes (entry : WriterEntry E idOf) : Option (I × OutboxMessage) :=
  match entry.event with
  | ⟨_, .unitOfWork (.nowV7 _ _ _), record⟩ =>
      (attempt entry.past).map fun running => (idOf running.aggregate.state, record)
  | _ => none

theorem drawOf_of_makes {entry : WriterEntry E idOf} {id : I} {record : OutboxMessage}
    (made : makes entry = some (id, record)) : drawOf entry.event = some record.id := by
  obtain ⟨task, args, past, before, ⟨choice, op, reply⟩⟩ := entry
  cases op with
  | unitOfWork op =>
      cases op with
      | nowV7 number now message =>
          obtain ⟨running, -, same⟩ := Option.map_eq_some_iff.mp made
          cases same
          rfl
      | _ => cases made
  | _ => cases made

/-- An entry of the trace that found the version of the save, or a later one. -/
def Met (trace : List (WriterEntry E idOf)) (running : Attempt St E)
    (P : WriterEntry E idOf → Prop) : Prop :=
  ∃ entry ∈ trace, P entry ∧
    running.aggregate.version ≤ storedVersion entry.before (idOf running.aggregate.state)

theorem Met.concat {P : WriterEntry E idOf → Prop} (met : Met trace running P)
    (last : WriterEntry E idOf) : Met (trace ++ [last]) running P := by
  obtain ⟨entry, member, holds⟩ := met
  exact ⟨entry, List.mem_append_left _ member, holds⟩

/-- The messages of a save were stamped one after the other, not before its version was there. -/
structure Stamped (trace : List (WriterEntry E idOf)) (i : ℕ) (running : Attempt St E) : Prop where
  drawn : ∀ record ∈ running.made, Met trace running fun entry =>
    entry.task = i ∧ makes entry = some (idOf running.aggregate.state, record)
  read : ∀ record ∈ running.made, Met trace running fun entry =>
    clockOf entry.event = some record.createdAt
  ordered : running.made.Pairwise OutboxMessage.Before
  clock : ∀ payload now, running.phase = .building payload (some now) →
    (Met trace running fun entry => clockOf entry.event = some now) ∧
      ∀ record ∈ running.made, record.createdAt ≤ now

/-- A save that has no reading of the clock at hand keeps its stamps. -/
theorem Stamped.concat {phase : Phase} (stamped : Stamped trace i running)
    (last : WriterEntry E idOf)
    (unread : ∀ payload now, phase = .building payload (some now) → phase = running.phase) :
    Stamped (trace ++ [last]) i { running with phase := phase } where
  drawn record member := (stamped.drawn record member).concat last
  read record member := (stamped.read record member).concat last
  ordered := stamped.ordered
  clock payload now at_phase := by
    have same := unread payload now at_phase
    obtain ⟨met, after⟩ := stamped.clock payload now (same ▸ at_phase)
    exact ⟨met.concat last, after⟩

theorem stamped_of_reaches (reached : Reached mode outbox p) :
    ∀ (i : ℕ) (t : RunningWriter E idOf) (running : Attempt St E), p.tasks[i]? = some t →
      attempt t.past = some running → Stamped p.trace i running := by
  refine forall_attempts (R := fun _ trace i running => Stamped trace i running) reached
    (fun stamped => stamped) ?_ ?_
  · intro q i t event shared before running reached found was move own
    cases move with
    | start knows =>
        exact ⟨fun _ member => (by cases member), fun _ member => (by cases member), .nil,
          fun _ _ at_phase => (by cases at_phase)⟩
    | read later =>
        have stamped := own _ rfl
        have began := version_le_of_reaches reached i t _ found was
        refine ⟨fun record member => (stamped.drawn record member).concat _,
          fun record member => (stamped.read record member).concat _, stamped.ordered, ?_⟩
        intro payload now at_phase
        cases at_phase
        refine ⟨⟨_, List.mem_append_right _ (List.mem_singleton_self _), rfl, began⟩, ?_⟩
        intro record member
        obtain ⟨entry, among, reading, -⟩ := stamped.read record member
        exact later entry among _ reading
    | make next undrawn fresh built =>
        have stamped := own _ rfl
        have began := version_le_of_reaches reached i t _ found was
        obtain ⟨met, after⟩ := stamped.clock _ _ rfl
        refine ⟨?_, ?_, ?_, fun _ _ at_phase => (by cases at_phase)⟩
        · intro record member
          rcases List.mem_append.mp member with old | last
          · exact (stamped.drawn record old).concat _
          · cases List.mem_singleton.mp last
            refine ⟨_, List.mem_append_right _ (List.mem_singleton_self _), ⟨rfl, ?_⟩, began⟩
            show (attempt t.past).map _ = _
            rw [was]
            rfl
        · intro record member
          rcases List.mem_append.mp member with old | last
          · exact (stamped.read record old).concat _
          · cases List.mem_singleton.mp last
            rw [built]
            exact met.concat _
        · refine List.pairwise_append.mpr ⟨stamped.ordered, List.pairwise_singleton _ _, ?_⟩
          intro record member last same
          cases List.mem_singleton.mp same
          obtain ⟨entry, among, ⟨-, made⟩, -⟩ := stamped.drawn record member
          have smaller := fresh entry among _ (drawOf_of_makes made)
          rw [built]
          rcases (after record member).lt_or_eq with before | together
          · exact .inl before
          · exact .inr ⟨together, smaller⟩
    | signal => exact (own _ rfl).concat _ fun _ _ _ => rfl
    | identify fresh => exact (own _ rfl).concat _ fun _ _ _ => rfl
    | _ =>
        have stamped := own _ rfl
        exact stamped.concat _ fun _ _ at_phase => (by cases at_phase)
  · intro q i j t event shared before after running _ _ _ _ _ _ _ stamped
    exact stamped.concat _ fun _ _ _ => rfl

end Stamps

/-! ## What messages are made of -/

section Messages

variable {I St E : Type} [DecidableEq I] {idOf : St → I} {mode : OutboxMode E}
  {outbox : InMemoryOutboxRepository} {p : WriterPool E idOf}
  {trace : List (WriterEntry E idOf)} {running : Attempt St E}

/-- What `serde_json::to_vec` made of an event. -/
def serialized : WriterEvent I St E → Option (E × List UInt8)
  | ⟨_, .toVec event, .ok payload⟩ => some (event, payload)
  | _ => none

/-- The message of an event, with the payload that was obtained for it. -/
def Encodes (mode : OutboxMode E) (trace : List (WriterEntry E idOf)) (event : E)
    (record : OutboxMessage) : Prop :=
  ∃ entry ∈ trace, ∃ id payload, serialized entry.event = some (event, payload) ∧ record.message =
    DefaultAggregateStore.messageOf mode.events mode.enrichers mode.topic id payload event

theorem Encodes.concat {event : E} {record : OutboxMessage} (encodes : Encodes mode trace event record)
    (last : WriterEntry E idOf) : Encodes mode (trace ++ [last]) event record := by
  obtain ⟨entry, member, encoded⟩ := encodes
  exact ⟨entry, List.mem_append_left _ member, encoded⟩

/-- The messages of a save are those of its events, in order. -/
structure Mapped (mode : OutboxMode E) (trace : List (WriterEntry E idOf)) (running : Attempt St E) :
    Prop where
  encoded : List.Forall₂ (Encodes mode trace) (running.aggregate.pending.take running.made.length)
    running.made
  payload : ∀ bytes clock, running.phase = .building (some bytes) clock → ∃ entry ∈ trace, ∃ event,
    running.aggregate.pending[running.made.length]? = some event ∧
      serialized entry.event = some (event, bytes)
  complete : (∀ payload clock, running.phase ≠ .building payload clock) →
    running.made.length = running.aggregate.pending.length
  left : ∀ left, running.phase = .committing left → left <:+ running.made

/-- More of the trace says nothing else about a save. -/
theorem Mapped.concat (mapped : Mapped mode trace running) (last : WriterEntry E idOf) :
    Mapped mode (trace ++ [last]) running where
  encoded := mapped.encoded.imp fun _ _ encodes => encodes.concat last
  payload bytes clock at_phase := by
    obtain ⟨entry, member, event, next, same⟩ := mapped.payload bytes clock at_phase
    exact ⟨entry, List.mem_append_left _ member, event, next, same⟩
  complete := mapped.complete
  left := mapped.left

/-- A save that has made all its messages goes on. -/
theorem Mapped.goes (mapped : Mapped mode trace running) (phase : Phase)
    (complete : running.made.length = running.aggregate.pending.length)
    (built : ∀ payload clock, phase ≠ .building payload clock)
    (left : ∀ left, phase = .committing left → left <:+ running.made) :
    Mapped mode trace { running with phase := phase } where
  encoded := mapped.encoded
  payload _ _ at_phase := absurd at_phase (built _ _)
  complete _ := complete
  left := left

theorem mapped_of_reaches (reached : Reached mode outbox p) :
    ∀ (i : ℕ) (t : RunningWriter E idOf) (running : Attempt St E), p.tasks[i]? = some t →
      attempt t.past = some running → Mapped mode p.trace running := by
  refine forall_attempts (R := fun _ trace _ running => Mapped mode trace running) reached
    (fun mapped => mapped) ?_ ?_
  · intro q i t event shared before running reached found was move own
    cases move with
    | start knows =>
        exact ⟨.nil, fun _ _ at_phase => (by cases at_phase),
          fun built => absurd rfl (built none none), fun _ at_phase => (by cases at_phase)⟩
    | @serialize choice aggregate made event payload next =>
        have mapped := own _ rfl
        refine ⟨(mapped.concat _).encoded, ?_, fun built => absurd rfl (built _ _),
          fun _ at_phase => (by cases at_phase)⟩
        intro bytes clock at_phase
        cases payload with
        | error error => cases at_phase
        | ok payload =>
            cases at_phase
            exact ⟨_, List.mem_append_right _ (List.mem_singleton_self _), event, next, rfl⟩
    | read later =>
        have mapped := own _ rfl
        refine ⟨(mapped.concat _).encoded, ?_, fun built => absurd rfl (built _ _),
          fun _ at_phase => (by cases at_phase)⟩
        intro bytes clock at_phase
        cases at_phase
        exact (mapped.concat _).payload bytes none rfl
    | make next undrawn fresh built =>
        have mapped := own _ rfl
        refine ⟨?_, fun _ _ at_phase => (by cases at_phase), fun built => absurd rfl (built none none),
          fun _ at_phase => (by cases at_phase)⟩
        obtain ⟨entry, member, event, at_event, same⟩ := mapped.payload _ _ rfl
        cases at_event.symm.trans next
        rw [List.length_append, List.length_singleton, List.take_add_one, next]
        refine List.rel_append (mapped.concat _).encoded (.cons ?_ .nil)
        exact ⟨entry, List.mem_append_left _ member, _, _, same, congrArg OutboxMessage.message built⟩
    | signal => exact (own _ rfl).concat _
    | identify fresh => exact (own _ rfl).concat _
    | lock free all => exact ((own _ rfl).goes .locked all nofun nofun).concat _
    | store =>
        have mapped := own _ rfl
        refine (mapped.goes (.committing _) (mapped.complete nofun) nofun ?_).concat _
        intro left at_phase
        cases at_phase
        exact List.suffix_refl _
    | insert =>
        have mapped := own _ rfl
        refine (mapped.goes (.committing _) (mapped.complete nofun) nofun ?_).concat _
        intro left at_phase
        cases at_phase
        exact (List.suffix_cons _ _).trans (mapped.left _ rfl)
    | release ended =>
        have mapped := own _ rfl
        refine (mapped.goes .aborted (mapped.complete ?_) nofun nofun).concat _
        rcases ended with rfl | rfl
        · exact nofun
        · exact nofun
    | accept current =>
        have mapped := own _ rfl
        exact (mapped.goes .ready (mapped.complete nofun) nofun nofun).concat _
    | refuse =>
        have mapped := own _ rfl
        exact (mapped.goes .refused (mapped.complete nofun) nofun nofun).concat _
    | settle =>
        have mapped := own _ rfl
        exact (mapped.goes .committed (mapped.complete nofun) nofun nofun).concat _
  · intro q i j t event shared before after running _ _ _ _ _ _ _ mapped
    exact mapped.concat _

end Messages

/-! ## The commits of an aggregate -/

section Commits

variable {I St E : Type} [DecidableEq I] {idOf : St → I} {mode : OutboxMode E}
  {outbox : InMemoryOutboxRepository} {p : WriterPool E idOf} {id : I}
  {trace : List (WriterEntry E idOf)} {running : Attempt St E}

/-- The save that an entry commits, if it is one of the aggregate `id`. -/
def committedBy (id : I) (entry : WriterEntry E idOf) : Option (Attempt St E) :=
  match entry.event.op with
  | .unitOfWork (.insertAggregate written) =>
      if idOf written.state = id then attempt entry.past else none
  | _ => none

/-- The committed saves of an aggregate, in the order of their commits. -/
def commits (id : I) (p : WriterPool E idOf) : List (Attempt St E) :=
  p.trace.filterMap (committedBy id)

theorem commits_advance (id : I) (i : ℕ) (t : RunningWriter E idOf) (event : WriterEvent I St E)
    (shared : UnitOfWorkShared I St E) (rest : WriterM I St E Unit) :
    commits id (p.advance i t event shared rest) =
      commits id p ++ (committedBy id ⟨i, t.args, t.past, p.shared, event⟩).toList :=
  filterMap_concat _ _ _

theorem committedBy_store {i : ℕ} {args : NumberedJob E idOf} {past : List (WriterEvent I St E)}
    {s : UnitOfWorkShared I St E} {choice : WriterChoice} {aggregate : Aggregate St E}
    (runs : attempt past = some running) :
    committedBy id ⟨i, args, past, s,
        ⟨choice, .unitOfWork (.insertAggregate (stored aggregate)), ()⟩⟩ =
      if idOf aggregate.state = id then some running else none := by
  rw [← runs]
  rfl

/-- A committed save: its messages are those of its events, and were stamped one after the other
while the version that it started from was stored. -/
structure Committed (mode : OutboxMode E) (trace : List (WriterEntry E idOf)) (id : I)
    (running : Attempt St E) : Prop where
  encoded : List.Forall₂ (Encodes mode trace) running.aggregate.pending running.made
  ordered : running.made.Pairwise OutboxMessage.Before
  drawn : ∀ record ∈ running.made, ∃ entry ∈ trace, makes entry = some (id, record) ∧
    storedVersion entry.before id = running.aggregate.version
  read : ∀ record ∈ running.made, ∃ entry ∈ trace, clockOf entry.event = some record.createdAt ∧
    storedVersion entry.before id = running.aggregate.version

theorem Committed.concat (committed : Committed mode trace id running) (last : WriterEntry E idOf) :
    Committed mode (trace ++ [last]) id running where
  encoded := committed.encoded.imp fun _ _ encodes => encodes.concat last
  ordered := committed.ordered
  drawn record member := by
    obtain ⟨entry, among, holds⟩ := committed.drawn record member
    exact ⟨entry, List.mem_append_left _ among, holds⟩
  read record member := by
    obtain ⟨entry, among, holds⟩ := committed.read record member
    exact ⟨entry, List.mem_append_left _ among, holds⟩

/-- A save that passed its check was stamped at the version that is stored now. -/
theorem committed_of_ready (reached : Reached mode outbox p) {i : ℕ} {t : RunningWriter E idOf}
    (found : p.tasks[i]? = some t) (runs : attempt t.past = some running)
    (ready : running.phase = .ready) :
    Committed mode p.trace (idOf running.aggregate.state) running := by
  have stamped := stamped_of_reaches reached i t running found runs
  have mapped := mapped_of_reaches reached i t running found runs
  have current := storedVersion_of_ready reached i t running found runs ready
  have present := (trace_ordered reached (idOf running.aggregate.state)).2
  have exactly : ∀ {P : WriterEntry E idOf → Prop}, Met p.trace running P → ∃ entry ∈ p.trace,
      P entry ∧ storedVersion entry.before (idOf running.aggregate.state) =
        running.aggregate.version := by
    intro P met
    obtain ⟨entry, member, holds, reaches⟩ := met
    exact ⟨entry, member, holds, Nat.le_antisymm (current ▸ present entry member) reaches⟩
  have complete := mapped.complete (ready ▸ nofun)
  have encoded := mapped.encoded
  rw [complete, List.take_length] at encoded
  refine ⟨encoded, stamped.ordered, fun record member => ?_, fun record member =>
    exactly (stamped.read record member)⟩
  obtain ⟨entry, among, ⟨-, made⟩, version⟩ := exactly (stamped.drawn record member)
  exact ⟨entry, among, made, version⟩

/-- Commits come in the order of their versions. -/
theorem commits_of_reaches (reached : Reached mode outbox p) (id : I) :
    (∀ running ∈ commits id p, Committed mode p.trace id running ∧
      running.aggregate.version < storedVersion p.shared id) ∧
    (commits id p).Pairwise fun first second =>
      first.aggregate.version < second.aggregate.version := by
  refine invariant_of_moves (P := fun p => (∀ running ∈ commits id p,
      Committed mode p.trace id running ∧ running.aggregate.version < storedVersion p.shared id) ∧
    (commits id p).Pairwise fun first second =>
      first.aggregate.version < second.aggregate.version) reached ?_ ?_ ?_
  · exact ⟨fun _ member => (by cases member), .nil⟩
  · intro q job kept
    exact kept
  · intro q i t event shared before after rest reached kept found was _ move
    obtain ⟨each, pairs⟩ := kept
    have grows := storedVersion_le_of_move reached found was move id
    have still : ∀ running ∈ commits id q, Committed mode
        (q.trace ++ [⟨i, t.args, t.past, q.shared, event⟩]) id running ∧
          running.aggregate.version < storedVersion shared id := by
      intro running member
      obtain ⟨committed, older⟩ := each running member
      exact ⟨committed.concat _, Nat.lt_of_lt_of_le older grows⟩
    rw [commits_advance]
    cases move with
    | @store choice aggregate made =>
        rw [committedBy_store was]
        by_cases here : idOf aggregate.state = id
        · have committed := committed_of_ready reached found was rfl
          have current := storedVersion_of_ready reached i t _ found was rfl
          subst here
          rw [if_pos rfl, Option.toList_some]
          refine ⟨?_, List.pairwise_append.mpr ⟨pairs, List.pairwise_singleton _ _, ?_⟩⟩
          · intro running member
            rcases List.mem_append.mp member with old | last
            · exact still running old
            · cases List.mem_singleton.mp last
              refine ⟨committed.concat _, ?_⟩
              rw [Pool.advance_shared, storedVersion_store, if_pos rfl]
              exact Nat.lt_succ_self _
          · intro running member last same
            cases List.mem_singleton.mp same
            exact Nat.lt_of_lt_of_eq (each running member).2 current
        · rw [if_neg here, Option.toList_none, List.append_nil]
          exact ⟨still, pairs⟩
    | _ =>
        rw [show committedBy id _ = none from rfl, Option.toList_none, List.append_nil]
        exact ⟨still, pairs⟩

/-- The messages of the commits are stamped in the order of the commits. -/
theorem committed_ordered (reached : Reached mode outbox p) (id : I) :
    ((commits id p).flatMap Attempt.made).Pairwise OutboxMessage.Before := by
  obtain ⟨each, pairs⟩ := commits_of_reaches reached id
  refine List.pairwise_flatMap.mpr ⟨fun running member => (each running member).1.ordered, ?_⟩
  refine List.Pairwise.imp_of_mem ?_ pairs
  intro first second member member' older record among record' among'
  have apart : ∀ {entry entry' : WriterEntry E idOf}, entry ∈ p.trace → entry' ∈ p.trace →
      storedVersion entry.before id = first.aggregate.version →
      storedVersion entry'.before id = second.aggregate.version → Earlier id entry entry' := by
    intro entry entry' inTrace inTrace' version version'
    exact earlier_of_lt reached inTrace inTrace' (by omega)
  obtain ⟨entry, inTrace, made, version⟩ := (each first member).1.drawn record among
  obtain ⟨entry', inTrace', made', version'⟩ := (each second member').1.drawn record' among'
  have drawn := (apart inTrace inTrace' version version').draw _ (drawOf_of_makes made) _
    (drawOf_of_makes made')
  obtain ⟨entry, inTrace, reading, version⟩ := (each first member).1.read record among
  obtain ⟨entry', inTrace', reading', version'⟩ := (each second member').1.read record' among'
  have read := (apart inTrace inTrace' version version').clock _ reading _ reading'
  rcases read.lt_or_eq with before | together
  · exact .inl before
  · exact .inr ⟨together, drawn⟩

end Commits

/-! ## What is in the outbox -/

section Books

variable {I St E : Type} [DecidableEq I] {idOf : St → I} {mode : OutboxMode E}
  {outbox : InMemoryOutboxRepository} {p : WriterPool E idOf} {id : I}

/-- The message that an entry inserts, if it is one of the aggregate `id`. -/
def insertedBy (id : I) (entry : WriterEntry E idOf) : Option OutboxMessage :=
  match entry.event.op with
  | .unitOfWork (.insertOutbox message) => (attempt entry.past).bind fun running =>
      if idOf running.aggregate.state = id then some message else none
  | _ => none

/-- The messages of an aggregate that were inserted, in order. -/
def inserted (id : I) (p : WriterPool E idOf) : List OutboxMessage :=
  p.trace.filterMap (insertedBy id)

/-- The messages of an aggregate that a running commit has still to insert. -/
def leftOf (idOf : St → I) (id : I) : Option (Attempt St E) → List OutboxMessage
  | some ⟨aggregate, _, .committing left⟩ => if idOf aggregate.state = id then left else []
  | _ => []

/-- The messages of an aggregate that the running commits have still to insert. -/
def unfinished (id : I) (p : WriterPool E idOf) : List OutboxMessage :=
  p.tasks.flatMap fun t => leftOf idOf id (attempt t.past)

theorem leftOf_committing (aggregate : Aggregate St E) (made left : List OutboxMessage) :
    leftOf idOf id (some ⟨aggregate, made, .committing left⟩) =
      if idOf aggregate.state = id then left else [] := rfl

theorem leftOf_ready (aggregate : Aggregate St E) (made : List OutboxMessage) :
    leftOf idOf id (some ⟨aggregate, made, .ready⟩) = [] := rfl

theorem insertedBy_insert {i : ℕ} {args : NumberedJob E idOf} {past : List (WriterEvent I St E)}
    {s : UnitOfWorkShared I St E} {choice : WriterChoice} {message : OutboxMessage}
    {running : Attempt St E} {reply : Except OutboxError Unit}
    (runs : attempt past = some running) :
    insertedBy id ⟨i, args, past, s, ⟨choice, .unitOfWork (.insertOutbox message), reply⟩⟩ =
      if idOf running.aggregate.state = id then some message else none := by
  show (attempt past).bind _ = _
  rw [runs]
  rfl

theorem leftOf_eq_nil {running : Attempt St E} (idle : ¬ running.phase.Holds) :
    leftOf idOf id (some running) = [] := by
  obtain ⟨aggregate, made, phase⟩ := running
  cases phase with
  | committing left => exact absurd trivial idle
  | _ => rfl

section Holder

variable {i : ℕ} {t : RunningWriter E idOf} {running : Attempt St E}
  (reached : Reached mode outbox p) (found : p.tasks[i]? = some t)
  (runs : attempt t.past = some running) (holds : running.phase.Holds)

include reached found runs holds

/-- Only the holder of the mutex has messages left to insert. -/
theorem leftOf_of_ne (j : ℕ) (u : RunningWriter E idOf) (at_j : p.tasks[j]? = some u)
    (distinct : j ≠ i) : leftOf idOf id (attempt u.past) = [] := by
  cases runs' : attempt u.past with
  | none => rfl
  | some other =>
      exact leftOf_eq_nil fun holds' =>
        distinct (eq_of_holds reached at_j found runs' runs holds' holds)

theorem unfinished_of_holds : unfinished id p = leftOf idOf id (some running) :=
  (flatMap_of_alone found (leftOf_of_ne reached found runs holds)).trans
    (congrArg (leftOf idOf id) runs)

theorem unfinished_advance_of_holds {event : WriterEvent I St E} {shared : UnitOfWorkShared I St E}
    {rest : WriterM I St E Unit} {after : Option (Attempt St E)}
    (is : attempt (event :: t.past) = after) :
    unfinished id (p.advance i t event shared rest) = leftOf idOf id after := by
  subst is
  refine flatMap_of_alone
    (List.getElem?_set_self (List.getElem?_eq_some_iff.mp found).1) fun j u at_j distinct => ?_
  rw [List.getElem?_set_ne (Ne.symm distinct)] at at_j
  exact leftOf_of_ne reached found runs holds j u at_j distinct

end Holder

theorem unfinished_advance_of_eq {i : ℕ} {t : RunningWriter E idOf} {event : WriterEvent I St E}
    {shared : UnitOfWorkShared I St E} {rest : WriterM I St E Unit}
    {before after : Option (Attempt St E)} (found : p.tasks[i]? = some t)
    (was : attempt t.past = before) (is : attempt (event :: t.past) = after)
    (same : leftOf idOf id after = leftOf idOf id before) :
    unfinished id (p.advance i t event shared rest) = unfinished id p := by
  subst was is
  exact flatMap_set_of_eq found same

theorem inserted_advance (id : I) (i : ℕ) (t : RunningWriter E idOf) (event : WriterEvent I St E)
    (shared : UnitOfWorkShared I St E) (rest : WriterM I St E Unit) :
    inserted id (p.advance i t event shared rest) =
      inserted id p ++ (insertedBy id ⟨i, t.args, t.past, p.shared, event⟩).toList :=
  filterMap_concat _ _ _

/-- What the commits of an aggregate have inserted and what they have still to insert are the
messages of the commits, in order. -/
theorem inserted_append_unfinished (reached : Reached mode outbox p) (id : I) :
    inserted id p ++ unfinished id p = (commits id p).flatMap Attempt.made := by
  refine invariant_of_moves (P := fun p =>
    inserted id p ++ unfinished id p = (commits id p).flatMap Attempt.made) reached rfl ?_ ?_
  · intro q job kept
    have same : unfinished id (q.start (system idOf mode).body
        { q.shared with callers := q.shared.callers + 1 } [job]) = unfinished id q := by
      rw [unfinished, Pool.start_tasks, List.flatMap_append]
      exact List.append_nil _
    rw [same]
    exact kept
  · intro q i t event shared before after rest reached kept found was is move
    have unchanged : insertedBy id ⟨i, t.args, t.past, q.shared, event⟩ = none →
        committedBy id ⟨i, t.args, t.past, q.shared, event⟩ = none →
        leftOf idOf id after = leftOf idOf id before →
        inserted id (q.advance i t event shared rest) ++
          unfinished id (q.advance i t event shared rest) =
            (commits id (q.advance i t event shared rest)).flatMap Attempt.made := by
      intro uninserted uncommitted same
      rw [inserted_advance, commits_advance, uninserted, uncommitted,
        unfinished_advance_of_eq found was is same, Option.toList_none, List.append_nil,
        Option.toList_none, List.append_nil]
      exact kept
    cases move with
    | @store choice aggregate made =>
        have uninserted : insertedBy id ⟨i, t.args, t.past, q.shared, ⟨choice,
          .unitOfWork (.insertAggregate (stored aggregate)), ()⟩⟩ = none := rfl
        rw [unfinished_of_holds reached found was trivial, leftOf_ready, List.append_nil] at kept
        rw [inserted_advance, commits_advance, committedBy_store was, uninserted,
          unfinished_advance_of_holds reached found was trivial is, leftOf_committing,
          List.flatMap_append, ← kept, Option.toList_none, List.append_nil]
        split
        · rw [Option.toList_some, List.flatMap_singleton]
        · rfl
    | @insert choice aggregate made left message =>
        have uncommitted : committedBy id ⟨i, t.args, t.past, q.shared, ⟨choice,
          .unitOfWork (.insertOutbox message), .ok ()⟩⟩ = none := rfl
        rw [unfinished_of_holds reached found was trivial, leftOf_committing] at kept
        rw [inserted_advance, commits_advance, insertedBy_insert was, uncommitted,
          unfinished_advance_of_holds reached found was trivial is, leftOf_committing,
          Option.toList_none, List.append_nil, ← kept]
        split
        · rw [Option.toList_some, List.append_assoc, List.singleton_append]
        · rw [Option.toList_none, List.append_nil]
    | finish returned => exact unchanged rfl rfl (leftOf_eq_nil returned.not_holds).symm
    | release ended =>
        refine unchanged rfl rfl ?_
        rcases ended with rfl | rfl
        · rfl
        · rfl
    | settle => exact unchanged rfl rfl (ite_self _).symm
    | _ => exact unchanged rfl rfl rfl

/-- A message is made once, and for one aggregate. -/
theorem eq_of_makes (reached : Reached mode outbox p) {entry entry' : WriterEntry E idOf} {id id' : I}
    {record record' : OutboxMessage} (member : entry ∈ p.trace) (member' : entry' ∈ p.trace)
    (made : makes entry = some (id, record)) (made' : makes entry' = some (id', record'))
    (same : record.id = record'.id) : entry = entry' ∧ id = id' ∧ record = record' := by
  have drawn := drawOf_of_makes made
  rw [same] at drawn
  cases eq_of_draw reached id member member' drawn (drawOf_of_makes made')
  cases made.symm.trans made'
  exact ⟨rfl, rfl, rfl⟩

/-- An inserted message was made for its aggregate. -/
theorem makes_of_inserted (reached : Reached mode outbox p) {record : OutboxMessage}
    (member : record ∈ inserted id p) : ∃ entry ∈ p.trace, makes entry = some (id, record) := by
  have listed : record ∈ (commits id p).flatMap Attempt.made := by
    rw [← inserted_append_unfinished reached]
    exact List.mem_append_left _ member
  obtain ⟨running, commit, among⟩ := List.mem_flatMap.mp listed
  obtain ⟨entry, inTrace, made, -⟩ := ((commits_of_reaches reached id).1 running commit).1.drawn
    record among
  exact ⟨entry, inTrace, made⟩

/-- What is in the outbox: what was in it at first, and what was inserted since.  The ids of the two
are different. -/
structure Rows (outbox : InMemoryOutboxRepository) (p : WriterPool E idOf) : Prop where
  stored : ∀ id, ∀ record ∈ inserted id p, p.shared.outbox.get record.id = some record
  known : ∀ uuid row, p.shared.outbox.get uuid = some row →
    outbox.get uuid = some row ∨ ∃ id, row ∈ inserted id p
  fresh : ∀ entry ∈ p.trace, ∀ made ∈ makes entry, outbox.get made.2.id = none
  kept : ∀ uuid, p.shared.outbox.get uuid = none → outbox.get uuid = none

section Step

variable {i : ℕ} {t : RunningWriter E idOf} {event : WriterEvent I St E}
  {shared : UnitOfWorkShared I St E} {rest : WriterM I St E Unit}

/-- A step that leaves the outbox alone. -/
theorem Rows.unchanged (rows : Rows outbox p) (same : shared.outbox = p.shared.outbox)
    (uninserted : ∀ id, insertedBy id ⟨i, t.args, t.past, p.shared, event⟩ = none)
    (fresh : ∀ made ∈ makes ⟨i, t.args, t.past, p.shared, event⟩, outbox.get made.2.id = none) :
    Rows outbox (p.advance i t event shared rest) := by
  have inserts : ∀ id, inserted id (p.advance i t event shared rest) = inserted id p := by
    intro id
    rw [inserted_advance, uninserted id, Option.toList_none, List.append_nil]
  refine ⟨?_, ?_, ?_, ?_⟩
  · intro id record member
    rw [inserts] at member
    rw [Pool.advance_shared, same]
    exact rows.stored id record member
  · intro uuid row stored
    rw [Pool.advance_shared, same] at stored
    refine (rows.known uuid row stored).imp_right fun ⟨id, member⟩ => ⟨id, ?_⟩
    rw [inserts]
    exact member
  · intro entry member
    rcases List.mem_append.mp member with old | last
    · exact rows.fresh entry old
    · cases List.mem_singleton.mp last
      exact fresh
  · intro uuid unknown
    rw [Pool.advance_shared, same] at unknown
    exact rows.kept uuid unknown

/-- The messages of an aggregate after one more insert. -/
theorem mem_inserted_advance {running : Attempt St E} {choice : WriterChoice}
    {message record : OutboxMessage} {reply : Except OutboxError Unit}
    (runs : attempt t.past = some running) :
    record ∈ inserted id (p.advance i t ⟨choice, .unitOfWork (.insertOutbox message), reply⟩ shared
        rest) ↔
      record ∈ inserted id p ∨ idOf running.aggregate.state = id ∧ record = message := by
  rw [inserted_advance, insertedBy_insert runs, List.mem_append, Option.mem_toList,
    Option.ite_none_right_eq_some, Option.some.injEq, eq_comm (a := message)]

/-- A committing save inserts one of its messages. -/
theorem Rows.insert (reached : Reached mode outbox p) (rows : Rows outbox p) {choice : WriterChoice}
    {aggregate : Aggregate St E} {made left : List OutboxMessage} {message : OutboxMessage}
    (found : p.tasks[i]? = some t)
    (runs : attempt t.past = some ⟨aggregate, made, .committing (message :: left)⟩)
    (written : shared.outbox = p.shared.outbox.write message) :
    Rows outbox (p.advance i t ⟨choice, .unitOfWork (.insertOutbox message), .ok ()⟩ shared rest) := by
  have among := ((mapped_of_reaches reached i t _ found runs).left _ rfl).subset List.mem_cons_self
  obtain ⟨entry, inTrace, ⟨-, makes_⟩, -⟩ :=
    (stamped_of_reaches reached i t _ found runs).drawn message among
  refine ⟨?_, ?_, ?_, ?_⟩
  · intro id record member
    rw [Pool.advance_shared, written, InMemoryOutboxRepository.get_write]
    rcases (mem_inserted_advance runs).mp member with old | ⟨-, rfl⟩
    · split
      · next same =>
        obtain ⟨entry', inTrace', makes'⟩ := makes_of_inserted reached old
        rw [(eq_of_makes reached inTrace' inTrace makes' makes_ same).2.2]
      · exact rows.stored id record old
    · rw [if_pos rfl]
  · intro uuid row stored
    rw [Pool.advance_shared, written, InMemoryOutboxRepository.get_write] at stored
    split at stored
    · cases stored
      exact .inr ⟨idOf aggregate.state, (mem_inserted_advance runs).mpr (.inr ⟨rfl, rfl⟩)⟩
    · refine (rows.known uuid row stored).imp_right fun ⟨id, member⟩ => ⟨id, ?_⟩
      exact (mem_inserted_advance runs).mpr (.inl member)
  · intro entry member
    rcases List.mem_append.mp member with old | last
    · exact rows.fresh entry old
    · cases List.mem_singleton.mp last
      intro made makes'
      cases makes'
  · intro uuid unknown
    rw [Pool.advance_shared, written, InMemoryOutboxRepository.get_write] at unknown
    split at unknown
    · cases unknown
    · exact rows.kept uuid unknown

end Step

theorem rows_of_reaches (reached : Reached mode outbox p) : Rows outbox p := by
  refine invariant_of_moves (P := Rows outbox) reached ?_ ?_ ?_
  · exact ⟨fun _ _ member => (by cases member), fun _ _ found => .inl found,
      fun _ member => (by cases member), fun _ unknown => unknown⟩
  · intro q job rows
    exact ⟨rows.stored, rows.known, rows.fresh, rows.kept⟩
  · intro q i t event shared before after rest reached rows found was is move
    cases move with
    | make next undrawn fresh built =>
        refine rows.unchanged rfl (fun _ => rfl) ?_
        intro made makes_
        obtain ⟨running, -, rfl⟩ := Option.map_eq_some_iff.mp makes_
        rw [built]
        exact rows.kept _ undrawn.2
    | insert => exact rows.insert reached found was rfl
    | _ => exact rows.unchanged rfl (fun _ => rfl) fun _ makes_ => (by cases makes_)

end Books

/-! ## Failed saves -/

section Failures

variable {I St E : Type} [DecidableEq I] {idOf : St → I} {mode : OutboxMode E}
  {outbox : InMemoryOutboxRepository} {p : WriterPool E idOf}

/-- The save that an entry ends with an error. -/
def failedBy (entry : WriterEntry E idOf) : Option (Attempt St E) :=
  match entry.event.op with
  | .saved (.error _) => attempt entry.past
  | _ => none

/-- Two writers make no message in common. -/
theorem id_ne_of_ne (reached : Reached mode outbox p) {i j : ℕ} {t u : RunningWriter E idOf}
    {first second : Attempt St E} {record record' : OutboxMessage} (at_i : p.tasks[i]? = some t)
    (at_j : p.tasks[j]? = some u) (runs : attempt t.past = some first)
    (runs' : attempt u.past = some second) (distinct : i ≠ j) (member : record ∈ first.made)
    (member' : record' ∈ second.made) : record.id ≠ record'.id := by
  intro same
  obtain ⟨entry, inTrace, ⟨here, made⟩, -⟩ :=
    (stamped_of_reaches reached i t first at_i runs).drawn record member
  obtain ⟨entry', inTrace', ⟨here', made'⟩, -⟩ :=
    (stamped_of_reaches reached j u second at_j runs').drawn record' member'
  cases (eq_of_makes reached inTrace inTrace' made made' same).1
  exact distinct (here.symm.trans here')

/-- What a commit inserts, it has made. -/
theorem mem_made_of_committing (reached : Reached mode outbox p) {i : ℕ} {t : RunningWriter E idOf}
    {aggregate : Aggregate St E} {made left : List OutboxMessage} {message : OutboxMessage}
    (found : p.tasks[i]? = some t)
    (runs : attempt t.past = some ⟨aggregate, made, .committing (message :: left)⟩) :
    message ∈ made :=
  ((mapped_of_reaches reached i t _ found runs).left _ rfl).subset List.mem_cons_self

/-- The save has not begun to commit. -/
def Phase.Uncommitted : Phase → Prop
  | .committing _ | .committed => False
  | _ => True

/-- Nothing of a save is in the outbox before it commits. -/
theorem absent_of_uncommitted (reached : Reached mode outbox p) :
    ∀ (i : ℕ) (t : RunningWriter E idOf) (running : Attempt St E), p.tasks[i]? = some t →
      attempt t.past = some running → running.phase.Uncommitted →
      ∀ record ∈ running.made, p.shared.outbox.get record.id = none := by
  refine forall_attempts (R := fun s _ _ running => running.phase.Uncommitted →
    ∀ record ∈ running.made, s.outbox.get record.id = none) reached (fun absent => absent) ?_ ?_
  · intro q i t event shared before running _ _ _ move own uncommitted record member
    cases move with
    | start knows => cases member
    | make next undrawn fresh built =>
        rcases List.mem_append.mp member with old | last
        · exact own _ rfl trivial record old
        · cases List.mem_singleton.mp last
          rw [built]
          exact undrawn.2
    | store => exact uncommitted.elim
    | insert => exact uncommitted.elim
    | settle => exact uncommitted.elim
    | signal => exact own _ rfl uncommitted record member
    | release ended =>
        rcases ended with rfl | rfl
        · exact own _ rfl trivial record member
        · exact own _ rfl trivial record member
    | _ =>
        have absent := own _ rfl trivial record member
        exact absent
  · intro q i j t event shared before after running reached found was move _ distinct other absent
      uncommitted record member
    cases move with
    | insert =>
        obtain ⟨u, at_j, runs⟩ := other
        have message := mem_made_of_committing reached found was
        have apart := id_ne_of_ne reached at_j found runs was distinct member message
        exact (InMemoryOutboxRepository.get_write_of_ne apart).trans (absent uncommitted record member)
    | _ => exact absent uncommitted record member

/-- A message that will never be in the outbox. -/
structure Spoilt (p : WriterPool E idOf) (record : OutboxMessage) : Prop where
  absent : p.shared.outbox.get record.id = none
  drawn : ∃ entry ∈ p.trace, drawOf entry.event = some record.id
  unused : ∀ (i : ℕ) (t : RunningWriter E idOf) (running : Attempt St E), p.tasks[i]? = some t →
    attempt t.past = some running → ∀ made ∈ running.made, record.id ≠ made.id

theorem Spoilt.advance {record : OutboxMessage} (reached : Reached mode outbox p)
    (spoilt : Spoilt p record) {i : ℕ} {t : RunningWriter E idOf} {event : WriterEvent I St E}
    {shared : UnitOfWorkShared I St E} {before after : Option (Attempt St E)}
    (rest : WriterM I St E Unit) (found : p.tasks[i]? = some t) (was : attempt t.past = before)
    (is : attempt (event :: t.past) = after)
    (move : Move idOf mode p.trace i p.shared t.past event shared before after) :
    Spoilt (p.advance i t event shared rest) record := by
  obtain ⟨entry, inTrace, draws⟩ := spoilt.drawn
  refine ⟨?_, ⟨entry, List.mem_append_left _ inTrace, draws⟩, ?_⟩
  · cases move with
    | insert =>
        have message := mem_made_of_committing reached found was
        have apart := spoilt.unused i t _ found was _ message
        exact (InMemoryOutboxRepository.get_write_of_ne apart).trans spoilt.absent
    | _ => exact spoilt.absent
  · intro j u running at_j runs made member
    rcases Pool.getElem?_advance found at_j with ⟨rfl, rfl⟩ | ⟨-, old⟩
    · cases is.symm.trans runs
      cases move with
      | start knows => cases member
      | make next undrawn fresh built =>
          rcases List.mem_append.mp member with old | last
          · exact spoilt.unused j t _ found was made old
          · cases List.mem_singleton.mp last
            rw [built]
            exact Nat.ne_of_lt (fresh entry inTrace _ draws)
      | _ => exact spoilt.unused j t _ found was made member
    · exact spoilt.unused j u running old runs made member

/-- The messages of a failed save never get into the outbox. -/
theorem spoilt_of_failed (reached : Reached mode outbox p) :
    ∀ entry ∈ p.trace, ∀ running ∈ failedBy entry, ∀ record ∈ running.made, Spoilt p record := by
  refine invariant_of_moves (P := fun p => ∀ entry ∈ p.trace, ∀ running ∈ failedBy entry,
    ∀ record ∈ running.made, Spoilt p record) reached ?_ ?_ ?_
  · intro entry member
    cases member
  · intro q job kept entry member running failed record among
    obtain ⟨absent, drawn, unused⟩ := kept entry member running failed record among
    refine ⟨absent, drawn, fun i t other found runs => ?_⟩
    rcases Pool.getElem?_start found with old | ⟨-, a, -, rfl⟩
    · exact unused i t other old runs
    · cases runs
  · intro q i t event shared before after rest reached kept found was is move entry member running
      failed record among
    rcases List.mem_append.mp member with old | last
    · exact (kept entry old running failed record among).advance reached rest found was is move
    · cases List.mem_singleton.mp last
      cases move with
      | @finish choice running result returned =>
          cases result with
          | ok _ => cases failed
          | error error =>
              cases was.symm.trans failed
              have uncommitted : running.phase.Uncommitted := by
                rcases returned with same | ⟨payload, clock, same⟩
                · rw [same]
                  trivial
                · rw [same]
                  trivial
              obtain ⟨entry, inTrace, ⟨-, makes_⟩, -⟩ :=
                (stamped_of_reaches reached i t running found was).drawn record among
              refine ⟨absent_of_uncommitted reached i t running found was uncommitted record among,
                ⟨entry, List.mem_append_left _ inTrace, drawOf_of_makes makes_⟩, ?_⟩
              intro j u other at_j runs made member
              rcases Pool.getElem?_advance found at_j with ⟨rfl, rfl⟩ | ⟨distinct, old⟩
              · cases is.symm.trans runs
              · exact id_ne_of_ne reached found old was runs (Ne.symm distinct) among member
      | _ => cases failed

end Failures

/-! ## What `pending` claims -/

section Pending

variable {I St E : Type} [DecidableEq I] {idOf : St → I} {mode : OutboxMode E}
  {outbox : InMemoryOutboxRepository} {p : WriterPool E idOf}

/-- All messages that were ever made for an aggregate, by saves that commit and by saves that fail. -/
def attempted (id : I) (p : WriterPool E idOf) : List OutboxMessage :=
  p.trace.filterMap fun entry => (makes entry).bind fun made =>
    if made.1 = id then some made.2 else none

theorem mem_attempted {id : I} {record : OutboxMessage} :
    record ∈ attempted id p ↔ ∃ entry ∈ p.trace, makes entry = some (id, record) := by
  unfold attempted
  rw [List.mem_filterMap]
  refine exists_congr fun entry => and_congr_right fun _ => ?_
  rw [Option.bind_eq_some_iff]
  constructor
  · rintro ⟨⟨other, made⟩, makes_, same⟩
    rw [Option.ite_none_right_eq_some] at same
    cases same.1
    cases same.2
    exact makes_
  · intro makes_
    exact ⟨_, makes_, if_pos rfl⟩

/-- Messages are new when they are made. -/
theorem new_of_makes (reached : Reached mode outbox p) :
    ∀ entry ∈ p.trace, ∀ made ∈ makes entry,
      made.2 = .new made.2.id made.2.createdAt made.2.message := by
  refine invariant_of_moves (P := fun p => ∀ entry ∈ p.trace, ∀ made ∈ makes entry,
    made.2 = .new made.2.id made.2.createdAt made.2.message) reached ?_ ?_ ?_
  · intro entry member
    cases member
  · intro q job kept
    exact kept
  · intro q i t event shared before after rest _ kept _ _ _ move entry member
    rcases List.mem_append.mp member with old | last
    · exact kept entry old
    · cases List.mem_singleton.mp last
      cases move with
      | make next undrawn fresh built =>
          intro made makes_
          obtain ⟨running, -, rfl⟩ := Option.map_eq_some_iff.mp makes_
          rw [built]
          rfl
      | _ =>
          intro made makes_
          cases makes_

/-- Inserted messages are due when the clock is read again. -/
theorem due_of_inserted (reached : Reached mode outbox p) {id : I} {now : Time}
    (later : ∀ entry ∈ p.trace, ∀ earlier ∈ clockOf entry.event, earlier ≤ now)
    {record : OutboxMessage} (member : record ∈ inserted id p) :
    InMemoryOutboxRepository.Due now record := by
  obtain ⟨entry, inTrace, makes_⟩ := makes_of_inserted reached member
  have fresh : record = .new record.id record.createdAt record.message :=
    new_of_makes reached entry inTrace _ makes_
  have listed : record ∈ (commits id p).flatMap Attempt.made := by
    rw [← inserted_append_unfinished reached]
    exact List.mem_append_left _ member
  obtain ⟨running, commit, among⟩ := List.mem_flatMap.mp listed
  obtain ⟨entry', inTrace', reading, -⟩ := ((commits_of_reaches reached id).1 running commit).1.read
    record among
  rw [fresh]
  exact ⟨rfl, later entry' inTrace' _ reading⟩

/-- The rows of an aggregate, as `pending` returns them, are its inserted messages in order. -/
theorem filter_pending (reached : Reached mode outbox p) (id : I) {order : List Uuid} {now : Time}
    {limit : ℕ} {claimed : List OutboxMessage} (iterated : order.Perm p.shared.outbox.store.keys)
    (later : ∀ entry ∈ p.trace, ∀ earlier ∈ clockOf entry.event, earlier ≤ now)
    (enough : order.length ≤ limit)
    (answered : (p.shared.outbox.pending order now limit).2 = .ok claimed) :
    (claimed.filter fun m => m.id ∈ (attempted id p).map OutboxMessage.id) =
      (inserted id p).map (InMemoryOutboxRepository.leased p.shared.outbox.claimLease now) := by
  have rows := rows_of_reaches reached
  have : Std.Irrefl OutboxMessage.Before := ⟨OutboxMessage.Before.irrefl⟩
  have : Std.Antisymm OutboxMessage.Before :=
    ⟨fun _ _ before after => absurd after before.asymm⟩
  have sorted := (InMemoryOutboxRepository.pairwise_pending iterated answered).filter
    fun m => m.id ∈ (attempted id p).map OutboxMessage.id
  have prefix_ : (inserted id p).Pairwise OutboxMessage.Before := by
    have all := committed_ordered reached id
    rw [← inserted_append_unfinished reached] at all
    exact (List.pairwise_append.mp all).1
  refine sorted.eq_of_mem_iff (List.pairwise_map.mpr prefix_) fun m => ?_
  rw [List.mem_filter, decide_eq_true_iff, List.mem_map, List.mem_map]
  constructor
  · rintro ⟨member, record, made, same⟩
    obtain ⟨row, found, -, rfl⟩ := InMemoryOutboxRepository.mem_pending iterated answered member
    obtain ⟨entry, inTrace, makes_⟩ := mem_attempted.mp made
    -- the row was not there at first, so it was inserted, and for this aggregate
    rcases rows.known _ row found with initial | ⟨id', member⟩
    · have absent := rows.fresh entry inTrace _ makes_
      rw [same, initial] at absent
      cases absent
    · obtain ⟨entry', inTrace', makes'⟩ := makes_of_inserted reached member
      obtain ⟨-, rfl, -⟩ := eq_of_makes reached inTrace inTrace' makes_ makes' same
      exact ⟨row, member, rfl⟩
  · rintro ⟨record, member, rfl⟩
    have due := due_of_inserted reached later member
    refine ⟨InMemoryOutboxRepository.mem_pending_of_due iterated answered enough
      (rows.stored id record member) due, record, ?_, rfl⟩
    exact mem_attempted.mpr (makes_of_inserted reached member)

end Pending

/-! ## Commit order -/

section Order

variable {I St E : Type} [DecidableEq I] {idOf : St → I} {mode : OutboxMode E}
  {outbox : InMemoryOutboxRepository} {p : WriterPool E idOf}

/-- Of all messages that were ever made for an aggregate, `pending` returns those of the committed
saves in the order of the commits, and within a save in the order of its events; only what a running
commit has not inserted yet is missing at the end, and nothing of a failed save is in the outbox. -/
theorem pending_in_commit_order (reached : Reached mode outbox p) (id : I) {order : List Uuid}
    {now : Time} {limit : ℕ} {claimed : List OutboxMessage}
    (iterated : order.Perm p.shared.outbox.store.keys)
    (later : ∀ entry ∈ p.trace, ∀ earlier ∈ clockOf entry.event, earlier ≤ now)
    (enough : order.length ≤ limit)
    (answered : (p.shared.outbox.pending order now limit).2 = .ok claimed) :
    (claimed.filter fun m => m.id ∈ (attempted id p).map OutboxMessage.id) ++
        (unfinished id p).map (InMemoryOutboxRepository.leased p.shared.outbox.claimLease now) =
      ((commits id p).flatMap Attempt.made).map
        (InMemoryOutboxRepository.leased p.shared.outbox.claimLease now) ∧
    (∀ running ∈ commits id p,
      List.Forall₂ (Encodes mode p.trace) running.aggregate.pending running.made) ∧
    ∀ entry ∈ p.trace, ∀ running ∈ failedBy entry, ∀ record ∈ running.made,
      p.shared.outbox.get record.id = none := by
  refine ⟨?_, fun running commit => ?_, fun entry member running failed record made => ?_⟩
  · rw [filter_pending reached id iterated later enough answered, ← List.map_append,
      inserted_append_unfinished reached]
  · exact ((commits_of_reaches reached id).1 running commit).1.encoded
  · exact (spoilt_of_failed reached entry member running failed record made).absent

end Order

/-- Orders are numbered, and so are their events. -/
def orders : OutboxMode ℕ where
  events := { eventType := fun _ => "order_changed", aggregateId := fun _ => "1" }
  topic := "orders"

/-- Raises events and saves once. -/
def raiseOnce (events : List ℕ) : WriterScript ℕ (id : ℕ → ℕ) :=
  .raise id (fun _ => rfl) events (.save fun _ => .stop)

/-- Tries to place order 1, and changes the stored order when that fails. -/
def placeOrChange : WriterScript ℕ (id : ℕ → ℕ) :=
  .raise id (fun _ => rfl) [20] (.save fun
    | .ok () => .stop
    | .error _ => .load 1 fun _ => raiseOnce [21])

/-- Two writers stamp messages for a new order 1.  The first commits, the second runs into a conflict,
loads the order and commits then; every step reads the clock and draws an id of its own. -/
def racingRun : List (Action WriterChoice (Job ℕ (id : ℕ → ℕ))) :=
  [.arrive ⟨1, raiseOnce [10, 11]⟩, .arrive ⟨1, placeOrChange⟩] ++
    (List.replicate 9 0 ++ List.replicate 5 1 ++ List.replicate 7 0 ++ List.replicate 16 1).zipIdx.map
      fun (task, time) => .step task { unitOfWork := { now := (time : ℕ), uuid := time } }

/-- The run of the two writers, with what it leaves in the outbox. -/
theorem pending_in_commit_order_racingRun :
    ∃ p : WriterPool ℕ (id : ℕ → ℕ), Reached orders (.new 10) p ∧
      (commits 1 p).map (fun running => running.aggregate.pending) = [[10, 11], [21]] ∧
      (attempted 1 p).length = 4 ∧ unfinished 1 p = [] ∧
      ∃ claimed, (p.shared.outbox.pending p.shared.outbox.store.keys 100 100).2 = .ok claimed ∧
        (claimed.filter fun m => m.id ∈ (attempted 1 p).map OutboxMessage.id) =
          ((commits 1 p).flatMap Attempt.made).map
            (InMemoryOutboxRepository.leased p.shared.outbox.claimLease 100) := by
  have run : ((system id orders).exec (noWriters id (.new 10)) racingRun).any (fun p =>
      decide (((commits 1 p).map (fun running => running.aggregate.pending) = [[10, 11], [21]] ∧
        (attempted 1 p).length = 4 ∧ unfinished 1 p = []) ∧
        (∀ entry ∈ p.trace, ∀ earlier ∈ clockOf entry.event, earlier ≤ 100) ∧
        p.shared.outbox.store.keys.length ≤ 100)) = true := by
    decide +kernel
  obtain ⟨p, reached, all⟩ := System.exists_reaches_of_exec (C := Clocked id) (by decide +kernel) run
  obtain ⟨⟨committed, made, finished⟩, later, enough⟩ := of_decide_eq_true all
  refine ⟨p, reached, committed, made, finished, _, rfl, ?_⟩
  have ordered := (pending_in_commit_order reached 1 (List.Perm.refl _) later enough rfl).1
  rw [finished, List.map_nil, List.append_nil] at ordered
  exact ordered

end OutboxWriter

end Pharos

import Pharos.UnitOfWork.Writers

/-!
# What writers do to each other

`Move` says all that one step of a writer can do, and every invariant is read off it.  An open
transaction holds the mutex, a save that passed its version check still finds that version when it
commits, and nothing that a writer has learned is ahead of what is stored.  So the version of an
aggregate only grows along the trace, and two entries that met different versions of it are ordered.
-/

namespace Pharos

namespace OutboxWriter

open Async

open InMemoryUnitOfWork (storedVersion stored Undrawn)

section Moves

variable {I St E : Type} [DecidableEq I] (idOf : St → I) (mode : OutboxMode E)

/-- What writer `i` can do: the event, the unit of work after it, and its save before and after. -/
inductive Move (trace : List (WriterEntry E idOf)) (i : ℕ) (s : UnitOfWorkShared I St E)
    (past : List (WriterEvent I St E)) : WriterEvent I St E → UnitOfWorkShared I St E →
      Option (Attempt St E) → Option (Attempt St E) → Prop
  | start {choice : WriterChoice} {aggregate : Aggregate St E} (knows : Knows idOf past aggregate) :
      Move trace i s past ⟨choice, .saving aggregate, ()⟩ s none (some { aggregate })
  | finish {choice : WriterChoice} {running : Attempt St E} {result : Except StoreError Unit}
      (returned : running.phase.Returns result) :
      Move trace i s past ⟨choice, .saved result, ()⟩ s (some running) none
  | look {choice : WriterChoice} {id : I} :
      Move trace i s past ⟨choice, .unitOfWork (.find id), s.aggregates.get id⟩ s none none
  | serialize {choice : WriterChoice} {aggregate : Aggregate St E} {made : List OutboxMessage}
      {event : E} {payload : Except String (List UInt8)}
      (next : aggregate.pending[made.length]? = some event) :
      Move trace i s past ⟨choice, .toVec event, payload⟩ s (some { aggregate, made })
        (some ⟨aggregate, made, .building payload.toOption none⟩)
  | identify {choice : WriterChoice} {aggregate : Aggregate St E} {made : List OutboxMessage}
      {payload : Option (List UInt8)} {id : Uuid}
      (fresh : ∀ entry ∈ trace, ∀ earlier ∈ drawOf entry.event, earlier < id) :
      Move trace i s past ⟨choice, .messageId, id⟩ s
        (some ⟨aggregate, made, .building payload none⟩)
        (some ⟨aggregate, made, .building payload none⟩)
  | signal {choice : WriterChoice} {running : Attempt St E} {signal : OutboxSignal} :
      Move trace i s past ⟨choice, .notify signal, ()⟩ s (some running) (some running)
  | read {choice : WriterChoice} {aggregate : Aggregate St E} {made : List OutboxMessage}
      {payload : Option (List UInt8)} {now : Time}
      (later : ∀ entry ∈ trace, ∀ earlier ∈ clockOf entry.event, earlier ≤ now) :
      Move trace i s past ⟨choice, .unitOfWork .utcNow, now⟩ s
        (some ⟨aggregate, made, .building payload none⟩)
        (some ⟨aggregate, made, .building payload (some now)⟩)
  | make {choice : WriterChoice} {aggregate : Aggregate St E} {made : List OutboxMessage}
      {payload : List UInt8} {now : Time} {event : E} {id uuid : Uuid} {record : OutboxMessage}
      (next : aggregate.pending[made.length]? = some event) (undrawn : Undrawn s uuid)
      (fresh : ∀ entry ∈ trace, ∀ earlier ∈ drawOf entry.event, earlier < uuid)
      (built : record = .new uuid now (DefaultAggregateStore.messageOf mode.events mode.enrichers
        mode.topic id payload event)) :
      Move trace i s past ⟨choice, .unitOfWork (.nowV7 i now record.message), record⟩
        { s with drawn := (uuid, i) :: s.drawn }
        (some ⟨aggregate, made, .building (some payload) (some now)⟩)
        (some { aggregate, made := made ++ [record] })
  | lock {choice : WriterChoice} {aggregate : Aggregate St E} {made : List OutboxMessage}
      (free : s.holder = none) (all : made.length = aggregate.pending.length) :
      Move trace i s past ⟨choice, .unitOfWork (.lock i), ()⟩ { s with holder := some i }
        (some { aggregate, made }) (some ⟨aggregate, made, .locked⟩)
  | accept {choice : WriterChoice} {aggregate : Aggregate St E} {made : List OutboxMessage}
      (current : storedVersion s (idOf aggregate.state) = aggregate.version) :
      Move trace i s past ⟨choice, .unitOfWork (.version (idOf aggregate.state)),
          (s.aggregates.get (idOf aggregate.state)).map Aggregate.version⟩ s
        (some ⟨aggregate, made, .locked⟩) (some ⟨aggregate, made, .ready⟩)
  | refuse {choice : WriterChoice} {aggregate : Aggregate St E} {made : List OutboxMessage} :
      Move trace i s past ⟨choice, .unitOfWork (.version (idOf aggregate.state)),
          (s.aggregates.get (idOf aggregate.state)).map Aggregate.version⟩ s
        (some ⟨aggregate, made, .locked⟩) (some ⟨aggregate, made, .refused⟩)
  | store {choice : WriterChoice} {aggregate : Aggregate St E} {made : List OutboxMessage} :
      Move trace i s past ⟨choice, .unitOfWork (.insertAggregate (stored aggregate)), ()⟩
        { s with aggregates := s.aggregates.put (idOf aggregate.state) (stored aggregate) }
        (some ⟨aggregate, made, .ready⟩) (some ⟨aggregate, made, .committing made⟩)
  | insert {choice : WriterChoice} {aggregate : Aggregate St E} {made left : List OutboxMessage}
      {message : OutboxMessage} :
      Move trace i s past ⟨choice, .unitOfWork (.insertOutbox message), .ok ()⟩
        { s with outbox := s.outbox.write message }
        (some ⟨aggregate, made, .committing (message :: left)⟩)
        (some ⟨aggregate, made, .committing left⟩)
  | release {choice : WriterChoice} {aggregate : Aggregate St E} {made : List OutboxMessage}
      {phase : Phase} (ended : phase = .refused ∨ phase = .torn) :
      Move trace i s past ⟨choice, .unitOfWork .unlock, ()⟩ { s with holder := none }
        (some ⟨aggregate, made, phase⟩) (some ⟨aggregate, made, .aborted⟩)
  | settle {choice : WriterChoice} {aggregate : Aggregate St E} {made : List OutboxMessage} :
      Move trace i s past ⟨choice, .unitOfWork .unlock, ()⟩ { s with holder := none }
        (some ⟨aggregate, made, .committing []⟩) (some ⟨aggregate, made, .committed⟩)

variable {idOf mode} {trace : List (WriterEntry E idOf)} {i : ℕ} {s s' : UnitOfWorkShared I St E}
  {past : List (WriterEvent I St E)} {choice : WriterChoice} {op : WriterOp I St E} {reply : op.Reply}

/-- Every step of a writer is a move. -/
theorem move_of_serve (writes : Writes idOf mode i past op) (next : Next idOf trace choice op)
    (served : serve idOf s choice op = some (s', reply)) :
    ∃ before after, attempt past = before ∧ attempt (⟨choice, op, reply⟩ :: past) = after ∧
      Move idOf mode trace i s past ⟨choice, op, reply⟩ s' before after := by
  have goes : ∀ {running : Attempt St E}, attempt past = some running → Within op →
      attempt (⟨choice, op, reply⟩ :: past) = some (running.after ⟨choice, op, reply⟩) := by
    intro running found within
    rw [attempt_within _ within, found]
    rfl
  cases op with
  | saving aggregate =>
      cases served
      exact ⟨_, _, writes.1, rfl, .start writes.2⟩
  | saved result =>
      cases served
      obtain ⟨running, found, returned⟩ := writes
      exact ⟨_, _, found, rfl, .finish returned⟩
  | toVec event =>
      cases served
      obtain ⟨aggregate, made, found, next⟩ := writes
      exact ⟨_, _, found, goes found trivial, .serialize next⟩
  | messageId =>
      cases served
      obtain ⟨aggregate, made, payload, found⟩ := writes
      exact ⟨_, _, found, goes found trivial, .identify next⟩
  | notify signal =>
      cases served
      obtain ⟨aggregate, made, found⟩ := writes
      exact ⟨_, _, found, goes found trivial, .signal⟩
  | unitOfWork op =>
      have answered : InMemoryUnitOfWork.serve idOf s choice.unitOfWork op = some (s', reply) := served
      cases op with
      | utcNow =>
          cases answered
          obtain ⟨aggregate, made, payload, found⟩ := writes
          exact ⟨_, _, found, goes found trivial, .read next⟩
      | nowV7 number now message =>
          obtain ⟨rfl, aggregate, made, payload, event, id, found, at_event, rfl⟩ := writes
          rw [InMemoryUnitOfWork.serve] at answered
          split at answered
          · next undrawn =>
            cases answered
            exact ⟨_, _, found, goes found trivial, .make at_event undrawn next rfl⟩
          · cases answered
      | lock number =>
          obtain ⟨rfl, aggregate, made, found, all⟩ := writes
          rw [InMemoryUnitOfWork.serve] at answered
          split at answered
          · next free =>
            cases answered
            exact ⟨_, _, found, goes found trivial, .lock free all⟩
          · cases answered
      | unlock =>
          cases answered
          obtain ⟨aggregate, made, phase, found, ended⟩ := writes
          rcases ended with rfl | rfl | rfl
          · exact ⟨_, _, found, goes found trivial, .release (.inl rfl)⟩
          · exact ⟨_, _, found, goes found trivial, .release (.inr rfl)⟩
          · exact ⟨_, _, found, goes found trivial, .settle⟩
      | version id =>
          cases answered
          obtain ⟨aggregate, made, found, rfl⟩ := writes
          have checked := goes found trivial
          rw [Attempt.after] at checked
          split at checked
          · next current => exact ⟨_, _, found, checked, .accept current⟩
          · exact ⟨_, _, found, checked, .refuse⟩
      | insertAggregate written =>
          cases answered
          obtain ⟨aggregate, made, found, rfl⟩ := writes
          exact ⟨_, _, found, goes found trivial, .store⟩
      | insertOutbox message =>
          cases answered
          obtain ⟨aggregate, made, left, found⟩ := writes
          exact ⟨_, _, found, goes found trivial, .insert⟩
      | find id =>
          cases answered
          have idle : attempt past = none := writes
          refine ⟨_, _, idle, ?_, .look⟩
          rw [attempt_within ⟨choice, .unitOfWork (.find id), _⟩ trivial, idle]
          rfl
      | _ => exact writes.elim

end Moves

/-! ## Rules for runs -/

section Rules

variable {I St E : Type} [DecidableEq I] {idOf : St → I} {mode : OutboxMode E}
  {outbox : InMemoryOutboxRepository} {p : WriterPool E idOf}

/-- The writers can get here. -/
abbrev Reached (mode : OutboxMode E) (outbox : InMemoryOutboxRepository) (p : WriterPool E idOf) :
    Prop :=
  (system idOf mode).Reaches (Clocked idOf) (noWriters idOf outbox) p

theorem writer_of_reaches
    (reached : Reached mode outbox p) :
    ∀ (i : ℕ) (t : RunningWriter E idOf), p.tasks[i]? = some t → t.args.caller = i := by
  refine (reached.numbered UnitOfWorkShared.callers NumberedJob.caller rfl rfl ?_ ?_).2
  · intro s job s' args arrived
    cases arrived
    exact ⟨_, rfl, rfl, rfl⟩
  · intro s choice op s' reply served
    cases op with
    | unitOfWork op => exact InMemoryUnitOfWork.callers_of_serve served
    | _ =>
        cases served
        rfl

/-- What holds at first, and is kept by arrivals and moves, holds on every run. -/
theorem invariant_of_moves {P : WriterPool E idOf → Prop}
    (reached : Reached mode outbox p)
    (initial : P (noWriters idOf outbox))
    (arrived : ∀ {q : WriterPool E idOf} (job : NumberedJob E idOf), P q →
      P (q.start (system idOf mode).body { q.shared with callers := q.shared.callers + 1 } [job]))
    (moved : ∀ {q : WriterPool E idOf} {i : ℕ} {t : RunningWriter E idOf} {event : WriterEvent I St E}
      {shared : UnitOfWorkShared I St E} {before after : Option (Attempt St E)}
      (rest : WriterM I St E Unit),
      Reached mode outbox q → P q →
      q.tasks[i]? = some t → attempt t.past = before → attempt (event :: t.past) = after →
      Move idOf mode q.trace i q.shared t.past event shared before after →
      P (q.advance i t event shared rest)) : P p := by
  refine reached.invariant initial ?_
  intro q r action reached kept side stepped
  obtain ⟨job, shared, args, rfl, arrives, rfl⟩ |
    ⟨i, choice, t, op, next, shared, reply, rfl, found, awaits, served, rfl⟩ :=
    System.step_cases stepped
  · cases arrives
    exact arrived _ kept
  · have writes : Writes idOf mode t.args.caller t.past op :=
      reached.obeys_op (P := fun job => Writes idOf mode job.caller) (Q := fun _ _ _ => True) rfl
        (fun job => obeys_write job.script rfl (.inl rfl)) found awaits
    rw [writer_of_reaches reached i t found] at writes
    have answers : Next idOf q.trace choice op := side t found op (awaits ▸ rfl)
    obtain ⟨before, after, was, is, move⟩ := move_of_serve writes answers served
    exact moved _ reached kept found was is move

/-- What every running save satisfies: a move keeps it for the writer that acts and for the others. -/
theorem forall_attempts
    {R : UnitOfWorkShared I St E → List (WriterEntry E idOf) → ℕ → Attempt St E → Prop}
    (reached : Reached mode outbox p)
    (arrived : ∀ {s trace i running}, R s trace i running →
      R { s with callers := s.callers + 1 } trace i running)
    (acted : ∀ {q : WriterPool E idOf} {i : ℕ} {t : RunningWriter E idOf} {event : WriterEvent I St E}
      {shared : UnitOfWorkShared I St E} {before : Option (Attempt St E)} {running : Attempt St E},
      Reached mode outbox q → q.tasks[i]? = some t →
      attempt t.past = before →
      Move idOf mode q.trace i q.shared t.past event shared before (some running) →
      (∀ earlier, before = some earlier → R q.shared q.trace i earlier) →
      R shared (q.trace ++ [⟨i, t.args, t.past, q.shared, event⟩]) i running)
    (others : ∀ {q : WriterPool E idOf} {i j : ℕ} {t : RunningWriter E idOf}
      {event : WriterEvent I St E} {shared : UnitOfWorkShared I St E}
      {before after : Option (Attempt St E)} {running : Attempt St E},
      Reached mode outbox q → q.tasks[i]? = some t →
      attempt t.past = before → Move idOf mode q.trace i q.shared t.past event shared before after →
      (∀ earlier, before = some earlier → R q.shared q.trace i earlier) → j ≠ i →
      (∃ u : RunningWriter E idOf, q.tasks[j]? = some u ∧ attempt u.past = some running) →
      R q.shared q.trace j running →
      R shared (q.trace ++ [⟨i, t.args, t.past, q.shared, event⟩]) j running) :
    ∀ (i : ℕ) (t : RunningWriter E idOf) (running : Attempt St E), p.tasks[i]? = some t →
      attempt t.past = some running → R p.shared p.trace i running := by
  refine invariant_of_moves (P := fun p => ∀ (i : ℕ) (t : RunningWriter E idOf)
    (running : Attempt St E), p.tasks[i]? = some t → attempt t.past = some running →
      R p.shared p.trace i running) reached ?_ ?_ ?_
  · intro i t running found
    cases found
  · intro q job kept i t running found runs
    rcases Pool.getElem?_start found with old | ⟨-, a, -, rfl⟩
    · exact arrived (kept i t running old runs)
    · cases runs
  · intro q i t event shared before after rest reached kept found was is move j u running at_j runs
    have own : ∀ earlier, before = some earlier → R q.shared q.trace i earlier :=
      fun earlier same => kept i t earlier found (was.trans same)
    rcases Pool.getElem?_advance found at_j with ⟨rfl, rfl⟩ | ⟨distinct, old⟩
    · cases is.symm.trans runs
      exact acted reached found was move own
    · exact others reached found was move own distinct ⟨u, old, runs⟩ (kept j u running old runs)

end Rules

/-! ## The mutex and the versions -/

section Versions

variable {I St E : Type} [DecidableEq I] {idOf : St → I} {mode : OutboxMode E}
  {outbox : InMemoryOutboxRepository} {p : WriterPool E idOf}

/-- The transaction is open. -/
def Phase.Holds : Phase → Prop
  | .locked | .ready | .refused | .committing _ | .torn => True
  | _ => False

theorem Phase.Returns.not_holds {phase : Phase} {result : Except StoreError Unit}
    (returned : phase.Returns result) : ¬ phase.Holds := by
  cases result with
  | ok _ =>
      cases returned
      exact id
  | error error =>
      rcases returned with rfl | ⟨payload, clock, rfl⟩
      · exact id
      · exact id

/-- An open transaction holds the mutex. -/
theorem holder_of_holds (reached : Reached mode outbox p) :
    ∀ (i : ℕ) (t : RunningWriter E idOf) (running : Attempt St E), p.tasks[i]? = some t →
      attempt t.past = some running → running.phase.Holds → p.shared.holder = some i := by
  refine forall_attempts (R := fun s _ i running => running.phase.Holds → s.holder = some i) reached
    (fun held => held) ?_ ?_
  · intro q i t event shared before running _ _ _ move own holds
    cases move with
    | lock free all => rfl
    | start knows => exact holds.elim
    | serialize next => exact holds.elim
    | identify fresh => exact holds.elim
    | read later => exact holds.elim
    | make next undrawn fresh built => exact holds.elim
    | release ended => exact holds.elim
    | settle => exact holds.elim
    | signal => exact own _ rfl holds
    | accept current => exact own _ rfl trivial
    | refuse => exact own _ rfl trivial
    | store => exact own _ rfl trivial
    | insert => exact own _ rfl trivial
  · intro q i j t event shared before after running _ _ _ move own distinct _ held holds
    have still := held holds
    -- only the mutex itself is of interest, and no other writer can touch it
    cases move with
    | lock free all =>
        rw [free] at still
        cases still
    | release ended =>
        rcases ended with rfl | rfl
        · exact absurd (Option.some.inj (still.symm.trans (own _ rfl trivial))) distinct
        · exact absurd (Option.some.inj (still.symm.trans (own _ rfl trivial))) distinct
    | settle => exact absurd (Option.some.inj (still.symm.trans (own _ rfl trivial))) distinct
    | _ => exact still

/-- Two open transactions are the same. -/
theorem eq_of_holds (reached : Reached mode outbox p) {i j : ℕ} {t u : RunningWriter E idOf}
    {first second : Attempt St E} (at_i : p.tasks[i]? = some t) (at_j : p.tasks[j]? = some u)
    (runs : attempt t.past = some first) (runs' : attempt u.past = some second)
    (holds : first.phase.Holds) (holds' : second.phase.Holds) : i = j :=
  Option.some.inj ((holder_of_holds reached i t first at_i runs holds).symm.trans
    (holder_of_holds reached j u second at_j runs' holds'))

/-- A save that passed its check may still commit. -/
theorem storedVersion_of_ready (reached : Reached mode outbox p) :
    ∀ (i : ℕ) (t : RunningWriter E idOf) (running : Attempt St E), p.tasks[i]? = some t →
      attempt t.past = some running → running.phase = .ready →
      storedVersion p.shared (idOf running.aggregate.state) = running.aggregate.version := by
  refine forall_attempts (R := fun s _ _ running => running.phase = .ready →
    storedVersion s (idOf running.aggregate.state) = running.aggregate.version) reached
    (fun current => current) ?_ ?_
  · intro q i t event shared before running _ _ _ move own ready
    cases move with
    | accept current => exact current
    | signal => exact own _ rfl ready
    | _ => cases ready
  · intro q i j t event shared before after running reached found was move _ distinct other current ready
    cases move with
    | store =>
        obtain ⟨u, at_j, runs⟩ := other
        have holds : running.phase.Holds := by
          rw [ready]
          trivial
        exact absurd (eq_of_holds reached at_j found runs was holds trivial) distinct
    | _ => exact current ready

/-- What a commit makes of the versions. -/
theorem storedVersion_store (s : UnitOfWorkShared I St E) (aggregate : Aggregate St E) (id : I) :
    storedVersion { s with
        aggregates := s.aggregates.put (idOf aggregate.state) (stored aggregate) } id =
      if id = idOf aggregate.state then aggregate.version + 1 else storedVersion s id := by
  rw [storedVersion, DashMap.get_put]
  split
  · rfl
  · rfl

/-- Versions only grow. -/
theorem storedVersion_le_of_move (reached : Reached mode outbox p) {i : ℕ}
    {t : RunningWriter E idOf} {event : WriterEvent I St E} {shared : UnitOfWorkShared I St E}
    {before after : Option (Attempt St E)} (found : p.tasks[i]? = some t)
    (was : attempt t.past = before)
    (move : Move idOf mode p.trace i p.shared t.past event shared before after) (id : I) :
    storedVersion p.shared id ≤ storedVersion shared id := by
  cases move with
  | store =>
      rw [storedVersion_store]
      split
      · next here =>
        rw [here, storedVersion_of_ready reached i t _ found was rfl]
        exact Nat.le_succ _
      · exact Nat.le_refl _
  | _ => exact Nat.le_refl _

/-- Aggregates are stored under their own id. -/
theorem keyed_of_reaches (reached : Reached mode outbox p) :
    ∀ id aggregate, p.shared.aggregates.get id = some aggregate → idOf aggregate.state = id := by
  refine invariant_of_moves (P := fun p => ∀ id aggregate,
    p.shared.aggregates.get id = some aggregate → idOf aggregate.state = id) reached ?_ ?_ ?_
  · intro id aggregate found
    cases found
  · intro q job keyed
    exact keyed
  · intro q i t event shared before after rest _ keyed _ _ _ move id aggregate found
    cases move with
    | store =>
        rcases DashMap.get_put_cases found with ⟨rfl, rfl⟩ | ⟨-, old⟩
        · rfl
        · exact keyed id aggregate old
    | _ => exact keyed id aggregate found

/-- What a writer has learned is not ahead of what is stored. -/
theorem learned_le_of_reaches (reached : Reached mode outbox p) :
    ∀ t ∈ p.tasks, ∀ known ∈ t.past.filterMap (learned idOf),
      known.2 ≤ storedVersion p.shared known.1 := by
  refine invariant_of_moves (P := fun p => ∀ t ∈ p.tasks, ∀ known ∈ t.past.filterMap (learned idOf),
    known.2 ≤ storedVersion p.shared known.1) reached ?_ ?_ ?_
  · intro t started
    cases started
  · intro q job kept t started known member
    rcases Pool.mem_start started with old | ⟨a, -, rfl⟩
    · exact kept t old known member
    · cases member
  · intro q i t event shared before after rest reached kept found was _ move u started known member
    have grows := storedVersion_le_of_move reached found was move
    rcases List.mem_or_eq_of_mem_set started with old | rfl
    · exact (kept u old known member).trans (grows known.1)
    · obtain ⟨latest, among, learns⟩ := List.mem_filterMap.mp member
      rcases List.mem_cons.mp among with rfl | earlier
      · cases move with
        | look =>
            obtain ⟨aggregate, stored, rfl⟩ := Option.map_eq_some_iff.mp learns
            have same := keyed_of_reaches reached _ aggregate stored
            rw [Pool.advance_shared, storedVersion, same, stored]
            exact Nat.le_refl _
        | store =>
            cases learns
            rw [Pool.advance_shared, storedVersion_store]
            exact Nat.le_of_eq (if_pos rfl).symm
        | _ => cases learns
      · have member := List.mem_filterMap.mpr ⟨latest, earlier, learns⟩
        exact (kept t (List.mem_of_getElem? found) known member).trans (grows known.1)

/-- A save starts from a version that was stored. -/
theorem version_le_of_reaches (reached : Reached mode outbox p) :
    ∀ (i : ℕ) (t : RunningWriter E idOf) (running : Attempt St E), p.tasks[i]? = some t →
      attempt t.past = some running →
      running.aggregate.version ≤ storedVersion p.shared (idOf running.aggregate.state) := by
  refine forall_attempts (R := fun s _ _ running =>
    running.aggregate.version ≤ storedVersion s (idOf running.aggregate.state)) reached
    (fun kept => kept) ?_ ?_
  · intro q i t event shared before running reached found was move own
    have grows := storedVersion_le_of_move reached found was move
    cases move with
    | start knows =>
        rcases knows with new | member
        · exact new ▸ Nat.zero_le _
        · exact learned_le_of_reaches reached t (List.mem_of_getElem? found) _ member
    | store => exact (own _ rfl).trans (grows _)
    | _ =>
        have began := own _ rfl
        exact began
  · intro q i j t event shared before after running reached found was move _ _ _ kept
    exact kept.trans (storedVersion_le_of_move reached found was move _)

end Versions

/-! ## The order of the trace -/

section Trace

variable {I St E : Type} [DecidableEq I] {idOf : St → I} {mode : OutboxMode E}
  {outbox : InMemoryOutboxRepository} {p : WriterPool E idOf}

/-- One entry comes before another: neither the version of an aggregate, nor the clock, nor the
generator of ids goes back. -/
structure Earlier (id : I) (first second : WriterEntry E idOf) : Prop where
  version : storedVersion first.before id ≤ storedVersion second.before id
  clock : ∀ then_ ∈ clockOf first.event, ∀ now ∈ clockOf second.event, then_ ≤ now
  draw : ∀ old ∈ drawOf first.event, ∀ new ∈ drawOf second.event, old < new

/-- A move reads a later time and draws a larger id than the trace has. -/
theorem earlier_of_move {trace : List (WriterEntry E idOf)} {i : ℕ} {s s' : UnitOfWorkShared I St E}
    {past : List (WriterEvent I St E)} {event : WriterEvent I St E}
    {before after : Option (Attempt St E)}
    (move : Move idOf mode trace i s past event s' before after) :
    (∀ entry ∈ trace, ∀ then_ ∈ clockOf entry.event, ∀ now ∈ clockOf event, then_ ≤ now) ∧
      ∀ entry ∈ trace, ∀ old ∈ drawOf entry.event, ∀ new ∈ drawOf event, old < new := by
  cases move with
  | read later =>
      refine ⟨fun entry member then_ read now same => ?_, fun _ _ _ _ _ same => (by cases same)⟩
      cases same
      exact later entry member then_ read
  | identify fresh =>
      refine ⟨fun _ _ _ _ _ same => (by cases same), fun entry member old drawn new same => ?_⟩
      cases same
      exact fresh entry member old drawn
  | make next undrawn fresh built =>
      refine ⟨fun _ _ _ _ _ same => (by cases same), fun entry member old drawn new same => ?_⟩
      cases same
      rw [built]
      exact fresh entry member old drawn
  | _ => exact ⟨fun _ _ _ _ _ same => (by cases same), fun _ _ _ _ _ same => (by cases same)⟩

/-- The trace is ordered, and the present version is the largest. -/
theorem trace_ordered (reached : Reached mode outbox p) (id : I) :
    p.trace.Pairwise (Earlier id) ∧
      ∀ entry ∈ p.trace, storedVersion entry.before id ≤ storedVersion p.shared id := by
  refine invariant_of_moves (P := fun p => p.trace.Pairwise (Earlier id) ∧
    ∀ entry ∈ p.trace, storedVersion entry.before id ≤ storedVersion p.shared id) reached ?_ ?_ ?_
  · exact ⟨.nil, fun entry member => by cases member⟩
  · intro q job ordered
    exact ordered
  · intro q i t event shared before after rest reached ordered found was _ move
    obtain ⟨pairs, present⟩ := ordered
    obtain ⟨clocks, draws⟩ := earlier_of_move move
    have grows := storedVersion_le_of_move reached found was move id
    rw [Pool.advance_trace, Pool.advance_shared]
    refine ⟨List.pairwise_append.mpr ⟨pairs, List.pairwise_singleton _ _, ?_⟩, ?_⟩
    · intro entry member last same
      cases List.mem_singleton.mp same
      exact ⟨present entry member, clocks entry member, draws entry member⟩
    · intro entry member
      rcases List.mem_append.mp member with old | last
      · exact (present entry old).trans grows
      · cases List.mem_singleton.mp last
        exact grows

/-- Of two entries of the trace, one comes before the other. -/
theorem trace_cases (reached : Reached mode outbox p) (id : I) {first second : WriterEntry E idOf}
    (member : first ∈ p.trace) (member' : second ∈ p.trace) :
    first = second ∨ Earlier id first second ∨ Earlier id second first := by
  by_cases same : first = second
  · exact .inl same
  · have pairs := (trace_ordered reached id).1.imp fun {a b} (earlier : Earlier id a b) =>
      (Or.inl earlier : Earlier id a b ∨ Earlier id b a)
    have : Std.Symm fun a b : WriterEntry E idOf => Earlier id a b ∨ Earlier id b a :=
      ⟨fun _ _ => Or.symm⟩
    exact .inr (pairs.forall member member' same)

/-- An entry that met an older version comes before one that met a newer one. -/
theorem earlier_of_lt (reached : Reached mode outbox p) {id : I} {first second : WriterEntry E idOf}
    (member : first ∈ p.trace) (member' : second ∈ p.trace)
    (older : storedVersion first.before id < storedVersion second.before id) :
    Earlier id first second := by
  rcases trace_cases reached id member member' with rfl | before | after
  · exact absurd older (Nat.lt_irrefl _)
  · exact before
  · exact absurd after.version (Nat.not_le.mpr older)

/-- No id is drawn twice. -/
theorem eq_of_draw (reached : Reached mode outbox p) (id : I) {first second : WriterEntry E idOf}
    (member : first ∈ p.trace) (member' : second ∈ p.trace) {uuid : Uuid}
    (draws : drawOf first.event = some uuid) (draws' : drawOf second.event = some uuid) :
    first = second := by
  rcases trace_cases reached id member member' with same | before | after
  · exact same
  · exact absurd (before.draw uuid draws uuid draws') (Nat.lt_irrefl _)
  · exact absurd (after.draw uuid draws' uuid draws) (Nat.lt_irrefl _)

end Trace

end OutboxWriter

end Pharos

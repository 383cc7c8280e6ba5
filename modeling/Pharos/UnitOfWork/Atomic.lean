import Pharos.UnitOfWork.Outline

/-!
# Transactions are atomic and serializable

Every call on the unit of work writes its aggregate and its messages or nothing, and the stored
version of an id counts the calls that wrote it.  Both follow from the outline: an aggregate is
written over the version its caller expects and under the mutex.
-/

namespace Pharos

namespace InMemoryUnitOfWork

open Async

section Atomic

variable {I St E : Type} [DecidableEq I] (idOf : St → I)

/-- The call wrote its aggregate, under `id`. -/
def Committed (id : I) (t : RunningCall I St E) : Bool :=
  match t.args.call with
  | .saveAndEnqueue aggregate => decide (idOf aggregate.state = id) && !(written t.past).isEmpty
  | _ => false

/-- The call returned `Ok`, for an aggregate with `id`. -/
def Succeeded (id : I) (t : RunningCall I St E) : Bool :=
  match t.args.call, t.rest.result with
  | .saveAndEnqueue aggregate, some (.enqueued _ (.ok ())) => decide (idOf aggregate.state = id)
  | _, _ => false

variable {idOf} {task : UnitOfWorkTask I St E} {past : List (UnitOfWorkEvent I St E)}
  {s s' : UnitOfWorkShared I St E} {choice : UnitOfWorkChoice} {op : UnitOfWorkOp I St E}
  {reply : op.Reply} {aggregate other : Aggregate St E}
  {outbox : InMemoryOutboxRepository} {p : UnitOfWorkPool I St E} {i j : ℕ}
  {t u : RunningCall I St E} {next : op.Reply → UnitOfWorkM I St E (UnitOfWorkReturn St E)}

/-- Nothing but a write changes the aggregates, and nothing but an insert the outbox. -/
theorem unchanged_of_serve (pre : Pre idOf task past s op)
    (served : serve idOf s choice op = some (s', reply)) :
    (writtenBy ⟨choice, op, reply⟩ = none → s'.aggregates = s.aggregates) ∧
      (insertedBy ⟨choice, op, reply⟩ = none → s'.outbox = s.outbox) := by
  have allowed : (∀ aggregate, op ≠ .save aggregate) ∧ ∀ id, op ≠ .remove id := by
    unfold Pre at pre
    split at pre
    · refine ⟨?_, ?_⟩
      · rintro aggregate rfl
        exact pre.2
      · rintro id rfl
        exact pre.2
    · subst pre
      exact ⟨fun _ same => (by cases same), fun _ same => (by cases same)⟩
    · subst pre
      exact ⟨fun _ same => (by cases same), fun _ same => (by cases same)⟩
    · exact pre.elim
    · exact pre.elim
  cases op with
  | nowV7 number now message =>
      have answered : serve idOf s choice (.nowV7 number now message) = some (s', reply) := served
      rw [serve] at answered
      split at answered
      · cases answered
        exact ⟨fun _ => rfl, fun _ => rfl⟩
      · cases answered
  | lock number =>
      have answered : serve idOf s choice (.lock number) = some (s', reply) := served
      rw [serve] at answered
      split at answered
      · cases answered
        exact ⟨fun _ => rfl, fun _ => rfl⟩
      · cases answered
  | insertAggregate written =>
      cases served
      exact ⟨fun wrote => (by cases wrote), fun _ => rfl⟩
  | insertOutbox message =>
      cases served
      exact ⟨fun _ => rfl, fun inserts => (by cases inserts)⟩
  | save aggregate => exact (allowed.1 aggregate rfl).elim
  | remove id => exact (allowed.2 id rfl).elim
  | _ =>
      cases served
      exact ⟨fun _ => rfl, fun _ => rfl⟩

/-- A message is inserted by the call that made it. -/
theorem insert_of_pre {message : OutboxMessage} (pre : Pre idOf task past s op)
    (inserts : insertedBy ⟨choice, op, reply⟩ = some message) :
    (message.id, task.caller) ∈ s.drawn ∧ op = .insertOutbox message := by
  cases op with
  | insertOutbox other =>
      cases inserts
      unfold Pre at pre
      split at pre
      · exact ⟨pre.2.2.1, rfl⟩
      · cases pre
      · cases pre
      · exact pre.elim
      · exact pre.elim
  | _ => cases inserts

/-- An aggregate is written once, over the version its call expects. -/
theorem write_of_reaches (reached : (system idOf).Reaches Transacts (initial outbox) p)
    (found : p.tasks[i]? = some t) (awaits : t.rest = .await op next)
    (writes : writtenBy ⟨choice, op, reply⟩ = some other) :
    ∃ aggregate, t.args.call = .saveAndEnqueue aggregate ∧ other = stored aggregate ∧
      op = .insertAggregate other ∧ written t.past = [] ∧
      storedVersion p.shared (idOf aggregate.state) = aggregate.version := by
  cases op with
  | insertAggregate written =>
      cases writes
      cases called : t.args.call with
      | saveAndEnqueue aggregate =>
          obtain ⟨progress, -, rfl, before⟩ := pre_of_reaches reached found called awaits
          refine ⟨aggregate, rfl, rfl, rfl, ?_, before⟩
          rcases progress.write with ⟨nothing, -⟩ | ⟨-, behind⟩
          · exact nothing
          · exact absurd behind (by omega)
      | _ =>
          have pre : Pre idOf t.args t.past p.shared (.insertAggregate other) :=
            (outline_of_reaches reached).pre found awaits
          unfold Pre at pre
          rw [called] at pre
          cases pre
  | _ => cases writes

/-! ## The stored version -/

/-- The stored version of an id counts the calls that wrote it. -/
theorem storedVersion_eq_countP (reached : (system idOf).Reaches Transacts (initial outbox) p)
    (id : I) : storedVersion p.shared id = p.tasks.countP (Committed idOf id) := by
  refine reached.invariant (P := fun p : UnitOfWorkPool I St E =>
    storedVersion p.shared id = p.tasks.countP (Committed idOf id)) rfl ?_
  intro q r action before count _ stepped
  obtain ⟨call, shared, args, rfl, arrived, rfl⟩ |
    ⟨i, choice, t, op, next, shared, reply, rfl, found, awaits, served, rfl⟩ :=
    System.step_cases stepped
  · cases arrived
    have idle : Committed idOf id ⟨⟨q.shared.callers, call⟩, [],
        (system idOf).body ⟨q.shared.callers, call⟩⟩ = false := by
      unfold Committed
      cases call with
      | saveAndEnqueue aggregate => simp [written]
      | _ => rfl
    rw [Pool.start_tasks, List.countP_append, List.map_singleton, List.countP_singleton]
    rw [if_neg (Bool.eq_false_iff.mp idle), Nat.add_zero]
    exact count
  · have exchange := countP_set_add found
      (⟨t.args, ⟨choice, op, reply⟩ :: t.past, next reply⟩ : RunningCall I St E) (Committed idOf id)
    rw [Pool.advance_shared, Pool.advance_tasks]
    cases writes : writtenBy (⟨choice, op, reply⟩ : UnitOfWorkEvent I St E) with
    | none =>
        have same : Committed idOf id ⟨t.args, ⟨choice, op, reply⟩ :: t.past, next reply⟩ =
            Committed idOf id t := by
          unfold Committed
          rw [written_of_quiet writes]
        have kept := (unchanged_of_serve ((outline_of_reaches before).pre found awaits) served).1 writes
        rw [same] at exchange
        have version : storedVersion shared id = storedVersion q.shared id := by
          unfold storedVersion
          rw [kept]
        omega
    | some other =>
        obtain ⟨aggregate, called, rfl, rfl, nothing, version⟩ :=
          write_of_reaches before found awaits writes
        cases served
        have fresh : Committed idOf id t = false := by
          unfold Committed
          rw [called, nothing]
          exact Bool.and_false _
        have now : Committed idOf id ⟨t.args, ⟨choice, .insertAggregate (stored aggregate), ()⟩ ::
            t.past, next ()⟩ = decide (idOf aggregate.state = id) := by
          unfold Committed
          rw [called, written_insertAggregate, nothing]
          exact Bool.and_true _
        rw [fresh, now] at exchange
        rw [storedVersion_put]
        by_cases here : idOf aggregate.state = id
        · subst here
          have advanced : (stored aggregate).version = aggregate.version + 1 := rfl
          have key : idOf (stored aggregate).state = idOf aggregate.state := rfl
          simp only [decide_true, if_true, Bool.false_eq_true, if_false] at exchange
          rw [key, if_pos rfl]
          omega
        · have elsewhere : id ≠ idOf (stored aggregate).state := Ne.symm here
          simp only [here, decide_false, Bool.false_eq_true, if_false] at exchange
          rw [if_neg elsewhere]
          omega

/-- Two calls that wrote the same id started from different versions. -/
def VersionsApart (idOf : St → I) (p : UnitOfWorkPool I St E) : Prop :=
  ∀ (i j : ℕ) (t u : RunningCall I St E) (aggregate other : Aggregate St E), i ≠ j →
    p.tasks[i]? = some t → p.tasks[j]? = some u → t.args.call = .saveAndEnqueue aggregate →
    u.args.call = .saveAndEnqueue other → written t.past ≠ [] → written u.past ≠ [] →
    idOf aggregate.state = idOf other.state → aggregate.version ≠ other.version

/-- What a call wrote lies behind the stored version. -/
theorem version_lt_of_written (reached : (system idOf).Reaches Transacts (initial outbox) p)
    (found : p.tasks[i]? = some t) (called : t.args.call = .saveAndEnqueue aggregate)
    (wrote : written t.past ≠ []) :
    aggregate.version < storedVersion p.shared (idOf aggregate.state) := by
  rcases (progress_of_reaches reached found called).write with ⟨nothing, -⟩ | ⟨-, behind⟩
  · exact (wrote nothing).elim
  · exact behind

theorem versionsApart_of_reaches (reached : (system idOf).Reaches Transacts (initial outbox) p) :
    VersionsApart idOf p := by
  refine reached.invariant (P := VersionsApart idOf) ?_ ?_
  · intro i j t u aggregate other _ found
    cases found
  · intro q r action before apart _ stepped
    obtain ⟨call, shared, args, rfl, arrived, rfl⟩ |
      ⟨k, choice, v, op, next, shared, reply, rfl, found, awaits, served, rfl⟩ :=
      System.step_cases stepped
    · intro i j t u aggregate other distinct at_i at_j called called' wrote wrote' same
      rcases Pool.getElem?_start at_i with old | ⟨-, a, -, rfl⟩
      · rcases Pool.getElem?_start at_j with old' | ⟨-, a, -, rfl⟩
        · exact apart i j t u aggregate other distinct old old' called called' wrote wrote' same
        · exact (wrote' rfl).elim
      · exact (wrote rfl).elim
    · -- the acting call has written before, or writes now over the version it expects
      have acted {a b : Aggregate St E} {u : RunningCall I St E} {j : ℕ} (distinct : k ≠ j)
          (at_j : q.tasks[j]? = some u) (called : v.args.call = .saveAndEnqueue a)
          (called' : u.args.call = .saveAndEnqueue b)
          (wrote : written (⟨choice, op, reply⟩ :: v.past) ≠ []) (wrote' : written u.past ≠ [])
          (same : idOf a.state = idOf b.state) : a.version ≠ b.version := by
        cases writes : writtenBy (⟨choice, op, reply⟩ : UnitOfWorkEvent I St E) with
        | none =>
            rw [written_of_quiet writes] at wrote
            exact apart k j v u a b distinct found at_j called called' wrote wrote' same
        | some written =>
            obtain ⟨aggregate, called'', -, -, -, version⟩ := write_of_reaches before found awaits writes
            cases called.symm.trans called''
            have behind := version_lt_of_written before at_j called' wrote'
            rw [← same] at behind
            omega
      intro i j t u aggregate other distinct at_i at_j called called' wrote wrote' same
      rcases Pool.getElem?_advance found at_i with ⟨rfl, rfl⟩ | ⟨apart_i, old⟩
      · rcases Pool.getElem?_advance found at_j with ⟨rfl, -⟩ | ⟨-, old'⟩
        · exact (distinct rfl).elim
        · exact acted distinct old' called called' wrote wrote' same
      · rcases Pool.getElem?_advance found at_j with ⟨rfl, rfl⟩ | ⟨-, old'⟩
        · exact (acted apart_i.symm old called' called wrote' wrote same.symm).symm
        · exact apart i j t u aggregate other distinct old old' called called' wrote wrote' same

/-! ## The outbox -/

theorem drawn_of_serve (served : serve idOf s choice op = some (s', reply)) :
    ∀ entry ∈ s'.drawn, entry ∈ s.drawn ∨ s.outbox.get entry.1 = none := by
  cases op with
  | nowV7 number now message =>
      have answered : serve idOf s choice (.nowV7 number now message) = some (s', reply) := served
      rw [serve] at answered
      split at answered
      · next undrawn =>
        cases answered
        intro entry member
        rcases List.mem_cons.mp member with rfl | old
        · exact .inr undrawn.2
        · exact .inl old
      · cases answered
  | lock number =>
      have answered : serve idOf s choice (.lock number) = some (s', reply) := served
      rw [serve] at answered
      split at answered
      · cases answered
        exact fun entry member => .inl member
      · cases answered
  | _ =>
      cases served
      exact fun entry member => .inl member

/-- What became of the outbox that the unit of work was given. -/
structure Rows (outbox : InMemoryOutboxRepository) (p : UnitOfWorkPool I St E) : Prop where
  kept : ∀ id row, outbox.get id = some row → p.shared.outbox.get id = some row
  known : ∀ id row, p.shared.outbox.get id = some row →
    outbox.get id = some row ∨ ∃ t ∈ p.tasks, row ∈ inserted t.past
  fresh : ∀ entry ∈ p.shared.drawn, outbox.get entry.1 = none

omit [DecidableEq I] in
theorem inserted_subset {past' : List (UnitOfWorkEvent I St E)} (earlier : past <:+ past') :
    inserted past ⊆ inserted past' := by
  intro row member
  unfold inserted at member ⊢
  rw [List.mem_reverse, List.mem_filterMap] at member ⊢
  obtain ⟨source, among, same⟩ := member
  exact ⟨source, earlier.subset among, same⟩

theorem rows_of_reaches (reached : (system idOf).Reaches Transacts (initial outbox) p) :
    Rows outbox p := by
  refine reached.invariant (P := Rows outbox) ?_ ?_
  · exact ⟨fun _ _ found => found, fun _ _ found => .inl found, nofun⟩
  · intro q r action before rows _ stepped
    obtain ⟨call, shared, args, rfl, arrived, rfl⟩ |
      ⟨i, choice, t, op, next, shared, reply, rfl, found, awaits, served, rfl⟩ :=
      System.step_cases stepped
    · cases arrived
      refine ⟨rows.kept, fun id row found => ?_, rows.fresh⟩
      rcases rows.known id row found with old | ⟨t, among, inserts⟩
      · exact .inl old
      · exact .inr ⟨t, List.mem_append_left _ among, inserts⟩
    · have pre := (outline_of_reaches before).pre found awaits
      have known : ∀ id row, q.shared.outbox.get id = some row → outbox.get id = some row ∨
          ∃ u ∈ (q.advance i t ⟨choice, op, reply⟩ shared (next reply)).tasks,
            row ∈ inserted u.past := by
        intro id row at_
        rcases rows.known id row at_ with old | ⟨u, among, inserts⟩
        · exact .inl old
        · obtain ⟨u', among', -, earlier⟩ := Pool.exists_advance found among
          exact .inr ⟨u', among', inserted_subset earlier inserts⟩
      have fresh : ∀ entry ∈ shared.drawn, outbox.get entry.1 = none := by
        intro entry member
        rcases drawn_of_serve served entry member with old | absent
        · exact rows.fresh entry old
        · cases at_ : outbox.get entry.1 with
          | none => rfl
          | some row =>
              rw [rows.kept entry.1 row at_] at absent
              cases absent
      cases inserts : insertedBy (⟨choice, op, reply⟩ : UnitOfWorkEvent I St E) with
      | none =>
          have same := (unchanged_of_serve pre served).2 inserts
          refine ⟨?_, ?_, fresh⟩
          · rw [Pool.advance_shared, same]
            exact rows.kept
          · rw [Pool.advance_shared, same]
            exact known
      | some message =>
          obtain ⟨own, rfl⟩ := insert_of_pre pre inserts
          cases served
          have absent := rows.fresh _ own
          refine ⟨fun id row at_ => ?_, fun id row at_ => ?_, fresh⟩
          · have distinct : id ≠ message.id := by
              rintro rfl
              rw [absent] at at_
              cases at_
            rw [Pool.advance_shared]
            exact (InMemoryOutboxRepository.get_write_of_ne distinct).trans (rows.kept id row at_)
          · rw [Pool.advance_shared] at at_
            have written : (q.shared.outbox.write message).get id = some row := at_
            rw [InMemoryOutboxRepository.get_write] at written
            split at written
            · cases written
              refine .inr ⟨_, List.mem_set (List.getElem?_eq_some_iff.mp found).1 _, ?_⟩
              rw [inserted_insertOutbox]
              exact List.mem_append_right _ (List.mem_singleton_self _)
            · exact known id row written

/-! ## What is stored, and by whom -/

omit [DecidableEq I] in
theorem written_ne_nil {past' : List (UnitOfWorkEvent I St E)} (earlier : past <:+ past')
    (wrote : written past ≠ []) : written past' ≠ [] := by
  obtain ⟨event, member⟩ := List.exists_mem_of_ne_nil _ wrote
  unfold written at member
  rw [List.mem_reverse, List.mem_filterMap] at member
  obtain ⟨source, among, same⟩ := member
  refine List.ne_nil_of_mem (a := event) ?_
  unfold written
  rw [List.mem_reverse, List.mem_filterMap]
  exact ⟨source, earlier.subset among, same⟩

/-- Every stored aggregate is what a call wrote. -/
def Attributed (idOf : St → I) (p : UnitOfWorkPool I St E) : Prop :=
  ∀ id found, p.shared.aggregates.get id = some found → ∃ t ∈ p.tasks, ∃ aggregate,
    t.args.call = .saveAndEnqueue aggregate ∧ idOf aggregate.state = id ∧ written t.past ≠ [] ∧
      found = stored aggregate

theorem attributed_of_reaches (reached : (system idOf).Reaches Transacts (initial outbox) p) :
    Attributed idOf p := by
  refine reached.invariant (P := Attributed idOf) ?_ ?_
  · intro id found at_
    cases at_
  · intro q r action before attributed _ stepped
    obtain ⟨call, shared, args, rfl, arrived, rfl⟩ |
      ⟨i, choice, t, op, next, shared, reply, rfl, found, awaits, served, rfl⟩ :=
      System.step_cases stepped
    · cases arrived
      intro id found at_
      obtain ⟨t, among, rest⟩ := attributed id found at_
      exact ⟨t, List.mem_append_left _ among, rest⟩
    · have old : ∀ id found, q.shared.aggregates.get id = some found →
          ∃ u ∈ (q.advance i t ⟨choice, op, reply⟩ shared (next reply)).tasks, ∃ aggregate,
            u.args.call = .saveAndEnqueue aggregate ∧ idOf aggregate.state = id ∧
              written u.past ≠ [] ∧ found = stored aggregate := by
        intro id row at_
        obtain ⟨u, among, aggregate, called, here, wrote, same⟩ := attributed id row at_
        obtain ⟨u', among', args, earlier⟩ := Pool.exists_advance found among
        exact ⟨u', among', aggregate, args ▸ called, here, written_ne_nil earlier wrote, same⟩
      cases writes : writtenBy (⟨choice, op, reply⟩ : UnitOfWorkEvent I St E) with
      | none =>
          have kept := (unchanged_of_serve ((outline_of_reaches before).pre found awaits) served).1 writes
          intro id row at_
          rw [Pool.advance_shared, kept] at at_
          exact old id row at_
      | some other =>
          obtain ⟨aggregate, called, rfl, rfl, -, -⟩ := write_of_reaches before found awaits writes
          cases served
          intro id row at_
          rw [Pool.advance_shared, DashMap.get_put] at at_
          split at at_
          · next here =>
            cases at_
            refine ⟨_, List.mem_set (List.getElem?_eq_some_iff.mp found).1 _, aggregate, called,
              here.symm, ?_, rfl⟩
            rw [written_insertAggregate]
            exact List.append_ne_nil_of_right_ne_nil _ (List.cons_ne_nil _ _)
          · exact old id row at_

/-- A call that wrote its aggregate and has not returned holds the mutex. -/
theorem holder_of_written (reached : (system idOf).Reaches Transacts (initial outbox) p)
    (found : p.tasks[i]? = some t) (called : t.args.call = .saveAndEnqueue aggregate)
    (awaits : t.rest = .await op next) (wrote : written t.past ≠ []) :
    p.shared.holder = some t.args.caller := by
  obtain ⟨-, guards⟩ := pre_of_reaches reached found called awaits
  cases op with
  | mapEvent _ | utcNow | version _ => exact (wrote guards).elim
  | nowV7 _ _ _ | lock _ => exact (wrote guards.2).elim
  | insertAggregate _ | insertOutbox _ | unlock => exact guards.1
  | save _ | remove _ | find _ | outboxRow _ => exact guards.elim

/-- While the mutex is free, the calls that wrote are those that returned `Ok`. -/
theorem succeeded_eq_committed (reached : (system idOf).Reaches Transacts (initial outbox) p)
    (free : p.shared.holder = none) (id : I) (among : t ∈ p.tasks) :
    Committed idOf id t = Succeeded idOf id t := by
  obtain ⟨i, found⟩ := List.mem_iff_getElem?.mp among
  unfold Committed Succeeded
  cases called : t.args.call with
  | saveAndEnqueue aggregate =>
      cases rest : t.rest with
      | ret value =>
          obtain ⟨-, ended⟩ := post_of_reaches reached found called rest
          cases ended with
          | failed nothing =>
              rw [nothing]
              exact Bool.and_false _
          | committed wrote _ _ _ =>
              rw [wrote]
              exact Bool.and_true _
      | await op next =>
          have nothing : written t.past = [] := by
            by_contra wrote
            rw [holder_of_written reached found called rest wrote] at free
            cases free
          rw [nothing]
          exact Bool.and_false _
  | _ => rfl

/-! ## Atomicity -/

/-- Task `i` has changed nothing. -/
def WroteNothing (p : UnitOfWorkPool I St E) (i : ℕ) : Prop :=
  ∀ entry ∈ p.trace, entry.task = i → writtenBy entry.event = none ∧ insertedBy entry.event = none

/-- The call wrote its aggregate, advanced and drained, and inserted one message for each pending
event, in order; the messages are new and still there. -/
structure WroteAll (idOf : St → I) (outbox : InMemoryOutboxRepository) (p : UnitOfWorkPool I St E)
    (t : RunningCall I St E) (aggregate : Aggregate St E) : Prop where
  wrote : written t.past = [stored aggregate]
  current : storedVersion p.shared (idOf aggregate.state) = aggregate.version + 1 →
    p.shared.aggregates.get (idOf aggregate.state) = some (stored aggregate)
  events : (mapped t.past).map Prod.fst = aggregate.pending
  messages : (inserted t.past).map OutboxMessage.message = (mapped t.past).map Prod.snd
  distinct : ((inserted t.past).map OutboxMessage.id).Nodup
  fresh : ∀ record ∈ inserted t.past, outbox.get record.id = none
  present : ∀ record ∈ inserted t.past, p.shared.outbox.get record.id = some record

theorem wroteNothing_of_failed (reached : (system idOf).Reaches Transacts (initial outbox) p)
    (found : p.tasks[i]? = some t) (called : t.args.call = .saveAndEnqueue aggregate)
    (nothing : written t.past = []) : WroteNothing p i := by
  have none : inserted t.past = [] := by
    rcases (progress_of_reaches reached found called).write with ⟨-, none⟩ | ⟨wrote, -⟩
    · exact none
    · rw [nothing] at wrote
      cases wrote
  rintro entry member rfl
  have did := reached.mem_past rfl rfl found member
  unfold written at nothing
  unfold inserted at none
  rw [List.reverse_eq_nil_iff, List.filterMap_eq_nil_iff] at nothing none
  exact ⟨nothing _ did, none _ did⟩

theorem wroteAll_of_committed (reached : (system idOf).Reaches Transacts (initial outbox) p)
    (found : p.tasks[i]? = some t) (called : t.args.call = .saveAndEnqueue aggregate)
    (wrote : written t.past = [stored aggregate]) (all : inserted t.past = records t.past)
    (events : (mapped t.past).map Prod.fst = aggregate.pending)
    (messages : (records t.past).map OutboxMessage.message = (mapped t.past).map Prod.snd) :
    WroteAll idOf outbox p t aggregate := by
  have progress := progress_of_reaches reached found called
  refine ⟨wrote, fun version => ?_, events, by rw [all, messages], ?_, fun record member => ?_,
    progress.present⟩
  · cases at_ : p.shared.aggregates.get (idOf aggregate.state) with
    | none =>
        unfold storedVersion at version
        rw [at_] at version
        cases version
    | some current =>
        -- the call that wrote what is stored started from the same version, so it is this one
        obtain ⟨u, among, other, called', here, wrote', rfl⟩ :=
          attributed_of_reaches reached _ _ at_
        obtain ⟨j, found'⟩ := List.mem_iff_getElem?.mp among
        have same : other.version = aggregate.version := by
          unfold storedVersion at version
          rw [at_] at version
          exact Nat.succ.inj version
        by_cases alone : j = i
        · subst alone
          cases found.symm.trans found'
          cases called.symm.trans called'
          rfl
        · have some : written t.past ≠ [] := by
            rw [wrote]
            exact List.cons_ne_nil _ _
          exact (versionsApart_of_reaches reached j i u t other aggregate alone found' found called'
            called wrote' some here same).elim
  · rw [all]
    exact progress.distinct
  · exact (rows_of_reaches reached).fresh _ (progress.drew record (progress.ahead.subset member))

/-- Only a write or an insert changes the unit of work. -/
theorem unchanged_of_step (reached : (system idOf).Reaches Transacts (initial outbox) p)
    {action : Action UnitOfWorkChoice (UnitOfWorkCall I St E)} {q : UnitOfWorkPool I St E}
    (stepped : (system idOf).step p action = some q)
    (quiet : ∀ entry, q.trace = p.trace ++ [entry] →
      writtenBy entry.event = none ∧ insertedBy entry.event = none) :
    q.shared.aggregates = p.shared.aggregates ∧ q.shared.outbox = p.shared.outbox := by
  obtain ⟨call, shared, args, rfl, arrived, rfl⟩ |
    ⟨i, choice, t, op, next, shared, reply, rfl, found, awaits, served, rfl⟩ :=
    System.step_cases stepped
  · cases arrived
    exact ⟨rfl, rfl⟩
  · obtain ⟨noWrite, noInsert⟩ := quiet _ rfl
    have kept := unchanged_of_serve ((outline_of_reaches reached).pre found awaits) served
    exact ⟨kept.1 noWrite, kept.2 noInsert⟩

/-- `save_and_enqueue_in` is atomic and serializable.  Over any store and repository, whatever
fails and whoever else runs, a failed call leaves the aggregate as it was and a successful one
advances its version and drains it.  Over the in-memory unit of work, in every interleaving: a
failed call performed no write, and nothing else changes the unit of work; a successful call wrote
its aggregate and inserted one message for each pending event, in order; of the calls for one id
that start from one version at most one succeeds; and the stored version of an id counts the calls
that wrote it, which are those that returned `Ok` whenever no transaction is open. -/
theorem save_and_enqueue_atomic
    (reached : (system idOf).Reaches Transacts (initial outbox) p) :
    (∀ (S : Signature) (Tx A F : Type) (store : TransactionalStore S Tx)
      (repo : TransactionalRepository S Tx A F) (mapEvent : F → Program S (Except String Message))
      (newMessage : Message → Program S OutboxMessage), AdvancesVersion repo → ∀ aggregate,
        (saveAndEnqueueIn store repo mapEvent newMessage aggregate).Returns (Settled aggregate)) ∧
    (∀ (i : ℕ) t aggregate after error, p.tasks[i]? = some t →
      t.args.call = .saveAndEnqueue aggregate → t.rest = .ret (.enqueued after (.error error)) →
      after = aggregate ∧ WroteNothing p i) ∧
    (∀ action q, (system idOf).step p action = some q →
      (∀ entry, q.trace = p.trace ++ [entry] →
        writtenBy entry.event = none ∧ insertedBy entry.event = none) →
      q.shared.aggregates = p.shared.aggregates ∧ q.shared.outbox = p.shared.outbox) ∧
    (∀ (i : ℕ) t aggregate after, p.tasks[i]? = some t →
      t.args.call = .saveAndEnqueue aggregate → t.rest = .ret (.enqueued after (.ok ())) →
      after = { aggregate with version := aggregate.version + 1, pending := [] } ∧
        WroteAll idOf outbox p t aggregate) ∧
    (∀ (i j : ℕ) (t u : RunningCall I St E) (aggregate other after after' : Aggregate St E), i ≠ j →
      p.tasks[i]? = some t → p.tasks[j]? = some u →
      t.args.call = .saveAndEnqueue aggregate → u.args.call = .saveAndEnqueue other →
      idOf aggregate.state = idOf other.state → aggregate.version = other.version →
      t.rest = .ret (.enqueued after (.ok ())) → u.rest ≠ .ret (.enqueued after' (.ok ()))) ∧
    (∀ id, storedVersion p.shared id = p.tasks.countP (Committed idOf id)) ∧
    (p.shared.holder = none →
      ∀ id, storedVersion p.shared id = p.tasks.countP (Succeeded idOf id)) := by
  refine ⟨fun S Tx A F store repo mapEvent newMessage advances aggregate =>
    returns_saveAndEnqueueIn advances aggregate, ?_, fun action q => unchanged_of_step reached, ?_, ?_,
    storedVersion_eq_countP reached, ?_⟩
  · intro i t aggregate after error found called rest
    obtain ⟨-, ended⟩ := post_of_reaches reached found called rest
    cases ended with
    | failed nothing => exact ⟨rfl, wroteNothing_of_failed reached found called nothing⟩
  · intro i t aggregate after found called rest
    obtain ⟨-, ended⟩ := post_of_reaches reached found called rest
    cases ended with
    | committed wrote all events messages =>
        exact ⟨rfl, wroteAll_of_committed reached found called wrote all events messages⟩
  · intro i j t u aggregate other after after' distinct found found' called called' sameId sameVersion
      rest rest'
    obtain ⟨-, ended⟩ := post_of_reaches reached found called rest
    obtain ⟨-, ended'⟩ := post_of_reaches reached found' called' rest'
    cases ended with
    | committed wrote _ _ _ =>
        cases ended' with
        | committed wrote' _ _ _ =>
            refine versionsApart_of_reaches reached i j t u aggregate other distinct found found'
              called called' ?_ ?_ sameId sameVersion
            · rw [wrote]
              exact List.cons_ne_nil _ _
            · rw [wrote']
              exact List.cons_ne_nil _ _
  · intro free id
    rw [storedVersion_eq_countP reached id]
    refine List.countP_congr fun t among => ?_
    rw [succeeded_eq_committed reached free id among]

end Atomic

/-! ## Orders, for the runs below -/

/-- A new order with its first events. -/
def order (events : List ℕ) : Aggregate ℕ ℕ where
  state := 1
  pending := events

/-- The message of an event. -/
def announced (event : ℕ) : Message where
  messageId := event
  topic := "orders"

abbrev OrderAction := Action UnitOfWorkChoice (UnitOfWorkCall ℕ ℕ ℕ)

/-- Caller `i` maps an event and makes its message. -/
def maps (i event uuid : ℕ) : List OrderAction :=
  [.step i { mapped := .ok (announced event) }, .step i {}, .step i { uuid := uuid }]

/-- Two callers create the same order; the second waits for the mutex and finds a conflict, and a
third cannot map its event. -/
def contended : List OrderAction :=
  [.arrive (.saveAndEnqueue (order [7, 8])), .arrive (.saveAndEnqueue (order [9])),
    .arrive (.saveAndEnqueue (order [10]))] ++ maps 0 7 1 ++ maps 1 9 2 ++ maps 0 8 3 ++
  [.step 0 {}, .step 0 {}, .step 0 {}, .step 0 {}, .step 0 {}, .step 0 {},
    .step 1 {}, .step 1 {}, .step 1 {}, .step 2 { mapped := .error "unmapped" }]

theorem save_and_enqueue_atomic_contended : ∃ p : UnitOfWorkPool ℕ ℕ ℕ,
    (system id).Reaches Transacts (initial (.new 10)) p ∧
    storedVersion p.shared 1 = 1 ∧ p.tasks.countP (Succeeded id 1) = 1 ∧
    (∃ t, p.tasks[0]? = some t ∧ WroteAll id (.new 10) p t (order [7, 8])) ∧
    WroteNothing p 1 ∧ WroteNothing p 2 ∧
    (saveAndEnqueue (I := ℕ) (E := ℕ) id 0 (order [7])).Returns (Settled (order [7])) := by
  have run : (((@system ℕ ℕ ℕ _ id).exec (initial (.new 10)) contended).any fun p =>
      decide (p.shared.holder = none ∧ storedVersion p.shared 1 = 1) &&
      (p.tasks[0]?.any fun t => decide (t.args.call = .saveAndEnqueue (order [7, 8]) ∧
        t.rest.result = some (.enqueued { state := 1, version := 1 } (.ok ())))) &&
      (p.tasks[1]?.any fun t => decide (t.args.call = .saveAndEnqueue (order [9]) ∧
        t.rest.result = some (.enqueued (order [9])
          (.error (.repository (.concurrencyConflict 0 (some 1))))))) &&
      (p.tasks[2]?.any fun t => decide (t.args.call = .saveAndEnqueue (order [10]) ∧
        t.rest.result = some (.enqueued (order [10]) (.error (.mapping "unmapped")))))) = true := by
    decide +kernel
  obtain ⟨p, reached, found⟩ := System.exists_reaches_of_exec
    (C := Transacts) (by decide +kernel) run
  simp only [Bool.and_eq_true, Option.any_eq_true, decide_eq_true_eq] at found
  obtain ⟨⟨⟨⟨free, version⟩, t, at_, called, ok⟩, u, at_u, called_u, conflict⟩,
    v, at_v, called_v, unmapped⟩ := found
  obtain ⟨any, failed, -, succeeded, -, -, counted⟩ := save_and_enqueue_atomic reached
  refine ⟨p, reached, version, ?_, ⟨t, at_, ?_⟩, ?_, ?_, ?_⟩
  · rw [← counted free 1]
    exact version
  · exact (succeeded 0 t _ _ at_ called (Program.eq_ret_of_result ok)).2
  · exact (failed 1 u _ _ _ at_u called_u (Program.eq_ret_of_result conflict)).2
  · exact (failed 2 v _ _ _ at_v called_v (Program.eq_ret_of_result unmapped)).2
  · exact any _ _ _ _ _ _ _ _ (advancesVersion_repository id) (order [7])

end InMemoryUnitOfWork

end Pharos

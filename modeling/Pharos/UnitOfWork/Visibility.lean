import Pharos.UnitOfWork.Atomic

/-!
# What readers see of a commit

`TransactionalStore::insert_outbox_in_tx` promises that the aggregate and its messages become
visible atomically.  The in-memory commit writes the aggregate and then inserts one message after
the other, and readers do not take the mutex: between the first write and the last insert they see
a part of the transaction.
-/

namespace Pharos

namespace InMemoryUnitOfWork

open Async

section Visibility

variable {I St E : Type} [DecidableEq I]

/-- The commit has written the aggregate and has messages left to insert. -/
def Halfway (t : RunningCall I St E) : Prop :=
  written t.past ≠ [] ∧ inserted t.past ≠ records t.past

instance (t : RunningCall I St E) : Decidable (Halfway t) :=
  inferInstanceAs (Decidable (written t.past ≠ [] ∧ inserted t.past ≠ records t.past))

/-- Whatever is read here is whole: with an aggregate all messages of the saves up to its version,
and with one message of a save its aggregate and all of its messages. -/
structure AllAtOnce (idOf : St → I) (p : UnitOfWorkPool I St E) : Prop where
  found : ∀ id found, p.shared.aggregates.get id = some found → ∀ t ∈ p.tasks, ∀ aggregate,
    t.args.call = .saveAndEnqueue aggregate → idOf aggregate.state = id → written t.past ≠ [] →
    aggregate.version < found.version →
    ∀ record ∈ records t.past, p.shared.outbox.get record.id = some record
  listed : ∀ t ∈ p.tasks, ∀ aggregate, t.args.call = .saveAndEnqueue aggregate →
    ∀ record ∈ records t.past, p.shared.outbox.get record.id = some record →
      written t.past ≠ [] ∧ aggregate.version < storedVersion p.shared (idOf aggregate.state) ∧
        ∀ other ∈ records t.past, p.shared.outbox.get other.id = some other

variable {idOf : St → I} {outbox : InMemoryOutboxRepository} {p : UnitOfWorkPool I St E} {i : ℕ}
  {t : RunningCall I St E} {aggregate : Aggregate St E}

/-- A commit that is halfway has a message that is not in the outbox. -/
theorem exists_absent {caller : ℕ} {made done : List OutboxMessage} {wrote : List (Aggregate St E)}
    {s : UnitOfWorkShared I St E} (progress : Progress idOf caller aggregate made done wrote s)
    (remaining : done ≠ made) : ∃ record ∈ made, s.outbox.get record.id = none := by
  obtain ⟨rest, split⟩ := progress.ahead
  cases rest with
  | nil =>
      rw [List.append_nil] at split
      exact (remaining split).elim
  | cons record rest =>
      have listed : record ∈ made := by
        rw [← split]
        exact List.mem_append_right _ List.mem_cons_self
      refine ⟨record, listed, progress.absent record listed fun before => ?_⟩
      have ids := progress.distinct
      rw [← split, List.map_append, List.nodup_append] at ids
      exact ids.2.2 record.id (List.mem_map_of_mem before) record.id
        (List.mem_map_of_mem List.mem_cons_self) rfl

/-- Only transactions write. -/
theorem called_of_written (reached : (system idOf).Reaches Transacts (initial outbox) p) :
    ∀ t ∈ p.tasks, written t.past ≠ [] → ∃ aggregate, t.args.call = .saveAndEnqueue aggregate := by
  refine reached.forall_tasks (Q := fun task past => written past ≠ [] →
    ∃ aggregate, task.call = .saveAndEnqueue aggregate) rfl (fun _ wrote => (wrote rfl).elim) ?_
  intro q i t op next choice shared reply before found awaits _ _ known wrote
  cases writes : writtenBy (⟨choice, op, reply⟩ : UnitOfWorkEvent I St E) with
  | none =>
      rw [written_of_quiet writes] at wrote
      exact known wrote
  | some other =>
      obtain ⟨aggregate, called, -⟩ := write_of_reaches before found awaits writes
      exact ⟨aggregate, called⟩

/-- In every state that some interleaving reaches: readers see whole transactions if and only if no
commit has written its aggregate and still has messages to insert. -/
theorem allAtOnce_iff_not_halfway (reached : (system idOf).Reaches Transacts (initial outbox) p) :
    AllAtOnce idOf p ↔ ∀ t ∈ p.tasks, ¬ Halfway t := by
  constructor
  · intro whole t among halfway
    obtain ⟨i, found⟩ := List.mem_iff_getElem?.mp among
    obtain ⟨wrote, remaining⟩ := halfway
    obtain ⟨aggregate, called⟩ := called_of_written reached t among wrote
    have behind := version_lt_of_written reached found called wrote
    obtain ⟨record, made, absent⟩ :=
      exists_absent (progress_of_reaches reached found called) remaining
    unfold storedVersion at behind
    cases at_ : p.shared.aggregates.get (idOf aggregate.state) with
    | none =>
        rw [at_] at behind
        exact absurd behind (Nat.not_lt_zero _)
    | some current =>
        rw [at_] at behind
        have present := whole.found _ current at_ t among aggregate called rfl wrote behind record made
        rw [absent] at present
        cases present
  · intro settled
    have all : ∀ t ∈ p.tasks, ∀ aggregate, t.args.call = .saveAndEnqueue aggregate →
        written t.past ≠ [] → ∀ record ∈ records t.past,
          p.shared.outbox.get record.id = some record := by
      intro t among aggregate called wrote
      obtain ⟨i, found⟩ := List.mem_iff_getElem?.mp among
      have complete : inserted t.past = records t.past := by
        by_contra remaining
        exact settled t among ⟨wrote, remaining⟩
      rw [← complete]
      exact (progress_of_reaches reached found called).present
    refine ⟨fun id found _ t among aggregate called _ wrote _ => all t among aggregate called wrote, ?_⟩
    intro t among aggregate called record made present
    obtain ⟨i, found⟩ := List.mem_iff_getElem?.mp among
    have wrote : written t.past ≠ [] := by
      intro nothing
      have progress := progress_of_reaches reached found called
      rcases progress.write with ⟨-, none⟩ | ⟨some, -⟩
      · have absent := progress.absent record made (none ▸ List.not_mem_nil)
        rw [absent] at present
        cases present
      · rw [nothing] at some
        cases some
    exact ⟨wrote, version_lt_of_written reached found called wrote, all t among aggregate called wrote⟩

end Visibility

/-- An order is saved with its two messages. -/
def saved : List OrderAction :=
  .arrive (.saveAndEnqueue (order [7, 8])) :: maps 0 7 1 ++ maps 0 8 2 ++
    [.step 0 {}, .step 0 {}, .step 0 {}, .step 0 {}, .step 0 {}, .step 0 {}]

theorem allAtOnce_iff_not_halfway_saved : ∃ p : UnitOfWorkPool ℕ ℕ ℕ,
    (system id).Reaches Transacts (initial (.new 10)) p ∧ storedVersion p.shared 1 = 1 ∧
      (p.shared.outbox.get 1).isSome ∧ (p.shared.outbox.get 2).isSome ∧ AllAtOnce id p := by
  have run : (((@system ℕ ℕ ℕ _ id).exec (initial (.new 10)) saved).any fun p =>
      decide (storedVersion p.shared 1 = 1 ∧ (p.shared.outbox.get 1).isSome ∧
        (p.shared.outbox.get 2).isSome ∧ ∀ t ∈ p.tasks, ¬ Halfway t)) = true := by
    decide +kernel
  obtain ⟨p, reached, found⟩ := System.exists_reaches_of_exec
    (C := Transacts) (by decide +kernel) run
  obtain ⟨version, first, second, settled⟩ := of_decide_eq_true found
  exact ⟨p, reached, version, first, second, (allAtOnce_iff_not_halfway reached).mpr settled⟩

/-- A reader comes between the write of the order and the insert of its first message. -/
def readBetween : List OrderAction :=
  .arrive (.saveAndEnqueue (order [7, 8])) :: .arrive (.find 1) :: maps 0 7 1 ++ maps 0 8 2 ++
    [.step 0 {}, .step 0 {}, .step 0 {}, .step 1 {}]

/-- The reader finds the order at version 1, and none of its messages is in the outbox. -/
theorem order_without_messages : ∃ p : UnitOfWorkPool ℕ ℕ ℕ,
    (system id).Reaches Transacts (initial (.new 10)) p ∧
      (∃ t, p.tasks[1]? = some t ∧ t.args.call = .find 1 ∧
        t.rest.result = some (.found (.ok (some { state := 1, version := 1 })))) ∧
      p.shared.outbox.get 1 = none ∧ p.shared.outbox.get 2 = none ∧ ¬ AllAtOnce id p := by
  have run : (((@system ℕ ℕ ℕ _ id).exec (initial (.new 10)) readBetween).any fun p =>
      (p.tasks[1]?.any fun t => decide (t.args.call = .find 1 ∧
        t.rest.result = some (.found (.ok (some { state := 1, version := 1 }))))) &&
      decide (p.shared.outbox.get 1 = none ∧ p.shared.outbox.get 2 = none ∧
        p.shared.aggregates.get 1 = some { state := 1, version := 1 }) &&
      (p.tasks[0]?.any fun t => decide (t.args.call = .saveAndEnqueue (order [7, 8]) ∧
        written t.past ≠ [] ∧ (records t.past).map OutboxMessage.id = [1, 2]))) = true := by
    decide +kernel
  obtain ⟨p, reached, found⟩ := System.exists_reaches_of_exec
    (C := Transacts) (by decide +kernel) run
  simp only [Bool.and_eq_true, Option.any_eq_true, decide_eq_true_eq] at found
  obtain ⟨⟨⟨t, at_, reads⟩, first, second, stored⟩, u, at_u, called, wrote, made⟩ := found
  refine ⟨p, reached, ⟨t, at_, reads⟩, first, second, fun whole => ?_⟩
  obtain ⟨record, rest, split⟩ := List.exists_cons_of_ne_nil (l := records u.past) (by
    intro none
    rw [none] at made
    cases made)
  rw [split, List.map_cons] at made
  have present := whole.found 1 _ stored u (List.mem_of_getElem? at_u) _ called rfl wrote Nat.one_pos
    record (split ▸ List.mem_cons_self)
  rw [(List.cons.inj made).1, first] at present
  cases present

end InMemoryUnitOfWork

end Pharos

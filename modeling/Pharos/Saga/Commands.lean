import Pharos.Saga.Outline

/-!
# Accounting of saga commands

With an outbox that accepts every insert, the outbox holds exactly the messages of
the transitions that were persisted, plus those of failures that found no instance
to persist.  The unit of account is the batch a call commits to: `serve_pays` says
that what an operation enqueues and what the task owes after it are what the task
owed before it and the batch it commits to.
-/

namespace Pharos

namespace SagaRunner

open Async

variable {I St E C ε : Type}

/-- The message an operation put into the outbox. -/
def inserted : SagaEvent I St E C ε → Option Message
  | ⟨_, .insert message, .ok ()⟩ => some message.message
  | _ => none

/-- The messages a task put into the outbox, in order. -/
def enqueued (past : List (SagaEvent I St E C ε)) : List Message :=
  past.reverse.filterMap inserted

/-- The messages of the batches a task committed to, in order. -/
def committed (runner : SagaRunner I St E C ε) (past : List (SagaEvent I St E C ε)) :
    List Message :=
  (runner.batches past).reverse.flatten

/-- The outbox accepts every insert. -/
def Accepts : SagaPool I St E C ε → Action (SagaChoice I) (SagaCall E) → Prop
  | _, .arrive _ => True
  | _, .step _ choice => choice.outboxError = none

instance : ∀ (p : SagaPool I St E C ε) (action : Action (SagaChoice I) (SagaCall E)),
    Decidable (Accepts p action)
  | _, .arrive _ => .isTrue trivial
  | _, .step _ choice => decidable_of_iff _ (Option.isNone_iff_eq_none (o := choice.outboxError))

/-- Every save that succeeded persisted the transition the call computed last, so the
batch of that transition is what the call committed to with it. -/
def Justified (runner : SagaRunner I St E C ε) (call : SagaCall E) :
    List (SagaEvent I St E C ε) → Prop
  | [] => True
  | event :: past =>
      (∀ choice inst, event = ⟨choice, .save inst, .ok ()⟩ →
        ∃ current transition, decision past = some (current, transition) ∧
          runner.Computed call current transition ∧
          some inst.view = transition.apply (current.map SagaInstance.view) ∧
          runner.batch past event = some (transition.commands.map runner.mapCommand)) ∧
      Justified runner call past

/-- The operation was a save that succeeded. -/
def Saved (event : SagaEvent I St E C ε) : Prop :=
  ∃ choice inst, event = ⟨choice, .save inst, .ok ()⟩

/-- The saga failed with `commands` when there was no instance. -/
def FailedAbsent (commands : List C) (event : SagaEvent I St E C ε) : Prop :=
  ∃ choice input reason, event = ⟨choice, .react none input, .ok (.fail reason commands)⟩

theorem enqueued_cons (event : SagaEvent I St E C ε) (past : List (SagaEvent I St E C ε)) :
    enqueued (event :: past) = enqueued past ++ (inserted event).toList := by
  unfold enqueued
  rw [List.reverse_cons, List.filterMap_append]
  cases found : inserted event <;> simp [found]

theorem committed_cons (runner : SagaRunner I St E C ε) (event : SagaEvent I St E C ε)
    (past : List (SagaEvent I St E C ε)) :
    runner.committed (event :: past) =
      runner.committed past ++ (runner.batch past event).getD [] := by
  rw [committed, batches, committed]
  cases found : runner.batch past event <;> simp

/-- Lost races, ignored events and skipped ones commit to nothing. -/
theorem batch_eq_none {runner : SagaRunner I St E C ε} {event : SagaEvent I St E C ε}
    (past : List (SagaEvent I St E C ε)) (unsaved : ¬ Saved event)
    (present : ∀ commands, ¬ FailedAbsent commands event) : runner.batch past event = none := by
  unfold batch
  split
  · next choice inst => exact (unsaved ⟨choice, inst, rfl⟩).elim
  · next choice input reason commands =>
    exact (present commands ⟨choice, input, reason, rfl⟩).elim
  · rfl

theorem committed_eq_nil {runner : SagaRunner I St E C ε} {past : List (SagaEvent I St E C ε)}
    (unsaved : ∀ event ∈ past, ¬ Saved event)
    (present : ∀ event ∈ past, ∀ commands, ¬ FailedAbsent commands event) :
    runner.committed past = [] := by
  induction past with
  | nil => rfl
  | cons event past ih =>
      rw [committed_cons, ih (fun e member => unsaved e (List.mem_cons_of_mem _ member))
        fun e member => present e (List.mem_cons_of_mem _ member),
        batch_eq_none past (unsaved event List.mem_cons_self) (present event List.mem_cons_self)]
      rfl

theorem mem_batches_of_failedAbsent {runner : SagaRunner I St E C ε} {commands : List C}
    {event : SagaEvent I St E C ε} (failed : FailedAbsent commands event)
    {past : List (SagaEvent I St E C ε)} (happened : event ∈ past) :
    commands.map runner.mapCommand ∈ runner.batches past := by
  induction past with
  | nil => cases happened
  | cons head past ih =>
      rw [batches, List.mem_append]
      rcases List.mem_cons.mp happened with rfl | earlier
      · obtain ⟨choice, input, reason, rfl⟩ := failed
        simp [batch]
      · exact .inr (ih earlier)

variable [DecidableEq I] {runner : SagaRunner I St E C ε} {s s' : SagaShared I St}
  {call : SagaCall E} {past : List (SagaEvent I St E C ε)}

/-! ## One operation -/

/-- What an operation enqueues and leaves owed is what was owed and is committed to. -/
theorem serve_pays {choice : SagaChoice I} {op : SagaOp I St E} {reply : op.Reply C ε}
    (ready : runner.pre call past s op) (accepts : choice.outboxError = none)
    (served : runner.serve s choice op = some (s', reply)) :
    (inserted (⟨choice, op, reply⟩ : SagaEvent I St E C ε)).toList ++
        runner.owed (⟨choice, op, reply⟩ :: past) =
      runner.owed past ++ (runner.batch past ⟨choice, op, reply⟩).getD [] := by
  cases op with
  | react current event =>
      rcases ready with ⟨-, uncommitted⟩
      cases reply with
      | error error =>
          cases current <;> simp [inserted, owed, batch]
      | ok transition =>
          rcases runner.batch_react past choice current event transition with
            ⟨reason, commands, rfl, rfl⟩ | ⟨-, silent⟩
          · simp [inserted, owed, batch, uncommitted.1]
          · simp [inserted, owed, silent]
  | save inst =>
      rcases ready with ⟨uncommitted, -⟩
      cases reply with
      | ok _ => simp [inserted, owed, batch, uncommitted.1]
      | error error => simp [inserted, owed, batch]
  | insert message =>
      rcases ready with ⟨rest, owes⟩
      simp only [serve, accepts] at served
      cases served
      simp [inserted, owed, batch, owes]
  | load _ | onTimeout _ | utcNow | nowV7 | claimDue _ _ _ => simp [inserted, owed, batch]

/-- The outbox only grows, and only by the inserted message. -/
theorem serve_outbox {choice : SagaChoice I} {op : SagaOp I St E} {reply : op.Reply C ε}
    (served : runner.serve s choice op = some (s', reply)) :
    s'.outbox.map OutboxMessage.message = s.outbox.map OutboxMessage.message ++
      (inserted (⟨choice, op, reply⟩ : SagaEvent I St E C ε)).toList := by
  cases op with
  | claimDue now lease limit =>
      simp only [serve] at served
      split at served <;> cases served
      simp [inserted]
  | insert message =>
      simp only [serve] at served
      split at served <;> cases served <;> simp [inserted]
  | load _ | react _ _ | onTimeout _ | utcNow | nowV7 | save _ =>
      cases served
      simp [inserted]

/-! ## Whole runs -/

section Runs

variable {p : SagaPool I St E C ε} (reached : runner.system.Reaches Accepts initial p)

include reached

theorem outline_holds_of_accepts :
    runner.outline.Holds runner.system (fun _ past _ value => runner.Returned past value) p :=
  outline_holds (reached.mono fun _ _ _ => trivial)

/-- Every call has enqueued its batches, in order, up to what it still owes. -/
theorem enqueued_append_owed : ∀ t ∈ p.tasks,
    enqueued t.past ++ runner.owed t.past = runner.committed t.past := by
  refine reached.forall_tasks (Q := fun _ past =>
    enqueued past ++ runner.owed past = runner.committed past) rfl (fun _ => rfl) ?_
  intro q i t op next choice shared reply before found awaits accepts served kept
  have ready := (outline_holds_of_accepts before).pre found awaits
  rw [enqueued_cons, committed_cons, List.append_assoc, serve_pays ready accepts served,
    ← List.append_assoc, kept]

/-- A `handle` call commits to one batch at most. -/
theorem length_batches_le : ∀ t ∈ p.tasks, ∀ event, t.args = .handle event →
    (runner.batches t.past).length ≤ 1 := by
  refine reached.forall_tasks (Q := fun call past => ∀ event, call = .handle event →
    (runner.batches past).length ≤ 1) rfl (fun _ _ _ => Nat.zero_le _) ?_
  intro q i t op next choice shared reply before found awaits accepts served kept event handles
  have ready := (outline_holds_of_accepts before).pre found awaits
  have single : runner.batches t.past = [] ∨
      runner.batch t.past ⟨choice, op, reply⟩ = none := by
    cases op with
    | react current event' => exact .inl (ready.2.2 event handles)
    | save inst => exact .inl (ready.1.2 event handles)
    | load _ | onTimeout _ | utcNow | nowV7 | claimDue _ _ _ | insert _ => exact .inr rfl
  unfold batches
  rcases single with empty | silent
  · rw [empty, List.append_nil]
    cases runner.batch t.past ⟨choice, op, reply⟩ <;> simp
  · rw [silent]
    exact kept event handles

/-- Every batch of a save is that of the transition the save persisted. -/
theorem justified : ∀ t ∈ p.tasks, runner.Justified t.args t.past := by
  refine reached.forall_tasks (Q := runner.Justified) rfl (fun _ => trivial) ?_
  intro q i t op next choice shared reply before found awaits accepts served kept
  have ready := (outline_holds_of_accepts before).pre found awaits
  refine ⟨fun choice' inst same => ?_, kept⟩
  cases same
  rcases ready with ⟨-, current, transition, persists⟩
  refine ⟨current, transition, persists.decided, persists.computed, persists.effect, ?_⟩
  simp only [batch, persists.decided, Option.elim_some]

/-- The outbox is an interleaving of what the calls enqueued. -/
theorem outbox_perm_enqueued :
    (p.shared.outbox.map OutboxMessage.message).Perm (p.tasks.flatMap fun t => enqueued t.past) ∧
      ∀ t ∈ p.tasks, (enqueued t.past).Sublist (p.shared.outbox.map OutboxMessage.message) := by
  refine reached.invariant (P := fun p : SagaPool I St E C ε =>
    (p.shared.outbox.map OutboxMessage.message).Perm (p.tasks.flatMap fun t => enqueued t.past) ∧
      ∀ t ∈ p.tasks, (enqueued t.past).Sublist (p.shared.outbox.map OutboxMessage.message))
    ⟨.nil, fun _ started => by cases started⟩ ?_
  intro q r action before all _ stepped
  rcases all with ⟨perm, order⟩
  obtain ⟨arrival, shared, args, rfl, arrived, rfl⟩ |
    ⟨i, choice, t, op, next, shared, reply, rfl, found, awaits, served, rfl⟩ :=
    System.step_cases stepped
  · cases arrived
    refine ⟨?_, fun t started => ?_⟩
    · simpa [enqueued] using perm
    · rcases List.mem_append.mp started with old | new
      · exact order t old
      · obtain ⟨call, -, rfl⟩ := List.mem_map.mp new
        exact List.nil_sublist _
  · have grown := serve_outbox served
    refine ⟨?_, fun u started => ?_⟩
    · rw [Pool.advance_shared, grown, Pool.advance_tasks]
      exact (perm.append_right _).trans
        (flatMap_set_perm found _ (enqueued_cons _ t.past)).symm
    · rw [Pool.advance_shared, grown]
      rcases List.mem_or_eq_of_mem_set started with old | rfl
      · exact (order u old).trans (List.sublist_append_left _ _)
      · rw [enqueued_cons]
        exact (order t (List.mem_of_getElem? found)).append_right _

/-- A call that has returned owes nothing. -/
theorem owed_eq_nil_of_finished : ∀ t ∈ p.tasks, t.Finished → runner.owed t.past = [] := by
  intro t started finished
  obtain ⟨i, found⟩ := List.getElem?_of_mem started
  cases returned : t.rest with
  | ret value =>
      obtain ⟨s, -, settled⟩ := (outline_holds_of_accepts reached).post_of_ret found returned
      exact settled.1
  | await op next =>
      rw [Task.Finished, returned] at finished
      exact finished.elim

theorem outbox_perm_committed :
    (p.shared.outbox.map OutboxMessage.message ++
        p.tasks.flatMap fun t => runner.owed t.past).Perm
      (p.tasks.flatMap fun t => runner.committed t.past) := by
  have perm := (outbox_perm_enqueued reached).1
  refine (perm.append_right _).trans ((List.flatMap_append_perm _ _ _).trans ?_)
  exact .of_eq (List.flatMap_congr fun t started => enqueued_append_owed reached t started)

/-- Saga command accounting.  In every configuration that any interleaving of calls reaches
over an outbox that accepts every insert: the outbox, together with what calls in flight
still owe, is a permutation of the messages the calls committed to, and it is exactly that
once every call has returned.  Each call enqueues its batches in order; each save that
succeeded commits it to the images of the commands of the transition it persisted; without
such a save, and without a failure that found no instance, it enqueues nothing; and such a
failure commits a `handle` call to its commands, once. -/
theorem saga_commands_accounted :
    (p.shared.outbox.map OutboxMessage.message ++
        p.tasks.flatMap fun t => runner.owed t.past).Perm
      (p.tasks.flatMap fun t => runner.committed t.past) ∧
    (p.Quiescent → (p.shared.outbox.map OutboxMessage.message).Perm
      (p.tasks.flatMap fun t => runner.committed t.past)) ∧
    ∀ t ∈ p.tasks,
      enqueued t.past ++ runner.owed t.past = runner.committed t.past ∧
      (enqueued t.past).Sublist (p.shared.outbox.map OutboxMessage.message) ∧
      (t.Finished → runner.owed t.past = []) ∧
      runner.Justified t.args t.past ∧
      ((∀ event ∈ t.past, ¬ Saved event) →
        (∀ event ∈ t.past, ∀ commands, ¬ FailedAbsent commands event) → enqueued t.past = []) ∧
      ∀ input, t.args = .handle input → (runner.batches t.past).length ≤ 1 ∧
        ∀ event ∈ t.past, ∀ commands, FailedAbsent commands event →
          runner.committed t.past = commands.map runner.mapCommand := by
  refine ⟨outbox_perm_committed reached, fun quiescent => ?_, fun t started => ?_⟩
  · have paid : (p.tasks.flatMap fun t => runner.owed t.past) = [] :=
      List.flatMap_eq_nil_iff.mpr fun t started =>
        owed_eq_nil_of_finished reached t started (quiescent t started)
    have perm := outbox_perm_committed reached
    rwa [paid, List.append_nil] at perm
  · have pays := enqueued_append_owed reached t started
    refine ⟨pays, (outbox_perm_enqueued reached).2 t started,
      owed_eq_nil_of_finished reached t started, justified reached t started, ?_, ?_⟩
    · intro unsaved present
      rw [committed_eq_nil unsaved present] at pays
      exact (List.append_eq_nil_iff.mp pays).1
    · intro input handles
      have single := length_batches_le reached t started input handles
      refine ⟨single, fun event happened commands failed => ?_⟩
      obtain ⟨one, eq⟩ := List.length_eq_one_iff.mp
        (Nat.le_antisymm single (List.length_pos_of_mem (mem_batches_of_failedAbsent failed happened)))
      have member : commands.map runner.mapCommand ∈ runner.batches t.past :=
        mem_batches_of_failedAbsent failed happened
      rw [eq, List.mem_singleton] at member
      rw [committed, eq, member, List.reverse_singleton, List.flatten_singleton]

end Runs

/-- In the race of `tallyRace` the losing attempt leaves no trace in the outbox. -/
theorem saga_commands_accounted_race : ∃ p : SagaPool ℕ ℕ (ℕ × ℕ) ℕ String,
    tally.system.Reaches Accepts initial p ∧ p.Quiescent ∧
      (p.shared.outbox.map OutboxMessage.message).Perm
        (p.tasks.flatMap fun t => tally.committed t.past) ∧
      p.shared.outbox.map (·.message.messageId) = [1, 2, 3] := by
  have along : tally.system.Along Accepts initial tallyRace := by decide
  obtain ⟨p, reached, found⟩ := System.exists_reaches_of_exec (C := Accepts)
    (f := fun p => decide (p.Quiescent ∧ p.shared.outbox.map (·.message.messageId) = [1, 2, 3]))
    along (by decide)
  have stored := of_decide_eq_true found
  exact ⟨p, reached, stored.1, (saga_commands_accounted reached).2.1 stored.1, stored.2⟩

end SagaRunner

end Pharos

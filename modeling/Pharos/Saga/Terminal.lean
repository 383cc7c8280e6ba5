import Pharos.Saga.Serializable

/-!
# Terminal sagas stay as they are

A completed or failed instance is never written again.  A call in flight that read it
while it was running holds an older version, so its save is refused; a call that
reads it afterwards is stopped by the status check; and a sweep cannot claim it,
because only running instances are due.
-/

namespace Pharos

namespace SagaRunner

open Async

variable {I St E C ε : Type} [DecidableEq I] {runner : SagaRunner I St E C ε}
  {s s' : SagaShared I St} {call : SagaCall E} {past : List (SagaEvent I St E C ε)}

/-- `claim_due` never returns a terminal instance. -/
theorem not_claimed_of_terminal {order : List I} {now : Time} {lease : ChronoDuration} {limit : ℕ}
    (inv : StoreInv s) (iterated : order.Perm s.store.keys) {id : I} {row : SagaInstance I St}
    (stored : s.store.get id = some row) (terminal : row.Terminal) :
    ∀ inst ∈ (s.store.claimDue order now lease limit).2, inst.id ≠ id := by
  intro inst claimed same
  rcases InMemorySagaStore.mem_claimDue iterated claimed with
    ⟨other, entry, -, found, due, rfl⟩
  have own : entry.id = other := (inv other entry found).1
  have same : other = id := own.symm.trans same
  rw [same, stored] at found
  cases found
  exact terminal due.1

/-- A save computed from a running snapshot cannot hit a terminal row. -/
theorem Persists.not_terminal {inst : SagaInstance I St} {current : Option (SagaInstance I St)}
    {transition : SagaTransition St C} (inv : StoreInv s)
    (persists : runner.Persists call past s inst current transition) {row : SagaInstance I St}
    (stored : s.store.get inst.id = some row) (matched : row.version = inst.version) :
    ¬ row.Terminal := by
  have view := persists.stored_view inv (.inr ⟨row, stored, matched⟩)
  rw [stored] at view
  cases current with
  | none => cases view
  | some c =>
      have status : row.status = c.status := congrArg (·.2) (Option.some.inj view)
      intro terminal
      exact persists.running c rfl fun running => terminal (status.trans running)

/-- No operation changes a terminal row. -/
theorem serve_terminal {choice : SagaChoice I} {op : SagaOp I St E} {reply : op.Reply C ε}
    (inv : StoreInv s) (ready : runner.pre call past s op)
    (served : runner.serve s choice op = some (s', reply)) {id : I} {row : SagaInstance I St}
    (stored : s.store.get id = some row) (terminal : row.Terminal) :
    s'.store.get id = some row := by
  rcases serve_row inv.keyed served id with ⟨raises, -⟩ | ⟨-, same⟩
  · exfalso
    cases op with
    | save inst =>
        cases served
        rcases ready with ⟨-, current, transition, persists⟩
        rcases InMemorySagaStore.save_cases s.store inst with ⟨_, _, eq⟩ | ⟨matched, eq⟩
        · rw [eq] at raises
          exact raises
        · rw [eq] at raises
          have same : inst.id = id := raises
          subst same
          rcases matched with ⟨absent, -⟩ | ⟨stored', found, version⟩
          · rw [stored] at absent
            cases absent
          · rw [stored] at found
            cases found
            exact persists.not_terminal inv stored version terminal
    | claimDue now lease limit =>
        simp only [serve] at served
        split at served
        · next iterated =>
          cases served
          obtain ⟨inst, claimed, same⟩ := raises
          exact not_claimed_of_terminal inv iterated stored terminal inst claimed same
        · cases served
    | load _ | react _ _ | onTimeout _ | utcNow | nowV7 | insert _ => exact raises
  · rw [same, stored]

/-- Every instance a call writes has no deadline once it is terminal. -/
theorem noDeadline_of_save {p : SagaPool I St E C ε}
    (reached : runner.system.Reaches System.Any initial p) : ∀ entry ∈ p.trace,
      ∀ choice (inst : SagaInstance I St) reply, entry.event = ⟨choice, .save inst, reply⟩ →
        inst.Terminal → inst.deadline = none := by
  refine reached.invariant (P := fun p : SagaPool I St E C ε => ∀ entry ∈ p.trace,
    ∀ choice (inst : SagaInstance I St) reply, entry.event = ⟨choice, .save inst, reply⟩ →
      inst.Terminal → inst.deadline = none) (fun _ member => by cases member) ?_
  intro q r action before all _ stepped entry member choice inst reply same terminal
  obtain ⟨arrival, shared, args, rfl, arrived, rfl⟩ |
    ⟨i, choice', t, op, next, shared, reply', rfl, found, awaits, served, rfl⟩ :=
    System.step_cases stepped
  · exact all entry member choice inst reply same terminal
  · rw [Pool.advance_trace, List.mem_append, List.mem_singleton] at member
    rcases member with earlier | rfl
    · exact all entry earlier choice inst reply same terminal
    · cases same
      rcases (outline_holds before).pre found awaits with ⟨-, current, transition, persists⟩
      exact persists.noDeadline terminal

/-- Terminal saga states are absorbing: whatever calls do after a saga was stored as
completed or failed, calls already in flight included, its row stays exactly as it is, and
it holds no deadline and is never claimed.  No call ever writes a terminal instance with a
deadline. -/
theorem terminal_absorbing {p q : SagaPool I St E C ε}
    (reached : runner.system.Reaches System.Any initial p) {id : I} {row : SagaInstance I St}
    (stored : p.shared.store.get id = some row) (terminal : row.Terminal)
    (later : runner.system.Reaches System.Any p q) :
    q.shared.store.get id = some row ∧ row.deadline = none ∧
    (∀ order now lease limit, order.Perm q.shared.store.keys →
      ∀ inst ∈ (q.shared.store.claimDue order now lease limit).2, inst.id ≠ id) ∧
    ∀ entry ∈ q.trace, ∀ choice (inst : SagaInstance I St) reply,
      entry.event = ⟨choice, .save inst, reply⟩ → inst.Terminal → inst.deadline = none := by
  have kept : q.shared.store.get id = some row := by
    refine later.invariant (P := fun q => q.shared.store.get id = some row) stored ?_
    intro q r action before kept _ stepped
    have holds := outline_holds (reached.trans before)
    obtain ⟨arrival, shared, args, rfl, arrived, rfl⟩ |
      ⟨i, choice, t, op, next, shared, reply, rfl, found, awaits, served, rfl⟩ :=
      System.step_cases stepped
    · cases arrived
      exact kept
    · exact serve_terminal holds.inv (holds.pre found awaits) served kept terminal
  have inv := (outline_holds (reached.trans later)).inv
  refine ⟨kept, (inv id row kept).2.2 terminal, ?_, noDeadline_of_save (reached.trans later)⟩
  intro order now lease limit iterated
  exact not_claimed_of_terminal inv iterated kept terminal

/-- Saga 7 is completed by one call while another holds its running snapshot. -/
def tallyComplete : List (Action (SagaChoice ℕ) (SagaCall (ℕ × ℕ))) :=
  List.flatten [
    [.arrive (.handle (7, 1)), .arrive (.handle (7, 0)), .arrive (.handle (7, 3))],
    List.replicate 7 (.step 0 {}), [.step 1 {}, .step 2 {}], List.replicate 3 (.step 1 {})]

/-- The call in flight loses the race, finds the saga completed and changes nothing. -/
theorem terminal_absorbing_late : ∃ p q : SagaPool ℕ ℕ (ℕ × ℕ) ℕ String,
    tally.system.Reaches System.Any initial p ∧ tally.system.Reaches System.Any p q ∧
      q.Quiescent ∧ ∃ row, p.shared.store.get 7 = some row ∧ row.Terminal ∧
        q.shared.store.get 7 = some row := by
  have run : ((tally.system.exec initial tallyComplete).any fun p =>
      (p.shared.store.get 7).any (fun row => decide row.Terminal) &&
        (tally.system.exec p (List.replicate 5 (.step 2 {}))).any
          fun q => decide q.Quiescent) = true := by decide
  obtain ⟨p, reached, found⟩ := System.exists_reaches_of_exec (System.along_any _ _ _) run
  rw [Bool.and_eq_true, Option.any_eq_true] at found
  obtain ⟨⟨row, stored, terminal⟩, run⟩ := found
  obtain ⟨q, later, finished⟩ := System.exists_reaches_of_exec (System.along_any _ p _) run
  have terminal := of_decide_eq_true terminal
  exact ⟨p, q, reached, later, of_decide_eq_true finished, row, stored, terminal,
    (terminal_absorbing reached stored terminal later).1⟩

end SagaRunner

end Pharos

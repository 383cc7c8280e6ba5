import Pharos.Async.Pool

/-!
# Tasks can be run to their end

Where the environment can answer every operation, no task is ever stuck: a program is a finite
tree, so with the same choice again and again a task returns (`exists_finished`), and so do all
tasks of a pool, one after the other (`exists_quiescent`).  Whatever happens, a task stays where it
is and only adds to its past, and one that has returned does not change (`Reaches.goes_on`), so what
the tasks have done stays done (`Reaches.subset_done`).
-/

namespace Async

namespace System

variable {S : Signature} {σ ι κ τ α : Type} {sys : System S σ ι κ τ α}
  {C : Pool S σ ι τ α → Action ι κ → Prop} {choice : ι}

/-- With this choice every operation is answered, and every such step meets `C`. -/
structure Answers (sys : System S σ ι κ τ α) (C : Pool S σ ι τ α → Action ι κ → Prop) (choice : ι) :
    Prop where
  serves : ∀ (shared : σ) (op : S.Op), ∃ shared' reply,
    sys.serve shared choice op = some (shared', reply)
  allowed : ∀ p i, C p (.step i choice)

/-- One task, while the others wait. -/
theorem exists_finished (answers : sys.Answers C choice) {p : Pool S σ ι τ α} {i : ℕ}
    {t : Task S ι τ α} (found : p.tasks[i]? = some t) :
    ∃ q t', sys.Reaches C p q ∧ q.tasks = p.tasks.set i t' ∧ t'.Finished := by
  obtain ⟨args, past, rest⟩ := t
  induction rest generalizing p past with
  | ret value =>
      refine ⟨p, ⟨args, past, .ret value⟩, .refl, ?_, trivial⟩
      obtain ⟨inside, here⟩ := List.getElem?_eq_some_iff.mp found
      rw [← here, List.set_getElem_self]
  | await op next ih =>
      obtain ⟨shared, reply, served⟩ := answers.serves p.shared op
      have stepped := step_of_serve found rfl served
      have inside := (List.getElem?_eq_some_iff.mp found).1
      obtain ⟨q, t', later, tasks, finished⟩ :=
        ih reply (p := p.advance i ⟨args, past, .await op next⟩ ⟨choice, op, reply⟩ shared
          (next reply)) (⟨choice, op, reply⟩ :: past) (List.getElem?_set_self inside)
      refine ⟨q, t', .head ⟨_, answers.allowed p i, stepped⟩ later, ?_, finished⟩
      rw [tasks, Pool.advance_tasks, List.set_set]

/-- All of them, one after the other. -/
theorem exists_quiescent (answers : sys.Answers C choice) (p : Pool S σ ι τ α) :
    ∃ q, sys.Reaches C p q ∧ q.Quiescent := by
  have upTo : ∀ n ≤ p.tasks.length, ∃ q, sys.Reaches C p q ∧ q.tasks.length = p.tasks.length ∧
      ∀ (i : ℕ) t, i < n → q.tasks[i]? = some t → t.Finished := by
    intro n
    induction n with
    | zero => exact fun _ => ⟨p, .refl, rfl, fun i t none => by cases none⟩
    | succ n ih =>
        intro inside
        obtain ⟨q, reached, same, before⟩ := ih (Nat.le_of_succ_le inside)
        have here : n < q.tasks.length := by omega
        obtain ⟨r, t', later, tasks, finished⟩ :=
          exists_finished answers (List.getElem?_eq_getElem here)
        refine ⟨r, reached.trans later, by rw [tasks, List.length_set, same], fun i t early at_ => ?_⟩
        rw [tasks] at at_
        by_cases last : i = n
        · subst last
          rw [List.getElem?_set_self here] at at_
          cases at_
          exact finished
        · rw [List.getElem?_set_ne (Ne.symm last)] at at_
          exact before i t (by omega) at_
  obtain ⟨q, reached, same, all⟩ := upTo p.tasks.length (Nat.le_refl _)
  refine ⟨q, reached, fun t started => ?_⟩
  obtain ⟨i, at_⟩ := List.getElem?_of_mem started
  have inside := (List.getElem?_eq_some_iff.mp at_).1
  exact all i t (by omega) at_

/-- What became of a task. -/
theorem Reaches.goes_on {p q : Pool S σ ι τ α} (reached : sys.Reaches C p q) {i : ℕ}
    {t : Task S ι τ α} (found : p.tasks[i]? = some t) :
    ∃ t', q.tasks[i]? = some t' ∧ t'.args = t.args ∧ t.past <:+ t'.past ∧
      (t.Finished → t' = t) := by
  refine reached.invariant (P := fun q => ∃ t', q.tasks[i]? = some t' ∧ t'.args = t.args ∧
    t.past <:+ t'.past ∧ (t.Finished → t' = t)) ?_ ?_
  · exact ⟨t, found, rfl, List.suffix_refl _, fun _ => rfl⟩
  · intro q r action _ soFar _ stepped
    obtain ⟨u, at_i, called, more, done⟩ := soFar
    have inside := (List.getElem?_eq_some_iff.mp at_i).1
    obtain ⟨arrival, shared, args, rfl, arrived, rfl⟩ |
      ⟨j, choice, v, op, next, shared, reply, rfl, acts, awaits, served, rfl⟩ := step_cases stepped
    · refine ⟨u, ?_, called, more, done⟩
      rw [Pool.start_tasks, List.getElem?_append_left inside, at_i]
    · by_cases here : j = i
      · subst here
        cases at_i.symm.trans acts
        refine ⟨_, List.getElem?_set_self inside, called, more.trans (List.suffix_cons _ _), ?_⟩
        intro finished
        cases done finished
        unfold Task.Finished at finished
        rw [awaits] at finished
        exact finished.elim
      · refine ⟨u, ?_, called, more, done⟩
        rw [Pool.advance_tasks, List.getElem?_set_ne here, at_i]

/-- What the tasks have done stays done. -/
theorem Reaches.subset_done {β : Type} {p q : Pool S σ ι τ α} (reached : sys.Reaches C p q)
    (f : Event S ι → Option β) : (p.tasks.flatMap fun t => (t.past.filterMap f).reverse) ⊆
      q.tasks.flatMap fun t => (t.past.filterMap f).reverse := by
  intro value listed
  obtain ⟨t, started, did⟩ := List.mem_flatMap.mp listed
  obtain ⟨i, found⟩ := List.getElem?_of_mem started
  obtain ⟨t', at_i, -, more, -⟩ := reached.goes_on found
  apply List.mem_flatMap.mpr
  refine ⟨t', List.mem_of_getElem? at_i, List.mem_reverse.mpr ?_⟩
  exact (more.sublist.filterMap f).subset (List.mem_reverse.mp did)

end System

end Async

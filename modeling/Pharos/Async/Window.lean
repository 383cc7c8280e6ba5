import Mathlib.Data.List.DropRight
import Mathlib.Data.List.TakeWhile
import Pharos.Async.Pool

/-!
# What happens during a call

A call lasts from its first operation to its last one.  `Pool.since` is the trace from the first
operation of a task on, and `Pool.during` ends with its latest one; once the task has returned,
`Pool.during` does not change any more.
-/

namespace Async

variable {S : Signature} {σ ι κ τ α : Type}

/-- The trace from where it first names task `i`. -/
def Pool.since (p : Pool S σ ι τ α) (i : ℕ) : List (Entry S σ ι τ) :=
  p.trace.dropWhile fun entry => entry.task ≠ i

/-- The trace between the first and the latest operation of task `i`. -/
def Pool.during (p : Pool S σ ι τ α) (i : ℕ) : List (Entry S σ ι τ) :=
  (p.since i).rdropWhile fun entry => entry.task ≠ i

variable {p q : Pool S σ ι τ α} {i j : ℕ} {t : Task S ι τ α} {event : Event S ι} {shared : σ}
  {rest : Program S α}

@[simp] theorem Pool.since_start (body : τ → Program S α) (args : List τ) :
    (p.start body shared args).since i = p.since i := rfl

@[simp] theorem Pool.during_start (body : τ → Program S α) (args : List τ) :
    (p.start body shared args).during i = p.during i := rfl

theorem Pool.during_prefix (p : Pool S σ ι τ α) (i : ℕ) : p.during i <+: p.since i :=
  List.rdropWhile_prefix _ _

/-- The acting task sees its own operation. -/
theorem Pool.since_advance_self :
    (p.advance i t event shared rest).since i =
      p.since i ++ [⟨i, t.args, t.past, p.shared, event⟩] := by
  unfold Pool.since
  rw [Pool.advance_trace, List.dropWhile_append]
  split
  · next unbegun =>
    rw [List.isEmpty_iff.mp unbegun, List.dropWhile_cons_of_neg (by simp), List.nil_append]
  · rfl

/-- A task that has begun sees the operations of the others. -/
theorem Pool.since_advance (begun : p.since j ≠ []) :
    (p.advance i t event shared rest).since j =
      p.since j ++ [⟨i, t.args, t.past, p.shared, event⟩] := by
  unfold Pool.since at begun ⊢
  rw [Pool.advance_trace, List.dropWhile_append, if_neg fun none => begun (List.isEmpty_iff.mp none)]

theorem Pool.during_advance_self :
    (p.advance i t event shared rest).during i =
      p.since i ++ [⟨i, t.args, t.past, p.shared, event⟩] := by
  unfold Pool.during
  rw [Pool.since_advance_self, List.rdropWhile_concat_neg _ _ _ (by simp)]

/-- What the others do afterwards is not part of the call. -/
theorem Pool.during_advance (other : i ≠ j) :
    (p.advance i t event shared rest).during j = p.during j := by
  by_cases begun : p.since j = []
  · unfold Pool.during Pool.since at *
    rw [Pool.advance_trace, List.dropWhile_append, begun, List.isEmpty_nil, if_pos rfl,
      List.dropWhile_cons_of_pos (by simpa using other), List.dropWhile_nil]
  · unfold Pool.during
    rw [Pool.since_advance begun, List.rdropWhile_concat_pos _ _ _ (by simpa using other)]

/-- A task that has acted has begun. -/
theorem System.Reaches.since_ne_nil {sys : System S σ ι κ τ α}
    {C : Pool S σ ι τ α → Action ι κ → Prop} (reached : sys.Reaches C p q) (idle : p.tasks = [])
    (fresh : p.trace = []) (found : q.tasks[i]? = some t) (acted : t.past ≠ []) :
    q.since i ≠ [] := by
  obtain ⟨first, past, same⟩ := List.exists_cons_of_ne_nil acted
  obtain ⟨entry, listed, task, -⟩ := reached.mem_trace idle fresh found
    (same ▸ List.mem_cons_self : first ∈ t.past)
  intro none
  have silent := List.dropWhile_eq_nil_iff.mp none entry listed
  simp [task] at silent

end Async

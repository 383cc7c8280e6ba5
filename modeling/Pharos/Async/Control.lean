import Pharos.Async.Pool

/-!
# What a program does, whatever it is answered

`Obeys` annotates the operations of a program with what the task has done so far and says nothing
about shared state: at each operation `P` holds of the past, whatever the replies were, and `Q`
holds of the past and the value at the end.  It carries over to every task of a pool.
-/

namespace Async

variable {S : Signature} {σ ι κ τ α β : Type}

/-- `program` performs an operation only when `P` holds of the past, and returns with `Q`. -/
def Program.Obeys (P : List (Event S ι) → S.Op → Prop) (Q : List (Event S ι) → α → Prop) :
    Program S α → List (Event S ι) → Prop
  | .ret value, past => Q past value
  | .await op next, past =>
      P past op ∧ ∀ choice reply, (next reply).Obeys P Q (⟨choice, op, reply⟩ :: past)

namespace Program.Obeys

variable {P : List (Event S ι) → S.Op → Prop} {Q : List (Event S ι) → α → Prop}
  {R : List (Event S ι) → β → Prop} {past : List (Event S ι)}

/-- Await one operation, then go on. -/
theorem call {op : S.Op} {next : S.Reply op → Program S β} (now : P past op)
    (rest : ∀ choice reply, (next reply).Obeys P R (⟨choice, op, reply⟩ :: past)) :
    (Program.call op >>= next).Obeys P R past :=
  ⟨now, rest⟩

/-- What the first program leaves behind is known to the second. -/
theorem bind {program : Program S α} {next : α → Program S β} (first : program.Obeys P Q past)
    (rest : ∀ past value, Q past value → (next value).Obeys P R past) :
    (program >>= next).Obeys P R past := by
  induction program generalizing past with
  | ret value => exact rest past value first
  | await op tail ih =>
      exact ⟨first.1, fun choice reply => ih reply (first.2 choice reply)⟩

/-- Nothing is asked of the program. -/
theorem of_true (program : Program S α) (past : List (Event S ι)) :
    program.Obeys (fun _ _ => True) (fun _ _ => True) past := by
  induction program generalizing past with
  | ret value => trivial
  | await op tail ih => exact ⟨trivial, fun choice reply => ih reply _⟩

/-- Less is known at the end. -/
theorem mono {R : List (Event S ι) → α → Prop} {program : Program S α}
    (obeys : program.Obeys P Q past) (less : ∀ past value, Q past value → R past value) :
    program.Obeys P R past := by
  induction program generalizing past with
  | ret value => exact less past value obeys
  | await op tail ih =>
      exact ⟨obeys.1, fun choice reply => ih reply (obeys.2 choice reply)⟩

/-- More is allowed. -/
theorem weaken {P' : List (Event S ι) → S.Op → Prop} {program : Program S α}
    (obeys : program.Obeys P Q past) (allowed : ∀ past op, P past op → P' past op) :
    program.Obeys P' Q past := by
  induction program generalizing past with
  | ret value => exact obeys
  | await op tail ih =>
      exact ⟨allowed past op obeys.1, fun choice reply => ih reply (obeys.2 choice reply)⟩

/-- A program performs what it is allowed to perform. -/
theorem only [Nonempty ι] {A : S.Op → Prop} {program : Program S α}
    (obeys : program.Obeys P Q past) (allowed : ∀ past op, P past op → A op) : program.Only A := by
  obtain ⟨choice⟩ := ‹Nonempty ι›
  induction program generalizing past with
  | ret value => trivial
  | await op tail ih => exact ⟨allowed past op obeys.1, fun reply => ih reply (obeys.2 choice reply)⟩

/-- What a program performs is allowed whatever it has done. -/
theorem of_only {A : S.Op → Prop} {program : Program S α} (only : program.Only A)
    (allowed : ∀ past op, A op → P past op) (past : List (Event S ι)) :
    program.Obeys P (fun _ _ => True) past := by
  induction program generalizing past with
  | ret value => trivial
  | await op next ih =>
      exact ⟨allowed past op only.1, fun choice reply => ih reply (only.2 reply) _⟩

/-- A program of a kind of operations that keep `I` keeps `I`. -/
theorem keeping {A : S.Op → Prop} {I : List (Event S ι) → Prop} {program : Program S α}
    (only : program.Obeys (fun _ op => A op) Q past) (holds : I past)
    (allowed : ∀ past op, A op → I past → P past op)
    (kept : ∀ past event, A event.op → I past → I (event :: past)) :
    program.Obeys P (fun past value => Q past value ∧ I past) past := by
  induction program generalizing past with
  | ret value => exact ⟨only, holds⟩
  | await op tail ih =>
      refine ⟨allowed past op only.1 holds, fun choice reply => ?_⟩
      exact ih reply (only.2 choice reply) (kept past ⟨choice, op, reply⟩ only.1 holds)

end Program.Obeys

/-- Every task of a pool obeys what its program obeys. -/
theorem System.Reaches.obeys {sys : System S σ ι κ τ α} {C : Pool S σ ι τ α → Action ι κ → Prop}
    {p q : Pool S σ ι τ α} {P : τ → List (Event S ι) → S.Op → Prop}
    {Q : τ → List (Event S ι) → α → Prop} (reached : sys.Reaches C p q) (idle : p.tasks = [])
    (body : ∀ a, (sys.body a).Obeys (P a) (Q a) []) :
    ∀ t ∈ q.tasks, t.rest.Obeys (P t.args) (Q t.args) t.past := by
  refine reached.invariant (P := fun q => ∀ t ∈ q.tasks, t.rest.Obeys (P t.args) (Q t.args) t.past)
    ?_ ?_
  · intro t started
    rw [idle] at started
    cases started
  · intro q r action _ all _ stepped t started
    obtain ⟨arrival, shared, args, rfl, arrived, rfl⟩ |
      ⟨i, choice, u, op, next, shared, reply, rfl, found, awaits, served, rfl⟩ :=
      System.step_cases stepped
    · rcases Pool.mem_start started with old | ⟨a, -, rfl⟩
      · exact all t old
      · exact body a
    · rcases List.mem_or_eq_of_mem_set started with old | rfl
      · exact all t old
      · have before := all u (List.mem_of_getElem? found)
        rw [awaits] at before
        exact before.2 choice reply

/-- What an acting task may do next. -/
theorem System.Reaches.obeys_op {sys : System S σ ι κ τ α}
    {C : Pool S σ ι τ α → Action ι κ → Prop} {p q : Pool S σ ι τ α}
    {P : τ → List (Event S ι) → S.Op → Prop} {Q : τ → List (Event S ι) → α → Prop}
    (reached : sys.Reaches C p q) (idle : p.tasks = [])
    (body : ∀ a, (sys.body a).Obeys (P a) (Q a) []) {i : ℕ} {t : Task S ι τ α} {op : S.Op}
    {next : S.Reply op → Program S α} (found : q.tasks[i]? = some t)
    (awaits : t.rest = .await op next) : P t.args t.past op := by
  have obeys := reached.obeys idle body t (List.mem_of_getElem? found)
  rw [awaits] at obeys
  exact obeys.1

/-- What a task did, it was allowed to do. -/
theorem System.Reaches.obeyed {sys : System S σ ι κ τ α} {C : Pool S σ ι τ α → Action ι κ → Prop}
    {p q : Pool S σ ι τ α} {P : τ → List (Event S ι) → S.Op → Prop}
    {Q : τ → List (Event S ι) → α → Prop} (reached : sys.Reaches C p q) (idle : p.tasks = [])
    (body : ∀ a, (sys.body a).Obeys (P a) (Q a) []) :
    ∀ t ∈ q.tasks, ∀ event past, event :: past <:+ t.past → P t.args past event.op := by
  refine reached.forall_tasks (Q := fun a past => ∀ event earlier, event :: earlier <:+ past →
    P a earlier event.op) idle ?_ ?_
  · intro a event earlier did
    cases List.suffix_nil.mp did
  · intro q i t op next choice shared reply before found awaits _ _ known event earlier did
    rcases List.suffix_cons_iff.mp did with now | then_
    · cases now
      exact before.obeys_op idle body found awaits
    · exact known event earlier then_

end Async

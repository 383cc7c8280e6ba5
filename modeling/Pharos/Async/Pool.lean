import Mathlib.Logic.Relation
import Mathlib.Data.List.Basic
import Mathlib.Data.List.Perm.Basic
import Pharos.Async.Program

/-!
# Interleavings of concurrent tasks

A `System` is shared state, the atomic effect of every operation on it, and the
programs that calls run.  A `Pool` is one configuration: the shared state, every
task started so far with the part of its program still to run, and the trace of
all operations in the order they took effect.  One step of `System.step` is either
an arrival from outside (which may start tasks) or the next operation of one
task; the `Action` names which, together with everything the environment chooses
(clock readings, outcomes of foreign calls).  `System.Reaches` closes the steps
that satisfy a side condition `C`, so `Reaches (fun _ _ => True)` is reachability
under every interleaving and a stricter `C` is an assumption on the run.
-/

namespace Async

/-- One operation that took effect: the environment's choice, the operation, its reply. -/
structure Event (S : Signature) (ι : Type) where
  choice : ι
  op : S.Op
  reply : S.Reply op

/-- A started call: its arguments, what it did so far (latest first), what is left to run. -/
structure Task (S : Signature) (ι τ α : Type) where
  args : τ
  past : List (Event S ι)
  rest : Program S α

/-- One line of the trace: which task acted, its own past, the shared state it met. -/
structure Entry (S : Signature) (σ ι τ : Type) where
  task : ℕ
  args : τ
  past : List (Event S ι)
  before : σ
  event : Event S ι

/-- A configuration of concurrent tasks over shared state. -/
structure Pool (S : Signature) (σ ι τ α : Type) where
  shared : σ
  tasks : List (Task S ι τ α) := []
  trace : List (Entry S σ ι τ) := []

/-- What happens next: an arrival, or the next operation of one task. -/
inductive Action (ι κ : Type) where
  | arrive (arrival : κ)
  | step (task : ℕ) (choice : ι)

/-- Shared state under atomic operations, arrivals, and the program of each call.
`serve` and `arrive` return `none` when the environment's choice is impossible. -/
structure System (S : Signature) (σ ι κ τ α : Type) where
  serve : σ → ι → (op : S.Op) → Option (σ × S.Reply op)
  arrive : σ → κ → Option (σ × List τ)
  body : τ → Program S α

variable {S : Signature} {σ ι κ τ α : Type}

/-- The task has returned. -/
def Task.Finished (t : Task S ι τ α) : Prop := t.rest.Finished

instance (t : Task S ι τ α) : Decidable t.Finished := inferInstanceAs (Decidable t.rest.Finished)

/-- Start one task for each of `args` in the shared state `shared`. -/
def Pool.start (p : Pool S σ ι τ α) (body : τ → Program S α) (shared : σ) (args : List τ) :
    Pool S σ ι τ α :=
  { p with shared := shared, tasks := p.tasks ++ args.map fun a => ⟨a, [], body a⟩ }

/-- Task `i`, which is `t`, performs `event`, leaving `shared` and `rest`. -/
def Pool.advance (p : Pool S σ ι τ α) (i : ℕ) (t : Task S ι τ α) (event : Event S ι)
    (shared : σ) (rest : Program S α) : Pool S σ ι τ α where
  shared := shared
  tasks := p.tasks.set i ⟨t.args, event :: t.past, rest⟩
  trace := p.trace ++ [⟨i, t.args, t.past, p.shared, event⟩]

/-- No task is still running. -/
def Pool.Quiescent (p : Pool S σ ι τ α) : Prop := ∀ t ∈ p.tasks, t.Finished

instance (p : Pool S σ ι τ α) : Decidable p.Quiescent :=
  inferInstanceAs (Decidable (∀ t ∈ p.tasks, t.Finished))

/-- What task `i` did, in order. -/
def Pool.eventsOf (p : Pool S σ ι τ α) (i : ℕ) : List (Event S ι) :=
  (p.trace.filter fun entry => entry.task = i).map Entry.event

/-- Where the trace first names task `i`. -/
def Pool.began (p : Pool S σ ι τ α) (i : ℕ) : ℕ := p.trace.findIdx fun entry => entry.task = i

section Projections

variable (p : Pool S σ ι τ α) (body : τ → Program S α) (shared : σ) (args : List τ)
  (i : ℕ) (t : Task S ι τ α) (event : Event S ι) (rest : Program S α)

@[simp] theorem Pool.start_shared : (p.start body shared args).shared = shared := rfl

@[simp] theorem Pool.start_tasks :
    (p.start body shared args).tasks = p.tasks ++ args.map fun a => ⟨a, [], body a⟩ := rfl

@[simp] theorem Pool.start_trace : (p.start body shared args).trace = p.trace := rfl

/-- An arrival that starts nothing. -/
theorem Pool.start_nil : p.start body shared [] = { p with shared := shared } := by
  simp only [Pool.start, List.map_nil, List.append_nil]

@[simp] theorem Pool.advance_shared : (p.advance i t event shared rest).shared = shared := rfl

@[simp] theorem Pool.advance_tasks :
    (p.advance i t event shared rest).tasks =
      p.tasks.set i ⟨t.args, event :: t.past, rest⟩ := rfl

@[simp] theorem Pool.advance_trace :
    (p.advance i t event shared rest).trace =
      p.trace ++ [⟨i, t.args, t.past, p.shared, event⟩] := rfl

end Projections

/-- The tasks after one of them acted. -/
theorem Pool.getElem?_advance {p : Pool S σ ι τ α} {i j : ℕ} {t u : Task S ι τ α}
    {event : Event S ι} {shared : σ} {rest : Program S α} (found : p.tasks[i]? = some t)
    (at_j : (p.advance i t event shared rest).tasks[j]? = some u) :
    (j = i ∧ u = ⟨t.args, event :: t.past, rest⟩) ∨ (j ≠ i ∧ p.tasks[j]? = some u) := by
  rw [Pool.advance_tasks] at at_j
  by_cases here : j = i
  · subst here
    rw [List.getElem?_set_self (List.getElem?_eq_some_iff.mp found).1] at at_j
    exact .inl ⟨rfl, (Option.some.inj at_j).symm⟩
  · rw [List.getElem?_set_ne (Ne.symm here)] at at_j
    exact .inr ⟨here, at_j⟩

/-- Every task goes on after one of them acted. -/
theorem Pool.exists_advance {p : Pool S σ ι τ α} {i : ℕ} {t u : Task S ι τ α} {event : Event S ι}
    {shared : σ} {rest : Program S α} (found : p.tasks[i]? = some t) (among : u ∈ p.tasks) :
    ∃ u' ∈ (p.advance i t event shared rest).tasks, u'.args = u.args ∧ u.past <:+ u'.past := by
  rw [Pool.advance_tasks]
  obtain ⟨j, at_j⟩ := List.mem_iff_getElem?.mp among
  by_cases here : j = i
  · subst here
    cases at_j.symm.trans found
    exact ⟨_, List.mem_set (List.getElem?_eq_some_iff.mp found).1 _, rfl, List.suffix_cons _ _⟩
  · refine ⟨u, List.mem_iff_getElem?.mpr ⟨j, ?_⟩, rfl, List.suffix_refl _⟩
    rw [List.getElem?_set_ne (Ne.symm here), at_j]

/-- The tasks after some started. -/
theorem Pool.getElem?_start {p : Pool S σ ι τ α} {body : τ → Program S α} {shared : σ}
    {args : List τ} {j : ℕ} {u : Task S ι τ α}
    (at_j : (p.start body shared args).tasks[j]? = some u) :
    p.tasks[j]? = some u ∨ (p.tasks.length ≤ j ∧ ∃ a ∈ args, u = ⟨a, [], body a⟩) := by
  rw [Pool.start_tasks, List.getElem?_append] at at_j
  split at at_j
  · exact .inl at_j
  · next beyond =>
    obtain ⟨a, started, rfl⟩ := List.mem_map.mp (List.mem_of_getElem? at_j)
    exact .inr ⟨Nat.le_of_not_lt beyond, a, started, rfl⟩

theorem Pool.mem_start {p : Pool S σ ι τ α} {body : τ → Program S α} {shared : σ}
    {args : List τ} {u : Task S ι τ α} (started : u ∈ (p.start body shared args).tasks) :
    u ∈ p.tasks ∨ ∃ a ∈ args, u = ⟨a, [], body a⟩ := by
  rcases List.mem_append.mp started with old | new
  · exact .inl old
  · obtain ⟨a, among, rfl⟩ := List.mem_map.mp new
    exact .inr ⟨a, among, rfl⟩

section Began

variable {p : Pool S σ ι τ α} {i j : ℕ} {t : Task S ι τ α} {event : Event S ι} {shared : σ}
  {rest : Program S α}

theorem Pool.began_lt {entry : Entry S σ ι τ} (member : entry ∈ p.trace) (acts : entry.task = i) :
    p.began i < p.trace.length :=
  List.findIdx_lt_length_of_exists ⟨entry, member, decide_eq_true acts⟩

/-- When a task began does not change later. -/
theorem Pool.began_advance (before : p.began j < p.trace.length) :
    (p.advance i t event shared rest).began j = p.began j := by
  unfold Pool.began at before ⊢
  rw [Pool.advance_trace, List.findIdx_append, if_pos before]

/-- A task that has not acted yet begins after all that have. -/
theorem Pool.length_le_began_advance (silent : ∀ entry ∈ p.trace, entry.task ≠ j) :
    p.trace.length ≤ (p.advance i t event shared rest).began j := by
  have none : p.trace.findIdx (fun entry => decide (entry.task = j)) = p.trace.length :=
    List.findIdx_eq_length_of_false fun entry member => decide_eq_false (silent entry member)
  unfold Pool.began
  rw [Pool.advance_trace, List.findIdx_append, none, if_neg (Nat.lt_irrefl _)]
  exact Nat.le_add_left _ _

end Began

namespace System

/-- One step of the pool; `none` when the action is not possible in it. -/
def step (sys : System S σ ι κ τ α) (p : Pool S σ ι τ α) :
    Action ι κ → Option (Pool S σ ι τ α)
  | .arrive arrival =>
      (sys.arrive p.shared arrival).map fun out => p.start sys.body out.1 out.2
  | .step i choice =>
      match p.tasks[i]? with
      | none => none
      | some t =>
          match t.rest with
          | .ret _ => none
          | .await op next =>
              (sys.serve p.shared choice op).map fun out =>
                p.advance i t ⟨choice, op, out.2⟩ out.1 (next out.2)

/-- A whole run: one action after the other. -/
def exec (sys : System S σ ι κ τ α) (p : Pool S σ ι τ α) (actions : List (Action ι κ)) :
    Option (Pool S σ ι τ α) :=
  actions.foldlM sys.step p

variable {sys : System S σ ι κ τ α} {p q r : Pool S σ ι τ α}

/-- Everything a step can do. -/
theorem step_cases {action : Action ι κ} (stepped : sys.step p action = some q) :
    (∃ arrival shared args, action = .arrive arrival ∧
      sys.arrive p.shared arrival = some (shared, args) ∧ q = p.start sys.body shared args) ∨
    (∃ i choice t op next shared reply, action = .step i choice ∧ p.tasks[i]? = some t ∧
      t.rest = .await op next ∧ sys.serve p.shared choice op = some (shared, reply) ∧
      q = p.advance i t ⟨choice, op, reply⟩ shared (next reply)) := by
  cases action with
  | arrive arrival =>
      obtain ⟨⟨shared, args⟩, served, rfl⟩ := Option.map_eq_some_iff.mp stepped
      exact .inl ⟨arrival, shared, args, rfl, served, rfl⟩
  | step i choice =>
      simp only [step] at stepped
      split at stepped
      · cases stepped
      · next t found =>
        split at stepped
        · cases stepped
        · next op next awaits =>
          obtain ⟨⟨shared, reply⟩, served, rfl⟩ := Option.map_eq_some_iff.mp stepped
          exact .inr ⟨i, choice, t, op, next, shared, reply, rfl, found, awaits, served, rfl⟩

/-- An operation that can be served is performed. -/
theorem step_of_serve {i : ℕ} {t : Task S ι τ α} {op : S.Op} {next : S.Reply op → Program S α}
    {choice : ι} {shared : σ} {reply : S.Reply op} (found : p.tasks[i]? = some t)
    (awaits : t.rest = .await op next) (served : sys.serve p.shared choice op = some (shared, reply)) :
    sys.step p (.step i choice) = some (p.advance i t ⟨choice, op, reply⟩ shared (next reply)) := by
  simp only [step, found, awaits, served, Option.map_some]

/-- One step that meets the side condition `C`. -/
def Steps (sys : System S σ ι κ τ α) (C : Pool S σ ι τ α → Action ι κ → Prop)
    (p q : Pool S σ ι τ α) : Prop :=
  ∃ action, C p action ∧ sys.step p action = some q

/-- `q` lies on some run from `p` all of whose steps meet `C`. -/
abbrev Reaches (sys : System S σ ι κ τ α) (C : Pool S σ ι τ α → Action ι κ → Prop) :
    Pool S σ ι τ α → Pool S σ ι τ α → Prop :=
  Relation.ReflTransGen (sys.Steps C)

/-- The unrestricted side condition: every interleaving is a run. -/
def Any : Pool S σ ι τ α → Action ι κ → Prop := fun _ _ => True

/-- Every step of the run `actions` from `p` meets `C`. -/
def Along (sys : System S σ ι κ τ α) (C : Pool S σ ι τ α → Action ι κ → Prop) :
    Pool S σ ι τ α → List (Action ι κ) → Prop
  | _, [] => True
  | p, action :: actions => C p action ∧ ∀ q ∈ sys.step p action, sys.Along C q actions

instance decidableAlong (C : Pool S σ ι τ α → Action ι κ → Prop) [∀ p a, Decidable (C p a)] :
    ∀ (p : Pool S σ ι τ α) (actions : List (Action ι κ)), Decidable (sys.Along C p actions)
  | _, [] => .isTrue trivial
  | p, action :: actions =>
      match found : sys.step p action with
      | none => decidable_of_iff (C p action) (by simp [Along, found])
      | some q =>
          have := decidableAlong C q actions
          decidable_of_iff (C p action ∧ sys.Along C q actions) (by simp [Along, found])

variable {C : Pool S σ ι τ α → Action ι κ → Prop}

theorem reaches_of_exec {actions : List (Action ι κ)} (along : sys.Along C p actions)
    (run : sys.exec p actions = some q) : sys.Reaches C p q := by
  induction actions generalizing p with
  | nil =>
      cases run
      exact .refl
  | cons action actions ih =>
      simp only [exec, List.foldlM_cons, Option.bind_eq_bind, Option.bind_eq_some_iff] at run
      obtain ⟨middle, stepped, rest⟩ := run
      exact .head ⟨action, along.1, stepped⟩ (ih (along.2 middle stepped) rest)

theorem along_any (sys : System S σ ι κ τ α) (p : Pool S σ ι τ α) (actions : List (Action ι κ)) :
    sys.Along Any p actions := by
  induction actions generalizing p with
  | nil => trivial
  | cons action actions ih => exact ⟨trivial, fun q _ => ih q⟩

/-- A run that ends in a pool with the property `f` reaches such a pool. -/
theorem exists_reaches_of_exec {f : Pool S σ ι τ α → Bool} {actions : List (Action ι κ)}
    (along : sys.Along C p actions) (run : (sys.exec p actions).any f = true) :
    ∃ q, sys.Reaches C p q ∧ f q = true := by
  obtain ⟨q, found, property⟩ := (Option.any_eq_true _ _).mp run
  exact ⟨q, reaches_of_exec along found, property⟩

/-- What holds initially and is kept by every step that meets `C` holds on every such run. -/
theorem Reaches.invariant {P : Pool S σ ι τ α → Prop} (reached : sys.Reaches C p q)
    (initial : P p)
    (kept : ∀ {q r action}, sys.Reaches C p q → P q → C q action → sys.step q action = some r →
      P r) : P q := by
  induction reached with
  | refl => exact initial
  | tail before step ih =>
      obtain ⟨action, side, stepped⟩ := step
      exact kept before ih side stepped

theorem Reaches.mono {C' : Pool S σ ι τ α → Action ι κ → Prop} (reached : sys.Reaches C p q)
    (weaker : ∀ p a, C p a → C' p a) : sys.Reaches C' p q := by
  induction reached with
  | refl => exact .refl
  | tail _ step ih =>
      obtain ⟨action, side, stepped⟩ := step
      exact .tail ih ⟨action, weaker _ _ side, stepped⟩

/-- What the arguments and the past of every task satisfy. -/
theorem Reaches.forall_tasks {Q : τ → List (Event S ι) → Prop} (reached : sys.Reaches C p q)
    (idle : p.tasks = []) (start : ∀ a, Q a [])
    (kept : ∀ {q i t op next choice shared reply}, sys.Reaches C p q → q.tasks[i]? = some t →
      t.rest = .await op next → C q (.step i choice) →
      sys.serve q.shared choice op = some (shared, reply) →
      Q t.args t.past → Q t.args (⟨choice, op, reply⟩ :: t.past)) :
    ∀ t ∈ q.tasks, Q t.args t.past := by
  refine reached.invariant (P := fun q => ∀ t ∈ q.tasks, Q t.args t.past) ?_ ?_
  · intro t started
    rw [idle] at started
    cases started
  · intro q r action before all side stepped t started
    obtain ⟨arrival, shared, args, rfl, arrived, rfl⟩ |
      ⟨i, choice, u, op, next, shared, reply, rfl, found, awaits, served, rfl⟩ :=
      step_cases stepped
    · rcases Pool.mem_start started with old | ⟨a, -, rfl⟩
      · exact all t old
      · exact start a
    · rcases List.mem_or_eq_of_mem_set started with old | rfl
      · exact all t old
      · exact kept before found awaits side served (all u (List.mem_of_getElem? found))

/-- What the arguments of every task satisfy. -/
theorem Reaches.forall_args {Q : τ → Prop} (reached : sys.Reaches C p q) (idle : p.tasks = [])
    (arrive : ∀ {q arrival shared args}, C q (.arrive arrival) →
      sys.arrive q.shared arrival = some (shared, args) → ∀ a ∈ args, Q a) :
    ∀ t ∈ q.tasks, Q t.args := by
  refine reached.invariant (P := fun q => ∀ t ∈ q.tasks, Q t.args) ?_ ?_
  · intro t started
    rw [idle] at started
    cases started
  · intro q r action _ all side stepped t started
    obtain ⟨arrival, shared, args, rfl, arrived, rfl⟩ |
      ⟨i, choice, u, op, next, shared, reply, rfl, found, awaits, served, rfl⟩ :=
      step_cases stepped
    · rcases Pool.mem_start started with old | ⟨a, among, rfl⟩
      · exact all t old
      · exact arrive side arrived a among
    · rcases List.mem_or_eq_of_mem_set started with old | rfl
      · exact all t old
      · exact all u (List.mem_of_getElem? found)

/-- Tasks only perform what their programs allow. -/
theorem Reaches.only {P : τ → S.Op → Prop} (reached : sys.Reaches C p q) (idle : p.tasks = [])
    (body : ∀ a, (sys.body a).Only (P a)) : ∀ t ∈ q.tasks, t.rest.Only (P t.args) := by
  refine reached.invariant (P := fun q => ∀ t ∈ q.tasks, t.rest.Only (P t.args)) ?_ ?_
  · intro t started
    rw [idle] at started
    cases started
  · intro q r action _ all _ stepped t started
    obtain ⟨arrival, shared, args, rfl, arrived, rfl⟩ |
      ⟨i, choice, u, op, next, shared, reply, rfl, found, awaits, served, rfl⟩ :=
      step_cases stepped
    · rcases Pool.mem_start started with old | ⟨a, -, rfl⟩
      · exact all t old
      · exact body a
    · rcases List.mem_or_eq_of_mem_set started with old | rfl
      · exact all t old
      · have before := all u (List.mem_of_getElem? found)
        rw [awaits] at before
        exact before.2 reply

/-- What an acting task awaits is one of the operations of its program. -/
theorem Reaches.only_op {P : τ → S.Op → Prop} (reached : sys.Reaches C p q) (idle : p.tasks = [])
    (body : ∀ a, (sys.body a).Only (P a)) {i : ℕ} {t : Task S ι τ α} {op : S.Op}
    {next : S.Reply op → Program S α} (found : q.tasks[i]? = some t)
    (awaits : t.rest = .await op next) : P t.args op := by
  have only := reached.only idle body t (List.mem_of_getElem? found)
  rw [awaits] at only
  exact only.1

/-- The arguments of the tasks do not change when one of them acts. -/
theorem exists_args_set {tasks : List (Task S ι τ α)} {i j : ℕ} {u t : Task S ι τ α}
    (found : tasks[i]? = some u) (u' : Task S ι τ α) (same : u'.args = u.args)
    (at_j : tasks[j]? = some t) : ∃ t', (tasks.set i u')[j]? = some t' ∧ t'.args = t.args := by
  by_cases here : i = j
  · subst here
    rw [found] at at_j
    cases at_j
    exact ⟨u', List.getElem?_set_self (List.getElem?_eq_some_iff.mp found).1, same⟩
  · exact ⟨t, by rw [List.getElem?_set_ne here, at_j], rfl⟩

/-- The past of every task is what the trace says about it, and the trace says nothing about
tasks that did not start. -/
theorem Reaches.past_eq (reached : sys.Reaches C p q) (idle : p.tasks = []) (fresh : p.trace = []) :
    (∀ i t, q.tasks[i]? = some t → q.eventsOf i = t.past.reverse) ∧
      (∀ entry ∈ q.trace, ∃ t, q.tasks[entry.task]? = some t ∧ t.args = entry.args) := by
  refine reached.invariant (P := fun q =>
    (∀ i t, q.tasks[i]? = some t → q.eventsOf i = t.past.reverse) ∧
      (∀ entry ∈ q.trace, ∃ t, q.tasks[entry.task]? = some t ∧ t.args = entry.args)) ?_ ?_
  · rw [idle, fresh]
    exact ⟨fun i t found => (by cases found), fun entry member => (by cases member)⟩
  · intro q r action _ both side stepped
    obtain ⟨own, known⟩ := both
    obtain ⟨arrival, shared, args, rfl, arrived, rfl⟩ |
      ⟨i, choice, u, op, next, shared, reply, rfl, found, awaits, served, rfl⟩ :=
      step_cases stepped
    · refine ⟨fun i t found => ?_, fun entry member => ?_⟩
      · rcases Pool.getElem?_start found with old | ⟨beyond, a, -, rfl⟩
        · exact own i t old
        · -- a task that just started: nothing in the trace can be about it
          refine List.map_eq_nil_iff.mpr (List.filter_eq_nil_iff.mpr fun entry member same => ?_)
          obtain ⟨t, at_, -⟩ := known entry member
          rw [of_decide_eq_true same] at at_
          exact Nat.not_lt.mpr beyond (List.getElem?_eq_some_iff.mp at_).1
      · obtain ⟨t, at_, same⟩ := known entry member
        exact ⟨t, by rw [Pool.start_tasks,
          List.getElem?_append_left (List.getElem?_eq_some_iff.mp at_).1, at_], same⟩
    · have bound := (List.getElem?_eq_some_iff.mp found).1
      refine ⟨fun j t at_j => ?_, fun entry member => ?_⟩
      · rw [Pool.eventsOf, Pool.advance_trace, List.filter_append, List.map_append]
        rcases Pool.getElem?_advance found at_j with ⟨rfl, rfl⟩ | ⟨distinct, old⟩
        · have before : (q.trace.filter fun entry => decide (entry.task = j)).map Entry.event =
              u.past.reverse := own j u found
          rw [before]
          simp
        · simpa [Ne.symm distinct, Pool.eventsOf] using own j t old
      · rw [Pool.advance_trace, List.mem_append, List.mem_singleton] at member
        rcases member with old | rfl
        · obtain ⟨t, at_, same⟩ := known entry old
          obtain ⟨t', at_', same'⟩ := exists_args_set found
            ⟨u.args, ⟨choice, op, reply⟩ :: u.past, next reply⟩ rfl at_
          exact ⟨t', at_', same'.trans same⟩
        · exact ⟨_, List.getElem?_set_self bound, rfl⟩

/-- What a task did stands in the trace. -/
theorem Reaches.mem_trace (reached : sys.Reaches C p q) (idle : p.tasks = []) (fresh : p.trace = [])
    {i : ℕ} {t : Task S ι τ α} (found : q.tasks[i]? = some t) {event : Event S ι}
    (member : event ∈ t.past) :
    ∃ entry ∈ q.trace, entry.task = i ∧ entry.args = t.args ∧ entry.event = event := by
  obtain ⟨own, known⟩ := reached.past_eq idle fresh
  have listed : event ∈ q.eventsOf i := own i t found ▸ List.mem_reverse.mpr member
  obtain ⟨entry, kept, rfl⟩ := List.mem_map.mp listed
  obtain ⟨inTrace, same⟩ := List.mem_filter.mp kept
  have task := of_decide_eq_true same
  obtain ⟨t', at_, args⟩ := known entry inTrace
  rw [task, found] at at_
  cases at_
  exact ⟨entry, inTrace, task, args.symm, rfl⟩

/-- What the trace says about a task, the task did. -/
theorem Reaches.mem_past (reached : sys.Reaches C p q) (idle : p.tasks = []) (fresh : p.trace = [])
    {t : Task S ι τ α} {entry : Entry S σ ι τ} (found : q.tasks[entry.task]? = some t)
    (member : entry ∈ q.trace) : entry.event ∈ t.past := by
  have own := (reached.past_eq idle fresh).1 entry.task t found
  have listed : entry.event ∈ q.eventsOf entry.task :=
    List.mem_map_of_mem (List.mem_filter.mpr ⟨member, decide_eq_true rfl⟩)
  rw [own] at listed
  exact List.mem_reverse.mp listed

/-- What a task did stands in the trace, with what the task had done before. -/
theorem Reaches.exists_entry (reached : sys.Reaches C p q) (idle : p.tasks = []) {i : ℕ}
    {t : Task S ι τ α} (found : q.tasks[i]? = some t) {event : Event S ι} {past : List (Event S ι)}
    (did : event :: past <:+ t.past) :
    ∃ entry ∈ q.trace, entry.task = i ∧ entry.args = t.args ∧ entry.past = past ∧
      entry.event = event := by
  revert i t
  refine reached.invariant (P := fun q => ∀ {i t}, q.tasks[i]? = some t → event :: past <:+ t.past →
    ∃ entry ∈ q.trace, entry.task = i ∧ entry.args = t.args ∧ entry.past = past ∧
      entry.event = event) ?_ ?_
  · intro i t found
    rw [idle] at found
    cases found
  · intro q r action _ known _ stepped j u at_j did
    obtain ⟨arrival, shared, args, rfl, arrived, rfl⟩ |
      ⟨i, choice, t, op, next, shared, reply, rfl, found, awaits, served, rfl⟩ :=
      step_cases stepped
    · rcases Pool.getElem?_start at_j with old | ⟨-, a, -, rfl⟩
      · exact known old did
      · exact absurd (List.suffix_nil.mp did) (List.cons_ne_nil _ _)
    · rw [Pool.advance_trace]
      rcases Pool.getElem?_advance found at_j with ⟨rfl, rfl⟩ | ⟨-, old⟩
      · rcases List.suffix_cons_iff.mp did with now | before
        · cases now
          exact ⟨_, List.mem_append_right _ (List.mem_singleton_self _), rfl, rfl, rfl, rfl⟩
        · obtain ⟨entry, inTrace, same⟩ := known found before
          exact ⟨entry, List.mem_append_left _ inTrace, same⟩
      · obtain ⟨entry, inTrace, same⟩ := known old did
        exact ⟨entry, List.mem_append_left _ inTrace, same⟩

/-- Tasks that are numbered as they arrive have their places as numbers. -/
theorem Reaches.numbered (reached : sys.Reaches C p q) (count : σ → ℕ) (number : τ → ℕ)
    (idle : p.tasks = []) (zero : count p.shared = 0)
    (arrive : ∀ {s arrival s' args}, sys.arrive s arrival = some (s', args) →
      ∃ a, args = [a] ∧ number a = count s ∧ count s' = count s + 1)
    (serve : ∀ {s choice op s' reply}, sys.serve s choice op = some (s', reply) →
      count s' = count s) :
    count q.shared = q.tasks.length ∧ ∀ (i : ℕ) t, q.tasks[i]? = some t → number t.args = i := by
  refine reached.invariant (P := fun q => count q.shared = q.tasks.length ∧
    ∀ (i : ℕ) t, q.tasks[i]? = some t → number t.args = i) ?_ ?_
  · rw [idle]
    exact ⟨zero, fun i t found => by cases found⟩
  · intro q r action _ numbered _ stepped
    obtain ⟨total, each⟩ := numbered
    obtain ⟨arrival, shared, args, rfl, arrived, rfl⟩ |
      ⟨i, choice, t, op, next, shared, reply, rfl, found, awaits, served, rfl⟩ :=
      step_cases stepped
    · obtain ⟨a, rfl, same, more⟩ := arrive arrived
      refine ⟨?_, fun j u at_j => ?_⟩
      · rw [Pool.start_shared, Pool.start_tasks, List.length_append, more, total]
        rfl
      · rw [Pool.start_tasks, List.getElem?_append] at at_j
        split at at_j
        · exact each j u at_j
        · next beyond =>
          obtain ⟨bound, rfl⟩ := List.getElem?_eq_some_iff.mp at_j
          simp only [List.map_cons, List.map_nil, List.length_singleton] at bound
          have last : j = q.tasks.length := by omega
          subst last
          simpa [same] using total
    · refine ⟨?_, fun j u at_j => ?_⟩
      · rw [Pool.advance_shared, Pool.advance_tasks, List.length_set, serve served, total]
      · rcases Pool.getElem?_advance found at_j with ⟨rfl, rfl⟩ | ⟨-, old⟩
        · exact each j t found
        · exact each j u old

/-- Nothing in the trace is about a task that has not acted. -/
theorem Reaches.silent (reached : sys.Reaches C p q) (idle : p.tasks = []) (fresh : p.trace = [])
    {i : ℕ} {t : Task S ι τ α} (found : q.tasks[i]? = some t) (unbegun : t.past = []) :
    ∀ entry ∈ q.trace, entry.task ≠ i := by
  intro entry member same
  have none : q.eventsOf i = [] := by
    rw [(reached.past_eq idle fresh).1 i t found, unbegun]
    rfl
  have listed := List.filter_eq_nil_iff.mp (List.map_eq_nil_iff.mp none) entry member
  exact listed (decide_eq_true same)

end System

/-- One more entry of a list adds what it contributes. -/
theorem filterMap_concat {γ δ : Type} (f : γ → Option δ) (entries : List γ) (last : γ) :
    (entries ++ [last]).filterMap f = entries.filterMap f ++ (f last).toList := by
  rw [List.filterMap_append, List.filterMap_cons]
  cases f last with
  | none => rfl
  | some value => rfl

/-- The latest event of a past comes last in the order of events. -/
theorem reverse_filterMap_cons {γ δ : Type} (f : γ → Option δ) (latest : γ) (past : List γ) :
    ((latest :: past).filterMap f).reverse = (past.filterMap f).reverse ++ (f latest).toList := by
  rw [List.filterMap_cons]
  cases f latest with
  | none => exact (List.append_nil _).symm
  | some value => exact List.reverse_cons

/-- What the other tasks contribute to a list over all tasks stays. -/
theorem filterMap_set_perm {γ δ : Type} {tasks : List γ} {i : ℕ} {t : γ} (found : tasks[i]? = some t)
    (t' : γ) (f : γ → Option δ) :
    ∃ others, (tasks.filterMap f).Perm (others ++ (f t).toList) ∧
      ((tasks.set i t').filterMap f).Perm (others ++ (f t').toList) := by
  induction tasks generalizing i with
  | nil => simp at found
  | cons head tasks ih =>
      have exchange : ∀ (a : γ) (rest : List γ),
          ((a :: rest).filterMap f).Perm (rest.filterMap f ++ (f a).toList) := by
        intro a rest
        rw [List.filterMap_cons]
        cases f a with
        | none => simp
        | some value => exact (List.perm_append_singleton value _).symm
      cases i with
      | zero =>
          cases found
          exact ⟨tasks.filterMap f, exchange _ _, exchange _ _⟩
      | succ i =>
          obtain ⟨others, before, now⟩ := ih (by simpa using found)
          refine ⟨others ++ (f head).toList, ?_, ?_⟩
          · refine ((exchange head tasks).trans (before.append_right _)).trans ?_
            simp only [List.append_assoc]
            exact (List.perm_append_comm).append_left _
          · refine ((exchange head _).trans (now.append_right _)).trans ?_
            simp only [List.append_assoc]
            exact (List.perm_append_comm).append_left _

/-- One task's contribution to a list over all tasks is exchanged. -/
theorem flatMap_set_perm {γ δ : Type} {tasks : List γ} {i : ℕ} {t : γ} (found : tasks[i]? = some t)
    (t' : γ) {f : γ → List δ} {added : List δ} (grown : f t' = f t ++ added) :
    ((tasks.set i t').flatMap f).Perm (tasks.flatMap f ++ added) := by
  induction tasks generalizing i with
  | nil => simp at found
  | cons head tasks ih =>
      cases i with
      | zero =>
          simp only [List.getElem?_cons_zero, Option.some.injEq] at found
          subst found
          simp only [List.set_cons_zero, List.flatMap_cons, grown, List.append_assoc]
          exact (List.perm_append_comm).append_left _
      | succ i =>
          simp only [List.set_cons_succ, List.flatMap_cons, List.append_assoc]
          exact (ih (by simpa using found)).append_left _

/-- An element that contributes the same can be exchanged. -/
theorem flatMap_set_of_eq {γ δ : Type} {tasks : List γ} {i : ℕ} {t t' : γ} {f : γ → List δ}
    (found : tasks[i]? = some t) (same : f t' = f t) : (tasks.set i t').flatMap f = tasks.flatMap f := by
  induction tasks generalizing i with
  | nil => rfl
  | cons head tasks ih =>
      cases i with
      | zero =>
          cases found
          rw [List.set_cons_zero, List.flatMap_cons, List.flatMap_cons, same]
      | succ i =>
          rw [List.set_cons_succ, List.flatMap_cons, List.flatMap_cons, ih found]

/-- Only one element contributes. -/
theorem flatMap_of_alone {γ δ : Type} {tasks : List γ} {i : ℕ} {t : γ} {f : γ → List δ}
    (found : tasks[i]? = some t)
    (alone : ∀ (j : ℕ) u, tasks[j]? = some u → j ≠ i → f u = []) : tasks.flatMap f = f t := by
  induction tasks generalizing i with
  | nil => cases found
  | cons head tasks ih =>
      rw [List.flatMap_cons]
      cases i with
      | zero =>
          cases found
          have rest : tasks.flatMap f = [] := by
            refine List.flatMap_eq_nil_iff.mpr fun u member => ?_
            obtain ⟨j, at_j⟩ := List.mem_iff_getElem?.mp member
            exact alone (j + 1) u at_j (Nat.succ_ne_zero j)
          rw [rest, List.append_nil]
      | succ i =>
          rw [alone 0 head rfl (Nat.succ_ne_zero i).symm, List.nil_append]
          exact ih found fun j u at_j distinct => alone (j + 1) u at_j fun same =>
            distinct (Nat.succ.inj same)

/-- One task's part in a count over all tasks is exchanged. -/
theorem countP_set_add {γ : Type} {tasks : List γ} {i : ℕ} {t : γ} (found : tasks[i]? = some t)
    (t' : γ) (f : γ → Bool) :
    (tasks.set i t').countP f + (if f t then 1 else 0) =
      tasks.countP f + if f t' then 1 else 0 := by
  induction tasks generalizing i with
  | nil => simp at found
  | cons head tasks ih =>
      cases i with
      | zero =>
          simp only [List.getElem?_cons_zero, Option.some.injEq] at found
          subst found
          simp only [List.set_cons_zero, List.countP_cons]
          omega
      | succ i =>
          have rest := ih (by simpa using found)
          simp only [List.set_cons_succ, List.countP_cons]
          omega

/-- Two tasks with a property count twice. -/
theorem two_le_countP {γ : Type} {tasks : List γ} {i j : ℕ} {t u : γ} {f : γ → Bool}
    (at_i : tasks[i]? = some t) (at_j : tasks[j]? = some u) (distinct : i ≠ j) (first : f t = true)
    (second : f u = true) : 2 ≤ tasks.countP f := by
  induction tasks generalizing i j with
  | nil => simp at at_i
  | cons head tasks ih =>
      rw [List.countP_cons]
      cases i with
      | zero =>
          cases j with
          | zero => exact (distinct rfl).elim
          | succ j =>
              cases at_i
              have rest : 0 < tasks.countP f :=
                List.countP_pos_iff.mpr ⟨u, List.mem_of_getElem? at_j, second⟩
              rw [if_pos first]
              omega
      | succ i =>
          cases j with
          | zero =>
              cases at_j
              have rest : 0 < tasks.countP f :=
                List.countP_pos_iff.mpr ⟨t, List.mem_of_getElem? at_i, first⟩
              rw [if_pos second]
              omega
          | succ j =>
              have rest := ih at_i at_j fun same => distinct (congrArg _ same)
              omega

/-! ## Properties of a trace -/

/-- `P earlier entry` holds at every entry of the trace, `earlier` being what precedes it. -/
def Throughout {ε : Type} (P : List ε → ε → Prop) (trace : List ε) : Prop :=
  ∀ earlier entry later, trace = earlier ++ entry :: later → P earlier entry

/-- Some entry of the trace satisfies `P`, and none after it satisfies `Q`. -/
def Since {ε : Type} (P Q : ε → Prop) (trace : List ε) : Prop :=
  ∃ earlier entry later, trace = earlier ++ entry :: later ∧ P entry ∧ ∀ after ∈ later, ¬ Q after

theorem not_since_nil {ε : Type} {P Q : ε → Prop} : ¬ Since P Q [] := by
  rintro ⟨earlier, entry, later, split, -⟩
  simp at split

/-- The last entry satisfies `P`, or an earlier one does and the last one not `Q`. -/
theorem Since.concat {ε : Type} {P Q : ε → Prop} {trace : List ε} {last : ε}
    (since : Since P Q (trace ++ [last])) : P last ∨ (Since P Q trace ∧ ¬ Q last) := by
  obtain ⟨earlier, entry, later, split, holds, quiet⟩ := since
  rcases List.eq_nil_or_concat later with rfl | ⟨later, final, rfl⟩
  · obtain ⟨-, same⟩ := List.append_inj' split rfl
    cases same
    exact .inl holds
  · rw [List.concat_eq_append] at split quiet
    rw [← List.cons_append, ← List.append_assoc] at split
    obtain ⟨same, final⟩ := List.append_inj' split rfl
    cases final
    refine .inr ⟨⟨earlier, entry, later, same, holds, fun between member => ?_⟩, ?_⟩
    · exact quiet between (List.mem_append_left _ member)
    · exact quiet last (List.mem_append_right _ (List.mem_singleton_self last))

theorem throughout_nil {ε : Type} (P : List ε → ε → Prop) : Throughout P [] := by
  intro earlier entry later split
  simp at split

/-- A longer trace adds one obligation. -/
theorem Throughout.concat {ε : Type} {P : List ε → ε → Prop} {trace : List ε} {last : ε}
    (before : Throughout P trace) (now : P trace last) : Throughout P (trace ++ [last]) := by
  intro earlier entry later split
  rcases List.eq_nil_or_concat later with rfl | ⟨later, final, rfl⟩
  · obtain ⟨rfl, same⟩ := List.append_inj' split rfl
    cases same
    exact now
  · rw [List.concat_eq_append, ← List.cons_append, ← List.append_assoc] at split
    obtain ⟨same, -⟩ := List.append_inj' split rfl
    exact before earlier entry later same

/-- What every step adds to the trace satisfies `P`, given what the trace held before. -/
theorem System.Reaches.throughout {sys : System S σ ι κ τ α}
    {C : Pool S σ ι τ α → Action ι κ → Prop} {p q : Pool S σ ι τ α}
    {P : List (Entry S σ ι τ) → Entry S σ ι τ → Prop} (reached : sys.Reaches C p q)
    (fresh : p.trace = [])
    (each : ∀ {q i t op next choice shared reply}, sys.Reaches C p q → q.tasks[i]? = some t →
      t.rest = .await op next → C q (.step i choice) →
      sys.serve q.shared choice op = some (shared, reply) →
      P q.trace ⟨i, t.args, t.past, q.shared, ⟨choice, op, reply⟩⟩) :
    Throughout P q.trace := by
  refine reached.invariant (P := fun q => Throughout P q.trace) ?_ ?_
  · rw [fresh]
    exact throughout_nil P
  · intro q r action before all side stepped
    obtain ⟨arrival, shared, args, rfl, arrived, rfl⟩ |
      ⟨i, choice, t, op, next, shared, reply, rfl, found, awaits, served, rfl⟩ :=
      System.step_cases stepped
    · exact all
    · exact all.concat (each before found awaits side served)

/-- What every step adds to the trace satisfies `P`. -/
theorem System.Reaches.forall_trace {sys : System S σ ι κ τ α}
    {C : Pool S σ ι τ α → Action ι κ → Prop} {p q : Pool S σ ι τ α}
    {P : Entry S σ ι τ → Prop} (reached : sys.Reaches C p q) (fresh : p.trace = [])
    (each : ∀ {q i t op next choice shared reply}, sys.Reaches C p q → q.tasks[i]? = some t →
      t.rest = .await op next → C q (.step i choice) →
      sys.serve q.shared choice op = some (shared, reply) →
      P ⟨i, t.args, t.past, q.shared, ⟨choice, op, reply⟩⟩) :
    ∀ entry ∈ q.trace, P entry := by
  intro entry member
  obtain ⟨earlier, later, split⟩ := List.append_of_mem member
  have all : Throughout (fun _ entry => P entry) q.trace := reached.throughout fresh each
  exact all earlier entry later split

end Async

import Pharos.Async.Pool

/-!
# Proof outlines for concurrent tasks

A rely-guarantee outline annotates the operations of a program instead of its
control points.  `pre a past s op` is what must hold when a task with arguments
`a`, which so far did `past`, performs `op` in the shared state `s`; `rely a s s'`
is what the task may assume when the other tasks move the shared state from `s`
to `s'`.  `Safe` follows a program from operation to operation: at each one the
precondition holds in every state the rely condition allows, and every reply
leads to a safe rest.  `Safe.bind` splits it along the `do` blocks of the program.

`Outline.Holds` lifts this to a pool.  It is kept by every step that does not
disturb the other tasks (`Holds.advance`, `Holds.start`), and it yields the
precondition of the operation that is performed (`Holds.pre`), from which global
properties then follow by induction over the run.
-/

namespace Async

variable {S : Signature} {σ ι κ τ α β : Type}

/-- Annotations of the operations that the tasks of a system perform. -/
structure Outline (S : Signature) (σ ι τ : Type) where
  /-- holds of the shared state at all times -/
  inv : σ → Prop
  /-- what the other tasks may do to the shared state -/
  rely : τ → σ → σ → Prop
  /-- the choices the environment makes -/
  allowed : ι → Prop
  /-- holds when a task performs an operation -/
  pre : τ → List (Event S ι) → σ → S.Op → Prop

/-- `program` keeps to the outline from here on, and its value satisfies `post`. -/
def Safe (serve : σ → ι → (op : S.Op) → Option (σ × S.Reply op)) (O : Outline S σ ι τ) (a : τ)
    (post : List (Event S ι) → σ → α → Prop) :
    Program S α → List (Event S ι) → σ → Prop
  | .ret value, past, s => post past s value
  | .await op next, past, s =>
      ∀ s', O.inv s' → O.rely a s s' →
        O.pre a past s' op ∧
          ∀ choice s'' reply, O.allowed choice → serve s' choice op = some (s'', reply) →
            Safe serve O a post (next reply) (⟨choice, op, reply⟩ :: past) s''

section Safe

variable {serve : σ → ι → (op : S.Op) → Option (σ × S.Reply op)} {O : Outline S σ ι τ} {a : τ}
  {past : List (Event S ι)} {s : σ}

/-- Await one operation, then go on. -/
theorem Safe.call {post : List (Event S ι) → σ → α → Prop} {op : S.Op}
    {next : S.Reply op → Program S α}
    (pre : ∀ s', O.inv s' → O.rely a s s' → O.pre a past s' op)
    (rest : ∀ s' choice s'' reply, O.inv s' → O.rely a s s' → O.allowed choice →
      serve s' choice op = some (s'', reply) →
        Safe serve O a post (next reply) (⟨choice, op, reply⟩ :: past) s'') :
    Safe serve O a post (Program.call op >>= next) past s :=
  fun s' inv moved => ⟨pre s' inv moved, fun choice s'' reply allowed served =>
    rest s' choice s'' reply inv moved allowed served⟩

/-- A safe program followed by a safe continuation. -/
theorem Safe.bind {Q : List (Event S ι) → σ → α → Prop}
    {post : List (Event S ι) → σ → β → Prop} {program : Program S α} {next : α → Program S β}
    (first : Safe serve O a Q program past s)
    (rest : ∀ past s value, Q past s value → Safe serve O a post (next value) past s) :
    Safe serve O a post (program >>= next) past s := by
  induction program generalizing past s with
  | ret value => exact rest past s value first
  | await op tail ih =>
      intro s' inv moved
      obtain ⟨pre, replies⟩ := first s' inv moved
      exact ⟨pre, fun choice s'' reply allowed served =>
        ih reply (replies choice s'' reply allowed served)⟩

/-- A program all of whose operations may be performed at any time. -/
theorem Safe.of_only {P : S.Op → Prop} {post : List (Event S ι) → σ → α → Prop}
    {program : Program S α} (only : program.Only P)
    (free : ∀ past s op, P op → O.pre a past s op) (returns : ∀ past s value, post past s value) :
    Safe serve O a post program past s := by
  induction program generalizing past s with
  | ret value => exact returns past s value
  | await op next ih =>
      intro s' _ _
      exact ⟨free past s' op only.1, fun _ _ reply _ _ => ih reply (only.2 reply)⟩

theorem Safe.mono {post post' : List (Event S ι) → σ → α → Prop} {program : Program S α}
    (safe : Safe serve O a post program past s)
    (weaker : ∀ past s value, post past s value → post' past s value) :
    Safe serve O a post' program past s := by
  induction program generalizing past s with
  | ret value => exact weaker past s value safe
  | await op next ih =>
      intro s' inv moved
      obtain ⟨pre, replies⟩ := safe s' inv moved
      exact ⟨pre, fun choice s'' reply allowed served =>
        ih reply (replies choice s'' reply allowed served)⟩

/-- A program whose own operations meet its rely condition ends in a state that the
condition allows from where it started, whatever the others did in between. -/
theorem Safe.track {post : List (Event S ι) → σ → α → Prop} {program : Program S α} {s₀ : σ}
    (trans : ∀ {s s' s''}, O.rely a s s' → O.rely a s' s'' → O.rely a s s'')
    (own : ∀ {past s choice op s' reply}, O.inv s → O.pre a past s op → O.allowed choice →
      serve s choice op = some (s', reply) → O.rely a s s')
    (safe : Safe serve O a post program past s) (moved : O.rely a s₀ s) :
    Safe serve O a (fun past' s' value => post past' s' value ∧ O.rely a s₀ s') program past s := by
  induction program generalizing past s with
  | ret value => exact ⟨safe, moved⟩
  | await op next ih =>
      intro s' inv others
      obtain ⟨pre, replies⟩ := safe s' inv others
      refine ⟨pre, fun choice s'' reply allowed served => ?_⟩
      exact ih reply (replies choice s'' reply allowed served)
        (trans (trans moved others) (own inv pre allowed served))

/-- A program only adds to what its task did. -/
theorem Safe.grows {post : List (Event S ι) → σ → α → Prop} {program : Program S α}
    {earlier : List (Event S ι)} (safe : Safe serve O a post program past s)
    (known : earlier <:+ past) :
    Safe serve O a (fun past' s' value => post past' s' value ∧ earlier <:+ past') program past s := by
  induction program generalizing past s with
  | ret value => exact ⟨safe, known⟩
  | await op next ih =>
      intro s' inv moved
      obtain ⟨pre, replies⟩ := safe s' inv moved
      refine ⟨pre, fun choice s'' reply allowed served => ?_⟩
      exact ih reply (replies choice s'' reply allowed served)
        (known.trans (List.suffix_cons _ past))

end Safe

/-- The pool keeps to the outline: every task is safe from some earlier shared state,
and what happened since is covered by its rely condition. -/
structure Outline.Holds (O : Outline S σ ι τ) (sys : System S σ ι κ τ α)
    (post : τ → List (Event S ι) → σ → α → Prop) (p : Pool S σ ι τ α) : Prop where
  inv : O.inv p.shared
  safe : ∀ (i : ℕ) (t : Task S ι τ α), p.tasks[i]? = some t →
    ∃ s, O.rely t.args s p.shared ∧ Safe sys.serve O t.args (post t.args) t.rest t.past s

namespace Outline.Holds

variable {O : Outline S σ ι τ} {sys : System S σ ι κ τ α}
  {post : τ → List (Event S ι) → σ → α → Prop} {p : Pool S σ ι τ α}
  {i : ℕ} {t : Task S ι τ α} {op : S.Op} {next : S.Reply op → Program S α}

/-- The operation a task awaits may be performed now. -/
theorem pre (holds : O.Holds sys post p) (found : p.tasks[i]? = some t)
    (awaits : t.rest = .await op next) : O.pre t.args t.past p.shared op := by
  obtain ⟨s, moved, safe⟩ := holds.safe i t found
  rw [awaits] at safe
  exact (safe p.shared holds.inv moved).1

/-- A returned task satisfies its postcondition in the state it returned in. -/
theorem post_of_ret (holds : O.Holds sys post p) (found : p.tasks[i]? = some t) {value : α}
    (returned : t.rest = .ret value) :
    ∃ s, O.rely t.args s p.shared ∧ post t.args t.past s value := by
  obtain ⟨s, moved, safe⟩ := holds.safe i t found
  rw [returned] at safe
  exact ⟨s, moved, safe⟩

/-- One task performs its next operation, and no other task is disturbed. -/
theorem advance (holds : O.Holds sys post p) (found : p.tasks[i]? = some t)
    (awaits : t.rest = .await op next) {choice : ι} (allowed : O.allowed choice)
    {shared : σ} {reply : S.Reply op}
    (served : sys.serve p.shared choice op = some (shared, reply))
    (inv : O.inv shared) (refl : ∀ a s, O.rely a s s)
    (trans : ∀ {a s s' s''}, O.rely a s s' → O.rely a s' s'' → O.rely a s s'')
    (frame : ∀ (j : ℕ) (u : Task S ι τ α), j ≠ i → p.tasks[j]? = some u →
      O.rely u.args p.shared shared) :
    O.Holds sys post (p.advance i t ⟨choice, op, reply⟩ shared (next reply)) := by
  refine ⟨inv, fun j u at_j => ?_⟩
  rcases Pool.getElem?_advance found at_j with ⟨-, rfl⟩ | ⟨distinct, old⟩
  · -- the acting task continues with the rest its outline promises
    obtain ⟨s, moved, safe⟩ := holds.safe i t found
    rw [awaits] at safe
    exact ⟨shared, refl _ _,
      (safe p.shared holds.inv moved).2 choice shared reply allowed served⟩
  · obtain ⟨s, moved, safe⟩ := holds.safe j u old
    exact ⟨s, trans moved (frame j u distinct old), safe⟩

/-- Tasks start, and no running task is disturbed. -/
theorem start (holds : O.Holds sys post p) {shared : σ} {args : List τ}
    (inv : O.inv shared) (refl : ∀ a s, O.rely a s s)
    (trans : ∀ {a s s' s''}, O.rely a s s' → O.rely a s' s'' → O.rely a s s'')
    (frame : ∀ (j : ℕ) (u : Task S ι τ α), p.tasks[j]? = some u → O.rely u.args p.shared shared)
    (body : ∀ a ∈ args, Safe sys.serve O a (post a) (sys.body a) [] shared) :
    O.Holds sys post (p.start sys.body shared args) := by
  refine ⟨inv, fun j u at_j => ?_⟩
  rcases Pool.getElem?_start at_j with old | ⟨-, a, started, rfl⟩
  · obtain ⟨s, moved, safe⟩ := holds.safe j u old
    exact ⟨s, trans moved (frame j u old), safe⟩
  · exact ⟨shared, refl _ _, body a started⟩

end Outline.Holds

/-- An outline holds on every run whose steps keep the invariant and meet the rely condition of
every task but the acting one. -/
theorem Outline.holds_of_reaches {O : Outline S σ ι τ} {sys : System S σ ι κ τ α}
    {post : τ → List (Event S ι) → σ → α → Prop} {C : Pool S σ ι τ α → Action ι κ → Prop}
    {p q : Pool S σ ι τ α} (refl : ∀ a s, O.rely a s s)
    (trans : ∀ {a s s' s''}, O.rely a s s' → O.rely a s' s'' → O.rely a s s'')
    (initial : O.Holds sys post p)
    (serve : ∀ {q : Pool S σ ι τ α} {i t op next choice s' reply}, sys.Reaches C p q →
      O.Holds sys post q → C q (.step i choice) → q.tasks[i]? = some t → t.rest = .await op next →
      sys.serve q.shared choice op = some (s', reply) → O.allowed choice ∧ O.inv s' ∧
        ∀ (j : ℕ) u, j ≠ i → q.tasks[j]? = some u → O.rely u.args q.shared s')
    (arrive : ∀ {q : Pool S σ ι τ α} {arrival s' args}, sys.Reaches C p q → O.Holds sys post q →
      C q (.arrive arrival) → sys.arrive q.shared arrival = some (s', args) → O.inv s' ∧
        (∀ u ∈ q.tasks, O.rely u.args q.shared s') ∧
        ∀ a ∈ args, Safe sys.serve O a (post a) (sys.body a) [] s')
    (reached : sys.Reaches C p q) : O.Holds sys post q := by
  refine reached.invariant initial fun {q r action} before holds side stepped => ?_
  obtain ⟨arrival, shared, args, rfl, arrived, rfl⟩ |
    ⟨i, choice, t, op, next, shared, reply, rfl, found, awaits, served, rfl⟩ :=
    System.step_cases stepped
  · obtain ⟨inv, moved, body⟩ := arrive before holds side arrived
    exact holds.start inv refl trans (fun _ u at_j => moved u (List.mem_of_getElem? at_j)) body
  · obtain ⟨allowed, inv, moved⟩ := serve before holds side found awaits served
    exact holds.advance found awaits allowed served inv refl trans moved

/-! ## Outlines whose tasks never disturb each other -/

/-- One rely condition for all tasks, met by every operation and every arrival. -/
structure Outline.Uniform (O : Outline S σ ι τ) (sys : System S σ ι κ τ α)
    (post : τ → List (Event S ι) → σ → α → Prop) : Prop where
  refl : ∀ a s, O.rely a s s
  trans : ∀ {a s s' s''}, O.rely a s s' → O.rely a s' s'' → O.rely a s s''
  serve : ∀ {a past s choice op s' reply}, O.inv s → O.pre a past s op → O.allowed choice →
    sys.serve s choice op = some (s', reply) → O.inv s' ∧ ∀ b, O.rely b s s'
  arrive : ∀ {s arrival s' args}, O.inv s → sys.arrive s arrival = some (s', args) →
    O.inv s' ∧ (∀ b, O.rely b s s') ∧
      ∀ a ∈ args, Safe sys.serve O a (post a) (sys.body a) [] s'

/-- The environment's choice in a step is one the outline allows. -/
def Outline.Admits (O : Outline S σ ι τ) : Pool S σ ι τ α → Action ι κ → Prop
  | _, .arrive _ => True
  | _, .step _ choice => O.allowed choice

/-- Every run of admitted choices keeps to a uniform outline. -/
theorem Outline.Uniform.holds {O : Outline S σ ι τ} {sys : System S σ ι κ τ α}
    {post : τ → List (Event S ι) → σ → α → Prop} (uniform : O.Uniform sys post)
    {p q : Pool S σ ι τ α} (initial : O.Holds sys post p) (reached : sys.Reaches O.Admits p q) :
    O.Holds sys post q := by
  refine Outline.holds_of_reaches uniform.refl uniform.trans initial ?_ ?_ reached
  · intro q i t op next choice s' reply _ holds side found awaits served
    obtain ⟨inv, moved⟩ := uniform.serve holds.inv (holds.pre found awaits) side served
    exact ⟨side, inv, fun _ u _ _ => moved u.args⟩
  · intro q arrival s' args _ holds _ arrived
    obtain ⟨inv, moved, body⟩ := uniform.arrive holds.inv arrived
    exact ⟨inv, fun u _ => moved u.args, body⟩

end Async

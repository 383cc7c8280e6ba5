import Pharos.Async.Pool

/-!
# Two systems in a row

In a `Joint` two systems run side by side in any interleaving, and some operations of the left
one arrive in the right one: `hands` says which, and what arrives.  The two happen in one step,
so an operation whose arrival is impossible on the right is itself impossible.

A joint run is a run of each system (`Reaches.left`, `Reaches.right`), so what was proved of
either one alone holds of its half.  What ties the halves together is an invariant of the pair,
and `step_cases` says what one step can do to it.
-/

namespace Async

variable {S S' : Signature} {σ ι κ τ α σ' ι' κ' τ' α' : Type}

/-- The operation task `i` awaits. -/
def Pool.awaits (p : Pool S σ ι τ α) (i : ℕ) : Option S.Op :=
  p.tasks[i]?.bind fun t => t.rest.awaited

theorem Pool.awaits_eq {p : Pool S σ ι τ α} {i : ℕ} {t : Task S ι τ α} {op : S.Op}
    {next : S.Reply op → Program S α} (found : p.tasks[i]? = some t)
    (awaits : t.rest = .await op next) : p.awaits i = some op := by
  simp only [Pool.awaits, found, Option.bind_some, awaits, Program.awaited]

/-- A system that feeds another one. -/
structure Joint (S : Signature) (σ ι κ τ α : Type) (S' : Signature) (σ' ι' κ' τ' α' : Type) where
  left : System S σ ι κ τ α
  right : System S' σ' ι' κ' τ' α'
  hands : Event S ι → Option κ'

namespace Joint

/-- One configuration of each system. -/
abbrev Pools (S : Signature) (σ ι τ α : Type) (S' : Signature) (σ' ι' τ' α' : Type) :=
  Pool S σ ι τ α × Pool S' σ' ι' τ' α'

variable (joint : Joint S σ ι κ τ α S' σ' ι' κ' τ' α')

/-- What the step from `before` to `after` hands over. -/
def handed (before after : Pool S σ ι τ α) : Option κ' :=
  (after.trace[before.trace.length]?).bind fun entry => joint.hands entry.event

/-- One step of either system. -/
def step (c : Pools S σ ι τ α S' σ' ι' τ' α') :
    Action ι κ ⊕ Action ι' κ' → Option (Pools S σ ι τ α S' σ' ι' τ' α')
  | .inl action =>
      (joint.left.step c.1 action).bind fun p =>
        match joint.handed c.1 p with
        | none => some (p, c.2)
        | some arrival => (joint.right.step c.2 (.arrive arrival)).map fun q => (p, q)
  | .inr action => (joint.right.step c.2 action).map fun q => (c.1, q)

/-- A whole run. -/
def exec (c : Pools S σ ι τ α S' σ' ι' τ' α') (actions : List (Action ι κ ⊕ Action ι' κ')) :
    Option (Pools S σ ι τ α S' σ' ι' τ' α') :=
  actions.foldlM joint.step c

variable {joint} {c d : Pools S σ ι τ α S' σ' ι' τ' α'}

theorem handed_start (p : Pool S σ ι τ α) (body : τ → Program S α) (shared : σ) (args : List τ) :
    joint.handed p (p.start body shared args) = none := by
  simp [handed]

theorem handed_advance (p : Pool S σ ι τ α) (i : ℕ) (t : Task S ι τ α) (event : Event S ι)
    (shared : σ) (rest : Program S α) :
    joint.handed p (p.advance i t event shared rest) = joint.hands event := by
  simp [handed]

/-- Everything a joint step can do: an arrival on the left, an operation there that hands over
nothing, one that hands something over, or a step on the right. -/
theorem step_cases {action : Action ι κ ⊕ Action ι' κ'} (stepped : joint.step c action = some d) :
    (∃ arrival shared args, action = .inl (.arrive arrival) ∧
      joint.left.arrive c.1.shared arrival = some (shared, args) ∧
      d = (c.1.start joint.left.body shared args, c.2)) ∨
    (∃ i choice t op next shared reply, action = .inl (.step i choice) ∧ c.1.tasks[i]? = some t ∧
      t.rest = .await op next ∧ joint.left.serve c.1.shared choice op = some (shared, reply) ∧
      ((joint.hands ⟨choice, op, reply⟩ = none ∧
          d = (c.1.advance i t ⟨choice, op, reply⟩ shared (next reply), c.2)) ∨
        ∃ arrival q, joint.hands ⟨choice, op, reply⟩ = some arrival ∧
          joint.right.step c.2 (.arrive arrival) = some q ∧
          d = (c.1.advance i t ⟨choice, op, reply⟩ shared (next reply), q))) ∨
    (∃ action' q, action = .inr action' ∧ joint.right.step c.2 action' = some q ∧
      d = (c.1, q)) := by
  cases action with
  | inr action =>
      obtain ⟨q, moved, rfl⟩ := Option.map_eq_some_iff.mp stepped
      exact .inr (.inr ⟨action, q, rfl, moved, rfl⟩)
  | inl action =>
      obtain ⟨p, moved, rest⟩ := Option.bind_eq_some_iff.mp stepped
      obtain ⟨arrival, shared, args, rfl, arrived, rfl⟩ |
        ⟨i, choice, t, op, next, shared, reply, rfl, found, awaits, served, rfl⟩ :=
        System.step_cases moved
      · rw [handed_start] at rest
        cases rest
        exact .inl ⟨arrival, shared, args, rfl, arrived, rfl⟩
      · rw [handed_advance] at rest
        refine .inr (.inl ⟨i, choice, t, op, next, shared, reply, rfl, found, awaits, served, ?_⟩)
        cases hands : joint.hands ⟨choice, op, reply⟩ with
        | none =>
            rw [hands] at rest
            cases rest
            exact .inl ⟨rfl, rfl⟩
        | some arrival =>
            rw [hands] at rest
            obtain ⟨q, moved', rfl⟩ := Option.map_eq_some_iff.mp rest
            exact .inr ⟨arrival, q, rfl, moved', rfl⟩

/-- A step on the left is a step of the left system. -/
theorem left_step {action : Action ι κ} (stepped : joint.step c (.inl action) = some d) :
    joint.left.step c.1 action = some d.1 := by
  obtain ⟨p, moved, rest⟩ := Option.bind_eq_some_iff.mp stepped
  rw [moved]
  split at rest
  · cases rest
    rfl
  · obtain ⟨q, -, rfl⟩ := Option.map_eq_some_iff.mp rest
    rfl

/-! ## Runs -/

/-- `d` lies on some run from `c` all of whose steps meet `C`. -/
abbrev Reaches (joint : Joint S σ ι κ τ α S' σ' ι' κ' τ' α')
    (C : Pools S σ ι τ α S' σ' ι' τ' α' → Action ι κ ⊕ Action ι' κ' → Prop) :
    Pools S σ ι τ α S' σ' ι' τ' α' → Pools S σ ι τ α S' σ' ι' τ' α' → Prop :=
  Relation.ReflTransGen fun c d => ∃ action, C c action ∧ joint.step c action = some d

/-- Every step of the run `actions` from `c` meets `C`. -/
def Along (joint : Joint S σ ι κ τ α S' σ' ι' κ' τ' α')
    (C : Pools S σ ι τ α S' σ' ι' τ' α' → Action ι κ ⊕ Action ι' κ' → Prop) :
    Pools S σ ι τ α S' σ' ι' τ' α' → List (Action ι κ ⊕ Action ι' κ') → Prop
  | _, [] => True
  | c, action :: actions => C c action ∧ ∀ d ∈ joint.step c action, joint.Along C d actions

instance decidableAlong
    (C : Pools S σ ι τ α S' σ' ι' τ' α' → Action ι κ ⊕ Action ι' κ' → Prop)
    [∀ c a, Decidable (C c a)] :
    ∀ (c : Pools S σ ι τ α S' σ' ι' τ' α') (actions : List (Action ι κ ⊕ Action ι' κ')),
      Decidable (joint.Along C c actions)
  | _, [] => .isTrue trivial
  | c, action :: actions =>
      match found : joint.step c action with
      | none => decidable_of_iff (C c action) (by simp [Along, found])
      | some d =>
          have := decidableAlong C d actions
          decidable_of_iff (C c action ∧ joint.Along C d actions) (by simp [Along, found])

section Runs

variable {C : Pools S σ ι τ α S' σ' ι' τ' α' → Action ι κ ⊕ Action ι' κ' → Prop}

/-- What holds initially and is kept by every step that meets `C` holds on every such run. -/
theorem Reaches.invariant {P : Pools S σ ι τ α S' σ' ι' τ' α' → Prop}
    (reached : joint.Reaches C c d) (initial : P c)
    (kept : ∀ {d e action}, joint.Reaches C c d → P d → C d action →
      joint.step d action = some e → P e) : P d := by
  induction reached with
  | refl => exact initial
  | tail before step ih =>
      obtain ⟨action, side, stepped⟩ := step
      exact kept before ih side stepped

/-- A joint run is a run of the left system. -/
theorem Reaches.left {L : Pool S σ ι τ α → Action ι κ → Prop} (reached : joint.Reaches C c d)
    (side : ∀ {e action}, C e (.inl action) → L e.1 action) : joint.left.Reaches L c.1 d.1 := by
  induction reached with
  | refl => exact .refl
  | @tail middle last before step ih =>
      obtain ⟨action, meets, stepped⟩ := step
      cases action with
      | inl action => exact ih.tail ⟨action, side meets, left_step stepped⟩
      | inr action =>
          obtain ⟨q, -, rfl⟩ := Option.map_eq_some_iff.mp stepped
          exact ih

/-- A joint run is a run of the right system, in which what the left one hands over arrives. -/
theorem Reaches.right {R : Pool S' σ' ι' τ' α' → Action ι' κ' → Prop}
    (reached : joint.Reaches C c d)
    (own : ∀ {e action}, joint.Reaches C c e → C e (.inr action) → R e.2 action)
    (fed : ∀ {e i choice t op next shared reply arrival}, joint.Reaches C c e →
      C e (.inl (.step i choice)) → e.1.tasks[i]? = some t → t.rest = .await op next →
      joint.left.serve e.1.shared choice op = some (shared, reply) →
      joint.hands ⟨choice, op, reply⟩ = some arrival → R e.2 (.arrive arrival)) :
    joint.right.Reaches R c.2 d.2 := by
  induction reached with
  | refl => exact .refl
  | @tail middle last before step ih =>
      obtain ⟨action, meets, stepped⟩ := step
      obtain ⟨arrival, shared, args, rfl, -, rfl⟩ |
        ⟨i, choice, t, op, next, shared, reply, rfl, found, awaits, served, ⟨-, rfl⟩ |
          ⟨arrival, q, hands, moved, rfl⟩⟩ | ⟨action, q, rfl, moved, rfl⟩ := step_cases stepped
      · exact ih
      · exact ih
      · exact ih.tail ⟨.arrive arrival, fed before meets found awaits served hands, moved⟩
      · exact ih.tail ⟨action, own before meets, moved⟩

theorem reaches_of_exec {actions : List (Action ι κ ⊕ Action ι' κ')}
    (along : joint.Along C c actions) (run : joint.exec c actions = some d) :
    joint.Reaches C c d := by
  induction actions generalizing c with
  | nil =>
      cases run
      exact .refl
  | cons action actions ih =>
      simp only [exec, List.foldlM_cons, Option.bind_eq_bind, Option.bind_eq_some_iff] at run
      obtain ⟨middle, stepped, rest⟩ := run
      exact .head ⟨action, along.1, stepped⟩ (ih (along.2 middle stepped) rest)

/-- A run that ends in a pair with the property `f` reaches such a pair. -/
theorem exists_reaches_of_exec {f : Pools S σ ι τ α S' σ' ι' τ' α' → Bool}
    {actions : List (Action ι κ ⊕ Action ι' κ')} (along : joint.Along C c actions)
    (run : (joint.exec c actions).any f = true) : ∃ d, joint.Reaches C c d ∧ f d = true := by
  obtain ⟨d, found, property⟩ := (Option.any_eq_true _ _).mp run
  exact ⟨d, reaches_of_exec along found, property⟩

end Runs

end Joint

end Async

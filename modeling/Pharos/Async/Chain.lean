import Pharos.Async.Joint

/-!
# Three systems in a row

In a `Chain` a joint feeds a third system: some operations of its right system arrive there.  So the
system in the middle is the right half of one joint, the `front`, and the left half of another, the
`back`.

A run of the chain is a run of both joints (`Reaches.front`, `Reaches.back`), so what was proved of
either of them holds of the chain, and what ties the two ends together follows from the middle.
-/

namespace Async

variable {S S' S'' : Signature} {σ ι κ τ α σ' ι' κ' τ' α' σ'' ι'' κ'' τ'' α'' : Type}

namespace Joint

variable {joint : Joint S σ ι κ τ α S' σ' ι' κ' τ' α'} {c : Pools S σ ι τ α S' σ' ι' τ' α'}

/-- An arrival on the left hands nothing over. -/
theorem step_arrive {arrival : κ} {p : Pool S σ ι τ α}
    (moved : joint.left.step c.1 (.arrive arrival) = some p) :
    joint.step c (.inl (.arrive arrival)) = some (p, c.2) := by
  have silent : joint.handed c.1 p = none := by
    obtain ⟨_, shared, args, -, -, rfl⟩ | ⟨i, choice, t, op, next, shared, reply, arrives, -⟩ :=
      System.step_cases moved
    · exact handed_start _ _ _ _
    · cases arrives
  simp [step, moved, silent]

/-- A step on the right is a step of the right system. -/
theorem right_step {action : Action ι' κ'} {d : Pools S σ ι τ α S' σ' ι' τ' α'}
    (stepped : joint.step c (.inr action) = some d) :
    joint.right.step c.2 action = some d.2 ∧ d.1 = c.1 := by
  obtain ⟨q, moved, rfl⟩ := Option.map_eq_some_iff.mp stepped
  exact ⟨moved, rfl⟩

end Joint

/-- A joint that feeds a third system. -/
structure Chain (S : Signature) (σ ι κ τ α : Type) (S' : Signature) (σ' ι' κ' τ' α' : Type)
    (S'' : Signature) (σ'' ι'' κ'' τ'' α'' : Type) where
  front : Joint S σ ι κ τ α S' σ' ι' κ' τ' α'
  last : System S'' σ'' ι'' κ'' τ'' α''
  hands : Event S' ι' → Option κ''

namespace Chain

/-- One configuration of each system. -/
abbrev Pools (S : Signature) (σ ι τ α : Type) (S' : Signature) (σ' ι' τ' α' : Type)
    (S'' : Signature) (σ'' ι'' τ'' α'' : Type) :=
  Pool S σ ι τ α × Pool S' σ' ι' τ' α' × Pool S'' σ'' ι'' τ'' α''

variable (chain : Chain S σ ι κ τ α S' σ' ι' κ' τ' α' S'' σ'' ι'' κ'' τ'' α'')

/-- The second system and the third. -/
def back : Joint S' σ' ι' κ' τ' α' S'' σ'' ι'' κ'' τ'' α'' where
  left := chain.front.right
  right := chain.last
  hands := chain.hands

/-- One step of any of the three. -/
def step (c : Pools S σ ι τ α S' σ' ι' τ' α' S'' σ'' ι'' τ'' α'') :
    Action ι κ ⊕ Action ι' κ' ⊕ Action ι'' κ'' →
      Option (Pools S σ ι τ α S' σ' ι' τ' α' S'' σ'' ι'' τ'' α'')
  | .inl action =>
      (chain.front.step (c.1, c.2.1) (.inl action)).map fun d => (d.1, d.2, c.2.2)
  | .inr action => (chain.back.step c.2 action).map fun d => (c.1, d)

variable {chain} {c d : Pools S σ ι τ α S' σ' ι' τ' α' S'' σ'' ι'' τ'' α''}

/-- The systems move as their joints do: a step of the first may be an arrival in the second, a step
of the second may be one in the third. -/
theorem step_cases {action : Action ι κ ⊕ Action ι' κ' ⊕ Action ι'' κ''}
    (stepped : chain.step c action = some d) :
    (∃ first, action = .inl first ∧
      chain.front.step (c.1, c.2.1) (.inl first) = some (d.1, d.2.1) ∧ d.2.2 = c.2.2) ∨
    ∃ later, action = .inr later ∧ chain.back.step c.2 later = some d.2 ∧ d.1 = c.1 := by
  cases action with
  | inl first =>
      obtain ⟨e, moved, rfl⟩ := Option.map_eq_some_iff.mp stepped
      exact .inl ⟨first, rfl, moved, rfl⟩
  | inr later =>
      obtain ⟨e, moved, rfl⟩ := Option.map_eq_some_iff.mp stepped
      exact .inr ⟨later, rfl, moved, rfl⟩

/-- A step of the second system or of the third leaves the front as it is or moves its right
half. -/
theorem front_of_back {action : Action ι' κ' ⊕ Action ι'' κ''}
    (stepped : chain.back.step c.2 action = some d.2) (same : d.1 = c.1) :
    (d.1, d.2.1) = (c.1, c.2.1) ∨ ∃ middle, action = .inl middle ∧
      chain.front.step (c.1, c.2.1) (.inr middle) = some (d.1, d.2.1) := by
  cases action with
  | inl middle =>
      have moved : chain.front.right.step c.2.1 middle = some d.2.1 := Joint.left_step stepped
      apply Or.inr
      refine ⟨middle, rfl, ?_⟩
      simp [Joint.step, moved, same]
  | inr later => exact .inl (Prod.ext same (Joint.right_step stepped).2)

/-! ## Runs -/

/-- `d` lies on some run from `c` all of whose steps meet `C`. -/
abbrev Reaches (chain : Chain S σ ι κ τ α S' σ' ι' κ' τ' α' S'' σ'' ι'' κ'' τ'' α'')
    (C : Pools S σ ι τ α S' σ' ι' τ' α' S'' σ'' ι'' τ'' α'' →
      Action ι κ ⊕ Action ι' κ' ⊕ Action ι'' κ'' → Prop) :
    Pools S σ ι τ α S' σ' ι' τ' α' S'' σ'' ι'' τ'' α'' →
      Pools S σ ι τ α S' σ' ι' τ' α' S'' σ'' ι'' τ'' α'' → Prop :=
  Relation.ReflTransGen fun c d => ∃ action, C c action ∧ chain.step c action = some d

section Runs

variable {C C' : Pools S σ ι τ α S' σ' ι' τ' α' S'' σ'' ι'' τ'' α'' →
  Action ι κ ⊕ Action ι' κ' ⊕ Action ι'' κ'' → Prop}

/-- A run under a condition is one under any weaker condition. -/
theorem Reaches.mono (reached : chain.Reaches C c d)
    (weaker : ∀ {e action}, C e action → C' e action) : chain.Reaches C' c d := by
  induction reached with
  | refl => exact .refl
  | tail _ step ih =>
      obtain ⟨action, meets, stepped⟩ := step
      exact ih.tail ⟨action, weaker meets, stepped⟩

/-- A run of the chain is a run of the front. -/
theorem Reaches.front {F : Joint.Pools S σ ι τ α S' σ' ι' τ' α' → Action ι κ ⊕ Action ι' κ' → Prop}
    (reached : chain.Reaches C c d)
    (first : ∀ {e action}, C e (.inl action) → F (e.1, e.2.1) (.inl action))
    (middle : ∀ {e action}, C e (.inr (.inl action)) → F (e.1, e.2.1) (.inr action)) :
    chain.front.Reaches F (c.1, c.2.1) (d.1, d.2.1) := by
  induction reached with
  | refl => exact .refl
  | tail before step ih =>
      obtain ⟨action, meets, stepped⟩ := step
      obtain ⟨action, rfl, moved, -⟩ | ⟨action, rfl, moved, same⟩ := step_cases stepped
      · exact ih.tail ⟨.inl action, first meets, moved⟩
      · rcases front_of_back moved same with still | ⟨action, rfl, shifted⟩
        · rw [still]
          exact ih
        · exact ih.tail ⟨.inr action, middle meets, shifted⟩

/-- A run of the chain is a run of the back, in which what the first system hands over arrives. -/
theorem Reaches.back
    {B : Joint.Pools S' σ' ι' τ' α' S'' σ'' ι'' τ'' α'' → Action ι' κ' ⊕ Action ι'' κ'' → Prop}
    (reached : chain.Reaches C c d)
    (own : ∀ {e action}, chain.Reaches C c e → C e (.inr action) → B e.2 action)
    (fed : ∀ {e i choice t op next shared reply arrival}, chain.Reaches C c e →
      C e (.inl (.step i choice)) → e.1.tasks[i]? = some t → t.rest = .await op next →
      chain.front.left.serve e.1.shared choice op = some (shared, reply) →
      chain.front.hands ⟨choice, op, reply⟩ = some arrival → B e.2 (.inl (.arrive arrival))) :
    chain.back.Reaches B c.2 d.2 := by
  induction reached with
  | refl => exact .refl
  | @tail middle last before step ih =>
      obtain ⟨action, meets, stepped⟩ := step
      obtain ⟨action, rfl, moved, still⟩ | ⟨action, rfl, moved, -⟩ := step_cases stepped
      · obtain ⟨arrival, shared, args, -, -, same⟩ |
          ⟨i, choice, t, op, next, shared, reply, same, found, awaits, served, ⟨-, quiet⟩ |
            ⟨arrival, q, hands, arrived, both⟩⟩ | ⟨action', q, other, -⟩ := Joint.step_cases moved
        · rw [show last.2 = middle.2 from Prod.ext (congrArg Prod.snd same) still]
          exact ih
        · rw [show last.2 = middle.2 from Prod.ext (congrArg Prod.snd quiet) still]
          exact ih
        · cases same
          refine ih.tail ⟨.inl (.arrive arrival), fed before meets found awaits served hands, ?_⟩
          rw [show last.2 = (q, middle.2.2) from Prod.ext (congrArg Prod.snd both) still]
          exact Joint.step_arrive arrived
        · cases other
      · exact ih.tail ⟨action, own before meets, moved⟩

/-- Perform `actions` as long as they meet `C`. -/
def exec (chain : Chain S σ ι κ τ α S' σ' ι' κ' τ' α' S'' σ'' ι'' κ'' τ'' α'')
    (C : Pools S σ ι τ α S' σ' ι' τ' α' S'' σ'' ι'' τ'' α'' →
      Action ι κ ⊕ Action ι' κ' ⊕ Action ι'' κ'' → Prop) [∀ c a, Decidable (C c a)]
    (c : Pools S σ ι τ α S' σ' ι' τ' α' S'' σ'' ι'' τ'' α'')
    (actions : List (Action ι κ ⊕ Action ι' κ' ⊕ Action ι'' κ'')) :
    Option (Pools S σ ι τ α S' σ' ι' τ' α' S'' σ'' ι'' τ'' α'') :=
  actions.foldlM (fun c action => if C c action then chain.step c action else none) c

/-- A run that ends in a configuration with the property `f` reaches such a configuration. -/
theorem exists_reaches_of_exec [∀ c a, Decidable (C c a)]
    {f : Pools S σ ι τ α S' σ' ι' τ' α' S'' σ'' ι'' τ'' α'' → Bool}
    {actions : List (Action ι κ ⊕ Action ι' κ' ⊕ Action ι'' κ'')}
    (run : (chain.exec C c actions).any f = true) : ∃ d, chain.Reaches C c d ∧ f d = true := by
  induction actions generalizing c with
  | nil => exact ⟨c, .refl, run⟩
  | cons action actions ih =>
      rw [exec, List.foldlM_cons] at run
      split at run
      · next meets =>
        cases stepped : chain.step c action with
        | none =>
            rw [stepped] at run
            cases run
        | some e =>
            rw [stepped] at run
            obtain ⟨d, reached, property⟩ := ih run
            exact ⟨d, .head ⟨action, meets, stepped⟩ reached, property⟩
      · cases run

end Runs

end Chain

end Async

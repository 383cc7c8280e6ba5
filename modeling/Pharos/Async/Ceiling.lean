import Mathlib.Data.Finset.Card
import Mathlib.Logic.Relation

/-!
# A ceiling that is checked before the insertion

Keys are inserted into a set that has a ceiling, and whoever inserts one has checked the ceiling in
an earlier step.  Between the two the others insert and remove keys, this one too.  The potential
of a state is the number of distinct keys that are tracked or about to be: only a check that met
the set below its ceiling adds to it, and then those about to insert are all that comes on top.
-/

namespace Async

/-- The tracked keys, and the keys of those who passed the check and have not inserted yet. -/
structure Ceiling (K : Type) where
  tracked : Finset K
  pending : Multiset K

namespace Ceiling

variable {K : Type} [DecidableEq K] {ceiling limit : ℕ} {s s' : Ceiling K}

/-- Pass the check because there is room, pass it because the key is there already, insert, or
remove. -/
inductive Step (ceiling : ℕ) (s : Ceiling K) : Ceiling K → Prop
  | grant (key : K) (room : s.tracked.card < ceiling) :
      Step ceiling s { s with pending := key ::ₘ s.pending }
  | rejoin (key : K) (there : key ∈ s.tracked) :
      Step ceiling s { s with pending := key ::ₘ s.pending }
  | insert (key : K) (passed : key ∈ s.pending) :
      Step ceiling s ⟨insert key s.tracked, s.pending.erase key⟩
  | remove (key : K) : Step ceiling s { s with tracked := s.tracked.erase key }

/-- A run from the empty set with at most `limit` between their check and their insertion. -/
def Run (ceiling limit : ℕ) : Ceiling K → Prop :=
  Relation.ReflTransGen (fun s s' => s.pending.card ≤ limit ∧ Step ceiling s s') ⟨∅, 0⟩

/-- The keys that are tracked or about to be. -/
def footprint (s : Ceiling K) : Finset K := s.tracked ∪ s.pending.toFinset

theorem tracked_subset_footprint (s : Ceiling K) : s.tracked ⊆ s.footprint :=
  Finset.subset_union_left

theorem card_footprint_le (s : Ceiling K) :
    s.footprint.card ≤ s.tracked.card + s.pending.card :=
  (Finset.card_union_le _ _).trans (Nat.add_le_add_left (Multiset.toFinset_card_le _) _)

/-- A step that is not an admission adds nothing to the footprint. -/
theorem Step.footprint_subset (step : Step ceiling s s') :
    s'.footprint ⊆ s.footprint ∨ s'.tracked = s.tracked ∧ s.tracked.card < ceiling := by
  cases step with
  | grant key room => exact .inr ⟨rfl, room⟩
  | rejoin key there =>
      left
      unfold footprint
      rw [Multiset.toFinset_cons, Finset.union_insert, Finset.insert_eq_self.mpr]
      exact Finset.mem_union_left _ there
  | insert key passed =>
      left
      unfold footprint
      rw [Finset.insert_union]
      refine Finset.insert_subset (Finset.mem_union_right _ (Multiset.mem_toFinset.mpr passed)) ?_
      exact Finset.union_subset_union_right
        (Multiset.toFinset_subset.mpr (Multiset.erase_subset key _))
  | remove key =>
      left
      exact Finset.union_subset_union_left (Finset.erase_subset key _)

/-- The tracked keys exceed the ceiling by less than `limit`, and so does the footprint unless more
than `limit` are about to insert. -/
structure Within (ceiling limit : ℕ) (s : Ceiling K) : Prop where
  tracked : s.tracked.card ≤ ceiling + limit - 1
  footprint : s.pending.card ≤ limit → s.footprint.card ≤ ceiling + limit - 1

theorem Within.step (within : Within ceiling limit s) (few : s.pending.card ≤ limit)
    (step : Step ceiling s s') : Within ceiling limit s' := by
  rcases step.footprint_subset with shrinks | ⟨same, room⟩
  · have bound := (Finset.card_le_card shrinks).trans (within.footprint few)
    exact ⟨(Finset.card_le_card (tracked_subset_footprint s')).trans bound, fun _ => bound⟩
  · refine ⟨same ▸ within.tracked, fun few' => ?_⟩
    have bound := card_footprint_le s'
    rw [same] at bound
    omega

/-- On every run the set exceeds the ceiling by less than `limit`. -/
theorem Run.within (run : Run ceiling limit s) : Within ceiling limit s := by
  induction run with
  | refl => exact ⟨Nat.zero_le _, fun _ => Nat.zero_le _⟩
  | tail _ step ih => exact ih.step step.1 step.2

end Ceiling

end Async

import Mathlib.Algebra.Order.BigOperators.Group.List
import Pharos.Numeric.Signed

/-!
# Splitting an integer evenly

`shares total parts` splits an integer into `parts` integers with that sum which differ by at most
one, the larger ones first.  They are the Euclidean quotient, and one more for as many of the first
ones as the remainder says; with the remainder never negative this is right on both sides of zero.
-/

namespace Numeric

/-- The share at `index` of `total` split into `parts`. -/
def share (total : Int) (parts index : Nat) : Int :=
  total / parts + if (index : Int) < total % parts then 1 else 0

/-- `total` split into `parts`. -/
def shares (total : Int) (parts : Nat) : List Int :=
  (List.range parts).map (share total parts)

variable {total : Int} {parts : Nat}

@[simp] theorem length_shares : (shares total parts).length = parts := by
  simp [shares]

theorem getElem_shares {index : Nat} (inside : index < (shares total parts).length) :
    (shares total parts)[index] = share total parts index := by
  simp [shares]

/-- The first `n` of the numbers `base + 1`, as long as the index is below `extra`, else `base`. -/
theorem sum_range_base_extra (base extra : Int) (nonneg : 0 ≤ extra) (n : Nat) :
    ((List.range n).map fun index : Nat => base + if (index : Int) < extra then 1 else 0).sum =
      n * base + min (n : Int) extra := by
  induction n with
  | zero => simp [min_eq_left nonneg]
  | succ n ih =>
    rw [List.range_succ, List.map_append, List.sum_append, ih]
    have product : ((n + 1 : Nat) : Int) * base = n * base + base := by
      rw [Nat.cast_succ, add_mul, one_mul]
    simp only [List.map_cons, List.map_nil, List.sum_cons, List.sum_nil]
    rw [product]
    split <;> omega

/-- Nothing is created or lost. -/
theorem sum_shares (positive : 0 < parts) : (shares total parts).sum = total := by
  have parts_pos : (0 : Int) < parts := Int.natCast_pos.2 positive
  have nonneg : 0 ≤ total % parts := Int.emod_nonneg _ (ne_of_gt parts_pos)
  have small : total % parts < parts := Int.emod_lt_of_pos _ parts_pos
  calc (shares total parts).sum
      = parts * (total / parts) + min (parts : Int) (total % parts) :=
        sum_range_base_extra _ _ nonneg parts
    _ = parts * (total / parts) + total % parts := by rw [min_eq_right (le_of_lt small)]
    _ = total := Int.mul_ediv_add_emod total parts

/-- Shares never grow along the list. -/
theorem share_antitone {i j : Nat} (le : i ≤ j) : share total parts j ≤ share total parts i := by
  unfold share
  split <;> split <;> omega

theorem shares_pairwise : (shares total parts).Pairwise (· ≥ ·) := by
  refine List.pairwise_map.2 (List.pairwise_lt_range.imp ?_)
  exact fun less => share_antitone (Nat.le_of_lt less)

theorem share_bounds (total : Int) (parts index : Nat) :
    total / parts ≤ share total parts index ∧ share total parts index ≤ total / parts + 1 := by
  unfold share
  constructor <;> split <;> omega

/-- Shares differ by at most one. -/
theorem share_sub_le_one (i j : Nat) : share total parts i - share total parts j ≤ 1 := by
  have first := (share_bounds total parts i).2
  have second := (share_bounds total parts j).1
  omega

/-! ## Signs -/

theorem share_nonneg (nonneg : 0 ≤ total) (index : Nat) : 0 ≤ share total parts index :=
  le_trans (Int.ediv_nonneg nonneg (Int.natCast_nonneg parts)) (share_bounds total parts index).1

/-- A share of a total that is not positive is not positive: the quotient is negative, or the total
is zero and nothing is left over. -/
theorem share_nonpos (positive : 0 < parts) (nonpos : total ≤ 0) (index : Nat) :
    share total parts index ≤ 0 := by
  have parts_pos : (0 : Int) < parts := Int.natCast_pos.2 positive
  rcases lt_or_ge (total / parts) 0 with negative | nonneg
  · have bound := (share_bounds total parts index).2
    omega
  · have zero : total = 0 :=
      le_antisymm nonpos ((Int.ediv_nonneg_iff_of_pos parts_pos).1 nonneg)
    simp [share, zero, Int.not_lt.2 (Int.natCast_nonneg index)]

/-- Some numbers of a list without negative ones come to at most the sum of all. -/
theorem within_of_nonneg {l part : List Int} (nonneg : ∀ x ∈ l, 0 ≤ x) (sub : part.Sublist l) :
    Within l.sum part.sum := by
  have low : 0 ≤ part.sum := List.sum_nonneg fun x member => nonneg x (sub.subset member)
  have high : part.sum ≤ l.sum := sub.sum_le_sum nonneg
  constructor <;> omega

theorem within_of_nonpos {l part : List Int} (nonpos : ∀ x ∈ l, x ≤ 0) (sub : part.Sublist l) :
    Within l.sum part.sum := by
  have nonneg : ∀ x ∈ l.map (-·), 0 ≤ x := by
    intro x member
    obtain ⟨y, listed, rfl⟩ := List.mem_map.1 member
    exact neg_nonneg.2 (nonpos y listed)
  have negated := within_of_nonneg nonneg (sub.map (-·))
  rw [← List.sum_neg, ← List.sum_neg] at negated
  obtain ⟨low, high⟩ := negated
  constructor <;> omega

/-- What some of the shares come to lies between zero and the total. -/
theorem within_shares (positive : 0 < parts) {part : List Int}
    (sub : part.Sublist (shares total parts)) : Within total part.sum := by
  have sum : (shares total parts).sum = total := sum_shares positive
  rw [← sum]
  rcases le_total 0 total with nonneg | nonpos
  · refine within_of_nonneg (fun x member => ?_) sub
    obtain ⟨index, -, rfl⟩ := List.mem_map.1 member
    exact share_nonneg nonneg index
  · refine within_of_nonpos (fun x member => ?_) sub
    obtain ⟨index, -, rfl⟩ := List.mem_map.1 member
    exact share_nonpos positive nonpos index

theorem within_share (positive : 0 < parts) {index : Nat} (less : index < parts) :
    Within total (share total parts index) := by
  have member : share total parts index ∈ shares total parts :=
    List.mem_map.2 ⟨index, List.mem_range.2 less, rfl⟩
  simpa using within_shares positive (List.singleton_sublist.2 member)

/-- The last share is the quotient, which therefore lies between zero and the total. -/
theorem within_quotient (positive : 0 < parts) : Within total (total / parts) := by
  have parts_pos : (0 : Int) < parts := Int.natCast_pos.2 positive
  have small : total % parts < parts := Int.emod_lt_of_pos _ parts_pos
  have last : share total parts (parts - 1) = total / parts := by
    unfold share
    rw [if_neg (by omega), add_zero]
  rw [← last]
  exact within_share positive (Nat.sub_lt positive Nat.one_pos)

end Numeric

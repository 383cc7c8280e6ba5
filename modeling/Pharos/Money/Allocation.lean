import Pharos.Numeric.EvenSplit

/-!
# Allocation of minor units

`allocate_minor_units` splits an `i128` into shares with machine arithmetic.  Its shares are the
even split of the total in exact integers: no addition of it leaves the range of `i128`.
-/

namespace Pharos

open Numeric

/-- `i128`. -/
abbrev I128 := Signed 128

inductive AllocationError
  | invalidAllocation
  | tooManyParts (parts max : USize)
deriving DecidableEq

/-- `parts as i128`. -/
def I128.ofUsize (n : USize) : I128 := Signed.wrap n.toNat

/-- `i128::from` on a truth value. -/
def I128.ofBool (b : Bool) : I128 := Signed.wrap (if b then 1 else 0)

/-- `allocate_minor_units`. -/
def allocateMinorUnits (total : I128) (parts maxParts : USize) :
    Except AllocationError (List I128) :=
  if parts = 0 then .error .invalidAllocation
  else if maxParts < parts then .error (.tooManyParts parts maxParts)
  else
    let partsI128 := I128.ofUsize parts
    let base := total.divEuclid partsI128
    let remainder := total.remEuclid partsI128
    .ok ((List.range partsI128.val.toNat).map fun index : Nat =>
      base + I128.ofBool (decide ((index : Int) < remainder.val)))

/-! ## The arithmetic is exact -/

theorem I128.val_ofUsize (n : USize) : (I128.ofUsize n).val = n.toNat := by
  have small := n.toNat_lt
  refine Signed.val_wrap ⟨?_, ?_⟩ <;> simp only [half] <;> omega

theorem I128.val_ofBool (b : Bool) : (I128.ofBool b).val = if b then 1 else 0 := by
  cases b <;> decide

theorem USize.toNat_pos_of_ne_zero {n : USize} (nonzero : n ≠ 0) : 0 < n.toNat := by
  refine Nat.pos_of_ne_zero fun zero => nonzero ?_
  exact USize.toNat_inj.1 zero

section

variable {total : I128} {parts : USize}

theorem val_base (nonzero : parts ≠ 0) :
    (total.divEuclid (I128.ofUsize parts)).val = total.val / parts.toNat := by
  unfold Signed.divEuclid
  rw [I128.val_ofUsize]
  exact Signed.val_wrap ((within_quotient (USize.toNat_pos_of_ne_zero nonzero)).fits total.fits)

theorem val_remainder (nonzero : parts ≠ 0) :
    (total.remEuclid (I128.ofUsize parts)).val = total.val % parts.toNat := by
  have positive : (0 : Int) < parts.toNat :=
    Int.natCast_pos.2 (USize.toNat_pos_of_ne_zero nonzero)
  have small := parts.toNat_lt
  have nonneg : 0 ≤ total.val % parts.toNat := Int.emod_nonneg _ (ne_of_gt positive)
  have less : total.val % parts.toNat < parts.toNat := Int.emod_lt_of_pos _ positive
  unfold Signed.remEuclid
  rw [I128.val_ofUsize]
  refine Signed.val_wrap ⟨?_, ?_⟩ <;> simp only [half] <;> omega

/-- One share in machine arithmetic: the addition stays in range, since the exact share does. -/
theorem val_base_add (nonzero : parts ≠ 0) {index : Nat} (less : index < parts.toNat) :
    (total.divEuclid (I128.ofUsize parts) + I128.ofBool
      (decide ((index : Int) < (total.remEuclid (I128.ofUsize parts)).val))).val =
        share total.val parts.toNat index := by
  have exact_sum : (total.divEuclid (I128.ofUsize parts)).val + (I128.ofBool
      (decide ((index : Int) < (total.remEuclid (I128.ofUsize parts)).val))).val =
        share total.val parts.toNat index := by
    rw [val_base nonzero, I128.val_ofBool, val_remainder nonzero]
    simp only [decide_eq_true_eq, share]
  have within : Within total.val (share total.val parts.toNat index) :=
    within_share (USize.toNat_pos_of_ne_zero nonzero) less
  rw [Signed.val_add (exact_sum ▸ within.fits total.fits), exact_sum]

/-- The shares are the even split of the total. -/
theorem allocateMinorUnits_eq_ok {maxParts : USize} {allocated : List I128}
    (run : allocateMinorUnits total parts maxParts = .ok allocated) :
    parts ≠ 0 ∧ parts ≤ maxParts ∧
      allocated.map Signed.val = Numeric.shares total.val parts.toNat := by
  unfold allocateMinorUnits at run
  split_ifs at run with zero tooMany
  obtain rfl := Except.ok.inj run
  refine ⟨zero, USize.not_lt.1 tooMany, ?_⟩
  rw [List.map_map, I128.val_ofUsize, Int.toNat_natCast]
  exact List.map_congr_left fun index member => val_base_add zero (List.mem_range.1 member)

theorem allocateMinorUnits_error_iff {maxParts : USize} :
    (∃ error, allocateMinorUnits total parts maxParts = .error error) ↔
      parts = 0 ∨ maxParts < parts := by
  unfold allocateMinorUnits
  split_ifs with zero tooMany
  · exact ⟨fun _ => .inl zero, fun _ => ⟨_, rfl⟩⟩
  · exact ⟨fun _ => .inr tooMany, fun _ => ⟨_, rfl⟩⟩
  · constructor
    · rintro ⟨_, failed⟩
      cases failed
    · rintro (isZero | above)
      · exact absurd isZero zero
      · exact absurd above tooMany

end

end Pharos

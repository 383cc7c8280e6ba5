import Mathlib.Algebra.Order.Ring.Int
import Mathlib.Tactic.Ring

/-!
# Signed machine integers

`Signed w` is the signed integer type of `w` bits: the integers from `-2 ^ (w - 1)` up to but not
including `2 ^ (w - 1)`.  A checked operation computes the exact integer and fails when that is no
such number; a wrapping one reduces it modulo `2 ^ w`.
-/

namespace Numeric

/-- The number of non-negative values of `w` bits, which is the number of negative ones. -/
def half (w : Nat) : Nat := 2 ^ (w - 1)

theorem half_pos (w : Nat) : 0 < half w := Nat.two_pow_pos (w - 1)

/-- An integer that `w` bits can hold. -/
def Fits (w : Nat) (x : Int) : Prop := -(half w : Int) ≤ x ∧ x < half w

instance (w : Nat) (x : Int) : Decidable (Fits w x) :=
  inferInstanceAs (Decidable (_ ∧ _))

/-- A signed integer of `w` bits. -/
structure Signed (w : Nat) where
  val : Int
  fits : Fits w val
deriving DecidableEq, Repr

namespace Signed

variable {w : Nat}

@[ext] theorem ext {a b : Signed w} (same : a.val = b.val) : a = b := by
  cases a
  cases b
  cases same
  rfl

/-- The number, when it fits: what a checked operation returns of the exact result. -/
def ofInt (x : Int) : Option (Signed w) :=
  if fits : Fits w x then some ⟨x, fits⟩ else none

theorem ofInt_eq_some_iff {x : Int} {a : Signed w} : ofInt x = some a ↔ a.val = x := by
  unfold ofInt
  constructor
  · intro checked
    split at checked
    · cases checked
      rfl
    · cases checked
  · rintro rfl
    rw [dif_pos a.fits]

theorem ofInt_eq_none_iff {x : Int} : (ofInt x : Option (Signed w)) = none ↔ ¬ Fits w x := by
  unfold ofInt
  split
  case isTrue fits => exact ⟨nofun, fun outside => absurd fits outside⟩
  case isFalse outside => exact ⟨fun _ => outside, fun _ => rfl⟩

/-- The number modulo `2 ^ w`: what a wrapping operation returns of the exact result. -/
def wrap (x : Int) : Signed w where
  val := x.bmod (2 * half w)
  fits := by
    have positive : 0 < 2 * half w := Nat.mul_pos Nat.two_pos (half_pos w)
    have lower := Int.le_bmod (x := x) positive
    have upper := Int.bmod_lt (x := x) positive
    constructor <;> omega

/-- Nothing is lost of a number that fits. -/
theorem val_wrap {x : Int} (fits : Fits w x) : (wrap x : Signed w).val = x := by
  obtain ⟨lower, upper⟩ := fits
  exact Int.bmod_eq_of_le (by omega) (by omega)

/-! ## Arithmetic -/

instance : Add (Signed w) := ⟨fun a b => wrap (a.val + b.val)⟩

theorem val_add {a b : Signed w} (fits : Fits w (a.val + b.val)) :
    (a + b).val = a.val + b.val :=
  val_wrap fits

/-- Euclidean division by a number other than zero. -/
def divEuclid (a b : Signed w) : Signed w := wrap (a.val / b.val)

/-- The remainder of Euclidean division, which is never negative. -/
def remEuclid (a b : Signed w) : Signed w := wrap (a.val % b.val)

def checkedAdd (a b : Signed w) : Option (Signed w) := ofInt (a.val + b.val)

def checkedSub (a b : Signed w) : Option (Signed w) := ofInt (a.val - b.val)

def checkedMul (a b : Signed w) : Option (Signed w) := ofInt (a.val * b.val)

def checkedNeg (a : Signed w) : Option (Signed w) := ofInt (-a.val)

def checkedAbs (a : Signed w) : Option (Signed w) := ofInt |a.val|

end Signed

/-- `x` lies between zero and `total`, on either side of zero. -/
def Within (total x : Int) : Prop := min 0 total ≤ x ∧ x ≤ max 0 total

/-- What lies between zero and a number that fits, fits. -/
theorem Within.fits {w : Nat} {total x : Int} (within : Within total x) (fits : Fits w total) :
    Fits w x := by
  have positive := half_pos w
  obtain ⟨low, high⟩ := within
  obtain ⟨lower, upper⟩ := fits
  constructor <;> omega

end Numeric

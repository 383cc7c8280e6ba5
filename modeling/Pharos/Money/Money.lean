import Pharos.Money.Allocation
import Pharos.Money.Currency

/-!
# Monetary amounts

An amount of minor units with its currency.  Every operation is checked: amounts of two currencies
are not combined, and a result that no `i128` can hold is an error.
-/

namespace Pharos

open Numeric

structure Money where
  amount : I128
  currency : Currency
deriving DecidableEq, Repr

namespace Money

/-- `MAX_ALLOCATION_PARTS`. -/
def maxAllocationParts : USize := 10000

/-- The checked amount in the currency of the operand, or `Overflow`. -/
def ofChecked (amount : Option I128) (currency : Currency) : Except MoneyError Money :=
  match amount with
  | some amount => .ok { amount, currency }
  | none => .error .overflow

def ensureSameCurrency (self other : Money) : Except MoneyError Unit :=
  if self.currency = other.currency then .ok ()
  else .error (.currencyMismatch self.currency.code other.currency.code)

def checkedAdd (self other : Money) : Except MoneyError Money := do
  self.ensureSameCurrency other
  ofChecked (self.amount.checkedAdd other.amount) self.currency

def checkedSub (self other : Money) : Except MoneyError Money := do
  self.ensureSameCurrency other
  ofChecked (self.amount.checkedSub other.amount) self.currency

def checkedMul (self : Money) (factor : I128) : Except MoneyError Money :=
  ofChecked (self.amount.checkedMul factor) self.currency

def neg (self : Money) : Except MoneyError Money :=
  ofChecked self.amount.checkedNeg self.currency

def abs (self : Money) : Except MoneyError Money :=
  ofChecked self.amount.checkedAbs self.currency

/-- How `allocate` reports what `allocate_minor_units` refuses. -/
def ofAllocationError : AllocationError → MoneyError
  | .invalidAllocation => .invalidAllocation
  | .tooManyParts parts max => .tooManyParts parts max

def allocate (self : Money) (parts : USize) : Except MoneyError (List Money) := do
  let shares ← (allocateMinorUnits self.amount parts maxAllocationParts).mapError ofAllocationError
  .ok (shares.map fun amount => { amount, currency := self.currency })

/-! ## Allocation -/

/-- Allocation succeeds when the shares of the minor units do, with the same shares. -/
theorem allocate_eq_ok_iff {money : Money} {parts : USize} {monies : List Money} :
    money.allocate parts = .ok monies ↔
      ∃ shares, allocateMinorUnits money.amount parts maxAllocationParts = .ok shares ∧
        monies = shares.map fun amount => { amount, currency := money.currency } := by
  unfold allocate
  cases allocateMinorUnits money.amount parts maxAllocationParts with
  | error error =>
    constructor
    · intro run
      cases run
    · rintro ⟨_, run, -⟩
      cases run
  | ok shares =>
    constructor
    · intro run
      exact ⟨shares, rfl, (Except.ok.inj run).symm⟩
    · rintro ⟨_, run, rfl⟩
      obtain rfl := Except.ok.inj run
      rfl

theorem allocate_eq_error_iff {money : Money} {parts : USize} {error : MoneyError} :
    money.allocate parts = .error error ↔
      ∃ refused, allocateMinorUnits money.amount parts maxAllocationParts = .error refused ∧
        error = ofAllocationError refused := by
  unfold allocate
  cases allocateMinorUnits money.amount parts maxAllocationParts with
  | error refused =>
    constructor
    · intro run
      exact ⟨refused, rfl, (Except.error.inj run).symm⟩
    · rintro ⟨_, run, rfl⟩
      obtain rfl := Except.error.inj run
      rfl
  | ok shares =>
    constructor
    · intro run
      cases run
    · rintro ⟨_, run, -⟩
      cases run

theorem allocate_zero {money : Money} {parts : USize} (zero : parts = 0) :
    money.allocate parts = .error .invalidAllocation := by
  unfold allocate allocateMinorUnits
  rw [if_pos zero]
  rfl

theorem allocate_tooMany {money : Money} {parts : USize} (nonzero : parts ≠ 0)
    (above : maxAllocationParts < parts) :
    money.allocate parts = .error (.tooManyParts parts maxAllocationParts) := by
  unfold allocate allocateMinorUnits
  rw [if_neg nonzero, if_pos above]
  rfl

/-- The amounts of an allocation are the even split, all in the currency of the whole. -/
theorem allocate_eq_ok {money : Money} {parts : USize} {monies : List Money}
    (run : money.allocate parts = .ok monies) :
    parts ≠ 0 ∧
      monies.map (fun share => share.amount.val) =
        Numeric.shares money.amount.val parts.toNat ∧
      ∀ share ∈ monies, share.currency = money.currency := by
  obtain ⟨shares, allocated, rfl⟩ := allocate_eq_ok_iff.1 run
  obtain ⟨nonzero, -, exactly⟩ := allocateMinorUnits_eq_ok allocated
  refine ⟨nonzero, ?_, ?_⟩
  · rw [← exactly, List.map_map]
    rfl
  · intro share member
    obtain ⟨amount, -, rfl⟩ := List.mem_map.1 member
    rfl

/-- What the shares of `total` must be. -/
structure ExactShares (total : Int) (parts : Nat) (shares : List Int) : Prop where
  length : shares.length = parts
  sum : shares.sum = total
  nonincreasing : shares.Pairwise (· ≥ ·)
  close : ∀ a ∈ shares, ∀ b ∈ shares, a - b ≤ 1
  signed : ∀ a ∈ shares, (0 ≤ total → 0 ≤ a) ∧ (total ≤ 0 → a ≤ 0)
  fits : ∀ a ∈ shares, Fits 128 a
  prefixFits : ∀ n, Fits 128 (shares.take n).sum

/-- The even split has all of it. -/
theorem exactShares_shares {total : Int} {parts : Nat} (positive : 0 < parts)
    (fits : Fits 128 total) : ExactShares total parts (Numeric.shares total parts) where
  length := length_shares
  sum := sum_shares positive
  nonincreasing := shares_pairwise
  close := by
    intro a aIn b bIn
    obtain ⟨i, -, rfl⟩ := List.mem_map.1 aIn
    obtain ⟨j, -, rfl⟩ := List.mem_map.1 bIn
    exact share_sub_le_one i j
  signed := by
    intro a aIn
    obtain ⟨i, -, rfl⟩ := List.mem_map.1 aIn
    exact ⟨fun nonneg => share_nonneg nonneg i, fun nonpos => share_nonpos positive nonpos i⟩
  fits := by
    intro a aIn
    obtain ⟨i, less, rfl⟩ := List.mem_map.1 aIn
    exact (within_share positive (List.mem_range.1 less)).fits fits
  prefixFits := fun n => (within_shares positive (List.take_sublist n _)).fits fits

/-- Minor units are allocated as they should be: refused for no parts and for too many, and split
exactly otherwise. -/
structure AllocatesMinorUnits (total : I128) (parts maxParts : USize) : Prop where
  refused_iff : (∃ error, allocateMinorUnits total parts maxParts = .error error) ↔
    parts = 0 ∨ maxParts < parts
  exact_shares : ∀ shares, allocateMinorUnits total parts maxParts = .ok shares →
    ExactShares total.val parts.toNat (shares.map Signed.val)

/-- An amount is allocated like its minor units, in its own currency. -/
structure AllocatesAmount (money : Money) (parts : USize) : Prop where
  refused_iff : (∃ error, money.allocate parts = .error error) ↔
    parts = 0 ∨ maxAllocationParts < parts
  same_shares : ∀ monies, money.allocate parts = .ok monies ↔
    ∃ shares, allocateMinorUnits money.amount parts maxAllocationParts = .ok shares ∧
      monies = shares.map fun amount => { amount, currency := money.currency }

/-- Allocation is exact for every total, up to both ends of `i128`. -/
theorem allocation_exact (total : I128) (parts maxParts : USize) (currency : Currency) :
    AllocatesMinorUnits total parts maxParts ∧
      AllocatesAmount { amount := total, currency } parts := by
  have refused : (∃ error, allocateMinorUnits total parts maxAllocationParts = .error error) ↔
      parts = 0 ∨ maxAllocationParts < parts :=
    allocateMinorUnits_error_iff
  refine ⟨⟨allocateMinorUnits_error_iff, ?_⟩, ⟨?_, ?_⟩⟩
  · intro shares run
    obtain ⟨nonzero, -, split⟩ := allocateMinorUnits_eq_ok run
    rw [split]
    exact exactShares_shares (USize.toNat_pos_of_ne_zero nonzero) total.fits
  · rw [← refused]
    constructor
    · rintro ⟨error, run⟩
      obtain ⟨refused, run, -⟩ := allocate_eq_error_iff.1 run
      exact ⟨refused, run⟩
    · rintro ⟨refused, run⟩
      exact ⟨_, allocate_eq_error_iff.2 ⟨refused, run, rfl⟩⟩
  · exact fun monies => allocate_eq_ok_iff

end Money

end Pharos

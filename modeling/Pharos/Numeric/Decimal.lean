import Mathlib.Data.List.Basic
import Pharos.Numeric.Signed

/-!
# Decimal texts of machine integers

A text of digits is read as the number it writes, whatever zeros stand in front of it, and the
digits of a number have no zero in front unless the number is zero.
-/

namespace Numeric

/-- The number some digits write; none when there are no digits or something else among them. -/
def readDigits (chars : List Char) : Option Nat :=
  if chars = [] ∨ chars.all Char.isDigit = false then none
  else some (Nat.ofDigitChars 10 chars 0)

/-- A signed integer read from a text: an optional sign, then digits, of a number that fits. -/
def parseSigned (w : Nat) (text : String) : Option (Signed w) :=
  match text.toList with
  | '-' :: digits => (readDigits digits).bind fun n => Signed.ofInt (-(n : Int))
  | '+' :: digits => (readDigits digits).bind fun n => Signed.ofInt n
  | digits => (readDigits digits).bind fun n => Signed.ofInt n

/-- The sign that is written before the digits of a number. -/
def signText (negative : Bool) : String :=
  if negative then "-" else ""

/-- A signed integer written in decimal. -/
def Signed.toText {w : Nat} (a : Signed w) : String :=
  signText (decide (a.val < 0)) ++ Nat.repr a.val.natAbs

theorem isDigit_ne {c : Char} (digit : c.isDigit = true) : c ≠ '-' ∧ c ≠ '+' ∧ c ≠ '.' := by
  refine ⟨?_, ?_, ?_⟩ <;> rintro rfl <;> exact absurd digit (by decide)

theorem isDigit_ascii {c : Char} (digit : c.isDigit = true) : c.toNat < 0x80 := by
  have bounds : c.val ≥ 48 ∧ c.val ≤ 57 := by simpa [Char.isDigit] using digit
  exact Nat.lt_of_le_of_lt (UInt32.le_iff_toNat_le.1 bounds.2) (by decide)

theorem readDigits_eq {digits : List Char} (nonempty : digits ≠ [])
    (digit : ∀ c ∈ digits, c.isDigit = true) :
    readDigits digits = some (Nat.ofDigitChars 10 digits 0) := by
  unfold readDigits
  rw [if_neg]
  rintro (empty | other)
  · exact nonempty empty
  · rw [List.all_eq_true.2 digit] at other
    cases other

/-- Digits with a sign are read as the number they write. -/
theorem parseSigned_digits {w : Nat} {a : Signed w} {digits : List Char} (nonempty : digits ≠ [])
    (digit : ∀ c ∈ digits, c.isDigit = true)
    (value : Nat.ofDigitChars 10 digits 0 = a.val.natAbs) :
    parseSigned w (signText (decide (a.val < 0)) ++ String.ofList digits) = some a := by
  have read := readDigits_eq nonempty digit
  unfold parseSigned signText
  rcases lt_or_ge a.val 0 with negative | nonneg
  · simp only [decide_eq_true negative, if_true, String.toList_append, String.toList_ofList]
    rw [show "-".toList = ['-'] from rfl, List.singleton_append]
    simp only [read, value, Option.bind_some]
    exact Signed.ofInt_eq_some_iff.2 (by omega)
  · obtain ⟨first, rest, rfl⟩ := List.exists_cons_of_ne_nil nonempty
    obtain ⟨noMinus, noPlus, -⟩ := isDigit_ne (digit first List.mem_cons_self)
    simp only [decide_eq_false (not_lt_of_ge nonneg), Bool.false_eq_true, if_false,
      String.empty_append, String.toList_ofList]
    split
    · next same => exact absurd (List.cons.inj same).1 noMinus
    · next same => exact absurd (List.cons.inj same).1 noPlus
    · rw [read, value, Option.bind_some]
      exact Signed.ofInt_eq_some_iff.2 (by omega)

theorem isDigit_of_mem_toDigits {n : Nat} : ∀ c ∈ Nat.toDigits 10 n, c.isDigit = true :=
  fun _ member => Nat.isDigit_of_mem_toDigits (by decide) (by decide) member

/-- Only zero is written with a zero in front. -/
theorem eq_zero_of_head_toDigits {n : Nat} (head : (Nat.toDigits 10 n).head? = some '0') :
    n = 0 := by
  induction n using Nat.strongRecOn with
  | ind n ih =>
    rw [Nat.toDigits_eq_if (by decide)] at head
    split at head
    · exact Nat.digitChar_eq_zero.1 (Option.some.inj head)
    · rw [List.head?_append_of_ne_nil _ Nat.toDigits_ne_nil] at head
      have := ih (n / 10) (by omega) head
      omega

/-- The digits of a number with zeros in front, up to `width` digits. -/
def paddedDigits (n width : Nat) : List Char :=
  (Nat.toDigits 10 n).leftpad width '0'

theorem length_paddedDigits (n width : Nat) :
    (paddedDigits n width).length = max width (Nat.toDigits 10 n).length :=
  List.length_leftpad

theorem isDigit_of_mem_paddedDigits {n width : Nat} :
    ∀ c ∈ paddedDigits n width, c.isDigit = true := by
  intro c member
  rcases List.mem_append.1 member with zero | digit
  · rw [List.eq_of_mem_replicate zero]
    rfl
  · exact isDigit_of_mem_toDigits c digit

/-- Zeros in front do not change the number. -/
theorem ofDigitChars_paddedDigits (n width : Nat) :
    Nat.ofDigitChars 10 (paddedDigits n width) 0 = n := by
  rw [paddedDigits, List.leftpad, Nat.ofDigitChars_append, Nat.ofDigitChars_replicate_zero,
    Nat.mul_zero, Nat.ofDigitChars_ten_toDigits]

/-- Digits with a zero in front are no more than were asked for. -/
theorem length_of_head_paddedDigits {n exponent : Nat}
    (zero : (paddedDigits n (exponent + 1)).head? = some '0') :
    (paddedDigits n (exponent + 1)).length = exponent + 1 := by
  rw [length_paddedDigits]
  by_contra longer
  have noPadding : exponent + 1 - (Nat.toDigits 10 n).length = 0 := by omega
  rw [paddedDigits, List.leftpad, noPadding, List.replicate_zero, List.nil_append] at zero
  rw [eq_zero_of_head_toDigits zero, Nat.toDigits_zero, List.length_singleton] at longer
  omega

/-- What is in front of the last `exponent` digits has a zero in front only when it is a zero. -/
theorem take_paddedDigits_of_head {n exponent : Nat}
    (zero : ((paddedDigits n (exponent + 1)).take
      ((paddedDigits n (exponent + 1)).length - exponent)).head? = some '0') :
    (paddedDigits n (exponent + 1)).take ((paddedDigits n (exponent + 1)).length - exponent) =
      ['0'] := by
  rw [List.head?_take] at zero
  split at zero
  · cases zero
  · have length := length_of_head_paddedDigits zero
    rw [length, Nat.add_sub_cancel_left, List.take_one, zero]
    rfl

end Numeric

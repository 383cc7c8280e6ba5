import Pharos.Money.Money
import Pharos.Numeric.Decimal

/-!
# Display of monetary amounts

An amount is shown as a sign, the digits in front of the point, the point with as many digits as the
exponent says, and the code.  The digits are those of the minor units, with zeros in front where
there are too few of them to cut off the fraction.
-/

namespace Pharos

open Text Numeric

namespace Money

/-- `Display for Currency`. -/
def currencyText (currency : Currency) : String := currency.code

/-- `{digits:0>width$}`. -/
def padded (digits : String) (width : Nat) : String :=
  String.ofList (digits.toList.leftpad width '0')

/-- `Display for Money`, with none where the formatting panics: the subtraction below zero, and
`split_at` past the end or inside a character. -/
def display (self : Money) : Option String :=
  let exponent := self.currency.exponent.toNat
  let sign := signText (decide (self.amount.val < 0))
  let digits := Nat.repr self.amount.val.natAbs
  if exponent = 0 then some (sign ++ digits ++ " " ++ currencyText self.currency)
  else
    let padded := padded digits (exponent + 1)
    let len := (bytes padded).length
    if len < exponent then none
    else
      (splitAt padded (len - exponent)).map fun halves =>
        sign ++ halves.1 ++ "." ++ halves.2 ++ " " ++ currencyText self.currency

/-- A decimal numeral with `exponent` digits behind the point. -/
structure Numeral (exponent : Nat) where
  negative : Bool
  whole : List Char
  fraction : List Char
  whole_ne_nil : whole ≠ []
  whole_digits : ∀ c ∈ whole, c.isDigit = true
  no_leading_zero : whole.head? = some '0' → whole = ['0']
  fraction_length : fraction.length = exponent
  fraction_digits : ∀ c ∈ fraction, c.isDigit = true

namespace Numeral

variable {exponent : Nat}

/-- The point and what is behind it. -/
def pointText (n : Numeral exponent) : String :=
  if exponent = 0 then "" else "." ++ String.ofList n.fraction

def text (n : Numeral exponent) : String :=
  signText n.negative ++ String.ofList n.whole ++ n.pointText

end Numeral

/-- What is left of the text of an amount without the code and the point. -/
def digitsOf (code text : String) : String :=
  String.ofList ((text.toList.take (text.length - (code.length + 1))).filter fun c => c ≠ '.')

/-- The text shows the amount: it is a numeral with the sign of the amount and the code, and
without the point and the code it is read as the amount. -/
structure Shows (money : Money) (text : String) : Prop where
  numeral : ∃ n : Numeral money.currency.exponent.toNat,
    n.negative = decide (money.amount.val < 0) ∧ text = n.text ++ " " ++ money.currency.code
  reads : parseSigned 128 (digitsOf money.currency.code text) = some money.amount

/-- The digits of an amount, one more than the exponent at least, cut before the last `exponent`. -/
def numeral (amount : I128) (exponent : Nat) : Numeral exponent :=
  let digits := paddedDigits amount.val.natAbs (exponent + 1)
  have long : exponent + 1 ≤ digits.length := by
    rw [length_paddedDigits]
    exact le_max_left _ _
  { negative := decide (amount.val < 0)
    whole := digits.take (digits.length - exponent)
    fraction := digits.drop (digits.length - exponent)
    whole_ne_nil := by
      rw [ne_eq, ← List.length_eq_zero_iff, List.length_take]
      omega
    whole_digits := fun c member => isDigit_of_mem_paddedDigits c (List.mem_of_mem_take member)
    no_leading_zero := take_paddedDigits_of_head
    fraction_length := by
      rw [List.length_drop]
      omega
    fraction_digits := fun c member => isDigit_of_mem_paddedDigits c (List.mem_of_mem_drop member) }

theorem numeral_append (amount : I128) (exponent : Nat) :
    (numeral amount exponent).whole ++ (numeral amount exponent).fraction =
      paddedDigits amount.val.natAbs (exponent + 1) :=
  List.take_append_drop _ _

/-- Without a fraction nothing is padded. -/
theorem numeral_zero_whole (amount : I128) :
    (numeral amount 0).whole = Nat.toDigits 10 amount.val.natAbs := by
  have positive : 0 < (Nat.toDigits 10 amount.val.natAbs).length := Nat.length_toDigits_pos
  have none : 1 - (Nat.toDigits 10 amount.val.natAbs).length = 0 := by omega
  simp only [numeral, paddedDigits, List.leftpad, Nat.zero_add, none, List.replicate_zero,
    List.nil_append, Nat.sub_zero, List.take_length]

theorem padded_repr (n width : Nat) :
    padded (Nat.repr n) width = String.ofList (paddedDigits n width) := by
  rw [padded, Nat.toList_repr, paddedDigits]

/-- The formatting does not panic, and writes the numeral and the code. -/
theorem display_eq (money : Money) :
    money.display = some ((numeral money.amount money.currency.exponent.toNat).text ++ " " ++
      money.currency.code) := by
  unfold display
  simp only [currencyText]
  generalize money.currency.exponent.toNat = exponent
  split
  case isTrue zero =>
    subst zero
    rw [Nat.repr_eq_ofList_toDigits, ← numeral_zero_whole]
    simp only [Numeral.text, Numeral.pointText, if_true, String.append_empty]
    rfl
  case isFalse nonzero =>
    have ascii : ∀ c ∈ paddedDigits money.amount.val.natAbs (exponent + 1), c.toNat < 0x80 :=
      fun c member => isDigit_ascii (isDigit_of_mem_paddedDigits c member)
    have length : (bytes (String.ofList
        (paddedDigits money.amount.val.natAbs (exponent + 1)))).length =
          (paddedDigits money.amount.val.natAbs (exponent + 1)).length := by
      rw [bytes_of_ascii (by rwa [String.toList_ofList]), List.length_map, String.toList_ofList]
    have long := length_paddedDigits money.amount.val.natAbs (exponent + 1)
    rw [padded_repr, length, if_neg (by omega), splitAt, String.toList_ofList,
      splitCharsAt_ascii ascii (Nat.sub_le _ _)]
    simp only [Option.map_some, Numeral.text, Numeral.pointText, if_neg nonzero,
      String.append_assoc]
    rfl

/-- Without the code and the point the digits of the numeral are left, with its sign. -/
theorem digitsOf_text {exponent : Nat} (n : Numeral exponent) (code : String) :
    digitsOf code (n.text ++ " " ++ code) =
      signText n.negative ++ String.ofList (n.whole ++ n.fraction) := by
  have shown : (n.text ++ " " ++ code).toList = n.text.toList ++ ' ' :: code.toList := by
    rw [String.toList_append, String.toList_append, List.append_assoc]
    rfl
  have length : (n.text ++ " " ++ code).length - (code.length + 1) = n.text.toList.length := by
    rw [← String.length_toList, shown, List.length_append, List.length_cons,
      String.length_toList (s := code), Nat.add_sub_cancel]
  have digits : ∀ l : List Char, (∀ c ∈ l, c.isDigit = true) →
      l.filter (fun c => decide (c ≠ '.')) = l := fun l digit =>
    List.filter_eq_self.2 fun c member => decide_eq_true (isDigit_ne (digit c member)).2.2
  have sign : (signText n.negative).toList.filter (fun c => decide (c ≠ '.')) =
      (signText n.negative).toList := by
    cases n.negative <;> decide
  have point : n.pointText.toList.filter (fun c => decide (c ≠ '.')) = n.fraction := by
    unfold Numeral.pointText
    split
    case isTrue zero =>
      have empty : n.fraction = [] := List.length_eq_zero_iff.1 (n.fraction_length.trans zero)
      rw [empty]
      rfl
    case isFalse nonzero =>
      rw [String.toList_append, List.filter_append, String.toList_ofList (l := n.fraction),
        digits _ n.fraction_digits]
      rfl
  unfold digitsOf
  rw [shown, length, List.take_left]
  apply String.toList_inj.1
  simp only [Numeral.text, String.toList_append, String.toList_ofList, List.filter_append, sign,
    digits _ n.whole_digits, point, List.append_assoc]

/-- What is shown of an amount. -/
theorem exists_shows (money : Money) : ∃ text, money.display = some text ∧ Shows money text := by
  refine ⟨_, display_eq money, ⟨_, rfl, rfl⟩, ?_⟩
  rw [digitsOf_text, numeral_append]
  refine parseSigned_digits ?_ isDigit_of_mem_paddedDigits (ofDigitChars_paddedDigits _ _)
  rw [ne_eq, ← List.length_eq_zero_iff, length_paddedDigits]
  omega

/-- Every amount is shown, and two amounts of one currency are shown alike only if they are equal. -/
theorem display_faithful (money : Money) (other : I128) :
    (∃ text, money.display = some text ∧ Shows money text) ∧
      (Money.display { money with amount := other } = money.display ↔ other = money.amount) := by
  refine ⟨exists_shows money, ?_, ?_⟩
  · intro same
    obtain ⟨text, display, shows⟩ := exists_shows money
    obtain ⟨_, otherDisplay, otherShows⟩ := exists_shows { money with amount := other }
    obtain rfl := Option.some.inj (otherDisplay.symm.trans (same.trans display))
    exact Option.some.inj (otherShows.reads.symm.trans shows.reads)
  · rintro rfl
    rfl

end Money

end Pharos

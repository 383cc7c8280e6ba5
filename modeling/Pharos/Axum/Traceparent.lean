import Pharos.Text.Fields

/-!
# The trace context header

`Traceparent::parse` cuts a header at its dashes and reads the first four fields, `to_header_value`
writes one back, and `traceparent_value` mints one from raw ids by rendering them and reading the
text again.  Lengths are lengths in bytes and the digits are tested byte by byte, as the source does.
-/

namespace Pharos

open Text

/-- A parsed `traceparent`. -/
structure Traceparent where
  traceId : String
  spanId : String
  sampled : Bool
deriving DecidableEq, Repr

namespace Traceparent

/-- The version `to_header_value` writes. -/
def version : String := "00"

/-- The `trace-flags` of a sampled trace. -/
def flagSampled : String := "01"

def traceIdLen : Nat := 32

def spanIdLen : Nat := 16

/-- `is_lower_hex`: every byte is a digit or lies between `a` and `f`. -/
def isLowerHex (s : String) : Bool :=
  (bytes s).all fun b => (48 ≤ b && b ≤ 57) || (97 ≤ b && b ≤ 102)

/-- The value of a hexadecimal digit of either case. -/
def hexDigit (b : UInt8) : Option Nat :=
  if 48 ≤ b ∧ b ≤ 57 then some (b.toNat - 48)
  else if 97 ≤ b ∧ b ≤ 102 then some (b.toNat - 87)
  else if 65 ≤ b ∧ b ≤ 70 then some (b.toNat - 55)
  else none

/-- One more digit of a `u8`, which overflows from 256 on. -/
def pushDigit (acc : Nat) (b : UInt8) : Option Nat :=
  (hexDigit b).bind fun digit => if 16 * acc + digit < 256 then some (16 * acc + digit) else none

/-- `u8::from_str_radix(_, 16)`: an optional `+`, then at least one hexadecimal digit. -/
def u8FromHex (src : String) : Option Nat :=
  let digits := if (bytes src).head? = some 43 then (bytes src).tail else bytes src
  if digits = [] then none else digits.foldlM pushDigit 0

/-- What makes an id of `len` digits unacceptable. -/
def malformedId (len : Nat) (id : String) : Bool :=
  (bytes id).length != len || !isLowerHex id || (bytes id).all (· == 48)

/-- The checks of `parse` on the four fields, in their order. -/
def ofFields (version traceId spanId flags : String) : Option Traceparent :=
  if (bytes version).length ≠ 2 ∨ version = "ff" ∨ isLowerHex version = false then none
  else if malformedId traceIdLen traceId then none
  else if malformedId spanIdLen spanId then none
  else if (bytes flags).length ≠ 2 ∨ isLowerHex flags = false then none
  else (u8FromHex flags).map fun bits => { traceId, spanId, sampled := bits &&& 1 == 1 }

/-- `Traceparent::parse`: whatever follows the fourth field is not looked at. -/
def parse (value : String) : Option Traceparent :=
  match split value '-' with
  | version :: traceId :: spanId :: flags :: _ => ofFields version traceId spanId flags
  | _ => none

/-- The flags `to_header_value` writes. -/
def flagsText (sampled : Bool) : String :=
  if sampled then flagSampled else "00"

/-- `Traceparent::to_header_value`. -/
def toHeaderValue (t : Traceparent) : String :=
  version ++ "-" ++ t.traceId ++ "-" ++ t.spanId ++ "-" ++ flagsText t.sampled

end Traceparent

/-- `traceparent_value`, with `fromStr` standing for `HeaderValue::from_str(_).ok()`. -/
def traceparentValue {H : Type} (fromStr : String → Option H) (traceId spanId : String)
    (sampled : Bool) : Option H :=
  let tp : Traceparent := { traceId, spanId, sampled }
  (Traceparent.parse tp.toHeaderValue).bind fun _ => fromStr tp.toHeaderValue

namespace Traceparent

/-! ## What the checks ask for -/

/-- A digit of the header: `0` to `9` or `a` to `f`. -/
def IsHexDigit (c : Char) : Prop :=
  (48 ≤ c.toNat ∧ c.toNat ≤ 57) ∨ (97 ≤ c.toNat ∧ c.toNat ≤ 102)

instance (c : Char) : Decidable (IsHexDigit c) :=
  inferInstanceAs (Decidable (_ ∨ _))

/-- A text of exactly `n` lower-case hexadecimal digits. -/
structure HexDigits (n : Nat) (s : String) : Prop where
  length : s.length = n
  digits : ∀ c ∈ s.toList, IsHexDigit c

/-- An id of `n` digits that are not all zero. -/
structure IsId (n : Nat) (s : String) : Prop extends HexDigits n s where
  nonzero : ∃ c ∈ s.toList, c ≠ '0'

/-- The value of a digit. -/
def digitValue (c : Char) : Nat :=
  if c.toNat ≤ 57 then c.toNat - 48 else c.toNat - 87

/-- The number a text of digits writes, the most significant digit first. -/
def hexValue (s : String) : Nat :=
  s.toList.foldl (fun acc c => 16 * acc + digitValue c) 0

theorem IsHexDigit.ascii {c : Char} (digit : IsHexDigit c) : c.toNat < 0x80 := by
  rcases digit with h | h <;> omega

theorem dash_not_hex : ¬ IsHexDigit '-' := by
  decide

theorem HexDigits.no_dash {n : Nat} {s : String} (hex : HexDigits n s) : '-' ∉ s.toList :=
  fun member => dash_not_hex (hex.digits _ member)

theorem HexDigits.bytes_eq {n : Nat} {s : String} (hex : HexDigits n s) :
    bytes s = s.toList.map byteOf :=
  bytes_of_ascii fun c member => (hex.digits c member).ascii

/-- A digit is a visible character, and so is the dash between the fields. -/
theorem HexDigits.visible {n : Nat} {s : String} (hex : HexDigits n s) :
    ∀ b ∈ bytes s, 32 ≤ b ∧ b < 127 := by
  rw [hex.bytes_eq]
  intro b member
  obtain ⟨c, written, rfl⟩ := List.mem_map.1 member
  have digit := hex.digits c written
  simp only [UInt8.le_iff_toNat_le, UInt8.lt_iff_toNat_lt, toNat_byteOf digit.ascii,
    UInt8.reduceToNat]
  rcases digit with number | letter <;> omega

theorem isLowerHex_iff {s : String} :
    isLowerHex s = true ↔ ∀ c ∈ s.toList, IsHexDigit c := by
  have low : ∀ b : UInt8,
      ((48 ≤ b && b ≤ 57) || (97 ≤ b && b ≤ 102)) = true → b.toNat < 0x80 := by
    intro b digit
    simp only [Bool.or_eq_true, Bool.and_eq_true, decide_eq_true_eq, UInt8.le_iff_toNat_le,
      UInt8.reduceToNat] at digit
    omega
  rw [isLowerHex, all_bytes_iff low]
  refine forall₂_congr fun c _ => ?_
  simp only [Bool.or_eq_true, Bool.and_eq_true, decide_eq_true_eq, UInt8.le_iff_toNat_le,
    UInt8.reduceToNat]
  constructor
  · rintro ⟨ascii, digit⟩
    rwa [toNat_byteOf ascii] at digit
  · intro digit
    refine ⟨IsHexDigit.ascii digit, ?_⟩
    rwa [toNat_byteOf (IsHexDigit.ascii digit)]

/-- The two tests of a field: so many bytes, all of them digits. -/
theorem hexDigits_iff {n : Nat} {s : String} :
    ((bytes s).length = n ∧ isLowerHex s = true) ↔ HexDigits n s := by
  constructor
  · rintro ⟨length, lower⟩
    have digits := isLowerHex_iff.1 lower
    rw [bytes_of_ascii fun c member => (digits c member).ascii, List.length_map,
      String.length_toList] at length
    exact ⟨length, digits⟩
  · intro hex
    refine ⟨?_, isLowerHex_iff.2 hex.digits⟩
    rw [hex.bytes_eq, List.length_map, String.length_toList, hex.length]

instance (n : Nat) (s : String) : Decidable (HexDigits n s) :=
  decidable_of_iff _ hexDigits_iff

theorem HexDigits.all_zero_iff {n : Nat} {s : String} (hex : HexDigits n s) :
    (bytes s).all (· == 48) = true ↔ ∀ c ∈ s.toList, c = '0' := by
  rw [hex.bytes_eq, List.all_map, List.all_eq_true]
  refine forall₂_congr fun c member => ?_
  have value := toNat_byteOf (hex.digits c member).ascii
  simp only [Function.comp_apply, beq_iff_eq, ← UInt8.toNat_inj, value, UInt8.reduceToNat,
    ← Char.toNat_inj]
  rfl

/-- The checks of an id pass exactly the ids. -/
theorem malformedId_eq_false_iff {len : Nat} {id : String} :
    malformedId len id = false ↔ IsId len id := by
  simp only [malformedId, Bool.or_eq_false_iff, bne_eq_false_iff_eq, Bool.not_eq_false']
  constructor
  · rintro ⟨⟨length, lower⟩, zero⟩
    have hex := hexDigits_iff.1 ⟨length, lower⟩
    refine ⟨hex, ?_⟩
    by_contra none
    push Not at none
    rw [hex.all_zero_iff.2 none] at zero
    cases zero
  · rintro ⟨hex, c, member, nonzero⟩
    refine ⟨hexDigits_iff.2 hex, ?_⟩
    rw [Bool.eq_false_iff, ne_eq, hex.all_zero_iff]
    exact fun zero => nonzero (zero c member)

instance (n : Nat) (s : String) : Decidable (IsId n s) :=
  decidable_of_iff _ malformedId_eq_false_iff

theorem hexDigit_byteOf {c : Char} (digit : IsHexDigit c) :
    hexDigit (byteOf c) = some (digitValue c) := by
  have value := toNat_byteOf digit.ascii
  unfold hexDigit digitValue
  simp only [UInt8.le_iff_toNat_le, value, UInt8.reduceToNat]
  rcases digit with number | letter
  · rw [if_pos number, if_pos number.2]
  · rw [if_neg (by omega), if_pos letter, if_neg (by omega)]

theorem digitValue_lt {c : Char} (digit : IsHexDigit c) : digitValue c < 16 := by
  unfold digitValue
  rcases digit with number | letter <;> split <;> omega

theorem pushDigit_byteOf {acc : Nat} {c : Char} (digit : IsHexDigit c) (small : acc < 16) :
    pushDigit acc (byteOf c) = some (16 * acc + digitValue c) := by
  have least := digitValue_lt digit
  rw [pushDigit, hexDigit_byteOf digit, Option.bind_some, if_pos (by omega)]

/-- Two digits are within a `u8`, and `from_str_radix` reads the number they write. -/
theorem HexDigits.u8FromHex_eq {flags : String} (hex : HexDigits 2 flags) :
    u8FromHex flags = some (hexValue flags) := by
  obtain ⟨c, d, two⟩ := List.length_eq_two.1 (String.length_toList.trans hex.length)
  have first : IsHexDigit c := hex.digits c (by simp [two])
  have second : IsHexDigit d := hex.digits d (by simp [two])
  have written : bytes flags = [byteOf c, byteOf d] := by
    rw [hex.bytes_eq, two, List.map_cons, List.map_singleton]
  have noSign : ¬ [byteOf c, byteOf d].head? = some 43 := by
    rw [List.head?_cons, Option.some_inj, ← UInt8.toNat_inj, toNat_byteOf first.ascii]
    rcases first with number | letter <;> simp only [UInt8.reduceToNat] <;> omega
  unfold u8FromHex hexValue
  simp only [written, two, if_neg noSign]
  rw [if_neg (List.cons_ne_nil _ _), List.foldlM_cons, pushDigit_byteOf first (by omega)]
  simp only [Option.bind_eq_bind, Option.bind_some, List.foldlM_cons, List.foldlM_nil,
    List.foldl_cons, List.foldl_nil]
  rw [pushDigit_byteOf second (by have := digitValue_lt first; omega)]
  rfl

/-- `parse` accepts four fields exactly when each of them has its shape. -/
theorem ofFields_eq_some_iff {version traceId spanId flags : String} {t : Traceparent} :
    ofFields version traceId spanId flags = some t ↔
      (HexDigits 2 version ∧ version ≠ "ff") ∧ IsId traceIdLen traceId ∧ IsId spanIdLen spanId ∧
        HexDigits 2 flags ∧ { traceId, spanId, sampled := hexValue flags % 2 == 1 } = t := by
  have shape (field : String) :
      ¬ ((bytes field).length ≠ 2 ∨ isLowerHex field = false) ↔ HexDigits 2 field := by
    rw [← hexDigits_iff, not_or, not_not, Bool.not_eq_false]
  have versions : ¬ ((bytes version).length ≠ 2 ∨ version = "ff" ∨ isLowerHex version = false) ↔
      HexDigits 2 version ∧ version ≠ "ff" := by
    rw [← shape]
    tauto
  have ids (len : Nat) (id : String) : ¬ malformedId len id = true ↔ IsId len id := by
    rw [Bool.not_eq_true, malformedId_eq_false_iff]
  unfold ofFields
  rw [← versions, ← ids, ← ids, ← shape]
  constructor
  · intro parsed
    split_ifs at parsed with badVersion badTrace badSpan badFlags
    rw [((shape flags).1 badFlags).u8FromHex_eq] at parsed
    refine ⟨badVersion, badTrace, badSpan, badFlags, ?_⟩
    simpa [Nat.and_one_is_mod] using parsed
  · rintro ⟨okVersion, okTrace, okSpan, okFlags, rfl⟩
    rw [if_neg okVersion, if_neg okTrace, if_neg okSpan, if_neg okFlags,
      ((shape flags).1 okFlags).u8FromHex_eq]
    simp [Nat.and_one_is_mod]

theorem ofFields_isSome_iff {version traceId spanId flags : String} :
    (ofFields version traceId spanId flags).isSome = true ↔
      (HexDigits 2 version ∧ version ≠ "ff") ∧ IsId traceIdLen traceId ∧ IsId spanIdLen spanId ∧
        HexDigits 2 flags := by
  rw [Option.isSome_iff_exists]
  simp only [ofFields_eq_some_iff, exists_and_left, exists_eq', and_true]

theorem parse_of_split {value version traceId spanId flags : String} {more : List String}
    (cut : split value '-' = version :: traceId :: spanId :: flags :: more) :
    parse value = ofFields version traceId spanId flags := by
  unfold parse
  rw [cut]

end Traceparent

end Pharos

import Mathlib.Data.List.Basic

/-!
# Texts as bytes and as fields

The UTF-8 bytes of a text, and its fields between the occurrences of a separator.  A test that only
ASCII bytes pass is a test of the characters, since every other character is written with a byte
from `0x80` on.
-/

namespace Text

/-! ## Bytes -/

/-- The UTF-8 bytes of a text. -/
def bytes (text : String) : List UInt8 :=
  text.toList.flatMap String.utf8EncodeChar

/-- The byte an ASCII character is written with. -/
def byteOf (c : Char) : UInt8 :=
  UInt8.ofNat c.toNat

theorem toNat_byteOf {c : Char} (ascii : c.toNat < 0x80) : (byteOf c).toNat = c.toNat := by
  unfold byteOf
  rw [UInt8.toNat_ofNat']
  omega

theorem utf8EncodeChar_ascii {c : Char} (ascii : c.toNat < 0x80) :
    String.utf8EncodeChar c = [byteOf c] := by
  have small : c.val.toNat ≤ 0x7f := Nat.le_of_lt_succ ascii
  simp only [String.utf8EncodeChar, if_pos small, byteOf, Char.toNat]

/-- A character outside ASCII is written with a byte from `0x80` on. -/
theorem exists_high_byte {c : Char} (high : 0x80 ≤ c.toNat) :
    ∃ b ∈ String.utf8EncodeChar c, 0x80 ≤ b.toNat := by
  have large : ¬ c.val.toNat ≤ 0x7f := Nat.not_le_of_lt high
  fun_cases String.utf8EncodeChar c with
  | case1 _ small => exact absurd small large
  | case2 v =>
    refine ⟨_, List.mem_cons_self, ?_⟩
    rw [UInt8.toNat_ofNat']
    omega
  | case3 v =>
    refine ⟨_, List.mem_cons_self, ?_⟩
    rw [UInt8.toNat_ofNat']
    omega
  | case4 v =>
    refine ⟨_, List.mem_cons_self, ?_⟩
    rw [UInt8.toNat_ofNat']
    omega

theorem bytes_of_ascii {text : String} (ascii : ∀ c ∈ text.toList, c.toNat < 0x80) :
    bytes text = text.toList.map byteOf := by
  unfold bytes
  generalize text.toList = chars at ascii ⊢
  induction chars with
  | nil => rfl
  | cons c rest ih =>
    rw [List.flatMap_cons, utf8EncodeChar_ascii (ascii c List.mem_cons_self),
      ih fun d hd => ascii d (List.mem_cons_of_mem c hd), List.map_cons, List.singleton_append]

@[simp] theorem bytes_append (a b : String) : bytes (a ++ b) = bytes a ++ bytes b := by
  simp [bytes]

/-- A test that no byte from `0x80` on passes, made of every byte, is a test of every character. -/
theorem all_bytes_iff {text : String} {test : UInt8 → Bool}
    (low : ∀ b, test b = true → b.toNat < 0x80) :
    (bytes text).all test = true ↔
      ∀ c ∈ text.toList, c.toNat < 0x80 ∧ test (byteOf c) = true := by
  constructor
  · intro passes c member
    have encoded : ∀ b ∈ String.utf8EncodeChar c, test b = true := fun b hb =>
      List.all_eq_true.1 passes b (List.mem_flatMap.2 ⟨c, member, hb⟩)
    have ascii : c.toNat < 0x80 := by
      by_contra high
      obtain ⟨b, hb, large⟩ := exists_high_byte (Nat.le_of_not_lt high)
      exact absurd (low b (encoded b hb)) (Nat.not_lt_of_le large)
    refine ⟨ascii, encoded _ ?_⟩
    rw [utf8EncodeChar_ascii ascii]
    exact List.mem_singleton_self _
  · intro passes
    rw [bytes_of_ascii fun c member => (passes c member).1, List.all_map, List.all_eq_true]
    exact fun c member => (passes c member).2

/-! ## Cutting at a byte -/

/-- The characters before and after the byte at `mid`; none past the end or inside a character. -/
def splitCharsAt : List Char → Nat → Option (List Char × List Char)
  | chars, 0 => some ([], chars)
  | [], _ + 1 => none
  | c :: chars, mid + 1 =>
    if c.utf8Size ≤ mid + 1 then
      (splitCharsAt chars (mid + 1 - c.utf8Size)).map fun halves => (c :: halves.1, halves.2)
    else none

/-- `str::split_at`, with none for its panic. -/
def splitAt (text : String) (mid : Nat) : Option (String × String) :=
  (splitCharsAt text.toList mid).map fun halves => (String.ofList halves.1, String.ofList halves.2)

theorem utf8Size_ascii {c : Char} (ascii : c.toNat < 0x80) : c.utf8Size = 1 := by
  rw [← String.length_utf8EncodeChar, utf8EncodeChar_ascii ascii, List.length_singleton]

/-- In ASCII every place up to the end is one to cut at. -/
theorem splitCharsAt_ascii {chars : List Char} (ascii : ∀ c ∈ chars, c.toNat < 0x80) {mid : Nat}
    (inside : mid ≤ chars.length) :
    splitCharsAt chars mid = some (chars.take mid, chars.drop mid) := by
  induction chars generalizing mid with
  | nil =>
    obtain rfl := Nat.le_zero.1 inside
    rfl
  | cons c chars ih =>
    cases mid with
    | zero => rfl
    | succ mid =>
      have size := utf8Size_ascii (ascii c List.mem_cons_self)
      have rest := ih (fun d member => ascii d (List.mem_cons_of_mem c member))
        (Nat.le_of_succ_le_succ inside)
      unfold splitCharsAt
      rw [size, if_pos (Nat.le_add_left 1 mid), Nat.add_sub_cancel, rest]
      rfl

/-! ## Fields -/

/-- The fields of a text between the occurrences of a separator: never none, perhaps empty ones. -/
def split (text : String) (separator : Char) : List String :=
  (text.toList.splitOn separator).map String.ofList

variable {text field : String} {separator : Char} {fields : List String}

theorem split_of_not_mem (absent : separator ∉ text.toList) : split text separator = [text] := by
  simp [split, List.splitOn_eq_singleton absent]

theorem split_append (absent : separator ∉ field.toList) (rest : String) :
    split (field ++ (String.singleton separator ++ rest)) separator =
      field :: split rest separator := by
  simp only [split, String.toList_append, String.toList_singleton, List.singleton_append,
    List.splitOn_append_cons_self_of_not_mem absent, List.map_cons, String.ofList_toList]

/-- The separator does not occur, or the text is cut at its first occurrence. -/
theorem exists_first_field (text : String) (separator : Char) :
    separator ∉ text.toList ∨ ∃ field rest, separator ∉ field.toList ∧
      text = field ++ (String.singleton separator ++ rest) := by
  by_cases present : separator ∈ text.toList
  · obtain ⟨before, after, shape, absent⟩ := List.eq_append_cons_of_mem present
    refine .inr ⟨String.ofList before, String.ofList after, by simpa using absent, ?_⟩
    apply String.toList_inj.1
    simp [shape]
  · exact .inl present

theorem split_eq_cons_iff :
    split text separator = field :: fields ↔ separator ∉ field.toList ∧
      (fields = [] ∧ text = field ∨
        ∃ rest, text = field ++ (String.singleton separator ++ rest) ∧
          split rest separator = fields) := by
  constructor
  · intro cut
    rcases exists_first_field text separator with absent | ⟨first, rest, absent, rfl⟩
    · rw [split_of_not_mem absent] at cut
      obtain ⟨rfl, rfl⟩ := List.cons.inj cut
      exact ⟨absent, .inl ⟨rfl, rfl⟩⟩
    · rw [split_append absent] at cut
      obtain ⟨rfl, rfl⟩ := List.cons.inj cut
      exact ⟨absent, .inr ⟨rest, rfl, rfl⟩⟩
  · rintro ⟨absent, ⟨rfl, rfl⟩ | ⟨rest, rfl, rfl⟩⟩
    · exact split_of_not_mem absent
    · exact split_append absent rest

theorem split_ne_nil : split text separator ≠ [] := by
  simp [split]

/-- The fields of two texts with a separator between them are those of the one, then of the other. -/
theorem split_join (left right : String) :
    split (left ++ (String.singleton separator ++ right)) separator =
      split left separator ++ split right separator := by
  simp only [split, String.toList_append, String.toList_singleton, List.singleton_append,
    List.splitOn_append_cons_self, List.map_append]

theorem exists_rest_of_split_cons_cons {second : String}
    (cut : split text separator = field :: second :: fields) :
    ∃ rest, text = field ++ (String.singleton separator ++ rest) ∧
      split rest separator = second :: fields := by
  obtain ⟨-, ⟨none, -⟩ | more⟩ := split_eq_cons_iff.1 cut
  · cases none
  · exact more

theorem eq_of_split_singleton (cut : split text separator = [field]) : text = field := by
  obtain ⟨-, ⟨-, same⟩ | ⟨rest, -, none⟩⟩ := split_eq_cons_iff.1 cut
  · exact same
  · exact absurd none split_ne_nil

/-- Texts that start with parts of one length are cut at the same place. -/
theorem append_inj {a b a' b' : String} (length : a.length = a'.length)
    (same : a ++ b = a' ++ b') : a = a' ∧ b = b' := by
  rw [← String.toList_inj, String.toList_append, String.toList_append] at same
  rw [← String.toList_inj, ← String.toList_inj]
  exact List.append_inj same (by simpa only [String.length_toList] using length)

end Text

import Pharos.Text.Fields

/-!
# Currencies

A currency is a code and a minor-unit exponent.  `Currency::new` checks both; the named currencies
are built without a check.
-/

namespace Pharos

open Text

/-- `MoneyError`, with the texts of an invalid currency. -/
inductive MoneyError
  | currencyMismatch (left right : String)
  | overflow
  | invalidCurrency (message : String)
  | invalidAllocation
  | tooManyParts (parts max : USize)
deriving DecidableEq

structure Currency where
  code : String
  exponent : UInt8
deriving DecidableEq, Repr

namespace Currency

/-- `MAX_EXPONENT`. -/
def maxExponent : UInt8 := 38

/-- `(2..=12).contains(&code.len())`: the length is counted in bytes. -/
def validLength (code : String) : Bool :=
  2 ≤ (bytes code).length && (bytes code).length ≤ 12

def validChars (code : String) : Bool :=
  code.toList.all fun c => c.isUpper || c.isDigit

/-- `Currency::new`, with `debug` for the escaped and quoted form of a text. -/
def new (debug : String → String) (code : String) (exponent : UInt8) :
    Except MoneyError Currency :=
  if !validLength code || !validChars code then
    .error (.invalidCurrency
      ("code must be 2-12 uppercase alphanumeric characters, got " ++ debug code))
  else if maxExponent < exponent then
    .error (.invalidCurrency
      ("exponent must be at most " ++ Nat.repr maxExponent.toNat ++ ", got " ++
        Nat.repr exponent.toNat))
  else .ok { code, exponent }

def brl : Currency where
  code := "BRL"
  exponent := 2

def usd : Currency where
  code := "USD"
  exponent := 2

def eur : Currency where
  code := "EUR"
  exponent := 2

def btc : Currency where
  code := "BTC"
  exponent := 8

def eth : Currency where
  code := "ETH"
  exponent := 18

/-- What `Currency::new` asks for. -/
structure Valid (currency : Currency) : Prop where
  length : 2 ≤ currency.code.length ∧ currency.code.length ≤ 12
  chars : ∀ c ∈ currency.code.toList, c.isUpper = true ∨ c.isDigit = true
  exponent : currency.exponent ≤ maxExponent

theorem ascii_of_upper_or_digit {c : Char} (allowed : c.isUpper = true ∨ c.isDigit = true) :
    c.toNat < 0x80 := by
  have bound : c.val ≤ 90 := by
    rcases allowed with upper | digit
    · have bounds : c.val ≥ 65 ∧ c.val ≤ 90 := of_decide_eq_true upper
      exact bounds.2
    · have bounds : c.val ≥ 48 ∧ c.val ≤ 57 := by simpa [Char.isDigit] using digit
      exact UInt32.le_trans bounds.2 (by decide)
  exact Nat.lt_of_le_of_lt (UInt32.le_iff_toNat_le.1 bound) (by decide)

/-- The checks of a code, in characters: allowed characters take a byte each. -/
theorem checks_iff {code : String} :
    validLength code = true ∧ validChars code = true ↔
      (2 ≤ code.length ∧ code.length ≤ 12) ∧
        ∀ c ∈ code.toList, c.isUpper = true ∨ c.isDigit = true := by
  simp only [validLength, validChars, Bool.and_eq_true, decide_eq_true_eq, List.all_eq_true,
    Bool.or_eq_true]
  refine and_congr_left fun allowed => ?_
  rw [bytes_of_ascii fun c member => ascii_of_upper_or_digit (allowed c member),
    List.length_map, String.length_toList]

/-- `Currency::new` accepts the valid currencies. -/
theorem new_eq_ok_iff {debug : String → String} {code : String} {exponent : UInt8}
    {currency : Currency} :
    new debug code exponent = .ok currency ↔ currency = { code, exponent } ∧ currency.Valid := by
  have refused : (!validLength code || !validChars code) = true ↔
      ¬ (validLength code = true ∧ validChars code = true) := by
    cases validLength code <;> cases validChars code <;> decide
  unfold new
  constructor
  · intro run
    split_ifs at run with badCode badExponent
    obtain rfl := Except.ok.inj run
    obtain ⟨length, chars⟩ := checks_iff.1 (not_not.1 (mt refused.2 badCode))
    exact ⟨rfl, length, chars, UInt8.not_lt.1 badExponent⟩
  · rintro ⟨rfl, length, chars, exponentOk⟩
    rw [if_neg (fun bad => refused.1 bad (checks_iff.2 ⟨length, chars⟩)),
      if_neg (UInt8.not_lt.2 exponentOk)]

/-- `Currency::new` refuses the others. -/
theorem new_error_iff {debug : String → String} {code : String} {exponent : UInt8} :
    (∃ error, new debug code exponent = .error error) ↔
      ¬ (Currency.mk code exponent).Valid := by
  constructor
  · rintro ⟨error, refused⟩ valid
    have accepted : new debug code exponent = .ok { code, exponent } :=
      new_eq_ok_iff.2 ⟨rfl, valid⟩
    cases accepted.symm.trans refused
  · intro invalid
    cases run : new debug code exponent with
    | error error => exact ⟨error, rfl⟩
    | ok currency =>
      obtain ⟨rfl, valid⟩ := new_eq_ok_iff.1 run
      exact absurd valid invalid

/-! ## The named currencies -/

theorem valid_of_checks {code : String} {exponent : UInt8} (length : validLength code = true)
    (chars : validChars code = true) (exponentOk : exponent ≤ maxExponent) :
    (Currency.mk code exponent).Valid := by
  obtain ⟨bounds, allowed⟩ := checks_iff.1 ⟨length, chars⟩
  exact ⟨bounds, allowed, exponentOk⟩

theorem brl_valid : brl.Valid := valid_of_checks (by decide) (by decide) (by decide)

theorem usd_valid : usd.Valid := valid_of_checks (by decide) (by decide) (by decide)

theorem eur_valid : eur.Valid := valid_of_checks (by decide) (by decide) (by decide)

theorem btc_valid : btc.Valid := valid_of_checks (by decide) (by decide) (by decide)

theorem eth_valid : eth.Valid := valid_of_checks (by decide) (by decide) (by decide)

end Currency

end Pharos

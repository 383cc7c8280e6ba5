import Pharos.Money.Money
import Pharos.Numeric.Decimal
import Pharos.Serde.Struct

/-!
# Serialized currencies and amounts

The derived `Deserialize` of `Currency` fills in the two fields as the document has them, without the
checks of `Currency::new`; that of `Money` reads its amount from a decimal text and its currency in
the same way.
-/

namespace Pharos

open Numeric

namespace Currency

def codeField : Serde.Field String where
  name := "code"
  index := 0
  read := Serde.readString

def exponentField : Serde.Field UInt8 where
  name := "exponent"
  index := 1
  read := Serde.readU8

/-- The derived `Deserialize` of `Currency`. -/
def deserialize (refusesRest : Bool) (document : Serde.Value) : Except Serde.Error Currency := do
  let fields ← Serde.deserializeStruct refusesRest codeField exponentField document
  .ok { code := fields.1, exponent := fields.2 }

end Currency

namespace Money

/-- `amount_as_string::deserialize`. -/
def readAmount (debug : String → String) (value : Serde.Value) : Except Serde.Error I128 := do
  let raw ← Serde.readString value
  match parseSigned 128 raw with
  | some amount => .ok amount
  | none => .error (.custom ("invalid money amount " ++ debug raw))

def amountField (debug : String → String) : Serde.Field I128 where
  name := "amount"
  index := 0
  read := readAmount debug

def currencyField (refusesRest : Bool) : Serde.Field Currency where
  name := "currency"
  index := 1
  read := Currency.deserialize refusesRest

/-- The derived `Deserialize` of `Money`. -/
def deserialize (debug : String → String) (refusesRest : Bool) (document : Serde.Value) :
    Except Serde.Error Money := do
  let fields ←
    Serde.deserializeStruct refusesRest (amountField debug) (currencyField refusesRest) document
  .ok { amount := fields.1, currency := fields.2 }

end Money

/-! ## What is deserialized -/

theorem Currency.fields_apart : codeField.Apart exponentField :=
  Serde.apart_of_ne (by decide) (by decide) (by decide)

theorem Money.fields_apart (debug : String → String) (refusesRest : Bool) :
    (amountField debug).Apart (currencyField refusesRest) := by
  refine Serde.apart_of_ne ?_ ?_ ?_ <;> simp only [amountField, currencyField] <;> decide

/-- A currency is deserialized from the documents that present its fields, valid or not. -/
theorem Currency.deserialize_eq_ok_iff {refusesRest : Bool} {document : Serde.Value}
    {currency : Currency} :
    Currency.deserialize refusesRest document = .ok currency ↔
      Serde.Presents refusesRest codeField exponentField currency.code currency.exponent document := by
  unfold Currency.deserialize
  rw [Serde.bind_eq_ok_iff, ← Serde.deserializeStruct_eq_ok_iff fields_apart]
  constructor
  · rintro ⟨⟨code, exponent⟩, run, same⟩
    obtain rfl := Except.ok.inj same
    exact run
  · exact fun run => ⟨_, run, rfl⟩

/-- An amount is deserialized from the documents that present it, with a currency document in its
place. -/
theorem Money.deserialize_eq_ok_iff {debug : String → String} {refusesRest : Bool}
    {document : Serde.Value} {money : Money} :
    Money.deserialize debug refusesRest document = .ok money ↔
      ∃ nested, Serde.Presents refusesRest (amountField debug) (currencyField refusesRest).raw
        money.amount nested document ∧ Currency.deserialize refusesRest nested = .ok money.currency := by
  unfold Money.deserialize
  rw [Serde.bind_eq_ok_iff]
  constructor
  · rintro ⟨⟨amount, currency⟩, run, same⟩
    obtain rfl := Except.ok.inj same
    exact Serde.presents_iff_raw.1
      ((Serde.deserializeStruct_eq_ok_iff (fields_apart debug refusesRest)).1 run)
  · intro presented
    have run := (Serde.deserializeStruct_eq_ok_iff (fields_apart debug refusesRest)).2
      (Serde.presents_iff_raw.2 presented)
    exact ⟨_, run, rfl⟩

/-! ## Where currencies come from -/

/-- The ways a currency comes into being. -/
inductive CurrencySource
  | new (code : String) (exponent : UInt8)
  | brl
  | usd
  | eur
  | btc
  | eth
  | document (doc : Serde.Value)
  | inMoney (doc : Serde.Value)

namespace CurrencySource

variable (debug : String → String) (refusesRest : Bool)

/-- The currency that is obtained, if one is. -/
def obtained : CurrencySource → Option Currency
  | .new code exponent => (Currency.new debug code exponent).toOption
  | .brl => some Currency.brl
  | .usd => some Currency.usd
  | .eur => some Currency.eur
  | .btc => some Currency.btc
  | .eth => some Currency.eth
  | .document doc => (Currency.deserialize refusesRest doc).toOption
  | .inMoney doc => (Money.deserialize debug refusesRest doc).toOption.map Money.currency

/-- The document presents a code and an exponent that `Currency::new` refuses. -/
def PresentsRefused (doc : Serde.Value) : Prop :=
  ∃ code exponent, Serde.Presents refusesRest Currency.codeField Currency.exponentField code
    exponent doc ∧ ∃ error, Currency.new debug code exponent = .error error

/-- The currency comes from a document, alone or inside an amount, with refused fields. -/
def Unchecked : CurrencySource → Prop
  | .document doc => PresentsRefused debug refusesRest doc
  | .inMoney doc => ∃ amount nested, Serde.Presents refusesRest (Money.amountField debug)
      (Money.currencyField refusesRest).raw amount nested doc ∧
        PresentsRefused debug refusesRest nested
  | _ => False

/-- Whatever is obtained is valid. -/
def YieldsValid (source : CurrencySource) : Prop :=
  ∀ currency : Currency, source.obtained debug refusesRest = some currency → currency.Valid

variable {debug refusesRest}

/-- A document yields an invalid currency exactly when it presents refused fields. -/
theorem presentsRefused_iff {doc : Serde.Value} :
    PresentsRefused debug refusesRest doc ↔
      ∃ currency : Currency, Currency.deserialize refusesRest doc = .ok currency ∧
        ¬ currency.Valid := by
  constructor
  · rintro ⟨code, exponent, presented, refused⟩
    exact ⟨⟨code, exponent⟩, Currency.deserialize_eq_ok_iff.2 presented,
      Currency.new_error_iff.1 refused⟩
  · rintro ⟨⟨code, exponent⟩, run, invalid⟩
    exact ⟨code, exponent, Currency.deserialize_eq_ok_iff.1 run, Currency.new_error_iff.2 invalid⟩

theorem toOption_eq_some_iff {ε α : Type} {x : Except ε α} {a : α} :
    x.toOption = some a ↔ x = .ok a := by
  cases x with
  | error error => exact ⟨nofun, nofun⟩
  | ok b =>
    constructor
    · exact fun same => congrArg _ (Option.some.inj same)
    · exact fun same => congrArg _ (Except.ok.inj same)

theorem yieldsValid_of_eq {source : CurrencySource} {currency : Currency}
    (is : source.obtained debug refusesRest = some currency) (valid : currency.Valid) :
    source.YieldsValid debug refusesRest := by
  intro other obtained
  obtain rfl := Option.some.inj (is.symm.trans obtained)
  exact valid

/-- A currency is valid wherever it comes from, except from a document whose fields `Currency::new`
would refuse. -/
theorem yields_valid_iff (debug : String → String) (refusesRest : Bool) (source : CurrencySource) :
    source.YieldsValid debug refusesRest ↔ ¬ source.Unchecked debug refusesRest := by
  cases source with
  | brl => exact ⟨fun _ => id, fun _ => yieldsValid_of_eq rfl Currency.brl_valid⟩
  | usd => exact ⟨fun _ => id, fun _ => yieldsValid_of_eq rfl Currency.usd_valid⟩
  | eur => exact ⟨fun _ => id, fun _ => yieldsValid_of_eq rfl Currency.eur_valid⟩
  | btc => exact ⟨fun _ => id, fun _ => yieldsValid_of_eq rfl Currency.btc_valid⟩
  | eth => exact ⟨fun _ => id, fun _ => yieldsValid_of_eq rfl Currency.eth_valid⟩
  | new code exponent =>
    refine ⟨fun _ => id, fun _ currency obtained => ?_⟩
    exact (Currency.new_eq_ok_iff.1 (toOption_eq_some_iff.1 obtained)).2
  | document doc =>
    constructor
    · intro valid unchecked
      obtain ⟨currency, run, invalid⟩ := presentsRefused_iff.1 unchecked
      exact invalid (valid currency (toOption_eq_some_iff.2 run))
    · intro checked currency obtained
      by_contra invalid
      exact checked (presentsRefused_iff.2 ⟨currency, toOption_eq_some_iff.1 obtained, invalid⟩)
  | inMoney doc =>
    constructor
    · rintro valid ⟨amount, nested, presented, refused⟩
      obtain ⟨currency, run, invalid⟩ := presentsRefused_iff.1 refused
      have money : Money.deserialize debug refusesRest doc = .ok ⟨amount, currency⟩ :=
        Money.deserialize_eq_ok_iff.2 ⟨nested, presented, run⟩
      refine invalid (valid currency ?_)
      rw [obtained, money]
      rfl
    · intro checked currency obtained
      obtain ⟨money, run, rfl⟩ := Option.map_eq_some_iff.1 obtained
      obtain ⟨nested, presented, nestedRun⟩ :=
        Money.deserialize_eq_ok_iff.1 (toOption_eq_some_iff.1 run)
      by_contra invalid
      exact checked ⟨money.amount, nested, presented,
        presentsRefused_iff.2 ⟨money.currency, nestedRun, invalid⟩⟩

/-- The map of a code of one lower-case letter and an exponent above the maximum. -/
def invalidDocument : Serde.Value :=
  .map [(.name "code", .string "b"), (.name "exponent", .unsigned 39)]

/-- That document is deserialized. -/
theorem invalid_document_obtained :
    ¬ (CurrencySource.document invalidDocument).YieldsValid id true := by
  intro valid
  have run : Currency.deserialize true invalidDocument = .ok ⟨"b", 39⟩ := by
    decide
  have currencyValid := valid ⟨"b", 39⟩ (toOption_eq_some_iff.2 run)
  exact absurd currencyValid.exponent (by decide)

end CurrencySource

end Pharos

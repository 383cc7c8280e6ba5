import Pharos.Numeric.Signed

/-!
# UTC timestamps in milliseconds

`chrono::DateTime<Utc>` as it is documented: a day, a second of the day and a nanosecond of the
second, which goes past the second for a leap second.  The days that can be represented are whole
days, so a timestamp rounded down to the millisecond can be represented as well.
-/

namespace Pharos

open Numeric

/-- `i64`. -/
abbrev I64 := Signed 64

/-- The days of `DateTime<Utc>`, counted from the epoch; their milliseconds fit in an `i64`. -/
structure Calendar where
  firstDay : Int
  lastDay : Int
  first_fits : Fits 64 (firstDay * 86400000)
  last_fits : Fits 64 (lastDay * 86400000 + 86399999)

/-- `chrono::DateTime<Utc>`. -/
structure DateTime (calendar : Calendar) where
  day : Int
  second : Nat
  nano : Nat
  first_le : calendar.firstDay ≤ day
  le_last : day ≤ calendar.lastDay
  second_lt : second < 86400
  nano_lt : nano < 2000000000

namespace DateTime

variable {calendar : Calendar}

@[ext] theorem ext {t u : DateTime calendar} (day : t.day = u.day) (second : t.second = u.second)
    (nano : t.nano = u.nano) : t = u := by
  cases t
  cases u
  cases day
  cases second
  cases nano
  rfl

/-- A leap second is a second with more than its own nanoseconds. -/
def IsLeapSecond (t : DateTime calendar) : Prop := 1000000000 ≤ t.nano

instance (t : DateTime calendar) : Decidable t.IsLeapSecond :=
  inferInstanceAs (Decidable (_ ≤ _))

/-- `timestamp`: the seconds since the epoch. -/
def timestamp (t : DateTime calendar) : Int := t.day * 86400 + t.second

/-- `timestamp_millis`. -/
def timestampMillis (t : DateTime calendar) : I64 :=
  Signed.wrap (t.timestamp * 1000 + (t.nano / 1000000 : Nat))

/-- `from_timestamp`, of seconds and of nanoseconds below one second. -/
def fromTimestamp (calendar : Calendar) (secs : Int) (nanos : Nat) (small : nanos < 1000000000) :
    Option (DateTime calendar) :=
  if inside : calendar.firstDay ≤ secs / 86400 ∧ secs / 86400 ≤ calendar.lastDay then
    some
      { day := secs / 86400
        second := (secs % 86400).toNat
        nano := nanos
        first_le := inside.1
        le_last := inside.2
        second_lt := by omega
        nano_lt := by omega }
  else none

/-- `from_timestamp_millis`: the seconds rounded down, and what is left of them. -/
def fromTimestampMillis (calendar : Calendar) (millis : I64) : Option (DateTime calendar) :=
  fromTimestamp calendar (millis.val / 1000) ((millis.val % 1000).toNat * 1000000) (by omega)

/-- The timestamp rounded down to the millisecond. -/
def roundDown (t : DateTime calendar) : DateTime calendar :=
  { t with
    nano := t.nano / 1000000 * 1000000
    nano_lt := by
      have := t.nano_lt
      omega }

variable {t : DateTime calendar}

theorem not_isLeapSecond_roundDown (regular : ¬ t.IsLeapSecond) : ¬ t.roundDown.IsLeapSecond := by
  unfold IsLeapSecond roundDown at *
  simp only
  omega

theorem roundDown_roundDown : t.roundDown.roundDown = t.roundDown := by
  ext
  · rfl
  · rfl
  · show t.nano / 1000000 * 1000000 / 1000000 * 1000000 = t.nano / 1000000 * 1000000
    omega

theorem timestampMillis_roundDown : t.roundDown.timestampMillis = t.timestampMillis := by
  have same : t.nano / 1000000 * 1000000 / 1000000 = t.nano / 1000000 := by omega
  unfold timestampMillis timestamp roundDown
  simp only [same]

/-- The milliseconds of a timestamp fit. -/
theorem val_timestampMillis (regular : ¬ t.IsLeapSecond) :
    t.timestampMillis.val = t.timestamp * 1000 + (t.nano / 1000000 : Nat) := by
  obtain ⟨lower, -⟩ := calendar.first_fits
  obtain ⟨-, upper⟩ := calendar.last_fits
  have first := t.first_le
  have last := t.le_last
  have second := t.second_lt
  unfold IsLeapSecond at regular
  refine Signed.val_wrap ⟨?_, ?_⟩ <;> unfold timestamp <;> omega

/-- Every timestamp that is not a leap second comes back from its milliseconds, rounded down. -/
theorem fromTimestampMillis_timestampMillis (regular : ¬ t.IsLeapSecond) :
    fromTimestampMillis calendar t.timestampMillis = some t.roundDown := by
  have value := val_timestampMillis regular
  have first := t.first_le
  have last := t.le_last
  have second := t.second_lt
  unfold IsLeapSecond at regular
  unfold timestamp at value
  have day : t.timestampMillis.val / 1000 / 86400 = t.day := by omega
  unfold fromTimestampMillis fromTimestamp
  rw [dif_pos (by omega)]
  congr 1
  ext
  · exact day
  · show (t.timestampMillis.val / 1000 % 86400).toNat = t.second
    omega
  · show (t.timestampMillis.val % 1000).toNat * 1000000 = t.nano / 1000000 * 1000000
    omega

end DateTime

end Pharos

import Mathlib.Algebra.Ring.Nat
import Mathlib.Data.Int.Order.Basic

/-!
# Instants and durations

`DateTime<Utc>` and `chrono::Duration` are signed nanosecond counts and
`std::time::Duration` is an unsigned one.  Instants are unbounded here; the one
range check the sources make themselves, `chrono::Duration::from_std`, is kept.
-/

namespace Pharos

/-- `chrono::DateTime<Utc>`: nanoseconds since the epoch. -/
abbrev Time := ℤ

/-- `chrono::Duration`: signed nanoseconds. -/
abbrev ChronoDuration := ℤ

/-- `std::time::Duration`: unsigned nanoseconds. -/
abbrev Duration := ℕ

/-- `uuid::Uuid`; version 7 ids are compared as 128-bit big-endian numbers. -/
abbrev Uuid := ℕ

/-- `chrono::Duration::MAX`, `i64::MAX` milliseconds. -/
def chronoDurationMax : ℕ := (2 ^ 63 - 1) * 1000000

/-- `chrono::Duration::from_std`: fails on durations `chrono` cannot hold. -/
def fromStd (d : Duration) : Except String ChronoDuration :=
  if d ≤ chronoDurationMax then .ok (d : ℤ)
  else .error "Source duration value is out of range for the target type"

theorem fromStd_ok {d : Duration} {c : ChronoDuration} (h : fromStd d = .ok c) :
    c = (d : ℤ) := by
  unfold fromStd at h
  split at h
  · exact (Except.ok.inj h).symm
  · cases h

end Pharos

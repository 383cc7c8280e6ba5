import Mathlib.Data.Nat.Basic
import Mathlib.Order.Basic

/-!
# Optimistic concurrency on a versioned cell

A cell is empty or holds a value with a version; every write raises the version.
`Later` is the order in which the contents of such a cell can follow each other.
Its use is `Later.eq_of_version_eq`: whoever read a value and later finds its
version unchanged knows that the cell still holds what was read, so a
compare-and-set on the version writes on top of exactly the value it was computed
from, whatever happened in between.
-/

namespace Async

variable {α : Type} (version : α → ℕ)

/-- A cell that held `old` may now hold `new`. -/
def Later : Option α → Option α → Prop
  | none, none => True
  | none, some new => 0 < version new
  | some _, none => False
  | some old, some new => old = new ∨ version old < version new

variable {version}

theorem Later.refl : ∀ cell : Option α, Later version cell cell
  | none => trivial
  | some _ => .inl rfl

theorem Later.trans : ∀ {a b c : Option α}, Later version a b → Later version b c →
    Later version a c
  | none, none, _, _, second => second
  | none, some _, some _, first, .inl rfl => first
  | none, some _, some _, first, .inr raised => Nat.lt_trans first raised
  | some _, some _, some _, .inl rfl, second => second
  | some _, some _, some _, .inr raised, .inl rfl => .inr raised
  | some _, some _, some _, .inr raised, .inr raised' => .inr (Nat.lt_trans raised raised')

/-- An unchanged version means an unchanged value. -/
theorem Later.eq_of_version_eq {old new : α} (later : Later version (some old) (some new))
    (same : version old = version new) : old = new :=
  later.resolve_right (by omega)

theorem Later.of_lt {old new : α} (raised : version old < version new) :
    Later version (some old) (some new) := .inr raised

end Async

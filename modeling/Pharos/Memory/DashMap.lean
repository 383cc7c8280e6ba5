import Mathlib.Algebra.Ring.Nat
import Mathlib.Data.List.AList

/-!
# Concurrent maps

A `DashMap` is a finite map whose per-entry operations are atomic.  Its contents
are an association list with distinct keys; an iteration visits the entries in an
order of the map's own choosing, which every use below takes as an argument that
has to be a permutation of the keys.
-/

namespace Pharos

/-- `dashmap::DashMap<K, V>`. -/
abbrev DashMap (K V : Type) := AList fun _ : K => V

namespace DashMap

variable {K V : Type} [DecidableEq K]

/-- `get(&key)`. -/
def get (m : DashMap K V) (key : K) : Option V := m.lookup key

/-- `insert(key, value)`, also through a vacant or occupied entry or a `get_mut` guard. -/
def put (m : DashMap K V) (key : K) (value : V) : DashMap K V := AList.insert key value m

/-- `remove(&key)`. -/
def remove (m : DashMap K V) (key : K) : DashMap K V := AList.erase key m

@[simp] theorem get_empty (key : K) : get (∅ : DashMap K V) key = none :=
  AList.lookup_empty key

@[simp] theorem get_put_self (m : DashMap K V) (key : K) (value : V) :
    get (put m key value) key = some value :=
  AList.lookup_insert m

theorem get_put_of_ne {m : DashMap K V} {key other : K} {value : V} (distinct : other ≠ key) :
    get (put m key value) other = get m other :=
  AList.lookup_insert_ne distinct

theorem get_put (m : DashMap K V) (key other : K) (value : V) :
    get (put m key value) other = if other = key then some value else get m other := by
  split
  · next same => rw [same, get_put_self]
  · next distinct => exact get_put_of_ne distinct

/-- An entry after a write is the one written, or an old one. -/
theorem get_put_cases {m : DashMap K V} {key other : K} {value found : V}
    (entry : get (put m key value) other = some found) :
    other = key ∧ found = value ∨ other ≠ key ∧ get m other = some found := by
  rw [get_put] at entry
  split at entry
  · next same =>
    cases entry
    exact .inl ⟨same, rfl⟩
  · next distinct => exact .inr ⟨distinct, entry⟩

theorem get_remove (m : DashMap K V) (key other : K) :
    get (remove m key) other = if other = key then none else get m other := by
  split
  · next same =>
    rw [same]
    exact AList.lookup_erase key m
  · next distinct => exact AList.lookup_erase_ne distinct

theorem mem_keys {m : DashMap K V} {key : K} : key ∈ m.keys ↔ ∃ value, get m key = some value := by
  rw [← AList.mem_keys, ← AList.lookup_isSome]
  exact Option.isSome_iff_exists

/-- A property of all entries is a property of those of the finitely many keys. -/
theorem forall_get_iff {m : DashMap K V} {P : K → V → Prop} :
    (∀ key value, get m key = some value → P key value) ↔
      ∀ key ∈ m.keys, ∀ value ∈ get m key, P key value := by
  constructor
  · intro all key _ value found
    exact all key value found
  · intro all key value found
    exact all key (mem_keys.mpr ⟨value, found⟩) value found

instance decidableForallGet (m : DashMap K V) (P : K → V → Prop)
    [∀ key value, Decidable (P key value)] :
    Decidable (∀ key value, get m key = some value → P key value) :=
  decidable_of_iff _ forall_get_iff.symm

/-- The sum of `f` over the values of the map. -/
def total (m : DashMap K V) (f : V → ℕ) : ℕ := (m.entries.map fun entry => f entry.2).sum

/-- Writing an entry exchanges its share of the sum. -/
theorem total_put (m : DashMap K V) (key : K) (value : V) (f : V → ℕ) :
    total (put m key value) f + (get m key).elim 0 f = total m f + f value := by
  have written : (put m key value).entries = ⟨key, value⟩ :: m.entries.kerase key :=
    AList.entries_insert
  by_cases listed : key ∈ m.entries.keys
  · obtain ⟨old, front, back, -, split, erased⟩ := List.exists_of_kerase listed
    have found : get m key = some old := AList.mem_lookup_iff.mpr (by simp [split])
    rw [found]
    unfold total
    rw [written, erased, split]
    simp only [List.map_cons, List.map_append, List.sum_cons, List.sum_append, Option.elim_some]
    omega
  · have absent : get m key = none := AList.lookup_eq_none.mpr listed
    rw [absent]
    unfold total
    rw [written, List.kerase_of_notMem_keys listed]
    simp only [List.map_cons, List.sum_cons, Option.elim_none]
    omega

theorem le_total {m : DashMap K V} {key : K} {value : V} (f : V → ℕ)
    (found : get m key = some value) : f value ≤ total m f := by
  obtain ⟨front, back, split⟩ := List.append_of_mem (AList.mem_lookup_iff.mp found)
  unfold total
  rw [split]
  simp only [List.map_append, List.map_cons, List.sum_append, List.sum_cons]
  omega

end DashMap

end Pharos

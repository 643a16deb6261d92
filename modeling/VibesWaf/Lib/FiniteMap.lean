import Mathlib.Data.Finset.Card
import Mathlib.Data.Finset.Erase
import Mathlib.Data.Finset.Filter
import Mathlib.Data.Finset.Insert
import Mathlib.Data.Finset.Lattice.Lemmas
import Mathlib.Data.Option.Basic

/-!
# Finite maps with a size

A map that is read key by key and asked for the number of its keys: a `FiniteMap` is a partial
function with the set of its keys. Insertion, removal and a pass over all entries are described by
what they do to a single key (`lookup_insert`, `lookup_erase`, `lookup_filterMap`) and to the size.
-/

namespace VibesWaf

/-- A partial function with finitely many keys. -/
structure FiniteMap (κ ν : Type*) where
  keys : Finset κ
  lookup : κ → Option ν
  mem_keys : ∀ k, k ∈ keys ↔ (lookup k).isSome = true

namespace FiniteMap

variable {κ ν : Type*}

/-- A map without keys. -/
def empty : FiniteMap κ ν :=
  ⟨∅, fun _ => none, by simp⟩

/-- The number of keys. -/
def size (m : FiniteMap κ ν) : ℕ :=
  m.keys.card

/-- A map that keeps, changes or drops each entry. -/
def filterMap (m : FiniteMap κ ν) (f : κ → ν → Option ν) : FiniteMap κ ν where
  keys := m.keys.filter fun k => ((m.lookup k).bind (f k)).isSome = true
  lookup k := (m.lookup k).bind (f k)
  mem_keys k := by
    rw [Finset.mem_filter, m.mem_keys, and_iff_right_iff_imp]
    cases m.lookup k <;> simp

variable [DecidableEq κ]

/-- A map with another value for a key. -/
def insert (m : FiniteMap κ ν) (key : κ) (value : ν) : FiniteMap κ ν where
  keys := Insert.insert key m.keys
  lookup k := if k = key then some value else m.lookup k
  mem_keys k := by
    rw [Finset.mem_insert, m.mem_keys]
    split <;> simp [*]

/-- A map without a key. -/
def erase (m : FiniteMap κ ν) (key : κ) : FiniteMap κ ν where
  keys := m.keys.erase key
  lookup k := if k = key then none else m.lookup k
  mem_keys k := by
    rw [Finset.mem_erase, m.mem_keys]
    split <;> simp [*]

/-! ### Keys -/

variable {m m' : FiniteMap κ ν} {key : κ}

omit [DecidableEq κ] in
theorem not_mem_keys : key ∉ m.keys ↔ m.lookup key = none := by
  rw [m.mem_keys, Bool.not_eq_true, Option.isSome_eq_false_iff, Option.isNone_iff_eq_none]

omit [DecidableEq κ] in
/-- Maps with the same entries are the same. -/
@[ext] theorem ext (h : ∀ k, m.lookup k = m'.lookup k) : m = m' := by
  have hlookup : m.lookup = m'.lookup := funext h
  have hkeys : m.keys = m'.keys := by
    ext k
    rw [m.mem_keys, m'.mem_keys, h k]
  obtain ⟨keys, lookup, hmem⟩ := m
  obtain ⟨keys', lookup', hmem'⟩ := m'
  obtain rfl : lookup = lookup' := hlookup
  obtain rfl : keys = keys' := hkeys
  rfl

@[simp] theorem lookup_insert (m : FiniteMap κ ν) (key k : κ) (value : ν) :
    (m.insert key value).lookup k = if k = key then some value else m.lookup k :=
  rfl

@[simp] theorem lookup_erase (m : FiniteMap κ ν) (key k : κ) :
    (m.erase key).lookup k = if k = key then none else m.lookup k :=
  rfl

omit [DecidableEq κ] in
@[simp] theorem lookup_filterMap (m : FiniteMap κ ν) (f : κ → ν → Option ν) (k : κ) :
    (m.filterMap f).lookup k = (m.lookup k).bind (f k) :=
  rfl

/-! ### Sizes -/

theorem size_insert_of_mem (h : key ∈ m.keys) (value : ν) :
    (m.insert key value).size = m.size :=
  congrArg Finset.card (Finset.insert_eq_self.mpr h)

theorem size_insert_of_not_mem (h : key ∉ m.keys) (value : ν) :
    (m.insert key value).size = m.size + 1 :=
  Finset.card_insert_of_notMem h

theorem size_erase_le (m : FiniteMap κ ν) (key : κ) : (m.erase key).size ≤ m.size :=
  Finset.card_le_card (Finset.erase_subset key m.keys)

omit [DecidableEq κ] in
theorem size_filterMap_le (m : FiniteMap κ ν) (f : κ → ν → Option ν) :
    (m.filterMap f).size ≤ m.size :=
  Finset.card_le_card (Finset.filter_subset _ m.keys)

/-- **A bound on the size** outlives an insertion exactly when the key is there or there is
room. -/
theorem size_insert_le_iff {bound : ℕ} (hbound : m.size ≤ bound) (value : ν) :
    (m.insert key value).size ≤ bound ↔ key ∈ m.keys ∨ m.size < bound := by
  by_cases hmem : key ∈ m.keys
  · rw [size_insert_of_mem hmem]
    exact iff_of_true hbound (.inl hmem)
  · rw [size_insert_of_not_mem hmem, or_iff_right hmem]
    exact Nat.succ_le_iff

omit [DecidableEq κ] in
/-- A map with fewer keys is smaller. -/
theorem size_le_of_subset (h : m.keys ⊆ m'.keys) : m.size ≤ m'.size :=
  Finset.card_le_card h

end FiniteMap

end VibesWaf

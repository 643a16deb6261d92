import Mathlib.Data.List.Basic

/-!
# Length-prefixed encodings

A list of fields is written as one list, each field behind a code of its length. All codes have the
same size, and two numbers below the bound have different codes, so a field tells where it ends
whatever it contains. By `lengthPrefixed_inj`, fields below the bound are determined by their
encoding.
-/

namespace VibesWaf

/-- A code of fixed size for the numbers below a bound. -/
structure LengthCode (α : Type*) where
  code : ℕ → List α
  size : ℕ
  bound : ℕ
  length_code : ∀ n, (code n).length = size
  code_inj : ∀ {n m}, n < bound → m < bound → code n = code m → n = m

namespace LengthCode

variable {α : Type*} (c : LengthCode α) {field field' rest rest' : List α}
  {fields fields' : List (List α)}

/-- A field behind the code of its length. -/
def prefixed (field : List α) : List α :=
  c.code field.length ++ field

/-- The fields of a record, one after the other. -/
def lengthPrefixed (fields : List (List α)) : List α :=
  fields.flatMap c.prefixed

theorem lengthPrefixed_cons (field : List α) (fields : List (List α)) :
    c.lengthPrefixed (field :: fields) = c.prefixed field ++ c.lengthPrefixed fields :=
  List.flatMap_cons

/-- **A field and its end** are determined by what is written. -/
theorem prefixed_append_inj (h : field.length < c.bound) (h' : field'.length < c.bound)
    (heq : c.prefixed field ++ rest = c.prefixed field' ++ rest') :
    field = field' ∧ rest = rest' := by
  rw [prefixed, prefixed, List.append_assoc, List.append_assoc] at heq
  obtain ⟨hcode, htail⟩ := List.append_inj heq ((c.length_code _).trans (c.length_code _).symm)
  exact List.append_inj htail (c.code_inj h h' hcode)

/-- A nonempty record has a nonempty encoding. -/
theorem prefixed_append_ne_nil (hsize : c.size ≠ 0) : c.prefixed field ++ rest ≠ [] := by
  intro hnil
  have hlength := congrArg List.length hnil
  rw [prefixed, List.length_append, List.length_append, c.length_code, List.length_nil] at hlength
  omega

/-- **Records are determined by their encodings**. -/
theorem lengthPrefixed_inj (hsize : c.size ≠ 0) (h : ∀ field ∈ fields, field.length < c.bound)
    (h' : ∀ field ∈ fields', field.length < c.bound) :
    c.lengthPrefixed fields = c.lengthPrefixed fields' ↔ fields = fields' := by
  refine ⟨fun heq => ?_, fun heq => heq ▸ rfl⟩
  induction fields generalizing fields' with
  | nil =>
    cases fields' with
    | nil => rfl
    | cons field' fields' =>
      rw [lengthPrefixed_cons] at heq
      exact absurd heq.symm (c.prefixed_append_ne_nil hsize)
  | cons field fields ih =>
    cases fields' with
    | nil =>
      rw [lengthPrefixed_cons] at heq
      exact absurd heq (c.prefixed_append_ne_nil hsize)
    | cons field' fields' =>
      rw [lengthPrefixed_cons, lengthPrefixed_cons] at heq
      rw [List.forall_mem_cons] at h h'
      obtain ⟨hfield, htail⟩ := c.prefixed_append_inj h.1 h'.1 heq
      rw [hfield, ih h.2 h'.2 htail]

end LengthCode

end VibesWaf

import Mathlib.Data.List.Rotate

/-!
# Taking turns

A counter that goes up by one and is read modulo the length of a list goes through the list in
turns. As many consecutive turns as the list is long are a rotation of it, so over some rounds every
entry has its turn once in each, wherever the counter started.
-/

namespace VibesWaf

variable {α : Type*}

/-- The entries of a list at consecutive values of a counter. -/
def turns (l : List α) (start count : ℕ) : List (Option α) :=
  (List.range' start count).map fun i => l[i % l.length]?

theorem turns_succ (l : List α) (start count : ℕ) :
    turns l start (count + 1) = l[start % l.length]? :: turns l (start + 1) count := by
  rw [turns, List.range'_succ, List.map_cons]
  rfl

theorem turns_add (l : List α) (start m n : ℕ) :
    turns l start (m + n) = turns l start m ++ turns l (start + m) n := by
  rw [turns, turns, turns, ← List.map_append, ← List.range'_append_1]

/-- One round is a rotation of the list. -/
theorem turns_round (l : List α) (start : ℕ) :
    turns l start l.length = (l.rotate start).map some := by
  refine List.ext_getElem (by simp [turns]) fun i hi hi' => ?_
  have hlength : i < l.length := by simpa [turns] using hi
  have hmod : (start + i) % l.length < l.length := Nat.mod_lt _ (by omega)
  simp only [turns, List.getElem_map, List.getElem_range', List.getElem_rotate, Nat.one_mul]
  rw [List.getElem?_eq_getElem hmod]
  simp only [Nat.add_comm]

/-- **Some rounds** give every entry its turn in each of them. -/
theorem turns_perm (l : List α) (start k : ℕ) :
    (turns l start (k * l.length)).Perm ((List.replicate k l).flatten.map some) := by
  induction k generalizing start with
  | zero => simp [turns]
  | succ k ih =>
    rw [Nat.add_mul, Nat.one_mul, Nat.add_comm, turns_add, turns_round, List.replicate_succ,
      List.flatten_cons, List.map_append]
    exact ((List.rotate_perm l start).map some).append (ih (start + l.length))

end VibesWaf

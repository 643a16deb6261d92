import Mathlib.Data.List.Basic

/-!
# Records with separators

The fields of a record, joined with a separator between them and split again. A separator inside a
field moves the boundaries: the pieces are those of the fields, one after the other. A first field
without separators is told from the rest whatever the rest is (`append_sep_inj`).
-/

namespace VibesWaf

variable {α : Type*} [BEq α] [LawfulBEq α] {sep : α} {l : List α} {piece : List α}
  {fields : List (List α)}

/-- No piece contains the separator. -/
theorem not_mem_of_mem_splitOn (h : piece ∈ l.splitOn sep) : sep ∉ piece := by
  induction l generalizing piece with
  | nil =>
    rw [List.splitOn_nil, List.mem_singleton] at h
    exact h ▸ List.not_mem_nil
  | cons x l ih =>
    rw [List.splitOn_cons_eq_if_modifyHead] at h
    split at h
    · rcases List.mem_cons.mp h with rfl | h
      · exact List.not_mem_nil
      · exact ih h
    · rename_i hx
      obtain ⟨head, rest, hsplit⟩ := List.exists_cons_of_ne_nil (List.splitOn_ne_nil sep l)
      rw [hsplit, List.modifyHead_cons] at h
      rcases List.mem_cons.mp h with rfl | h
      · rw [List.mem_cons, not_or]
        exact ⟨fun heq => hx (by simp [heq]), ih (hsplit ▸ List.mem_cons_self)⟩
      · exact ih (hsplit ▸ List.mem_cons_of_mem _ h)

/-- A list that is split is longer than its first piece. -/
theorem ne_of_splitOn_cons_cons {second : List α} {rest : List (List α)}
    (h : l.splitOn sep = piece :: second :: rest) : l ≠ piece := by
  rintro rfl
  have hnot : sep ∉ l := not_mem_of_mem_splitOn (h ▸ List.mem_cons_self)
  rw [List.splitOn_eq_singleton hnot] at h
  simp at h

/-- A list in one piece is the piece. -/
theorem eq_of_splitOn_singleton (h : l.splitOn sep = [piece]) : l = piece :=
  calc l = [sep].intercalate (l.splitOn sep) := (List.intercalate_splitOn sep).symm
    _ = piece := by rw [h, List.intercalate_singleton]

/-- **The first piece and the rest** are determined by a record that goes on behind a separator. -/
theorem append_sep_inj {a b u v : List α} (ha : sep ∉ a) (hb : sep ∉ b) :
    a ++ sep :: u = b ++ sep :: v ↔ a = b ∧ u = v := by
  refine ⟨fun h => ?_, fun ⟨hab, huv⟩ => by rw [hab, huv]⟩
  have hsplit := congrArg (List.splitOn sep) h
  rw [List.splitOn_append_cons_self, List.splitOn_append_cons_self, List.splitOn_eq_singleton ha,
    List.splitOn_eq_singleton hb] at hsplit
  obtain rfl := (List.cons.inj hsplit).1
  exact ⟨rfl, (List.cons.inj (List.append_cancel_left h)).2⟩

/-- **The pieces of a record** are those of its fields. -/
theorem splitOn_intercalate_eq_flatMap (h : fields ≠ []) :
    ([sep].intercalate fields).splitOn sep = fields.flatMap (List.splitOn sep) := by
  induction fields with
  | nil => exact absurd rfl h
  | cons field fields ih =>
    rcases fields with _ | ⟨next, fields⟩
    · simp
    · rw [List.intercalate_cons_cons, List.append_assoc, List.singleton_append,
        List.splitOn_append_cons_self, ih (List.cons_ne_nil _ _)]
      exact List.flatMap_cons.symm

end VibesWaf

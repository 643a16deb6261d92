import Mathlib.Data.List.Basic

/-!
# Edits of the first entry that is found

A pass over a list that stops at the first entry it looks for, and puts others in its place.
`exists_first` splits a list there, and the lemmas beside each pass say what it makes of the parts.
-/

namespace VibesWaf

variable {α : Type*}

/-- The first entry that is found is changed; `none` when there is none. -/
def changeFirst (found : α → Bool) (change : α → α) : List α → Option (List α)
  | [] => none
  | x :: l => if found x then some (change x :: l) else (changeFirst found change l).map (x :: ·)

/-- Entries take the place of the first one that is found. -/
def editFirst (found : α → Bool) (edit : α → List α) : List α → List α
  | [] => []
  | x :: l => if found x then edit x ++ l else x :: editFirst found edit l

/-- Nothing is found in a list, or there is a first entry that is. -/
theorem exists_first (found : α → Bool) (l : List α) :
    (∀ x ∈ l, found x = false) ∨
      ∃ front x back, l = front ++ x :: back ∧ (∀ y ∈ front, found y = false) ∧
        found x = true := by
  induction l with
  | nil => exact .inl fun _ hx => absurd hx List.not_mem_nil
  | cons y l ih =>
    cases hy : found y with
    | true => exact .inr ⟨[], y, l, rfl, fun _ hx => absurd hx List.not_mem_nil, hy⟩
    | false =>
      rcases ih with hnone | ⟨front, x, back, rfl, hfront, hx⟩
      · exact .inl (List.forall_mem_cons.mpr ⟨hy, hnone⟩)
      · exact .inr ⟨y :: front, x, back, rfl, List.forall_mem_cons.mpr ⟨hy, hfront⟩, hx⟩

variable {found : α → Bool} {change : α → α} {edit : α → List α} {front back l : List α} {x : α}

theorem changeFirst_of_none (h : ∀ x ∈ l, found x = false) : changeFirst found change l = none := by
  induction l with
  | nil => rfl
  | cons y l ih =>
    obtain ⟨hy, hl⟩ := List.forall_mem_cons.mp h
    rw [changeFirst, if_neg (ne_true_of_eq_false hy), ih hl]
    rfl

theorem changeFirst_append (h : ∀ y ∈ front, found y = false) (hx : found x = true) :
    changeFirst found change (front ++ x :: back) = some (front ++ change x :: back) := by
  induction front with
  | nil => exact if_pos hx
  | cons y front ih =>
    obtain ⟨hy, hfront⟩ := List.forall_mem_cons.mp h
    rw [List.cons_append, changeFirst, if_neg (ne_true_of_eq_false hy), ih hfront]
    rfl

theorem editFirst_of_none (h : ∀ x ∈ l, found x = false) : editFirst found edit l = l := by
  induction l with
  | nil => rfl
  | cons y l ih =>
    obtain ⟨hy, hl⟩ := List.forall_mem_cons.mp h
    rw [editFirst, if_neg (ne_true_of_eq_false hy), ih hl]

theorem editFirst_append (h : ∀ y ∈ front, found y = false) (hx : found x = true) :
    editFirst found edit (front ++ x :: back) = front ++ edit x ++ back := by
  induction front with
  | nil => exact if_pos hx
  | cons y front ih =>
    obtain ⟨hy, hfront⟩ := List.forall_mem_cons.mp h
    rw [List.cons_append, editFirst, if_neg (ne_true_of_eq_false hy), ih hfront]
    rfl

end VibesWaf

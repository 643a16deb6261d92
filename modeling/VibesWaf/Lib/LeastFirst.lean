import Mathlib.Data.Finset.Card
import Mathlib.Data.Finset.Erase
import Mathlib.Data.Finset.SDiff
import Mathlib.Order.Basic

/-!
# What stays when the least goes first

A set loses an element of least key, and then another. `firstLeast` finds one in a single pass over
a list of the elements, in whatever order they come; `Survives` says that what is left of a set is
what came last, and is carried from one removal to the next by `Survives.trans`.
-/

namespace VibesWaf

variable {κ β : Type*} [LinearOrder β] {key : κ → β}

/-! ### One pass -/

/-- The pass that keeps the first element of least key, with the one kept so far. -/
def firstLeast (key : κ → β) : Option κ → List κ → Option κ
  | best, [] => best
  | none, x :: l => firstLeast key (some x) l
  | some best, x :: l => firstLeast key (some (if key x < key best then x else best)) l

/-- A pass that has something keeps the least of it and of the list. -/
private theorem firstLeast_some (key : κ → β) (best : κ) (l : List κ) :
    ∃ x, firstLeast key (some best) l = some x ∧ (x = best ∨ x ∈ l) ∧ key x ≤ key best ∧
      ∀ y ∈ l, key x ≤ key y := by
  induction l generalizing best with
  | nil => exact ⟨best, rfl, .inl rfl, le_rfl, fun _ hy => absurd hy List.not_mem_nil⟩
  | cons z l ih =>
    obtain ⟨x, hx, hmem, hbest, hleast⟩ := ih (if key z < key best then z else best)
    have hle : key (if key z < key best then z else best) ≤ key best ∧
        key (if key z < key best then z else best) ≤ key z := by
      split
      · exact ⟨le_of_lt ‹_›, le_rfl⟩
      · exact ⟨le_rfl, le_of_not_gt ‹_›⟩
    refine ⟨x, hx, ?_, hbest.trans hle.1, List.forall_mem_cons.mpr ⟨hbest.trans hle.2, hleast⟩⟩
    rcases hmem with heq | hmem
    · split at heq
      · exact .inr (heq ▸ List.mem_cons_self)
      · exact .inl heq
    · exact .inr (List.mem_cons_of_mem _ hmem)

/-- **One pass** finds an element of least key, unless there is none. -/
theorem exists_firstLeast (key : κ → β) {l : List κ} (h : l ≠ []) :
    ∃ x ∈ l, firstLeast key none l = some x ∧ ∀ y ∈ l, key x ≤ key y := by
  obtain ⟨z, l, rfl⟩ := List.exists_cons_of_ne_nil h
  obtain ⟨x, hx, hmem, hz, hleast⟩ := firstLeast_some key z l
  exact ⟨x, List.mem_cons.mpr hmem, hx, List.forall_mem_cons.mpr ⟨hz, hleast⟩⟩

/-! ### Removal after removal -/

/-- `t` is what is left of `s` when elements have gone, none of them after one that stays. -/
structure Survives (key : κ → β) (s t : Finset κ) : Prop where
  subset : t ⊆ s
  le : ∀ a ∈ s, a ∉ t → ∀ b ∈ t, key a ≤ key b

namespace Survives

variable {s t u : Finset κ}

theorem refl (key : κ → β) (s : Finset κ) : Survives key s s :=
  ⟨Finset.Subset.refl s, fun _ ha hnot => absurd ha hnot⟩

theorem trans (hst : Survives key s t) (htu : Survives key t u) : Survives key s u := by
  refine ⟨htu.subset.trans hst.subset, fun a ha hnot b hb => ?_⟩
  by_cases hat : a ∈ t
  · exact htu.le a hat hnot b hb
  · exact hst.le a ha hat b (htu.subset hb)

/-- Only the keys of the elements count. -/
theorem congr {key' : κ → β} (h : Survives key s t) (hkey : ∀ a ∈ s, key' a = key a) :
    Survives key' s t := by
  refine ⟨h.subset, fun a ha hnot b hb => ?_⟩
  rw [hkey a ha, hkey b (h.subset hb)]
  exact h.le a ha hnot b hb

/-- An element of least key may go. -/
theorem erase [DecidableEq κ] {x : κ} (hleast : ∀ y ∈ s, key x ≤ key y) :
    Survives key s (s.erase x) := by
  refine ⟨Finset.erase_subset x s, fun a ha hnot b hb => ?_⟩
  obtain rfl : a = x := by
    by_contra hne
    exact hnot (Finset.mem_erase.mpr ⟨hne, ha⟩)
  exact hleast b (Finset.mem_of_mem_erase hb)

end Survives

end VibesWaf

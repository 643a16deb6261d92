import Mathlib.Data.Nat.Init
import Mathlib.Data.List.Infix

/-!
# Histories

The states that a system has been in, the oldest first. A history only grows, and what is seen late
is judged by it: a state from some number on has what is asked of it.
-/

namespace VibesWaf

variable {σ : Type*} {history history' : List σ} {n v : ℕ} {s : σ}

/-- A longer history has the states of a shorter one. -/
theorem getElem?_of_prefix (h : history[v]? = some s) (hpre : history <+: history') :
    history'[v]? = some s := by
  obtain ⟨hv, rfl⟩ := List.getElem?_eq_some_iff.mp h
  exact List.prefix_iff_getElem?.mp hpre v hv

/-- The state of a number is one from any earlier number on. -/
theorem mem_drop_of_getElem? (h : history[v]? = some s) (hle : n ≤ v) : s ∈ history.drop n := by
  refine List.mem_of_getElem? (i := v - n) ?_
  rw [List.getElem?_drop, Nat.add_sub_cancel' hle, h]

/-- **What the later states keep** is had by a state from their number on. -/
theorem exists_mem_drop {P : σ → Prop} (hv : history[v]? = some s) (hs : P s)
    (hkeep : ∀ p ≤ n, v < p → ∃ s ∈ history[p - 1]?, ∃ s' ∈ history[p]?, P s → P s') :
    ∃ s ∈ history.drop n, P s := by
  by_cases hle : n ≤ v
  · exact ⟨s, mem_drop_of_getElem? hv hle, hs⟩
  · have hreach : ∀ p, v ≤ p → p ≤ n → ∃ s ∈ history[p]?, P s := by
      intro p hp
      induction p, hp using Nat.le_induction with
      | base => exact fun _ => ⟨s, hv, hs⟩
      | succ p hp ih =>
        intro hpn
        obtain ⟨r, hr, hrP⟩ := ih (by omega)
        obtain ⟨r', hr', s', hs', hstep⟩ := hkeep (p + 1) hpn (by omega)
        rw [Nat.add_sub_cancel] at hr'
        obtain rfl := Option.mem_unique hr hr'
        exact ⟨s', hs', hstep hrP⟩
    obtain ⟨s', hs', hP⟩ := hreach n (by omega) (Nat.le_refl n)
    exact ⟨s', mem_drop_of_getElem? hs' (Nat.le_refl n), hP⟩

end VibesWaf

import Mathlib.Algebra.Order.Archimedean.Basic
import Mathlib.Data.List.Sort
import Mathlib.Data.Rat.Floor

/-!
# Nearest ranks

The `p`-th percentile of some samples, by the method of the nearest rank: the smallest sample that
at least a fraction `p` of the samples do not exceed. In the sorted list it is the element of rank
`⌈N p⌉`, counted from one.
-/

namespace VibesWaf

variable {α : Type*} [LinearOrder α]

/-- The number of samples that do not exceed a bound. -/
def countUpTo (samples : List α) (x : α) : ℕ :=
  samples.countP (· ≤ x)

/-- The smallest sample that at least a fraction `p` of the samples do not exceed. -/
structure IsNearestRank (p : ℚ) (samples : List α) (x : α) : Prop where
  mem : x ∈ samples
  fraction : samples.length * p ≤ countUpTo samples x
  least : ∀ y ∈ samples, samples.length * p ≤ countUpTo samples y → x ≤ y

/-- The rank of the percentile, counted from one. -/
def nearestRank (p : ℚ) (n : ℕ) : ℕ :=
  ⌈(n * p : ℚ)⌉₊

theorem nearestRank_pos {p : ℚ} (hp : 0 < p) {n : ℕ} (hn : 0 < n) : 0 < nearestRank p n :=
  Nat.ceil_pos.mpr (mul_pos (Nat.cast_pos.mpr hn) hp)

theorem nearestRank_le {p : ℚ} (hp : p ≤ 1) (n : ℕ) : nearestRank p n ≤ n := by
  refine Nat.ceil_le.mpr ?_
  have hn : (0 : ℚ) ≤ n := Nat.cast_nonneg n
  calc (n * p : ℚ) ≤ n * 1 := mul_le_mul_of_nonneg_left hp hn
    _ = n := mul_one _

/-- In a sorted list, more than `k` elements are within a bound exactly if the one at `k` is. -/
theorem lt_countUpTo_iff {sorted : List α} (hsorted : sorted.Pairwise (· ≤ ·)) (x : α) {k : ℕ}
    (hk : k < sorted.length) : k < countUpTo sorted x ↔ sorted[k] ≤ x := by
  induction sorted generalizing k with
  | nil => exact absurd hk (Nat.not_lt_zero k)
  | cons a rest ih =>
    rw [List.pairwise_cons] at hsorted
    obtain ⟨hleast, hrest⟩ := hsorted
    by_cases ha : a ≤ x
    · have hcount : countUpTo (a :: rest) x = countUpTo rest x + 1 :=
        List.countP_cons_of_pos (decide_eq_true ha)
      cases k with
      | zero => simp [hcount, ha]
      | succ k =>
        rw [hcount, Nat.add_lt_add_iff_right, List.getElem_cons_succ]
        exact ih hrest (Nat.lt_of_succ_lt_succ hk)
    · have hnone : countUpTo (a :: rest) x = 0 := by
        rw [countUpTo, List.countP_eq_zero]
        intro y hy
        rw [decide_eq_true_eq]
        rcases List.mem_cons.mp hy with rfl | hy
        · exact ha
        · exact fun hle => ha ((hleast y hy).trans hle)
      rw [hnone]
      refine iff_of_false (Nat.not_lt_zero k) fun hle => ha ?_
      cases k with
      | zero => exact hle
      | succ k => exact (hleast _ (List.getElem_mem (Nat.lt_of_succ_lt_succ hk))).trans hle

/-- **The nearest rank** is an element of the sorted list. -/
theorem isNearestRank_iff {p : ℚ} (hp : 0 < p) (hp' : p ≤ 1) {samples sorted : List α}
    (hperm : sorted.Perm samples) (hsorted : sorted.Pairwise (· ≤ ·)) (hne : samples ≠ []) (x : α) :
    IsNearestRank p samples x ↔ sorted[nearestRank p samples.length - 1]? = some x := by
  have hlength : sorted.length = samples.length := hperm.length_eq
  have hpos := nearestRank_pos hp (List.length_pos_iff.mpr hne)
  have hle := nearestRank_le hp' samples.length
  have hk : nearestRank p samples.length - 1 < sorted.length := by omega
  have hfraction : ∀ y, (samples.length * p : ℚ) ≤ countUpTo samples y ↔
      sorted[nearestRank p samples.length - 1] ≤ y := by
    intro y
    have hcount : countUpTo samples y = countUpTo sorted y := (hperm.countP_eq _).symm
    rw [← Nat.ceil_le, hcount, ← lt_countUpTo_iff hsorted y hk, ← nearestRank]
    omega
  have hmem : sorted[nearestRank p samples.length - 1] ∈ samples :=
    hperm.mem_iff.mp (List.getElem_mem hk)
  rw [List.getElem?_eq_getElem hk, Option.some_inj]
  constructor
  · intro h
    exact le_antisymm ((hfraction x).mp h.fraction) (h.least _ hmem ((hfraction _).mpr le_rfl))
  · rintro rfl
    exact ⟨hmem, (hfraction _).mpr le_rfl, fun y _ hy => (hfraction y).mp hy⟩

end VibesWaf

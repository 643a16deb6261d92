import VibesWaf.RateLimit.TokenBucket

/-!
# Rounded tokens

Tokens and rates are `float64`, and so are the seconds between two calls. The numbers of a limiter
are far from the ends of that format: a capacity is below `2 ^ 63`, so is the inverse of a rate, and
no two times are more than `2 ^ 63` nanoseconds apart. So nothing overflows or loses digits at the
low end, and `Rounding.roundTo 53` is the rounding of the format.

`durationSeconds` splits a duration into whole seconds and the rest, and rounds their sum. Rounding
does not change the order of two durations (`durationSeconds_saturate_mono`).
-/

namespace VibesWaf

open Rounding

/-! ### The numbers -/

/-- `time.Time.Sub` keeps the difference of two times within a `time.Duration`. -/
def saturate (d : ℤ) : ℤ :=
  max (-2 ^ 63) (min d (2 ^ 63 - 1))

/-- `time.Duration.Seconds`. -/
def durationSeconds (d : ℤ) : ℚ :=
  roundTo 53 (roundTo 53 (d.tdiv 1000000000 : ℚ) +
    roundTo 53 (roundTo 53 (d.tmod 1000000000 : ℚ) / 1000000000))

theorem durationSeconds_neg (d : ℤ) : durationSeconds (-d) = -durationSeconds d := by
  rw [durationSeconds, durationSeconds, Int.neg_tdiv, Int.neg_tmod, Int.cast_neg, Int.cast_neg,
    roundTo_neg, roundTo_neg, neg_div, roundTo_neg, ← neg_add, roundTo_neg]

theorem durationSeconds_zero : durationSeconds 0 = 0 := by
  simp [durationSeconds]

private theorem durationSeconds_natCast (n : ℕ) : durationSeconds n =
    roundTo 53 (roundTo 53 ((n / 1000000000 : ℕ) : ℚ) +
      roundTo 53 (roundTo 53 ((n % 1000000000 : ℕ) : ℚ) / 1000000000)) := by
  have hdiv : (n : ℤ).tdiv 1000000000 = (n / 1000000000 : ℕ) := rfl
  have hmod : (n : ℤ).tmod 1000000000 = (n % 1000000000 : ℕ) := rfl
  rw [durationSeconds, hdiv, hmod, Int.cast_natCast, Int.cast_natCast]

private theorem durationSeconds_natCast_nonneg (n : ℕ) : 0 ≤ durationSeconds n := by
  have hround : ∀ {x : ℚ}, 0 ≤ x → 0 ≤ roundTo 53 x := fun {x} hx => by
    rw [← roundTo_zero 53]
    exact roundTo_mono (by decide) hx
  rw [durationSeconds_natCast]
  refine hround (add_nonneg (hround (Nat.cast_nonneg _)) (hround (div_nonneg ?_ (by norm_num))))
  exact hround (Nat.cast_nonneg _)

private theorem durationSeconds_natCast_mono {n m : ℕ} (hnm : n ≤ m) (hm : m ≤ 2 ^ 63) :
    durationSeconds n ≤ durationSeconds m := by
  have hround : Monotone (roundTo 53 : ℚ → ℚ) := roundTo_mono (by decide)
  have hlow : ∀ k : ℕ, 0 ≤ roundTo 53 (roundTo 53 ((k % 1000000000 : ℕ) : ℚ) / 1000000000) ∧
      roundTo 53 (roundTo 53 ((k % 1000000000 : ℕ) : ℚ) / 1000000000) ≤ 1 := by
    intro k
    have hless : k % 1000000000 < 1000000000 := Nat.mod_lt _ (by norm_num)
    have hless' : ((k % 1000000000 : ℕ) : ℚ) ≤ 1000000000 := by exact_mod_cast hless.le
    rw [roundTo_natCast (hless.trans (by norm_num))]
    constructor
    · rw [← roundTo_zero 53]
      exact hround (div_nonneg (Nat.cast_nonneg _) (by norm_num))
    · have hone : roundTo 53 (1 : ℚ) = 1 := by
        exact_mod_cast roundTo_natCast (K := ℚ) (n := 1) (p := 53) (by norm_num)
      rw [← hone]
      exact hround ((div_le_one (by norm_num)).mpr hless')
  rw [durationSeconds_natCast, durationSeconds_natCast]
  apply hround
  rcases (Nat.div_le_div_right (c := 1000000000) hnm).lt_or_eq with hlt | heq
  · -- a whole second more outweighs what is left of the second
    have hm' : m / 1000000000 < 2 ^ 53 := by omega
    rw [roundTo_natCast (hlt.trans hm'), roundTo_natCast hm']
    have hnext : ((n / 1000000000 : ℕ) : ℚ) + 1 ≤ ((m / 1000000000 : ℕ) : ℚ) := by
      exact_mod_cast Nat.succ_le_of_lt hlt
    linarith [(hlow n).2, (hlow m).1]
  · have hrest : n % 1000000000 ≤ m % 1000000000 := by omega
    rw [heq]
    refine add_le_add_right (hround (div_le_div_of_nonneg_right (hround ?_) (by norm_num))) _
    exact_mod_cast hrest

/-- **The seconds grow with the duration.** -/
theorem durationSeconds_saturate_mono {d e : ℤ} (hde : d ≤ e) :
    durationSeconds (saturate d) ≤ durationSeconds (saturate e) := by
  have hle : saturate d ≤ saturate e := by
    rw [saturate, saturate]
    omega
  have hlow : -2 ^ 63 ≤ saturate d := le_max_left _ _
  have hhigh : saturate e ≤ 2 ^ 63 := by
    rw [saturate]
    omega
  generalize saturate d = d at *
  generalize saturate e = e at *
  rcases le_or_gt 0 d with hd | hd
  · lift e to ℕ using hd.trans hle
    lift d to ℕ using hd
    exact durationSeconds_natCast_mono (by omega) (by omega)
  · obtain ⟨n, hn⟩ := Int.eq_ofNat_of_zero_le (neg_nonneg.mpr hd.le)
    have hneg : durationSeconds d = -durationSeconds n := by
      rw [← hn, durationSeconds_neg, neg_neg]
    rcases le_or_gt 0 e with he | he
    · obtain ⟨m, rfl⟩ := Int.eq_ofNat_of_zero_le he
      rw [hneg]
      exact (neg_nonpos.mpr (durationSeconds_natCast_nonneg n)).trans
        (durationSeconds_natCast_nonneg m)
    · obtain ⟨m, hm⟩ := Int.eq_ofNat_of_zero_le (neg_nonneg.mpr he.le)
      have hneg' : durationSeconds e = -durationSeconds m := by
        rw [← hm, durationSeconds_neg, neg_neg]
      rw [hneg, hneg']
      exact neg_le_neg (durationSeconds_natCast_mono (by omega) (by omega))

/-- The numbers of the limiter. On some processors a product is not rounded before it is added. -/
@[reducible] def Numbers.float64 (fused : Bool) : Numbers where
  toArithmetic := .float64 fused
  seconds d := durationSeconds (saturate d)
  seconds_mono := durationSeconds_saturate_mono
  seconds_zero := durationSeconds_zero

end VibesWaf

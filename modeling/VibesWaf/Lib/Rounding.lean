import Mathlib.Data.Int.Log
import Mathlib.Data.Rat.Floor

/-!
# Rounding

`roundTo p` rounds to the nearest number with `p` binary digits, and to the one whose last digit is
even when two are nearest. The exponent has no bounds: where a format has some, this is its rounding
for the numbers in between. Rounding is monotone, and it leaves the naturals below `2 ^ p` alone.

An `Arithmetic` is what a computation with rounded numbers may rely on. `Arithmetic.exact` does not
round, and `Arithmetic.float64` rounds to 53 digits.
-/

namespace Rounding

section Field

variable {K : Type*} [Field K] [LinearOrder K] [IsStrictOrderedRing K] [FloorRing K]

/-! ### The nearest integer -/

/-- The nearest integer, and the even one of two. -/
def roundEven (x : K) : ℤ :=
  if Int.fract x < 1 - Int.fract x ∨ Int.fract x = 1 - Int.fract x ∧ Even ⌊x⌋ then ⌊x⌋
  else ⌊x⌋ + 1

omit [IsStrictOrderedRing K] in
theorem floor_le_roundEven (x : K) : ⌊x⌋ ≤ roundEven x := by
  rw [roundEven]
  split
  · exact le_rfl
  · exact Int.le_add_one le_rfl

omit [IsStrictOrderedRing K] in
theorem roundEven_le_floor (x : K) : roundEven x ≤ ⌊x⌋ + 1 := by
  rw [roundEven]
  split
  · exact Int.le_add_one le_rfl
  · exact le_rfl

theorem roundEven_intCast (n : ℤ) : roundEven (n : K) = n := by
  rw [roundEven, Int.fract_intCast, Int.floor_intCast, if_pos (.inl (by norm_num))]

theorem roundEven_mono {x y : K} (hxy : x ≤ y) : roundEven x ≤ roundEven y := by
  rcases (Int.floor_mono hxy).lt_or_eq with hlt | heq
  · exact (roundEven_le_floor x).trans ((Int.add_one_le_of_lt hlt).trans (floor_le_roundEven y))
  · -- between two integers a greater fraction is not rounded down if a smaller one is not
    have hfract : Int.fract x ≤ Int.fract y := by
      rw [Int.fract, Int.fract, heq]
      exact sub_le_sub_right hxy _
    rw [roundEven, roundEven, heq]
    split
    · split
      · exact le_rfl
      · exact Int.le_add_one le_rfl
    · rename_i hup
      rw [if_neg]
      rintro (hlow | ⟨htie, heven⟩)
      · exact hup (.inl (by linarith))
      · rcases hfract.lt_or_eq with hless | hsame
        · exact hup (.inl (by linarith))
        · exact hup (.inr ⟨by linarith, heven⟩)

/-- Rounding is symmetric. -/
theorem roundEven_neg (x : K) : roundEven (-x) = -roundEven x := by
  by_cases hint : Int.fract x = 0
  · have hx : x = (⌊x⌋ : ℤ) := by
      rw [Int.fract] at hint
      exact sub_eq_zero.mp hint
    rw [hx, ← Int.cast_neg, roundEven_intCast, roundEven_intCast]
  · have hfract : Int.fract (-x) = 1 - Int.fract x := Int.fract_neg hint
    have hfloor : ⌊-x⌋ = -⌊x⌋ - 1 := by
      have hsum : ((⌊-x⌋ : ℤ) : K) = ((-⌊x⌋ - 1 : ℤ) : K) := by
        have hleft := Int.floor_add_fract (-x)
        have hright := Int.floor_add_fract x
        rw [hfract] at hleft
        push_cast
        linarith
      exact Int.cast_injective hsum
    have heven : Even (-⌊x⌋ - 1) ↔ ¬ Even ⌊x⌋ := by
      rw [Int.even_sub_one, even_neg]
    rw [roundEven, roundEven, hfract, hfloor]
    rcases lt_trichotomy (Int.fract x) (1 / 2) with hlow | htie | hhigh
    · rw [if_neg (by rintro (h | ⟨h, -⟩) <;> linarith), if_pos (.inl (by linarith))]
      omega
    · have hhalf : (1 : K) - 1 / 2 = 1 / 2 := by ring
      simp only [htie, hhalf, lt_irrefl, false_or, true_and, heven]
      by_cases h : Even ⌊x⌋
      · rw [if_neg (not_not.mpr h), if_pos h]
        omega
      · rw [if_pos h, if_neg h]
        omega
    · rw [if_pos (.inl (by linarith)), if_neg (by rintro (h | ⟨h, -⟩) <;> linarith)]
      omega

/-! ### Some binary digits -/

/-- The weight of the last of `p` digits of a number. -/
def ulp (p : ℕ) (x : K) : K :=
  ((2 : ℕ) : K) ^ (Int.log 2 |x| + 1 - p)

/-- The nearest number with `p` digits. -/
def roundTo (p : ℕ) (x : K) : K :=
  roundEven (x / ulp p x) * ulp p x

variable {p : ℕ} {x y : K}

theorem ulp_pos (p : ℕ) (x : K) : 0 < ulp p x :=
  zpow_pos (Nat.cast_pos.mpr two_pos) _

theorem ulp_of_pos (hx : 0 < x) : ulp p x = 2 ^ (Int.log 2 x + 1 - p) := by
  rw [ulp, abs_of_pos hx, Nat.cast_ofNat]

theorem roundTo_neg (p : ℕ) (x : K) : roundTo p (-x) = -roundTo p x := by
  have hulp : ulp p (-x) = ulp p x := by rw [ulp, ulp, abs_neg]
  rw [roundTo, roundTo, hulp, neg_div, roundEven_neg, Int.cast_neg, neg_mul]

@[simp] theorem roundTo_zero (p : ℕ) : roundTo p (0 : K) = 0 := by
  have hzero : roundEven (0 : K) = 0 := by simpa using roundEven_intCast (K := K) 0
  rw [roundTo, zero_div, hzero, Int.cast_zero, zero_mul]

/-- A number with `p` digits is left alone. -/
theorem roundTo_of_multiple {n : ℤ} (h : x = n * ulp p x) : roundTo p x = x := by
  have hquotient : x / ulp p x = n := by
    rw [div_eq_iff (ulp_pos p x).ne']
    exact h
  rw [roundTo, hquotient, roundEven_intCast, ← h]

/-- **Rounding stays between two powers of two.** -/
theorem roundTo_bounds (hp : 0 < p) (hx : 0 < x) :
    2 ^ Int.log 2 x ≤ roundTo p x ∧ roundTo p x ≤ 2 ^ (Int.log 2 x + 1) := by
  have hlow : (2 : K) ^ Int.log 2 x = (2 ^ (p - 1) : ℤ) * ulp p x := by
    have hexponent : Int.log 2 x = ((p - 1 : ℕ) : ℤ) + (Int.log 2 x + 1 - p) := by omega
    rw [ulp_of_pos hx, Int.cast_pow, Int.cast_ofNat, ← zpow_natCast, ← zpow_add₀ two_ne_zero,
      ← hexponent]
  have hhigh : (2 : K) ^ (Int.log 2 x + 1) = (2 ^ p : ℤ) * ulp p x := by
    have hexponent : Int.log 2 x + 1 = (p : ℤ) + (Int.log 2 x + 1 - p) := by omega
    rw [ulp_of_pos hx, Int.cast_pow, Int.cast_ofNat, ← zpow_natCast, ← zpow_add₀ two_ne_zero,
      ← hexponent]
  have hself : (2 : K) ^ Int.log 2 x ≤ x := by
    exact_mod_cast Int.zpow_log_le_self one_lt_two hx
  have hnext : x < (2 : K) ^ (Int.log 2 x + 1) := by
    exact_mod_cast Int.lt_zpow_succ_log_self one_lt_two x
  have hulp := ulp_pos p x
  constructor
  · rw [hlow, roundTo]
    refine mul_le_mul_of_nonneg_right (Int.cast_le.mpr ?_) hulp.le
    rw [← roundEven_intCast (K := K) (2 ^ (p - 1))]
    exact roundEven_mono ((le_div_iff₀ hulp).mpr (hlow ▸ hself))
  · rw [hhigh, roundTo]
    refine mul_le_mul_of_nonneg_right (Int.cast_le.mpr ?_) hulp.le
    rw [← roundEven_intCast (K := K) (2 ^ p)]
    exact roundEven_mono ((div_le_iff₀ hulp).mpr (hhigh ▸ hnext.le))

theorem roundTo_pos (hp : 0 < p) (hx : 0 < x) : 0 < roundTo p x :=
  (zpow_pos two_pos _).trans_le (roundTo_bounds hp hx).1

private theorem roundTo_le_of_pos (hp : 0 < p) (hx : 0 < x) (hxy : x ≤ y) :
    roundTo p x ≤ roundTo p y := by
  have hy := hx.trans_le hxy
  rcases (Int.log_mono_right (b := 2) hx hxy).lt_or_eq with hlt | heq
  · calc roundTo p x ≤ 2 ^ (Int.log 2 x + 1) := (roundTo_bounds hp hx).2
      _ ≤ 2 ^ Int.log 2 y := zpow_le_zpow_right₀ one_le_two (Int.add_one_le_of_lt hlt)
      _ ≤ roundTo p y := (roundTo_bounds hp hy).1
  · have hulp : ulp p x = ulp p y := by rw [ulp_of_pos hx, ulp_of_pos hy, heq]
    rw [roundTo, roundTo, hulp]
    refine mul_le_mul_of_nonneg_right (Int.cast_le.mpr (roundEven_mono ?_)) (ulp_pos p y).le
    exact div_le_div_of_nonneg_right hxy (ulp_pos p y).le

/-- **Rounding is monotone.** -/
theorem roundTo_mono (hp : 0 < p) : Monotone (roundTo p : K → K) := by
  intro x y hxy
  rcases lt_trichotomy x 0 with hx | rfl | hx
  · rcases lt_trichotomy y 0 with hy | rfl | hy
    · have hneg := roundTo_le_of_pos hp (neg_pos.mpr hy) (neg_le_neg hxy)
      rw [roundTo_neg, roundTo_neg] at hneg
      exact neg_le_neg_iff.mp hneg
    · have hneg := roundTo_pos hp (neg_pos.mpr hx)
      rw [roundTo_neg] at hneg
      rw [roundTo_zero]
      exact (neg_pos.mp hneg).le
    · have hneg := roundTo_pos hp (neg_pos.mpr hx)
      rw [roundTo_neg] at hneg
      exact (neg_pos.mp hneg).le.trans (roundTo_pos hp hy).le
  · rcases hxy.lt_or_eq with hy | rfl
    · rw [roundTo_zero]
      exact (roundTo_pos hp hy).le
    · exact le_rfl
  · exact roundTo_le_of_pos hp hx hxy

/-- Small naturals have few digits. -/
theorem roundTo_natCast {n : ℕ} (hn : n < 2 ^ p) : roundTo p (n : K) = n := by
  rcases Nat.eq_zero_or_pos n with rfl | hpos
  · rw [Nat.cast_zero, roundTo_zero]
  · have hn' : (0 : K) < n := Nat.cast_pos.mpr hpos
    have hlog : Nat.log 2 n + 1 ≤ p := Nat.log_lt_of_lt_pow hpos.ne' hn
    refine roundTo_of_multiple (n := (n * 2 ^ (p - (Nat.log 2 n + 1)) : ℕ)) ?_
    have hexponent : ((p - (Nat.log 2 n + 1) : ℕ) : ℤ) + ((Nat.log 2 n : ℤ) + 1 - p) = 0 := by
      omega
    rw [ulp_of_pos hn', Int.log_natCast, Int.cast_natCast, Nat.cast_mul, Nat.cast_pow,
      Nat.cast_ofNat, mul_assoc, ← zpow_natCast, ← zpow_add₀ two_ne_zero, hexponent, zpow_zero,
      mul_one]

end Field

/-! ### Arithmetics -/

/-- How an arithmetic rounds: it is monotone, keeps the naturals that have 53 digits, and rounds
nothing positive to zero. -/
class Arithmetic where
  round : ℚ → ℚ
  /-- A product that is added to something is not rounded before. -/
  fused : Bool
  mono : Monotone round
  round_natCast : ∀ {n : ℕ}, n < 2 ^ 53 → round n = n
  round_pos : ∀ {x : ℚ}, 0 < x → 0 < round x

namespace Arithmetic

/-- Nothing is rounded. -/
@[reducible] def exact : Arithmetic where
  round x := x
  fused := false
  mono := monotone_id
  round_natCast _ := rfl
  round_pos h := h

/-- The numbers of `float64`. -/
@[reducible] def float64 (fused : Bool) : Arithmetic where
  round := roundTo 53
  fused := fused
  mono := roundTo_mono (by decide)
  round_natCast h := roundTo_natCast h
  round_pos h := roundTo_pos (by decide) h

variable [Arithmetic] {t x y z : ℚ}

@[simp] theorem round_zero : round 0 = 0 := by
  exact_mod_cast round_natCast (n := 0) (by decide)

@[simp] theorem round_one : round 1 = 1 := by
  exact_mod_cast round_natCast (n := 1) (by decide)

theorem round_nonneg (h : 0 ≤ x) : 0 ≤ round x := by
  rw [← round_zero]
  exact mono h

/-- `t + x * y`. -/
def addMul (t x y : ℚ) : ℚ :=
  if fused then round (t + x * y) else round (t + round (x * y))

theorem addMul_mono {t' x' : ℚ} (ht : t ≤ t') (hx : x ≤ x') (hy : 0 ≤ y) :
    addMul t x y ≤ addMul t' x' y := by
  have hproduct : x * y ≤ x' * y := mul_le_mul_of_nonneg_right hx hy
  rw [addMul, addMul]
  split
  · exact mono (add_le_add ht hproduct)
  · exact mono (add_le_add ht (mono hproduct))

theorem addMul_nonneg (ht : 0 ≤ t) (hx : 0 ≤ x) (hy : 0 ≤ y) : 0 ≤ addMul t x y := by
  have hzero : addMul 0 0 y = 0 := by
    rw [addMul]
    split <;> simp
  rw [← hzero]
  exact addMul_mono ht hx hy

end Arithmetic

end Rounding

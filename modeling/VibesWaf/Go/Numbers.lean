import Mathlib.Data.Rat.Floor

/-!
# Conversions of numbers

The conversion `int(x)` of a floating-point number, on exact rationals: it drops the fraction.
-/

namespace VibesWaf

/-- The conversion of a number to an integer, toward zero. -/
def truncate (q : ℚ) : ℤ :=
  if 0 ≤ q then ⌊q⌋ else ⌈q⌉

theorem truncate_intCast (n : ℤ) : truncate n = n := by
  rw [truncate, Int.floor_intCast, Int.ceil_intCast, ite_self]

theorem truncate_mono {a b : ℚ} (hab : a ≤ b) : truncate a ≤ truncate b := by
  rw [truncate, truncate]
  split <;> split
  · exact Int.floor_mono hab
  · rename_i ha hb
    exact absurd (ha.trans hab) hb
  · rename_i ha hb
    have hneg : ⌈a⌉ ≤ 0 := Int.ceil_le.mpr (by simpa using (not_le.mp ha).le)
    exact hneg.trans (Int.floor_nonneg.mpr hb)
  · exact Int.ceil_mono hab

end VibesWaf

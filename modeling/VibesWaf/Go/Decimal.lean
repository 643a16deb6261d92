import VibesWaf.Go.Strings

/-!
# Decimal text is read back

What `strconv.Itoa` and `%d` print is what `strconv.ParseInt` reads: `decimal_natText` for natural
numbers and `parseInt64_itoa` for the integers of 64 bits, the most negative one included.
-/

namespace VibesWaf

private theorem digit_val : ∀ d < 10, isDigit (0x30 + UInt8.ofNat d) = true ∧
    ((0x30 : UInt8) + UInt8.ofNat d).toNat - 0x30 = d := by
  decide

/-- The text of a number is made of digits. -/
theorem natText_isDigit (n : ℕ) : ∀ c ∈ natText n, isDigit c = true := by
  intro c hc
  rw [natText] at hc
  split at hc
  · obtain rfl := List.mem_singleton.mp hc
    rfl
  · obtain ⟨d, hd, rfl⟩ := List.mem_map.mp hc
    exact (digit_val d (Nat.digits_lt_base (by decide) (List.mem_reverse.mp hd))).1

theorem natText_ne_nil (n : ℕ) : natText n ≠ [] := by
  rw [natText]
  split
  · simp
  · simpa using Nat.digits_ne_nil_iff_ne_zero.mpr ‹_›

/-- Reading digits, the least significant one first, is `Nat.ofDigits`. -/
private theorem foldr_digits {l : List ℕ} (h : ∀ d ∈ l, d < 10) :
    (l.map fun d => 0x30 + UInt8.ofNat d).foldr (fun c n => n * 10 + (c.toNat - 0x30)) 0 =
      Nat.ofDigits 10 l := by
  induction l with
  | nil => rfl
  | cons d l ih =>
    rw [List.map_cons, List.foldr_cons, ih fun x hx => h x (List.mem_cons_of_mem _ hx),
      (digit_val d (h d List.mem_cons_self)).2, Nat.ofDigits_cons]
    ring

/-- **Natural numbers are read back.** -/
theorem decimal_natText (n : ℕ) : decimal (natText n) = some n := by
  have hall : (natText n).all isDigit = true := List.all_eq_true.mpr (natText_isDigit n)
  rw [decimal, if_neg (by simp [hall, natText_ne_nil])]
  rw [natText]
  split
  · subst n
    rfl
  · rw [List.map_reverse, List.foldl_reverse,
      foldr_digits fun d hd => Nat.digits_lt_base (by decide) hd, Nat.ofDigits_digits]

/-- No two numbers have one text. -/
theorem natText_injective : Function.Injective natText := by
  intro m n h
  have hread : decimal (natText m) = decimal (natText n) := by rw [h]
  rw [decimal_natText, decimal_natText] at hread
  exact Option.some_inj.mp hread

/-- The text of an integer begins with a minus exactly when it is negative. -/
private theorem cutSign_itoa (i : ℤ) : cutSign (itoa i) = (decide (i < 0), natText i.natAbs) := by
  rw [itoa]
  by_cases hneg : i < 0
  · rw [if_pos hneg, decide_eq_true hneg]
    rfl
  · rw [if_neg hneg, decide_eq_false hneg]
    obtain ⟨c, r, htext⟩ := List.exists_cons_of_ne_nil (natText_ne_nil i.natAbs)
    have hdigit : isDigit c = true :=
      natText_isDigit i.natAbs c (by rw [htext]; exact List.mem_cons_self)
    have hplus : c ≠ 0x2B := by
      rintro rfl
      exact absurd hdigit (by decide)
    have hminus : c ≠ 0x2D := by
      rintro rfl
      exact absurd hdigit (by decide)
    rw [htext, cutSign, if_neg hplus, if_neg hminus]

/-- No two integers have one text. -/
theorem itoa_injective : Function.Injective itoa := by
  intro m n h
  have hcut := congrArg cutSign h
  rw [cutSign_itoa, cutSign_itoa, Prod.mk.injEq] at hcut
  have habs := natText_injective hcut.2
  have hneg := decide_eq_decide.mp hcut.1
  omega

/-- The text of an integer is made of digits behind at most a minus. -/
theorem mem_itoa {n : ℤ} {c : UInt8} (h : c ∈ itoa n) : c = 0x2D ∨ isDigit c = true := by
  rw [itoa] at h
  split at h
  · rcases List.mem_cons.mp h with rfl | h
    · exact .inl rfl
    · exact .inr (natText_isDigit _ _ h)
  · exact .inr (natText_isDigit _ _ h)

/-- **Integers are read back.** -/
theorem parseInt64_itoa (x : Int64) : parseInt64 (itoa x.toInt) = some x := by
  have hlow : -2 ^ 63 ≤ x.toInt := x.le_toInt
  have hhigh : x.toInt < 2 ^ 63 := x.toInt_lt
  rw [parseInt64, cutSign_itoa]
  dsimp only
  rw [decimal_natText]
  dsimp only
  by_cases hneg : x.toInt < 0
  · have habs : -(x.toInt.natAbs : ℤ) = x.toInt := by omega
    rw [decide_eq_true hneg, if_pos rfl, if_neg (by omega), habs, Int64.ofInt_toInt]
  · have habs : (x.toInt.natAbs : ℤ) = x.toInt := by omega
    rw [decide_eq_false hneg, if_neg Bool.false_ne_true, if_neg (by omega), habs,
      Int64.ofInt_toInt]

end VibesWaf

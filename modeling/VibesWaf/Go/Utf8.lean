import VibesWaf.Go.Strings

/-!
# Valid UTF-8

`validUTF8` is Go's `utf8.ValidString`: the first byte of an encoded character says in which
range each of the bytes after it must lie. All of these ranges are above the ASCII bytes, so an
ASCII byte stands between characters wherever it occurs, and a valid text may be cut there.
-/

namespace VibesWaf

/-- The ranges of the bytes that complete a character, by its first byte; `none` when no
character starts with that byte. -/
def acceptRanges (c : UInt8) : Option (List (UInt8 × UInt8)) :=
  let any : UInt8 × UInt8 := (0x80, 0xBF)
  if c < 0x80 then some []
  else if 0xC2 ≤ c ∧ c ≤ 0xDF then some [any]
  else if c = 0xE0 then some [(0xA0, 0xBF), any]
  else if c = 0xED then some [(0x80, 0x9F), any]
  else if 0xE1 ≤ c ∧ c ≤ 0xEF then some [any, any]
  else if c = 0xF0 then some [(0x90, 0xBF), any, any]
  else if 0xF1 ≤ c ∧ c ≤ 0xF3 then some [any, any, any]
  else if c = 0xF4 then some [(0x80, 0x8F), any, any]
  else none

/-- The text completes a character by bytes in the ranges and goes on with whole characters. -/
def validFrom : List (UInt8 × UInt8) → GoString → Bool
  | [], [] => true
  | _ :: _, [] => false
  | [], c :: r =>
    match acceptRanges c with
    | none => false
    | some ranges => validFrom ranges r
  | range :: ranges, c :: r => range.1 ≤ c && c ≤ range.2 && validFrom ranges r

/-- `utf8.ValidString`. -/
def validUTF8 (s : GoString) : Bool :=
  validFrom [] s

/-- No byte that completes a character is an ASCII byte. -/
private theorem acceptRanges_le {c : UInt8} {ranges : List (UInt8 × UInt8)}
    (h : acceptRanges c = some ranges) : ∀ range ∈ ranges, 0x80 ≤ range.1 := by
  have key : ∀ c : UInt8, ((acceptRanges c).getD []).all (0x80 ≤ ·.1) = true := by
    decide +kernel
  have hc := key c
  rw [h, Option.getD_some, List.all_eq_true] at hc
  exact fun range hmem => of_decide_eq_true (hc range hmem)

private theorem acceptRanges_ascii {c : UInt8} (hc : c < 0x80) : acceptRanges c = some [] := by
  simp [acceptRanges, hc]

/-- An ASCII byte stands between characters. -/
private theorem validFrom_append_cons {c : UInt8} (hc : c < 0x80) {s t : GoString}
    {ranges : List (UInt8 × UInt8)} (hr : ∀ range ∈ ranges, 0x80 ≤ range.1)
    (h : validFrom ranges (s ++ c :: t) = true) : validFrom ranges s = true ∧ validUTF8 t = true := by
  induction s generalizing ranges with
  | nil =>
    cases ranges with
    | nil =>
      rw [List.nil_append, validFrom, acceptRanges_ascii hc] at h
      exact ⟨rfl, h⟩
    | cons range ranges =>
      -- the character would have to be completed by the ASCII byte
      have hlo : range.1 ≤ c := by
        rw [List.nil_append, validFrom, Bool.and_eq_true, Bool.and_eq_true] at h
        exact of_decide_eq_true h.1.1
      have hle : (0x80 : UInt8) ≤ c := UInt8.le_trans (hr range (by simp)) hlo
      exact absurd hc (UInt8.not_lt.mpr hle)
  | cons d s ih =>
    cases ranges with
    | nil =>
      rw [List.cons_append, validFrom] at h
      rw [validFrom]
      cases hd : acceptRanges d with
      | none => simp [hd] at h
      | some next => exact ih (acceptRanges_le hd) (by simpa [hd] using h)
    | cons range ranges =>
      rw [List.cons_append, validFrom, Bool.and_eq_true] at h
      obtain ⟨hs, ht⟩ := ih (fun r hmem => hr r (List.mem_cons_of_mem _ hmem)) h.2
      exact ⟨by rw [validFrom, Bool.and_eq_true]; exact ⟨h.1, hs⟩, ht⟩

/-- A valid text may be cut at an ASCII byte. -/
theorem validUTF8_append_cons {c : UInt8} (hc : c < 0x80) {s t : GoString}
    (h : validUTF8 (s ++ c :: t) = true) : validUTF8 s = true ∧ validUTF8 t = true :=
  validFrom_append_cons hc (by simp) h

/-- ASCII text is valid. -/
theorem validUTF8_of_isASCII {s : GoString} (h : isASCII s = true) : validUTF8 s = true := by
  induction s with
  | nil => rfl
  | cons c s ih =>
    obtain ⟨hc, hs⟩ : c < 0x80 ∧ isASCII s = true := by simpa [isASCII] using h
    rw [validUTF8, validFrom, acceptRanges_ascii hc]
    exact ih hs

/-- Overlong forms, surrogates and cut characters are no characters. -/
example : validUTF8 [0xC3, 0xA9] = true ∧ validUTF8 [0xC0, 0x80] = false ∧
    validUTF8 [0xED, 0xA0, 0x80] = false ∧ validUTF8 [0xC3] = false := by
  decide

end VibesWaf

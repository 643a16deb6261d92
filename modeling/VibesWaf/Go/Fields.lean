import VibesWaf.Go.Strings

/-!
# Fields of a text

`fields` is Go's `strings.Fields`, which splits a text around its white space, and `trimRight` its
`strings.TrimRight`. A byte of ASCII that is no white space belongs to a field wherever it stands:
the other white-space runes are written with bytes outside ASCII only.
-/

namespace VibesWaf

/-- The loop of `strings.Fields`, with the field that is being read; the number bounds its turns. -/
def fieldsLoop : ℕ → GoString → GoString → List GoString
  | 0, _, _ => []
  | _ + 1, field, [] => if field = [] then [] else [field]
  | n + 1, field, c :: s =>
    match spaceRunes.find? (hasPrefix (c :: s)) with
    | some r => (if field = [] then [] else [field]) ++ fieldsLoop n [] ((c :: s).drop r.length)
    | none => fieldsLoop n (field ++ [c]) s

/-- `strings.Fields`. -/
def fields (s : GoString) : List GoString :=
  fieldsLoop (s.length + 1) [] s

/-- `strings.TrimRight`, of a set of ASCII characters. -/
def trimRight (s cutset : GoString) : GoString :=
  (s.reverse.dropWhile (· ∈ cutset)).reverse

/-- An ASCII character that is no white space. -/
def isPlain (c : UInt8) : Bool :=
  c < 0x80 && !isSpace c

/-- White space begins with no plain character, and has none in it. -/
private theorem spaceRunes_plain :
    ∀ r ∈ spaceRunes, r ≠ [] ∧ ∀ c ∈ r, isPlain c = false := by
  have hall : (spaceRunes.all fun r => !r.isEmpty && r.all fun c => !isPlain c) = true := by
    decide
  simpa [List.all_eq_true] using hall

private theorem find?_spaceRunes {c : UInt8} (hc : isPlain c = true) (s : GoString) :
    spaceRunes.find? (hasPrefix (c :: s)) = none := by
  refine List.find?_eq_none.mpr fun r hr hprefix => ?_
  obtain ⟨hne, hplain⟩ := spaceRunes_plain r hr
  cases r with
  | nil => exact hne rfl
  | cons d r =>
    have hd : d = c := by
      have hpre : d :: r <+: c :: s := List.isPrefixOf_iff_prefix.mp hprefix
      exact (List.cons_prefix_cons.mp hpre).1
    have hfalse := hplain d List.mem_cons_self
    rw [hd, hc] at hfalse
    cases hfalse

private theorem length_drop_space {c : UInt8} {s r : GoString}
    (h : spaceRunes.find? (hasPrefix (c :: s)) = some r) :
    ((c :: s).drop r.length).length < (c :: s).length := by
  have hne := List.length_pos_iff.mpr (spaceRunes_plain r (List.mem_of_find?_eq_some h)).1
  rw [List.length_drop, List.length_cons]
  omega

/-- More turns than there are bytes are enough. -/
private theorem fieldsLoop_enough (s : GoString) : ∀ n m field, s.length < n → s.length < m →
    fieldsLoop n field s = fieldsLoop m field s := by
  induction hlen : s.length using Nat.strongRecOn generalizing s with
  | ind len ih =>
    intro n m field hn hm
    obtain ⟨n, rfl⟩ := Nat.exists_eq_add_of_lt hn
    obtain ⟨m, rfl⟩ := Nat.exists_eq_add_of_lt hm
    cases s with
    | nil => rfl
    | cons c s =>
      rw [fieldsLoop, fieldsLoop]
      split
      · rename_i r hr
        have hlt := length_drop_space hr
        rw [ih _ (hlen ▸ hlt) ((c :: s).drop r.length) rfl _ (len + m) [] (by omega) (by omega)]
      · rw [List.length_cons] at hlen
        exact ih s.length (by omega) s rfl _ _ _ (by omega) (by omega)

/-- A field that has begun comes out. -/
private theorem fieldsLoop_ne_nil {s : GoString} : ∀ {n field}, s.length < n →
    (field ≠ [] ∨ ∃ c ∈ s, isPlain c = true) → fieldsLoop n field s ≠ [] := by
  induction hlen : s.length using Nat.strongRecOn generalizing s with
  | ind len ih =>
    intro n field hn h
    obtain ⟨n, rfl⟩ := Nat.exists_eq_add_of_lt hn
    cases s with
    | nil =>
      have hfield := h.resolve_right (by simp)
      rw [fieldsLoop, if_neg hfield]
      exact List.cons_ne_nil _ _
    | cons c s =>
      rw [fieldsLoop]
      split
      · rename_i r hr
        rcases h with hfield | ⟨d, hd, hplain⟩
        · rw [if_neg hfield]
          exact List.cons_ne_nil _ _
        · -- the plain character is not in the white space
          have hpre : r <+: c :: s := by
            have hprefix := List.find?_some hr
            exact List.isPrefixOf_iff_prefix.mp hprefix
          obtain ⟨rest, hrest⟩ := hpre
          have hmem : d ∈ rest := by
            rw [← hrest, List.mem_append] at hd
            refine hd.resolve_left fun hdr => ?_
            have hfalse := (spaceRunes_plain r (List.mem_of_find?_eq_some hr)).2 d hdr
            rw [hplain] at hfalse
            cases hfalse
          have hlt := length_drop_space hr
          refine List.append_ne_nil_of_right_ne_nil _ ?_
          refine ih _ (hlen ▸ hlt) rfl (by omega) (.inr ⟨d, ?_, hplain⟩)
          rwa [← hrest, List.drop_left]
      · rw [List.length_cons] at hlen
        refine ih s.length (by omega) rfl (by omega) (.inl ?_)
        exact List.append_ne_nil_of_right_ne_nil _ (List.cons_ne_nil _ _)

/-- A text with a plain character has a field. -/
theorem fields_ne_nil {s : GoString} (h : ∃ c ∈ s, isPlain c = true) : fields s ≠ [] :=
  fieldsLoop_ne_nil (Nat.lt_succ_self _) (.inr h)

private theorem fieldsLoop_word {w : GoString} (hw : ∀ c ∈ w, isPlain c = true) (t : GoString) :
    ∀ field, fieldsLoop ((w ++ t).length + 1) field (w ++ t) =
      fieldsLoop (t.length + 1) (field ++ w) t := by
  induction w with
  | nil =>
    intro field
    rw [List.nil_append, List.append_nil]
  | cons c w ih =>
    intro field
    obtain ⟨hc, hw⟩ := List.forall_mem_cons.mp hw
    rw [List.cons_append, List.length_cons, fieldsLoop, find?_spaceRunes hc]
    dsimp only
    rw [ih hw, List.append_assoc]
    rfl

/-- **A word in front of a blank** is the first field. -/
theorem fields_word {w : GoString} (hne : w ≠ []) (hw : ∀ c ∈ w, isPlain c = true) (t : GoString) :
    fields (w ++ 0x20 :: t) = w :: fields t := by
  have hblank : spaceRunes.find? (hasPrefix (0x20 :: t)) = some [0x20] := by
    simp [spaceRunes, hasPrefix, List.isPrefixOf]
  rw [fields, fieldsLoop_word hw, List.length_cons, fieldsLoop, hblank]
  simp [hne, fields]

/-- A character of the set is trimmed as far as another one. -/
theorem trimRight_append {s t cutset : GoString} (ht : ∀ c ∈ t, c ∈ cutset)
    (hs : ∀ c ∈ s.getLast?, c ∉ cutset) : trimRight (s ++ t) cutset = s := by
  have hdrop : ∀ c ∈ t.reverse, (decide (c ∈ cutset)) = true := fun c hc =>
    decide_eq_true (ht c (List.mem_reverse.mp hc))
  rw [trimRight, List.reverse_append, List.dropWhile_append_of_pos hdrop]
  cases hr : s.reverse with
  | nil => simpa using hr.symm
  | cons c r =>
    have hlast : s.getLast? = some c := by
      rw [← List.head?_reverse, hr]
      rfl
    rw [List.dropWhile_cons_of_neg (by simpa using hs c hlast), ← hr, List.reverse_reverse]

end VibesWaf

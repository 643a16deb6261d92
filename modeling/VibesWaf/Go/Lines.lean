import VibesWaf.Go.Strings
import VibesWaf.Lib.Separated

/-!
# Texts of several lines

A text is taken apart at its line breaks with Go's `strings.Split`, and its lines are put together
again with `strings.Join`. `index` is `strings.Index`: a text without a line break is found in the
first line that contains it, and nowhere else (`index_joinLines_append`).
-/

namespace VibesWaf

/-- `strings.Index`. -/
def index : GoString → GoString → Option ℕ
  | [], sub => if sub = [] then some 0 else none
  | c :: s, sub => if hasPrefix (c :: s) sub then some 0 else (index s sub).map (· + 1)

/-- `strings.IndexByte`. -/
def indexByte : GoString → UInt8 → Option ℕ
  | [], _ => none
  | b :: s, c => if b = c then some 0 else (indexByte s c).map (· + 1)

/-- `strings.TrimLeft`, of a set of ASCII characters. -/
def trimLeft (s cutset : GoString) : GoString :=
  s.dropWhile (· ∈ cutset)

/-- `strings.Split`, at line breaks. -/
def splitLines (s : GoString) : List GoString :=
  split s 0x0A

/-- `strings.Join`, with line breaks. -/
def joinLines (lines : List GoString) : GoString :=
  [0x0A].intercalate lines

variable {s t sub l : GoString} {front back lines : List GoString}

/-! ### Lines -/

theorem splitLines_ne_nil (s : GoString) : splitLines s ≠ [] :=
  List.splitOn_ne_nil _ s

theorem not_mem_of_mem_splitLines (h : l ∈ splitLines s) : 0x0A ∉ l :=
  not_mem_of_mem_splitOn h

theorem splitLines_line (h : 0x0A ∉ l) : splitLines l = [l] :=
  List.splitOn_eq_singleton h

theorem splitLines_append_cons (s t : GoString) :
    splitLines (s ++ 0x0A :: t) = splitLines s ++ splitLines t :=
  List.splitOn_append_cons_self s t

theorem splitLines_lineBreak (t : GoString) : splitLines (0x0A :: t) = [] :: splitLines t :=
  splitLines_append_cons [] t

theorem joinLines_splitLines (s : GoString) : joinLines (splitLines s) = s :=
  List.intercalate_splitOn _

theorem joinLines_cons (l : GoString) (lines : List GoString) :
    joinLines (l :: lines) = l ++ lines.flatMap (0x0A :: ·) := by
  induction lines generalizing l with
  | nil => rw [List.flatMap_nil, List.append_nil, joinLines, List.intercalate_singleton]
  | cons m lines ih =>
    rw [joinLines, List.intercalate_cons_cons, ← joinLines, ih, List.flatMap_cons,
      List.append_assoc]
    rfl

private theorem joinLines_cons_of_ne_nil (l : GoString) (h : lines ≠ []) :
    joinLines (l :: lines) = l ++ 0x0A :: joinLines lines := by
  rw [joinLines, List.intercalate_cons_of_ne_nil h, ← joinLines, List.append_assoc]
  rfl

theorem joinLines_append (front : List GoString) (h : lines ≠ []) :
    joinLines (front ++ lines) = front.flatMap (· ++ [0x0A]) ++ joinLines lines := by
  induction front with
  | nil => rfl
  | cons m front ih =>
    rw [List.cons_append,
      joinLines_cons_of_ne_nil m (List.append_ne_nil_of_right_ne_nil front h), ih,
      List.flatMap_cons, List.append_assoc, List.append_assoc]
    rfl

/-- Lines go on behind a text. -/
theorem joinLines_append_flatMap (h : front ≠ []) (lines : List GoString) :
    joinLines (front ++ lines) = joinLines front ++ lines.flatMap (0x0A :: ·) := by
  obtain ⟨m, front, rfl⟩ := List.exists_cons_of_ne_nil h
  rw [List.cons_append, joinLines_cons, joinLines_cons, List.flatMap_append, List.append_assoc]

/-- The lines around one of a text. -/
theorem not_mem_of_splitLines_eq (h : splitLines s = front ++ l :: back) :
    (∀ m ∈ front, 0x0A ∉ m) ∧ 0x0A ∉ l ∧ ∀ m ∈ back, 0x0A ∉ m := by
  have hmem : ∀ m ∈ front ++ l :: back, 0x0A ∉ m := fun m hm => not_mem_of_mem_splitLines (h ▸ hm)
  obtain ⟨hfront, hback⟩ := List.forall_mem_append.mp hmem
  exact ⟨hfront, List.forall_mem_cons.mp hback⟩

/-- **Lines behind a text** are taken apart from it. -/
theorem splitLines_append_flatMap (t : GoString) (hlines : ∀ m ∈ lines, 0x0A ∉ m) :
    splitLines (t ++ lines.flatMap (0x0A :: ·)) = splitLines t ++ lines := by
  induction lines generalizing t with
  | nil => rw [List.flatMap_nil, List.append_nil, List.append_nil]
  | cons m lines ih =>
    obtain ⟨hm, hlines⟩ := List.forall_mem_cons.mp hlines
    rw [List.flatMap_cons, List.cons_append, splitLines_append_cons, ih m hlines,
      splitLines_line hm]
    rfl

/-- **A text in the place of a line** is taken apart with the other lines. -/
theorem splitLines_joinLines_append (hfront : ∀ m ∈ front, 0x0A ∉ m)
    (hback : ∀ m ∈ back, 0x0A ∉ m) (t : GoString) :
    splitLines (joinLines (front ++ t :: back)) = front ++ splitLines t ++ back := by
  induction front with
  | nil => rw [List.nil_append, joinLines_cons, splitLines_append_flatMap t hback, List.nil_append]
  | cons m front ih =>
    obtain ⟨hm, hfront⟩ := List.forall_mem_cons.mp hfront
    rw [List.cons_append, joinLines_cons_of_ne_nil m
      (List.append_ne_nil_of_right_ne_nil front (List.cons_ne_nil t back)),
      splitLines_append_cons, splitLines_line hm, ih hfront]
    rfl

/-! ### Where a text is found -/

/-- What begins a line ends before its line break. -/
private theorem hasPrefix_append_cons (h : 0x0A ∉ sub) (s t : GoString) :
    hasPrefix (s ++ 0x0A :: t) sub = hasPrefix s sub := by
  induction sub generalizing s with
  | nil => rfl
  | cons c sub ih =>
    rw [List.mem_cons, not_or] at h
    cases s with
    | nil =>
      have hc : (c == 0x0A) = false := beq_eq_false_iff_ne.mpr (Ne.symm h.1)
      simp [hasPrefix, List.isPrefixOf, hc]
    | cons b s =>
      have hrest := ih h.2 s
      simp only [hasPrefix] at hrest
      simp only [hasPrefix, List.cons_append, List.isPrefixOf, hrest]

/-- A text that is found stands there. -/
theorem exists_of_index_eq_some {k : ℕ} (h : index s sub = some k) :
    ∃ a b, s = a ++ sub ++ b ∧ a.length = k := by
  induction s generalizing k with
  | nil =>
    rw [index] at h
    split at h
    · cases h
      subst sub
      exact ⟨[], [], rfl, rfl⟩
    · cases h
  | cons c s ih =>
    rw [index] at h
    split at h
    · cases h
      obtain ⟨b, hb⟩ := exists_append_of_hasPrefix ‹_›
      exact ⟨[], b, hb, rfl⟩
    · obtain ⟨k, hk, rfl⟩ := Option.map_eq_some_iff.mp h
      obtain ⟨a, b, rfl, rfl⟩ := ih hk
      exact ⟨c :: a, b, rfl, rfl⟩

theorem isSome_index (s sub : GoString) : (index s sub).isSome = contains s sub := by
  induction s with
  | nil =>
    rw [index, contains]
    cases sub <;> rfl
  | cons c s ih =>
    rw [index, contains]
    split
    · simp [*]
    · simp [*]

theorem index_eq_none_iff : index s sub = none ↔ contains s sub = false := by
  rw [← isSome_index, Option.isSome_eq_false_iff, Option.isNone_iff_eq_none]

theorem index_append_cons (h : 0x0A ∉ sub) (s t : GoString) :
    index (s ++ 0x0A :: t) sub = (index s sub).or ((index t sub).map (s.length + 1 + ·)) := by
  induction s with
  | nil =>
    have hprefix : hasPrefix (0x0A :: t) sub = hasPrefix [] sub := hasPrefix_append_cons h [] t
    have hnil : index [] sub = if sub = [] then some 0 else none := rfl
    rw [List.nil_append, hnil, index, hprefix]
    cases sub with
    | nil => rfl
    | cons c sub =>
      rw [if_neg (by simp [hasPrefix, List.isPrefixOf]), if_neg (List.cons_ne_nil c sub),
        Option.none_or]
      exact congrArg (Option.map · _) (funext fun k => Nat.add_comm k 1)
  | cons c s ih =>
    rw [List.cons_append, index, ← List.cons_append, hasPrefix_append_cons h, ih, index]
    split
    · rfl
    · rw [Option.map_or, Option.map_map]
      refine congrArg (Option.or _) (congrArg (Option.map · _) (funext fun k => ?_))
      simp only [Function.comp_apply, List.length_cons]
      omega

/-- A text is in some line or nowhere. -/
theorem contains_joinLines (h : 0x0A ∉ sub) (hlines : lines ≠ []) :
    contains (joinLines lines) sub = lines.any (contains · sub) := by
  induction lines with
  | nil => exact absurd rfl hlines
  | cons l lines ih =>
    cases lines with
    | nil => simp [joinLines]
    | cons m lines =>
      have hrest := ih (List.cons_ne_nil m lines)
      rw [joinLines_cons_of_ne_nil l (List.cons_ne_nil m lines), ← isSome_index,
        index_append_cons h, Option.isSome_or, Option.isSome_map, isSome_index, isSome_index, hrest]
      rfl

/-- **The first line** that contains a text is where it is found. -/
theorem index_joinLines_append (h : 0x0A ∉ sub) (hfront : ∀ m ∈ front, contains m sub = false)
    {k : ℕ} (hk : index l sub = some k) (back : List GoString) :
    index (joinLines (front ++ l :: back)) sub =
      some ((front.flatMap (· ++ [0x0A])).length + k) := by
  induction front with
  | nil =>
    rw [List.nil_append, joinLines_cons, List.flatMap_nil, List.length_nil, Nat.zero_add]
    cases back with
    | nil => rw [List.flatMap_nil, List.append_nil, hk]
    | cons m back =>
      rw [List.flatMap_cons, List.cons_append, index_append_cons h, hk, Option.some_or]
  | cons m front ih =>
    obtain ⟨hm, hfront⟩ := List.forall_mem_cons.mp hfront
    have hnone : index m sub = none := index_eq_none_iff.mpr hm
    rw [List.cons_append, joinLines_cons_of_ne_nil m
      (List.append_ne_nil_of_right_ne_nil front (List.cons_ne_nil l back)),
      index_append_cons h, hnone, ih hfront, Option.none_or, Option.map_some,
      List.flatMap_cons, List.length_append, List.length_append, List.length_singleton,
      Nat.add_assoc, Nat.add_assoc, Nat.add_assoc]

theorem indexByte_append_cons {c : UInt8} (h : c ∉ s) (t : GoString) :
    indexByte (s ++ c :: t) c = some s.length := by
  induction s with
  | nil => exact if_pos rfl
  | cons b s ih =>
    rw [List.mem_cons, not_or] at h
    rw [List.cons_append, indexByte, if_neg (Ne.symm h.1), ih h.2]
    rfl

theorem indexByte_of_not_mem {c : UInt8} (h : c ∉ s) : indexByte s c = none := by
  induction s with
  | nil => rfl
  | cons b s ih =>
    rw [List.mem_cons, not_or] at h
    rw [indexByte, if_neg (Ne.symm h.1), ih h.2]
    rfl

/-- A text is cut behind a byte in it. -/
theorem take_drop_append_cons (s t : GoString) (c : UInt8) (r : GoString) :
    (s ++ (t ++ c :: r)).take (s.length + (t.length + 1)) = s ++ t ++ [c] ∧
      (s ++ (t ++ c :: r)).drop (s.length + (t.length + 1)) = r := by
  have hsplit : s ++ (t ++ c :: r) = (s ++ t ++ [c]) ++ r := by simp
  have hlength : s.length + (t.length + 1) = (s ++ t ++ [c]).length := by simp
  rw [hsplit, hlength, List.take_left, List.drop_left]
  exact ⟨rfl, rfl⟩

end VibesWaf

import VibesWaf.Pipeline.Context

/-!
# The normal form of a path

The path of a request is declared to be decoded in a single pass. `net/http` makes that pass when
it parses the target, and `normalizePath` makes another one over the result.

`normalize_path_iff` says when the second pass does no harm: exactly when the path it is given has
no percent sign, or one that starts no escape, so that the pass fails and its input is taken as it
is. The argument counts percent signs and twos: an escape has more of them than the byte it stands
for, and no case mapping makes or removes one.
-/

namespace VibesWaf

/-- An ASCII character that is no letter. -/
def isCaseless (c : UInt8) : Bool :=
  c < 0x80 && !isLetter c

/-- What is documented of `strings.ToLower`: letters become letters, a malformed text gets
replacement characters, and the ASCII characters that are no letters stay as they are. -/
def LowersLetters [GoLib] : Prop :=
  ∀ s : GoString, (GoLib.unicodeToLower s).filter isCaseless = s.filter isCaseless

theorem lowersLetters_asciiLib : @LowersLetters asciiLib := by
  have hbyte : ∀ c : UInt8, isCaseless (lowerByte c) = isCaseless c ∧
      (isCaseless c = true → lowerByte c = c) := by
    decide +kernel
  intro s
  change (s.map lowerByte).filter isCaseless = s.filter isCaseless
  have hsame : s.filter (isCaseless ∘ lowerByte) = s.filter isCaseless :=
    List.filter_congr fun c _ => (hbyte c).1
  rw [List.filter_map, hsame]
  refine (List.map_congr_left fun c hc => ?_).trans (List.map_id _)
  exact (hbyte c).2 (List.mem_filter.mp hc).2

/-! ### Percent signs and twos -/

/-- A percent sign, or the first digit of its own escape. -/
def isMark (c : UInt8) : Bool :=
  c == 0x25 || c == 0x32

/-- How many marks a text has. -/
def marks (s : GoString) : ℕ :=
  s.countP isMark

private theorem marks_filter {p : UInt8 → Bool} (hp : ∀ c, isMark c = true → p c = true)
    (s : GoString) : marks (s.filter p) = marks s := by
  rw [marks, List.countP_filter]
  refine List.countP_congr fun c _ => ?_
  rw [Bool.and_eq_true]
  exact and_iff_left_of_imp (hp c)

@[simp] theorem marks_stripNull (s : GoString) : marks (stripNull s) = marks s := by
  refine marks_filter (fun c hc => ?_) s
  refine decide_eq_true fun hzero => ?_
  rw [hzero] at hc
  cases hc

/-- A case mapping keeps the marks. -/
theorem marks_toLower [GoLib] (hlower : LowersLetters) (s : GoString) :
    marks (toLower s) = marks s := by
  have hcaseless : ∀ c : UInt8, isMark c = true → isCaseless c = true := by decide +kernel
  have hbyte : ∀ c : UInt8, isMark (lowerByte c) = isMark c := by decide +kernel
  rw [toLower]
  split
  · rw [marks, List.countP_map]
    exact List.countP_congr fun c _ => by rw [Function.comp_apply, hbyte]
  · rw [← marks_filter hcaseless, hlower, marks_filter hcaseless]

/-- The first digit of the escape of a mark is a two, or the second one. -/
private theorem isMark_escape {a b : UInt8} (ha : ishex a = true) (hb : ishex b = true)
    (h : isMark ((unhex a <<< 4) ||| unhex b) = true) : a = 0x32 ∨ b = 0x32 := by
  have hlow : ∀ c : UInt8, ishex c = true → unhex c < 16 ∧ (unhex c = 2 → c = 0x32) := by
    decide +kernel
  have hjoin : ∀ x : UInt8, x < 16 → ∀ y : UInt8, y < 16 → isMark ((x <<< 4) ||| y) = true →
      x = 2 ∨ y = 2 := by
    decide +kernel
  exact (hjoin _ (hlow a ha).1 _ (hlow b hb).1 h).imp (hlow a ha).2 (hlow b hb).2

/-- **Decoding** makes no marks, and an escape costs one. -/
theorem marks_unescape {mode : Encoding} {s a : GoString} (h : unescape mode s = some a) :
    marks a ≤ marks s ∧ (0x25 ∈ s → marks a < marks s) := by
  fun_induction unescape mode s generalizing a with
  | case1 =>
    obtain rfl := Option.some.inj h
    simp
  | case2 x y s hhex ih =>
    obtain ⟨r, hr, rfl⟩ := Option.map_eq_some_iff.mp h
    obtain ⟨hx, hy⟩ := (Bool.and_eq_true _ _).mp hhex
    have hle := (ih hr).1
    suffices hlt : marks (((unhex x <<< 4) ||| unhex y) :: r) < marks (0x25 :: x :: y :: s) from
      ⟨hlt.le, fun _ => hlt⟩
    have hpercent : isMark 0x25 = true := rfl
    simp only [marks, List.countP_cons, hpercent, if_true] at hle ⊢
    by_cases hmark : isMark ((unhex x <<< 4) ||| unhex y) = true
    · have htwo : isMark x = true ∨ isMark y = true := by
        rcases isMark_escape hx hy hmark with rfl | rfl
        · exact .inl rfl
        · exact .inr rfl
      rw [if_pos hmark]
      rcases htwo with htwo | htwo
      · rw [if_pos htwo]
        omega
      · rw [if_pos htwo]
        omega
    · rw [if_neg hmark]
      omega
  | case3 x y s hhex => exact absurd h (by simp)
  | case4 s hs => exact absurd h (by simp)
  | case5 c s hc hplus ih =>
    obtain ⟨r, hr, rfl⟩ := Option.map_eq_some_iff.mp h
    obtain ⟨hle, hlt⟩ := ih hr
    have hspace : isMark 0x20 = false := rfl
    have hsign : isMark c = false := by rw [hplus.1]; rfl
    simp only [marks, List.countP_cons, hspace, hsign] at hle hlt ⊢
    exact ⟨by simpa using hle, fun hmem => by
      simpa using hlt ((List.mem_cons.mp hmem).resolve_left (Ne.symm hc))⟩
  | case6 c s hc hplus ih =>
    obtain ⟨r, hr, rfl⟩ := Option.map_eq_some_iff.mp h
    obtain ⟨hle, hlt⟩ := ih hr
    simp only [marks, List.countP_cons] at hle hlt ⊢
    exact ⟨Nat.add_le_add_right hle _, fun hmem => Nat.add_lt_add_right
      (hlt ((List.mem_cons.mp hmem).resolve_left (Ne.symm hc))) _⟩

/-- A text without a percent sign stands for itself in a segment. -/
theorem pathUnescape_of_not_mem {s : GoString} (h : 0x25 ∉ s) : pathUnescape s = some s := by
  rw [pathUnescape]
  fun_induction unescape .pathSegment s with
  | case1 => rfl
  | case2 x y s hhex ih => exact absurd List.mem_cons_self h
  | case3 x y s hhex => exact absurd List.mem_cons_self h
  | case4 s hs => exact absurd List.mem_cons_self h
  | case5 c s hc hplus ih => cases hplus.2
  | case6 c s hc hplus ih =>
    rw [ih fun hmem => h (List.mem_cons_of_mem c hmem)]
    rfl

/-! ### The path -/

section Path

variable [GoLib]

/-- What the rules of `NormalizedRequest` say of a path, as the client has sent it: decoded in a
single pass, without null bytes, in lower case. -/
def declaredPath (escaped : GoString) : Option GoString :=
  (unescape .path escaped).map fun decoded => toLower (stripNull decoded)

/-- **Decoding once.** For a request whose path is the decoding of the one its client has sent,
the normal form is the declared one exactly when the decoded path has no percent sign, or cannot
be decoded again. -/
theorem normalize_path_iff (hlower : LowersLetters) {r : Request} {escaped : GoString}
    (hdecoded : unescape .path escaped = some r.path) :
    some (normalize r).path = declaredPath escaped ↔
      0x25 ∉ r.path ∨ pathUnescape r.path = none := by
  rw [declaredPath, hdecoded, Option.map_some, Option.some_inj, normalize, normalizePath]
  constructor
  · intro h
    by_contra hnot
    obtain ⟨hpercent, hvalid⟩ := not_or.mp hnot
    obtain ⟨twice, htwice⟩ := Option.ne_none_iff_exists'.mp hvalid
    have hfewer := (marks_unescape htwice).2 (not_not.mp hpercent)
    have hsame := congrArg marks h
    rw [htwice, Option.getD_some, marks_toLower hlower, marks_toLower hlower, marks_stripNull,
      marks_stripNull] at hsame
    exact absurd hsame hfewer.ne
  · rintro (hplain | hinvalid)
    · rw [pathUnescape_of_not_mem hplain]
      rfl
    · rw [hinvalid]
      rfl

end Path

/-- A request for a path. -/
def pathRequest (path : GoString) : Request where
  method := str "GET"
  path := path
  rawPath := []
  rawQuery := []
  requestURI := []
  host := str "shop.example"
  proto := str "HTTP/1.1"
  header _ := []
  cookies := []
  remoteAddr := str "203.0.113.7:4711"
  tls := false

/-- A path without an escaped percent sign. -/
theorem normalize_path_iff_plain :
    some (@normalize asciiLib (pathRequest (str "/A b"))).path =
      @declaredPath asciiLib (str "/A%20b") :=
  (@normalize_path_iff asciiLib lowersLetters_asciiLib (pathRequest (str "/A b")) (str "/A%20b")
    (by decide)).mpr (.inl (by decide))

/-- A path that is encoded twice is decoded twice: the rules see a parent directory in it. -/
theorem normalize_path_twice :
    unescape .path (str "/%252e%252e/") = some (pathRequest (str "/%2e%2e/")).path ∧
      @declaredPath asciiLib (str "/%252e%252e/") = some (str "/%2e%2e/") ∧
      (@normalize asciiLib (pathRequest (str "/%2e%2e/"))).path = str "/../" := by
  decide

end VibesWaf

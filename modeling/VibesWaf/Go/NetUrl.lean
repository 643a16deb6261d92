import Mathlib.Data.FinEnum
import VibesWaf.Go.Strings

/-!
# Percent-encoding in `net/url`

`unescape` and `escape` are the functions of the same names of `net/url`, for the parts of a URL
the firewall handles: the path as a whole, one segment of it, a component of the query, and the
fragment.
-/

namespace VibesWaf

/-- The part of a URL a text is encoded for: `encodePath` and its siblings. -/
inductive Encoding
  | path
  | pathSegment
  | queryComponent
  | fragment
  deriving DecidableEq

/-- A byte of the set of `shouldEscape`'s first test. -/
def isAlphanum (c : UInt8) : Bool :=
  (0x61 ≤ c && c ≤ 0x7A) || (0x41 ≤ c && c ≤ 0x5A) || (0x30 ≤ c && c ≤ 0x39)

/-- `shouldEscape`. -/
def shouldEscape (c : UInt8) (mode : Encoding) : Bool :=
  if isAlphanum c then false
  else if c ∈ str "-_.~" then false
  else if c ∈ str "$&+,/:;=?@" then
    match mode with
    | .path => c == 0x3F
    | .pathSegment => c ∈ str "/;,?"
    | .queryComponent => true
    | .fragment => false
  else if mode = .fragment ∧ c ∈ str "!()*" then false
  else true

/-- `ishex`. -/
def ishex (c : UInt8) : Bool :=
  (0x30 ≤ c && c ≤ 0x39) || (0x61 ≤ c && c ≤ 0x66) || (0x41 ≤ c && c ≤ 0x46)

/-- `unhex`. -/
def unhex (c : UInt8) : UInt8 :=
  if 0x30 ≤ c && c ≤ 0x39 then c - 0x30
  else if 0x61 ≤ c && c ≤ 0x66 then c - 0x61 + 10
  else if 0x41 ≤ c && c ≤ 0x46 then c - 0x41 + 10
  else 0

/-- `unescape`; `none` is an error. -/
def unescape (mode : Encoding) : GoString → Option GoString
  | [] => some []
  | c :: s =>
    if c = 0x25 then
      match s with
      | a :: b :: s =>
        if ishex a && ishex b then (unescape mode s).map (((unhex a <<< 4) ||| unhex b) :: ·)
        else none
      | _ => none
    else if c = 0x2B ∧ mode = .queryComponent then (unescape mode s).map (0x20 :: ·)
    else (unescape mode s).map (c :: ·)

/-- A digit of `escape`: `upperhex`. -/
def upperhex (d : UInt8) : UInt8 :=
  if d < 10 then 0x30 + d else 0x41 + (d - 10)

/-- `escape`. -/
def escape (mode : Encoding) (s : GoString) : GoString :=
  s.flatMap fun (c : UInt8) =>
    if c = 0x20 ∧ mode = .queryComponent then [0x2B]
    else if shouldEscape c mode then [0x25, upperhex (c >>> 4), upperhex (c &&& 0x0F)]
    else [c]

/-- `url.PathUnescape`. -/
def pathUnescape (s : GoString) : Option GoString :=
  unescape .pathSegment s

/-- `url.QueryUnescape`. -/
def queryUnescape (s : GoString) : Option GoString :=
  unescape .queryComponent s

/-- A byte `validEncoded` lets pass in a path. -/
def validPathByte (c : UInt8) : Bool :=
  c ∈ str "!$&'()*+,;=:@[]%" || !shouldEscape c .path

/-- `validEncoded`, of a path. -/
def validEncoded (s : GoString) : Bool :=
  s.all validPathByte

/-! ### Decoding a path -/

/-- A percent sign without its digits. -/
example (mode : Encoding) : unescape mode [0x61, 0x25] = none := by
  simp [unescape]

@[simp]
theorem unescape_nil (mode : Encoding) : unescape mode [] = some [] := by
  rw [unescape]

/-- Any byte but a percent sign stands for itself in a path. -/
theorem unescape_cons {c : UInt8} (h : c ≠ 0x25) (s : GoString) :
    unescape .path (c :: s) = (unescape .path s).map (c :: ·) := by
  match s with
  | [] => simp [unescape, h]
  | [d] => simp [unescape, h]
  | d :: e :: s => rw [unescape, if_neg h, if_neg (by simp)]

/-- A percent sign wants two digits. -/
theorem unescape_percent (mode : Encoding) (a b : UInt8) (s : GoString) :
    unescape mode (0x25 :: a :: b :: s) =
      if ishex a && ishex b then (unescape mode s).map (((unhex a <<< 4) ||| unhex b) :: ·)
      else none := by
  rw [unescape, if_pos rfl]

/-- **Decoding part by part.** -/
theorem unescape_append {s a : GoString} (h : unescape .path s = some a) (t : GoString) :
    unescape .path (s ++ t) = (unescape .path t).map (a ++ ·) := by
  fun_induction unescape .path s generalizing a with
  | case1 =>
    obtain rfl := Option.some.inj h
    simp
  | case2 x y s hhex ih =>
    obtain ⟨r, hr, rfl⟩ := Option.map_eq_some_iff.mp h
    rw [List.cons_append, List.cons_append, List.cons_append, unescape_percent, if_pos hhex,
      ih hr, Option.map_map]
    rfl
  | case3 x y s hhex => exact absurd h (by simp)
  | case4 s hs => exact absurd h (by simp)
  | case5 c s hc hplus ih => exact absurd hplus.2 (by simp)
  | case6 c s hc hplus ih =>
    obtain ⟨r, hr, rfl⟩ := Option.map_eq_some_iff.mp h
    rw [List.cons_append, unescape_cons hc, ih hr, Option.map_map]
    rfl

/-- A first part decodes by itself when the second does not go on with a digit. -/
theorem unescape_append_left {s t a : GoString} (ht : ∀ c ∈ t.head?, ishex c = false)
    (h : unescape .path (s ++ t) = some a) : ∃ b, unescape .path s = some b := by
  fun_induction unescape .path s generalizing a with
  | case1 => exact ⟨_, rfl⟩
  | case2 x y s hhex ih =>
    rw [List.cons_append, List.cons_append, List.cons_append, unescape_percent, if_pos hhex] at h
    obtain ⟨r, hr, -⟩ := Option.map_eq_some_iff.mp h
    obtain ⟨b, hb⟩ := ih hr
    exact ⟨_, by rw [hb]; rfl⟩
  | case3 x y s hhex =>
    rw [List.cons_append, List.cons_append, List.cons_append, unescape_percent, if_neg hhex] at h
    exact absurd h (by simp)
  | case4 s hs =>
    -- the digits that are missing would have to come from the second part
    match s, t with
    | [], [] => simp [unescape] at h
    | [], [c] => simp [unescape] at h
    | [x], [] => simp [unescape] at h
    | [], c :: d :: t =>
      rw [List.cons_append, List.nil_append, unescape_percent, ht c rfl, Bool.false_and,
        if_neg Bool.false_ne_true] at h
      exact absurd h (by simp)
    | [x], c :: t =>
      rw [List.cons_append, List.cons_append, List.nil_append, unescape_percent, ht c rfl,
        Bool.and_false, if_neg Bool.false_ne_true] at h
      exact absurd h (by simp)
    | x :: y :: s, t => exact absurd rfl (hs x y s)
  | case5 c s hc hplus ih => exact absurd hplus.2 (by simp)
  | case6 c s hc hplus ih =>
    rw [List.cons_append, unescape_cons hc] at h
    obtain ⟨r, hr, -⟩ := Option.map_eq_some_iff.mp h
    obtain ⟨b, hb⟩ := ih hr
    exact ⟨_, by rw [hb]; rfl⟩

/-- A text with no percent sign stands for itself. -/
theorem unescape_of_plain {s : GoString} (h : 0x25 ∉ s) : unescape .path s = some s := by
  induction s with
  | nil => exact unescape_nil _
  | cons c s ih =>
    obtain ⟨hc, hs⟩ := not_or.mp (List.mem_cons.not.mp h)
    rw [unescape_cons (Ne.symm hc), ih hs]
    rfl

/-- Decoding does not lengthen a text, and shortens one with a percent sign. -/
theorem length_unescape {s a : GoString} (h : unescape .path s = some a) :
    a.length ≤ s.length ∧ (0x25 ∈ s → a.length < s.length) := by
  fun_induction unescape .path s generalizing a with
  | case1 =>
    obtain rfl := Option.some.inj h
    simp
  | case2 x y s hhex ih =>
    obtain ⟨r, hr, rfl⟩ := Option.map_eq_some_iff.mp h
    have hle := (ih hr).1
    simp only [List.length_cons]
    exact ⟨by omega, fun _ => by omega⟩
  | case3 x y s hhex => exact absurd h (by simp)
  | case4 s hs => exact absurd h (by simp)
  | case5 c s hc hplus ih => exact absurd hplus.2 (by simp)
  | case6 c s hc hplus ih =>
    obtain ⟨r, hr, rfl⟩ := Option.map_eq_some_iff.mp h
    obtain ⟨hle, hlt⟩ := ih hr
    refine ⟨by simpa using hle, fun hmem => ?_⟩
    have hmem' := (List.mem_cons.mp hmem).resolve_left (Ne.symm hc)
    simpa using hlt hmem'

/-- Nothing decodes to the empty text but itself. -/
theorem eq_nil_of_unescape {s : GoString} (h : unescape .path s = some []) : s = [] := by
  fun_induction unescape .path s with
  | case1 => rfl
  | case2 x y s hhex ih =>
    obtain ⟨r, -, heq⟩ := Option.map_eq_some_iff.mp h
    exact absurd heq (by simp)
  | case3 x y s hhex => exact absurd h (by simp)
  | case4 s hs => exact absurd h (by simp)
  | case5 c s hc hplus ih => exact absurd hplus.2 (by simp)
  | case6 c s hc hplus ih =>
    obtain ⟨r, -, heq⟩ := Option.map_eq_some_iff.mp h
    exact absurd heq (by simp)

/-! ### Encoding a path -/

theorem escape_append (mode : Encoding) (s t : GoString) :
    escape mode (s ++ t) = escape mode s ++ escape mode t :=
  List.flatMap_append

/-- The encoding of one byte in a path. -/
private theorem escape_cons (c : UInt8) (s : GoString) :
    escape .path (c :: s) =
      (if shouldEscape c .path then [0x25, upperhex (c >>> 4), upperhex (c &&& 0x0F)] else [c]) ++
        escape .path s := by
  rw [escape, List.flatMap_cons, if_neg (by simp)]
  rfl

/-- The digit of a number below sixteen. -/
private theorem upperhex_of_lt : ∀ d : UInt8, d < 16 →
    ishex (upperhex d) = true ∧ unhex (upperhex d) = d ∧ isAlphanum (upperhex d) = true := by
  decide +kernel

private theorem halves_of_byte : ∀ c : UInt8,
    c >>> 4 < 16 ∧ c &&& 0x0F < 16 ∧ (c >>> 4) <<< 4 ||| (c &&& 0x0F) = c := by
  decide +kernel

/-- A letter or a digit is never escaped. -/
private theorem validPathByte_of_isAlphanum {c : UInt8} (h : isAlphanum c = true) :
    validPathByte c = true := by
  rw [validPathByte, shouldEscape, if_pos h, Bool.not_false, Bool.or_true]

private theorem hex_of_byte (c : UInt8) :
    ishex (upperhex (c >>> 4)) = true ∧ ishex (upperhex (c &&& 0x0F)) = true ∧
      (unhex (upperhex (c >>> 4)) <<< 4) ||| unhex (upperhex (c &&& 0x0F)) = c ∧
      validPathByte (upperhex (c >>> 4)) = true ∧ validPathByte (upperhex (c &&& 0x0F)) = true := by
  obtain ⟨hhi, hlo, hbyte⟩ := halves_of_byte c
  obtain ⟨hhi_hex, hhi_value, hhi_alpha⟩ := upperhex_of_lt _ hhi
  obtain ⟨hlo_hex, hlo_value, hlo_alpha⟩ := upperhex_of_lt _ hlo
  refine ⟨hhi_hex, hlo_hex, ?_, validPathByte_of_isAlphanum hhi_alpha,
    validPathByte_of_isAlphanum hlo_alpha⟩
  rw [hhi_value, hlo_value, hbyte]

/-- **Encoding and decoding.** -/
theorem unescape_escape (s : GoString) : unescape .path (escape .path s) = some s := by
  induction s with
  | nil => rfl
  | cons c s ih =>
    rw [escape_cons]
    split
    · obtain ⟨hhi, hlo, hbyte, -⟩ := hex_of_byte c
      rw [List.cons_append, List.cons_append, List.cons_append, List.nil_append, unescape_percent,
        if_pos (by rw [hhi, hlo]; rfl), ih, hbyte]
      rfl
    · rename_i hplain
      have hc : c ≠ 0x25 := by
        rintro rfl
        exact hplain (by decide)
      rw [List.singleton_append, unescape_cons hc, ih]
      rfl

/-- An encoded path passes `validEncoded`. -/
theorem validEncoded_escape (s : GoString) : validEncoded (escape .path s) = true := by
  induction s with
  | nil => rfl
  | cons c s ih =>
    rw [escape_cons, validEncoded, List.all_append, Bool.and_eq_true]
    refine ⟨?_, ih⟩
    split
    · obtain ⟨-, -, -, hhi, hlo⟩ := hex_of_byte c
      have hpercent : validPathByte 0x25 = true := by decide
      simp [hpercent, hhi, hlo]
    · rename_i hplain
      simp [validPathByte, hplain]

theorem validEncoded_append (s t : GoString) :
    validEncoded (s ++ t) = (validEncoded s && validEncoded t) :=
  List.all_append

end VibesWaf

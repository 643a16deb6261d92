import Mathlib.Data.FinEnum
import Mathlib.Data.List.Basic
import Mathlib.Data.Nat.Digits.Defs

/-!
# Go strings

A Go string is a sequence of bytes, and every text the firewall handles (header values, rule
expressions, URL parts) is kept that way here: `GoString` is a list of bytes, and the functions
of Go's `strings` and `unicode` packages are written over it.

The ASCII behaviour of the case-mapping functions is written out. What they do on text with a
byte at or above `0x80` depends on the Unicode tables, the syntax accepted by `regexp` on that
package, and which texts name a host on `net/url`; all are fields of the class `GoLib`, so a
statement that does not fix them holds for every table, every regular-expression engine and every
syntax of hosts. `asciiLib` is the instance used where a concrete input is evaluated: it agrees
with Go on ASCII text, on patterns without metacharacters, and on host names with a port.
-/

namespace VibesWaf

/-- A Go `string`: its bytes. -/
abbrev GoString := List UInt8

/-- Texts are compared byte by byte. -/
instance : LawfulBEq GoString :=
  inferInstance

/-- The bytes of a string literal of the source. -/
def str (s : String) : GoString :=
  s.toByteArray.data.toList

theorem str_slash : str "/" = [0x2F] := rfl

theorem str_slashes : str "//" = [0x2F, 0x2F] := rfl

theorem str_question : str "?" = [0x3F] := rfl

theorem str_colon : str ":" = [0x3A] := rfl

theorem str_space : str " " = [0x20] := rfl

theorem str_comma : str ", " = [0x2C, 0x20] := rfl

theorem str_opening : str " [" = [0x20, 0x5B] := rfl

theorem str_bracket : str "]" = [0x5D] := rfl

/-- `fnv.New32a`. -/
def fnv32a (s : GoString) : UInt32 :=
  s.foldl (fun h c => (h ^^^ c.toUInt32) * 16777619) 2166136261

/-! ### The parts of the Go library that stay abstract -/

/-- The Unicode tables behind `strings.ToLower`, `strings.ToUpper` and `strings.EqualFold`
(consulted only for text with a byte at or above `0x80`); `regexp.Compile`, which answers with the
compiled pattern's `MatchString` or with the text of its error; and the `parseAuthority` of
`net/url`, which answers with the host. -/
class GoLib where
  unicodeToLower : GoString → GoString
  unicodeToUpper : GoString → GoString
  unicodeEqualFold : GoString → GoString → Bool
  regexpCompile : GoString → Except GoString (GoString → Bool)
  parseAuthority : GoString → Option GoString

/-! ### Case mapping -/

/-- Lower case of an ASCII letter; every other byte is unchanged. -/
def lowerByte (c : UInt8) : UInt8 :=
  if 0x41 ≤ c ∧ c ≤ 0x5A then c + 0x20 else c

/-- Upper case of an ASCII letter; every other byte is unchanged. -/
def upperByte (c : UInt8) : UInt8 :=
  if 0x61 ≤ c ∧ c ≤ 0x7A then c - 0x20 else c

/-- Every byte is an ASCII character. -/
def isASCII (s : GoString) : Bool :=
  s.all (· < 0x80)

section Case

variable [GoLib]

/-- `strings.ToLower`. -/
def toLower (s : GoString) : GoString :=
  if isASCII s then s.map lowerByte else GoLib.unicodeToLower s

/-- `strings.ToUpper`. -/
def toUpper (s : GoString) : GoString :=
  if isASCII s then s.map upperByte else GoLib.unicodeToUpper s

/-- `strings.EqualFold`. -/
def equalFold (s t : GoString) : Bool :=
  if isASCII s && isASCII t then s.map lowerByte == t.map lowerByte
  else GoLib.unicodeEqualFold s t

end Case

/-! ### Character classes of a single byte read as a rune -/

/-- `unicode.IsLetter(rune(ch))` for a byte `ch`: the letters of Latin-1. -/
def isLetter (c : UInt8) : Bool :=
  (0x41 ≤ c && c ≤ 0x5A) || (0x61 ≤ c && c ≤ 0x7A) || c == 0xAA || c == 0xB5 || c == 0xBA ||
    (0xC0 ≤ c && c ≤ 0xD6) || (0xD8 ≤ c && c ≤ 0xF6) || 0xF8 ≤ c

/-- `unicode.IsDigit(rune(ch))` for a byte `ch`. -/
def isDigit (c : UInt8) : Bool :=
  0x30 ≤ c && c ≤ 0x39

/-- `unicode.IsSpace(rune(ch))` for a byte `ch`. -/
def isSpace (c : UInt8) : Bool :=
  (0x09 ≤ c && c ≤ 0x0D) || c == 0x20 || c == 0x85 || c == 0xA0

/-! ### Searching, cutting and trimming -/

/-- `strings.HasPrefix(s, p)`. -/
def hasPrefix (s p : GoString) : Bool :=
  p.isPrefixOf s

theorem hasPrefix_append (p t : GoString) : hasPrefix (p ++ t) p = true :=
  List.isPrefixOf_iff_prefix.mpr (List.prefix_append p t)

theorem exists_append_of_hasPrefix {s p : GoString} (h : hasPrefix s p = true) :
    ∃ t, s = p ++ t := by
  obtain ⟨t, rfl⟩ := List.isPrefixOf_iff_prefix.mp h
  exact ⟨t, rfl⟩

/-- `strings.HasSuffix(s, p)`. -/
def hasSuffix (s p : GoString) : Bool :=
  p.isSuffixOf s

/-- `strings.Contains(s, sub)`. -/
def contains : GoString → GoString → Bool
  | [], sub => sub.isEmpty
  | c :: s, sub => hasPrefix (c :: s) sub || contains s sub

/-- `strings.Split(s, sep)` for a separator of one byte. -/
def split (s : GoString) (sep : UInt8) : List GoString :=
  s.splitOn sep

/-- `strings.Cut(s, sep)` for a separator of one byte: the text before its first occurrence
and, when there is one, the text after it. -/
def cut (s : GoString) (sep : UInt8) : GoString × Option GoString :=
  match s.dropWhile (· ≠ sep) with
  | [] => (s, none)
  | _ :: after => (s.takeWhile (· ≠ sep), some after)

/-- Cutting behind a text without the separator. -/
theorem cut_append {s : GoString} {sep : UInt8} (h : sep ∉ s) (t : GoString) :
    cut (s ++ t) sep = (s ++ (cut t sep).1, (cut t sep).2) := by
  have hs : ∀ c ∈ s, (decide (c ≠ sep)) = true := by
    intro c hc
    exact decide_eq_true fun heq => h (heq ▸ hc)
  unfold cut
  rw [List.dropWhile_append_of_pos hs, List.takeWhile_append_of_pos hs]
  cases t.dropWhile (· ≠ sep) <;> rfl

theorem cut_of_not_mem {s : GoString} {sep : UInt8} (h : sep ∉ s) : cut s sep = (s, none) := by
  have happend := cut_append h []
  rw [List.append_nil] at happend
  rw [happend]
  exact Prod.ext (List.append_nil s) rfl

theorem cut_append_cons {s : GoString} {sep : UInt8} (h : sep ∉ s) (t : GoString) :
    cut (s ++ sep :: t) sep = (s, some t) := by
  rw [cut_append h]
  simp [cut]

/-- A separator in a text cuts it in two. -/
theorem exists_cut_of_mem {s : GoString} {sep : UInt8} (h : sep ∈ s) :
    ∃ a b, s = a ++ sep :: b ∧ sep ∉ a ∧ cut s sep = (a, some b) := by
  obtain ⟨a, b, rfl, ha⟩ := List.eq_append_cons_of_mem h
  exact ⟨a, b, rfl, ha, cut_append_cons ha b⟩

/-- `strings.TrimPrefix(s, p)`. -/
def trimPrefix (s p : GoString) : GoString :=
  if hasPrefix s p then s.drop p.length else s

/-- `strings.TrimSuffix(s, p)`. -/
def trimSuffix (s p : GoString) : GoString :=
  if hasSuffix s p then s.take (s.length - p.length) else s

/-- The UTF-8 encodings of the white-space runes of `unicode.IsSpace`. -/
def spaceRunes : List GoString :=
  [[0x09], [0x0A], [0x0B], [0x0C], [0x0D], [0x20], [0xC2, 0x85], [0xC2, 0xA0],
    [0xE1, 0x9A, 0x80], [0xE2, 0x80, 0x80], [0xE2, 0x80, 0x81], [0xE2, 0x80, 0x82],
    [0xE2, 0x80, 0x83], [0xE2, 0x80, 0x84], [0xE2, 0x80, 0x85], [0xE2, 0x80, 0x86],
    [0xE2, 0x80, 0x87], [0xE2, 0x80, 0x88], [0xE2, 0x80, 0x89], [0xE2, 0x80, 0x8A],
    [0xE2, 0x80, 0xA8], [0xE2, 0x80, 0xA9], [0xE2, 0x80, 0xAF], [0xE2, 0x81, 0x9F],
    [0xE3, 0x80, 0x80]]

/-- Drop leading members of `runes`; the first argument bounds the number of drops. -/
def dropRunes (runes : List GoString) : Nat → GoString → GoString
  | 0, s => s
  | n + 1, s =>
    match runes.find? (hasPrefix s) with
    | some r => dropRunes runes n (s.drop r.length)
    | none => s

/-- `strings.TrimSpace`: leading and then trailing white-space runes are dropped. A trailing
rune is a leading one of the reversed text. -/
def trimSpace (s : GoString) : GoString :=
  let left := dropRunes spaceRunes s.length s
  (dropRunes (spaceRunes.map List.reverse) left.length left.reverse).reverse

/-! ### Decimal text -/

/-- The decimal text of a natural number. -/
def natText (n : Nat) : GoString :=
  if n = 0 then [0x30] else (Nat.digits 10 n).reverse.map fun d => 0x30 + UInt8.ofNat d

/-- `strconv.Itoa`, and `%d` of `fmt`. -/
def itoa (n : Int) : GoString :=
  if n < 0 then 0x2D :: natText n.natAbs else natText n.natAbs

/-- The value of a nonempty text of digits. -/
def decimal (s : GoString) : Option Nat :=
  if s = [] ∨ !s.all isDigit then none
  else some (s.foldl (fun n c => n * 10 + (c.toNat - 0x30)) 0)

/-- `strconv.ParseUint(s, 10, 32)`. -/
def parseUint32 (s : GoString) : Option Nat :=
  (decimal s).filter (· < 2 ^ 32)

/-- The sign of a number's text, and the rest of the text. -/
def cutSign : GoString → Bool × GoString
  | [] => (false, [])
  | c :: r => if c = 0x2B then (false, r) else if c = 0x2D then (true, r) else (false, c :: r)

/-- `strconv.ParseInt(s, 10, 64)` and `strconv.Atoi(s)`. -/
def parseInt64 (s : GoString) : Option Int64 :=
  match decimal (cutSign s).2 with
  | none => none
  | some n =>
    if (cutSign s).1 then if 2 ^ 63 < n then none else some (Int64.ofInt (-n))
    else if 2 ^ 63 ≤ n then none
    else some (Int64.ofInt n)

/-- A digit of `hex.EncodeToString`. -/
def hexDigit (d : UInt8) : UInt8 :=
  if d < 10 then 0x30 + d else 0x61 + (d - 10)

/-- `hex.EncodeToString`. -/
def hexEncode (b : List UInt8) : GoString :=
  b.flatMap fun (c : UInt8) => [hexDigit (c >>> 4), hexDigit (c &&& 0x0F)]

/-! ### The instance for evaluation -/

/-- A Go library that knows ASCII only: other bytes have no case, a pattern is accepted when it
consists of letters, digits and spaces, which match themselves, and an authority is a host name
with an optional port. -/
@[reducible] def asciiLib : GoLib where
  unicodeToLower s := s.map lowerByte
  unicodeToUpper s := s.map upperByte
  unicodeEqualFold s t := s.map lowerByte == t.map lowerByte
  regexpCompile p :=
    if p.all fun c => (c < 0x80 && isLetter c) || isDigit c || c == 0x20 then
      .ok fun s => contains s p
    else .error (str "error parsing regexp")
  parseAuthority a :=
    if a.all fun c => (c < 0x80 && isLetter c) || isDigit c || c ∈ str "-.:" then some a else none

/-- Tables that only map ASCII letters make no ASCII text out of another text. -/
theorem isASCII_of_toUpper_asciiLib {w : GoString} (h : isASCII (@toUpper asciiLib w) = true) :
    isASCII w = true := by
  have htable : @toUpper asciiLib w = w.map upperByte := by
    unfold toUpper
    split <;> rfl
  have hbyte : ∀ c : UInt8, decide (upperByte c < 0x80) = true → decide (c < 0x80) = true := by
    decide +kernel
  rw [htable, isASCII, List.all_map, List.all_eq_true] at h
  exact List.all_eq_true.mpr fun c hc => hbyte c (h c hc)

end VibesWaf

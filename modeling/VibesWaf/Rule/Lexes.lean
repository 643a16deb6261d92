import Mathlib.Data.FinEnum
import Mathlib.Data.List.TakeWhile
import VibesWaf.Rule.Grammar

/-!
# Lexing a text piece by piece

A printer of rule expressions writes a text as pieces one after the other: words, numbers,
quoted literals, brackets and commas, with spaces between them. `Lexes s ts` says that the
lexer reads `s` as `ts`, without fuel and without positions, and the lemmas under its name put
one piece in front of a text that is already known to lex.

A word or a number ends at the next byte that cannot continue it; `Delimited` is that condition
on the text after it.
-/

namespace VibesWaf

/-- The text starts with no byte that continues a word. -/
def Delimited (s : GoString) : Prop :=
  ∀ c r, s = c :: r → isWordByte c = false

theorem delimited_nil : Delimited [] := by
  rintro c r ⟨⟩

theorem delimited_cons {c : UInt8} (hc : isWordByte c = false) (s : GoString) :
    Delimited (c :: s) := by
  rintro d r ⟨⟩
  exact hc

/-- A word of the language: it starts with a letter or a dot and has only word bytes. -/
def isWord : GoString → Bool
  | [] => false
  | c :: r => (isLetter c || c == 0x2E) && r.all isWordByte

/-- A number of the language: digits, and at least one. -/
def isNumber (w : GoString) : Bool :=
  !w.isEmpty && w.all isDigit

/-- A text that stands between quotes as it is: its closing quote is the first one that is not
behind a backslash. -/
def QuoteSafe (v : GoString) : Prop :=
  readString (v ++ [0x22]) = some (v, [])

instance (v : GoString) : Decidable (QuoteSafe v) :=
  inferInstanceAs (Decidable (_ = _))

/-- A text without quotes and backslashes stands between quotes as it is. -/
theorem quoteSafe_of_not_mem {v : GoString} (hq : 0x22 ∉ v) (hb : 0x5C ∉ v) : QuoteSafe v := by
  induction v with
  | nil => exact readString_quote []
  | cons c v ih =>
    obtain ⟨hqc, hqv⟩ : 0x22 ≠ c ∧ 0x22 ∉ v := by simpa using hq
    obtain ⟨hbc, hbv⟩ : 0x5C ≠ c ∧ 0x5C ∉ v := by simpa using hb
    have hv : readString (v ++ [0x22]) = some (v, []) := ih hqv hbv
    rw [QuoteSafe, List.cons_append, readString_cons hqc.symm hbc.symm, hv]
    rfl

section Lexes

variable [GoLib]

/-- `Lexes s ts`: reading `s` gives the tokens `ts`. -/
inductive Lexes : GoString → List Token → Prop
  | nil {s : GoString} (hs : skipWhitespace s = []) : Lexes s [eofToken]
  | cons {s rest rest' : GoString} {ch : UInt8} {t : Token} {ts : List Token}
      (hs : skipWhitespace s = ch :: rest)
      (ht : ∀ len, readToken len ch rest = .ok (t, rest')) (h : Lexes rest' ts) :
      Lexes s (t :: ts)

/-- A text that lexes is tokenized. -/
theorem Lexes.tokenize {s : GoString} {ts : List Token} (h : Lexes s ts) :
    tokenize s = .ok ts := by
  have key : ∀ len fuel : ℕ, s.length ≤ fuel → tokenizeFrom len fuel s = .ok ts := by
    induction h with
    | nil hs =>
      intro len fuel _
      exact tokenizeFrom_nil hs len fuel
    | @cons s rest rest' ch t ts hs ht _ ih =>
      intro len fuel hfuel
      have hskip : (skipWhitespace s).length ≤ s.length := (List.dropWhile_sublist _).length_le
      rw [hs, List.length_cons] at hskip
      obtain ⟨fuel, rfl⟩ : ∃ k, fuel = k + 1 := ⟨fuel - 1, by omega⟩
      have hle := readToken_length_le (ht len)
      rw [tokenizeFrom_cons hs, ht len]
      simp only [ih len fuel (by omega)]
  exact key _ _ le_rfl

omit [GoLib] in
private theorem ite_ok {ε α : Type*} {c : Prop} [Decidable c] {x x' y y' : Except ε α} {a : α}
    (hx : x = .ok a → x' = .ok a) (hy : y = .ok a → y' = .ok a) :
    (if c then x else y) = .ok a → (if c then x' else y') = .ok a := by
  split
  · exact hx
  · exact hy

/-- The length of the whole text shows in errors only. -/
private theorem readToken_len {len len' : ℕ} {ch : UInt8} {rest : GoString}
    {p : Token × GoString} (h : readToken len ch rest = .ok p) :
    readToken len' ch rest = .ok p := by
  revert h
  rw [readToken, readToken]
  refine ite_ok id (ite_ok id (ite_ok id (ite_ok id (ite_ok id (ite_ok ?_
    (ite_ok id (ite_ok id ?_)))))))
  · cases readString rest with
    | none =>
      intro h
      cases h
    | some q => exact id
  · intro h
    cases h

/-- A text that is tokenized lexes to its tokens. -/
theorem lexes_of_tokenize {s : GoString} {ts : List Token} (h : tokenize s = .ok ts) :
    Lexes s ts := by
  have key : ∀ (len fuel : ℕ) {s : GoString} {ts : List Token},
      tokenizeFrom len fuel s = .ok ts → Lexes s ts := by
    intro len fuel
    induction fuel with
    | zero =>
      intro s ts h
      cases hsk : skipWhitespace s with
      | nil =>
        rw [tokenizeFrom_nil hsk] at h
        obtain rfl : [eofToken] = ts := by simpa using h
        exact .nil hsk
      | cons ch rest =>
        rw [tokenizeFrom, hsk] at h
        cases h
    | succ fuel ih =>
      intro s ts h
      cases hsk : skipWhitespace s with
      | nil =>
        rw [tokenizeFrom_nil hsk] at h
        obtain rfl : [eofToken] = ts := by simpa using h
        exact .nil hsk
      | cons ch rest =>
        rw [tokenizeFrom_cons hsk] at h
        cases hr : readToken len ch rest with
        | error e => simp [hr] at h
        | ok p =>
          obtain ⟨t, rest'⟩ := p
          cases ht : tokenizeFrom len fuel rest' with
          | error e => simp [hr, ht] at h
          | ok us =>
            obtain rfl : t :: us = ts := by simpa [hr, ht] using h
            exact .cons hsk (fun _ => readToken_len hr) (ih ht)
  exact key _ _ h

/-! ### The first token of a text -/

/-- `Front s t rest`: the first token of `s` is `t`, and the text after it is `rest`. -/
def Front (s : GoString) (t : Token) (rest : GoString) : Prop :=
  ∃ ch r, skipWhitespace s = ch :: r ∧ ∀ len, readToken len ch r = .ok (t, rest)

/-- A token in front of a text that lexes. -/
theorem Lexes.front {s rest : GoString} {t : Token} {ts : List Token} (ht : Front s t rest)
    (h : Lexes rest ts) : Lexes s (t :: ts) := by
  obtain ⟨ch, r, hs, hread⟩ := ht
  exact .cons hs hread h

/-- What is left of a text that lexes after its first token. -/
theorem Lexes.of_front {s rest : GoString} {t : Token} {ts : List Token} (h : Lexes s ts)
    (ht : Front s t rest) : ∃ us, ts = t :: us ∧ Lexes rest us := by
  obtain ⟨ch, r, hs, hread⟩ := ht
  cases h with
  | nil hs' => simp [hs] at hs'
  | @cons _ rest' rest'' ch' t' ts hs' hread' h =>
    obtain ⟨rfl, rfl⟩ : ch = ch' ∧ r = rest' := by simpa [hs] using hs'
    obtain ⟨rfl, rfl⟩ : t = t' ∧ rest = rest'' := by simpa [hread 0] using hread' 0
    exact ⟨ts, rfl, h⟩

omit [GoLib] in
private theorem skipWhitespace_cons {c : UInt8} (hc : isSpace c = false) (s : GoString) :
    skipWhitespace (c :: s) = c :: s := by
  simp [skipWhitespace, hc]

omit [GoLib] in
private theorem skipWhitespace_space (s : GoString) :
    skipWhitespace (0x20 :: s) = skipWhitespace s := by
  simp [skipWhitespace, isSpace]

/-- Only the text after its spaces matters. -/
theorem Lexes.congr {s s' : GoString} {ts : List Token} (h : Lexes s ts)
    (hskip : skipWhitespace s' = skipWhitespace s) : Lexes s' ts := by
  cases h with
  | nil hs => exact .nil (hskip.trans hs)
  | cons hs ht h => exact .cons (hskip.trans hs) ht h

/-- A space in front changes nothing. -/
theorem lexes_space_iff {s : GoString} {ts : List Token} : Lexes (0x20 :: s) ts ↔ Lexes s ts :=
  ⟨fun h => h.congr (skipWhitespace_space s).symm, fun h => h.congr (skipWhitespace_space s)⟩

theorem Lexes.space {s : GoString} {ts : List Token} (h : Lexes s ts) : Lexes (0x20 :: s) ts :=
  lexes_space_iff.mpr h

theorem front_leftParen (s : GoString) : Front (0x28 :: s) ⟨.leftParen, str "("⟩ s :=
  ⟨0x28, s, skipWhitespace_cons (by decide) s, fun _ => rfl⟩

theorem front_rightParen (s : GoString) : Front (0x29 :: s) ⟨.rightParen, str ")"⟩ s :=
  ⟨0x29, s, skipWhitespace_cons (by decide) s, fun _ => rfl⟩

theorem front_leftBracket (s : GoString) : Front (0x5B :: s) ⟨.leftBracket, str "["⟩ s :=
  ⟨0x5B, s, skipWhitespace_cons (by decide) s, fun _ => rfl⟩

theorem front_rightBracket (s : GoString) : Front (0x5D :: s) ⟨.rightBracket, str "]"⟩ s :=
  ⟨0x5D, s, skipWhitespace_cons (by decide) s, fun _ => rfl⟩

theorem front_comma (s : GoString) : Front (0x2C :: s) ⟨.comma, str ","⟩ s :=
  ⟨0x2C, s, skipWhitespace_cons (by decide) s, fun _ => rfl⟩

/-- A text that starts with a quote starts with the literal that `readString` cuts off. -/
theorem front_literal {s v rest : GoString} (h : readString s = some (v, rest)) :
    Front (0x22 :: s) ⟨.string, v⟩ rest :=
  ⟨0x22, s, skipWhitespace_cons (by decide) s, fun _ => by
    rw [readToken, if_neg (by decide), if_neg (by decide), if_neg (by decide), if_neg (by decide),
      if_neg (by decide), if_pos rfl, h]⟩

omit [GoLib] in
/-- A literal that reads back before the end of the text reads back before any text. -/
private theorem readString_append {s v rest : GoString} (h : readString s = some (v, rest))
    (more : GoString) : readString (s ++ more) = some (v, rest ++ more) := by
  fun_induction readString s generalizing v with
  | case1 => cases h
  | case2 r =>
    obtain ⟨rfl, rfl⟩ : [] = v ∧ r = rest := by simpa using h
    exact readString_quote _
  | case3 => cases h
  | case4 d r' _ ih =>
    obtain ⟨w, hw, rfl⟩ : ∃ w, readString r' = some (w, rest) ∧ 0x5C :: d :: w = v := by
      simpa using h
    rw [List.cons_append, List.cons_append, readString_escape, ih hw]
    rfl
  | case5 c r h1 h2 ih =>
    obtain ⟨w, hw, rfl⟩ : ∃ w, readString r = some (w, rest) ∧ c :: w = v := by simpa using h
    rw [List.cons_append, readString_cons h1 h2, ih hw]
    rfl

/-- A quoted literal. -/
theorem front_quoted {v : GoString} (hv : QuoteSafe v) (s : GoString) :
    Front (0x22 :: (v ++ 0x22 :: s)) ⟨.string, v⟩ s := by
  have hread := readString_append hv s
  exact front_literal (by simpa using hread)

omit [GoLib] in
/-- A run of word bytes does not reach into a text that ends it. -/
theorem Delimited.span {p : UInt8 → Bool} (hp : ∀ c, p c = true → isWordByte c = true)
    {s : GoString} (hs : Delimited s) (w : GoString) :
    (w ++ s).takeWhile p = w.takeWhile p ∧ (w ++ s).dropWhile p = w.dropWhile p ++ s := by
  induction w with
  | nil =>
    cases s with
    | nil => exact ⟨rfl, rfl⟩
    | cons c r =>
      have hc : p c = false := by
        by_contra hcon
        have hword := hp c (by simpa using hcon)
        rw [hs c r rfl] at hword
        cases hword
      simp [hc]
  | cons c w ih => by_cases hc : p c = true <;> simp [hc, ih]

omit [GoLib] in
private theorem span_delimited {p : UInt8 → Bool} (hp : ∀ c, p c = true → isWordByte c = true)
    {w s : GoString} (hw : ∀ d ∈ w, p d = true) (hs : Delimited s) :
    (w ++ s).takeWhile p = w ∧ (w ++ s).dropWhile p = s := by
  have hall : w.takeWhile p = w := List.takeWhile_eq_self_iff.mpr hw
  have hnone : w.dropWhile p = [] := List.dropWhile_eq_nil_iff.mpr hw
  simpa [hall, hnone] using hs.span hp w

/-- A word in front of a text that ends it. -/
theorem front_word {w s : GoString} (hw : isWord w = true) (hs : Delimited s) :
    Front (w ++ s) (wordToken w) s := by
  cases w with
  | nil => cases hw
  | cons c r =>
    obtain ⟨hc, hr⟩ : (isLetter c || c == 0x2E) = true ∧ ∀ d ∈ r, isWordByte d = true := by
      rwa [isWord, Bool.and_eq_true, List.all_eq_true] at hw
    have hfirst : ∀ c : UInt8, (isLetter c || c == 0x2E) = true →
        isSpace c = false ∧ isWordByte c = true ∧ c ≠ 0x28 ∧ c ≠ 0x29 ∧ c ≠ 0x2C ∧ c ≠ 0x5B ∧
          c ≠ 0x5D ∧ c ≠ 0x22 := by decide +kernel
    obtain ⟨hsp, hwb, h1, h2, h3, h4, h5, h6⟩ := hfirst c hc
    have hspan := span_delimited (w := c :: r) (fun _ h => h) (by simpa [hwb] using hr) hs
    refine ⟨c, r ++ s, skipWhitespace_cons hsp (r ++ s), fun len => ?_⟩
    rw [readToken, if_neg h1, if_neg h2, if_neg h3, if_neg h4, if_neg h5, if_neg h6, if_pos hc]
    simp only [readWord, List.cons_append] at hspan ⊢
    rw [hspan.1, hspan.2]

/-- A number in front of a text that ends it. -/
theorem front_number {w s : GoString} (hw : isNumber w = true) (hs : Delimited s) :
    Front (w ++ s) (numberToken w) s := by
  cases w with
  | nil => cases hw
  | cons c r =>
    have hdigits : ∀ d ∈ c :: r, isDigit d = true := by simpa [isNumber] using hw
    have hfirst : ∀ c : UInt8, isDigit c = true →
        isSpace c = false ∧ (isLetter c || c == 0x2E) = false ∧ c ≠ 0x28 ∧ c ≠ 0x29 ∧
          c ≠ 0x2C ∧ c ≠ 0x5B ∧ c ≠ 0x5D ∧ c ≠ 0x22 := by decide +kernel
    have hc : isDigit c = true := hdigits c (by simp)
    obtain ⟨hsp, hl, h1, h2, h3, h4, h5, h6⟩ := hfirst c hc
    have hspan := span_delimited (w := c :: r) (p := isDigit)
      (fun d hd => by simp [isWordByte, hd]) hdigits hs
    refine ⟨c, r ++ s, skipWhitespace_cons hsp (r ++ s), fun len => ?_⟩
    rw [readToken, if_neg h1, if_neg h2, if_neg h3, if_neg h4, if_neg h5, if_neg h6,
      if_neg (by simp [hl]), if_pos hc]
    simp only [readNumber, List.cons_append] at hspan ⊢
    rw [hspan.1, hspan.2]

/-! ### Pieces in front of a text that lexes -/

variable {s : GoString} {ts : List Token}

theorem Lexes.leftParen (h : Lexes s ts) : Lexes (0x28 :: s) (⟨.leftParen, str "("⟩ :: ts) :=
  h.front (front_leftParen s)

theorem Lexes.rightParen (h : Lexes s ts) : Lexes (0x29 :: s) (⟨.rightParen, str ")"⟩ :: ts) :=
  h.front (front_rightParen s)

theorem Lexes.leftBracket (h : Lexes s ts) : Lexes (0x5B :: s) (⟨.leftBracket, str "["⟩ :: ts) :=
  h.front (front_leftBracket s)

theorem Lexes.rightBracket (h : Lexes s ts) :
    Lexes (0x5D :: s) (⟨.rightBracket, str "]"⟩ :: ts) :=
  h.front (front_rightBracket s)

theorem Lexes.comma (h : Lexes s ts) : Lexes (0x2C :: s) (⟨.comma, str ","⟩ :: ts) :=
  h.front (front_comma s)

/-- A quoted literal in front. -/
theorem Lexes.quoted {v : GoString} (hv : QuoteSafe v) (h : Lexes s ts) :
    Lexes (0x22 :: (v ++ 0x22 :: s)) (⟨.string, v⟩ :: ts) :=
  h.front (front_quoted hv s)

/-- A word in front of a text that ends it. -/
theorem Lexes.word {w : GoString} (hw : isWord w = true) (hs : Delimited s) (h : Lexes s ts) :
    Lexes (w ++ s) (wordToken w :: ts) :=
  h.front (front_word hw hs)

/-- A number in front of a text that ends it. -/
theorem Lexes.number {w : GoString} (hw : isNumber w = true) (hs : Delimited s)
    (h : Lexes s ts) : Lexes (w ++ s) (numberToken w :: ts) :=
  h.front (front_number hw hs)

end Lexes

/-! ### The tokens of words -/

section Words

variable [GoLib]

/-- On ASCII text the case tables do not matter. -/
theorem wordToken_of_isASCII {w : GoString} (h : isASCII w = true) :
    wordToken w = @wordToken asciiLib w := by
  simp [wordToken, toUpper, toLower, h]

/-- An operator is lexed as an operator. -/
theorem wordToken_operator {op : GoString} (h : op ∈ operators) :
    isWord op = true ∧ wordToken op = ⟨.operator, op⟩ := by
  have key : ∀ op ∈ operators, isWord op = true ∧ isASCII op = true ∧
      @wordToken asciiLib op = ⟨.operator, op⟩ := by decide
  obtain ⟨hw, hascii, ht⟩ := key op h
  exact ⟨hw, by rw [wordToken_of_isASCII hascii, ht]⟩

/-! ### Phrases of a comparison -/

/-- A field name, a space and an operator in front of a text that ends the operator. -/
theorem Lexes.fieldOperator {f op s : GoString} {ts : List Token} (hf : isWord f = true)
    (hft : wordToken f = ⟨.identifier, f⟩) (hop : op ∈ operators) (hs : Delimited s)
    (h : Lexes s ts) :
    Lexes (f ++ 0x20 :: (op ++ s)) (⟨.identifier, f⟩ :: ⟨.operator, op⟩ :: ts) := by
  obtain ⟨how, hot⟩ := wordToken_operator hop
  rw [← hft, ← hot]
  exact ((h.word how hs).space).word hf (delimited_cons (by decide) _)

/-- The text is read as one literal with this value, in front of any text that ends it. -/
def ReadsLiteral (text value : GoString) : Prop :=
  ∃ t : Token, t.literal? = some value ∧ ∀ {s : GoString} {ts : List Token}, Delimited s →
    Lexes s ts → Lexes (text ++ s) (t :: ts)

omit [GoLib] in
theorem numberToken_literal (v : GoString) :
    (numberToken v).literal? = some (numberToken v).value := by
  rw [numberToken]
  split
  · rfl
  split
  · rfl
  · rfl

/-- A number is a literal, with the value of its token. -/
theorem readsLiteral_number {w : GoString} (hw : isNumber w = true) :
    ReadsLiteral w (numberToken w).value :=
  ⟨numberToken w, numberToken_literal w, fun hs h => h.number hw hs⟩

/-- A list of literals and its closing bracket in front of any text. -/
theorem lexes_listItems {texts values : List GoString}
    (h : List.Forall₂ ReadsLiteral texts values) :
    ∃ items, ListItems items values ∧ ∀ {s : GoString} {ts : List Token}, Lexes s ts →
      Lexes ([0x2C, 0x20].intercalate texts ++ 0x5D :: s) (items ++ ts) := by
  induction h with
  | nil => exact ⟨[⟨.rightBracket, str "]"⟩], .close rfl, fun h => h.rightBracket⟩
  | @cons text value texts values hread hreads ih =>
    obtain ⟨t, ht, hlex⟩ := hread
    cases hreads with
    | nil =>
      refine ⟨[t, ⟨.rightBracket, str "]"⟩], .last ht rfl, fun h => ?_⟩
      simpa using hlex (delimited_cons (by decide) _) h.rightBracket
    | cons =>
      obtain ⟨items, hitems, hrest⟩ := ih
      refine ⟨t :: ⟨.comma, str ","⟩ :: items, .item ht rfl hitems, fun h => ?_⟩
      have hfront := hlex (delimited_cons (by decide) _) (hrest h).space.comma
      simpa using hfront

end Words

end VibesWaf

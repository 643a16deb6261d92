import VibesWaf.Rule.Types

/-!
# The lexer of the rule language

`tokenize` is `Lexer.Tokenize`. The source walks a byte position over the input; here the state
is the unread rest of the input, and the position in an error is the length of the input less
the length of the rest. Bytes are classified as Latin-1 runes, one at a time. A word is a
logical connective, a boolean literal, an operator or an identifier; a string literal keeps its
backslashes, and a backslash only keeps the next byte from ending the literal; the numbers `1`
and `0` become the strings `true` and `false`.
-/

namespace VibesWaf

/-! ### The readers -/

/-- `skipWhitespace`. -/
def skipWhitespace (s : GoString) : GoString :=
  s.dropWhile isSpace

/-- The bytes that continue a word. -/
def isWordByte (c : UInt8) : Bool :=
  isLetter c || isDigit c || c == 0x2E || c == 0x5F

/-- `readWord`: the word and the rest. -/
def readWord (s : GoString) : GoString × GoString :=
  (s.takeWhile isWordByte, s.dropWhile isWordByte)

/-- `readNumber`: the digits and the rest. -/
def readNumber (s : GoString) : GoString × GoString :=
  (s.takeWhile isDigit, s.dropWhile isDigit)

/-- `readString` after the opening quote: the raw text of the literal and the rest after its
closing quote. -/
def readString : GoString → Option (GoString × GoString)
  | [] => none
  | c :: r =>
    if c = 0x22 then some ([], r)
    else if c = 0x5C then
      match r with
      | [] => none
      | d :: r' => (readString r').map fun p => (c :: d :: p.1, p.2)
    else (readString r).map fun p => (c :: p.1, p.2)

theorem readString_quote (r : GoString) : readString (0x22 :: r) = some ([], r) := by
  rw [readString.eq_def]
  simp

theorem readString_escape (d : UInt8) (r : GoString) :
    readString (0x5C :: d :: r) = (readString r).map fun p => (0x5C :: d :: p.1, p.2) := by
  rw [readString.eq_def]
  simp

theorem readString_cons {c : UInt8} (hq : c ≠ 0x22) (hb : c ≠ 0x5C) (r : GoString) :
    readString (c :: r) = (readString r).map fun p => (c :: p.1, p.2) := by
  rw [readString.eq_def]
  simp [hq, hb]

/-- A literal stands before a quote. -/
theorem readString_eq {s value rest : GoString} (h : readString s = some (value, rest)) :
    s = value ++ 0x22 :: rest := by
  fun_induction readString s generalizing value with
  | case1 => cases h
  | case2 r =>
    obtain ⟨rfl, rfl⟩ : [] = value ∧ r = rest := by simpa using h
    rfl
  | case3 => cases h
  | case4 d r' _ ih =>
    obtain ⟨v, hv, rfl⟩ : ∃ v, readString r' = some (v, rest) ∧ 0x5C :: d :: v = value := by
      simpa using h
    rw [ih hv]
    rfl
  | case5 c r _ _ ih =>
    obtain ⟨v, hv, rfl⟩ : ∃ v, readString r = some (v, rest) ∧ c :: v = value := by simpa using h
    rw [ih hv]
    rfl

/-- The token of a word. -/
def wordToken [GoLib] (word : GoString) : Token :=
  if toUpper word = str "AND" then ⟨.logical, str "AND"⟩
  else if toUpper word = str "OR" then ⟨.logical, str "OR"⟩
  else if toUpper word = str "NOT" then ⟨.logical, str "NOT"⟩
  else if toUpper word = str "TRUE" ∨ toUpper word = str "FALSE" then ⟨.string, toLower word⟩
  else if word ∈ operators then ⟨.operator, word⟩
  else ⟨.identifier, word⟩

/-- The token of a number. -/
def numberToken (value : GoString) : Token :=
  if value = str "1" then ⟨.string, str "true"⟩
  else if value = str "0" then ⟨.string, str "false"⟩
  else ⟨.number, value⟩

/-- One turn of the `switch` of `Tokenize`, at the byte `ch` with `rest` after it: the token
and the unread rest. `len` is the length of the whole input. -/
def readToken [GoLib] (len : ℕ) (ch : UInt8) (rest : GoString) :
    Except RuleError (Token × GoString) :=
  if ch = 0x28 then .ok (⟨.leftParen, str "("⟩, rest)
  else if ch = 0x29 then .ok (⟨.rightParen, str ")"⟩, rest)
  else if ch = 0x2C then .ok (⟨.comma, str ","⟩, rest)
  else if ch = 0x5B then .ok (⟨.leftBracket, str "["⟩, rest)
  else if ch = 0x5D then .ok (⟨.rightBracket, str "]"⟩, rest)
  else if ch = 0x22 then
    match readString rest with
    | some (value, rest') => .ok (⟨.string, value⟩, rest')
    | none => .error (.unterminatedString (len - rest.length))
  else if isLetter ch || ch == 0x2E then
    .ok (wordToken (readWord (ch :: rest)).1, (readWord (ch :: rest)).2)
  else if isDigit ch then
    .ok (numberToken (readNumber (ch :: rest)).1, (readNumber (ch :: rest)).2)
  else .error (.unexpectedCharacter ch (len - (rest.length + 1)))

/-- The token that ends every token sequence. -/
def eofToken : Token := ⟨.eof, []⟩

/-- The loop of `Tokenize` on the unread rest of an input of `len` bytes. -/
def tokenizeFrom [GoLib] (len : ℕ) : ℕ → GoString → Except RuleError (List Token)
  | 0, s =>
    match skipWhitespace s with
    | [] => .ok [eofToken]
    | _ :: _ => .error .exhausted
  | fuel + 1, s =>
    match skipWhitespace s with
    | [] => .ok [eofToken]
    | ch :: rest =>
      match readToken len ch rest with
      | .error e => .error e
      | .ok (token, rest') =>
        match tokenizeFrom len fuel rest' with
        | .error e => .error e
        | .ok tokens => .ok (token :: tokens)

/-- `Lexer.Tokenize`. -/
def tokenize [GoLib] (input : GoString) : Except RuleError (List Token) :=
  tokenizeFrom input.length input.length input

/-! ### What the lexer returns -/

section Tokenize

variable [GoLib]

theorem tokenizeFrom_nil {s : GoString} (h : skipWhitespace s = []) (len fuel : ℕ) :
    tokenizeFrom len fuel s = .ok [eofToken] := by
  cases fuel <;> simp [tokenizeFrom, h]

theorem tokenizeFrom_cons {s rest : GoString} {ch : UInt8} (h : skipWhitespace s = ch :: rest)
    (len fuel : ℕ) :
    tokenizeFrom len (fuel + 1) s =
      match readToken len ch rest with
      | .error e => .error e
      | .ok (token, rest') =>
        match tokenizeFrom len fuel rest' with
        | .error e => .error e
        | .ok tokens => .ok (token :: tokens) := by
  rw [tokenizeFrom, h]

omit [GoLib] in
private theorem readString_length_lt {s value rest : GoString}
    (h : readString s = some (value, rest)) : rest.length < s.length := by
  fun_induction readString s generalizing value with
  | case1 => cases h
  | case2 r =>
    obtain ⟨rfl, rfl⟩ : [] = value ∧ r = rest := by simpa using h
    simp
  | case3 => cases h
  | case4 d r' _ ih =>
    obtain ⟨v, hv, -⟩ : ∃ v, readString r' = some (v, rest) ∧ 0x5C :: d :: v = value := by
      simpa using h
    have := ih hv
    simp only [List.length_cons]
    omega
  | case5 c r _ _ ih =>
    obtain ⟨v, hv, -⟩ : ∃ v, readString r = some (v, rest) ∧ c :: v = value := by simpa using h
    have := ih hv
    simp only [List.length_cons]
    omega

/-- How a turn of the loop ends: with a mark, a literal between quotes, a word or a number, and the
unread rest. -/
inductive ReadToken (ch : UInt8) (rest : GoString) : Token → GoString → Prop
  | mark {k : TokenType} {x : GoString} (hk : k ∉ [.string, .number, .eof]) :
    ReadToken ch rest ⟨k, x⟩ rest
  | quoted {v rest' : GoString} (hch : ch = 0x22) (hread : readString rest = some (v, rest')) :
    ReadToken ch rest ⟨.string, v⟩ rest'
  | word (hch : (isLetter ch || ch == 0x2E) = true) :
    ReadToken ch rest (wordToken (readWord (ch :: rest)).1) (readWord (ch :: rest)).2
  | number (hch : isDigit ch = true) :
    ReadToken ch rest (numberToken (readNumber (ch :: rest)).1) (readNumber (ch :: rest)).2

/-- What a turn of the loop can do. -/
theorem readToken_cases {len : ℕ} {ch : UInt8} {rest rest' : GoString} {t : Token}
    (h : readToken len ch rest = .ok (t, rest')) : ReadToken ch rest t rest' := by
  have hmark : ∀ {k : TokenType} {x : GoString}, k ∉ [.string, .number, .eof] →
      (.ok (⟨k, x⟩, rest) : Except RuleError (Token × GoString)) = .ok (t, rest') →
        ReadToken ch rest t rest' := fun hk heq => by
    obtain ⟨rfl, rfl⟩ := Prod.mk.inj (Except.ok.inj heq)
    exact .mark hk
  rw [readToken] at h
  rcases ite_eq_iff.mp h with ⟨-, h⟩ | ⟨-, h⟩
  · exact hmark (by decide) h
  rcases ite_eq_iff.mp h with ⟨-, h⟩ | ⟨-, h⟩
  · exact hmark (by decide) h
  rcases ite_eq_iff.mp h with ⟨-, h⟩ | ⟨-, h⟩
  · exact hmark (by decide) h
  rcases ite_eq_iff.mp h with ⟨-, h⟩ | ⟨-, h⟩
  · exact hmark (by decide) h
  rcases ite_eq_iff.mp h with ⟨-, h⟩ | ⟨-, h⟩
  · exact hmark (by decide) h
  rcases ite_eq_iff.mp h with ⟨hch, h⟩ | ⟨-, h⟩
  · cases hread : readString rest with
    | none =>
      rw [hread] at h
      cases h
    | some p =>
      rw [hread] at h
      obtain ⟨rfl, rfl⟩ := Prod.mk.inj (Except.ok.inj h)
      exact .quoted hch hread
  rcases ite_eq_iff.mp h with ⟨hch, h⟩ | ⟨-, h⟩
  · obtain ⟨rfl, rfl⟩ := Prod.mk.inj (Except.ok.inj h)
    exact .word hch
  rcases ite_eq_iff.mp h with ⟨hch, h⟩ | ⟨-, h⟩
  · obtain ⟨rfl, rfl⟩ := Prod.mk.inj (Except.ok.inj h)
    exact .number hch
  · cases h

/-- A turn of the loop makes no end token and uses up at least one byte. -/
private theorem readToken_ok {len : ℕ} {ch : UInt8} {rest rest' : GoString} {t : Token}
    (h : readToken len ch rest = .ok (t, rest')) :
    t.type ≠ .eof ∧ rest'.length ≤ rest.length := by
  have hword : ∀ w, (wordToken w).type ≠ .eof := fun w => by
    rw [wordToken]
    repeat' split
    all_goals simp
  have hnumber : ∀ w, (numberToken w).type ≠ .eof := fun w => by
    rw [numberToken]
    repeat' split
    all_goals simp
  have hdrop : ∀ p : UInt8 → Bool, p ch = true →
      ((ch :: rest).dropWhile p).length ≤ rest.length := fun p hp => by
    rw [List.dropWhile_cons_of_pos hp]
    exact (List.dropWhile_sublist p).length_le
  cases readToken_cases h with
  | mark hk =>
    refine ⟨?_, le_rfl⟩
    rintro rfl
    exact hk (by decide)
  | quoted _ hread => exact ⟨by simp, (readString_length_lt hread).le⟩
  | word hch =>
    refine ⟨hword _, hdrop _ ?_⟩
    rcases Bool.or_eq_true_iff.mp hch with hc | hc <;> simp [isWordByte, hc]
  | number hch => exact ⟨hnumber _, hdrop _ hch⟩

/-- A token uses up at least one byte. -/
theorem readToken_length_le {len : ℕ} {ch : UInt8} {rest rest' : GoString} {t : Token}
    (h : readToken len ch rest = .ok (t, rest')) : rest'.length ≤ rest.length :=
  (readToken_ok h).2

omit [GoLib] in
private theorem ite_ne {α : Type*} {c : Prop} [Decidable c] {x y z : α} (hx : x ≠ z)
    (hy : y ≠ z) : (if c then x else y) ≠ z := by
  split
  · exact hx
  · exact hy

/-- A turn of the loop does not run out of fuel. -/
private theorem readToken_ne_exhausted (len : ℕ) (ch : UInt8) (rest : GoString) :
    readToken len ch rest ≠ .error .exhausted := by
  have hok : ∀ p : Token × GoString, Except.ok p ≠ .error RuleError.exhausted := by
    intro p h
    cases h
  rw [readToken]
  refine ite_ne (hok _) (ite_ne (hok _) (ite_ne (hok _) (ite_ne (hok _) (ite_ne (hok _)
    (ite_ne ?_ (ite_ne (hok _) (ite_ne (hok _) ?_)))))))
  · cases readString rest with
    | none =>
      intro h
      cases h
    | some p => exact hok _
  · intro h
    cases h

/-- The fuel of `tokenize` is always enough. -/
theorem tokenizeFrom_ne_exhausted (len fuel : ℕ) (s : GoString) (hs : s.length ≤ fuel) :
    tokenizeFrom len fuel s ≠ .error .exhausted := by
  induction fuel generalizing s with
  | zero =>
    obtain rfl : s = [] := List.length_eq_zero_iff.mp (by omega)
    rw [tokenizeFrom_nil rfl]
    simp
  | succ fuel ih =>
    have hskip : (skipWhitespace s).length ≤ s.length := (List.dropWhile_sublist _).length_le
    cases hsk : skipWhitespace s with
    | nil =>
      rw [tokenizeFrom_nil hsk]
      simp
    | cons ch rest =>
      rw [hsk, List.length_cons] at hskip
      rw [tokenizeFrom_cons hsk]
      cases hr : readToken len ch rest with
      | error e =>
        have hne : e ≠ .exhausted := by
          rintro rfl
          exact readToken_ne_exhausted len ch rest hr
        simpa using hne
      | ok p =>
        obtain ⟨t, rest'⟩ := p
        have := ih rest' ((readToken_length_le hr).trans (by omega))
        cases h : tokenizeFrom len fuel rest' <;> simp_all

/-- An end token stands at the end of a token sequence and nowhere else. -/
private theorem tokenizeFrom_eof {len fuel : ℕ} {s : GoString} {tokens : List Token}
    (h : tokenizeFrom len fuel s = .ok tokens) :
    ∃ ts, tokens = ts ++ [eofToken] ∧ ∀ t ∈ ts, t.type ≠ .eof := by
  induction fuel generalizing s tokens with
  | zero =>
    cases hsk : skipWhitespace s with
    | nil =>
      rw [tokenizeFrom_nil hsk] at h
      obtain rfl : [eofToken] = tokens := by simpa using h
      exact ⟨[], rfl, by simp⟩
    | cons ch rest =>
      rw [tokenizeFrom, hsk] at h
      cases h
  | succ fuel ih =>
    cases hsk : skipWhitespace s with
    | nil =>
      rw [tokenizeFrom_nil hsk] at h
      obtain rfl : [eofToken] = tokens := by simpa using h
      exact ⟨[], rfl, by simp⟩
    | cons ch rest =>
      rw [tokenizeFrom_cons hsk] at h
      cases hr : readToken len ch rest with
      | error e => simp [hr] at h
      | ok p =>
        obtain ⟨t, rest'⟩ := p
        cases ht : tokenizeFrom len fuel rest' with
        | error e => simp [hr, ht] at h
        | ok us =>
          obtain rfl : t :: us = tokens := by simpa [hr, ht] using h
          obtain ⟨ts, rfl, hts⟩ := ih ht
          refine ⟨t :: ts, rfl, ?_⟩
          rintro u (_ | ⟨_, hu⟩)
          · exact (readToken_ok hr).1
          · exact hts u hu

theorem tokenize_eof {s : GoString} {tokens : List Token} (h : tokenize s = .ok tokens) :
    ∃ ts, tokens = ts ++ [eofToken] ∧ ∀ t ∈ ts, t.type ≠ .eof :=
  tokenizeFrom_eof h

end Tokenize

end VibesWaf

import VibesWaf.Builder.AstConverter
import VibesWaf.Rule.Semantics

/-!
# Which builder rules the backend reads as they were built

`Condition.triple` is what the user of the builder sees of a condition: its field, operator and
value. The printer puts values into the text as they are, so quotes, backslashes, bare numbers
and boolean values may come back as something else, and it leaves conditions on the `device.`
aliases out.

`compileExpression_generateExpression_iff` says exactly for which lists the printed text
compiles to a tree whose comparisons are those of the list. One direction follows the printer.
For the other, `Operands` is the order in which a derivation meets comparisons and connectives,
without its nesting: reading the text from the left, each condition in turn is either printed
legibly or spoils its own comparison.
-/

namespace VibesWaf

open Connectives

/-! ### What a condition says -/

/-- The comparison the user built: field, operator and value. -/
def Condition.triple (c : Condition) : Node :=
  if c.operator = str "exists" ∨ c.operator = str "not_exists" then
    .comparison c.field c.operator .none
  else if c.operator = str "in" ∨ c.operator = str "not_in" then
    .comparison c.field c.operator (.list (c.values.getD []))
  else .comparison c.field c.operator (.string c.value)

/-- A condition the builder lets the user complete: a registered field with one of its
operators, a list of values where the operator takes one, and a connector, if any, of the two
the builder offers. -/
structure Condition.Complete (c : Condition) : Prop where
  registered : ∃ d ∈ fieldRegistry, d.name = c.field ∧ c.operator ∈ d.allowedOps
  values : c.operator = str "in" ∨ c.operator = str "not_in" →
    c.values.getD [] ≠ [] ∧ ∀ v ∈ c.values.getD [], v ≠ []
  connector : c.logicAfter = none ∨ c.logicAfter = some (str "AND") ∨
    c.logicAfter = some (str "OR")

/-- Every quote of the text is behind a backslash of its own, and the text does not end in such
a backslash. -/
def fitsQuotes : GoString → Bool
  | [] => true
  | c :: r =>
    if c = 0x22 then false
    else if c = 0x5C then
      match r with
      | [] => false
      | _ :: r' => fitsQuotes r'
    else fitsQuotes r

/-- The values that come back as they are: on a text field those that fit between quotes, on a
number field the numbers but `0` and `1` and the two boolean words, on a boolean field `true`. -/
def LiteralSurvives : BuilderType → GoString → Prop
  | .string, v => fitsQuotes v = true
  | .number, v =>
    (isNumber v = true ∧ v ≠ str "1" ∧ v ≠ str "0") ∨ v = str "true" ∨ v = str "false"
  | .boolean, v => v = str "true"

/-- The field is known to the builder, and the values of the condition come back as they are. -/
def Condition.Legible (c : Condition) : Prop :=
  ∃ fd, builderField? c.field = some fd ∧
    if c.operator = str "exists" ∨ c.operator = str "not_exists" then True
    else if c.operator = str "in" ∨ c.operator = str "not_in" then
      ∀ v ∈ c.values.getD [], LiteralSurvives fd.type v
    else LiteralSurvives fd.type c.value

/-- The pattern of a regular-expression operator is one the validator accepts. -/
def Condition.PatternAccepted [GoLib] (c : Condition) : Prop :=
  c.operator = str "regex" ∨ c.operator = str "not_regex" → validateRegex c.value = .ok ()

/-! ### Values between quotes -/

/-- A text fits between quotes when the lexer reads it back from there. -/
private theorem quoteSafe_of_fitsQuotes {v : GoString} (h : fitsQuotes v = true) :
    QuoteSafe v := by
  rw [QuoteSafe]
  fun_induction fitsQuotes v with
  | case1 => exact readString_quote []
  | case2 => cases h
  | case3 => cases h
  | case4 d r' _ ih =>
    rw [List.cons_append, List.cons_append, readString_escape, ih h]
    rfl
  | case5 c r hq hb ih =>
    rw [List.cons_append, readString_cons hq hb, ih h]
    rfl

/-- A literal that ends at the quote the printer wrote fits between quotes. -/
private theorem fitsQuotes_of_readString {v s : GoString}
    (h : readString (v ++ 0x22 :: s) = some (v, s)) : fitsQuotes v = true := by
  fun_induction fitsQuotes v with
  | case1 => rfl
  | case2 r =>
    rw [List.cons_append, readString_quote] at h
    simp at h
  | case3 =>
    rw [List.cons_append, List.nil_append, readString_escape] at h
    simp at h
  | case4 d r' _ ih =>
    rw [List.cons_append, List.cons_append, readString_escape] at h
    exact ih (by simpa using h)
  | case5 c r hq hb ih =>
    rw [List.cons_append, readString_cons hq hb] at h
    exact ih (by simpa using h)

/-- No literal contains a quote that only bytes other than quotes and backslashes precede. -/
private theorem readString_ne {x y s rest : GoString} (hx : ∀ c ∈ x, c ≠ 0x22 ∧ c ≠ 0x5C) :
    readString s ≠ some (x ++ 0x22 :: y, rest) := by
  induction x generalizing s with
  | nil =>
    intro h
    have hs := readString_eq h
    rw [hs, List.nil_append, List.cons_append, readString_quote] at h
    simp at h
  | cons c x ih =>
    intro h
    have hs := readString_eq h
    obtain ⟨hq, hb⟩ := hx c (by simp)
    rw [hs, List.cons_append, List.cons_append, readString_cons hq hb] at h
    exact ih (fun d hd => hx d (by simp [hd])) (by simpa using h)

section ReadBack

variable [GoLib]

/-- A quoted value whose literal is the value: it fits between quotes, and the text after the
closing quote is unread. -/
private theorem fitsQuotes_of_lexes {v s : GoString} {t : Token} {us : List Token}
    (h : Lexes (0x22 :: (v ++ 0x22 :: s)) (t :: us)) (ht : t.literal? = some v) :
    fitsQuotes v = true ∧ Lexes s us := by
  have hskip : skipWhitespace (0x22 :: (v ++ 0x22 :: s)) = 0x22 :: (v ++ 0x22 :: s) := by
    simp [skipWhitespace, isSpace]
  cases h with
  | nil hs => simp [hskip] at hs
  | @cons _ rest rest' ch _ _ hs hread h =>
    obtain ⟨rfl, rfl⟩ : 0x22 = ch ∧ v ++ 0x22 :: s = rest := by simpa [hskip] using hs
    cases hr : readString (v ++ 0x22 :: s) with
    | none => simp [readToken, hr] at hread
    | some p =>
      obtain ⟨w, rest''⟩ := p
      obtain ⟨rfl, rfl⟩ : ⟨.string, w⟩ = t ∧ rest'' = rest' := by simpa [readToken, hr] using hread
      obtain rfl : w = v := by simpa [Token.literal?] using ht
      obtain rfl : s = rest'' := by simpa using readString_eq hr
      exact ⟨fitsQuotes_of_readString hr, h⟩

/-! ### Bare values -/

/-- Only words of ASCII letters are read as boolean literals, as the Unicode tables have it for
the bytes a word may have. -/
def BooleanWordsASCII : Prop :=
  ∀ w : GoString, isWord w = true → toUpper w = str "TRUE" ∨ toUpper w = str "FALSE" →
    isASCII w = true

/-- The text does not start with a literal token. -/
private def NoLiteral (s : GoString) : Prop :=
  ∀ (t : Token) (us : List Token), Lexes s (t :: us) → t.literal? = none

/-- The literal of a word: the word in lower case, which is one of the two boolean words. -/
private theorem wordToken_literal (hcase : BooleanWordsASCII) {w v : GoString}
    (hw : isWord w = true) (h : (wordToken w).literal? = some v) :
    v = w.map lowerByte ∧ (v = str "true" ∨ v = str "false") := by
  have hbool : toUpper w = str "TRUE" ∨ toUpper w = str "FALSE" := by
    by_contra hcon
    rw [wordToken] at h
    split_ifs at h <;> simp_all [Token.literal?]
  have hascii := hcase w hw hbool
  have hval : v = w.map lowerByte := by
    rw [wordToken] at h
    split_ifs at h <;> simp_all [Token.literal?, toLower]
  have hround : ∀ c : UInt8, lowerByte (upperByte c) = lowerByte c := by decide +kernel
  -- lowering the upper case of a word lowers the word
  have hlow : v = (toUpper w).map lowerByte := by
    rw [hval, toUpper, if_pos hascii, List.map_map]
    exact List.map_congr_left fun c _ => (hround c).symm
  refine ⟨hval, ?_⟩
  rcases hbool with h | h
  · exact .inl (by rw [hlow, h]; decide)
  · exact .inr (by rw [hlow, h]; decide)

/-- The text of a literal token that starts with the byte `c`: a quoted literal, a boolean word
or a number. -/
private theorem literal_cases (hcase : BooleanWordsASCII) {c : UInt8} {r s rest v : GoString}
    (hs : Delimited s) {t : Token} (hread : ∀ len, readToken len c (r ++ s) = .ok (t, rest))
    (ht : t.literal? = some v) :
    (c = 0x22 ∧ readString (r ++ s) = some (v, rest)) ∨
      ∃ w r', c :: r = w ++ r' ∧ rest = r' ++ s ∧
        ((v = w.map lowerByte ∧ (v = str "true" ∨ v = str "false")) ∨
          (isNumber w = true ∧ v = (numberToken w).value)) := by
  cases readToken_cases (hread 0) with
  | mark hk =>
    -- a parenthesis, a bracket or a comma is no literal
    rw [Token.literal?, if_neg fun htype => hk (by rcases htype with rfl | rfl <;> decide)] at ht
    cases ht
  | quoted hch hr =>
    obtain rfl : _ = v := by simpa [Token.literal?] using ht
    exact .inl ⟨hch, hr⟩
  | word hch =>
    right
    obtain ⟨hword, hrest⟩ := hs.span (p := isWordByte) (fun _ h => h) (c :: r)
    have hcword : isWordByte c = true := by
      rcases Bool.or_eq_true_iff.mp hch with hc | hc <;> simp [isWordByte, hc]
    have hw : isWord ((c :: r).takeWhile isWordByte) = true := by
      rw [List.takeWhile_cons_of_pos hcword, isWord, hch, Bool.true_and]
      exact List.all_takeWhile
    have htok : (readWord (c :: (r ++ s))).1 = (c :: r).takeWhile isWordByte := hword
    rw [htok] at ht
    exact ⟨_, _, List.takeWhile_append_dropWhile.symm, hrest,
      .inl (wordToken_literal hcase hw ht)⟩
  | number hch =>
    right
    obtain ⟨hnum, hrest⟩ := hs.span (p := isDigit) (fun d hd => by simp [isWordByte, hd]) (c :: r)
    have hw : isNumber ((c :: r).takeWhile isDigit) = true := by
      have hall : ((c :: r).takeWhile isDigit).all isDigit = true := List.all_takeWhile
      rw [isNumber, hall, List.takeWhile_cons_of_pos hch]
      rfl
    have hval : v = (numberToken ((c :: r).takeWhile isDigit)).value := by
      have htok : (readNumber (c :: (r ++ s))).1 = (c :: r).takeWhile isDigit := hnum
      rw [htok, numberToken_literal] at ht
      exact (by simpa using ht.symm)
    exact ⟨_, _, List.takeWhile_append_dropWhile.symm, hrest, .inr ⟨hw, hval⟩⟩

/-- A bare value whose literal is the value, before a text that ends it and starts with no
literal: a number that keeps its digits, or a boolean word, and the text after it is unread. -/
private theorem survives_of_lexes_bare (hcase : BooleanWordsASCII) {v s : GoString}
    (hs : Delimited s) (hno : NoLiteral s) {t : Token} {us : List Token}
    (h : Lexes (v ++ s) (t :: us)) (ht : t.literal? = some v) :
    LiteralSurvives .number v ∧ Lexes s us := by
  have hspaces : ∀ d ∈ v.takeWhile isSpace, isSpace d = true :=
    List.all_eq_true.mp List.all_takeWhile
  have hsplit : v = v.takeWhile isSpace ++ v.dropWhile isSpace :=
    List.takeWhile_append_dropWhile.symm
  generalize v.takeWhile isSpace = x at hspaces hsplit
  have hskip : skipWhitespace (v ++ s) = skipWhitespace (v.dropWhile isSpace ++ s) := by
    conv_lhs => rw [hsplit, List.append_assoc]
    exact List.dropWhile_append_of_pos hspaces
  cases hv : v.dropWhile isSpace with
  | nil =>
    -- the value is blank, so the token comes from the text after it
    rw [hv, List.nil_append] at hskip
    rw [hno t us (h.congr hskip.symm)] at ht
    cases ht
  | cons c r =>
    have hc : isSpace c = false := by
      have hhead := List.head?_dropWhile_not isSpace v
      simpa [hv] using hhead
    rw [hv] at hskip hsplit
    have hskip' : skipWhitespace (v ++ s) = c :: (r ++ s) := by
      rw [hskip, List.cons_append]
      simp [skipWhitespace, hc]
    cases h with
    | nil hnil => simp [hskip'] at hnil
    | @cons _ rest rest' ch _ _ hcons hread h =>
      obtain ⟨rfl, rfl⟩ : c = ch ∧ r ++ s = rest := by simpa [hskip'] using hcons
      rcases literal_cases hcase hs hread ht with ⟨rfl, hstring⟩ | ⟨w, r', hw, rfl, hval⟩
      · have hvis : ∀ d : UInt8, isSpace d = true → d ≠ 0x22 ∧ d ≠ 0x5C := by decide +kernel
        rw [hsplit] at hstring
        exact absurd hstring (readString_ne fun d hd => hvis d (hspaces d hd))
      · -- the literal is as long as the value only if it is all of it
        rw [hw] at hsplit
        have hwhole : v.length = w.length → v = w ∧ r' = [] := fun hlen => by
          have hsum := congrArg List.length hsplit
          simp only [List.length_append] at hsum
          obtain rfl : x = [] := List.length_eq_zero_iff.mp (by omega)
          obtain rfl : r' = [] := List.length_eq_zero_iff.mp (by omega)
          exact ⟨by simpa using hsplit, rfl⟩
        rcases hval with ⟨hmap, hbool⟩ | ⟨hnum, hval⟩
        · obtain ⟨-, rfl⟩ := hwhole (by rw [hmap, List.length_map])
          exact ⟨.inr hbool, by simpa using h⟩
        · have hmem : ∀ d ∈ w, d ∈ v := fun d hd => by rw [hsplit]; simp [hd]
          rw [numberToken] at hval
          split_ifs at hval with h1 h0
          · have hone := hmem 0x31 (by rw [h1]; decide)
            rw [hval] at hone
            exact absurd hone (by decide)
          · have hzero := hmem 0x30 (by rw [h0]; decide)
            rw [hval] at hzero
            exact absurd hzero (by decide)
          · obtain rfl : v = w := hval
            obtain ⟨-, rfl⟩ := hwhole rfl
            exact ⟨.inl ⟨hnum, h1, h0⟩, by simpa using h⟩

/-- A printed value whose literal is the value comes back as it is. -/
private theorem survives_of_lexes (hcase : BooleanWordsASCII) {type : BuilderType}
    (htype : type ≠ .boolean) {v s : GoString} (hs : Delimited s) (hno : NoLiteral s) {t : Token}
    {us : List Token} (h : Lexes (literalText type v ++ s) (t :: us)) (ht : t.literal? = some v) :
    LiteralSurvives type v ∧ Lexes s us := by
  cases type with
  | string =>
    have hquoted : Lexes (0x22 :: (v ++ 0x22 :: s)) (t :: us) := by simpa [literalText] using h
    exact fitsQuotes_of_lexes hquoted ht
  | number =>
    have hbare : Lexes (v ++ s) (t :: us) := by simpa [literalText] using h
    exact survives_of_lexes_bare hcase hs hno hbare ht
  | boolean => exact absurd rfl htype

/-- A printed list whose items are the values: each of them comes back as it is. -/
private theorem survives_of_lexes_list (hcase : BooleanWordsASCII) {type : BuilderType}
    (htype : type ≠ .boolean) {v : GoString} {vs : List GoString} {s : GoString}
    {items us : List Token} (hitems : ListItems items (v :: vs))
    (h : Lexes ([0x2C, 0x20].intercalate ((v :: vs).map (literalText type)) ++ 0x5D :: s)
      (items ++ us)) :
    (∀ w ∈ v :: vs, LiteralSurvives type w) ∧ Lexes s us := by
  have hclose : ∀ u : GoString, NoLiteral (0x5D :: u) := fun u t us h => by
    obtain ⟨_, heq, -⟩ := h.of_front (front_rightBracket u)
    obtain ⟨rfl, -⟩ : t = ⟨.rightBracket, str "]"⟩ ∧ _ := by simpa using heq
    rfl
  have hcomma : ∀ u : GoString, NoLiteral (0x2C :: u) := fun u t us h => by
    obtain ⟨_, heq, -⟩ := h.of_front (front_comma u)
    obtain ⟨rfl, -⟩ : t = ⟨.comma, str ","⟩ ∧ _ := by simpa using heq
    rfl
  induction vs generalizing v items with
  | nil =>
    have htext : Lexes (literalText type v ++ 0x5D :: s) (items ++ us) := by simpa using h
    have hdelim : Delimited (0x5D :: s) := delimited_cons (by decide) s
    cases hitems with
    | @last t r _ ht hr =>
      obtain ⟨hsurv, hrest⟩ := survives_of_lexes hcase htype hdelim (hclose s) htext ht
      obtain ⟨us', heq, hlex⟩ := hrest.of_front (front_rightBracket s)
      obtain ⟨-, rfl⟩ : r = ⟨.rightBracket, str "]"⟩ ∧ us = us' := by simpa using heq
      exact ⟨by simpa using hsurv, hlex⟩
    | @item t sep _ ts _ ht hsep hts =>
      -- the printer writes the bracket where the tokens have a comma
      obtain ⟨-, hrest⟩ := survives_of_lexes hcase htype hdelim (hclose s) htext ht
      obtain ⟨us', heq, -⟩ := hrest.of_front (front_rightBracket s)
      obtain ⟨rfl, -⟩ : sep = ⟨.rightBracket, str "]"⟩ ∧ _ := by simpa using heq
      cases hsep
  | cons w vs ih =>
    have htext : Lexes (literalText type v ++ 0x2C :: 0x20 ::
        ([0x2C, 0x20].intercalate ((w :: vs).map (literalText type)) ++ 0x5D :: s))
        (items ++ us) := by simpa using h
    have hdelim : ∀ u : GoString, Delimited (0x2C :: u) := delimited_cons (by decide)
    cases hitems with
    | @item t sep _ ts _ ht hsep hts =>
      obtain ⟨hsurv, hrest⟩ := survives_of_lexes hcase htype (hdelim _) (hcomma _) htext ht
      obtain ⟨us', heq, hlex⟩ := hrest.of_front (front_comma _)
      obtain ⟨-, rfl⟩ : sep = ⟨.comma, str ","⟩ ∧ ts ++ us = us' := by simpa using heq
      obtain ⟨hall, hlex⟩ := ih hts (lexes_space_iff.mp hlex)
      exact ⟨List.forall_mem_cons.mpr ⟨hsurv, hall⟩, hlex⟩

/-! ### The order of the comparisons in a derivation -/

/-- The tokens of a derivation and the comparisons among them, in order. The flag tells whether
an operand has just ended: what follows is then a connective or a closing parenthesis. -/
private inductive Operands : Bool → List Token → List Node → Prop
  | done : Operands true [] []
  | connective {t : Token} {ts : List Token} {ns : List Node}
      (ht : isLogical (str "AND") t ∨ isLogical (str "OR") t) (h : Operands false ts ns) :
      Operands true (t :: ts) ns
  | close {t : Token} {ts : List Token} {ns : List Node} (ht : t.type = .rightParen)
      (h : Operands true ts ns) : Operands true (t :: ts) ns
  | not {t : Token} {ts : List Token} {ns : List Node} (ht : isLogical (str "NOT") t)
      (h : Operands false ts ns) : Operands false (t :: ts) ns
  | paren {t : Token} {ts : List Token} {ns : List Node} (ht : t.type = .leftParen)
      (h : Operands false ts ns) : Operands false (t :: ts) ns
  | comparison {g ts : List Token} {n : Node} {ns : List Node} (hg : Comparison g n)
      (h : Operands true ts ns) : Operands false (g ++ ts) (n :: ns)

/-- A derivation meets the comparisons of its tree from left to right. -/
private theorem Derives.operands {l : Level} {ts : List Token} {n : Node} (h : Derives l ts n) :
    ∀ {us : List Token} {ms : List Node}, Operands true us ms →
      Operands false (ts ++ us) (leaves n ++ ms) := by
  induction h with
  | comparison h =>
    obtain ⟨f, o, v, rfl⟩ := h.eq_comparison
    exact fun hus => .comparison h hus
  | not ht _ ih =>
    intro us ms hus
    simpa [leaves] using Operands.not ht (ih hus)
  | @paren l r ts n hl _ hr ih =>
    intro us ms hus
    simpa using Operands.paren hl (ih (.close hr hus))
  | factor _ ih => exact ih
  | and _ ht _ iha ihb =>
    intro us ms hus
    simpa [leaves] using iha (.connective (.inl ht) (ihb hus))
  | term _ ih => exact ih
  | or _ ht _ iha ihb =>
    intro us ms hus
    simpa [leaves] using iha (.connective (.inr ht) (ihb hus))

omit [GoLib] in
private theorem Comparison.current_eq {g : List Token} {n : Node} (h : Comparison g n)
    (ts : List Token) : (current (g ++ ts)).type = .identifier ∧
      ∃ o v, n = .comparison (current (g ++ ts)).value o v := by
  cases h with
  | exist hf _ _ => exact ⟨hf, _, _, rfl⟩
  | list hf _ _ _ _ => exact ⟨hf, _, _, rfl⟩
  | literal hf _ _ _ => exact ⟨hf, _, _, rfl⟩

omit [GoLib] in
private theorem Comparison.none_inv {g : List Token} {f o : GoString}
    (h : Comparison g (.comparison f o .none)) : ∃ a b, g = [a, b] := by
  generalize hn : Node.comparison f o .none = n at h
  cases h with
  | exist _ _ _ => exact ⟨_, _, rfl⟩
  | list _ _ _ _ _ => simp at hn
  | literal _ _ _ _ => simp at hn

omit [GoLib] in
private theorem Comparison.list_inv {g : List Token} {f o : GoString} {vs : List GoString}
    (h : Comparison g (.comparison f o (.list vs))) :
    ∃ a b l items, g = a :: b :: l :: items ∧ ListItems items vs := by
  generalize hn : Node.comparison f o (.list vs) = n at h
  cases h with
  | exist _ _ _ => simp at hn
  | list _ _ _ _ hitems =>
    obtain ⟨-, -, rfl⟩ : _ ∧ _ ∧ vs = _ := by simpa using hn
    exact ⟨_, _, _, _, rfl, hitems⟩
  | literal _ _ _ _ => simp at hn

omit [GoLib] in
private theorem Comparison.string_inv {g : List Token} {f o v : GoString}
    (h : Comparison g (.comparison f o (.string v))) :
    ∃ a b t, g = [a, b, t] ∧ t.literal? = some v := by
  generalize hn : Node.comparison f o (.string v) = n at h
  cases h with
  | exist _ _ _ => simp at hn
  | list _ _ _ _ _ => simp at hn
  | literal _ _ _ ht =>
    obtain ⟨-, -, rfl⟩ : _ ∧ _ ∧ v = _ := by simpa using hn
    exact ⟨_, _, _, rfl, ht⟩

/-- Where an operand starts there is a token, and it is none of the end. -/
private theorem Operands.ne_nil {ts : List Token} {ns : List Node} (h : Operands false ts ns) :
    ts ≠ [] := by
  cases h with
  | not _ _ => simp
  | paren _ _ => simp
  | comparison hg _ =>
    intro hnil
    obtain ⟨rfl, -⟩ := List.append_eq_nil_iff.mp hnil
    cases hg

private theorem Operands.current_ne_eof {ts : List Token} {ns : List Node}
    (h : Operands false ts ns) : (current ts).type ≠ .eof := by
  cases h with
  | not ht _ => simp [ht.1]
  | paren ht _ => simp [ht]
  | @comparison g ts n ns hg _ => simp [(hg.current_eq ts).1]

/-- An operand that starts with a field is a comparison. -/
private theorem Operands.comparison_of_identifier {ts : List Token} {ns : List Node}
    (h : Operands false ts ns) (hid : (current ts).type = .identifier) :
    ∃ g ts' n ms, ts = g ++ ts' ∧ ns = n :: ms ∧ Comparison g n ∧ Operands true ts' ms := by
  cases h with
  | not ht _ => simp [ht.1] at hid
  | paren ht _ => simp [ht] at hid
  | comparison hg h => exact ⟨_, _, _, _, rfl, rfl, hg, h⟩

/-- Between two comparisons stands a connective or a closing parenthesis. -/
private theorem Operands.after {ts : List Token} {n : Node} {ns : List Node}
    (h : Operands true ts (n :: ns)) :
    ts ≠ [] ∧ ((current ts).type = .rightParen ∨
      (current ts).type = .logical ∧ Operands false (advance ts) (n :: ns)) := by
  cases h with
  | connective ht h =>
    refine ⟨by simp, .inr ⟨?_, h⟩⟩
    rcases ht with ht | ht <;> exact ht.1
  | close ht _ => exact ⟨by simp, .inl ht⟩

/-! ### The text of a list, from the left -/

/-- The texts of a list, each with the space before it. -/
private def joined (parts : List GoString) : GoString :=
  parts.flatMap fun p => 0x20 :: p

omit [GoLib] in
private theorem joined_cons (p : GoString) (ps : List GoString) :
    joined (p :: ps) = 0x20 :: (p ++ joined ps) := by
  simp [joined]

omit [GoLib] in
private theorem joined_eq (p : GoString) (ps : List GoString) :
    joined (p :: ps) = 0x20 :: [0x20].intercalate (p :: ps) := by
  induction ps generalizing p with
  | nil => simp [joined]
  | cons q ps ih => rw [joined_cons, ih q, List.intercalate_cons_cons]; simp

omit [GoLib] in
private theorem delimited_joined (ps : List GoString) : Delimited (joined ps) := by
  cases ps with
  | nil => exact delimited_nil
  | cons p ps => rw [joined_cons]; exact delimited_cons (by decide) _

private theorem lexes_generateExpression_iff {cs : List Condition} {ts : List Token} :
    Lexes (generateExpression cs) ts ↔ Lexes (joined (expressionParts cs)) ts := by
  rw [generateExpression]
  cases expressionParts cs with
  | nil => rfl
  | cons p ps => rw [joined_eq, lexes_space_iff]

/-- The texts after the text of a condition: its connector and the conditions after it. -/
private def tailParts (c : Condition) (cs : List Condition) : List GoString :=
  (match c.logicAfter with
    | some la => if la = [] ∨ cs.isEmpty = true then [] else [toLower la]
    | none => []) ++ expressionParts cs

/-- What a condition prints after its operator. -/
private def valueText (type : BuilderType) (c : Condition) : GoString :=
  if c.operator = str "exists" ∨ c.operator = str "not_exists" then []
  else if type = .boolean then 0x20 :: str "true"
  else if c.operator = str "in" ∨ c.operator = str "not_in" then
    0x20 :: 0x5B :: ([0x2C, 0x20].intercalate ((c.values.getD []).map (literalText type)) ++ [0x5D])
  else 0x20 :: literalText type c.value

omit [GoLib] in
/-- What the registry says of a complete condition on a field the builder knows. -/
private theorem Condition.Complete.allowed {c : Condition} (hc : c.Complete) {fd : FieldDefinition}
    (hfd : builderField? c.field = some fd) :
    c.operator ∈ fd.allowedOperators ∧ c.operator ∈ operators ∧
      (fd.type = .boolean → c.operator = str "eq" ∨ c.operator = str "neq") := by
  have hfind : ∀ d ∈ fieldRegistry, fieldDef? d.name = some d := by decide
  have hbool : ∀ d ∈ fieldRegistry, d.type = .bool →
      ∀ op ∈ d.allowedOps, op = str "eq" ∨ op = str "neq" := by decide
  obtain ⟨d, hd, hname, hop⟩ := hc.registered
  rw [builderField?, ← hname, hfind d hd] at hfd
  split_ifs at hfd
  obtain rfl : ⟨mapBackendTypeToFrontend d.type, d.allowedOps⟩ = fd := by simpa using hfd
  refine ⟨hop, allowedOps_subset_operators d hd _ hop, fun htype => hbool d hd ?_ _ hop⟩
  cases h : d.type <;> simp_all [mapBackendTypeToFrontend]

omit [GoLib] in
private theorem Condition.Complete.text_eq {c : Condition} (hc : c.Complete) {fd : FieldDefinition}
    (hfd : builderField? c.field = some fd) :
    conditionText fd.type c = [c.field ++ 0x20 :: (c.operator ++ valueText fd.type c)] := by
  obtain ⟨-, -, hbool⟩ := hc.allowed hfd
  rw [conditionText, valueText]
  split_ifs with hex htype heq hne hin
  · simp
  · rw [heq]; rfl
  · rw [hne]; rfl
  · rcases hbool htype with h | h
    · exact absurd h heq
    · exact absurd h hne
  · obtain ⟨hvals, hall⟩ := hc.values hin
    have hfilter : (c.values.getD []).filter (· ≠ []) = c.values.getD [] :=
      List.filter_eq_self.mpr fun v hv => by simpa using hall v hv
    obtain ⟨v, vs, hvs⟩ := List.exists_cons_of_ne_nil hvals
    rw [hfilter, hvs]
    rfl
  · rfl

/-- A known field adds its text to the text of the list. -/
private theorem joined_expressionParts {c : Condition} (hc : c.Complete) {fd : FieldDefinition}
    (hfd : builderField? c.field = some fd) (cs : List Condition) :
    joined (expressionParts (c :: cs)) = 0x20 :: (c.field ++ 0x20 ::
      (c.operator ++ (valueText fd.type c ++ joined (tailParts c cs)))) := by
  have hparts : expressionParts (c :: cs) =
      [c.field ++ 0x20 :: (c.operator ++ valueText fd.type c)] ++ tailParts c cs := by
    rw [expressionParts, conditionParts, ← hc.text_eq hfd, tailParts, ← List.append_assoc]
    simp only [hfd]
    exact congrArg (· ++ expressionParts cs) (if_neg (not_not_intro (hc.allowed hfd).1))
  rw [hparts, List.singleton_append, joined_cons]
  simp

/-- A field the builder does not know leaves its condition out. -/
private theorem expressionParts_unknown {c : Condition} (hfd : builderField? c.field = none)
    (cs : List Condition) : expressionParts (c :: cs) = expressionParts cs := by
  simp [expressionParts, conditionParts, hfd]

/-- The text of a list starts with a field the builder knows, if it is not empty. -/
private theorem current_joined {cs : List Condition} (hcs : ∀ c ∈ cs, c.Complete) {ts : List Token}
    (h : Lexes (joined (expressionParts cs)) ts) :
    (current ts).type = .eof ∨
      (current ts).type = .identifier ∧ (builderField? (current ts).value).isSome := by
  induction cs with
  | nil =>
    cases h with
    | nil _ => exact .inl rfl
    | cons hs _ _ => cases hs
  | cons c cs ih =>
    cases hfd : builderField? c.field with
    | none =>
      rw [expressionParts_unknown hfd] at h
      exact ih (fun x hx => hcs x (by simp [hx])) h
    | some fd =>
      have hc := hcs c (by simp)
      obtain ⟨d, hd, hname, -⟩ := builderField?_eq_some hfd
      obtain ⟨hw, ht⟩ := wordToken_field hd
      rw [joined_expressionParts hc hfd, lexes_space_iff, ← hname] at h
      obtain ⟨us, rfl, -⟩ := h.of_front (front_word hw (delimited_cons (by decide) _))
      rw [ht, current_cons, hname, hfd]
      exact .inr ⟨rfl, rfl⟩

/-- The text after a condition starts with no literal. -/
private theorem noLiteral_tail {c : Condition} (hc : c.Complete) {cs : List Condition}
    (hcs : ∀ x ∈ cs, x.Complete) : NoLiteral (joined (tailParts c cs)) := by
  have hfields : NoLiteral (joined (expressionParts cs)) := fun t us h => by
    rcases current_joined hcs h with ht | ⟨ht, -⟩ <;> simp_all [Token.literal?]
  have hword : ∀ la : GoString, la ∈ [str "AND", str "OR", str "NOT"] →
      NoLiteral (joined ([toLower la] ++ expressionParts cs)) := fun la hla t us h => by
    obtain ⟨hw, ht⟩ := connector_lexes hla
    rw [List.singleton_append, joined_cons, lexes_space_iff] at h
    obtain ⟨_, heq, -⟩ := h.of_front (front_word hw (delimited_joined _))
    obtain ⟨rfl, -⟩ : t = _ ∧ _ := by simpa using heq
    simp [ht, Token.literal?]
  have hprinted : ∀ la : GoString, la ∈ [str "AND", str "OR", str "NOT"] → NoLiteral (joined
      ((if la = [] ∨ cs.isEmpty = true then [] else [toLower la]) ++ expressionParts cs)) :=
    fun la hla => by
      by_cases hlast : la = [] ∨ cs.isEmpty = true
      · simpa only [if_pos hlast, List.nil_append] using hfields
      · simpa only [if_neg hlast] using hword la hla
  rw [tailParts]
  rcases hc.connector with h | h | h
  · simpa [h] using hfields
  · simpa only [h] using hprinted (str "AND") (by simp)
  · simpa only [h] using hprinted (str "OR") (by simp)

omit [GoLib] in
/-- A comparison has a token for its field and one for its operator. -/
private theorem Comparison.eq_cons {g : List Token} {n : Node} (h : Comparison g n) :
    ∃ a b rest, g = a :: b :: rest := by
  cases h with
  | exist _ _ _ => exact ⟨_, _, _, rfl⟩
  | list _ _ _ _ _ => exact ⟨_, _, _, rfl⟩
  | literal _ _ _ _ => exact ⟨_, _, _, rfl⟩

/-- The value of a condition is read back, if its field and operator are. -/
private theorem legible_of_value (hcase : BooleanWordsASCII) {c : Condition} (hc : c.Complete)
    {fd : FieldDefinition} (hfd : builderField? c.field = some fd) {s : GoString}
    (hs : Delimited s) (hno : NoLiteral s) {a b : Token} {rest us : List Token}
    (hg : Comparison (a :: b :: rest) c.triple)
    (hlex : Lexes (valueText fd.type c ++ s) (rest ++ us)) : c.Legible ∧ Lexes s us := by
  obtain ⟨-, -, hbool⟩ := hc.allowed hfd
  rw [Condition.triple] at hg
  rw [valueText] at hlex
  by_cases hex : c.operator = str "exists" ∨ c.operator = str "not_exists"
  · rw [if_pos hex] at hg hlex
    obtain ⟨_, _, heq⟩ := hg.none_inv
    obtain ⟨-, -, rfl⟩ : _ ∧ _ ∧ rest = [] := by simpa using heq
    exact ⟨⟨fd, hfd, by rw [if_pos hex]; trivial⟩, hlex⟩
  rw [if_neg hex] at hg hlex
  by_cases hin : c.operator = str "in" ∨ c.operator = str "not_in"
  · have htype : fd.type ≠ .boolean := fun htype => by
      have hnames : ∀ op ∈ [str "in", str "not_in"], ¬ (op = str "eq" ∨ op = str "neq") := by decide
      exact hnames c.operator (by simpa using hin) (hbool htype)
    rw [if_pos hin] at hg
    rw [if_neg htype, if_pos hin] at hlex
    obtain ⟨_, _, l, items, heq, hitems⟩ := hg.list_inv
    obtain ⟨-, -, rfl⟩ : _ ∧ _ ∧ rest = l :: items := by simpa using heq
    obtain ⟨v, vs, hvs⟩ := List.exists_cons_of_ne_nil (hc.values hin).1
    rw [List.cons_append, List.cons_append, lexes_space_iff, List.cons_append] at hlex
    obtain ⟨us', heq', hlex'⟩ := hlex.of_front (front_leftBracket _)
    obtain ⟨-, rfl⟩ : _ ∧ items ++ us = us' := by simpa using heq'
    rw [hvs] at hitems hlex'
    obtain ⟨hall, hlex⟩ := survives_of_lexes_list hcase htype hitems (by simpa using hlex')
    refine ⟨⟨fd, hfd, ?_⟩, hlex⟩
    rw [if_neg hex, if_pos hin, hvs]
    exact hall
  rw [if_neg hin] at hg
  obtain ⟨_, _, t, heq, ht⟩ := hg.string_inv
  obtain ⟨-, -, rfl⟩ : _ ∧ _ ∧ rest = [t] := by simpa using heq
  by_cases htype : fd.type = .boolean
  · rw [if_pos htype, List.cons_append, lexes_space_iff] at hlex
    obtain ⟨hw, htrue⟩ := wordToken_boolean (w := str "true") (.inl rfl)
    obtain ⟨us', heq', hlex'⟩ := hlex.of_front (front_word hw hs)
    obtain ⟨rfl, rfl⟩ : t = wordToken (str "true") ∧ us = us' := by simpa using heq'
    have hval : c.value = str "true" := by
      rw [htrue] at ht
      simpa [Token.literal?] using ht.symm
    refine ⟨⟨fd, hfd, ?_⟩, hlex'⟩
    rw [if_neg hex, if_neg hin, htype, LiteralSurvives]
    exact hval
  · rw [if_neg htype, if_neg hin, List.cons_append, lexes_space_iff] at hlex
    obtain ⟨hsurv, hlex⟩ := survives_of_lexes hcase htype hs hno hlex ht
    refine ⟨⟨fd, hfd, ?_⟩, hlex⟩
    rw [if_neg hex, if_neg hin]
    exact hsurv

/-- Reading a printed condition as the comparison the user built: the condition is legible, and
the text after it is unread. -/
private theorem legible_of_operands (hcase : BooleanWordsASCII) {c : Condition} (hc : c.Complete)
    {fd : FieldDefinition} (hfd : builderField? c.field = some fd) {s : GoString}
    {ts us : List Token} {ns : List Node} (hs : Delimited s) (hno : NoLiteral s)
    (h : Lexes (c.field ++ 0x20 :: (c.operator ++ (valueText fd.type c ++ s))) (ts ++ us))
    (ho : Operands false ts (c.triple :: ns)) :
    c.Legible ∧ ∃ ts', Operands true ts' ns ∧ Lexes s (ts' ++ us) := by
  obtain ⟨d, hd, hname, -⟩ := builderField?_eq_some hfd
  obtain ⟨-, hop, -⟩ := hc.allowed hfd
  obtain ⟨hfw, hft⟩ := wordToken_field hd
  obtain ⟨how, hot⟩ := wordToken_operator hop
  have hvalue : Delimited (valueText fd.type c ++ s) := by
    rw [valueText]
    split_ifs
    · exact hs
    all_goals exact delimited_cons (by decide) _
  -- the field and the operator are read as they are
  obtain ⟨us₁, hus₁, hlex₁⟩ := h.of_front
    (hname ▸ front_word hfw (delimited_cons (by decide) _))
  obtain ⟨us₂, rfl, hlex₂⟩ := (lexes_space_iff.mp hlex₁).of_front (front_word how hvalue)
  rw [← hname, hft, hot] at hus₁
  have hid : (current ts).type = .identifier := by
    obtain ⟨t, ts', rfl⟩ := List.exists_cons_of_ne_nil ho.ne_nil
    obtain ⟨rfl, -⟩ : t = _ ∧ _ := by simpa using hus₁
    rfl
  obtain ⟨g, ts', n, ms, rfl, hns, hg, hrest⟩ := ho.comparison_of_identifier hid
  obtain ⟨rfl, rfl⟩ : c.triple = n ∧ ns = ms := by simpa using hns
  obtain ⟨a, b, rest, rfl⟩ := hg.eq_cons
  obtain ⟨-, -, rfl⟩ : _ ∧ _ ∧ rest ++ (ts' ++ us) = us₂ := by simpa using hus₁
  obtain ⟨hleg, hlex⟩ := legible_of_value hcase hc hfd hs hno hg hlex₂
  exact ⟨hleg, ts', hrest, hlex⟩

omit [GoLib] in
private theorem Condition.triple_eq (c : Condition) :
    ∃ v, c.triple = .comparison c.field c.operator v := by
  rw [Condition.triple]
  split_ifs <;> exact ⟨_, rfl⟩

/-- A list whose text is read as its comparisons is legible, and its connectors are there. The
induction is on the list: what is read as the first comparison must be the first condition, and
the rest is a text of the same kind. -/
private theorem legible_of_lexes (hcase : BooleanWordsASCII) {cs : List Condition}
    (hcs : ∀ c ∈ cs, c.Complete) {ts us : List Token}
    (h : Lexes (joined (expressionParts cs)) (ts ++ us))
    (ho : Operands false ts (cs.map Condition.triple)) :
    (∀ c ∈ cs, c.Legible) ∧ ∀ c ∈ cs.dropLast, c.logicAfter ≠ none := by
  induction cs generalizing ts with
  | nil => simp
  | cons c cs ih =>
    have hc := hcs c (by simp)
    have hrest : ∀ x ∈ cs, x.Complete := fun x hx => hcs x (by simp [hx])
    have hcur : ∀ {ts : List Token}, ts ≠ [] → current (ts ++ us) = current ts := fun hne => by
      obtain ⟨t, ts', rfl⟩ := List.exists_cons_of_ne_nil hne
      rfl
    cases hfd : builderField? c.field with
    | none =>
      -- the condition is left out, so the first field of the text is that of another one
      rw [expressionParts_unknown hfd] at h
      have hfirst := current_joined hrest h
      rw [hcur ho.ne_nil] at hfirst
      rcases hfirst with heof | ⟨hid, hknown⟩
      · exact absurd heof ho.current_ne_eof
      · obtain ⟨g, ts', n, ms, rfl, hns, hg, -⟩ := ho.comparison_of_identifier hid
        obtain ⟨rfl, -⟩ : c.triple = n ∧ _ := by simpa using hns
        obtain ⟨-, o, v, hn⟩ := hg.current_eq ts'
        obtain ⟨w, htriple⟩ := c.triple_eq
        obtain ⟨hfield, -⟩ : c.field = _ ∧ _ := by simpa [htriple] using hn
        rw [← hfield, hfd] at hknown
        cases hknown
    | some fd =>
      rw [joined_expressionParts hc hfd, lexes_space_iff] at h
      obtain ⟨hleg, ts', ho', hlex⟩ := legible_of_operands hcase hc hfd (delimited_joined _)
        (noLiteral_tail hc hrest) h ho
      cases cs with
      | nil => exact ⟨by simpa using hleg, by simp⟩
      | cons c' cs =>
        obtain ⟨hne, hafter⟩ := ho'.after
        -- the two connectives are read alike
        have hconnected : ∀ {la : GoString}, la ∈ [str "AND", str "OR", str "NOT"] → la ≠ [] →
            c.logicAfter = some la → (∀ x ∈ c :: c' :: cs, x.Legible) ∧
              ∀ x ∈ (c :: c' :: cs).dropLast, x.logicAfter ≠ none := fun {la} hla hnil h => by
          obtain ⟨hw, ht⟩ := connector_lexes hla
          have htail : tailParts c (c' :: cs) = toLower la :: expressionParts (c' :: cs) := by
            simp [tailParts, h, hnil]
          rw [htail, joined_cons, lexes_space_iff] at hlex
          obtain ⟨us', heq, hlex'⟩ := hlex.of_front (front_word hw (delimited_joined _))
          obtain ⟨t, ts'', rfl⟩ := List.exists_cons_of_ne_nil hne
          obtain ⟨rfl, rfl⟩ : t = wordToken (toLower la) ∧ ts'' ++ us = us' := by simpa using heq
          rw [ht, current_cons, advance_cons] at hafter
          rcases hafter with hparen | ⟨-, hop⟩
          · cases hparen
          · obtain ⟨hall, hconn⟩ := ih hrest hlex' hop
            refine ⟨List.forall_mem_cons.mpr ⟨hleg, hall⟩, ?_⟩
            rw [List.dropLast_cons_of_ne_nil (by simp)]
            exact List.forall_mem_cons.mpr ⟨by simp [h], hconn⟩
        rcases hc.connector with h | h | h
        · -- no connective: after the comparison stands the next field, or nothing
          have htail : tailParts c (c' :: cs) = expressionParts (c' :: cs) := by simp [tailParts, h]
          rw [htail] at hlex
          have hfirst := current_joined hrest hlex
          rw [hcur hne] at hfirst
          rcases hfirst with heof | ⟨hid, -⟩ <;> rcases hafter with hparen | ⟨hlog, -⟩ <;> simp_all
        · exact hconnected (by simp) (by decide) h
        · exact hconnected (by simp) (by decide) h

/-! ### A legible list compiles to its comparisons -/

omit [GoLib] in
private theorem literalValue?_of_survives {type : BuilderType} (htype : type ≠ .boolean)
    {v : GoString} (h : LiteralSurvives type v) : literalValue? type v = some v := by
  cases type with
  | string => simp [literalValue?, quoteSafe_of_fitsQuotes h]
  | number =>
    rcases h with ⟨hnum, h1, h0⟩ | h | h
    · simp [literalValue?, bareLiteral?, hnum, numberToken, h1, h0]
    · rw [h]; decide
    · rw [h]; decide
  | boolean => exact absurd rfl htype

omit [GoLib] in
/-- A legible condition is printed as its comparison. -/
private theorem Condition.Legible.comparison?_eq {c : Condition} (hc : c.Complete)
    (h : c.Legible) : c.comparison? = some c.triple := by
  obtain ⟨fd, hfd, hleg⟩ := h
  obtain ⟨hallowed, -, hbool⟩ := hc.allowed hfd
  have hnames : ∀ op ∈ [str "eq", str "neq"], ¬ (op = str "in" ∨ op = str "not_in") := by decide
  refine Condition.Stands.comparison?_eq hfd hallowed ?_
  rw [Condition.triple]
  by_cases hex : c.operator = str "exists" ∨ c.operator = str "not_exists"
  · rw [if_pos hex]
    exact .exist hex
  rw [if_neg hex] at hleg ⊢
  by_cases hin : c.operator = str "in" ∨ c.operator = str "not_in"
  · have htype : fd.type ≠ .boolean := fun htype =>
      hnames c.operator (by simpa using hbool htype) hin
    rw [if_pos hin] at hleg ⊢
    obtain ⟨hvals, hne⟩ := hc.values hin
    have hfilter : (c.values.getD []).filter (· ≠ []) = c.values.getD [] :=
      List.filter_eq_self.mpr fun v hv => by simpa using hne v hv
    have hmap : ∀ {vs : List GoString}, (∀ v ∈ vs, LiteralSurvives fd.type v) →
        vs.mapM (literalValue? fd.type) = some vs := fun {vs} hvs => by
      induction vs with
      | nil => rfl
      | cons v vs ih =>
        simp [List.mapM_cons, literalValue?_of_survives htype (hvs v (by simp)),
          ih fun w hw => hvs w (by simp [hw])]
    obtain ⟨v, vs, hvs⟩ := List.exists_cons_of_ne_nil hvals
    rw [hvs] at hleg ⊢
    exact .list hex htype hin (hfilter.trans hvs) (hmap hleg)
  rw [if_neg hin] at hleg ⊢
  by_cases htype : fd.type = .boolean
  · rw [htype] at hleg
    have hval : c.value = str "true" := hleg
    rw [hval]
    exact .boolean hex htype (hbool htype)
  · exact .literal hex htype hin (literalValue?_of_survives htype hleg)

/-- The validator passes a complete condition by its pattern. -/
private theorem validateChild_triple_iff {c : Condition} (hc : c.Complete) :
    validateChild c.triple = .ok () ↔ c.PatternAccepted := by
  obtain ⟨d, hd, hname, hop⟩ := hc.registered
  have hfind : ∀ d ∈ fieldRegistry, fieldDef? d.name = some d := by decide
  have hfield : (fieldDef? c.field).isNone = false := by rw [← hname, hfind d hd]; rfl
  have hops : c.operator ∈ operators := allowedOps_subset_operators d hd _ hop
  have hnames : ∀ op ∈ [str "regex", str "not_regex"],
      ¬ (op = str "exists" ∨ op = str "not_exists") ∧ ¬ (op = str "in" ∨ op = str "not_in") := by
    decide
  have hcheck : ∀ v : Value, validateComparison c.field c.operator v =
      if c.operator = str "regex" ∨ c.operator = str "not_regex" then validateRegex v.toString
      else .ok () := fun v => by simp [validateComparison, hfield, hops]
  rw [Condition.PatternAccepted, Condition.triple]
  by_cases hregex : c.operator = str "regex" ∨ c.operator = str "not_regex"
  · obtain ⟨hex, hin⟩ := hnames c.operator (by simpa using hregex)
    rw [if_neg hex, if_neg hin, validateChild, hcheck, if_pos hregex]
    simp [hregex, Value.toString]
  · refine iff_of_true ?_ fun h => absurd h hregex
    split_ifs <;> rw [validateChild, hcheck, if_neg hregex]

/-- The comparisons of a tree the validator passes are passed. -/
private theorem validateChild_leaves {n : Node} (h : validateChild n = .ok ()) :
    ∀ m ∈ leaves n, validateChild m = .ok () := by
  induction n with
  | nil => simp [leaves]
  | comparison f o v => simpa [leaves] using h
  | logical op l r ihl ihr =>
    obtain ⟨hl, hr⟩ := validateChild_logical h
    rw [leaves]
    exact List.forall_mem_append.mpr ⟨ihl hl, ihr hr⟩

omit [GoLib] in
/-- With every connector there, the whole list is followed. -/
private theorem follow_map_snd {la : Option GoString} {cs : List Condition}
    (hla : cs ≠ [] → (connective? la).isSome)
    (h : ∀ c ∈ cs.dropLast, (connective? c.logicAfter).isSome) :
    (follow la cs).map Prod.snd = cs := by
  induction cs generalizing la with
  | nil => rfl
  | cons c cs ih =>
    obtain ⟨conn, hconn⟩ := Option.isSome_iff_exists.mp (hla (by simp))
    have hcs : (follow c.logicAfter cs).map Prod.snd = cs := by
      refine ih (fun hne => h c ?_) fun x hx => h x ?_
      · rw [List.dropLast_cons_of_ne_nil hne]
        simp
      · cases cs with
        | nil => simp at hx
        | cons d ds => rw [List.dropLast_cons_of_ne_nil (by simp)]; simp [hx]
    rw [follow, hconn, List.map_cons, hcs]

omit [GoLib] in
/-- The comparisons of the tree of a legible and connected list are those of the list. -/
private theorem leaves_conditionTree {c : Condition} {cs : List Condition}
    (h : ∀ x ∈ c :: cs, x.Complete ∧ x.Legible)
    (hconn : ∀ x ∈ (c :: cs).dropLast, x.logicAfter ≠ none) :
    leaves (conditionTree c cs) = (c :: cs).map Condition.triple := by
  have hleaf : ∀ x ∈ c :: cs, x.leaf = x.triple ∧ leaves x.leaf = [x.triple] := fun x hx => by
    have hcmp := (h x hx).2.comparison?_eq (h x hx).1
    have hleaf : x.leaf = x.triple := by simp [Condition.leaf, hcmp]
    obtain ⟨v, hv⟩ := x.triple_eq
    exact ⟨hleaf, by rw [hleaf, hv, leaves]⟩
  have hsome : ∀ x ∈ (c :: cs).dropLast, (connective? x.logicAfter).isSome := fun x hx => by
    have hx' := (h x (List.mem_of_mem_dropLast hx)).1.connector
    rcases hx' with hnone | hand | hor
    · exact absurd hnone (hconn x hx)
    · rw [hand]; decide
    · rw [hor]; decide
  have hfollow : (follow c.logicAfter cs).map Prod.snd = cs := by
    cases cs with
    | nil => rfl
    | cons d ds =>
      rw [List.dropLast_cons_of_ne_nil (by simp)] at hsome
      exact follow_map_snd (fun _ => hsome c (by simp)) fun x hx => hsome x (by simp [hx])
  rw [conditionTree, leaves_chainTree, (hleaf c (by simp)).2, List.flatMap_map]
  have htail : (follow c.logicAfter cs).flatMap (fun p => leaves p.2.leaf) =
      cs.map Condition.triple := by
    calc (follow c.logicAfter cs).flatMap (fun p => leaves p.2.leaf)
        = ((follow c.logicAfter cs).map Prod.snd).flatMap fun x => leaves x.leaf := by
          rw [List.flatMap_map]
      _ = cs.flatMap fun x => [x.triple] := by
          rw [hfollow]
          exact List.flatMap_congr fun x hx => (hleaf x (by simp [hx])).2
      _ = cs.map Condition.triple := List.map_eq_flatMap.symm
  simp only [Option.map_none, Option.getD_none, List.nil_append, List.singleton_append,
    List.map_cons]
  exact congrArg _ htail

/-- **What the backend reads of a built rule.** The text of a list of complete conditions
compiles to a tree with the comparisons the user built, in their order, exactly when every
condition is on a field the builder knows and its values come back as they are, every pattern is
one the validator accepts, and no connector between two conditions is missing. -/
theorem compileExpression_generateExpression_iff (hcase : BooleanWordsASCII) {cs : List Condition}
    (hne : cs ≠ []) (hcs : ∀ c ∈ cs, c.Complete) :
    (∃ n, compileExpression (generateExpression cs) = .ok n ∧
        leaves n = cs.map Condition.triple) ↔
      (∀ c ∈ cs, c.Legible ∧ c.PatternAccepted) ∧
        ∀ c ∈ cs.dropLast, c.logicAfter ≠ none := by
  constructor
  · rintro ⟨n, hcompile, hleaves⟩
    obtain ⟨tokens, htok, hparse, hv⟩ := compileExpression_eq_ok hcompile
    obtain ⟨ts, us, rfl, hd, -, -⟩ := parse_eq_ok hparse
    have ho : Operands false ts (cs.map Condition.triple) := by
      simpa [hleaves] using hd.operands .done
    have hlex := lexes_generateExpression_iff.mp (lexes_of_tokenize htok)
    obtain ⟨hleg, hconn⟩ := legible_of_lexes hcase hcs hlex ho
    have hvalid := validateChild_leaves (validate_eq_ok hv).2
    rw [hleaves] at hvalid
    refine ⟨fun c hc => ⟨hleg c hc, ?_⟩, hconn⟩
    exact (validateChild_triple_iff (hcs c hc)).mp (hvalid _ (List.mem_map_of_mem hc))
  · rintro ⟨hall, hconn⟩
    obtain ⟨c, cs, rfl⟩ := List.exists_cons_of_ne_nil hne
    have hcmp : ∀ x ∈ c :: cs, x.comparison? = some x.triple := fun x hx =>
      (hall x hx).1.comparison?_eq (hcs x hx)
    have hleaf : ∀ x ∈ c :: cs, x.leaf = x.triple := fun x hx => by
      simp [Condition.leaf, hcmp x hx]
    have hplain : ∀ x ∈ c :: cs, x.Plain := fun x hx => by
      refine ⟨by simp [hcmp x hx], ?_⟩
      rcases (hcs x hx).connector with h | h | h <;> simp [h]
    obtain ⟨tokens, htok, hparse⟩ := parse_generateExpression hplain
    have hvalid : validate (conditionTree c cs) = .ok () :=
      validate_conditionTree fun x hx => by
        obtain ⟨v, hv⟩ := x.triple_eq
        rw [hleaf x hx]
        exact ⟨by simp [hv], (validateChild_triple_iff (hcs x hx)).mpr (hall x hx).2⟩
    exact ⟨_, compileExpression_of htok hparse hvalid,
      leaves_conditionTree (fun x hx => ⟨hcs x hx, (hall x hx).1⟩) hconn⟩

end ReadBack

section Evaluated

attribute [local instance] asciiLib

private theorem booleanWordsASCII_asciiLib : BooleanWordsASCII := by
  intro w _ hw
  refine isASCII_of_toUpper_asciiLib ?_
  rcases hw with h | h <;> rw [h] <;> decide

private def quotedPathCondition : Condition where
  field := str "http.path"
  operator := str "prefix"
  value := str "/a, \\\"b"
  values := none
  logicAfter := some (str "OR")

private def asnCondition : Condition where
  field := str "asn"
  operator := str "in"
  value := []
  values := some [str "13335", str "7"]
  logicAfter := some (str "AND")

/-- A comma, a quote behind a backslash and a list of numbers come back. -/
theorem compileExpression_generateExpression_path :
    (∃ n, compileExpression (generateExpression [quotedPathCondition, asnCondition]) = .ok n ∧
        leaves n = [quotedPathCondition, asnCondition].map Condition.triple) ↔
      (∀ c ∈ [quotedPathCondition, asnCondition], c.Legible ∧ c.PatternAccepted) ∧
        ∀ c ∈ [quotedPathCondition, asnCondition].dropLast, c.logicAfter ≠ none := by
  refine compileExpression_generateExpression_iff booleanWordsASCII_asciiLib (by simp)
    fun c hc => ?_
  have hreg : ∀ c ∈ [quotedPathCondition, asnCondition],
      ∃ d ∈ fieldRegistry, d.name = c.field ∧ c.operator ∈ d.allowedOps := by decide
  have hvalues : ∀ c ∈ [quotedPathCondition, asnCondition],
      c.operator = str "in" ∨ c.operator = str "not_in" →
        c.values.getD [] ≠ [] ∧ ∀ v ∈ c.values.getD [], v ≠ [] := by decide
  have hconn : ∀ c ∈ [quotedPathCondition, asnCondition], c.logicAfter = none ∨
      c.logicAfter = some (str "AND") ∨ c.logicAfter = some (str "OR") := by decide
  exact ⟨hreg c hc, hvalues c hc, hconn c hc⟩

/-- A quote in a value ends the literal, the number `1` becomes `true`, and a condition on a
`device.` alias is left out. -/
theorem compileExpression_generateExpression_quote :
    let quote : Condition := ⟨str "http.path", str "eq", str "a\"b", none, none⟩
    let one : Condition := ⟨str "asn", str "eq", str "1", none, none⟩
    let device : Condition := ⟨str "device.is_mobile", str "eq", str "true", none, none⟩
    (quote.Complete ∧ one.Complete ∧ device.Complete) ∧
      compileExpression (generateExpression [quote]) = .error (.unterminatedString 18) ∧
      (∃ n, compileExpression (generateExpression [one]) = .ok n ∧
        leaves n = [.comparison (str "asn") (str "eq") (.string (str "true"))]) ∧
      generateExpression [device] = [] := by
  refine ⟨⟨⟨by decide, by decide, by decide⟩,
    ⟨by decide, by decide, by decide⟩,
    ⟨by decide, by decide, by decide⟩⟩, by decide,
    ⟨_, rfl, by decide⟩, by decide⟩

end Evaluated

end VibesWaf

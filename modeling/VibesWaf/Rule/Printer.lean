import VibesWaf.Rule.Lexes
import VibesWaf.Rule.Semantics

/-!
# Printing and parsing rule expressions

`Expr` is the abstract syntax of the language: comparisons joined by OR and AND and negated by
NOT, in any nesting. The parts a text must respect are carried by their types, so every value
can be printed: a field name is a word that the lexer takes for no keyword and no operator, and
a literal has no quote and no backslash.

`Expr.render` prints a tree with the parentheses that the precedence OR < AND < NOT and
association to the left require and no others. `parse_render` says that lexing and parsing a
rendering gives the tree back. Its induction is over the tree, and what it carries is stronger
than the result: the rendering at every level of the grammar lexes, in front of any text, to a
phrase of that level.
-/

namespace VibesWaf

/-! ### The abstract syntax -/

section Syntax

variable [GoLib]

/-- A field name: a word that is no keyword and no operator. -/
structure FieldName where
  text : GoString
  word : isWord text = true
  notKeyword : toUpper text ∉ [str "AND", str "OR", str "NOT", str "TRUE", str "FALSE"]
  notOperator : text ∉ operators

/-- A text without quotes and backslashes. -/
abbrev PlainText := {s : GoString // 0x22 ∉ s ∧ 0x5C ∉ s}

/-- The operators without a value. -/
abbrev PresenceOperator := {o : GoString // o = str "exists" ∨ o = str "not_exists"}

/-- The operators with a list of values. -/
abbrev MembershipOperator := {o : GoString // o = str "in" ∨ o = str "not_in"}

/-- The operators with one value. -/
abbrev ValueOperator := {o : GoString // o ∈ operators ∧
  ¬ (o = str "exists" ∨ o = str "not_exists") ∧ ¬ (o = str "in" ∨ o = str "not_in")}

/-- An expression of the rule language. -/
inductive Expr
  | presence (field : FieldName) (operator : PresenceOperator)
  | membership (field : FieldName) (operator : MembershipOperator) (values : List PlainText)
  | value (field : FieldName) (operator : ValueOperator) (text : PlainText)
  | not (e : Expr)
  | and (a b : Expr)
  | or (a b : Expr)

/-- The compiled tree of an expression. -/
def Expr.node : Expr → Node
  | .presence f o => .comparison f.text o.1 .none
  | .membership f o vs => .comparison f.text o.1 (.list (vs.map Subtype.val))
  | .value f o v => .comparison f.text o.1 (.string v.1)
  | .not e => .logical (str "NOT") e.node .nil
  | .and a b => .logical (str "AND") a.node b.node
  | .or a b => .logical (str "OR") a.node b.node

/-! ### The printer -/

/-- A text between quotes. -/
def quoted (v : PlainText) : GoString :=
  0x22 :: (v.1 ++ [0x22])

/-- A text between parentheses, when it needs them. -/
def parenthesized (needed : Bool) (s : GoString) : GoString :=
  if needed then 0x28 :: (s ++ [0x29]) else s

/-- An operand of this level that is a disjunction needs parentheses. -/
def Level.closesOr : Level → Bool
  | .expression => false
  | _ => true

/-- An operand of this level that is a conjunction needs parentheses. -/
def Level.closesAnd : Level → Bool
  | .factor => true
  | _ => false

/-- The text of an expression where the grammar asks for a phrase of the level. The left operand
of a connective has the level of the connective, the right one the next higher level. -/
def Expr.renderAt : Level → Expr → GoString
  | _, .presence f o => f.text ++ str " " ++ o.1
  | _, .membership f o vs =>
    f.text ++ str " " ++ o.1 ++ str " [" ++ (str ", ").intercalate (vs.map quoted) ++ str "]"
  | _, .value f o v => f.text ++ str " " ++ o.1 ++ str " " ++ quoted v
  | _, .not e => str "NOT " ++ renderAt .factor e
  | l, .and a b =>
    parenthesized l.closesAnd (renderAt .term a ++ str " AND " ++ renderAt .factor b)
  | l, .or a b =>
    parenthesized l.closesOr (renderAt .expression a ++ str " OR " ++ renderAt .term b)

/-- The text of an expression. -/
def Expr.render (e : Expr) : GoString :=
  e.renderAt .expression

/-! ### Renderings lex to phrases of the grammar -/

/-- A field name is lexed as an identifier. -/
private theorem FieldName.token_eq (f : FieldName) : wordToken f.text = ⟨.identifier, f.text⟩ := by
  have hk := f.notKeyword
  simp only [List.mem_cons, List.not_mem_nil, or_false, not_or] at hk
  obtain ⟨h1, h2, h3, h4, h5⟩ := hk
  rw [wordToken, if_neg h1, if_neg h2, if_neg h3, if_neg (not_or.mpr ⟨h4, h5⟩),
    if_neg f.notOperator]

/-- A field name, a space and an operator in front of a text that ends the operator. -/
private theorem FieldName.lexes_operator (f : FieldName) {o : GoString} (ho : o ∈ operators)
    {s : GoString} {us : List Token} (hs : Delimited s) (h : Lexes s us) :
    Lexes (f.text ++ str " " ++ o ++ s) (⟨.identifier, f.text⟩ :: ⟨.operator, o⟩ :: us) := by
  rw [List.append_assoc, List.append_assoc]
  exact h.fieldOperator f.word f.token_eq ho hs

/-- A quoted text in front of any text. -/
private theorem quoted_lexes (v : PlainText) {s : GoString} {us : List Token} (h : Lexes s us) :
    Lexes (quoted v ++ s) (⟨.string, v.1⟩ :: us) := by
  have hv := h.quoted (quoteSafe_of_not_mem v.2.1 v.2.2)
  simpa [quoted] using hv

/-- A list of quoted texts and its closing bracket in front of any text. -/
private theorem quotedList_lexes (vs : List PlainText) :
    ∃ items, ListItems items (vs.map Subtype.val) ∧ ∀ {s : GoString} {us : List Token},
      Lexes s us → Lexes ((str ", ").intercalate (vs.map quoted) ++ str "]" ++ s) (items ++ us) := by
  have hread : List.Forall₂ ReadsLiteral (vs.map quoted) (vs.map Subtype.val) := by
    rw [List.forall₂_map_left_iff, List.forall₂_map_right_iff, List.forall₂_same]
    exact fun v _ => ⟨⟨.string, v.1⟩, rfl, fun _ h => quoted_lexes v h⟩
  obtain ⟨items, hitems, hlex⟩ := lexes_listItems hread
  refine ⟨items, hitems, fun h => ?_⟩
  rw [str_comma, str_bracket, List.append_assoc]
  exact hlex h

/-- A connective and the space after it. -/
private theorem connective_lexes {kw : GoString} (hkw : kw ∈ [str "AND", str "OR", str "NOT"])
    {s : GoString} {us : List Token} (h : Lexes s us) :
    Lexes (kw ++ 0x20 :: s) (⟨.logical, kw⟩ :: us) := by
  have key : ∀ kw ∈ [str "AND", str "OR", str "NOT"], isWord kw = true ∧ isASCII kw = true ∧
      @wordToken asciiLib kw = ⟨.logical, kw⟩ := by decide
  obtain ⟨hw, hascii, ht⟩ := key kw hkw
  rw [← ht, ← wordToken_of_isASCII hascii]
  exact h.space.word hw (delimited_cons (by decide) s)

/-- The text, in front of any text that ends a word, lexes to a phrase of the level. -/
private def ReadsAs (l : Level) (text : GoString) (n : Node) : Prop :=
  ∃ ts, Derives l ts n ∧ ∀ {s : GoString} {us : List Token}, Delimited s → Lexes s us →
    Lexes (text ++ s) (ts ++ us)

private theorem ReadsAs.term {text : GoString} {n : Node} (h : ReadsAs .factor text n) :
    ReadsAs .term text n := by
  obtain ⟨ts, hd, hlex⟩ := h
  exact ⟨ts, .factor hd, hlex⟩

private theorem ReadsAs.expression {text : GoString} {n : Node} (h : ReadsAs .term text n) :
    ReadsAs .expression text n := by
  obtain ⟨ts, hd, hlex⟩ := h
  exact ⟨ts, .term hd, hlex⟩

/-- A factor is a phrase of every level. -/
private theorem ReadsAs.of_factor {text : GoString} {n : Node} (h : ReadsAs .factor text n) :
    ∀ l, ReadsAs l text n
  | .factor => h
  | .term => h.term
  | .expression => h.term.expression

/-- Parentheses make a factor of an expression. -/
private theorem ReadsAs.parenthesized {text : GoString} {n : Node}
    (h : ReadsAs .expression text n) : ReadsAs .factor (parenthesized true text) n := by
  obtain ⟨ts, hd, hlex⟩ := h
  refine ⟨⟨.leftParen, str "("⟩ :: (ts ++ [⟨.rightParen, str ")"⟩]), .paren rfl hd rfl, ?_⟩
  intro s us _ hl
  have hbody := hlex (delimited_cons (by decide) s) hl.rightParen
  simpa [VibesWaf.parenthesized] using hbody.leftParen

private theorem readsAs_comparison {text : GoString} {n : Node} {ts : List Token}
    (hn : Comparison ts n) (h : ∀ {s : GoString} {us : List Token}, Delimited s → Lexes s us →
      Lexes (text ++ s) (ts ++ us)) : ReadsAs .factor text n :=
  ⟨ts, .comparison hn, h⟩

private theorem readsAs_not {text : GoString} {n : Node} (h : ReadsAs .factor text n) :
    ReadsAs .factor (str "NOT " ++ text) (.logical (str "NOT") n .nil) := by
  obtain ⟨ts, hd, hlex⟩ := h
  refine ⟨⟨.logical, str "NOT"⟩ :: ts, .not ⟨rfl, toUpper_not⟩ hd, fun hs hl => ?_⟩
  have hsep : str "NOT " = str "NOT" ++ [0x20] := by decide
  have hkw : str "NOT" ∈ [str "AND", str "OR", str "NOT"] := by decide
  have hfront := connective_lexes hkw (hlex hs hl)
  simpa [hsep] using hfront

private theorem readsAs_and {a b : GoString} {m n : Node} (ha : ReadsAs .term a m)
    (hb : ReadsAs .factor b n) :
    ReadsAs .term (a ++ str " AND " ++ b) (.logical (str "AND") m n) := by
  obtain ⟨ts, hda, hlexa⟩ := ha
  obtain ⟨us, hdb, hlexb⟩ := hb
  refine ⟨ts ++ ⟨.logical, str "AND"⟩ :: us, .and hda ⟨rfl, toUpper_and⟩ hdb, fun hs hl => ?_⟩
  have hsep : str " AND " = 0x20 :: (str "AND" ++ [0x20]) := by decide
  have hkw : str "AND" ∈ [str "AND", str "OR", str "NOT"] := by decide
  have hfront := (connective_lexes hkw (hlexb hs hl)).space
  have hall := hlexa (delimited_cons (by decide) _) hfront
  simpa [hsep] using hall

private theorem readsAs_or {a b : GoString} {m n : Node} (ha : ReadsAs .expression a m)
    (hb : ReadsAs .term b n) :
    ReadsAs .expression (a ++ str " OR " ++ b) (.logical (str "OR") m n) := by
  obtain ⟨ts, hda, hlexa⟩ := ha
  obtain ⟨us, hdb, hlexb⟩ := hb
  refine ⟨ts ++ ⟨.logical, str "OR"⟩ :: us, .or hda ⟨rfl, toUpper_or⟩ hdb, fun hs hl => ?_⟩
  have hsep : str " OR " = 0x20 :: (str "OR" ++ [0x20]) := by decide
  have hkw : str "OR" ∈ [str "AND", str "OR", str "NOT"] := by decide
  have hfront := (connective_lexes hkw (hlexb hs hl)).space
  have hall := hlexa (delimited_cons (by decide) _) hfront
  simpa [hsep] using hall

/-- The rendering of an expression at a level lexes to a phrase of that level with the tree of
the expression, by induction on the expression. -/
private theorem Expr.readsAs (e : Expr) : ∀ l, ReadsAs l (e.renderAt l) e.node := by
  induction e with
  | presence f o =>
    have ho : o.1 ∈ operators := by
      rcases o.2 with h | h <;> rw [h] <;> decide
    have hcmp : Comparison [⟨.identifier, f.text⟩, ⟨.operator, o.1⟩] (presence f o).node :=
      .exist rfl rfl o.2
    exact (readsAs_comparison hcmp fun hs hl => f.lexes_operator ho hs hl).of_factor
  | membership f o vs =>
    have ho : o.1 ∈ operators := by
      rcases o.2 with h | h <;> rw [h] <;> decide
    obtain ⟨items, hitems, hlex⟩ := quotedList_lexes vs
    have hcmp : Comparison (⟨.identifier, f.text⟩ :: ⟨.operator, o.1⟩ ::
        ⟨.leftBracket, str "["⟩ :: items) (membership f o vs).node :=
      .list rfl rfl o.2 rfl hitems
    refine (readsAs_comparison hcmp fun _ hl => ?_).of_factor
    have hfront := f.lexes_operator ho (delimited_cons (by decide) _) (hlex hl).leftBracket.space
    simpa [renderAt, str_opening] using hfront
  | value f o v =>
    have hcmp : Comparison [⟨.identifier, f.text⟩, ⟨.operator, o.1⟩, ⟨.string, v.1⟩]
        (value f o v).node :=
      .literal rfl rfl o.2.2.1 rfl
    refine (readsAs_comparison hcmp fun _ hl => ?_).of_factor
    have hfront := f.lexes_operator o.2.1 (delimited_cons (by decide) _) (quoted_lexes v hl).space
    simpa [renderAt, str_space] using hfront
  | not e ih => exact (readsAs_not (ih .factor)).of_factor
  | and a b iha ihb =>
    have hand := readsAs_and (iha .term) (ihb .factor)
    intro l
    cases l with
    | expression => exact hand.expression
    | term => exact hand
    | factor => exact hand.expression.parenthesized
  | or a b iha ihb =>
    have hor := readsAs_or (iha .expression) (ihb .term)
    intro l
    cases l with
    | expression => exact hor
    | term => exact hor.parenthesized.term
    | factor => exact hor.parenthesized

/-- **Parsing undoes printing.** The rendering of an expression is tokenized, and the parser
returns the tree of the expression. -/
theorem parse_render (e : Expr) :
    ∃ tokens, tokenize e.render = .ok tokens ∧ parse tokens = .ok e.node := by
  obtain ⟨ts, hd, hlex⟩ := e.readsAs .expression
  have htok : Lexes e.render (ts ++ [eofToken]) := by
    have hfront := hlex delimited_nil (.nil rfl)
    rwa [List.append_nil] at hfront
  exact ⟨ts ++ [eofToken], htok.tokenize, hd.parse_append_eof⟩

end Syntax

end VibesWaf

import VibesWaf.Rule.Evaluator
import VibesWaf.Rule.Fields
import VibesWaf.Rule.Grammar

/-!
# Compiling a rule expression

`compileExpression` is `Engine.CompileExpression`: lex, parse, validate. The validator checks
that every comparison names a registered field and a known operator, and that the pattern of a
regular-expression operator is short, free of a few dangerous shapes and compiles.

Nothing in the chain looks at the tokens after the first expression. `compileExpression_whole_iff`
says exactly when this is harmless: the whole text is one expression of the grammar if and only
if every phrase the text starts with is followed by a connective or by the end.
-/

namespace VibesWaf

section Engine

variable [GoLib]

/-! ### The validator -/

/-- The shapes the validator refuses in a pattern. -/
def dangerousPatterns : List GoString :=
  [str "(a+)+", str "(a*)*", str "(a|a)*", str "(a|ab)*", str "([a-zA-Z]+)*"]

/-- `validateRegex`. -/
def validateRegex (pattern : GoString) : Except RuleError Unit :=
  if 500 < pattern.length then
    .error (.invalidRegexPattern (str "regex pattern too long (max 500 characters)"))
  else if dangerousPatterns.any (contains pattern) then
    .error (.invalidRegexPattern (str "regex pattern may cause ReDoS attack"))
  else
    match GoLib.regexpCompile pattern with
    | .error e => .error (.invalidRegexPattern (str "invalid regex syntax: " ++ e))
    | .ok _ => .ok ()

/-- `validateComparison`. -/
def validateComparison (field operator : GoString) (value : Value) : Except RuleError Unit :=
  if (fieldDef? field).isNone then .error (.unknownField field)
  else if operator ∉ operators then .error (.unknownOperator operator)
  else if operator = str "regex" ∨ operator = str "not_regex" then validateRegex value.toString
  else .ok ()

/-- The checks of a child of a logical node: an absent child is passed over. -/
def validateChild : Node → Except RuleError Unit
  | .nil => .ok ()
  | .comparison field operator value => validateComparison field operator value
  | .logical _ left right =>
    match validateChild left with
    | .error e => .error e
    | .ok () => validateChild right

/-- `Validator.Validate`. -/
def validate (node : Node) : Except RuleError Unit :=
  if node = .nil then .error .nodeIsNil else validateChild node

/-- `Engine.CompileExpression`. -/
def compileExpression (expression : GoString) : Except RuleError Node :=
  match tokenize expression with
  | .error e => .error e
  | .ok tokens =>
    match parse tokens with
    | .error e => .error e
    | .ok ast =>
      match validate ast with
      | .error e => .error e
      | .ok () => .ok ast

/-- What an accepted expression went through. -/
theorem compileExpression_eq_ok {s : GoString} {n : Node} (h : compileExpression s = .ok n) :
    ∃ tokens, tokenize s = .ok tokens ∧ parse tokens = .ok n ∧ validate n = .ok () := by
  rw [compileExpression] at h
  split at h
  · cases h
  rename_i tokens ht
  split at h
  · cases h
  rename_i ast hp
  split at h
  · cases h
  rename_i hv
  obtain rfl : ast = n := by simpa using h
  exact ⟨tokens, ht, hp, hv⟩

theorem compileExpression_of {s : GoString} {tokens : List Token} {n : Node}
    (ht : tokenize s = .ok tokens) (hp : parse tokens = .ok n) (hv : validate n = .ok ()) :
    compileExpression s = .ok n := by
  simp [compileExpression, ht, hp, hv]

/-! ### What an accepted text leaves unread -/

/-- The whole text, up to its end token, is one expression of the grammar with tree `n`. -/
def Whole (s : GoString) (n : Node) : Prop :=
  ∃ ts, tokenize s = .ok (ts ++ [eofToken]) ∧ Derives .expression ts n

/-- Every expression the tokens of the text start with is followed by a connective or by the
end. -/
def Followed (s : GoString) : Prop :=
  ∀ {ts us : List Token} {m : Node}, tokenize s = .ok (ts ++ us) → Derives .expression ts m →
    (current us).type = .eof ∨ isLogical (str "AND") (current us) ∨
      isLogical (str "OR") (current us)

/-- What `parse` returns is the tree of a prefix, and that prefix ends where neither connective
follows. -/
theorem parse_eq_ok {tokens : List Token} {n : Node} (h : parse tokens = .ok n) :
    ∃ ts us, tokens = ts ++ us ∧ Derives .expression ts n ∧
      ¬ isLogical (str "AND") (current us) ∧ ¬ isLogical (str "OR") (current us) := by
  rw [parse] at h
  split at h
  · cases h
  · rename_i node us heq
    obtain rfl : node = n := by simpa using h
    obtain ⟨⟨ts, hts, hd⟩, hand, hor⟩ := parseExpression_sound heq
    exact ⟨ts, us, hts, hd, hand, hor⟩

/-- A text that is one expression is followed up by connectives: two readings of the same
tokens stop at the same place. -/
private theorem Whole.followed {s : GoString} {n : Node} (h : Whole s n) : Followed s := by
  intro ts us m hts hm
  by_contra hcon
  rw [not_or, not_or] at hcon
  obtain ⟨heof, hand, hor⟩ := hcon
  obtain ⟨ws, hws, hn⟩ := h
  have happ : ts ++ us = ws ++ [eofToken] := by
    rw [hts] at hws
    simpa using hws
  have hend : ∀ kw, ¬ isLogical kw (current [eofToken]) := fun kw h' => absurd h'.1 (by decide)
  have hlen : ts.length ≤ (ws ++ [eofToken]).length := by simp [← happ]
  have hreadm := hm.parseExpression_eq hlen hand hor
  have hlen' : ws.length ≤ (ws ++ [eofToken]).length := by simp
  have hreadn := hn.parseExpression_eq hlen' (hend _) (hend _)
  rw [happ, hreadn] at hreadm
  obtain ⟨-, rfl⟩ : n = m ∧ [eofToken] = us := by simpa using hreadm
  exact heof rfl

/-- **What an accepted text leaves unread.** `CompileExpression` accepts a text by its first
expression; the whole text is that expression exactly when every expression it starts with is
followed by a connective or by the end of the text. -/
theorem compileExpression_whole_iff {s : GoString} {n : Node} (h : compileExpression s = .ok n) :
    Whole s n ↔ Followed s := by
  refine ⟨Whole.followed, fun hfol => ?_⟩
  obtain ⟨tokens, htok, hparse, -⟩ := compileExpression_eq_ok h
  obtain ⟨ts, us, rfl, hd, hand, hor⟩ := parse_eq_ok hparse
  have hcur : (current us).type = .eof := by
    rcases hfol htok hd with heof | hcon | hcon
    · exact heof
    · exact absurd hcon hand
    · exact absurd hcon hor
  obtain ⟨ws, happ, hws⟩ := tokenize_eof htok
  -- the end token stands last, so the rest that starts with one is nothing else
  obtain ⟨rfl, rfl⟩ : ts = ws ∧ us = [eofToken] := by
    rcases List.append_eq_append_iff.mp happ with ⟨vs, hvs, hus⟩ | ⟨vs, rfl, hvs⟩
    · cases vs with
      | nil => exact ⟨by simpa using hvs.symm, by simpa using hus⟩
      | cons v vs =>
        rw [hus] at hcur
        exact absurd hcur (hws v (by simp [hvs]))
    · cases vs with
      | nil => exact ⟨by simp, by simpa using hvs.symm⟩
      | cons v vs =>
        obtain ⟨rfl, -⟩ : eofToken = v ∧ [] = vs ++ us := by simpa using hvs
        exact absurd rfl (hd.type_ne_eof eofToken (by simp))
  exact ⟨ts, htok, hd⟩

end Engine

section Evaluated

attribute [local instance] asciiLib

/-- The condition is met by a text of one comparison. -/
theorem compileExpression_whole_comparison :
    Whole (str "http.path eq \"/a\"")
        (.comparison (str "http.path") (str "eq") (.string (str "/a"))) ↔
      Followed (str "http.path eq \"/a\"") :=
  compileExpression_whole_iff (by decide)

/-- A second comparison without a connective is accepted and dropped. -/
theorem compileExpression_drops_comparison :
    let s := str "http.path eq \"/a\" http.host eq \"b\""
    compileExpression s = .ok (.comparison (str "http.path") (str "eq") (.string (str "/a"))) ∧
      ¬ ∃ n, Whole s n := by
  refine ⟨by decide, ?_⟩
  rintro ⟨n, h⟩
  have hread : tokenize (str "http.path eq \"/a\" http.host eq \"b\"") =
      .ok ([⟨.identifier, str "http.path"⟩, ⟨.operator, str "eq"⟩, ⟨.string, str "/a"⟩] ++
        [⟨.identifier, str "http.host"⟩, ⟨.operator, str "eq"⟩, ⟨.string, str "b"⟩, eofToken]) := by
    decide
  have hd : Derives .expression
      [⟨.identifier, str "http.path"⟩, ⟨.operator, str "eq"⟩, ⟨.string, str "/a"⟩]
      (.comparison (str "http.path") (str "eq") (.string (str "/a"))) :=
    .term (.factor (.comparison (.literal rfl rfl (by decide) rfl)))
  rcases h.followed hread hd with h | h | h
  · exact absurd h (by decide)
  · exact absurd h.1 (by decide)
  · exact absurd h.1 (by decide)

end Evaluated

end VibesWaf

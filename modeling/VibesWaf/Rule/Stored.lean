import VibesWaf.Go.Utf8
import VibesWaf.Rule.Semantics

/-!
# Storing a compiled rule and loading it back

The repository writes the tree of a rule to the column `expression_ast` with `json.Marshal` and
reads it with `json.Unmarshal`. `NodeDocument` is the JSON object of a node, its members by key
(the column does not keep their order); `marshal` and `unmarshal` follow the struct tags of
`Node`, with `omitempty` on every member but `type`. The text of a document and the column it
stands in are a `JSONColumn`: what the code relies on is that a document of valid UTF-8 text is
read back as it was written, and nothing is promised for other documents, whose strings
`json.Marshal` changes.

`compileExpression_stored` follows the text of an accepted expression through the lexer and the
parser to the document: every string that reaches it was cut from the text at ASCII bytes, so a
rule that was accepted evaluates after loading, on every request, as it did before.
-/

namespace VibesWaf

/-! ### The JSON document of a node -/

/-- The member `value` of a node: a string or an array of strings. -/
inductive ValueDocument
  | string (s : GoString)
  | array (values : List GoString)
  deriving DecidableEq, Repr

/-- The JSON object of a node; `absent` is a member that is not there, and `none` is one, too. -/
inductive NodeDocument
  | absent
  | object (type operator field : Option GoString) (value : Option ValueDocument)
      (left right : NodeDocument)
  deriving DecidableEq, Repr

/-- A string member with `omitempty`. -/
def omitEmpty (s : GoString) : Option GoString :=
  if s = [] then none else some s

/-- The member of a rule value: only a `nil` interface is empty. -/
def Value.marshal : Value → Option ValueDocument
  | .none => Option.none
  | .string s => some (.string s)
  | .list values => some (.array values)

/-- `json.Marshal` of a node. -/
def marshal : Node → NodeDocument
  | .nil => .absent
  | .comparison field operator value =>
    .object (some (str "comparison")) (omitEmpty operator) (omitEmpty field) value.marshal
      .absent .absent
  | .logical operator left right =>
    .object (some (str "logical")) (omitEmpty operator) none none (marshal left) (marshal right)

/-- The interface value of the member `value`. -/
def ValueDocument.unmarshal : Option ValueDocument → Value
  | none => .none
  | some (.string s) => .string s
  | some (.array values) => .list values

/-- `json.Unmarshal` into a node: a member that is not there leaves its field empty. There is no
node for another `type`, and none for a node that has the members of two types. -/
def unmarshal : NodeDocument → Option Node
  | .absent => some .nil
  | .object type operator field value left right =>
    if type = some (str "comparison") ∧ left = .absent ∧ right = .absent then
      some (.comparison (field.getD []) (operator.getD []) (ValueDocument.unmarshal value))
    else if type = some (str "logical") ∧ field = none ∧ value = none then
      match unmarshal left, unmarshal right with
      | some l, some r => some (.logical (operator.getD []) l r)
      | _, _ => none
    else none

private theorem omitEmpty_getD (s : GoString) : (omitEmpty s).getD [] = s := by
  rw [omitEmpty]
  split
  · rename_i hs
    exact hs.symm
  · rfl

private theorem Value.unmarshal_marshal (v : Value) : ValueDocument.unmarshal v.marshal = v := by
  cases v <;> rfl

/-- A node is read back from its document. -/
theorem unmarshal_marshal (n : Node) : unmarshal (marshal n) = some n := by
  induction n with
  | nil => rfl
  | comparison field operator value =>
    simp [marshal, unmarshal, omitEmpty_getD, Value.unmarshal_marshal]
  | logical operator left right ihl ihr =>
    have htype : (some (str "logical")) ≠ some (str "comparison") := by decide
    simp [marshal, unmarshal, htype, omitEmpty_getD, ihl, ihr]

/-! ### Documents of valid text -/

/-- Every string of the member is valid UTF-8. -/
def ValueDocument.ValidText : ValueDocument → Prop
  | .string s => validUTF8 s = true
  | .array values => ∀ s ∈ values, validUTF8 s = true

/-- Every string of the document is valid UTF-8. -/
def NodeDocument.ValidText : NodeDocument → Prop
  | .absent => True
  | .object type operator field value left right =>
    (∀ s ∈ type, validUTF8 s = true) ∧ (∀ s ∈ operator, validUTF8 s = true) ∧
      (∀ s ∈ field, validUTF8 s = true) ∧ (∀ v ∈ value, v.ValidText) ∧
        left.ValidText ∧ right.ValidText

/-- The text layer of `encoding/json` with the column it is kept in: a document of valid UTF-8
text is read back as it was written. The layer refuses to read what is nested more than 10000 deep;
that limit is outside this law. -/
structure JSONColumn (τ : Type) where
  write : NodeDocument → τ
  read : τ → Option NodeDocument
  read_write : ∀ d : NodeDocument, d.ValidText → read (write d) = some d

/-- What `Create` and `Update` put into the column. -/
def JSONColumn.storeAST {τ : Type} (column : JSONColumn τ) (n : Node) : τ :=
  column.write (marshal n)

/-- What `GetByID` and the lists read from the column. -/
def JSONColumn.loadAST {τ : Type} (column : JSONColumn τ) (stored : τ) : Option Node :=
  (column.read stored).bind unmarshal

/-! ### Every string of an accepted tree was cut from the text -/

section Stored

variable [GoLib]

/-- Words that are read as a boolean literal are lowered to valid text, as `strings.ToLower`
does with every text. -/
def LowersToText : Prop :=
  ∀ w : GoString, toUpper w = str "TRUE" ∨ toUpper w = str "FALSE" → validUTF8 (toLower w) = true

/-- The unread rest of a valid text. -/
private def Unread (s : GoString) : Prop :=
  ∃ before, validUTF8 (before ++ s) = true

omit [GoLib] in
private theorem Unread.suffix {s t : GoString} (h : Unread s) (hsuffix : t <:+ s) : Unread t := by
  obtain ⟨before, hbefore⟩ := h
  obtain ⟨cut, rfl⟩ := hsuffix
  exact ⟨before ++ cut, by rwa [List.append_assoc]⟩

/-- A literal of valid text, when the token is one. -/
private def Token.ValidText (t : Token) : Prop :=
  ∀ v ∈ t.literal?, validUTF8 v = true

omit [GoLib] in
private theorem Token.validText_of_value {t : Token} (h : validUTF8 t.value = true) :
    t.ValidText := by
  intro v hv
  rw [Token.literal?] at hv
  split at hv
  · obtain rfl : t.value = v := by simpa using hv
    exact h
  · cases hv

omit [GoLib] in
private theorem Token.validText_of_type {t : Token} (h : ¬ (t.type = .string ∨ t.type = .number)) :
    t.ValidText := by
  intro v hv
  rw [Token.literal?, if_neg h] at hv
  cases hv

private theorem wordToken_validText (hlower : LowersToText) (w : GoString) :
    (wordToken w).ValidText := by
  by_cases hbool : toUpper w = str "TRUE" ∨ toUpper w = str "FALSE"
  · by_cases hkw : toUpper w = str "AND" ∨ toUpper w = str "OR" ∨ toUpper w = str "NOT"
    · have hne : str "OR" ≠ str "AND" ∧ str "NOT" ≠ str "AND" ∧ str "NOT" ≠ str "OR" := by decide
      refine Token.validText_of_type ?_
      rw [wordToken]
      rcases hkw with h | h | h <;> simp [h, hne]
    · obtain ⟨h1, h2, h3⟩ := by simpa only [not_or] using hkw
      rw [wordToken, if_neg h1, if_neg h2, if_neg h3, if_pos hbool]
      exact Token.validText_of_value (hlower w hbool)
  · refine Token.validText_of_type ?_
    rw [wordToken]
    split_ifs <;> simp

omit [GoLib] in
private theorem numberToken_validText {w : GoString} (hw : ∀ c ∈ w, isDigit c = true) :
    (numberToken w).ValidText := by
  have hdigit : ∀ c : UInt8, isDigit c = true → decide (c < 0x80) = true := by decide +kernel
  have hascii : isASCII w = true := List.all_eq_true.mpr fun c hc => hdigit c (hw c hc)
  refine Token.validText_of_value ?_
  rw [numberToken]
  split_ifs
  · decide
  · decide
  · exact validUTF8_of_isASCII hascii

/-- A turn of the lexer on the unread rest of a valid text: the token is valid, and what it
leaves is unread. -/
private theorem readToken_validText (hlower : LowersToText) {len : ℕ} {ch : UInt8}
    {rest rest' : GoString} {t : Token} (hunread : Unread (ch :: rest))
    (h : readToken len ch rest = .ok (t, rest')) : t.ValidText ∧ Unread rest' := by
  have htail : Unread rest := hunread.suffix (List.suffix_cons ch rest)
  have hdrop : ∀ p : UInt8 → Bool, Unread ((ch :: rest).dropWhile p) := fun p =>
    hunread.suffix (List.dropWhile_suffix p)
  cases readToken_cases h with
  | mark hk =>
    refine ⟨Token.validText_of_type fun htype => hk ?_, htail⟩
    rcases htype with rfl | rfl <;> decide
  | quoted hch hread =>
    -- the literal stands between two quotes of the text
    have hcut := readString_eq hread
    subst hcut hch
    obtain ⟨before, hbefore⟩ := hunread
    have hinner := (validUTF8_append_cons (by decide) hbefore).2
    exact ⟨Token.validText_of_value (validUTF8_append_cons (by decide) hinner).1,
      htail.suffix ((List.suffix_cons _ _).trans (List.suffix_append _ _))⟩
  | word _ => exact ⟨wordToken_validText hlower _, hdrop isWordByte⟩
  | number _ =>
    exact ⟨numberToken_validText (List.all_eq_true.mp List.all_takeWhile), hdrop isDigit⟩

/-- Every literal token of a valid text is valid text, by induction on the loop of the lexer. -/
private theorem tokenizeFrom_validText (hlower : LowersToText) {len fuel : ℕ} {s : GoString}
    {tokens : List Token} (hs : Unread s) (h : tokenizeFrom len fuel s = .ok tokens) :
    ∀ t ∈ tokens, t.ValidText := by
  have heof : eofToken.ValidText := Token.validText_of_type (by decide)
  induction fuel generalizing s tokens with
  | zero =>
    cases hsk : skipWhitespace s with
    | nil =>
      rw [tokenizeFrom_nil hsk] at h
      obtain rfl : [eofToken] = tokens := by simpa using h
      simpa using heof
    | cons ch rest =>
      rw [tokenizeFrom, hsk] at h
      cases h
  | succ fuel ih =>
    cases hsk : skipWhitespace s with
    | nil =>
      rw [tokenizeFrom_nil hsk] at h
      obtain rfl : [eofToken] = tokens := by simpa using h
      simpa using heof
    | cons ch rest =>
      have hrest : Unread (ch :: rest) := hsk ▸ hs.suffix (List.dropWhile_suffix isSpace)
      rw [tokenizeFrom_cons hsk] at h
      cases hr : readToken len ch rest with
      | error e => simp [hr] at h
      | ok p =>
        obtain ⟨t, rest'⟩ := p
        cases ht : tokenizeFrom len fuel rest' with
        | error e => simp [hr, ht] at h
        | ok us =>
          obtain rfl : t :: us = tokens := by simpa [hr, ht] using h
          obtain ⟨htok, hunread⟩ := readToken_validText hlower hrest hr
          exact List.forall_mem_cons.mpr ⟨htok, ih hunread ht⟩

omit [GoLib] in
private theorem ListItems.validText {ts : List Token} {vs : List GoString} (h : ListItems ts vs)
    (hts : ∀ t ∈ ts, t.ValidText) : ∀ v ∈ vs, validUTF8 v = true := by
  induction h with
  | close _ => simp
  | last ht _ => simpa using hts _ (by simp) _ ht
  | item ht _ _ ih =>
    refine List.forall_mem_cons.mpr ⟨hts _ (by simp) _ ht, ih fun t hmem => ?_⟩
    exact hts t (List.mem_cons_of_mem _ (List.mem_cons_of_mem _ hmem))

omit [GoLib] in
/-- The value of a comparison of valid tokens is valid text. -/
private theorem Comparison.value_validText {ts : List Token} {f o : GoString} {v : Value}
    (h : Comparison ts (.comparison f o v)) (hts : ∀ t ∈ ts, t.ValidText) :
    ∀ d ∈ v.marshal, d.ValidText := by
  cases h with
  | exist => simp [Value.marshal]
  | list _ _ _ _ hitems =>
    have hvs := hitems.validText fun t hmem => hts t (by simp [hmem])
    simpa [Value.marshal, ValueDocument.ValidText] using hvs
  | literal _ _ _ ht =>
    have hv := hts _ (by simp) _ ht
    simpa [Value.marshal, ValueDocument.ValidText] using hv

omit [GoLib] in
private theorem omitEmpty_validText {s : GoString} (h : validUTF8 s = true) :
    ∀ v ∈ omitEmpty s, validUTF8 v = true := by
  intro v hv
  rw [omitEmpty] at hv
  split at hv
  · cases hv
  · obtain rfl : s = v := by simpa using hv
    exact h

/-- The field and the operator of a validated comparison are registered, so they are ASCII. -/
private theorem validateComparison_validText {f o : GoString} {v : Value}
    (h : validateComparison f o v = .ok ()) : validUTF8 f = true ∧ validUTF8 o = true := by
  have hfields : ∀ d ∈ fieldRegistry, isASCII d.name = true := by decide
  have hops : ∀ op ∈ operators, isASCII op = true := by decide
  rw [validateComparison] at h
  split_ifs at h with h1 h2 h3
  all_goals
    obtain ⟨d, hd⟩ : ∃ d, fieldDef? f = some d :=
      Option.ne_none_iff_exists'.mp (by simpa using h1)
    rw [fieldDef?] at hd
    have hname : d.name = f := by simpa using List.find?_some hd
    have hf : isASCII f = true := hname ▸ hfields d (List.mem_of_find?_eq_some hd)
    exact ⟨validUTF8_of_isASCII hf, validUTF8_of_isASCII (hops o (by simpa using h2))⟩

/-- The document of a derived and validated tree of valid tokens is valid text. -/
private theorem Derives.marshal_validText {l : Level} {ts : List Token} {n : Node}
    (h : Derives l ts n) (hv : validateChild n = .ok ()) (hts : ∀ t ∈ ts, t.ValidText) :
    (marshal n).ValidText := by
  have htype : ∀ {name : GoString}, name ∈ [str "comparison", str "logical"] →
      ∀ s ∈ some name, validUTF8 s = true := fun {name} hname s hs => by
    obtain rfl : name = s := by simpa using hs
    rcases List.mem_pair.mp hname with rfl | rfl <;> decide
  have hop : ∀ {name : GoString}, name ∈ [str "AND", str "OR", str "NOT"] →
      ∀ s ∈ omitEmpty name, validUTF8 s = true := fun {name} hname => by
    refine omitEmpty_validText ?_
    simp only [List.mem_cons, List.not_mem_nil, or_false] at hname
    rcases hname with rfl | rfl | rfl <;> decide
  induction h with
  | comparison h =>
    obtain ⟨f, o, v, rfl⟩ := h.eq_comparison
    obtain ⟨hf, ho⟩ := validateComparison_validText hv
    exact ⟨htype (by simp), omitEmpty_validText ho, omitEmpty_validText hf,
      h.value_validText hts, trivial, trivial⟩
  | not _ _ ih =>
    have hn := ih (validateChild_logical hv).1 fun t hmem => hts t (by simp [hmem])
    exact ⟨htype (by simp), hop (by simp), by simp, by simp, hn, trivial⟩
  | paren _ _ _ ih => exact ih hv fun t hmem => hts t (by simp [hmem])
  | factor _ ih => exact ih hv hts
  | and _ _ _ iha ihb =>
    obtain ⟨hva, hvb⟩ := validateChild_logical hv
    have ha := iha hva fun t hmem => hts t (by simp [hmem])
    have hb := ihb hvb fun t hmem => hts t (by simp [hmem])
    exact ⟨htype (by simp), hop (by simp), by simp, by simp, ha, hb⟩
  | term _ ih => exact ih hv hts
  | or _ _ _ iha ihb =>
    obtain ⟨hva, hvb⟩ := validateChild_logical hv
    have ha := iha hva fun t hmem => hts t (by simp [hmem])
    have hb := ihb hvb fun t hmem => hts t (by simp [hmem])
    exact ⟨htype (by simp), hop (by simp), by simp, by simp, ha, hb⟩

/-- The document of an accepted expression of valid text is valid text. -/
theorem marshal_validText (hlower : LowersToText) {s : GoString} (hs : validUTF8 s = true)
    {n : Node} (h : compileExpression s = .ok n) : (marshal n).ValidText := by
  obtain ⟨tokens, htok, hparse, hv⟩ := compileExpression_eq_ok h
  obtain ⟨ts, us, rfl, hd, -, -⟩ := parse_eq_ok hparse
  have hvalid := tokenizeFrom_validText hlower ⟨[], by simpa using hs⟩ htok
  exact hd.marshal_validText (validate_eq_ok hv).2 fun t hmem => hvalid t (by simp [hmem])

/-- **Accepted rules keep working after storage.** The tree of an accepted expression of valid
UTF-8 text is stored and loaded back, and the loaded tree evaluates without an error, on every
request, to the truth value of the compiled one. -/
theorem compileExpression_stored {τ : Type} (column : JSONColumn τ) (hlower : LowersToText)
    {s : GoString} (hs : validUTF8 s = true) {n : Node} (h : compileExpression s = .ok n) :
    ∃ loaded, column.loadAST (column.storeAST n) = some loaded ∧ ∀ ctx : RequestContext,
      ∃ result, evaluate loaded ctx = .ok result ∧ evaluate n ctx = .ok result := by
  have hread : column.read (column.write (marshal n)) = some (marshal n) :=
    column.read_write _ (marshal_validText hlower hs h)
  refine ⟨n, ?_, fun ctx => ?_⟩
  · rw [JSONColumn.loadAST, JSONColumn.storeAST, hread, Option.bind_some, unmarshal_marshal]
  · exact ⟨holds ctx n, compileExpression_evaluate h ctx, compileExpression_evaluate h ctx⟩

end Stored

section Witness

attribute [local instance] asciiLib

/-- A column that keeps documents as they are. -/
def documentColumn : JSONColumn NodeDocument where
  write := id
  read := some
  read_write _ _ := rfl

/-- Tables that only map ASCII letters lower every boolean literal to ASCII text. -/
private theorem lowersToText_asciiLib : LowersToText := by
  intro w hw
  have hascii : isASCII w = true := isASCII_of_toUpper_asciiLib (by
    rcases hw with h | h <;> rw [h] <;> decide)
  have hlow : ∀ c : UInt8, decide (c < 0x80) = true → decide (lowerByte c < 0x80) = true := by
    decide +kernel
  refine validUTF8_of_isASCII ?_
  rw [toLower, if_pos hascii, isASCII, List.all_map, List.all_eq_true]
  exact fun c hc => hlow c (List.all_eq_true.mp hascii c hc)

/-- A rule with a list, a negation and text beyond ASCII keeps working. -/
theorem compileExpression_stored_list :
    let s := str "NOT http.path in [\"/a\", \"/é\"] OR http.query exists"
    let n := Node.logical (str "OR")
      (.logical (str "NOT")
        (.comparison (str "http.path") (str "in") (.list [str "/a", str "/é"])) .nil)
      (.comparison (str "http.query") (str "exists") .none)
    validUTF8 s = true ∧ compileExpression s = .ok n ∧
      ∃ loaded, documentColumn.loadAST (documentColumn.storeAST n) = some loaded ∧
        ∀ ctx : RequestContext, ∃ result, evaluate loaded ctx = .ok result ∧
          evaluate n ctx = .ok result :=
  have hs : validUTF8 (str "NOT http.path in [\"/a\", \"/é\"] OR http.query exists") = true := by
    decide
  have h : compileExpression (str "NOT http.path in [\"/a\", \"/é\"] OR http.query exists") =
      .ok (.logical (str "OR")
        (.logical (str "NOT")
          (.comparison (str "http.path") (str "in") (.list [str "/a", str "/é"])) .nil)
        (.comparison (str "http.query") (str "exists") .none)) := by
    decide
  ⟨hs, h, compileExpression_stored documentColumn lowersToText_asciiLib hs h⟩

end Witness

end VibesWaf

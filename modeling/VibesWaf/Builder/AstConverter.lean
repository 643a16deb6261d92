import VibesWaf.Builder.Expression
import VibesWaf.Lib.Connectives
import VibesWaf.Rule.Engine

/-!
# From the compiled tree back to the builder

`astToConditionGroup` turns a stored tree into the flat list of conditions the builder edits:
each comparison becomes a condition, and the connector written after it is the operator of the
node it is the left child of, and `AND` when it is a right child or the root.

Printing such a list and compiling the text gives the tree `conditionTree` of the list: the
conditions joined by their connectors with AND binding tighter than OR, up to the first connector
that is neither (`parse_generateExpression`).
-/

namespace VibesWaf

open Connectives

section Converter

variable [GoLib]

/-! ### The converter -/

/-- The names `mapOperator` replaces; every other operator stands for itself. -/
def operatorMap : List (GoString × GoString) :=
  [(str "==", str "eq"), (str "!=", str "neq"), (str ">", str "gt"), (str "<", str "lt"),
    (str ">=", str "gte"), (str "<=", str "lte")]

/-- `mapOperator`. -/
def mapOperator (op : GoString) : GoString :=
  ((operatorMap.find? (·.1 = op)).map Prod.snd).getD op

/-- The condition pushed for a comparison: the value of a list goes to `values`. -/
def comparisonCondition (field operator : GoString) (value : Value) (logicAfter : GoString) :
    Condition where
  field := field
  operator := mapOperator operator
  value := match value with
    | .string s => s
    | _ => []
  values := match value with
    | .list vs => some vs
    | _ => none
  logicAfter := some logicAfter

/-- `parseASTNode`: the conditions it pushes, in order. -/
def parseASTNode : Node → GoString → List Condition
  | .nil, _ => []
  | .comparison field operator value, logicAfter =>
    [comparisonCondition field operator value logicAfter]
  | .logical operator left right, _ =>
    parseASTNode left (toUpper operator) ++
      match right with
      | .nil => []
      | .logical .. => parseASTNode right (toUpper operator)
      | .comparison .. => parseASTNode right (str "AND")

/-- `astToConditionGroup`. -/
def astToConditionGroup (ast : Node) : List Condition :=
  parseASTNode ast (str "AND")

/-- A logical node ignores the connector it is given, so every right child may be read as if it
were given `AND`. -/
theorem parseASTNode_logical (operator : GoString) (left right : Node) (la : GoString) :
    parseASTNode (.logical operator left right) la =
      parseASTNode left (toUpper operator) ++ parseASTNode right (str "AND") := by
  cases right <;> simp [parseASTNode]

/-! ### The tree of a list of conditions -/

omit [GoLib] in
/-- The node of a conjunction. -/
abbrev andNode : Node → Node → Node := .logical (str "AND")

omit [GoLib] in
/-- The node of a disjunction. -/
abbrev orNode : Node → Node → Node := .logical (str "OR")

/-- The connective a connector stands for, if it is one. -/
def connective? (la : Option GoString) : Option Conn :=
  if la = some (str "AND") then some .and
  else if la = some (str "OR") then some .or
  else none

/-- The conditions of a list, each with the connective before it, up to the first connector that
is no connective. -/
def follow : Option GoString → List Condition → List (Conn × Condition)
  | _, [] => []
  | la, c :: cs =>
    match connective? la with
    | none => []
    | some conn => (conn, c) :: follow c.logicAfter cs

/-- The comparison a condition stands for. -/
def Condition.leaf (c : Condition) : Node :=
  c.comparison?.getD .nil

/-- The tree of a list of conditions. -/
def conditionTree (c : Condition) (cs : List Condition) : Node :=
  chainTree andNode orNode none c.leaf
    ((follow c.logicAfter cs).map fun p => (p.1, p.2.leaf))

omit [GoLib] in
/-- The comparisons of a tree, in order. -/
def leaves : Node → List Node
  | .nil => []
  | .comparison field operator value => [.comparison field operator value]
  | .logical _ left right => leaves left ++ leaves right

omit [GoLib] in
/-- The comparisons of a chain's tree are the operands of the chain. -/
theorem leaves_chainTree (items : List (Conn × Node)) (e : Option Node) (t : Node) :
    leaves (chainTree andNode orNode e t items) =
      (e.map leaves).getD [] ++ leaves t ++ items.flatMap fun p => leaves p.2 := by
  induction items generalizing e t with
  | nil => cases e <;> simp [chainTree, leaves]
  | cons p rest ih =>
    obtain ⟨conn, u⟩ := p
    cases conn <;> cases e <;> simp [chainTree, ih, leaves]

omit [GoLib] in
theorem follow_subset {la : Option GoString} {cs : List Condition} :
    ∀ p ∈ follow la cs, p.2 ∈ cs := by
  induction cs generalizing la with
  | nil => simp [follow]
  | cons c cs ih =>
    intro p hp
    rw [follow] at hp
    split at hp
    · cases hp
    · rcases List.mem_cons.mp hp with rfl | hp
      · simp
      · exact List.mem_cons_of_mem _ (ih p hp)

/-- The tree of a list of validated comparisons is validated. -/
theorem validate_conditionTree {c : Condition} {cs : List Condition}
    (h : ∀ x ∈ c :: cs, x.leaf ≠ .nil ∧ validateChild x.leaf = .ok ()) :
    validate (conditionTree c cs) = .ok () := by
  have key : conditionTree c cs ≠ .nil ∧ validateChild (conditionTree c cs) = .ok () := by
    refine chainTree_induction (P := fun n => n ≠ .nil ∧ validateChild n = .ok ())
      (e := none) ?_ id ?_ ?_ (by simp) (h c (by simp))
    · rintro a b ⟨-, ha⟩ ⟨-, hb⟩
      exact ⟨by simp, by simp [validateChild, ha, hb]⟩
    · rintro a b ⟨-, ha⟩ ⟨-, hb⟩
      exact ⟨by simp, by simp [validateChild, ha, hb]⟩
    · intro p hp
      obtain ⟨q, hq, rfl⟩ := List.mem_map.mp hp
      exact h q.2 (List.mem_cons_of_mem _ (follow_subset q hq))
  simp [validate, key.1, key.2]

/-- A condition that is printed plainly, and a connector that is absent or a connective word. -/
def Condition.Plain (c : Condition) : Prop :=
  c.comparison?.isSome ∧
    c.logicAfter ∈ [none, some (str "AND"), some (str "OR"), some (str "NOT")]

instance (c : Condition) : Decidable c.Plain :=
  inferInstanceAs (Decidable (_ ∧ _))

/-! ### Printing a list and parsing it -/

/-- The tokens after the first comparison of a chain, against the connectives and comparisons
they stand for. -/
private inductive Chained : List Token → List (Conn × Node) → Prop
  | nil : Chained [] []
  | and {lt ts : List Token} {n : Node} {items : List (Conn × Node)} (hn : Comparison lt n)
      (h : Chained ts items) :
      Chained (⟨.logical, str "AND"⟩ :: (lt ++ ts)) ((.and, n) :: items)
  | or {lt ts : List Token} {n : Node} {items : List (Conn × Node)} (hn : Comparison lt n)
      (h : Chained ts items) :
      Chained (⟨.logical, str "OR"⟩ :: (lt ++ ts)) ((.or, n) :: items)

private theorem isLogical_and : isLogical (str "AND") ⟨.logical, str "AND"⟩ :=
  ⟨rfl, rfl⟩

private theorem isLogical_or : isLogical (str "OR") ⟨.logical, str "OR"⟩ :=
  ⟨rfl, rfl⟩

/-- A chain derives its tree, from the conjunction and the disjunction read so far. -/
private theorem Chained.derives {rest : List Token} {items : List (Conn × Node)}
    (h : Chained rest items) {ts : List Token} {t : Node} (ht : Derives .term ts t) :
    Derives .expression (ts ++ rest) (chainTree andNode orNode none t items) ∧
      ∀ {es : List Token} {e : Node}, Derives .expression es e →
        Derives .expression (es ++ ⟨.logical, str "OR"⟩ :: (ts ++ rest))
          (chainTree andNode orNode (some e) t items) := by
  induction h generalizing ts t with
  | nil => simpa [chainTree] using ⟨.term ht, fun he => .or he isLogical_or ht⟩
  | @and lt us n items hn _ ih =>
    have := ih (.and ht isLogical_and (.comparison hn))
    simpa [chainTree] using this
  | @or lt us n items hn _ ih =>
    obtain ⟨hnone, hsome⟩ := ih (.factor (.comparison hn))
    refine ⟨by simpa [chainTree] using hsome (.term ht), fun he => ?_⟩
    simpa [chainTree] using hsome (.or he isLogical_or ht)

private theorem Comparison.ne_nil {ts : List Token} {n : Node} (h : Comparison ts n) (kw : GoString)
    (us : List Token) : ¬ isLogical kw (current (ts ++ us)) := by
  cases h with
  | exist hf _ _ => exact fun h => by simp [isLogical, hf] at h
  | list hf _ _ _ _ => exact fun h => by simp [isLogical, hf] at h
  | literal hf _ _ _ => exact fun h => by simp [isLogical, hf] at h

/-- A connector word is printed in lower case and lexes to its token. -/
theorem connector_lexes {la : GoString}
    (h : la ∈ [str "AND", str "OR", str "NOT"]) : isWord (toLower la) = true ∧
      wordToken (toLower la) = ⟨.logical, la⟩ := by
  have key : ∀ la ∈ [str "AND", str "OR", str "NOT"], isASCII la = true ∧
      isWord (la.map lowerByte) = true ∧ isASCII (la.map lowerByte) = true ∧
      @wordToken asciiLib (la.map lowerByte) = ⟨.logical, la⟩ := by decide
  obtain ⟨hascii, hw, hlower, ht⟩ := key la h
  rw [toLower, if_pos hascii]
  exact ⟨hw, by rw [wordToken_of_isASCII hlower, ht]⟩

omit [GoLib] in
private theorem connector_ne_nil : str "AND" ≠ [] ∧ str "OR" ≠ [] ∧ str "NOT" ≠ [] := by
  decide

/-- What one plain condition adds in front of the text of the conditions after it. -/
private theorem generateExpression_cons {c : Condition} (hc : c.Plain) {fd : FieldDefinition}
    {text : GoString} (hfd : builderField? c.field = some fd)
    (hop : c.operator ∈ fd.allowedOperators) (htext : conditionText fd.type c = [text])
    {cs : List Condition} (hcs : expressionParts cs ≠ []) :
    generateExpression (c :: cs) = text ++ 0x20 ::
      (match c.logicAfter with
        | some la => toLower la ++ 0x20 :: generateExpression cs
        | none => generateExpression cs) := by
  have hne : cs.isEmpty = false := by
    cases cs with
    | nil => exact absurd rfl hcs
    | cons => rfl
  obtain ⟨-, hla⟩ := hc
  simp only [List.mem_cons, List.not_mem_nil, or_false] at hla
  have hparts : expressionParts (c :: cs) = text ::
      ((match c.logicAfter with | some la => [toLower la] | none => []) ++ expressionParts cs) := by
    rcases hla with h | h | h | h <;>
      simp [expressionParts, conditionParts, hfd, hop, htext, hne, h, connector_ne_nil]
  rw [generateExpression, hparts]
  rcases hla with h | h | h | h <;>
    simp [h, generateExpression, List.intercalate_cons_of_ne_nil, hcs]

private theorem expressionParts_ne_nil {c : Condition} (hc : c.Plain) (cs : List Condition) :
    expressionParts (c :: cs) ≠ [] := by
  obtain ⟨n, hn⟩ := Option.isSome_iff_exists.mp hc.1
  obtain ⟨fd, text, tokens, hfd, hop, htext, -, -⟩ := Condition.lexes hn
  simp [expressionParts, conditionParts, hfd, hop, htext]

/-- The printed list lexes to its first comparison, the chain of those that follow it, and a rest
that starts with no connective. -/
private theorem generateExpression_lexes {c : Condition} {cs : List Condition}
    (h : ∀ x ∈ c :: cs, x.Plain) :
    ∃ lt rest us, Lexes (generateExpression (c :: cs)) (lt ++ (rest ++ us)) ∧
      Comparison lt c.leaf ∧
      Chained rest ((follow c.logicAfter cs).map fun p => (p.1, p.2.leaf)) ∧
      ¬ isLogical (str "AND") (current us) ∧ ¬ isLogical (str "OR") (current us) := by
  induction cs generalizing c with
  | nil =>
    have hc := h c (by simp)
    obtain ⟨n, hn⟩ := Option.isSome_iff_exists.mp hc.1
    obtain ⟨fd, text, lt, hfd, hop, htext, hcmp, hlex⟩ := Condition.lexes hn
    have hparts : generateExpression [c] = text := by
      obtain ⟨-, hla⟩ := hc
      simp only [List.mem_cons, List.not_mem_nil, or_false] at hla
      rcases hla with h | h | h | h <;>
        simp [generateExpression, expressionParts, conditionParts, hfd, hop, htext, h]
    refine ⟨lt, [], [eofToken], ?_, by simpa [Condition.leaf, hn] using hcmp, .nil, ?_, ?_⟩
    · simpa [hparts] using hlex delimited_nil (.nil rfl)
    · exact fun h => absurd h.1 (by decide)
    · exact fun h => absurd h.1 (by decide)
  | cons c' cs ih =>
    have hc := h c (by simp)
    have hcs : ∀ x ∈ c' :: cs, x.Plain := fun x hx => h x (by simp [hx])
    obtain ⟨n, hn⟩ := Option.isSome_iff_exists.mp hc.1
    obtain ⟨fd, text, lt, hfd, hop, htext, hcmp, hlex⟩ := Condition.lexes hn
    obtain ⟨lt', rest', us', hlex', hcmp', hch', hand', hor'⟩ := ih hcs
    have hgen := generateExpression_cons hc hfd hop htext
      (expressionParts_ne_nil (hcs c' (by simp)) cs)
    have hleaf : Comparison lt c.leaf := by simpa [Condition.leaf, hn] using hcmp
    obtain ⟨-, hla⟩ := hc
    simp only [List.mem_cons, List.not_mem_nil, or_false] at hla
    have hword : ∀ {la : GoString}, la ∈ [str "AND", str "OR", str "NOT"] →
        Lexes (text ++ 0x20 :: (toLower la ++ 0x20 :: generateExpression (c' :: cs)))
          (lt ++ ⟨.logical, la⟩ :: (lt' ++ (rest' ++ us'))) := fun hmem => by
      obtain ⟨hw, ht⟩ := connector_lexes hmem
      have := hlex'.space.word hw (delimited_cons (by decide) _)
      rw [ht] at this
      exact hlex (delimited_cons (by decide) _) this.space
    rcases hla with hla | hla | hla | hla
    -- no connective: the parser stops after the first comparison
    · rw [hla] at hgen ⊢
      refine ⟨lt, [], lt' ++ (rest' ++ us'), ?_, hleaf, .nil, hcmp'.ne_nil _ _, hcmp'.ne_nil _ _⟩
      rw [hgen]
      exact hlex (delimited_cons (by decide) _) hlex'.space
    · rw [hla] at hgen ⊢
      refine ⟨lt, ⟨.logical, str "AND"⟩ :: (lt' ++ rest'), us', ?_, hleaf, .and hcmp' hch', hand',
        hor'⟩
      rw [hgen]
      simpa using hword (by simp)
    · rw [hla] at hgen ⊢
      refine ⟨lt, ⟨.logical, str "OR"⟩ :: (lt' ++ rest'), us', ?_, hleaf, .or hcmp' hch', hand',
        hor'⟩
      rw [hgen]
      simpa using hword (by simp)
    -- a NOT between two comparisons continues no chain either
    · rw [hla] at hgen ⊢
      refine ⟨lt, [], ⟨.logical, str "NOT"⟩ :: (lt' ++ (rest' ++ us')), ?_, hleaf, .nil, ?_, ?_⟩
      · rw [hgen]
        exact hword (by simp)
      · exact fun h => absurd (show str "NOT" = str "AND" from h.2) (by decide)
      · exact fun h => absurd (show str "NOT" = str "OR" from h.2) (by decide)

/-- **Printing and parsing a list.** The text of a list of plain conditions is tokenized, and
parses to the tree of the list. -/
theorem parse_generateExpression {c : Condition} {cs : List Condition}
    (h : ∀ x ∈ c :: cs, x.Plain) :
    ∃ tokens, tokenize (generateExpression (c :: cs)) = .ok tokens ∧
      parse tokens = .ok (conditionTree c cs) := by
  obtain ⟨lt, rest, us, hlex, hcmp, hch, hand, hor⟩ := generateExpression_lexes h
  refine ⟨_, hlex.tokenize, ?_⟩
  have hd := (hch.derives (.factor (.comparison hcmp))).1
  rw [← List.append_assoc]
  exact hd.parse_eq hand hor

end Converter

end VibesWaf

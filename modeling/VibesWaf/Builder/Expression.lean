import VibesWaf.Rule.Fields
import VibesWaf.Rule.Grammar
import VibesWaf.Rule.Lexes

/-!
# The rule builder's printer

The visual rule builder of the frontend keeps a rule as a flat list of conditions, each with the
connector that stands after it, and `generateExpression` prints the list as an expression.

A condition that the printer writes plainly stands for one comparison of the rule language:
`Condition.comparison?` is that comparison, and is undefined where the printer drops the
condition or where the text between the quotes (or without quotes, for a number) would not be
read back as one literal. `Condition.lexes` is what plain printing means: the text of the
condition lexes to a comparison of the grammar, whatever follows it.
-/

namespace VibesWaf

/-! ### Conditions and fields -/

/-- The value types of the builder's fields. -/
inductive BuilderType
  | string | number | boolean
  deriving DecidableEq, Repr

/-- `mapBackendTypeToFrontend`. -/
def mapBackendTypeToFrontend : FieldType → BuilderType
  | .int => .number
  | .bool => .boolean
  | .string => .string
  | .ip => .string

/-- What the builder knows of a field. An operator's symbol is its name. -/
structure FieldDefinition where
  type : BuilderType
  allowedOperators : List GoString

/-- The entry of `fetchFieldMetadata`'s record for a field: the registry's row, with the
`device.` aliases left out. -/
def builderField? (field : GoString) : Option FieldDefinition :=
  if hasPrefix field (str "device.") then none
  else (fieldDef? field).map fun d => ⟨mapBackendTypeToFrontend d.type, d.allowedOps⟩

/-- A condition of the builder. The connector after it is `AND` or `OR` when the user picked it;
the converter writes whatever operator the tree has. -/
structure Condition where
  field : GoString
  operator : GoString
  value : GoString
  values : Option (List GoString)
  logicAfter : Option GoString
  deriving DecidableEq, Repr

/-! ### `generateExpression` -/

/-- A value as the printer writes it: quoted for a string field, bare otherwise. -/
def literalText (type : BuilderType) (v : GoString) : GoString :=
  if type = .string then 0x22 :: (v ++ [0x22]) else v

/-- The text pushed for a condition on a known field with an allowed operator; nothing for a
boolean field with another operator, or when no value of a list is left. -/
def conditionText (type : BuilderType) (c : Condition) : List GoString :=
  if c.operator = str "exists" ∨ c.operator = str "not_exists" then
    [c.field ++ 0x20 :: c.operator]
  else if type = .boolean then
    if c.operator = str "eq" then [c.field ++ str " eq true"]
    else if c.operator = str "neq" then [c.field ++ str " neq true"]
    else []
  else if c.operator = str "in" ∨ c.operator = str "not_in" then
    match ((c.values.getD []).filter (· ≠ [])).map (literalText type) with
    | [] => []
    | values => [c.field ++ 0x20 :: (c.operator ++ 0x20 :: 0x5B ::
        ([0x2C, 0x20].intercalate values ++ [0x5D]))]
  else [c.field ++ 0x20 :: (c.operator ++ 0x20 :: literalText type c.value)]

section Generate

variable [GoLib]

/-- The texts `generateExpression` pushes for one condition; `isLast` tells whether it is the
last of the list. -/
def conditionParts (c : Condition) (isLast : Bool) : List GoString :=
  match builderField? c.field with
  | none => []
  | some field =>
    if c.operator ∉ field.allowedOperators then []
    else
      conditionText field.type c ++
        match c.logicAfter with
        | some la => if la = [] ∨ isLast = true then [] else [toLower la]
        | none => []

/-- The texts `generateExpression` pushes. -/
def expressionParts : List Condition → List GoString
  | [] => []
  | c :: cs => conditionParts c cs.isEmpty ++ expressionParts cs

/-- `generateExpression`. -/
def generateExpression (conditions : List Condition) : GoString :=
  [0x20].intercalate (expressionParts conditions)

end Generate

/-! ### The comparison a condition stands for -/

/-- The string the lexer makes of a bare literal: the digits of a number (`1` and `0` read as
booleans), or one of the two boolean words. -/
def bareLiteral? (v : GoString) : Option GoString :=
  if isNumber v then some (numberToken v).value
  else if v = str "true" ∨ v = str "false" then some v
  else none

/-- The string the lexer makes of a value as the printer writes it. -/
def literalValue? (type : BuilderType) (v : GoString) : Option GoString :=
  if type = .string then if QuoteSafe v then some v else none
  else bareLiteral? v

/-- The comparison a plainly printed condition stands for. -/
def Condition.comparison? (c : Condition) : Option Node :=
  match builderField? c.field with
  | none => none
  | some field =>
    if c.operator ∉ field.allowedOperators then none
    else if c.operator = str "exists" ∨ c.operator = str "not_exists" then
      some (.comparison c.field c.operator .none)
    else if field.type = .boolean then
      if c.operator = str "eq" ∨ c.operator = str "neq" then
        some (.comparison c.field c.operator (.string (str "true")))
      else none
    else if c.operator = str "in" ∨ c.operator = str "not_in" then
      match ((c.values.getD []).filter (· ≠ [])).mapM (literalValue? field.type) with
      | some (v :: vs) => some (.comparison c.field c.operator (.list (v :: vs)))
      | _ => none
    else
      (literalValue? field.type c.value).map fun v =>
        .comparison c.field c.operator (.string v)

/-- The four ways a condition on a field of the builder stands for a comparison. -/
inductive Condition.Stands (c : Condition) (fd : FieldDefinition) : Node → Prop
  | exist (hex : c.operator = str "exists" ∨ c.operator = str "not_exists") :
      Stands c fd (.comparison c.field c.operator .none)
  | boolean (hex : ¬ (c.operator = str "exists" ∨ c.operator = str "not_exists"))
      (hbool : fd.type = .boolean) (heq : c.operator = str "eq" ∨ c.operator = str "neq") :
      Stands c fd (.comparison c.field c.operator (.string (str "true")))
  | list {w v : GoString} {ws vs : List GoString}
      (hex : ¬ (c.operator = str "exists" ∨ c.operator = str "not_exists"))
      (hbool : fd.type ≠ .boolean) (hin : c.operator = str "in" ∨ c.operator = str "not_in")
      (hws : (c.values.getD []).filter (· ≠ []) = w :: ws)
      (hvs : (w :: ws).mapM (literalValue? fd.type) = some (v :: vs)) :
      Stands c fd (.comparison c.field c.operator (.list (v :: vs)))
  | literal {v : GoString} (hex : ¬ (c.operator = str "exists" ∨ c.operator = str "not_exists"))
      (hbool : fd.type ≠ .boolean) (hin : ¬ (c.operator = str "in" ∨ c.operator = str "not_in"))
      (hv : literalValue? fd.type c.value = some v) :
      Stands c fd (.comparison c.field c.operator (.string v))

/-- What `Condition.comparison?` says when it is defined. -/
theorem Condition.comparison?_eq_some {c : Condition} {n : Node} (h : c.comparison? = some n) :
    ∃ fd, builderField? c.field = some fd ∧ c.operator ∈ fd.allowedOperators ∧ c.Stands fd n := by
  unfold Condition.comparison? at h
  cases hfd : builderField? c.field with
  | none => simp [hfd] at h
  | some fd =>
  simp only [hfd] at h
  by_cases hallowed : c.operator ∉ fd.allowedOperators
  · simp [hallowed] at h
  refine ⟨fd, rfl, not_not.mp hallowed, ?_⟩
  rw [if_neg hallowed] at h
  by_cases hex : c.operator = str "exists" ∨ c.operator = str "not_exists"
  · obtain rfl : Node.comparison c.field c.operator .none = n := by simpa [hex] using h
    exact .exist hex
  rw [if_neg hex] at h
  by_cases hbool : fd.type = .boolean
  · rw [if_pos hbool] at h
    by_cases heq : c.operator = str "eq" ∨ c.operator = str "neq"
    · obtain rfl : Node.comparison c.field c.operator (.string (str "true")) = n := by
        simpa [heq] using h
      exact .boolean hex hbool heq
    · simp [heq] at h
  rw [if_neg hbool] at h
  by_cases hin : c.operator = str "in" ∨ c.operator = str "not_in"
  · rw [if_pos hin] at h
    split at h
    · rename_i v vs hvs
      obtain rfl : Node.comparison c.field c.operator (.list (v :: vs)) = n := by simpa using h
      -- a literal comes from a value, so the filter leaves one
      obtain ⟨w, ws, hws⟩ : ∃ w ws, (c.values.getD []).filter (· ≠ []) = w :: ws := by
        cases hf : (c.values.getD []).filter (· ≠ []) with
        | nil =>
          rw [hf] at hvs
          simp at hvs
        | cons w ws => exact ⟨w, ws, rfl⟩
      rw [hws] at hvs
      exact .list hex hbool hin hws hvs
    · cases h
  · rw [if_neg hin] at h
    obtain ⟨v, hv, rfl⟩ := Option.map_eq_some_iff.mp h
    exact .literal hex hbool hin hv

/-- A condition that stands for a comparison has it as its comparison. -/
theorem Condition.Stands.comparison?_eq {c : Condition} {fd : FieldDefinition} {n : Node}
    (hfd : builderField? c.field = some fd) (hop : c.operator ∈ fd.allowedOperators)
    (h : c.Stands fd n) : c.comparison? = some n := by
  unfold Condition.comparison?
  simp only [hfd, hop, not_true_eq_false, if_false]
  cases h with
  | exist hex => simp [hex]
  | boolean hex hbool heq => simp [hex, hbool, heq]
  | list hex hbool hin hws hvs => simp only [hex, hbool, hin, hws, hvs, if_false, if_true]
  | literal hex hbool hin hv => simp [hex, hbool, hin, hv]

/-! ### Plain conditions lex to their comparison -/

section Lexing

variable [GoLib]

/-- A name with a dot in it is no word of the language. -/
private theorem wordToken_dotted {w : GoString} (hascii : isASCII w = true) (hdot : 0x2E ∈ w) :
    wordToken w = ⟨.identifier, w⟩ := by
  have hkw : ∀ k ∈ [str "AND", str "OR", str "NOT", str "TRUE", str "FALSE"], 0x2E ∉ k := by decide
  have hops : ∀ op ∈ operators, 0x2E ∉ op := by decide
  have hup : 0x2E ∈ toUpper w := by
    rw [toUpper, if_pos hascii]
    exact List.mem_map.mpr ⟨0x2E, hdot, by decide⟩
  have hne : ∀ k ∈ [str "AND", str "OR", str "NOT", str "TRUE", str "FALSE"], toUpper w ≠ k :=
    fun k hk heq => hkw k hk (heq ▸ hup)
  have hop : w ∉ operators := fun h => hops w h hdot
  simp [wordToken, hne, hop]

/-- A registered field name is lexed as an identifier. -/
theorem wordToken_field {d : FieldDef} (hd : d ∈ fieldRegistry) :
    isWord d.name = true ∧ wordToken d.name = ⟨.identifier, d.name⟩ := by
  have key : ∀ d ∈ fieldRegistry, isWord d.name = true ∧ isASCII d.name = true ∧
      (0x2E ∈ d.name ∨ d.name = str "asn" ∨ d.name = str "country") := by decide
  obtain ⟨hw, hascii, hdot | hname | hname⟩ := key d hd
  · exact ⟨hw, wordToken_dotted hascii hdot⟩
  · exact ⟨hw, by rw [wordToken_of_isASCII hascii, hname]; decide⟩
  · exact ⟨hw, by rw [wordToken_of_isASCII hascii, hname]; decide⟩

/-- A boolean word is lexed as a string. -/
theorem wordToken_boolean {w : GoString} (h : w = str "true" ∨ w = str "false") :
    isWord w = true ∧ wordToken w = ⟨.string, w⟩ := by
  have key : ∀ w ∈ [str "true", str "false"], isWord w = true ∧ isASCII w = true ∧
      @wordToken asciiLib w = ⟨.string, w⟩ := by decide
  obtain ⟨hw, hascii, ht⟩ := key w (by simpa using h)
  exact ⟨hw, by rw [wordToken_of_isASCII hascii, ht]⟩

omit [GoLib] in
/-- A field the builder knows is a row of the registry. -/
theorem builderField?_eq_some {f : GoString} {fd : FieldDefinition}
    (h : builderField? f = some fd) :
    ∃ d ∈ fieldRegistry, d.name = f ∧ fd = ⟨mapBackendTypeToFrontend d.type, d.allowedOps⟩ := by
  unfold builderField? at h
  split at h
  · cases h
  · obtain ⟨d, hd, rfl⟩ := Option.map_eq_some_iff.mp h
    exact ⟨d, List.mem_of_find?_eq_some hd, by simpa using List.find?_some hd, rfl⟩

/-- A plainly printed value is read as one literal. -/
private theorem literalText_reads {type : BuilderType} {v v' : GoString}
    (h : literalValue? type v = some v') : ReadsLiteral (literalText type v) v' := by
  unfold literalValue? at h
  by_cases htype : type = .string
  · rw [if_pos htype] at h
    split at h
    · rename_i hv
      obtain rfl : v = v' := by simpa using h
      refine ⟨⟨.string, v⟩, by simp [Token.literal?], fun _ hl => ?_⟩
      simpa [literalText, htype] using hl.quoted hv
    · cases h
  · rw [if_neg htype] at h
    unfold bareLiteral? at h
    have htext : literalText type v = v := if_neg htype
    rw [htext]
    split at h
    · rename_i hv
      obtain rfl : (numberToken v).value = v' := by simpa using h
      exact readsLiteral_number hv
    split at h
    · rename_i hv
      obtain rfl : v = v' := by simpa using h
      obtain ⟨hw, ht⟩ := wordToken_boolean hv
      refine ⟨⟨.string, v⟩, by simp [Token.literal?], fun hs hl => ?_⟩
      rw [← ht]
      exact hl.word hw hs
    · cases h

/-- Plainly printed values are read as literals, one after the other. -/
private theorem literalTexts_read {type : BuilderType} {vs ws : List GoString}
    (h : vs.mapM (literalValue? type) = some ws) :
    List.Forall₂ ReadsLiteral (vs.map (literalText type)) ws := by
  induction vs generalizing ws with
  | nil =>
    obtain rfl : [] = ws := by simpa using h
    exact .nil
  | cons v vs ih =>
    obtain ⟨v', hv', ws', hws', rfl⟩ : ∃ v', literalValue? type v = some v' ∧
        ∃ ws', vs.mapM (literalValue? type) = some ws' ∧ v' :: ws' = ws := by
      rw [List.mapM_cons] at h
      simpa [Option.bind_eq_some_iff] using h
    exact .cons (literalText_reads hv') (ih hws')

/-- **Plain printing.** A condition that stands for a comparison is printed as one text, which
lexes to that comparison in front of any text that ends it. -/
theorem Condition.lexes {c : Condition} {n : Node} (h : c.comparison? = some n) :
    ∃ fd text tokens, builderField? c.field = some fd ∧ c.operator ∈ fd.allowedOperators ∧
      conditionText fd.type c = [text] ∧ Comparison tokens n ∧
      ∀ {s : GoString} {ts : List Token}, Delimited s → Lexes s ts →
        Lexes (text ++ s) (tokens ++ ts) := by
  obtain ⟨fd, hfd, hallowed, hstands⟩ := Condition.comparison?_eq_some h
  obtain ⟨d, hd, hname, hdef⟩ := builderField?_eq_some hfd
  have hop : c.operator ∈ operators :=
    allowedOps_subset_operators d hd _ (by simpa [hdef] using hallowed)
  obtain ⟨hfield, htoken⟩ : isWord c.field = true ∧ wordToken c.field = ⟨.identifier, c.field⟩ :=
    hname ▸ wordToken_field hd
  cases hstands with
  | exist hex =>
    refine ⟨fd, c.field ++ 0x20 :: c.operator, [⟨.identifier, c.field⟩, ⟨.operator, c.operator⟩],
      hfd, hallowed, by rw [conditionText, if_pos hex], .exist rfl rfl hex, fun hs hl => ?_⟩
    simpa using hl.fieldOperator hfield htoken hop hs
  | boolean hex hbool heq =>
    have htext : conditionText fd.type c =
        [c.field ++ 0x20 :: (c.operator ++ 0x20 :: str "true")] := by
      rw [conditionText, if_neg hex, if_pos hbool]
      rcases heq with heq | heq <;> rw [heq] <;> rfl
    obtain ⟨hw, ht⟩ := wordToken_boolean (w := str "true") (.inl rfl)
    refine ⟨fd, _, [⟨.identifier, c.field⟩, ⟨.operator, c.operator⟩, ⟨.string, str "true"⟩], hfd,
      hallowed, htext, .literal rfl rfl hex rfl, fun hs hl => ?_⟩
    have hword := hl.word hw hs
    rw [ht] at hword
    simpa using hword.space.fieldOperator hfield htoken hop (delimited_cons (by decide) _)
  | @list w v ws vs hex hbool hin hws hvs =>
    obtain ⟨items, hitems, hlex⟩ := lexes_listItems (literalTexts_read hvs)
    refine ⟨fd, c.field ++ 0x20 :: (c.operator ++ 0x20 :: 0x5B ::
        ([0x2C, 0x20].intercalate ((w :: ws).map (literalText fd.type)) ++ [0x5D])),
      ⟨.identifier, c.field⟩ :: ⟨.operator, c.operator⟩ :: ⟨.leftBracket, str "["⟩ :: items,
      hfd, hallowed, ?_, .list rfl rfl hin rfl hitems, fun hs hl => ?_⟩
    · rw [conditionText, if_neg hex, if_neg hbool, if_pos hin, hws]
      rfl
    · have hlist := (hlex hl).leftBracket.space.fieldOperator hfield htoken hop
        (delimited_cons (by decide) _)
      simpa using hlist
  | literal hex hbool hin hv =>
    obtain ⟨t, ht, hlex⟩ := literalText_reads hv
    refine ⟨fd, c.field ++ 0x20 :: (c.operator ++ 0x20 :: literalText fd.type c.value),
      [⟨.identifier, c.field⟩, ⟨.operator, c.operator⟩, t], hfd, hallowed,
      by rw [conditionText, if_neg hex, if_neg hbool, if_neg hin],
      .literal rfl rfl hex ht, fun hs hl => ?_⟩
    have hvalue := (hlex hs hl).space.fieldOperator hfield htoken hop
      (delimited_cons (by decide) _)
    simpa using hvalue

end Lexing

end VibesWaf

import VibesWaf.Go.Decimal
import VibesWaf.Rule.Engine
import VibesWaf.Rule.Lexes

/-!
# Rules about numbers

A rule may compare a field with decimal literals: `asn eq 64512`, `asn in [1, 2, 3]`. Such a rule
has an arithmetic meaning, `NumberRule.means`, and it goes another way through the code: the
lexer keeps a literal as text, equality and membership compare texts, and only the ordering
operators read the digits back.

The two ways agree but for the literals `1` and `0`, which the lexer rewrites to the texts `true`
and `false`. `NumberRule.Exact` lists the values of the field that do not notice, and
`compileExpression_number_iff` says that there are no others.
-/

namespace VibesWaf

/-! ### Rules and their arithmetic meaning -/

/-- The operators that compare with one number. -/
inductive NumberOperator
  | eq | neq | gt | lt | gte | lte
  deriving DecidableEq

/-- The operator as it is written. -/
def NumberOperator.text : NumberOperator → GoString
  | .eq => str "eq"
  | .neq => str "neq"
  | .gt => str "gt"
  | .lt => str "lt"
  | .gte => str "gte"
  | .lte => str "lte"

/-- What the operator says of two numbers. -/
def NumberOperator.means (v n : ℤ) : NumberOperator → Bool
  | .eq => decide (v = n)
  | .neq => decide (v ≠ n)
  | .gt => decide (n < v)
  | .lt => decide (v < n)
  | .gte => decide (n ≤ v)
  | .lte => decide (v ≤ n)

/-- A rule that compares a field with decimal literals. -/
inductive NumberRule
  | compare (operator : NumberOperator) (n : ℕ)
  | member (negated : Bool) (ns : List ℕ)

namespace NumberRule

/-- The literals of a rule. -/
def literals : NumberRule → List ℕ
  | .compare _ n => [n]
  | .member _ ns => ns

/-- The operator of a membership rule as it is written. -/
def memberOperator (negated : Bool) : GoString :=
  if negated then str "not_in" else str "in"

/-- The text of a rule about a field. -/
def text (field : GoString) : NumberRule → GoString
  | .compare operator n => field ++ str " " ++ operator.text ++ str " " ++ natText n
  | .member negated ns =>
    field ++ str " " ++ memberOperator negated ++ str " [" ++
      (str ", ").intercalate (ns.map natText) ++ str "]"

/-- What a rule says of a number. -/
def means (v : ℤ) : NumberRule → Bool
  | .compare operator n => operator.means v n
  | .member negated ns => negated ^^ decide (v ∈ ns.map Int.ofNat)

/-- The values that do not notice that the literals `1` and `0` are rewritten. -/
def Exact (v : ℤ) : NumberRule → Prop
  | .compare .eq n => v = n → 2 ≤ n
  | .compare .neq n => v = n → 2 ≤ n
  | .compare .gt n => n = 1 → v ≠ 1
  | .compare .lt n => n = 1 → v ≠ 0
  | .compare .gte n => n = 1 → v ≠ 0
  | .compare .lte n => n = 1 → v ≠ 1
  | .member _ ns => v ∈ ns.map Int.ofNat → 2 ≤ v

end NumberRule

/-! ### A literal and what the lexer makes of it -/

/-- The value of the token of a literal. -/
def literalValue (n : ℕ) : GoString :=
  (numberToken (natText n)).value

/-- The rewriting of `1` and `0`. -/
theorem literalValue_eq (n : ℕ) :
    literalValue n =
      if n = 1 then str "true" else if n = 0 then str "false" else natText n := by
  have hone : natText n = str "1" ↔ n = 1 := by
    have htext : natText 1 = str "1" := by decide
    rw [← htext, natText_injective.eq_iff]
  have hzero : natText n = str "0" ↔ n = 0 := by
    have htext : natText 0 = str "0" := by decide
    rw [← htext, natText_injective.eq_iff]
  rw [literalValue, numberToken]
  by_cases h₁ : n = 1
  · rw [if_pos h₁, if_pos (hone.mpr h₁)]
  rw [if_neg h₁, if_neg (mt hone.mp h₁)]
  by_cases h₀ : n = 0
  · rw [if_pos h₀, if_pos (hzero.mpr h₀)]
  · rw [if_neg h₀, if_neg (mt hzero.mp h₀)]

/-- A number has the text of its literal exactly when it is the number and was not rewritten. -/
theorem natText_eq_literalValue_iff {m n : ℕ} : natText m = literalValue n ↔ m = n ∧ 2 ≤ n := by
  have hword : ∀ w : GoString, w.all isDigit = false → natText m ≠ w := by
    intro w hw h
    rw [← h, List.all_eq_true.mpr (natText_isDigit m)] at hw
    cases hw
  rw [literalValue_eq]
  by_cases h₁ : n = 1
  · rw [if_pos h₁]
    exact iff_of_false (hword _ (by decide)) (by omega)
  rw [if_neg h₁]
  by_cases h₀ : n = 0
  · rw [if_pos h₀]
    exact iff_of_false (hword _ (by decide)) (by omega)
  rw [if_neg h₀, natText_injective.eq_iff]
  exact ⟨fun h => ⟨h, by omega⟩, fun h => h.1⟩

/-- Reading digits one by one is reading them as a natural number, at 64 bits. -/
theorem digitsToInt_of_decimal {s : GoString} {n : ℕ} (h : decimal s = some n) :
    digitsToInt s = Int64.ofNat n := by
  have hfold : ∀ (w : GoString) (k : ℕ), (∀ c ∈ w, isDigit c = true) →
      w.foldl (fun num c =>
        if isDigit c then num * 10 + Int64.ofNat (c.toNat - 0x30) else num) (Int64.ofNat k) =
      Int64.ofNat (w.foldl (fun n c => n * 10 + (c.toNat - 0x30)) k) := by
    intro w
    induction w with
    | nil => exact fun k _ => rfl
    | cons c w ih =>
      intro k hw
      have hstep : Int64.ofNat k * 10 + Int64.ofNat (c.toNat - 0x30) =
          Int64.ofNat (k * 10 + (c.toNat - 0x30)) := by
        rw [Int64.ofNat_add, Int64.ofNat_mul]
        rfl
      rw [List.foldl_cons, List.foldl_cons, if_pos (hw c List.mem_cons_self), hstep]
      exact ih _ fun d hd => hw d (List.mem_cons_of_mem _ hd)
  rw [decimal] at h
  split at h
  · cases h
  · rename_i hdigits
    have hall : s.all isDigit = true := by
      by_contra hcon
      exact hdigits (.inr (by simpa using hcon))
    obtain rfl := Option.some_inj.mp h
    exact hfold s 0 (List.all_eq_true.mp hall)

/-- The number the ordering operators read of a literal: the digits of `true` are none. -/
theorem digitsToInt_literalValue (n : ℕ) :
    digitsToInt (literalValue n) = if n = 1 then 0 else Int64.ofNat n := by
  rw [literalValue_eq]
  by_cases h₁ : n = 1
  · rw [if_pos h₁, if_pos h₁]
    decide
  rw [if_neg h₁, if_neg h₁]
  by_cases h₀ : n = 0
  · rw [if_pos h₀, h₀]
    decide
  rw [if_neg h₀]
  exact digitsToInt_of_decimal (decimal_natText n)

/-! ### Compiling a rule -/

section Numeric

variable [GoLib]

/-- The tree of a rule. -/
def NumberRule.node (field : GoString) : NumberRule → Node
  | .compare operator n => .comparison field operator.text (.string (literalValue n))
  | .member negated ns =>
    .comparison field (memberOperator negated) (.list (ns.map literalValue))

omit [GoLib] in
private theorem isNumber_natText (n : ℕ) : isNumber (natText n) = true := by
  have hne : (natText n).isEmpty = false := by simpa using natText_ne_nil n
  rw [isNumber, hne, List.all_eq_true.mpr (natText_isDigit n)]
  rfl

omit [GoLib] in
private theorem NumberOperator.text_facts (op : NumberOperator) :
    op.text ∈ operators ∧ ¬ (op.text = str "exists" ∨ op.text = str "not_exists") ∧
      ¬ (op.text = str "regex" ∨ op.text = str "not_regex") := by
  cases op <;> decide

omit [GoLib] in
private theorem memberOperator_facts (negated : Bool) :
    NumberRule.memberOperator negated ∈ operators ∧
      (NumberRule.memberOperator negated = str "in" ∨
        NumberRule.memberOperator negated = str "not_in") ∧
      ¬ (NumberRule.memberOperator negated = str "regex" ∨
        NumberRule.memberOperator negated = str "not_regex") := by
  cases negated <;> decide

/-- The text of a rule is one comparison of the grammar. -/
private theorem NumberRule.lexes {field : GoString} (hf : isWord field = true)
    (hft : wordToken field = ⟨.identifier, field⟩) (r : NumberRule) :
    ∃ ts, Comparison ts (r.node field) ∧ Lexes (r.text field) (ts ++ [eofToken]) := by
  have hend : Lexes [] [eofToken] := .nil rfl
  cases r with
  | compare op n =>
    obtain ⟨t, ht, hlex⟩ := readsLiteral_number (isNumber_natText n)
    obtain ⟨hop, hvalue, -⟩ := op.text_facts
    refine ⟨[⟨.identifier, field⟩, ⟨.operator, op.text⟩, t], .literal rfl rfl hvalue ht, ?_⟩
    have hnumber := (hlex delimited_nil hend).space.fieldOperator hf hft hop
      (delimited_cons (by decide) _)
    simpa [NumberRule.text, str_space] using hnumber
  | member negated ns =>
    obtain ⟨hop, hin, -⟩ := memberOperator_facts negated
    have hread : List.Forall₂ ReadsLiteral (ns.map natText) (ns.map literalValue) := by
      rw [List.forall₂_map_left_iff, List.forall₂_map_right_iff, List.forall₂_same]
      exact fun n _ => readsLiteral_number (isNumber_natText n)
    obtain ⟨items, hitems, hlex⟩ := lexes_listItems hread
    refine ⟨⟨.identifier, field⟩ :: ⟨.operator, memberOperator negated⟩ ::
      ⟨.leftBracket, str "["⟩ :: items, .list rfl rfl hin rfl hitems, ?_⟩
    have hlist := (hlex hend).leftBracket.space.fieldOperator hf hft hop
      (delimited_cons (by decide) _)
    simpa [NumberRule.text, str_space, str_opening, str_comma, str_bracket] using hlist

/-- A rule about a registered field compiles to its tree. -/
private theorem compileExpression_text {field : GoString}
    (hfield : (fieldDef? field).isSome = true) (hf : isWord field = true)
    (hft : wordToken field = ⟨.identifier, field⟩) (r : NumberRule) :
    compileExpression (r.text field) = .ok (r.node field) := by
  obtain ⟨ts, hcomparison, hlex⟩ := r.lexes hf hft
  have hd : Derives .expression ts (r.node field) := .term (.factor (.comparison hcomparison))
  refine compileExpression_of hlex.tokenize hd.parse_append_eof ?_
  have hknown : (fieldDef? field).isNone = false := by simpa using hfield
  cases r with
  | compare op n =>
    obtain ⟨hop, -, hregex⟩ := op.text_facts
    rw [NumberRule.node, validate, if_neg (by simp), validateChild, validateComparison, hknown,
      if_neg Bool.false_ne_true, if_neg (not_not.mpr hop), if_neg hregex]
  | member negated ns =>
    obtain ⟨hop, -, hregex⟩ := memberOperator_facts negated
    rw [NumberRule.node, validate, if_neg (by simp), validateChild, validateComparison, hknown,
      if_neg Bool.false_ne_true, if_neg (not_not.mpr hop), if_neg hregex]

/-! ### Evaluating a rule -/

omit [GoLib] in
private theorem ite_ne_int {c : Prop} [Decidable c] {x y : FieldValue} {v : Int64}
    (hx : x ≠ .int v) (hy : y ≠ .int v) : (if c then x else y) ≠ .int v := by
  split
  · exact hx
  · exact hy

/-- The only field with a number is the network's. -/
theorem eq_asn_of_extractField {field : GoString} {ctx : RequestContext} {v : Int64}
    (h : extractField field ctx = .int v) : field = str "asn" := by
  by_contra hasn
  have hstring : ∀ s, FieldValue.string s ≠ .int v := fun s h => by cases h
  have hbool : ∀ b, FieldValue.bool b ≠ .int v := fun b h => by cases h
  revert h
  rw [extractField, if_neg hasn]
  refine ite_ne_int (hstring _) (ite_ne_int (hbool _) (ite_ne_int (hstring _)
    (ite_ne_int (hstring _) (ite_ne_int (hstring _) (ite_ne_int (hstring _)
    (ite_ne_int (hstring _) (ite_ne_int (hstring _) (ite_ne_int (hstring _)
    (ite_ne_int (hstring _) (ite_ne_int (hstring _) (ite_ne_int (hstring _)
    (ite_ne_int (hstring _) (ite_ne_int (hbool _) (ite_ne_int (hbool _)
    (ite_ne_int (hbool _) (hstring _))))))))))))))))

/-- What the tree of a rule says of the number of a field: texts are compared for equality and
membership, read numbers for order. -/
def NumberRule.reads (v : Int64) : NumberRule → Bool
  | .compare .eq n => itoa v.toInt == literalValue n
  | .compare .neq n => !(itoa v.toInt == literalValue n)
  | .compare .gt n => decide (digitsToInt (literalValue n) < v)
  | .compare .lt n => decide (v < digitsToInt (literalValue n))
  | .compare .gte n => decide (digitsToInt (literalValue n) ≤ v)
  | .compare .lte n => decide (v ≤ digitsToInt (literalValue n))
  | .member negated ns => negated ^^ (ns.map literalValue).any (itoa v.toInt == ·)

private theorem evaluate_node {field : GoString} {ctx : RequestContext} {v : Int64}
    (hv : extractField field ctx = .int v) (r : NumberRule) :
    evaluate (r.node field) ctx = .ok (r.reads v) := by
  cases r with
  | compare op n =>
    cases op <;> simp only [NumberRule.node, evaluate]
    · change Except.ok (evalEquals (extractField field ctx) _) = _
      rw [hv]
      rfl
    · change Except.ok (!evalEquals (extractField field ctx) _) = _
      rw [hv]
      rfl
    · change Except.ok (decide (_ < (extractField field ctx).toInt)) = _
      rw [hv]
      rfl
    · change Except.ok (decide ((extractField field ctx).toInt < _)) = _
      rw [hv]
      rfl
    · change Except.ok (decide (_ ≤ (extractField field ctx).toInt)) = _
      rw [hv]
      rfl
    · change Except.ok (decide ((extractField field ctx).toInt ≤ _)) = _
      rw [hv]
      rfl
  | member negated ns =>
    cases negated <;> simp only [NumberRule.node, evaluate]
    · change Except.ok (evalIn (extractField field ctx) _) = _
      rw [hv, NumberRule.reads, Bool.false_xor]
      rfl
    · change Except.ok (!evalIn (extractField field ctx) _) = _
      rw [hv, NumberRule.reads, Bool.true_xor]
      rfl

omit [GoLib] in
private theorem itoa_toInt {v : Int64} (hpos : 0 ≤ v.toInt) :
    itoa v.toInt = natText v.toInt.toNat := by
  have habs : v.toInt.natAbs = v.toInt.toNat := by omega
  rw [itoa, if_neg (not_lt.mpr hpos), habs]

omit [GoLib] in
private theorem toInt_digitsToInt {n : ℕ} (hn : n < 2 ^ 63) :
    (digitsToInt (literalValue n)).toInt = if n = 1 then 0 else (n : ℤ) := by
  rw [digitsToInt_literalValue]
  split
  · rfl
  · exact Int64.toInt_ofNat_of_lt hn

omit [GoLib] in
/-- Equality of texts is equality of numbers where nothing was rewritten. -/
private theorem itoa_beq {v : Int64} (hpos : 0 ≤ v.toInt) (n : ℕ) :
    (itoa v.toInt == literalValue n) = decide (v.toInt = n ∧ 2 ≤ n) := by
  rw [Bool.eq_iff_iff, beq_iff_eq, decide_eq_true_eq, itoa_toInt hpos,
    natText_eq_literalValue_iff]
  omega

omit [GoLib] in
private theorem any_itoa_iff {v : Int64} (hpos : 0 ≤ v.toInt) (ns : List ℕ) :
    (ns.map literalValue).any (itoa v.toInt == ·) = true ↔
      v.toInt ∈ ns.map Int.ofNat ∧ 2 ≤ v.toInt := by
  rw [List.any_eq_true, List.mem_map]
  constructor
  · rintro ⟨w, hw, heq⟩
    obtain ⟨n, hn, rfl⟩ := List.mem_map.mp hw
    rw [itoa_beq hpos, decide_eq_true_eq] at heq
    exact ⟨⟨n, hn, heq.1.symm⟩, by omega⟩
  · rintro ⟨⟨n, hn, hval⟩, htwo⟩
    have hval' : (n : ℤ) = v.toInt := hval
    refine ⟨literalValue n, List.mem_map_of_mem hn, ?_⟩
    rw [itoa_beq hpos, decide_eq_true_eq]
    exact ⟨hval'.symm, by omega⟩

omit [GoLib] in
/-- **Texts and numbers.** What the code reads is the arithmetic meaning exactly where no
rewritten literal is in the way. -/
private theorem reads_eq_means_iff {v : Int64} (hpos : 0 ≤ v.toInt) (r : NumberRule)
    (hlit : ∀ n ∈ r.literals, n < 2 ^ 63) :
    r.reads v = r.means v.toInt ↔ r.Exact v.toInt := by
  cases r with
  | compare op n =>
    have hn : n < 2 ^ 63 := hlit n List.mem_cons_self
    have hread := toInt_digitsToInt hn
    have htext := itoa_beq hpos n
    cases op with
    | eq =>
      rw [NumberRule.reads, NumberRule.means, NumberOperator.means, htext, decide_eq_decide]
      simp only [NumberRule.Exact]
      omega
    | neq =>
      rw [NumberRule.reads, NumberRule.means, NumberOperator.means, htext, ← decide_not,
        decide_eq_decide]
      simp only [NumberRule.Exact]
      omega
    | gt =>
      simp only [NumberRule.reads, NumberRule.means, NumberOperator.means, NumberRule.Exact,
        decide_eq_decide, Int64.lt_iff_toInt_lt, hread]
      split <;> omega
    | lt =>
      simp only [NumberRule.reads, NumberRule.means, NumberOperator.means, NumberRule.Exact,
        decide_eq_decide, Int64.lt_iff_toInt_lt, hread]
      split <;> omega
    | gte =>
      simp only [NumberRule.reads, NumberRule.means, NumberOperator.means, NumberRule.Exact,
        decide_eq_decide, Int64.le_iff_toInt_le, hread]
      split <;> omega
    | lte =>
      simp only [NumberRule.reads, NumberRule.means, NumberOperator.means, NumberRule.Exact,
        decide_eq_decide, Int64.le_iff_toInt_le, hread]
      split <;> omega
  | member negated ns =>
    rw [NumberRule.reads, NumberRule.means, NumberRule.Exact, Bool.xor_right_inj, Bool.eq_iff_iff,
      any_itoa_iff hpos, decide_eq_true_eq]
    tauto

/-- **Numeric rules.** A rule that compares the number of a field with decimal literals compiles,
and it says what it means in arithmetic exactly when the number is none that a rewritten `1` or
`0` changes the answer for. -/
theorem compileExpression_number_iff {field : GoString} {ctx : RequestContext} {v : Int64}
    (hv : extractField field ctx = .int v) (hpos : 0 ≤ v) (r : NumberRule)
    (hlit : ∀ n ∈ r.literals, n < 2 ^ 63) :
    (∃ node, compileExpression (r.text field) = .ok node ∧
        evaluate node ctx = .ok (r.means v.toInt)) ↔
      r.Exact v.toInt := by
  have hpos' : 0 ≤ v.toInt := Int64.le_iff_toInt_le.mp hpos
  have hcompile : compileExpression (r.text field) = .ok (r.node field) := by
    obtain rfl := eq_asn_of_extractField hv
    have htoken : wordToken (str "asn") = ⟨.identifier, str "asn"⟩ := by
      rw [wordToken_of_isASCII (by decide)]
      decide
    exact compileExpression_text (by decide) (by decide) htoken r
  rw [hcompile, ← reads_eq_means_iff hpos' r hlit]
  constructor
  · rintro ⟨node, hnode, heval⟩
    obtain rfl := Except.ok.inj hnode
    rw [evaluate_node hv r] at heval
    exact Except.ok.inj heval
  · intro hreads
    exact ⟨r.node field, rfl, by rw [evaluate_node hv r, hreads]⟩

end Numeric

section Evaluated

attribute [local instance] asciiLib

/-- A request from a network. -/
def requestFrom (asn : UInt64) : RequestContext where
  clientIP := str "203.0.113.7"
  host := str "example.com"
  path := str "/"
  query := []
  method := str "GET"
  userAgent := []
  scheme := str "https"
  proto := str "HTTP/1.1"
  header _ := []
  asn := some asn
  country := none
  isDatacenter := none

/-- The condition is met by a network that no literal rewrites. -/
theorem compileExpression_number_64512 :
    let r := NumberRule.member false [1, 64512]
    (∃ node, compileExpression (r.text (str "asn")) = .ok node ∧
        evaluate node (requestFrom 64512) = .ok (r.means (64512 : Int64).toInt)) ↔
      r.Exact (64512 : Int64).toInt :=
  @compileExpression_number_iff asciiLib _ (requestFrom 64512) 64512 rfl (by decide) _ (by decide)

/-- The rule `asn eq 1` does not match a request from network 1. -/
theorem compileExpression_asn_one :
    ∃ node, compileExpression (str "asn eq 1") = .ok node ∧
      extractField (str "asn") (requestFrom 1) = .int 1 ∧
      evaluate node (requestFrom 1) = .ok false :=
  ⟨.comparison (str "asn") (str "eq") (.string (str "true")), by decide, rfl,
    by decide⟩

end Evaluated

end VibesWaf

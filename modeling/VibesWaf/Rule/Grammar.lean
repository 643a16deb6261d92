import VibesWaf.Rule.Parser

/-!
# The grammar of rule expressions, and the parser against it

`Derives` is the grammar the parser is written for, as a relation between a token sequence and
its tree: an expression is an OR of terms, a term an AND of factors, a factor an optionally
negated comparison or parenthesised expression. Both chains are read to the left.

* **Soundness** (`parseExpression_sound`): what the parser consumes derives the tree it
  returns, and it stops at a token that continues neither chain.
* **Completeness** (`Derives.parseExpression_eq`): a derivable token sequence followed by
  anything but a connective is consumed exactly, and gives its tree.
* **Termination** (`parse_ne_exhausted`): the fuel `parse` passes is always enough.
-/

namespace VibesWaf

open OperatorChain

/-! ### The grammar -/

/-- The items of a value list, up to and including its closing bracket. A comma may stand
before the bracket, as the source's loop allows. -/
inductive ListItems : List Token → List GoString → Prop
  | close {r : Token} (hr : r.type = .rightBracket) : ListItems [r] []
  | last {t r : Token} {v : GoString} (ht : t.literal? = some v) (hr : r.type = .rightBracket) :
      ListItems [t, r] [v]
  | item {t sep : Token} {v : GoString} {ts : List Token} {vs : List GoString}
      (ht : t.literal? = some v) (hs : sep.type = .comma) (h : ListItems ts vs) :
      ListItems (t :: sep :: ts) (v :: vs)

/-- A comparison: a field, an operator and what the operator asks for. -/
inductive Comparison : List Token → Node → Prop
  | exist {f o : Token} (hf : f.type = .identifier) (ho : o.type = .operator)
      (hop : o.value = str "exists" ∨ o.value = str "not_exists") :
      Comparison [f, o] (.comparison f.value o.value .none)
  | list {f o l : Token} {ts : List Token} {vs : List GoString} (hf : f.type = .identifier)
      (ho : o.type = .operator) (hop : o.value = str "in" ∨ o.value = str "not_in")
      (hl : l.type = .leftBracket) (hts : ListItems ts vs) :
      Comparison (f :: o :: l :: ts) (.comparison f.value o.value (.list vs))
  | literal {f o t : Token} {v : GoString} (hf : f.type = .identifier) (ho : o.type = .operator)
      (hop : ¬ (o.value = str "exists" ∨ o.value = str "not_exists")) (ht : t.literal? = some v) :
      Comparison [f, o, t] (.comparison f.value o.value (.string v))

private theorem literal_type {t : Token} {v : GoString} (h : t.literal? = some v) :
    t.type = .string ∨ t.type = .number := by
  unfold Token.literal? at h
  split at h
  · assumption
  · cases h

private theorem ListItems.type_ne_eof {ts : List Token} {vs : List GoString}
    (h : ListItems ts vs) : ∀ t ∈ ts, t.type ≠ .eof := by
  induction h with
  | close hr => simp [hr]
  | last ht hr => rcases literal_type ht with h | h <;> simp [h, hr]
  | item ht hs _ ih => rcases literal_type ht with h | h <;> simpa [h, hs] using ih

private theorem Comparison.type_ne_eof {ts : List Token} {n : Node} (h : Comparison ts n) :
    ∀ t ∈ ts, t.type ≠ .eof := by
  cases h with
  | exist hf ho _ => simp [hf, ho]
  | list hf ho _ hl hts => simpa [hf, ho, hl] using hts.type_ne_eof
  | literal hf ho _ ht => rcases literal_type ht with h | h <;> simp [hf, ho, h]

/-- The levels of the grammar. -/
inductive Level
  | expression | term | factor

variable [GoLib]

/-- `Derives l ts n`: the tokens `ts` are one phrase of level `l`, with tree `n`. -/
inductive Derives : Level → List Token → Node → Prop
  | comparison {ts : List Token} {n : Node} (h : Comparison ts n) : Derives .factor ts n
  | not {t : Token} {ts : List Token} {n : Node} (ht : isLogical (str "NOT") t)
      (h : Derives .factor ts n) : Derives .factor (t :: ts) (.logical (str "NOT") n .nil)
  | paren {l r : Token} {ts : List Token} {n : Node} (hl : l.type = .leftParen)
      (h : Derives .expression ts n) (hr : r.type = .rightParen) :
      Derives .factor (l :: (ts ++ [r])) n
  | factor {ts : List Token} {n : Node} (h : Derives .factor ts n) : Derives .term ts n
  | and {ts us : List Token} {t : Token} {a b : Node} (ha : Derives .term ts a)
      (ht : isLogical (str "AND") t) (hb : Derives .factor us b) :
      Derives .term (ts ++ t :: us) (.logical (str "AND") a b)
  | term {ts : List Token} {n : Node} (h : Derives .term ts n) : Derives .expression ts n
  | or {ts us : List Token} {t : Token} {a b : Node} (ha : Derives .expression ts a)
      (ht : isLogical (str "OR") t) (hb : Derives .term us b) :
      Derives .expression (ts ++ t :: us) (.logical (str "OR") a b)

/-- The tree a phrase derives is made of tokens of the text: none of them is an end token. -/
theorem Derives.type_ne_eof {l : Level} {ts : List Token} {n : Node} (h : Derives l ts n) :
    ∀ t ∈ ts, t.type ≠ .eof := by
  induction h with
  | comparison h => exact h.type_ne_eof
  | not ht _ ih => exact List.forall_mem_cons.mpr ⟨by simp [ht.1], ih⟩
  | paren hl _ hr ih =>
    refine List.forall_mem_cons.mpr ⟨by simp [hl], List.forall_mem_append.mpr ⟨ih, ?_⟩⟩
    exact List.forall_mem_singleton.mpr (by simp [hr])
  | factor _ ih => exact ih
  | and _ ht _ iha ihb =>
    exact List.forall_mem_append.mpr ⟨iha, List.forall_mem_cons.mpr ⟨by simp [ht.1], ihb⟩⟩
  | term _ ih => exact ih
  | or _ ht _ iha ihb =>
    exact List.forall_mem_append.mpr ⟨iha, List.forall_mem_cons.mpr ⟨by simp [ht.1], ihb⟩⟩

/-! ### Soundness -/

section Condition

omit [GoLib]

/-- What the list loop consumes is a list of the grammar. -/
private theorem parseListItems_sound {ts : List Token} {vs : List GoString} {rest : List Token}
    (h : parseListItems ts = .ok (vs, rest)) : ∃ pre, ts = pre ++ rest ∧ ListItems pre vs := by
  fun_induction parseListItems ts generalizing vs with
  | case1 => cases h
  | case2 t ts ht =>
    obtain ⟨rfl, rfl⟩ : [] = vs ∧ ts = rest := by simpa using h
    exact ⟨[t], rfl, .close ht⟩
  | case3 => cases h
  | case4 => cases h
  | case5 => cases h
  | case6 => cases h
  | case7 t _ _ v hv sep ts' hsep values rest' heq ih =>
    obtain ⟨rfl, rfl⟩ : v :: values = vs ∧ rest' = rest := by simpa using h
    obtain ⟨pre, rfl, hpre⟩ := ih heq
    exact ⟨t :: sep :: pre, rfl, .item hv hsep hpre⟩
  | case8 t _ _ v hv sep ts' _ hsep =>
    obtain ⟨rfl, rfl⟩ : [v] = vs ∧ ts' = rest := by simpa using h
    exact ⟨[t, sep], rfl, .last hv hsep⟩
  | case9 => cases h

private theorem eq_cons_of_current {ts : List Token} {k : TokenType}
    (h : (current ts).type = k) (hk : k ≠ .eof) : ∃ t r, ts = t :: r ∧ t.type = k := by
  cases ts with
  | nil => exact absurd h.symm hk
  | cons t r => exact ⟨t, r, rfl, h⟩

private theorem parseValue_sound {f o : GoString} {ts rest : List Token} {n : Node}
    (h : parseValue f o ts = .ok (n, rest)) :
    ∃ t v, ts = t :: rest ∧ t.literal? = some v ∧ n = .comparison f o (.string v) := by
  cases ts with
  | nil => simp [parseValue, eofToken, Token.literal?] at h
  | cons t r =>
    cases ht : t.literal? with
    | none => simp [parseValue, ht] at h
    | some v =>
      obtain ⟨rfl, rfl⟩ : Node.comparison f o (.string v) = n ∧ r = rest := by
        simpa [parseValue, ht] using h
      exact ⟨t, v, rfl, ht, rfl⟩

private theorem parseCondition_cons {f : Token} (hf : f.type = .identifier) (ts : List Token) :
    parseCondition (f :: ts) = parseOperator f.value ts := by
  simp [parseCondition, hf]

private theorem parseOperator_exists {o : Token} (ho : o.type = .operator)
    (hop : o.value = str "exists" ∨ o.value = str "not_exists") (f : GoString)
    (ts : List Token) : parseOperator f (o :: ts) = .ok (.comparison f o.value .none, ts) := by
  simp [parseOperator, ho, hop]

private theorem parseOperator_list {o l : Token} (ho : o.type = .operator)
    (hop : o.value = str "in" ∨ o.value = str "not_in") (hl : l.type = .leftBracket)
    (f : GoString) (ts : List Token) :
    parseOperator f (o :: l :: ts) =
      match parseListItems ts with
      | .error e => .error e
      | .ok (values, rest) => .ok (.comparison f o.value (.list values), rest) := by
  have hne : ¬ (o.value = str "exists" ∨ o.value = str "not_exists") := by
    rcases hop with h | h <;> rw [h] <;> decide
  simp only [parseOperator, parseList, current_cons, advance_cons, ho, hop, hne, hl]
  cases parseListItems ts <;> simp

private theorem parseOperator_literal {o : Token} (ho : o.type = .operator)
    (hop : ¬ (o.value = str "exists" ∨ o.value = str "not_exists")) (f : GoString)
    {ts : List Token} (hts : ¬ ((o.value = str "in" ∨ o.value = str "not_in") ∧
      (current ts).type = .leftBracket)) :
    parseOperator f (o :: ts) = parseValue f o.value ts := by
  simp [parseOperator, ho, hop, hts]

/-- What `parseOperator` consumes is the rest of a comparison on its field. -/
private theorem parseOperator_sound {f : Token} {ts rest : List Token} {n : Node}
    (hf : f.type = .identifier) (h : parseOperator f.value ts = .ok (n, rest)) :
    ∃ pre, ts = pre ++ rest ∧ Comparison (f :: pre) n := by
  obtain ⟨o, ts, rfl, ho⟩ : ∃ o r, ts = o :: r ∧ o.type = .operator := by
    refine eq_cons_of_current (by_contra fun hne => ?_) (by decide)
    simp [parseOperator, hne] at h
  by_cases hop : o.value = str "exists" ∨ o.value = str "not_exists"
  · rw [parseOperator_exists ho hop] at h
    obtain ⟨rfl, rfl⟩ : Node.comparison f.value o.value .none = n ∧ ts = rest := by simpa using h
    exact ⟨[o], rfl, .exist hf ho hop⟩
  by_cases hin : (o.value = str "in" ∨ o.value = str "not_in") ∧ (current ts).type = .leftBracket
  · obtain ⟨l, ts, rfl, hl⟩ := eq_cons_of_current hin.2 (by decide)
    rw [parseOperator_list ho hin.1 hl] at h
    split at h
    · cases h
    · rename_i vs rest' hvs
      obtain ⟨rfl, rfl⟩ : Node.comparison f.value o.value (.list vs) = n ∧ rest' = rest := by
        simpa using h
      obtain ⟨pre, rfl, hpre⟩ := parseListItems_sound hvs
      exact ⟨o :: l :: pre, rfl, .list hf ho hin.1 hl hpre⟩
  · rw [parseOperator_literal ho hop _ hin] at h
    obtain ⟨t, v, rfl, ht, rfl⟩ := parseValue_sound h
    exact ⟨[o, t], rfl, .literal hf ho hop ht⟩

/-- What `parseCondition` consumes is a comparison of the grammar. -/
private theorem parseCondition_sound {ts rest : List Token} {n : Node}
    (h : parseCondition ts = .ok (n, rest)) : ∃ pre, ts = pre ++ rest ∧ Comparison pre n := by
  obtain ⟨f, ts, rfl, hf⟩ : ∃ f r, ts = f :: r ∧ f.type = .identifier := by
    refine eq_cons_of_current (by_contra fun hne => ?_) (by decide)
    simp [parseCondition, hne] at h
  rw [parseCondition_cons hf] at h
  obtain ⟨pre, rfl, hpre⟩ := parseOperator_sound hf h
  exact ⟨f :: pre, rfl, hpre⟩

end Condition

private theorem afterLogical_eq_some {kw : GoString} {ts rest : List Token}
    (h : afterLogical kw ts = some rest) : ∃ t, ts = t :: rest ∧ isLogical kw t := by
  rw [afterLogical] at h
  split at h
  · rename_i hc
    cases ts with
    | nil => exact absurd hc.1 (by decide)
    | cons t ts =>
      obtain rfl : ts = rest := by simpa [advance] using h
      exact ⟨t, rfl, hc⟩
  · cases h

private theorem afterLogical_cons {kw : GoString} {t : Token} (ht : isLogical kw t)
    (ts : List Token) : afterLogical kw (t :: ts) = some ts := by
  simp [afterLogical, ht]

private theorem afterLogical_eq_none {kw : GoString} {ts : List Token} :
    afterLogical kw ts = none ↔ ¬ isLogical kw (current ts) := by
  simp [afterLogical]

/-- A parser of factors that consumes phrases of the grammar. -/
private def FactorSound (factor : List Token → Parsed Node) : Prop :=
  ∀ {ts rest : List Token} {n : Node}, factor ts = .ok (n, rest) →
    ∃ pre, ts = pre ++ rest ∧ Derives .factor pre n

private theorem parseTermWith_sound {factor : List Token → Parsed Node}
    (hfactor : FactorSound factor) {fuel : ℕ} {ts rest : List Token} {n : Node}
    (h : parseTermWith factor fuel ts = .ok (n, rest)) :
    (∃ pre, ts = pre ++ rest ∧ Derives .term pre n) ∧ ¬ isLogical (str "AND") (current rest) := by
  rw [← afterLogical_eq_none]
  refine chain_sound (Q := fun a s => ∃ pre, ts = pre ++ s ∧ Derives .term pre a) ?_ ?_ h
  · intro left s' ho
    obtain ⟨pre, rfl, hpre⟩ := hfactor ho
    exact ⟨pre, rfl, .factor hpre⟩
  · rintro left right s s' s'' ⟨pre, rfl, hpre⟩ hs ho
    obtain ⟨t, rfl, ht⟩ := afterLogical_eq_some hs
    obtain ⟨us, rfl, hus⟩ := hfactor ho
    exact ⟨pre ++ t :: us, by simp, .and hpre ht hus⟩

private theorem parseExpressionWith_sound {factor : List Token → Parsed Node}
    (hfactor : FactorSound factor) {fuel : ℕ} {ts rest : List Token} {n : Node}
    (h : parseExpressionWith factor fuel ts = .ok (n, rest)) :
    (∃ pre, ts = pre ++ rest ∧ Derives .expression pre n) ∧
      ¬ isLogical (str "AND") (current rest) ∧ ¬ isLogical (str "OR") (current rest) := by
  have key := chain_sound (Q := fun a s => (∃ pre, ts = pre ++ s ∧ Derives .expression pre a) ∧
    ¬ isLogical (str "AND") (current s)) ?_ ?_ h
  · exact ⟨key.1.1, key.1.2, afterLogical_eq_none.mp key.2⟩
  · intro left s' ho
    obtain ⟨⟨pre, rfl, hpre⟩, hand⟩ := parseTermWith_sound hfactor ho
    exact ⟨⟨pre, rfl, .term hpre⟩, hand⟩
  · rintro left right s s' s'' ⟨⟨pre, rfl, hpre⟩, -⟩ hs ho
    obtain ⟨t, rfl, ht⟩ := afterLogical_eq_some hs
    obtain ⟨⟨us, rfl, hus⟩, hand⟩ := parseTermWith_sound hfactor ho
    exact ⟨⟨pre ++ t :: us, by simp, .or hpre ht hus⟩, hand⟩

/-- What `parseFactor` consumes is a factor of the grammar, with any fuel. -/
private theorem parseFactor_sound (fuel : ℕ) : FactorSound (parseFactor fuel) := by
  induction fuel with
  | zero => intro ts rest n h; cases h
  | succ fuel ih =>
    intro ts rest n h
    rw [parseFactor] at h
    split at h
    · rename_i hnot
      obtain ⟨t, ts, rfl, -⟩ := eq_cons_of_current hnot.1 (by decide)
      split at h
      · cases h
      · rename_i node rest' heq
        obtain ⟨rfl, rfl⟩ : Node.logical (str "NOT") node .nil = n ∧ rest' = rest := by
          simpa using h
        obtain ⟨pre, hts, hpre⟩ := ih heq
        obtain rfl : ts = pre ++ rest' := hts
        exact ⟨t :: pre, rfl, .not hnot hpre⟩
    split at h
    · rename_i hl
      obtain ⟨l, ts, rfl, hl⟩ := eq_cons_of_current hl (by decide)
      split at h
      · cases h
      rename_i node rest' heq
      split at h
      · cases h
      rename_i hne
      obtain ⟨r, ts', rfl, hr⟩ := eq_cons_of_current (not_not.mp hne) (by decide)
      obtain ⟨rfl, rfl⟩ : node = n ∧ ts' = rest := by simpa using h
      obtain ⟨⟨pre, hts, hpre⟩, -⟩ := parseExpressionWith_sound ih heq
      obtain rfl : ts = pre ++ r :: ts' := hts
      exact ⟨l :: (pre ++ [r]), by simp, .paren hl hpre hr⟩
    · obtain ⟨pre, rfl, hpre⟩ := parseCondition_sound h
      exact ⟨pre, rfl, .comparison hpre⟩

/-- **Soundness.** What `parseExpression` consumes derives the tree it returns, and the token it
stops at is neither connective. -/
theorem parseExpression_sound {fuel : ℕ} {ts rest : List Token} {n : Node}
    (h : parseExpression fuel ts = .ok (n, rest)) :
    (∃ pre, ts = pre ++ rest ∧ Derives .expression pre n) ∧
      ¬ isLogical (str "AND") (current rest) ∧ ¬ isLogical (str "OR") (current rest) :=
  parseExpressionWith_sound (parseFactor_sound fuel) h

/-! ### Completeness -/

section Condition

omit [GoLib]

private theorem parseListItems_complete {ts : List Token} {vs : List GoString}
    (h : ListItems ts vs) (rest : List Token) :
    parseListItems (ts ++ rest) = .ok (vs, rest) := by
  induction h with
  | close hr => simp [parseListItems, hr]
  | last ht hr => rcases literal_type ht with h | h <;> simp [parseListItems, h, ht, hr]
  | item ht hs _ ih => rcases literal_type ht with h | h <;> simp [parseListItems, h, ht, hs, ih]

/-- A comparison of the grammar is consumed exactly, whatever follows it. -/
private theorem parseCondition_complete {ts : List Token} {n : Node} (h : Comparison ts n)
    (rest : List Token) : parseCondition (ts ++ rest) = .ok (n, rest) := by
  cases h with
  | exist hf ho hop =>
    simp only [List.cons_append, List.nil_append]
    rw [parseCondition_cons hf, parseOperator_exists ho hop]
  | list hf ho hop hl hts =>
    simp only [List.cons_append]
    rw [parseCondition_cons hf, parseOperator_list ho hop hl, parseListItems_complete hts]
  | @literal f o t v hf ho hop ht =>
    simp only [List.cons_append, List.nil_append]
    have hne : (current (t :: rest)).type ≠ .leftBracket := by
      rcases literal_type ht with h | h <;> simp [h]
    rw [parseCondition_cons hf, parseOperator_literal ho hop _ fun h => hne h.2]
    simp [parseValue, ht]

/-- A comparison starts with a field. -/
private theorem Comparison.current_type {ts : List Token} {n : Node} (h : Comparison ts n)
    (rest : List Token) : (current (ts ++ rest)).type = .identifier ∧ 0 < ts.length := by
  cases h with
  | exist hf _ _ => exact ⟨hf, by simp⟩
  | list hf _ _ _ _ => exact ⟨hf, by simp⟩
  | literal hf _ _ _ => exact ⟨hf, by simp⟩

end Condition

private theorem not_isLogical_of_type {kw : GoString} {t : Token} (h : t.type ≠ .logical) :
    ¬ isLogical kw t :=
  fun hl => h hl.1

private theorem not_and_of_or {t : Token} (h : isLogical (str "OR") t) :
    ¬ isLogical (str "AND") t := by
  rintro ⟨-, h'⟩
  rw [h.2] at h'
  exact absurd h' (by decide)

/-- What it means for the parser to read a phrase back. A factor is read whatever follows; a
chain uses up at most one turn of fuel per token and goes on as its loop. -/
private def Reads : Level → List Token → Node → Prop
  | .factor, ts, n => ∀ (fuel : ℕ) (rest : List Token), ts.length ≤ fuel →
      parseFactor fuel (ts ++ rest) = .ok (n, rest)
  | .term, ts, n => ∀ fuel : ℕ, ts.length ≤ fuel → ∃ k ≤ ts.length, ∀ (m : ℕ) (rest : List Token),
      parseTermWith (parseFactor fuel) (m + k) (ts ++ rest) =
        chainLoop (afterLogical (str "AND")) (.logical (str "AND")) (parseFactor fuel)
          .exhausted m n rest
  | .expression, ts, n => ∀ fuel : ℕ, ts.length ≤ fuel → ∃ k ≤ ts.length,
      ∀ (m : ℕ) (rest : List Token), ¬ isLogical (str "AND") (current rest) →
        chain (afterLogical (str "OR")) (.logical (str "OR"))
            (parseTermWith (parseFactor fuel) fuel) .exhausted (m + k) (ts ++ rest) =
          chainLoop (afterLogical (str "OR")) (.logical (str "OR"))
            (parseTermWith (parseFactor fuel) fuel) .exhausted m n rest

private theorem Reads.term_eq {ts : List Token} {n : Node} (h : Reads .term ts n) {fuel : ℕ}
    (hfuel : ts.length ≤ fuel) {rest : List Token}
    (hrest : ¬ isLogical (str "AND") (current rest)) :
    parseTermWith (parseFactor fuel) fuel (ts ++ rest) = .ok (n, rest) := by
  obtain ⟨k, hk, hread⟩ := h fuel hfuel
  have := hread (fuel - k) rest
  rw [Nat.sub_add_cancel (hk.trans hfuel)] at this
  rw [this, chainLoop_stop (afterLogical_eq_none.mpr hrest)]

private theorem Reads.expression_eq {ts : List Token} {n : Node} (h : Reads .expression ts n)
    {fuel : ℕ} (hfuel : ts.length ≤ fuel) {rest : List Token}
    (hand : ¬ isLogical (str "AND") (current rest)) (hor : ¬ isLogical (str "OR") (current rest)) :
    parseExpressionWith (parseFactor fuel) fuel (ts ++ rest) = .ok (n, rest) := by
  obtain ⟨k, hk, hread⟩ := h fuel hfuel
  have := hread (fuel - k) rest hand
  rw [Nat.sub_add_cancel (hk.trans hfuel)] at this
  rw [parseExpressionWith, this, chainLoop_stop (afterLogical_eq_none.mpr hor)]

/-- Every phrase of the grammar is read back, by induction on its derivation. -/
private theorem Derives.reads {l : Level} {ts : List Token} {n : Node} (h : Derives l ts n) :
    Reads l ts n := by
  induction h with
  | comparison h =>
    intro fuel rest hfuel
    obtain ⟨hid, hpos⟩ := h.current_type rest
    obtain ⟨fuel, rfl⟩ : ∃ k, fuel = k + 1 := ⟨fuel - 1, by omega⟩
    rw [parseFactor, if_neg (not_isLogical_of_type (by simp [hid])), if_neg (by simp [hid]),
      parseCondition_complete h]
  | not ht _ ih =>
    intro fuel rest hfuel
    obtain ⟨fuel, rfl⟩ : ∃ k, fuel = k + 1 := ⟨fuel - 1, by simp at hfuel; omega⟩
    have := ih fuel rest (by simpa using hfuel)
    simp [parseFactor, ht, this]
  | @paren l r ts n hl _ hr ih =>
    intro fuel rest hfuel
    obtain ⟨fuel, rfl⟩ : ∃ k, fuel = k + 1 := ⟨fuel - 1, by simp at hfuel; omega⟩
    have hnot : ∀ {kw : GoString}, ¬ isLogical kw r := not_isLogical_of_type (by simp [hr])
    have hread : parseExpressionWith (parseFactor fuel) fuel (ts ++ r :: rest)
        = .ok (n, r :: rest) :=
      ih.expression_eq (by simp at hfuel; omega) hnot hnot
    have hnl : ¬ isLogical (str "NOT") l := not_isLogical_of_type (by simp [hl])
    simp [parseFactor, hnl, hl, hread, hr]
  -- a chain of one: nothing is combined yet
  | factor _ ih =>
    intro fuel hfuel
    refine ⟨0, Nat.zero_le _, fun m rest => ?_⟩
    exact chain_eq_loop (ih fuel rest hfuel) m
  -- one more turn of the loop than the chain before the connective takes
  | @and ts us t a b _ ht _ iha ihb =>
    intro fuel hfuel
    simp only [List.length_append, List.length_cons] at hfuel ⊢
    obtain ⟨k, hk, hread⟩ := iha fuel (by omega)
    refine ⟨k + 1, by omega, fun m rest => ?_⟩
    rw [List.append_assoc, List.cons_append, show m + (k + 1) = m + 1 + k by omega, hread]
    exact chainLoop_step (afterLogical_cons ht _) (ihb fuel rest (by omega)) m a
  | term _ ih =>
    intro fuel hfuel
    refine ⟨0, Nat.zero_le _, fun m rest hand => ?_⟩
    exact chain_eq_loop (ih.term_eq hfuel hand) m
  | @or ts us t a b _ ht _ iha ihb =>
    intro fuel hfuel
    simp only [List.length_append, List.length_cons] at hfuel ⊢
    obtain ⟨k, hk, hread⟩ := iha fuel (by omega)
    refine ⟨k + 1, by omega, fun m rest hand => ?_⟩
    have hand' : ¬ isLogical (str "AND") (current (t :: (us ++ rest))) := not_and_of_or ht
    rw [List.append_assoc, List.cons_append, show m + (k + 1) = m + 1 + k by omega,
      hread _ _ hand']
    exact chainLoop_step (afterLogical_cons ht _) (ihb.term_eq (by omega) hand) m a

/-- **Completeness.** A derivable token sequence that is not followed by a connective is consumed
exactly, and the tree is the derivation's. -/
theorem Derives.parseExpression_eq {ts : List Token} {n : Node} (h : Derives .expression ts n)
    {fuel : ℕ} (hfuel : ts.length ≤ fuel) {rest : List Token}
    (hand : ¬ isLogical (str "AND") (current rest)) (hor : ¬ isLogical (str "OR") (current rest)) :
    parseExpression fuel (ts ++ rest) = .ok (n, rest) :=
  h.reads.expression_eq hfuel hand hor

/-- A derivable token sequence that is not followed by a connective is what `parse` reads. -/
theorem Derives.parse_eq {ts : List Token} {n : Node} (h : Derives .expression ts n)
    {rest : List Token} (hand : ¬ isLogical (str "AND") (current rest))
    (hor : ¬ isLogical (str "OR") (current rest)) : parse (ts ++ rest) = .ok n := by
  have hfuel : ts.length ≤ (ts ++ rest).length + 1 := by
    rw [List.length_append]
    omega
  rw [parse, h.parseExpression_eq hfuel hand hor]

/-- Neither is the end of the text a connective. -/
theorem Derives.parse_append_eof {ts : List Token} {n : Node} (h : Derives .expression ts n) :
    parse (ts ++ [eofToken]) = .ok n :=
  h.parse_eq (fun hlog => absurd hlog.1 (by decide)) fun hlog => absurd hlog.1 (by decide)

/-! ### Termination -/

section Condition

omit [GoLib]

private theorem parseListItems_ne_exhausted (ts : List Token) :
    parseListItems ts ≠ .error .exhausted := by
  fun_induction parseListItems ts <;> simp_all

private theorem parseCondition_ne_exhausted (ts : List Token) :
    parseCondition ts ≠ .error .exhausted := by
  have hlist : ∀ us, parseList us ≠ .error .exhausted := fun us => by
    rw [parseList]
    split
    · simp
    · exact parseListItems_ne_exhausted _
  rw [parseCondition]
  split
  · simp
  generalize (current ts).value = field
  generalize advance ts = us
  rw [parseOperator]
  split
  · simp
  dsimp only
  split
  · simp
  split
  · have := hlist (advance us)
    cases h : parseList (advance us) <;> simp_all
  · rw [parseValue]
    split <;> simp

end Condition

private theorem parsed_length_le {l : Level} {ts rest : List Token} {n : Node}
    (h : ∃ pre, ts = pre ++ rest ∧ Derives l pre n) : rest.length ≤ ts.length := by
  obtain ⟨pre, rfl, -⟩ := h
  simp

private theorem afterLogical_length_lt {kw : GoString} {ts rest : List Token}
    (h : afterLogical kw ts = some rest) : rest.length < ts.length := by
  obtain ⟨t, rfl, -⟩ := afterLogical_eq_some h
  simp

/-- Fuel above the number of tokens is enough for a factor. -/
private theorem parseFactor_ne_exhausted (fuel : ℕ) :
    ∀ ts : List Token, ts.length < fuel → parseFactor fuel ts ≠ .error .exhausted := by
  induction fuel with
  | zero => intro ts h; omega
  | succ fuel ih =>
    intro ts hts
    have hadv : ∀ {k : TokenType}, (current ts).type = k → k ≠ .eof →
        (advance ts).length < fuel := fun h hk => by
      obtain ⟨t, r, rfl, -⟩ := eq_cons_of_current h hk
      simpa using hts
    rw [parseFactor]
    split
    · rename_i hnot
      have := ih _ (hadv hnot.1 (by decide))
      cases h : parseFactor fuel (advance ts) <;> simp_all
    split
    · rename_i hl
      have hlen := hadv hl (by decide)
      have hterm : ∀ {s : List Token}, s.length ≤ (advance ts).length →
          parseTermWith (parseFactor fuel) fuel s ≠ .error .exhausted := fun hs =>
        chain_fuel List.length afterLogical_length_lt
          (fun h => parsed_length_le (parseFactor_sound fuel h))
          (fun hs' => ih _ (hs'.trans_lt hlen)) (by omega) hs
      have hexp : parseExpressionWith (parseFactor fuel) fuel (advance ts)
          ≠ .error .exhausted :=
        chain_fuel List.length afterLogical_length_lt
          (fun h => parsed_length_le (parseTermWith_sound (parseFactor_sound fuel) h).1)
          hterm hlen.le le_rfl
      cases h : parseExpressionWith (parseFactor fuel) fuel (advance ts) with
      | error e => simpa [h] using hexp
      | ok p => dsimp only; split <;> simp
    · exact parseCondition_ne_exhausted ts

/-- **Termination.** The fuel `parse` passes is enough for every token sequence. -/
theorem parse_ne_exhausted (ts : List Token) : parse ts ≠ .error .exhausted := by
  have hfactor : ∀ {s : List Token}, s.length ≤ ts.length →
      parseFactor (ts.length + 1) s ≠ .error .exhausted := fun hs =>
    parseFactor_ne_exhausted _ _ (by omega)
  have hterm : ∀ {s : List Token}, s.length ≤ ts.length →
      parseTermWith (parseFactor (ts.length + 1)) (ts.length + 1) s ≠ .error .exhausted :=
    fun hs => chain_fuel List.length afterLogical_length_lt
      (fun h => parsed_length_le (parseFactor_sound _ h)) hfactor (by omega) hs
  have hexp : parseExpression (ts.length + 1) ts ≠ .error .exhausted :=
    chain_fuel List.length afterLogical_length_lt
      (fun h => parsed_length_le (parseTermWith_sound (parseFactor_sound _) h).1) hterm
      (by omega) le_rfl
  rw [parse]
  cases h : parseExpression (ts.length + 1) ts <;> simp_all

end VibesWaf

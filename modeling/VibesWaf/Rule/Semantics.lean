import VibesWaf.Rule.Engine

/-!
# The truth value of an accepted rule

The evaluator can fail: an unknown operator, an invalid pattern, an absent child. On a tree that
the parser built and the validator accepted it never does (`compileExpression_evaluate`), and its
result is `holds`: the comparisons of the tree combined as the connectives say.
-/

namespace VibesWaf

section Semantics

variable [GoLib]

/-- The truth value of a tree, with a comparison that cannot be evaluated read as false. -/
def holds (ctx : RequestContext) : Node → Bool
  | .nil => false
  | .comparison field operator value =>
    ((evaluateComparison field operator value ctx).toOption).getD false
  | .logical operator left right =>
    if toUpper operator = str "AND" then holds ctx left && holds ctx right
    else if toUpper operator = str "OR" then holds ctx left || holds ctx right
    else !holds ctx left

theorem toUpper_and : toUpper (str "AND") = str "AND" := rfl

theorem toUpper_or : toUpper (str "OR") = str "OR" := rfl

theorem toUpper_not : toUpper (str "NOT") = str "NOT" := rfl

theorem holds_and (ctx : RequestContext) (a b : Node) :
    holds ctx (.logical (str "AND") a b) = (holds ctx a && holds ctx b) := by
  rw [holds, toUpper_and, if_pos rfl]

theorem holds_or (ctx : RequestContext) (a b : Node) :
    holds ctx (.logical (str "OR") a b) = (holds ctx a || holds ctx b) := by
  rw [holds, toUpper_or, if_neg (by decide), if_pos rfl]

theorem holds_not (ctx : RequestContext) (a b : Node) :
    holds ctx (.logical (str "NOT") a b) = !holds ctx a := by
  rw [holds, toUpper_not, if_neg (by decide), if_neg (by decide)]

/-- A pattern that the validator accepts compiles. -/
private theorem regexpCompile_of_valid {pattern : GoString}
    (h : validateRegex pattern = .ok ()) : ∃ re, GoLib.regexpCompile pattern = .ok re := by
  cases hre : GoLib.regexpCompile pattern with
  | ok re => exact ⟨re, rfl⟩
  | error e =>
    rw [validateRegex, hre] at h
    split_ifs at h

private theorem evalRegex_of_valid {pattern : Value}
    (h : validateRegex pattern.toString = .ok ()) (v : FieldValue) :
    ∃ b, evalRegex v pattern = .ok b := by
  obtain ⟨re, hre⟩ := regexpCompile_of_valid h
  exact ⟨re v.toString, by rw [evalRegex, hre]⟩

/-- A validated comparison is evaluated without error. -/
theorem evaluateComparison_of_valid {field operator : GoString} {value : Value}
    (h : validateComparison field operator value = .ok ()) (ctx : RequestContext) :
    ∃ b, evaluateComparison field operator value ctx = .ok b := by
  rw [validateComparison] at h
  split at h
  · cases h
  split at h
  · cases h
  rename_i hop
  rw [not_not] at hop
  have hregex : operator = str "regex" ∨ operator = str "not_regex" →
      ∃ b, evalRegex (extractField field ctx) value = .ok b := fun hre => by
    rw [if_pos hre] at h
    exact evalRegex_of_valid h _
  -- every operator but the two on patterns is a branch that cannot fail
  by_cases hre : operator = str "regex"
  · obtain ⟨b, hb⟩ := hregex (.inl hre)
    subst hre
    exact ⟨b, hb⟩
  by_cases hnre : operator = str "not_regex"
  · obtain ⟨b, hb⟩ := hregex (.inr hnre)
    subst hnre
    refine ⟨!b, ?_⟩
    change (evalRegex (extractField field ctx) value).map (!·) = _
    rw [hb]
    rfl
  simp only [operators, List.mem_cons, List.not_mem_nil, or_false, hre, hnre, false_or] at hop
  rcases hop with rfl | rfl | rfl | rfl | rfl | rfl | rfl | rfl | rfl | rfl | rfl | rfl | rfl | rfl
  all_goals exact ⟨_, rfl⟩

theorem validateChild_logical {operator : GoString} {left right : Node}
    (h : validateChild (.logical operator left right) = .ok ()) :
    validateChild left = .ok () ∧ validateChild right = .ok () := by
  rw [validateChild] at h
  split at h
  · cases h
  · rename_i hl
    exact ⟨hl, h⟩

omit [GoLib] in
/-- A comparison of the grammar is a comparison node. -/
theorem Comparison.eq_comparison {ts : List Token} {n : Node} (h : Comparison ts n) :
    ∃ f o v, n = .comparison f o v := by
  cases h <;> exact ⟨_, _, _, rfl⟩

/-- A derived tree whose comparisons are validated evaluates to its truth value. -/
private theorem Derives.evaluate_eq {l : Level} {ts : List Token} {n : Node}
    (h : Derives l ts n) (hv : validateChild n = .ok ()) (ctx : RequestContext) :
    evaluate n ctx = .ok (holds ctx n) := by
  induction h with
  | comparison h =>
    obtain ⟨f, o, v, rfl⟩ := h.eq_comparison
    obtain ⟨b, hb⟩ := evaluateComparison_of_valid hv ctx
    rw [evaluate, holds, hb]
    rfl
  | @not t ts n _ _ ih =>
    rw [evaluate, toUpper_not, if_neg (by decide), if_neg (by decide), if_pos rfl,
      ih (validateChild_logical hv).1, holds_not]
  | paren _ _ _ ih => exact ih hv
  | factor _ ih => exact ih hv
  | @and ts us t a b _ _ _ iha ihb =>
    obtain ⟨hva, hvb⟩ := validateChild_logical hv
    rw [evaluate, toUpper_and, if_pos rfl, iha hva, ihb hvb, holds_and]
    cases holds ctx a <;> rfl
  | term _ ih => exact ih hv
  | @or ts us t a b _ _ _ iha ihb =>
    obtain ⟨hva, hvb⟩ := validateChild_logical hv
    rw [evaluate, toUpper_or, if_neg (by decide), if_pos rfl, iha hva, ihb hvb, holds_or]
    cases holds ctx a <;> rfl

theorem validate_eq_ok {n : Node} (h : validate n = .ok ()) :
    n ≠ .nil ∧ validateChild n = .ok () := by
  rw [validate] at h
  split at h
  · cases h
  · rename_i hne
    exact ⟨hne, h⟩

/-- **Accepted rules evaluate.** The tree of an accepted text evaluates on every request, to its
truth value. -/
theorem compileExpression_evaluate {s : GoString} {n : Node} (h : compileExpression s = .ok n)
    (ctx : RequestContext) : evaluate n ctx = .ok (holds ctx n) := by
  obtain ⟨tokens, -, hparse, hv⟩ := compileExpression_eq_ok h
  obtain ⟨ts, us, -, hd, -, -⟩ := parse_eq_ok hparse
  exact hd.evaluate_eq (validate_eq_ok hv).2 ctx

end Semantics

end VibesWaf

import VibesWaf.Lib.Memo
import VibesWaf.Rule.Evaluator

/-!
# The pattern cache of the evaluator

All requests evaluate rules with one `Evaluator`, which keeps the patterns it has compiled by their
text. A comparison with a pattern looks it up under the read lock and, when it was not there,
compiles it and stores it under the write lock; other requests come between the two.

The definitions here follow the accesses to the cache, over the memo table of `Lib/Memo`.
`computes_evaluateCached` says that the evaluation comes to what `evaluate` says without a cache,
and `within_evaluateCached` how many accesses it takes.
-/

namespace VibesWaf

open Memoized
open Program (within_pure)

/-- An evaluation with the pattern cache. -/
abbrev WithPatterns (α : Type) : Type :=
  Memoized GoString (GoString → Bool) α

/-- The comparison has a pattern. -/
def isRegex (operator : GoString) : Bool :=
  operator = str "regex" || operator = str "not_regex"

/-- The patterns of a tree. -/
def Node.patterns : Node → List GoString
  | .nil => []
  | .comparison _ operator value => if isRegex operator then [value.toString] else []
  | .logical _ left right => left.patterns ++ right.patterns

section Evaluate

variable [GoLib]

/-- `evalRegex`. -/
def evalRegexCached (fieldValue : FieldValue) (ruleValue : Value) :
    WithPatterns (Except RuleError Bool) := do
  match ← memoize GoLib.regexpCompile ruleValue.toString with
  | .error e => pure (.error (.invalidRegex e))
  | .ok re => pure (.ok (re fieldValue.toString))

/-- `evaluateComparison`; only the two operators with a pattern use the cache. -/
def evaluateComparisonCached (field operator : GoString) (value : Value) (ctx : RequestContext) :
    WithPatterns (Except RuleError Bool) :=
  if operator = str "regex" then evalRegexCached (extractField field ctx) value
  else if operator = str "not_regex" then do
    match ← evalRegexCached (extractField field ctx) value with
    | .error e => pure (.error e)
    | .ok result => pure (.ok !result)
  else pure (evaluateComparison field operator value ctx)

/-- `Evaluator.Evaluate`. -/
def evaluateCached : Node → RequestContext → WithPatterns (Except RuleError Bool)
  | .nil, _ => pure (.error .nodeIsNil)
  | .comparison field operator value, ctx => evaluateComparisonCached field operator value ctx
  | .logical operator left right, ctx =>
    if toUpper operator = str "AND" then do
      match ← evaluateCached left ctx with
      | .error e => pure (.error e)
      | .ok false => pure (.ok false)
      | .ok true => evaluateCached right ctx
    else if toUpper operator = str "OR" then do
      match ← evaluateCached left ctx with
      | .error e => pure (.error e)
      | .ok true => pure (.ok true)
      | .ok false => evaluateCached right ctx
    else if toUpper operator = str "NOT" then do
      match ← evaluateCached left ctx with
      | .error e => pure (.error e)
      | .ok result => pure (.ok !result)
    else pure (.error (.unknownLogicalOperator operator))

/-! ### The result -/

variable {keys : Set GoString} {ctx : RequestContext}

theorem computes_evalRegexCached (fieldValue : FieldValue) {ruleValue : Value}
    (hkey : ruleValue.toString ∈ keys) :
    Computes GoLib.regexpCompile keys (evalRegexCached fieldValue ruleValue)
      (evalRegex fieldValue ruleValue) := by
  refine (computes_memoize GoLib.regexpCompile hkey).bind ?_
  rw [evalRegex]
  cases GoLib.regexpCompile ruleValue.toString with
  | error e => exact computes_pure _
  | ok re => exact computes_pure _

theorem computes_evaluateComparisonCached {field operator : GoString} {value : Value}
    (hkeys : ∀ key ∈ (Node.comparison field operator value).patterns, key ∈ keys) :
    Computes GoLib.regexpCompile keys (evaluateComparisonCached field operator value ctx)
      (evaluateComparison field operator value ctx) := by
  have hkey (hregex : isRegex operator = true) : value.toString ∈ keys := by
    refine hkeys _ ?_
    rw [Node.patterns, if_pos hregex]
    exact List.mem_singleton_self _
  rw [evaluateComparisonCached]
  split_ifs with hregex hnot
  · subst hregex
    exact computes_evalRegexCached _ (hkey rfl)
  · subst hnot
    refine (computes_evalRegexCached _ (hkey rfl)).bind ?_
    have heq : evaluateComparison field (str "not_regex") value ctx =
        (evalRegex (extractField field ctx) value).map (!·) := rfl
    rw [heq]
    cases evalRegex (extractField field ctx) value with
    | error e => exact computes_pure _
    | ok result => exact computes_pure _
  · exact computes_pure _

/-- **An evaluation with the cache** comes to what an evaluation without one does, and compiles
patterns of its tree alone. -/
theorem computes_evaluateCached {n : Node} (hkeys : ∀ key ∈ n.patterns, key ∈ keys) :
    Computes GoLib.regexpCompile keys (evaluateCached n ctx) (evaluate n ctx) := by
  induction n with
  | nil => exact computes_pure _
  | comparison field operator value => exact computes_evaluateComparisonCached hkeys
  | logical operator left right ihleft ihright =>
    have hleft := ihleft fun key hkey => hkeys key (List.mem_append_left _ hkey)
    have hright := ihright fun key hkey => hkeys key (List.mem_append_right _ hkey)
    rw [evaluateCached, evaluate]
    split_ifs
    · refine hleft.bind ?_
      rcases evaluate left ctx with e | _ | _
      · exact computes_pure _
      · exact computes_pure _
      · exact hright
    · refine hleft.bind ?_
      rcases evaluate left ctx with e | _ | _
      · exact computes_pure _
      · exact hright
      · exact computes_pure _
    · refine hleft.bind ?_
      rcases evaluate left ctx with e | result
      · exact computes_pure _
      · exact computes_pure _
    · exact computes_pure _

/-! ### The accesses -/

theorem within_evalRegexCached (fieldValue : FieldValue) (ruleValue : Value) :
    (evalRegexCached fieldValue ruleValue).Within 2 := by
  refine (within_memoize GoLib.regexpCompile ruleValue.toString).bind (n := 0) fun compiled => ?_
  cases compiled with
  | error e => exact within_pure 0 _
  | ok re => exact within_pure 0 _

/-- **An evaluation** takes two accesses for each pattern at most. -/
theorem within_evaluateCached (n : Node) (ctx : RequestContext) :
    (evaluateCached n ctx).Within (2 * n.patterns.length) := by
  induction n with
  | nil => exact within_pure _ _
  | comparison field operator value =>
    rw [evaluateCached, evaluateComparisonCached]
    split_ifs with hregex hnot
    · subst hregex
      exact within_evalRegexCached _ value
    · subst hnot
      refine (within_evalRegexCached _ value).bind (n := 0) fun result => ?_
      cases result with
      | error e => exact within_pure 0 _
      | ok result => exact within_pure 0 _
    · exact within_pure _ _
  | logical operator left right ihleft ihright =>
    rw [evaluateCached, Node.patterns, List.length_append, Nat.mul_add]
    split_ifs
    · refine ihleft.bind fun result => ?_
      rcases result with e | _ | _
      · exact within_pure _ _
      · exact within_pure _ _
      · exact ihright
    · refine ihleft.bind fun result => ?_
      rcases result with e | _ | _
      · exact within_pure _ _
      · exact ihright
      · exact within_pure _ _
    · refine ihleft.bind fun result => ?_
      rcases result with e | result
      · exact within_pure _ _
      · exact within_pure _ _
    · exact within_pure _ _

end Evaluate

end VibesWaf

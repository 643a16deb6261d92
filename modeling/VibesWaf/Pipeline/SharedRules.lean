import VibesWaf.Pipeline.Phase1
import VibesWaf.Rule.RegexCache

/-!
# Requests that share the evaluator

The rules handlers of all requests run side by side with the evaluator of one rule service, and
each looks up and stores patterns in its cache while others do. The handler is given again here with
its accesses to the cache, and `shared_rulesEngine` says that what the other requests do shows in no
request: each comes to what `rulesEngineHandler` says.
-/

namespace VibesWaf

open Memoized
open Program (within_pure)

variable [GoLib]

/-! ### The handler with the cache -/

/-- `EvaluateRule`. -/
def evaluateRuleCached (r : CompiledRule) (ctx : RequestContext) :
    WithPatterns (Except RuleError Bool) :=
  if r.ast = .nil then pure (.ok false) else evaluateCached r.ast ctx

/-- The rule is enabled and matches, with no error. -/
def CompiledRule.matchedCached (r : CompiledRule) (ctx : RequestContext) : WithPatterns Bool :=
  if r.enabled then do
    match ← evaluateRuleCached r ctx with
    | .ok b => pure b
    | .error _ => pure false
  else pure false

/-- The loop of `RulesEngineHandler.Handle`. -/
def rulesLoopCached (svc : HardRuleServices) : List CompiledRule → Context → WithPatterns Context
  | [], ctx => pure ctx
  | r :: rules, ctx => do
    if ← r.matchedCached ctx.ruleContext then
      match r.action with
      | .allow | .block | .challenge =>
        pure (ctx.decideHard r.decision (cacheSet svc ctx r.action (str "custom_rule") r.reason))
      | .skip =>
        rulesLoopCached svc rules ((ctx.addDecision (newSkipDecision (str "custom_rule")
          r.skipModules)).addSkipModules r.skipModules)
      | _ => rulesLoopCached svc rules ctx
    else rulesLoopCached svc rules ctx

/-- The loop of `evaluateChallengePassed`. -/
def passedLoopCached : List CompiledRule → Context → WithPatterns Context
  | [], ctx => pure ctx
  | r :: rules, ctx => do
    if (← r.matchedCached ctx.ruleContext) && r.action = .skip then
      passedLoopCached rules ((ctx.addDecision (newSkipDecision (str "custom_rule")
        r.skipModules)).addSkipModules r.skipModules)
    else passedLoopCached rules ctx

/-- `RulesEngineHandler.Handle`. -/
def rulesEngineCached (svc : HardRuleServices) (ctx : Context) : WithPatterns Context :=
  if ctx.ipRuleTerminal then pure ctx
  else
    match svc.loadMergedRules ctx.ruleAppID with
    | .error _ => pure ctx
    | .ok rules =>
      if ctx.challengePassed then passedLoopCached rules ctx else rulesLoopCached svc rules ctx

/-! ### The patterns of the rules -/

/-- The patterns of a rule that is enabled. -/
def CompiledRule.patterns (r : CompiledRule) : List GoString :=
  if r.enabled then r.ast.patterns else []

/-- The patterns of the rules that a request loads. -/
def loadedPatterns (svc : HardRuleServices) (ctx : Context) : List GoString :=
  match svc.loadMergedRules ctx.ruleAppID with
  | .error _ => []
  | .ok rules => rules.flatMap CompiledRule.patterns

/-! ### The result -/

variable {keys : Set GoString}

theorem computes_matchedCached {r : CompiledRule} (hkeys : ∀ key ∈ r.patterns, key ∈ keys)
    (ctx : RequestContext) :
    Computes GoLib.regexpCompile keys (r.matchedCached ctx) (r.matched ctx) := by
  rw [CompiledRule.matchedCached, CompiledRule.matched, evaluateRuleCached, evaluateRule]
  rw [CompiledRule.patterns] at hkeys
  cases henabled : r.enabled with
  | false => exact computes_pure _
  | true =>
    rw [henabled] at hkeys
    rw [if_pos rfl, Bool.true_and]
    split_ifs with hnil
    · exact (computes_pure _).bind (computes_pure _)
    · refine (computes_evaluateCached hkeys).bind ?_
      rcases evaluate r.ast ctx with e | b
      · exact computes_pure _
      · exact computes_pure _

theorem within_matchedCached (r : CompiledRule) (ctx : RequestContext) :
    (r.matchedCached ctx).Within (2 * r.patterns.length) := by
  rw [CompiledRule.matchedCached, evaluateRuleCached, CompiledRule.patterns]
  cases r.enabled with
  | false => exact within_pure _ _
  | true =>
    rw [if_pos rfl, if_pos rfl]
    split_ifs with hnil
    · exact within_pure _ _
    · refine (within_evaluateCached r.ast ctx).bind (n := 0) fun result => ?_
      rcases result with e | b
      · exact within_pure 0 _
      · exact within_pure 0 _

theorem computes_rulesLoopCached (svc : HardRuleServices) {rules : List CompiledRule}
    (hkeys : ∀ key ∈ rules.flatMap CompiledRule.patterns, key ∈ keys) (ctx : Context) :
    Computes GoLib.regexpCompile keys (rulesLoopCached svc rules ctx)
      (rulesLoop svc rules ctx) := by
  induction rules generalizing ctx with
  | nil => exact computes_pure _
  | cons r rules ih =>
    rw [List.flatMap_cons] at hkeys
    have hrest := ih fun key hkey => hkeys key (List.mem_append_right _ hkey)
    rw [rulesLoopCached, rulesLoop]
    refine (computes_matchedCached (fun key hkey => hkeys key (List.mem_append_left _ hkey))
      ctx.ruleContext).bind ?_
    split_ifs
    · cases r.action with
      | allow | block | challenge => exact computes_pure _
      | skip => exact hrest _
      | none | log | other text => exact hrest ctx
    · exact hrest ctx

theorem computes_passedLoopCached {rules : List CompiledRule}
    (hkeys : ∀ key ∈ rules.flatMap CompiledRule.patterns, key ∈ keys) (ctx : Context) :
    Computes GoLib.regexpCompile keys (passedLoopCached rules ctx) (passedLoop rules ctx) := by
  induction rules generalizing ctx with
  | nil => exact computes_pure _
  | cons r rules ih =>
    rw [List.flatMap_cons] at hkeys
    have hrest := ih fun key hkey => hkeys key (List.mem_append_right _ hkey)
    rw [passedLoopCached, passedLoop]
    refine (computes_matchedCached (fun key hkey => hkeys key (List.mem_append_left _ hkey))
      ctx.ruleContext).bind ?_
    split_ifs
    · exact hrest _
    · exact hrest ctx

theorem within_rulesLoopCached (svc : HardRuleServices) (rules : List CompiledRule)
    (ctx : Context) :
    (rulesLoopCached svc rules ctx).Within
      (2 * (rules.flatMap CompiledRule.patterns).length) := by
  induction rules generalizing ctx with
  | nil => exact within_pure _ _
  | cons r rules ih =>
    rw [rulesLoopCached, List.flatMap_cons, List.length_append, Nat.mul_add]
    refine (within_matchedCached r ctx.ruleContext).bind fun matched => ?_
    split_ifs
    · cases r.action with
      | allow | block | challenge => exact within_pure _ _
      | skip => exact ih _
      | none | log | other text => exact ih ctx
    · exact ih ctx

theorem within_passedLoopCached (rules : List CompiledRule) (ctx : Context) :
    (passedLoopCached rules ctx).Within
      (2 * (rules.flatMap CompiledRule.patterns).length) := by
  induction rules generalizing ctx with
  | nil => exact within_pure _ _
  | cons r rules ih =>
    rw [passedLoopCached, List.flatMap_cons, List.length_append, Nat.mul_add]
    refine (within_matchedCached r ctx.ruleContext).bind fun matched => ?_
    split_ifs
    · exact ih _
    · exact ih ctx

theorem computes_rulesEngineCached (svc : HardRuleServices) (ctx : Context) :
    Computes GoLib.regexpCompile {key | key ∈ loadedPatterns svc ctx} (rulesEngineCached svc ctx)
      (rulesEngineHandler svc ctx) := by
  have hkeys : ∀ key ∈ loadedPatterns svc ctx, key ∈ {key | key ∈ loadedPatterns svc ctx} :=
    fun _ h => h
  rw [rulesEngineCached, rulesEngineHandler]
  generalize {key | key ∈ loadedPatterns svc ctx} = keys at hkeys
  rw [loadedPatterns] at hkeys
  cases ctx.ipRuleTerminal with
  | true => exact computes_pure _
  | false =>
    cases hload : svc.loadMergedRules ctx.ruleAppID with
    | error e => exact computes_pure _
    | ok rules =>
      rw [hload] at hkeys
      cases hpassed : ctx.challengePassed with
      | true => exact computes_passedLoopCached hkeys ctx
      | false => exact computes_rulesLoopCached svc hkeys ctx

theorem within_rulesEngineCached (svc : HardRuleServices) (ctx : Context) :
    (rulesEngineCached svc ctx).Within (2 * (loadedPatterns svc ctx).length) := by
  rw [rulesEngineCached, loadedPatterns]
  cases ctx.ipRuleTerminal with
  | true => exact within_pure _ _
  | false =>
    cases svc.loadMergedRules ctx.ruleAppID with
    | error e => exact within_pure _ _
    | ok rules =>
      cases ctx.challengePassed with
      | true => exact within_passedLoopCached rules ctx
      | false => exact within_rulesLoopCached svc rules ctx

/-! ### Requests side by side -/

/-- **The shared evaluator.** However the rules handlers of any number of requests take turns at
the pattern cache, a request whose handler has come to an end has what `rulesEngineHandler` gives
it alone, and it has come to an end after two accesses for each pattern of its rules. The cache
holds under each text the pattern compiled from it, and only texts of rules that were loaded. -/
theorem shared_rulesEngine (svc : ℕ → HardRuleServices) (ctx : ℕ → Context)
    (moves : List (ℕ × Unit)) :
    let w := Interleaving.run memoTable (fun _ => none)
      (fun i => rulesEngineCached (svc i) (ctx i)) moves
    (∀ i found, w.threads i = .pure found → found = rulesEngineHandler (svc i) (ctx i)) ∧
      (∀ i, 2 * (loadedPatterns (svc i) (ctx i)).length ≤ (moves.map Prod.fst).count i →
        w.threads i = .pure (rulesEngineHandler (svc i) (ctx i))) ∧
      ∀ pattern re, w.shared pattern = some re → GoLib.regexpCompile pattern = .ok re ∧
        ∃ i, pattern ∈ loadedPatterns (svc i) (ctx i) := by
  intro w
  obtain ⟨hholds, hresults⟩ := run_memo (fun i => computes_rulesEngineCached (svc i) (ctx i)) moves
  refine ⟨hresults, fun i hmoves => ?_, hholds⟩
  obtain ⟨found, hfound⟩ : ∃ found, w.threads i = .pure found :=
    Interleaving.run_finishes (within_rulesEngineCached (svc i) (ctx i)) hmoves
  rw [← hresults i found hfound]
  exact hfound

end VibesWaf

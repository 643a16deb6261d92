import VibesWaf.Challenge.Cookie
import VibesWaf.Pipeline.Context

/-!
# Phase 1: the hard rules

The six handlers in their registered order: the clearance cookie, the IP access list, flood
protection, the rate limit, the decision cache and the custom rules. What the services around
them answer during a request is a `HardRuleServices`.

The flood and rate-limit handlers test `HardDecision` themselves; the access list, the cache and
the rules do not. `rulesLoop_eq` is the closed form of the loop over the rules: the modules of the
skip rules before the first terminal rule, and then that rule's decision.
-/

namespace VibesWaf

/-! ### The services -/

/-- What a handler reads of an `IPAccessRule`. -/
structure IPAccessRule where
  action : Action
  description : GoString
  enabled : Bool
  deriving DecidableEq

/-- What the flood handler and the rate limit read of a `RateLimitProfile`. -/
structure RateLimitProfile where
  enabled : Bool
  duration : Int64
  count : Int64
  action : Action
  challengeSec : Int64
  deriving DecidableEq

/-- `RateLimitConfig`, with the two lists of `FloodExclude`. -/
structure RateLimitConfig where
  basic : RateLimitProfile
  attack : RateLimitProfile
  error : RateLimitProfile
  excludeExtensions : List GoString
  excludePaths : List GoString
  deriving DecidableEq

/-- The answers of `FloodProtector` for an address. -/
structure FloodProtector where
  isChallenged : GoString → Bool
  checkAttackLimit : GoString → Bool
  checkErrorLimit : GoString → Bool
  checkBasicAccess : GoString → Bool

/-- What the rules engine reads of a `CompiledRule`. -/
structure CompiledRule where
  id : Int
  name : GoString
  ast : Node
  action : Action
  skipModules : List GoString
  enabled : Bool
  deriving DecidableEq

/-- What the services answer to the handlers of phase 1 during one request. -/
structure HardRuleServices where
  validator : ChallengeValidator
  /-- `CheckIPInMemory`, by application and address. -/
  checkIP : GoString → GoString → Except GoString (Option IPAccessRule)
  flood : FloodProtector
  rateLimitConfig : RateLimitConfig
  /-- `RateLimitService.Allow`, by application, address and user agent. -/
  allow : GoString → GoString → GoString → Bool × Action
  /-- The decision cache is on. -/
  cacheEnabled : Bool
  /-- The decisions the cache holds, by key. -/
  cache : GoString → Option CachedDecision
  sha256 : GoString → Bytes 32
  /-- `LoadMergedRules`, by application. -/
  loadMergedRules : GoString → Except GoString (List CompiledRule)

/-! ### Cookie, access list, flood and rate limit -/

/-- The trust level of the clearance cookie of a request, when it is accepted. -/
def clearanceLevel (svc : HardRuleServices) (ctx : Context) : Option Int64 :=
  match ctx.request.cookie (str "ok") with
  | none => none
  | some value =>
    if value = [] then none
    else svc.validator.verifyCookie value ctx.clientIP ctx.request.userAgent

/-- What an accepted clearance does to the context: the decision so far stays in it. -/
def Context.cleared (ctx : Context) (level : Int64) : Context :=
  { ctx with challengePassed := true, trustLevel := level, action := .none, reason := [] }

/-- `ChallengeValidator.Handle`. -/
def challengeValidator (svc : HardRuleServices) (ctx : Context) : Context :=
  match clearanceLevel svc ctx with
  | none => ctx
  | some level => ctx.cleared level

/-- The enabled rule of the access list for a request. -/
def matchedIPRule (svc : HardRuleServices) (ctx : Context) : Option IPAccessRule :=
  match svc.checkIP ctx.ruleAppID ctx.clientIP with
  | .ok (some rule) => if rule.enabled then some rule else none
  | _ => none

/-- The decision of a rule of the access list. -/
def IPAccessRule.decision (rule : IPAccessRule) : Decision :=
  newDecision rule.action (str "ip_access_rule") (str "ip_access_rule:" ++ rule.description)

/-- `IPAccessHandler.Handle`. -/
def ipAccessHandler (svc : HardRuleServices) (ctx : Context) : Context :=
  match matchedIPRule svc ctx with
  | none => ctx
  | some rule => { ctx.decideHard rule.decision [] with ipRuleTerminal := true }

/-- A profile that `RateLimitService.Allow` does not apply. -/
def RateLimitProfile.Off (p : RateLimitProfile) : Prop :=
  p.enabled = false ∨ p.count ≤ 0 ∨ p.duration ≤ 0

instance profileOffDecidable (p : RateLimitProfile) : Decidable p.Off :=
  inferInstanceAs (Decidable (_ ∨ _))

/-- What `RateLimitService.Allow` answers by a profile, given whether the limiter allows the
request. -/
def RateLimitProfile.answer (p : RateLimitProfile) (allowed : Bool) : Bool × Action :=
  if p.Off then (true, .none) else (allowed, p.action)

/-- A profile's action, or a default when it has none. -/
def RateLimitProfile.actionOr (p : RateLimitProfile) (default : Action) : Action :=
  if p.action = .none then default else p.action

/-- A profile's penalty in nanoseconds, or a default in minutes when it has none. -/
def RateLimitProfile.penaltyOr (p : RateLimitProfile) (minutes : Int64) : Int64 :=
  let penalty := p.challengeSec * 1000000000
  if penalty ≤ 0 then minutes * 60000000000 else penalty

/-- `isExcluded`. -/
def isExcluded (path : GoString) (cfg : RateLimitConfig) : Bool :=
  cfg.excludeExtensions.any (hasSuffix path) || cfg.excludePaths.any (hasPrefix path)

/-- What flood protection decides for an address, and asks of its services. -/
def floodVerdict (svc : HardRuleServices) (ip : GoString) : Option (Decision × List Effect) :=
  let cfg := svc.rateLimitConfig
  if svc.flood.isChallenged ip then
    some (newDecision .challenge (str "flood") (str "flood_penalty_active"), [])
  else if cfg.attack.enabled && !svc.flood.checkAttackLimit ip then
    some (newDecision (cfg.attack.actionOr .block) (str "flood") (str "attack_flood_exceeded"),
      [.setChallenge ip (cfg.attack.penaltyOr 5), .recordAttackHit])
  else if cfg.error.enabled && !svc.flood.checkErrorLimit ip then
    some (newDecision (cfg.error.actionOr .challenge) (str "flood") (str "error_flood_exceeded"),
      [.setChallenge ip (cfg.error.penaltyOr 5), .recordErrorHit])
  else if cfg.basic.enabled && !svc.flood.checkBasicAccess ip then
    some (newDecision (cfg.basic.actionOr .challenge) (str "flood") (str "basic_access_limit"),
      [.setChallenge ip (cfg.basic.penaltyOr 10)])
  else none

/-- The first tests of the flood and the rate-limit handler. -/
def Context.bypasses (ctx : Context) (moduleName : GoString) : Bool :=
  ctx.hardDecision || ctx.shouldSkipModule moduleName || ctx.ipRuleTerminal || ctx.challengePassed

/-- `FloodHandler.Handle`. -/
def floodHandler (svc : HardRuleServices) (ctx : Context) : Context :=
  if ctx.bypasses (str "flood") then ctx
  -- on an excluded path neither a penalty nor a counter is asked for
  else if isExcluded ctx.request.path svc.rateLimitConfig then ctx
  else
    match floodVerdict svc ctx.clientIP with
    | none => ctx
    | some (decision, effects) => ctx.decideHard decision effects

/-- `RateLimitHandler.Handle`. -/
def rateLimitHandler (svc : HardRuleServices) (ctx : Context) : Context :=
  if ctx.bypasses (str "rate_limit") then ctx
  else
    match svc.allow ctx.ruleAppID ctx.clientIP ctx.request.userAgent with
    | (true, _) => ctx
    | (false, action) =>
      let action := if action = .none then .block else action
      ctx.decideHard (newDecision action (str "rate_limit") (str "rate_limit_exceeded")) []

/-- The access list is asked about the address and the application alone. -/
theorem matchedIPRule_validator (svc : HardRuleServices) (ctx : Context) :
    matchedIPRule svc (challengeValidator svc ctx) = matchedIPRule svc ctx := by
  unfold challengeValidator
  split <;> rfl

theorem bypasses_of_hard {ctx : Context} (h : ctx.hardDecision = true) (moduleName : GoString) :
    ctx.bypasses moduleName = true := by
  simp [Context.bypasses, h]

theorem bypasses_of_passed {ctx : Context} (h : ctx.challengePassed = true)
    (moduleName : GoString) : ctx.bypasses moduleName = true := by
  simp [Context.bypasses, h]

/-! ### The decision cache -/

/-- The length prefix of a field in the cache key. -/
def bigEndian32 (n : ℕ) : List UInt8 :=
  [UInt8.ofNat (n / 2 ^ 24), UInt8.ofNat (n / 2 ^ 16), UInt8.ofNat (n / 2 ^ 8), UInt8.ofNat n]

/-- The six fields of the cache key. -/
def Context.keyFields (ctx : Context) : List GoString :=
  [ctx.appID, ctx.clientIP, ctx.normalized.ua, ctx.normalized.method, ctx.normalized.path,
    ctx.normalized.query]

/-- `generateKey`. -/
def generateKey (svc : HardRuleServices) (ctx : Context) : GoString :=
  str "waf:decision:v2:" ++ hexEncode
    (svc.sha256 (ctx.keyFields.flatMap fun field => bigEndian32 field.length ++ field)).1

/-- `DecisionCache.Get`. -/
def cacheGet (svc : HardRuleServices) (ctx : Context) : Option CachedDecision :=
  if svc.cacheEnabled then svc.cache (generateKey svc ctx) else none

/-- The lifetime of a cached decision: `TTLBlock` and `TTLChallenge`; others are not cached. -/
def cacheTTL : Action → Option Int64
  | .block => some 60000000000
  | .challenge => some 30000000000
  | _ => none

/-- `DecisionCache.Set`, as the writes it asks for. -/
def cacheSet (svc : HardRuleServices) (ctx : Context) (action : Action)
    (source reason : GoString) : List Effect :=
  if svc.cacheEnabled then
    match cacheTTL action with
    | none => []
    | some ttl => [.cacheSet (generateKey svc ctx) ⟨action, source, reason⟩ ttl]
  else []

theorem generateKey_sameRequest (svc : HardRuleServices) {ctx ctx' : Context}
    (h : Context.SameRequest ctx ctx') : generateKey svc ctx' = generateKey svc ctx := by
  simp only [generateKey, Context.keyFields, h.appID, h.clientIP, h.normalized]

theorem cacheSet_sameRequest (svc : HardRuleServices) {ctx ctx' : Context}
    (h : Context.SameRequest ctx ctx') (action : Action) (source reason : GoString) :
    cacheSet svc ctx' action source reason = cacheSet svc ctx action source reason := by
  simp only [cacheSet, generateKey_sameRequest svc h]

/-- The decision a cache hit replays. -/
def CachedDecision.decision (d : CachedDecision) : Decision :=
  newDecision d.action d.source d.reason

/-- `CacheCheckHandler.Handle`. -/
def cacheCheckHandler (svc : HardRuleServices) (ctx : Context) : Context :=
  if ctx.ipRuleTerminal || ctx.challengePassed then ctx
  else
    match cacheGet svc ctx with
    | none => ctx
    -- a replayed decision is not a hard one: the rules come after it
    | some cached => { ctx.addDecision cached.decision with cacheHit := true }

/-! ### Custom rules -/

/-- The reason a rule gives. -/
def CompiledRule.reason (r : CompiledRule) : GoString :=
  str "rule:" ++ itoa r.id ++ str ":" ++ r.name

/-- The decision of a rule that allows, blocks or challenges. -/
def CompiledRule.decision (r : CompiledRule) : Decision :=
  newDecision r.action (str "custom_rule") r.reason

/-- The rule allows, blocks or challenges. -/
def CompiledRule.terminal (r : CompiledRule) : Bool :=
  r.action = .allow || r.action = .block || r.action = .challenge

section Rules

variable [GoLib]

/-- `EvaluateRule`: a rule without a tree does not match. -/
def evaluateRule (r : CompiledRule) (ctx : RequestContext) : Except RuleError Bool :=
  if r.ast = .nil then .ok false else evaluate r.ast ctx

/-- The rule is enabled and matches, with no error. -/
def CompiledRule.matched (r : CompiledRule) (ctx : RequestContext) : Bool :=
  r.enabled &&
    match evaluateRule r ctx with
    | .ok b => b
    | .error _ => false

/-- The loop of `RulesEngineHandler.Handle`. -/
def rulesLoop (svc : HardRuleServices) : List CompiledRule → Context → Context
  | [], ctx => ctx
  | r :: rules, ctx =>
    if r.matched ctx.ruleContext then
      match r.action with
      -- the first terminal rule ends the loop
      | .allow | .block | .challenge =>
        ctx.decideHard r.decision (cacheSet svc ctx r.action (str "custom_rule") r.reason)
      | .skip =>
        rulesLoop svc rules ((ctx.addDecision (newSkipDecision (str "custom_rule")
          r.skipModules)).addSkipModules r.skipModules)
      | _ => rulesLoop svc rules ctx
    else rulesLoop svc rules ctx

/-- The loop of `evaluateChallengePassed`: skip rules alone have an effect. -/
def passedLoop : List CompiledRule → Context → Context
  | [], ctx => ctx
  | r :: rules, ctx =>
    if r.matched ctx.ruleContext && r.action = .skip then
      passedLoop rules ((ctx.addDecision (newSkipDecision (str "custom_rule")
        r.skipModules)).addSkipModules r.skipModules)
    else passedLoop rules ctx

/-- `RulesEngineHandler.Handle`. -/
def rulesEngineHandler (svc : HardRuleServices) (ctx : Context) : Context :=
  if ctx.ipRuleTerminal then ctx
  else
    match svc.loadMergedRules ctx.ruleAppID with
    | .error _ => ctx
    | .ok rules => if ctx.challengePassed then passedLoop rules ctx else rulesLoop svc rules ctx

/-- The handlers of phase 1 in their registered order. -/
def phase1 (svc : HardRuleServices) : List (Context → Context) :=
  [challengeValidator svc, ipAccessHandler svc, floodHandler svc, rateLimitHandler svc,
    cacheCheckHandler svc, rulesEngineHandler svc]

/-! ### The loop over the rules in closed form -/

/-- The modules of the matched skip rules before the first matched terminal rule, and that rule. -/
def scanRules (ctx : RequestContext) : List CompiledRule → List GoString × Option CompiledRule
  | [] => ([], none)
  | r :: rules =>
    if r.matched ctx then
      if r.terminal then ([], some r)
      else if r.action = .skip then
        (r.skipModules ++ (scanRules ctx rules).1, (scanRules ctx rules).2)
      else scanRules ctx rules
    else scanRules ctx rules

/-- The first terminal rule decides, and does not skip. -/
theorem scanRules_ne_skip {ctx : RequestContext} {rules : List CompiledRule}
    {r : CompiledRule} (h : (scanRules ctx rules).2 = some r) : r.action ≠ .skip := by
  induction rules with
  | nil => exact absurd h (by simp [scanRules])
  | cons r' rules ih =>
    rw [scanRules] at h
    split at h
    · split at h
      · rename_i hterminal
        obtain rfl := Option.some.inj h
        rintro hskip
        simp [CompiledRule.terminal, hskip] at hterminal
      split at h
      · exact ih h
      · exact ih h
    · exact ih h

/-- **The loop over the rules.** The modules of the skip rules on the way are skipped, and the
first terminal rule decides. -/
theorem rulesLoop_eq (svc : HardRuleServices) (rules : List CompiledRule) (ctx : Context) :
    rulesLoop svc rules ctx =
      match (scanRules ctx.ruleContext rules).2 with
      | none => ctx.skipping (scanRules ctx.ruleContext rules).1
      | some r =>
        (ctx.skipping (scanRules ctx.ruleContext rules).1).decideHard r.decision
          (cacheSet svc ctx r.action (str "custom_rule") r.reason) := by
  induction rules generalizing ctx with
  | nil => exact (ctx.skipping_nil).symm
  | cons r rules ih =>
    rw [rulesLoop, scanRules]
    by_cases hmatch : r.matched ctx.ruleContext = true
    · rw [if_pos hmatch, if_pos hmatch]
      cases haction : r.action with
      | allow => simp [CompiledRule.terminal, haction, Context.skipping_nil]
      | block => simp [CompiledRule.terminal, haction, Context.skipping_nil]
      | challenge => simp [CompiledRule.terminal, haction, Context.skipping_nil]
      | skip =>
        have hsame := Context.sameRequest_skipping ctx r.skipModules
        rw [Context.addSkip_eq, ih, hsame.ruleContext]
        simp only [CompiledRule.terminal, haction, reduceCtorEq, decide_false, Bool.or_self,
          Bool.false_eq_true, if_false, if_true, Context.skipping_append,
          cacheSet_sameRequest svc hsame]
      | none => simpa [CompiledRule.terminal, haction] using ih ctx
      | log => simpa [CompiledRule.terminal, haction] using ih ctx
      | other text => simpa [CompiledRule.terminal, haction] using ih ctx
    · rw [if_neg hmatch, if_neg hmatch]
      exact ih ctx

/-- The modules of all matched skip rules. -/
def skippedModules (ctx : RequestContext) (rules : List CompiledRule) : List GoString :=
  (rules.filter fun r => r.matched ctx && r.action = .skip).flatMap (·.skipModules)

/-- With a clearance, the modules of all matched skip rules are skipped, and nothing is decided. -/
theorem passedLoop_eq (rules : List CompiledRule) (ctx : Context) :
    passedLoop rules ctx = ctx.skipping (skippedModules ctx.ruleContext rules) := by
  induction rules generalizing ctx with
  | nil => exact (ctx.skipping_nil).symm
  | cons r rules ih =>
    rw [passedLoop, skippedModules, List.filter_cons]
    by_cases hskip : (r.matched ctx.ruleContext && decide (r.action = .skip)) = true
    · rw [if_pos hskip, if_pos hskip, Context.addSkip_eq, ih,
        (Context.sameRequest_skipping ctx r.skipModules).ruleContext, Context.skipping_append,
        List.flatMap_cons]
      rfl
    · rw [if_neg hskip, if_neg hskip]
      exact ih ctx

end Rules

end VibesWaf

import Mathlib.Data.Fin.VecNotation
import VibesWaf.Pipeline.Scoring

/-!
# The pipeline

`execute` is `Pipeline.Execute`: all handlers of phase 1, and then either the response to a hard
decision or scoring, the decision engine and the response. `executeWebSocketChecks` runs phase 1
alone and stops at the first hard decision. A `Visit` is what the request handler knows of a
request, and `Visit.context` the context it builds from it.

`decided` is the context both paths of `execute` hand to the response handlers, and `phase4_eq`
what those do with it.
-/

namespace VibesWaf

/-- What the services answer during one request. -/
structure Services extends HardRuleServices, ScoringServices

/-- Services that find nothing, with the default scoring configuration. -/
def quietServices : Services where
  validator := ⟨fun _ _ => ⟨List.replicate 32 0, rfl⟩, [], 3600, 0⟩
  checkIP _ _ := .ok none
  flood := ⟨fun _ => false, fun _ => true, fun _ => true, fun _ => true⟩
  rateLimitConfig :=
    { basic := ⟨true, 30, 50, .block, 300⟩
      attack := ⟨true, 60, 40, .block, 300⟩
      error := ⟨false, 60, 15, .challenge, 300⟩
      excludeExtensions := []
      excludePaths := [] }
  allow _ _ _ := (true, .block)
  cacheEnabled := true
  cache _ := none
  sha256 _ := ⟨List.replicate 32 0, rfl⟩
  loadMergedRules _ := .ok []
  config := some
    { blockThreshold := 70
      challengeThreshold := 35
      ipReputation := ⟨true, 30, none⟩
      botDetection := ⟨true, 35, none⟩
      wafAnomaly := ⟨true, 40, some fun score => score * 3 / 2⟩
      protocolAnomaly := ⟨true, 35, none⟩
      trustedHistory := -4
      trustedHistoryThreshold := 0
      stableSession := 0 }
  lookupIP _ := none
  lookupASN _ := none
  maxmindDCScore := 15
  maxmindASNScore := 15
  botScore := 0
  anomalyScore := 0
  violations := []
  redisEnabled := true
  cleanRequests := none
  sessionMatches := false
  reductions := ![0, -5, -10, -15]

/-! ### The response -/

/-- `BlockHandler.Handle`, with whether the response was written. -/
def blockHandler (ctx : Context) : Context × Bool :=
  if ctx.action ≠ .block then (ctx, false)
  else
    let reason := if ctx.reason = [] then str "Security policy violation detected" else ctx.reason
    ({ ctx with effects := ctx.effects ++ [.blockedPage ctx.clientIP ctx.request.host reason] },
      true)

/-- `ChallengeHandler.Handle`, with whether the response was written. -/
def challengeHandler (ctx : Context) : Context × Bool :=
  if ctx.challengePassed then (ctx, false)
  else
    match ctx.action with
    | .none | .allow | .log => (ctx, false)
    | .block => ({ ctx with effects := ctx.effects ++ [.accessDenied] }, true)
    | .challenge =>
      ({ ctx with effects := ctx.effects ++ [.challengePage ctx.request.host] }, true)
    | _ => (ctx, false)

/-- The handlers of phase 4 in their registered order, up to the first that writes. -/
def phase4 (ctx : Context) : Context × Bool :=
  match blockHandler ctx with
  | (ctx, true) => (ctx, true)
  | (ctx, false) => challengeHandler ctx

/-! ### The two runs -/

section Run

variable [GoLib]

/-- The first lines of both runs. -/
def Context.start (ctx : Context) : Context :=
  { ctx with normalized := normalize ctx.request, riskScore := RiskScore.new }

/-- All handlers of a phase. -/
def runPhase (handlers : List (Context → Context)) (ctx : Context) : Context :=
  handlers.foldl (fun ctx h => h ctx) ctx

/-- `Pipeline.Execute`, with whether it returned `ErrResponseWritten`. -/
def execute (svc : Services) (ctx : Context) : Context × Bool :=
  let ctx := runPhase (phase1 svc.toHardRuleServices) ctx.start
  if ctx.hardDecision then phase4 { ctx with phaseExit := str "phase1" }
  else
    let ctx := runPhase (phase2 svc.toScoringServices) ctx
    let ctx := weighScore svc.toScoringServices ctx
    phase4 (decisionEngine svc.toScoringServices ctx)

/-- The loop of `ExecuteWebSocketChecks`. -/
def runUntilHard : List (Context → Context) → Context → Context
  | [], ctx => ctx
  | h :: handlers, ctx => if (h ctx).hardDecision then h ctx else runUntilHard handlers (h ctx)

/-- `Pipeline.ExecuteWebSocketChecks`. -/
def executeWebSocketChecks (svc : Services) (ctx : Context) : Context :=
  runUntilHard (phase1 svc.toHardRuleServices) ctx.start

end Run

/-! ### The context of a visit -/

/-- What the request handler knows of a request before the pipeline. -/
structure Visit where
  request : Request
  clientIP : GoString
  appID : GoString
  country : GoString
  asn : UInt64
  asnOrg : GoString
  isDatacenter : Bool
  httpFingerprint : GoString
  /-- `UnderAttackMode` of the application. -/
  underAttack : Bool

/-- The decision of the under-attack mode. -/
def underAttackDecision : Decision :=
  newDecision .challenge (str "under_attack_mode") (str "under_attack_mode")

/-- The context of a visit, before any decision. -/
def Visit.newContext (v : Visit) : Context where
  request := v.request
  clientIP := v.clientIP
  action := .none
  reason := []
  currentDecision := Decision.zero
  skipPhases := ∅
  skipModules := ∅
  country := v.country
  asn := v.asn
  asnOrg := v.asnOrg
  isDatacenter := v.isDatacenter
  appID := v.appID
  httpFingerprint := v.httpFingerprint
  ipRuleTerminal := false
  challengePassed := false
  trustLevel := 0
  wafStatus := 0
  cacheHit := false
  phaseExit := []
  normalized := ⟨[], [], [], [], []⟩
  riskScore := RiskScore.new
  hardDecision := false
  effects := []

/-- The context the pipeline is run on. -/
def Visit.context (v : Visit) : Context :=
  if v.underAttack then v.newContext.addDecision underAttackDecision else v.newContext

/-- A plain request for the front page. -/
def plainRequest : Request where
  method := str "GET"
  path := str "/"
  rawPath := []
  rawQuery := []
  requestURI := str "/"
  host := str "example.com"
  proto := str "HTTP/1.1"
  header _ := []
  cookies := []
  remoteAddr := str "203.0.113.7:4711"
  tls := false

/-- A visit with a plain request. -/
def plainVisit : Visit where
  request := plainRequest
  clientIP := str "203.0.113.7"
  appID := str "app"
  country := []
  asn := 0
  asnOrg := []
  isDatacenter := false
  httpFingerprint := []
  underAttack := false

/-! ### Phase 1, case by case -/

section Cases

variable [GoLib]

/-- After a terminal rule of the access list the other handlers do nothing. -/
private theorem rest_of_terminal {svc : HardRuleServices} {ctx : Context}
    (hhard : ctx.hardDecision = true) (hterminal : ctx.ipRuleTerminal = true) :
    rulesEngineHandler svc (cacheCheckHandler svc (rateLimitHandler svc (floodHandler svc ctx))) =
      ctx := by
  have hcache : (ctx.ipRuleTerminal || ctx.challengePassed) = true := by simp [hterminal]
  rw [floodHandler, if_pos (bypasses_of_hard hhard _), rateLimitHandler,
    if_pos (bypasses_of_hard hhard _), cacheCheckHandler, if_pos hcache, rulesEngineHandler,
    if_pos hterminal]

/-- **A rule of the access list is terminal**: the handlers after it do nothing. -/
theorem phase1_ipRule {svc : HardRuleServices} {ctx : Context} {rule : IPAccessRule}
    (h : matchedIPRule svc ctx = some rule) :
    runPhase (phase1 svc) ctx =
      { (challengeValidator svc ctx).decideHard rule.decision [] with ipRuleTerminal := true } := by
  change rulesEngineHandler svc (cacheCheckHandler svc (rateLimitHandler svc (floodHandler svc
    (ipAccessHandler svc (challengeValidator svc ctx))))) = _
  have hip : ipAccessHandler svc (challengeValidator svc ctx) =
      { (challengeValidator svc ctx).decideHard rule.decision [] with
        ipRuleTerminal := true } := by
    rw [ipAccessHandler, matchedIPRule_validator, h]
  rw [hip]
  exact rest_of_terminal rfl rfl

/-- The modules the skip rules of a visitor with a clearance turn off. -/
def clearedSkips (svc : HardRuleServices) (ctx : Context) : List GoString :=
  match svc.loadMergedRules ctx.ruleAppID with
  | .error _ => []
  | .ok rules => skippedModules ctx.ruleContext rules

/-- The context of a visitor with a clearance whom no rule of the access list names. -/
def clearedContext (svc : HardRuleServices) (ctx : Context) (level : Int64) : Context :=
  (ctx.cleared level).skipping (clearedSkips svc ctx)

/-- **A clearance passes** flood protection, the rate limit, the cache and all rules but skips. -/
theorem phase1_cleared {svc : HardRuleServices} {ctx : Context} {level : Int64}
    (hterminal : ctx.ipRuleTerminal = false) (hlevel : clearanceLevel svc ctx = some level)
    (hip : matchedIPRule svc ctx = none) :
    runPhase (phase1 svc) ctx = clearedContext svc ctx level := by
  have hvalid : challengeValidator svc ctx = ctx.cleared level := by
    rw [challengeValidator, hlevel]
  have hip' : ipAccessHandler svc (challengeValidator svc ctx) = challengeValidator svc ctx := by
    rw [ipAccessHandler, matchedIPRule_validator, hip]
  change rulesEngineHandler svc (cacheCheckHandler svc (rateLimitHandler svc (floodHandler svc
    (ipAccessHandler svc (challengeValidator svc ctx))))) = _
  rw [hip', hvalid, floodHandler, if_pos (bypasses_of_passed rfl _), rateLimitHandler,
    if_pos (bypasses_of_passed rfl _), cacheCheckHandler, if_pos (by simp [Context.cleared]),
    rulesEngineHandler, if_neg (by simp [Context.cleared, hterminal]), clearedContext,
    clearedSkips]
  change (match svc.loadMergedRules ctx.ruleAppID with
    | .error _ => _
    | .ok rules => if true = true then passedLoop rules _ else _) = _
  cases svc.loadMergedRules ctx.ruleAppID with
  | error e => exact (Context.skipping_nil _).symm
  | ok rules => exact passedLoop_eq rules _

/-- The handlers after the validator give no clearance. -/
theorem passed_of_mem {svc : HardRuleServices} {h : Context → Context}
    (hmem : h ∈ (phase1 svc).tail) (ctx : Context) :
    (h ctx).challengePassed = ctx.challengePassed := by
  simp only [phase1, List.tail_cons, List.mem_cons, List.not_mem_nil, or_false] at hmem
  rcases hmem with rfl | rfl | rfl | rfl | rfl
  · rw [ipAccessHandler]
    split
    · rfl
    · exact (ctx.addDecision_flags _).2.2
  · rw [floodHandler]
    split
    · rfl
    split
    · rfl
    split
    · rfl
    · exact (ctx.addDecision_flags _).2.2
  · rw [rateLimitHandler]
    split
    · rfl
    split
    · rfl
    · exact (ctx.addDecision_flags _).2.2
  · rw [cacheCheckHandler]
    split
    · rfl
    split
    · rfl
    · exact (ctx.addDecision_flags _).2.2
  · rw [rulesEngineHandler]
    split
    · rfl
    split
    · rfl
    split
    · rw [passedLoop_eq]
      rfl
    · rw [rulesLoop_eq]
      split
      · rfl
      · exact (Context.addDecision_flags _ _).2.2

/-- Phase 1 gives a clearance for the cookie, and for nothing else. -/
theorem passed_phase1 {svc : HardRuleServices} {ctx : Context}
    (hlevel : clearanceLevel svc ctx = none) :
    (runPhase (phase1 svc) ctx).challengePassed = ctx.challengePassed := by
  have hvalid : challengeValidator svc ctx = ctx := by rw [challengeValidator, hlevel]
  have hhead : runPhase (phase1 svc) ctx =
      runPhase (phase1 svc).tail (challengeValidator svc ctx) := rfl
  rw [hhead, hvalid]
  exact EarlyExit.runAll_preserves (P := fun c => c.challengePassed = ctx.challengePassed)
    (fun _ hmem c hpassed => (passed_of_mem hmem c).trans hpassed) rfl

end Cases

/-! ### What the response handlers do -/

/-- The response handlers write exactly for a block, and for a challenge without a clearance; they
leave the action and the flags as they are. -/
theorem phase4_eq (ctx : Context) :
    (phase4 ctx).1.action = ctx.action ∧
      ((phase4 ctx).2 = true ↔
        ctx.action = .block ∨ ctx.action = .challenge ∧ ctx.challengePassed = false) := by
  unfold phase4 blockHandler challengeHandler
  cases haction : ctx.action <;> cases hpassed : ctx.challengePassed <;> simp [haction, hpassed]

theorem phase4_reason (ctx : Context) : (phase4 ctx).1.reason = ctx.reason := by
  unfold phase4 blockHandler challengeHandler
  cases haction : ctx.action <;> cases hpassed : ctx.challengePassed <;> simp [haction, hpassed]

variable [GoLib]

/-- The context the response handlers get. -/
def decided (svc : Services) (ctx : Context) : Context :=
  let ctx := runPhase (phase1 svc.toHardRuleServices) ctx.start
  if ctx.hardDecision then { ctx with phaseExit := str "phase1" }
  else decisionEngine svc.toScoringServices
    (weighScore svc.toScoringServices (runPhase (phase2 svc.toScoringServices) ctx))

theorem decided_of_hard {svc : Services} {ctx : Context}
    (h : (runPhase (phase1 svc.toHardRuleServices) ctx.start).hardDecision = true) :
    decided svc ctx =
      { runPhase (phase1 svc.toHardRuleServices) ctx.start with phaseExit := str "phase1" } :=
  if_pos h

theorem decided_of_soft {svc : Services} {ctx : Context}
    (h : (runPhase (phase1 svc.toHardRuleServices) ctx.start).hardDecision = false) :
    decided svc ctx = decisionEngine svc.toScoringServices (weighScore svc.toScoringServices
      (runPhase (phase2 svc.toScoringServices)
        (runPhase (phase1 svc.toHardRuleServices) ctx.start))) :=
  if_neg (by simp [h])

theorem execute_eq (svc : Services) (ctx : Context) :
    execute svc ctx = phase4 (decided svc ctx) := by
  unfold execute decided
  dsimp only
  split <;> rfl

end VibesWaf

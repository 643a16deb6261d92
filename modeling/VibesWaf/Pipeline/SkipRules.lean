import VibesWaf.Pipeline.Clearance
import VibesWaf.Pipeline.Response

/-!
# Skip rules

A skip rule exempts a request from modules of the pipeline. Four of the six modules score, after the
rules; the other two, flood protection and the rate limit, come before the rules, and have decided
by the time a skip rule matches.

`Exempt` compares two runs that differ in what one module finds. `exempt_of_scoring` is the result
for the modules that score, `exempt_limiter_iff` for the other two, and `skip_exempts_iff` for all.
-/

namespace VibesWaf

/-! ### Modules and their findings -/

/-- The modules a skip rule can name. -/
inductive Module
  | waf
  | bot
  | rateLimit
  | ipReputation
  | protocolAnomaly
  | flood
  deriving DecidableEq

/-- The name of a module. -/
def Module.name : Module → GoString
  | .waf => str "waf"
  | .bot => str "bot"
  | .rateLimit => str "rate_limit"
  | .ipReputation => str "ip_reputation"
  | .protocolAnomaly => str "protocol_anomaly"
  | .flood => str "flood"

/-- The services, with what one module finds taken from others. The configuration stays: of the rate
limit it is the limiter that finds something. -/
def Services.findings (svc other : Services) : Module → Services
  | .waf => { svc with anomalyScore := other.anomalyScore }
  | .bot => { svc with botScore := other.botScore }
  | .rateLimit =>
    { svc with
      allow := fun appID clientIP userAgent =>
        svc.rateLimitConfig.basic.answer (other.allow appID clientIP userAgent).1 }
  | .ipReputation =>
    { svc with
      lookupIP := other.lookupIP
      lookupASN := other.lookupASN
      maxmindDCScore := other.maxmindDCScore
      maxmindASNScore := other.maxmindASNScore }
  | .protocolAnomaly => { svc with violations := other.violations }
  | .flood => { svc with flood := other.flood }

/-- How a request ends. -/
structure Outcome where
  action : Action
  reason : GoString
  total : Int
  deriving DecidableEq

/-- The outcome in a context. -/
def Context.outcome (ctx : Context) : Outcome :=
  ⟨ctx.action, ctx.reason, ctx.riskScore.total⟩

/-- The response handlers leave the outcome alone. -/
theorem outcome_phase4 (ctx : Context) : (phase4 ctx).1.outcome = ctx.outcome := by
  have htotal : (phase4 ctx).1.riskScore = ctx.riskScore := by
    unfold phase4 blockHandler challengeHandler
    cases haction : ctx.action <;> cases hpassed : ctx.challengePassed <;> simp [haction, hpassed]
  rw [Context.outcome, (phase4_eq ctx).1, phase4_reason, htotal]
  rfl

section Exemption

variable [GoLib]

/-- The outcome does not depend on what a module finds. -/
def Exempt (svc : Services) (ctx : Context) (m : Module) : Prop :=
  ∀ other other', (execute (svc.findings other m) ctx).1.outcome =
    (execute (svc.findings other' m) ctx).1.outcome

/-- An enabled skip rule that names the module matches before any terminal rule. -/
def Skips (svc : HardRuleServices) (ctx : Context) (m : Module) : Prop :=
  ∃ rules, svc.loadMergedRules ctx.ruleAppID = .ok rules ∧
    m.name ∈ (scanRules ctx.start.ruleContext rules).1

/-- What follows phase 1, up to the response. -/
def decidedFrom (svc : Services) (ctx : Context) : Context :=
  if ctx.hardDecision then { ctx with phaseExit := str "phase1" }
  else decisionEngine svc.toScoringServices
    (weighScore svc.toScoringServices (runPhase (phase2 svc.toScoringServices) ctx))

theorem outcome_execute (svc : Services) (ctx : Context) :
    (execute svc ctx).1.outcome =
      (decidedFrom svc (runPhase (phase1 svc.toHardRuleServices) ctx.start)).outcome := by
  rw [execute_eq, outcome_phase4]
  rfl

/-! ### Phase 1 without a clearance and without a rule of the access list -/

/-- The context after phase 1, given what the limiters decided. -/
def afterLimiters (svc : HardRuleServices) (ctx : Context)
    (verdict : Option (Decision × List Effect)) : Context :=
  rulesEngineHandler svc (cacheCheckHandler svc (ctx.limited verdict))

theorem phase1_open {svc : HardRuleServices} {ctx : Context}
    (hlevel : clearanceLevel svc ctx = none) (hip : matchedIPRule svc ctx = none) :
    runPhase (phase1 svc) ctx = afterLimiters svc ctx (limiterDecision svc ctx) := by
  have hvalid : challengeValidator svc ctx = ctx := by rw [challengeValidator, hlevel]
  have haccess : ipAccessHandler svc ctx = ctx := by rw [ipAccessHandler, hip]
  change rulesEngineHandler svc (cacheCheckHandler svc (rateLimitHandler svc (floodHandler svc
    (ipAccessHandler svc (challengeValidator svc ctx))))) = _
  rw [hvalid, haccess, afterLimiters, limiterDecision_eq hlevel hip, floodHandler_eq]
  cases floodDecision svc ctx with
  | none => rw [Context.limited, rateLimitHandler_eq, Option.none_or]
  | some verdict =>
    -- flood protection has decided, and the rate limit is not asked
    rw [Option.some_or, rateLimitHandler, if_pos (bypasses_of_hard rfl _)]

/-- The modules to skip, and the first terminal rule. -/
def scannedRules (svc : HardRuleServices) (ctx : Context) :
    List GoString × Option CompiledRule :=
  match svc.loadMergedRules ctx.ruleAppID with
  | .error _ => ([], none)
  | .ok rules => scanRules ctx.ruleContext rules

/-- The decision after phase 1, given what the limiters decided: the cached decision and the first
terminal rule are resolved against it. -/
def resolved (svc : HardRuleServices) (ctx : Context) (limited : Option Decision) : Decision :=
  settle (settle (settle ctx.currentDecision limited)
    ((cacheGet svc ctx).map (·.decision))) ((scannedRules svc ctx).2.map (·.decision))

/-! ### What each of the last handlers leaves -/

omit [GoLib] in
theorem riskScore_addDecision (ctx : Context) (d : Decision) :
    (ctx.addDecision d).riskScore = ctx.riskScore := by
  obtain ⟨-, phases, modules, h⟩ | ⟨-, current, -, h⟩ := ctx.addDecision_cases d <;> rw [h]

/-- What matters of a context after phase 1, next to its decision. -/
structure Context.SameRun (ctx ctx' : Context) : Prop extends Context.SameRequest ctx ctx' where
  ipRuleTerminal : ctx'.ipRuleTerminal = ctx.ipRuleTerminal
  challengePassed : ctx'.challengePassed = ctx.challengePassed
  riskScore : ctx'.riskScore = ctx.riskScore

omit [GoLib] in
theorem Context.SameRun.refl (ctx : Context) : SameRun ctx ctx :=
  ⟨.refl ctx, rfl, rfl, rfl⟩

omit [GoLib] in
theorem Context.SameRun.trans {a b c : Context} (h : SameRun a b) (h' : SameRun b c) :
    SameRun a c :=
  ⟨h.toSameRequest.trans h'.toSameRequest, h'.ipRuleTerminal.trans h.ipRuleTerminal,
    h'.challengePassed.trans h.challengePassed, h'.riskScore.trans h.riskScore⟩

omit [GoLib] in
theorem sameRun_addDecision (ctx : Context) (d : Decision) :
    Context.SameRun ctx (ctx.addDecision d) :=
  ⟨ctx.sameRequest_addDecision d, (ctx.addDecision_flags d).2.1, (ctx.addDecision_flags d).2.2,
    riskScore_addDecision ctx d⟩

omit [GoLib] in
theorem limited_spec (ctx : Context) (verdict : Option (Decision × List Effect)) :
    Context.SameRun ctx (ctx.limited verdict) ∧
      (ctx.limited verdict).currentDecision =
        settle ctx.currentDecision (verdict.map Prod.fst) ∧
      (ctx.limited verdict).hardDecision = (ctx.hardDecision || verdict.isSome) := by
  cases verdict with
  | none => exact ⟨.refl ctx, rfl, (Bool.or_false _).symm⟩
  | some verdict =>
    have hrun := sameRun_addDecision ctx verdict.1
    refine ⟨⟨⟨hrun.request, hrun.clientIP, hrun.country, hrun.asn, hrun.asnOrg,
      hrun.isDatacenter, hrun.appID, hrun.httpFingerprint, hrun.normalized⟩, hrun.ipRuleTerminal,
      hrun.challengePassed, hrun.riskScore⟩, ?_, (Bool.or_true _).symm⟩
    exact ctx.currentDecision_addDecision verdict.1

omit [GoLib] in
theorem cacheCheckHandler_spec (svc : HardRuleServices) {ctx : Context}
    (hterminal : ctx.ipRuleTerminal = false) (hpassed : ctx.challengePassed = false) :
    Context.SameRun ctx (cacheCheckHandler svc ctx) ∧
      (cacheCheckHandler svc ctx).currentDecision =
        settle ctx.currentDecision ((cacheGet svc ctx).map (·.decision)) ∧
      (cacheCheckHandler svc ctx).hardDecision = ctx.hardDecision := by
  obtain ⟨hsame, hhard, hterminal', hpassed'⟩ := cacheCheck_frame svc ctx
  refine ⟨⟨hsame, hterminal', hpassed', ?_⟩, ?_, hhard⟩
  · rw [cacheCheckHandler]
    split
    · rfl
    split
    · rfl
    · exact riskScore_addDecision ctx _
  · rw [cacheCheckHandler, if_neg (by simp [hterminal, hpassed])]
    cases cacheGet svc ctx with
    | none => rfl
    | some cached => exact ctx.currentDecision_addDecision cached.decision

theorem rulesEngineHandler_spec (svc : HardRuleServices) {ctx : Context}
    (hterminal : ctx.ipRuleTerminal = false) (hpassed : ctx.challengePassed = false) :
    Context.SameRun ctx (rulesEngineHandler svc ctx) ∧
      (rulesEngineHandler svc ctx).currentDecision =
        settle ctx.currentDecision ((scannedRules svc ctx).2.map (·.decision)) ∧
      (rulesEngineHandler svc ctx).hardDecision =
        (ctx.hardDecision || (scannedRules svc ctx).2.isSome) ∧
      ∀ name ∈ (scannedRules svc ctx).1, name ∈ (rulesEngineHandler svc ctx).skipModules := by
  rw [rulesEngineHandler, if_neg (by simp [hterminal]), scannedRules]
  cases svc.loadMergedRules ctx.ruleAppID with
  | error e => exact ⟨.refl ctx, rfl, (Bool.or_false _).symm, by simp⟩
  | ok rules =>
    dsimp only
    rw [if_neg (by simp [hpassed]), rulesLoop_eq]
    have hskipped : ∀ name ∈ (scanRules ctx.ruleContext rules).1,
        name ∈ (ctx.skipping (scanRules ctx.ruleContext rules).1).skipModules := fun name hmem =>
      Finset.mem_union_right _ (List.mem_toFinset.mpr hmem)
    cases hscan : (scanRules ctx.ruleContext rules).2 with
    | none =>
      exact ⟨⟨ctx.sameRequest_skipping _, rfl, rfl, rfl⟩, rfl, (Bool.or_false _).symm, hskipped⟩
    | some r =>
      have hlimited := limited_spec (ctx.skipping (scanRules ctx.ruleContext rules).1)
        (some (r.decision, cacheSet svc ctx r.action (str "custom_rule") r.reason))
      have hskip : r.decision.action ≠ .skip := scanRules_ne_skip hscan
      refine ⟨Context.SameRun.trans ⟨ctx.sameRequest_skipping _, rfl, rfl, rfl⟩ hlimited.1,
        hlimited.2.1, hlimited.2.2, fun name hmem => ?_⟩
      dsimp only
      rw [Context.decideHard, Context.addDecision_of_ne_skip hskip]
      exact hskipped name hmem

theorem scannedRules_sameRequest (svc : HardRuleServices) {ctx ctx' : Context}
    (h : Context.SameRequest ctx ctx') : scannedRules svc ctx' = scannedRules svc ctx := by
  rw [scannedRules, scannedRules, h.ruleAppID, h.ruleContext]

omit [GoLib] in
theorem cacheGet_sameRequest (svc : HardRuleServices) {ctx ctx' : Context}
    (h : Context.SameRequest ctx ctx') : cacheGet svc ctx' = cacheGet svc ctx := by
  rw [cacheGet, cacheGet, generateKey_sameRequest svc h]

/-- **After the limiters** the decision is resolved against the cached one and the first terminal
rule, and the modules of the skip rules are skipped. -/
theorem afterLimiters_spec (svc : HardRuleServices) {ctx : Context} (hsynced : ctx.Synced)
    (hterminal : ctx.ipRuleTerminal = false) (hpassed : ctx.challengePassed = false)
    (verdict : Option (Decision × List Effect)) :
    (afterLimiters svc ctx verdict).Synced ∧
      Context.SameRun ctx (afterLimiters svc ctx verdict) ∧
      (afterLimiters svc ctx verdict).currentDecision =
        resolved svc ctx (verdict.map Prod.fst) ∧
      (afterLimiters svc ctx verdict).hardDecision =
        (ctx.hardDecision || verdict.isSome || (scannedRules svc ctx).2.isSome) ∧
      ∀ name ∈ (scannedRules svc ctx).1, name ∈ (afterLimiters svc ctx verdict).skipModules := by
  obtain ⟨hlimited, hcurrent, hhard⟩ := limited_spec ctx verdict
  obtain ⟨hcached, hcurrent', hhard'⟩ := cacheCheckHandler_spec svc
    (hlimited.ipRuleTerminal.trans hterminal) (hlimited.challengePassed.trans hpassed)
  have hbefore := hlimited.trans hcached
  obtain ⟨hruled, hcurrent'', hhard'', hskipped⟩ := rulesEngineHandler_spec svc
    (hbefore.ipRuleTerminal.trans hterminal) (hbefore.challengePassed.trans hpassed)
  rw [scannedRules_sameRequest svc hbefore.toSameRequest] at hcurrent'' hhard'' hskipped
  refine ⟨?_, hbefore.trans hruled, ?_, ?_, hskipped⟩
  · exact (moves_rulesEngineHandler svc _).synced
      ((moves_cacheCheckHandler svc _).synced ((ctx.moves_limited verdict).synced hsynced))
  · rw [resolved, ← hcurrent, ← cacheGet_sameRequest svc hlimited.toSameRequest, ← hcurrent']
    exact hcurrent''
  · rw [← hhard, ← hhard']
    exact hhard''

/-! ### How a run ends -/

/-- The outcome of a decision and a total. -/
def Decision.outcome (d : Decision) (total : Int) : Outcome :=
  ⟨d.action, d.reason, total⟩

omit [GoLib] in
/-- After a hard decision nothing is scored. -/
theorem outcome_of_hard (svc : Services) {ctx : Context} (hsynced : ctx.Synced)
    (hnew : ctx.riskScore = RiskScore.new) (hhard : ctx.hardDecision = true) :
    (decidedFrom svc ctx).outcome = ctx.currentDecision.outcome 0 := by
  rw [decidedFrom, if_pos hhard, Context.outcome, hnew, hsynced.action, hsynced.reason]
  rfl

omit [GoLib] in
/-- The reasons of the decision engine begin with the total. -/
theorem head?_buildReason (rs : RiskScore) (score : Int) :
    (buildReason rs score).head? = some 0x74 := by
  have hname : str "total:" = 0x74 :: str "otal:" := by decide
  have hhead : ∀ parts : List GoString,
      ((str "|").intercalate ([str "total:" ++ itoa score] ++ parts)).head? = some 0x74 := by
    intro parts
    rw [hname]
    cases parts <;> simp [List.intercalate]
  rw [buildReason, List.append_assoc, List.append_assoc, List.append_assoc, List.append_assoc]
  exact hhead _

omit [GoLib] in
/-- A score that decides blocks or challenges. -/
private theorem three_le_rank_scoreAction {cfg : ScoringConfig} {score : Int}
    (h : scoreAction cfg score ≠ .none) : 3 ≤ getActionRank (scoreAction cfg score) := by
  rw [scoreAction] at h ⊢
  split_ifs at h ⊢ with hblock hchallenge
  · decide
  · decide
  · exact absurd rfl h

/-- The decision engine has nothing to put over a decision: it is a challenge or a block, or the
total is below the thresholds. -/
def Stands (svc : ScoringServices) (d : Decision) (total : Int) : Prop :=
  3 ≤ d.rank ∨ ∀ cfg ∈ svc.config, scoreAction cfg total = .none

omit [GoLib] in
/-- A request that phase 1 leaves open is scored. Its decision stands, or the decision engine puts a
severe one of its own over it. -/
theorem outcome_of_soft (svc : Services) {ctx : Context} (hsynced : ctx.Synced)
    (hnew : ctx.riskScore = RiskScore.new) (hsoft : ctx.hardDecision = false)
    (hterminal : ctx.ipRuleTerminal = false) :
    (Stands svc.toScoringServices ctx.currentDecision (scoredTotal svc.toScoringServices ctx) →
        (decidedFrom svc ctx).outcome =
          ctx.currentDecision.outcome (scoredTotal svc.toScoringServices ctx)) ∧
      (¬ Stands svc.toScoringServices ctx.currentDecision
          (scoredTotal svc.toScoringServices ctx) →
        3 ≤ getActionRank (decidedFrom svc ctx).outcome.action ∧
          (decidedFrom svc ctx).outcome.reason.head? = some 0x74) := by
  have htotal := weighScore_total svc.toScoringServices hsoft hterminal hnew
  obtain ⟨rs, status, hweighed⟩ := weighScore_frame svc.toScoringServices ctx
  rw [hweighed] at htotal
  rw [decidedFrom, if_neg (by simp [hsoft]), hweighed, decisionEngine,
    if_neg (by simp [Context.scored, hsoft])]
  have haction : (ctx.scored rs status).action = ctx.currentDecision.action := hsynced.action
  have hreason : (ctx.scored rs status).reason = ctx.currentDecision.reason := hsynced.reason
  rw [haction, ← htotal]
  have hself : (ctx.scored rs status).outcome =
      ctx.currentDecision.outcome (ctx.scored rs status).riskScore.total := by
    rw [Context.outcome, haction, hreason]
    rfl
  have hrank : ctx.currentDecision.action = .block ∨ ctx.currentDecision.action = .challenge ↔
      3 ≤ ctx.currentDecision.rank := by
    rw [Decision.rank]
    cases ctx.currentDecision.action <;> simp [getActionRank]
  rw [Stands, ← hrank]
  by_cases hheld : ctx.currentDecision.action = .block ∨ ctx.currentDecision.action = .challenge
  · rw [if_pos hheld]
    exact ⟨fun _ => hself, fun hnot => absurd (.inl hheld) hnot⟩
  · rw [if_neg hheld, or_iff_right hheld]
    cases svc.config with
    | none => exact ⟨fun _ => hself, fun hnot => absurd (by simp) hnot⟩
    | some cfg =>
      simp only [Option.mem_some_iff, forall_eq']
      by_cases hscore : scoreAction cfg (ctx.scored rs status).riskScore.total = .none
      · rw [if_pos hscore]
        exact ⟨fun _ => hself, fun hnot => absurd hscore hnot⟩
      · rw [if_neg hscore]
        refine ⟨fun hstands => absurd hstands hscore, fun _ => ?_⟩
        -- a score that decides outranks what is decided so far
        have hsevere := three_le_rank_scoreAction hscore
        have hskip : scoreAction cfg (ctx.scored rs status).riskScore.total ≠ .skip :=
          fun hskip => absurd (hskip ▸ hsevere) (by decide)
        have houtranks : ctx.currentDecision.rank <
            getActionRank (scoreAction cfg (ctx.scored rs status).riskScore.total) :=
          (not_le.mp (mt hrank.mpr hheld)).trans_le hsevere
        rw [Context.addDecision_of_ne_skip hskip]
        change 3 ≤ getActionRank (resolveDecision ctx.currentDecision _).action ∧
          (resolveDecision ctx.currentDecision _).reason.head? = _
        rw [resolveDecision_of_lt houtranks]
        exact ⟨hsevere, head?_buildReason _ _⟩

/-! ### Modules that score -/

/-- Modules that score; they come after the rules. -/
def Module.scores : Module → Bool
  | .waf | .bot | .ipReputation | .protocolAnomaly => true
  | .rateLimit | .flood => false

omit [GoLib] in
/-- A skipped module that scores contributes nothing. -/
theorem contributions_findings {m : Module} (hscores : m.scores = true) (svc other : Services)
    {ctx : Context} (hskip : m.name ∈ ctx.skipModules) :
    contributions (svc.findings other m).toScoringServices ctx =
      contributions svc.toScoringServices ctx := by
  have hskip' : ctx.shouldSkipModule m.name = true := decide_eq_true hskip
  cases m with
  | waf =>
    have hzero (s : ScoringServices) : wafContribution s ctx = 0 := if_pos (.inl hskip')
    unfold contributions
    rw [hzero, hzero]
    rfl
  | bot =>
    have hzero (s : ScoringServices) : botContribution s ctx = 0 := if_pos (.inr (.inl hskip'))
    unfold contributions
    rw [hzero, hzero]
    rfl
  | ipReputation =>
    have hzero (s : ScoringServices) : ipContribution s ctx = 0 := if_pos (.inl hskip')
    unfold contributions
    rw [hzero, hzero]
    rfl
  | protocolAnomaly =>
    have hzero (s : ScoringServices) : protocolContribution s ctx = 0 :=
      if_pos (.inr (.inl hskip'))
    unfold contributions
    rw [hzero, hzero]
    rfl
  | rateLimit => exact absurd hscores (by decide)
  | flood => exact absurd hscores (by decide)

/-- The modules skipped before the first terminal rule are modules of matched skip rules. -/
theorem scanRules_subset_skippedModules (ctx : RequestContext) (rules : List CompiledRule) :
    (scanRules ctx rules).1 ⊆ skippedModules ctx rules := by
  induction rules with
  | nil => exact List.Subset.refl _
  | cons r rules ih =>
    have hgrow : skippedModules ctx rules ⊆ skippedModules ctx (r :: rules) := by
      unfold skippedModules
      rw [List.filter_cons]
      split
      · rw [List.flatMap_cons]
        exact List.subset_append_right _ _
      · exact List.Subset.refl _
    rw [scanRules]
    split
    · rename_i hmatched
      split
      · exact List.nil_subset _
      split
      · rename_i hskip
        have hhead : skippedModules ctx (r :: rules) =
            r.skipModules ++ skippedModules ctx rules := by
          rw [skippedModules, List.filter_cons, if_pos (by simp [hmatched, hskip]),
            List.flatMap_cons]
          rfl
        rw [hhead]
        exact List.append_subset.mpr ⟨List.subset_append_left _ _,
          List.Subset.trans ih (List.subset_append_right _ _)⟩
      · exact List.Subset.trans ih hgrow
    · exact List.Subset.trans ih hgrow

/-- The rules are asked in phase 1: a request they leave open has the modules they skip. -/
theorem skipModules_of_soft {svc : HardRuleServices} {v : Visit} {m : Module}
    (h : Skips svc v.context m)
    (hsoft : (runPhase (phase1 svc) v.context.start).hardDecision = false) :
    m.name ∈ (runPhase (phase1 svc) v.context.start).skipModules ∧
      (runPhase (phase1 svc) v.context.start).ipRuleTerminal = false ∧
      (runPhase (phase1 svc) v.context.start).riskScore = RiskScore.new := by
  obtain ⟨rules, hload, hname⟩ := h
  obtain ⟨hterminal, hpassed, -, hnew⟩ := v.start_flags
  cases hip : matchedIPRule svc v.context.start with
  | some rule =>
    rw [phase1_ipRule hip] at hsoft
    exact absurd hsoft (by simp [Context.decideHard])
  | none =>
    cases hlevel : clearanceLevel svc v.context.start with
    | some level =>
      rw [phase1_cleared hterminal hlevel hip]
      refine ⟨?_, hterminal, hnew⟩
      -- with a clearance all skip rules are looked at
      have hskips : clearedSkips svc v.context.start =
          skippedModules v.context.start.ruleContext rules := by
        rw [clearedSkips]
        change (match svc.loadMergedRules v.context.ruleAppID with
          | .error _ => _
          | .ok rules => _) = _
        rw [hload]
      refine Finset.mem_union_right _ (List.mem_toFinset.mpr ?_)
      rw [hskips]
      exact scanRules_subset_skippedModules _ _ hname
    | none =>
      rw [phase1_open hlevel hip]
      obtain ⟨-, hrun, -, -, hskipped⟩ := afterLimiters_spec svc v.start_synced hterminal hpassed
        (limiterDecision svc v.context.start)
      refine ⟨hskipped _ ?_, hrun.ipRuleTerminal.trans hterminal, hrun.riskScore.trans hnew⟩
      rw [scannedRules]
      change m.name ∈ Prod.fst (match svc.loadMergedRules v.context.ruleAppID with
        | .error _ => _
        | .ok rules => _)
      rw [hload]
      exact hname

omit [GoLib] in
/-- The decision engine does not look at the status of the anomaly detector. -/
theorem outcome_decisionEngine_status (svc : ScoringServices) (ctx : Context) (rs : RiskScore)
    (st st' : Int) :
    (decisionEngine svc (ctx.scored rs st)).outcome =
      (decisionEngine svc (ctx.scored rs st')).outcome := by
  have hadd (d : Decision) : ((ctx.scored rs st).addDecision d).outcome =
      ((ctx.scored rs st').addDecision d).outcome := by
    unfold Context.addDecision
    split
    · dsimp only
      split <;> rfl
    · rfl
  rw [decisionEngine]
  change Context.outcome (if ctx.hardDecision then _ else if ctx.action = .block ∨
    ctx.action = .challenge then _ else _) = Context.outcome (if ctx.hardDecision then _ else if
    ctx.action = .block ∨ ctx.action = .challenge then _ else _)
  split
  · rfl
  split
  · rfl
  cases svc.config with
  | none => rfl
  | some cfg =>
    change Context.outcome (if scoreAction cfg rs.total = .none then _ else _) =
      Context.outcome (if scoreAction cfg rs.total = .none then _ else _)
    split
    · rfl
    · exact hadd _

/-- **Modules that score are exempted** by a skip rule. -/
theorem exempt_of_scoring {svc : Services} {v : Visit} {m : Module} (hscores : m.scores = true)
    (h : Skips svc.toHardRuleServices v.context m) : Exempt svc v.context m := by
  intro other other'
  have hhard (s : Services) : (svc.findings s m).toHardRuleServices = svc.toHardRuleServices := by
    cases m <;> first | rfl | exact absurd hscores (by decide)
  rw [outcome_execute, outcome_execute, hhard, hhard]
  have hskips := skipModules_of_soft h
  generalize runPhase (phase1 svc.toHardRuleServices) v.context.start = ctx at hskips
  cases hdecided : ctx.hardDecision with
  | true => rw [decidedFrom, decidedFrom, if_pos hdecided, if_pos hdecided]
  | false =>
    obtain ⟨hname, hterminal, hnew⟩ := hskips hdecided
    obtain ⟨st, hrun⟩ := phase2_eq (svc.findings other m).toScoringServices hdecided hterminal hnew
    obtain ⟨st', hrun'⟩ :=
      phase2_eq (svc.findings other' m).toScoringServices hdecided hterminal hnew
    rw [contributions_findings hscores svc other hname] at hrun
    rw [contributions_findings hscores svc other' hname] at hrun'
    have hengine (s : Services) : decisionEngine (svc.findings s m).toScoringServices =
        decisionEngine svc.toScoringServices := by
      cases m <;> rfl
    have hweigh (s : Services) : weighScore (svc.findings s m).toScoringServices =
        weighScore svc.toScoringServices := by
      cases m <;> rfl
    rw [decidedFrom, decidedFrom, if_neg (by simp [hdecided]), if_neg (by simp [hdecided]), hrun,
      hrun', hengine, hengine, hweigh, hweigh]
    exact outcome_decisionEngine_status _ ctx _ st st'

/-! ### The limiters -/

/-- What flood protection can decide under a configuration. -/
def floodFindings (cfg : RateLimitConfig) : List Decision :=
  [newDecision .challenge (str "flood") (str "flood_penalty_active")] ++
  (if cfg.attack.enabled then
    [newDecision (cfg.attack.actionOr .block) (str "flood") (str "attack_flood_exceeded")]
  else []) ++
  (if cfg.error.enabled then
    [newDecision (cfg.error.actionOr .challenge) (str "flood") (str "error_flood_exceeded")]
  else []) ++
  if cfg.basic.enabled then
    [newDecision (cfg.basic.actionOr .challenge) (str "flood") (str "basic_access_limit")]
  else []

/-- What the rate limit can decide under a configuration. -/
def rateLimitFindings (cfg : RateLimitConfig) : List Decision :=
  if cfg.basic.Off then []
  else [newDecision (cfg.basic.actionOr .block) (str "rate_limit") (str "rate_limit_exceeded")]

/-- What a module that limits can decide. -/
def limiterFindings (svc : HardRuleServices) : Module → List Decision
  | .flood => floodFindings svc.rateLimitConfig
  | .rateLimit => rateLimitFindings svc.rateLimitConfig
  | _ => []

/-- What the limiters decide when a module finds nothing. -/
def limitedOtherwise (svc : HardRuleServices) (ctx : Context) : Module → Option Decision
  | .flood => (rateLimitDecision svc ctx).map Prod.fst
  | _ => none

/-- A module that limits is asked: there is neither a clearance nor a rule of the access list; the
path is not excluded from flood protection, or the rate limit is on and flood protection has not
decided before it. -/
def Consulted (svc : HardRuleServices) (ctx : Context) : Module → Prop
  | .flood => clearanceLevel svc ctx = none ∧ matchedIPRule svc ctx = none ∧
      isExcluded ctx.request.path svc.rateLimitConfig = false
  | .rateLimit => clearanceLevel svc ctx = none ∧ matchedIPRule svc ctx = none ∧
      floodDecision svc ctx = none ∧ ¬ svc.rateLimitConfig.basic.Off
  | _ => False

omit [GoLib] in
/-- A verdict of flood protection is one of its findings. -/
theorem floodVerdict_mem_findings {svc : HardRuleServices} {ip : GoString} {d : Decision}
    {effects : List Effect} (h : floodVerdict svc ip = some (d, effects)) :
    d ∈ floodFindings svc.rateLimitConfig := by
  rw [floodFindings]
  simp only [List.mem_append]
  rcases floodVerdict_cases h with rfl | ⟨hattack, rfl⟩ | ⟨herror, rfl⟩ | ⟨hbasic, rfl⟩
  · exact .inl (.inl (.inl (List.mem_singleton_self _)))
  · rw [if_pos hattack]
    exact .inl (.inl (.inr (List.mem_singleton_self _)))
  · rw [if_pos herror]
    exact .inl (.inr (List.mem_singleton_self _))
  · rw [if_pos hbasic]
    exact .inr (List.mem_singleton_self _)

omit [GoLib] in
/-- Each finding is the verdict of some flood protector. -/
theorem exists_floodVerdict (svc : HardRuleServices) {d : Decision}
    (h : d ∈ floodFindings svc.rateLimitConfig) :
    ∃ flood, ∀ ip, (floodVerdict { svc with flood := flood } ip).map Prod.fst = some d := by
  rw [floodFindings] at h
  simp only [List.mem_append] at h
  rcases h with ((hpenalty | hattack) | herror) | hbasic
  · obtain rfl := List.mem_singleton.mp hpenalty
    exact ⟨⟨fun _ => true, fun _ => true, fun _ => true, fun _ => true⟩, fun ip => rfl⟩
  · refine ⟨⟨fun _ => false, fun _ => false, fun _ => true, fun _ => true⟩, fun ip => ?_⟩
    split at hattack
    · rename_i henabled
      obtain rfl := List.mem_singleton.mp hattack
      simp [floodVerdict, henabled]
    · exact absurd hattack (by simp)
  · refine ⟨⟨fun _ => false, fun _ => true, fun _ => false, fun _ => true⟩, fun ip => ?_⟩
    split at herror
    · rename_i henabled
      obtain rfl := List.mem_singleton.mp herror
      simp [floodVerdict, henabled]
    · exact absurd herror (by simp)
  · refine ⟨⟨fun _ => false, fun _ => true, fun _ => true, fun _ => false⟩, fun ip => ?_⟩
    split at hbasic
    · rename_i henabled
      obtain rfl := List.mem_singleton.mp hbasic
      simp [floodVerdict, henabled]
    · exact absurd hbasic (by simp)

omit [GoLib] in
/-- A flood protector that finds nothing. -/
theorem floodVerdict_quiet (svc : HardRuleServices) (ip : GoString) :
    floodVerdict { svc with
      flood := ⟨fun _ => false, fun _ => true, fun _ => true, fun _ => true⟩ } ip = none := by
  simp [floodVerdict]

/-- A request without flags is not let past the limiters. -/
theorem bypasses_visit (v : Visit) (moduleName : GoString) :
    v.context.start.bypasses moduleName = false := by
  rw [Visit.context_eq]
  rfl

/-- What the limiters decide, as far as flood protection goes. -/
private theorem limiterDecision_flood {svc : Services} {v : Visit}
    (h : Consulted svc.toHardRuleServices v.context.start .flood) (other : Services) :
    (limiterDecision (svc.findings other .flood).toHardRuleServices v.context.start).map Prod.fst =
      ((floodVerdict { svc.toHardRuleServices with flood := other.flood }
          v.context.start.clientIP).map Prod.fst).or
        (limitedOtherwise svc.toHardRuleServices v.context.start .flood) := by
  obtain ⟨hlevel, hip, hexcluded⟩ := h
  have hlevel' : clearanceLevel (svc.findings other .flood).toHardRuleServices v.context.start =
      none := hlevel
  have hip' : matchedIPRule (svc.findings other .flood).toHardRuleServices v.context.start =
      none := hip
  have hflood : floodDecision (svc.findings other .flood).toHardRuleServices v.context.start =
      floodVerdict { svc.toHardRuleServices with flood := other.flood }
        v.context.start.clientIP := by
    have hexcluded' : isExcluded v.context.start.request.path
        (svc.findings other .flood).rateLimitConfig = false := hexcluded
    rw [floodDecision, if_neg (by simp [bypasses_visit]), if_neg (by simp [hexcluded'])]
    rfl
  have hrate : rateLimitDecision (svc.findings other .flood).toHardRuleServices v.context.start =
      rateLimitDecision svc.toHardRuleServices v.context.start := rfl
  rw [limiterDecision_eq hlevel' hip', hflood, hrate, Option.map_or, limitedOtherwise]

/-- What the rate limit decides, given what the limiter answers. -/
private theorem rateLimitDecision_findings {svc : Services} {v : Visit} (other : Services) :
    (rateLimitDecision (svc.findings other .rateLimit).toHardRuleServices
        v.context.start).map Prod.fst =
      if svc.rateLimitConfig.basic.Off ∨ (other.allow v.context.start.ruleAppID
          v.context.start.clientIP v.context.start.request.userAgent).1 = true then none
      else some (newDecision (svc.rateLimitConfig.basic.actionOr .block) (str "rate_limit")
        (str "rate_limit_exceeded")) := by
  rw [rateLimitDecision, if_neg (by simp [bypasses_visit])]
  have hallow : (svc.findings other .rateLimit).toHardRuleServices.allow v.context.start.ruleAppID
      v.context.start.clientIP v.context.start.request.userAgent =
        svc.rateLimitConfig.basic.answer (other.allow v.context.start.ruleAppID
          v.context.start.clientIP v.context.start.request.userAgent).1 := rfl
  rw [hallow, RateLimitProfile.answer]
  by_cases hoff : svc.rateLimitConfig.basic.Off
  · rw [if_pos hoff, if_pos (.inl hoff)]
    rfl
  · rw [if_neg hoff]
    simp only [hoff, false_or]
    cases (other.allow v.context.start.ruleAppID v.context.start.clientIP
      v.context.start.request.userAgent).1 with
    | true => rfl
    | false => rfl

/-- What the limiters decide, as far as the rate limit goes. -/
private theorem limiterDecision_rateLimit {svc : Services} {v : Visit}
    (hlevel : clearanceLevel svc.toHardRuleServices v.context.start = none)
    (hip : matchedIPRule svc.toHardRuleServices v.context.start = none)
    (hflood : floodDecision svc.toHardRuleServices v.context.start = none) (other : Services) :
    limiterDecision (svc.findings other .rateLimit).toHardRuleServices v.context.start =
      rateLimitDecision (svc.findings other .rateLimit).toHardRuleServices v.context.start := by
  have hlevel' : clearanceLevel (svc.findings other .rateLimit).toHardRuleServices
      v.context.start = none := hlevel
  have hip' : matchedIPRule (svc.findings other .rateLimit).toHardRuleServices v.context.start =
      none := hip
  have hflood' : floodDecision (svc.findings other .rateLimit).toHardRuleServices
      v.context.start = none := hflood
  rw [limiterDecision_eq hlevel' hip', hflood', Option.none_or]

/-- **The findings of a module that limits**: the limiters decide one of them, or what they decide
without the module, and each of these is possible. -/
theorem limiterDecision_range {svc : Services} {v : Visit} {m : Module}
    (h : Consulted svc.toHardRuleServices v.context.start m) (limited : Option Decision) :
    (∃ other, (limiterDecision (svc.findings other m).toHardRuleServices
        v.context.start).map Prod.fst = limited) ↔
      limited = limitedOtherwise svc.toHardRuleServices v.context.start m ∨
        ∃ d ∈ limiterFindings svc.toHardRuleServices m, limited = some d := by
  cases m with
  | flood =>
    simp only [limiterDecision_flood h]
    constructor
    · rintro ⟨other, rfl⟩
      cases hverdict : floodVerdict { svc.toHardRuleServices with flood := other.flood }
          v.context.start.clientIP with
      | none => exact .inl rfl
      | some verdict =>
        obtain ⟨d, effects⟩ := verdict
        have hmem := floodVerdict_mem_findings hverdict
        exact .inr ⟨d, hmem, rfl⟩
    · rintro (rfl | ⟨d, hd, rfl⟩)
      · refine ⟨{ svc with
          flood := ⟨fun _ => false, fun _ => true, fun _ => true, fun _ => true⟩ }, ?_⟩
        rw [floodVerdict_quiet]
        rfl
      · obtain ⟨flood, hflood⟩ := exists_floodVerdict svc.toHardRuleServices hd
        refine ⟨{ svc with flood := flood }, ?_⟩
        rw [hflood]
        rfl
  | rateLimit =>
    obtain ⟨hlevel, hip, hflood, hon⟩ := h
    simp only [limiterDecision_rateLimit hlevel hip hflood, rateLimitDecision_findings,
      or_iff_right hon, limiterFindings, rateLimitFindings, if_neg hon, List.mem_singleton,
      exists_eq_left]
    constructor
    · rintro ⟨other, rfl⟩
      split
      · exact .inl rfl
      · exact .inr rfl
    · rintro (rfl | rfl)
      · exact ⟨{ svc with allow := fun _ _ _ => (true, .none) }, if_pos rfl⟩
      · exact ⟨{ svc with allow := fun _ _ _ => (false, .none) }, if_neg Bool.false_ne_true⟩
  | waf => exact absurd h id
  | bot => exact absurd h id
  | ipReputation => exact absurd h id
  | protocolAnomaly => exact absurd h id

omit [GoLib] in
/-- Each module that is asked can find something, and gives a reason that no scoring gives. -/
theorem exists_finding {svc : HardRuleServices} {m : Module} {ctx : Context}
    (h : Consulted svc ctx m) : ∃ d ∈ limiterFindings svc m, d.reason.head? ≠ some 0x74 := by
  cases m with
  | flood =>
    refine ⟨newDecision .challenge (str "flood") (str "flood_penalty_active"), ?_, by decide⟩
    change _ ∈ floodFindings svc.rateLimitConfig
    simp [floodFindings]
  | rateLimit =>
    refine ⟨newDecision (svc.rateLimitConfig.basic.actionOr .block) (str "rate_limit")
      (str "rate_limit_exceeded"), ?_, ?_⟩
    · rw [limiterFindings, rateLimitFindings, if_neg h.2.2.2]
      exact List.mem_singleton_self _
    · change (str "rate_limit_exceeded").head? ≠ some 0x74
      decide
  | waf => exact absurd h id
  | bot => exact absurd h id
  | ipReputation => exact absurd h id
  | protocolAnomaly => exact absurd h id

/-! ### When a module that limits is exempted -/

/-- The findings of a module that limits make no difference. -/
structure FindingsOutweighed (svc : Services) (ctx : Context) (m : Module) : Prop where
  /-- Each is resolved like no finding. -/
  decision : ∀ d ∈ limiterFindings svc.toHardRuleServices m,
    (resolved svc.toHardRuleServices ctx (some d)).outcome 0 =
      (resolved svc.toHardRuleServices ctx
        (limitedOtherwise svc.toHardRuleServices ctx m)).outcome 0
  /-- Without a finding there is a hard decision as well, or the modules that score find nothing and
  the decision stands. -/
  score : (limitedOtherwise svc.toHardRuleServices ctx m).isSome = true ∨
    (scannedRules svc.toHardRuleServices ctx).2.isSome = true ∨
    scoredTotal svc.toScoringServices
        (ctx.skipping (scannedRules svc.toHardRuleServices ctx).1) = 0 ∧
      Stands svc.toScoringServices (resolved svc.toHardRuleServices ctx none) 0

omit [GoLib] in
/-- A decision without phases and modules to skip changes the decision alone. -/
theorem addDecision_newDecision (ctx : Context) (action : Action) (source reason : GoString) :
    ∃ current action' reason', ctx.addDecision (newDecision action source reason) =
      { ctx with currentDecision := current, action := action', reason := reason' } := by
  by_cases hskip : (newDecision action source reason).action = .skip
  · refine ⟨ctx.currentDecision, ctx.action, ctx.reason, ?_⟩
    rw [Context.addDecision, if_pos hskip]
    simp [newDecision]
  · exact ⟨_, _, _, Context.addDecision_of_ne_skip hskip⟩

/-- What is scored when neither a limiter nor a rule decides. -/
private theorem scoredTotal_afterLimiters (svc : Services) {ctx : Context}
    (hterminal : ctx.ipRuleTerminal = false) (hpassed : ctx.challengePassed = false)
    (hrule : (scannedRules svc.toHardRuleServices ctx).2 = none) :
    scoredTotal svc.toScoringServices (afterLimiters svc.toHardRuleServices ctx none) =
      scoredTotal svc.toScoringServices
        (ctx.skipping (scannedRules svc.toHardRuleServices ctx).1) := by
  generalize svc.toHardRuleServices = s at *
  -- the cache leaves everything but the decision
  have hcached : ∃ current action reason hit, cacheCheckHandler s ctx =
      { ctx with
        currentDecision := current, action := action, reason := reason, cacheHit := hit } := by
    rw [cacheCheckHandler, if_neg (by simp [hterminal, hpassed])]
    cases cacheGet s ctx with
    | none => exact ⟨ctx.currentDecision, ctx.action, ctx.reason, ctx.cacheHit, rfl⟩
    | some cached =>
      obtain ⟨current, action, reason, hadd⟩ :=
        addDecision_newDecision ctx cached.action cached.source cached.reason
      refine ⟨current, action, reason, true, ?_⟩
      dsimp only
      rw [CachedDecision.decision, hadd]
  obtain ⟨current, action, reason, hit, hcached⟩ := hcached
  have hsame := (cacheCheck_frame s ctx).1
  rw [← scannedRules_sameRequest s hsame] at hrule ⊢
  rw [afterLimiters, Context.limited]
  rw [hcached] at hrule ⊢
  rw [rulesEngineHandler, if_neg (by simp [hterminal])]
  rw [scannedRules] at hrule ⊢
  cases hload : s.loadMergedRules (Context.ruleAppID { ctx with
      currentDecision := current, action := action, reason := reason, cacheHit := hit }) with
  | error e =>
    dsimp only
    rw [Context.skipping_nil]
    rfl
  | ok rules =>
    rw [hload] at hrule
    dsimp only at hrule ⊢
    rw [if_neg (by simp [hpassed]), rulesLoop_eq, hrule]
    rfl

/-- The outcome of an open request, given what the limiters decide. -/
private theorem outcome_open (svc : Services) (v : Visit)
    (verdict : Option (Decision × List Effect)) :
    let ctx := v.context.start
    let after := decidedFrom svc (afterLimiters svc.toHardRuleServices ctx verdict)
    let d := resolved svc.toHardRuleServices ctx (verdict.map Prod.fst)
    let total := scoredTotal svc.toScoringServices
      (ctx.skipping (scannedRules svc.toHardRuleServices ctx).1)
    (verdict.isSome = true ∨ (scannedRules svc.toHardRuleServices ctx).2.isSome = true →
      after.outcome = d.outcome 0) ∧
    (verdict = none → (scannedRules svc.toHardRuleServices ctx).2 = none →
      (Stands svc.toScoringServices d total → after.outcome = d.outcome total) ∧
      (¬ Stands svc.toScoringServices d total → 3 ≤ getActionRank after.outcome.action ∧
        after.outcome.reason.head? = some 0x74)) := by
  intro ctx after d total
  obtain ⟨hterminal, hpassed, hsoft, hnew⟩ := v.start_flags
  obtain ⟨hsynced', hrun, hcurrent, hhard, -⟩ :=
    afterLimiters_spec svc.toHardRuleServices v.start_synced hterminal hpassed verdict
  rw [hsoft, Bool.false_or] at hhard
  constructor
  · intro h
    rw [← Bool.or_eq_true, ← hhard] at h
    have hend := outcome_of_hard svc hsynced' (hrun.riskScore.trans hnew) h
    rw [hcurrent] at hend
    exact hend
  · intro hnone hrule
    have hopen : (afterLimiters svc.toHardRuleServices ctx verdict).hardDecision = false := by
      rw [hhard, hnone, hrule]
      rfl
    have hends := outcome_of_soft svc hsynced' (hrun.riskScore.trans hnew) hopen
      (hrun.ipRuleTerminal.trans hterminal)
    have htotal : scoredTotal svc.toScoringServices
        (afterLimiters svc.toHardRuleServices ctx verdict) = total := by
      rw [hnone]
      exact scoredTotal_afterLimiters svc hterminal hpassed hrule
    rw [hcurrent, htotal] at hends
    exact hends

omit [GoLib] in
theorem rank_settle (current : Decision) (last : Option Decision) :
    (settle current last).rank = max current.rank ((last.map Decision.rank).getD 0) := by
  cases last with
  | none => exact (Nat.max_zero _).symm
  | some last => exact rank_resolveDecision current last

/-- The decision after phase 1 has the highest rank of all. -/
theorem rank_resolved_some (svc : HardRuleServices) (ctx : Context) (d : Decision) :
    (resolved svc ctx (some d)).rank = max d.rank (resolved svc ctx none).rank := by
  simp only [resolved, rank_settle, Option.map_some, Option.map_none, Option.getD_some,
    Option.getD_none, Nat.max_zero]
  rw [max_comm ctx.currentDecision.rank, max_assoc, max_assoc, max_assoc]

/-- A severe decision prevails over a request that is not held. -/
private theorem resolved_of_severe {svc : HardRuleServices} {ctx : Context} {d : Decision}
    (hsevere : 3 ≤ d.rank) (hrule : (scannedRules svc ctx).2 = none)
    (hlow : (resolved svc ctx none).rank < 3) : resolved svc ctx (some d) = d := by
  rw [resolved, hrule, Option.map_none] at hlow ⊢
  change (settle ctx.currentDecision ((cacheGet svc ctx).map (·.decision))).rank < 3 at hlow
  change settle (settle ctx.currentDecision (some d)) ((cacheGet svc ctx).map (·.decision)) = d
  cases hcached : (cacheGet svc ctx).map (·.decision) with
  | none =>
    rw [hcached, settle] at hlow
    exact resolveDecision_of_lt (hlow.trans_le hsevere)
  | some cached =>
    rw [hcached, settle, rank_resolveDecision, max_lt_iff] at hlow
    have hfirst : settle ctx.currentDecision (some d) = d :=
      resolveDecision_of_lt (hlow.1.trans_le hsevere)
    rw [hfirst]
    exact resolveDecision_of_le (hlow.2.le.trans hsevere)

/-! ### What the findings of a module leave alone -/

omit [GoLib] in
private theorem matchedIPRule_findings (svc other : Services) (m : Module) (ctx : Context) :
    matchedIPRule (svc.findings other m).toHardRuleServices ctx =
      matchedIPRule svc.toHardRuleServices ctx := by
  cases m <;> rfl

omit [GoLib] in
private theorem clearanceLevel_findings (svc other : Services) (m : Module) (ctx : Context) :
    clearanceLevel (svc.findings other m).toHardRuleServices ctx =
      clearanceLevel svc.toHardRuleServices ctx := by
  cases m <;> rfl

omit [GoLib] in
private theorem challengeValidator_findings (svc other : Services) (m : Module) :
    challengeValidator (svc.findings other m).toHardRuleServices =
      challengeValidator svc.toHardRuleServices := by
  cases m <;> rfl

private theorem clearedContext_findings (svc other : Services) (m : Module) (ctx : Context)
    (level : Int64) :
    clearedContext (svc.findings other m).toHardRuleServices ctx level =
      clearedContext svc.toHardRuleServices ctx level := by
  cases m <;> rfl

omit [GoLib] in
/-- What comes after phase 1 does not ask the modules that limit. -/
private theorem decidedFrom_findings {m : Module} (hlimits : m.scores = false)
    (svc other : Services) : decidedFrom (svc.findings other m) = decidedFrom svc := by
  cases m with
  | flood => rfl
  | rateLimit => rfl
  | waf => exact absurd hlimits (by decide)
  | bot => exact absurd hlimits (by decide)
  | ipReputation => exact absurd hlimits (by decide)
  | protocolAnomaly => exact absurd hlimits (by decide)

/-- The rules are the same whatever the limiters find. -/
private theorem rulesEngineHandler_findings (svc other : Services) (m : Module) (ctx : Context) :
    rulesEngineHandler (svc.findings other m).toHardRuleServices ctx =
      rulesEngineHandler svc.toHardRuleServices ctx := by
  have hload : (svc.findings other m).loadMergedRules = svc.loadMergedRules := by
    cases m <;> rfl
  have hstore : cacheSet (svc.findings other m).toHardRuleServices =
      cacheSet svc.toHardRuleServices := by
    cases m <;> rfl
  unfold rulesEngineHandler
  rw [hload]
  split
  · rfl
  split
  · rfl
  split
  · rfl
  · rw [rulesLoop_eq, rulesLoop_eq, hstore]

/-- An open request ends as the limiters decide. -/
private theorem outcome_findings {svc : Services} {v : Visit} {m : Module}
    (hlevel : clearanceLevel svc.toHardRuleServices v.context.start = none)
    (hip : matchedIPRule svc.toHardRuleServices v.context.start = none)
    (hlimits : m.scores = false) (other : Services) :
    (execute (svc.findings other m) v.context).1.outcome =
      (decidedFrom svc (afterLimiters svc.toHardRuleServices v.context.start
        (limiterDecision (svc.findings other m).toHardRuleServices v.context.start))).outcome := by
  rw [outcome_execute, phase1_open ((clearanceLevel_findings ..).trans hlevel)
    ((matchedIPRule_findings ..).trans hip), afterLimiters, rulesEngineHandler_findings,
    afterLimiters, decidedFrom_findings hlimits]
  -- the cache is behind the limiters, and asks none of them
  have hcache : cacheCheckHandler (svc.findings other m).toHardRuleServices =
      cacheCheckHandler svc.toHardRuleServices := by
    cases m <;> rfl
  rw [hcache]

omit [GoLib] in
theorem Consulted.open {svc : HardRuleServices} {ctx : Context} {m : Module}
    (h : Consulted svc ctx m) :
    clearanceLevel svc ctx = none ∧ matchedIPRule svc ctx = none ∧ m.scores = false := by
  cases m with
  | flood => exact ⟨h.1, h.2.1, rfl⟩
  | rateLimit => exact ⟨h.1, h.2.1, rfl⟩
  | waf => exact absurd h id
  | bot => exact absurd h id
  | ipReputation => exact absurd h id
  | protocolAnomaly => exact absurd h id

/-- A module without an effect: every finding of it is resolved like the run that has none. -/
private theorem outcome_eq_of_exempt {svc : Services} {v : Visit} {m : Module}
    (h : Consulted svc.toHardRuleServices v.context.start m) (hexempt : Exempt svc v.context m)
    {d : Decision} (hd : d ∈ limiterFindings svc.toHardRuleServices m) (quiet : Services) :
    (resolved svc.toHardRuleServices v.context.start (some d)).outcome 0 =
      (decidedFrom svc (afterLimiters svc.toHardRuleServices v.context.start
        (limiterDecision (svc.findings quiet m).toHardRuleServices v.context.start))).outcome := by
  obtain ⟨hlevel, hip, hlimits⟩ := h.open
  obtain ⟨other, hother⟩ := (limiterDecision_range h _).mpr (.inr ⟨d, hd, rfl⟩)
  obtain ⟨verdict, hverdict, -⟩ := Option.map_eq_some_iff.mp hother
  have houtcome := (outcome_open svc v
    (limiterDecision (svc.findings other m).toHardRuleServices v.context.start)).1
    (.inl (by rw [hverdict]; rfl))
  rw [hother] at houtcome
  rw [← houtcome, ← outcome_findings hlevel hip hlimits, ← outcome_findings hlevel hip hlimits]
  exact hexempt other quiet

/-- A module that is asked and makes no difference has its findings outweighed. -/
private theorem outweighed_of_exempt {svc : Services} {v : Visit} {m : Module}
    (h : Consulted svc.toHardRuleServices v.context.start m) (hexempt : Exempt svc v.context m) :
    FindingsOutweighed svc v.context.start m := by
  -- all findings end like the run in which the module finds nothing
  obtain ⟨quiet, hquiet⟩ := (limiterDecision_range h _).mpr (.inl rfl)
  have hsame := fun d hd => outcome_eq_of_exempt (d := d) h hexempt hd quiet
  obtain ⟨hhard, hsoft⟩ := outcome_open svc v
    (limiterDecision (svc.findings quiet m).toHardRuleServices v.context.start)
  rw [hquiet] at hhard hsoft
  by_cases hother : (limiterDecision (svc.findings quiet m).toHardRuleServices
      v.context.start).isSome = true ∨
    (scannedRules svc.toHardRuleServices v.context.start).2.isSome = true
  · simp only [hhard hother] at hsame
    refine ⟨hsame, ?_⟩
    rw [← hquiet, Option.isSome_map]
    exact hother.imp id .inl
  · simp only [not_or, Bool.not_eq_true, Option.isSome_eq_false_iff,
      Option.isNone_iff_eq_none] at hother
    obtain ⟨hnone, hrule⟩ := hother
    have hotherwise : limitedOtherwise svc.toHardRuleServices v.context.start m = none := by
      rw [← hquiet, hnone]
      rfl
    obtain ⟨hstands, hover⟩ := hsoft hnone hrule
    rw [hotherwise] at hstands hover
    obtain ⟨d, hd, hreason⟩ := exists_finding h
    -- a decision that does not stand gives way to a severe one with a reason of the scoring
    have hheld : Stands svc.toScoringServices
        (resolved svc.toHardRuleServices v.context.start none)
        (scoredTotal svc.toScoringServices (v.context.start.skipping
          (scannedRules svc.toHardRuleServices v.context.start).1)) := by
      by_contra hnot
      obtain ⟨hsevere, hhead⟩ := hover hnot
      rw [← hsame d hd] at hsevere hhead
      have hlow : (resolved svc.toHardRuleServices v.context.start none).rank < 3 :=
        not_le.mp fun hrank => hnot (.inl hrank)
      change 3 ≤ (resolved svc.toHardRuleServices v.context.start (some d)).rank at hsevere
      rw [rank_resolved_some, le_max_iff] at hsevere
      have hprevails := resolved_of_severe (hsevere.resolve_right (not_le.mpr hlow)) hrule hlow
      rw [hprevails] at hhead
      exact hreason hhead
    simp only [hstands hheld] at hsame
    have htotal : scoredTotal svc.toScoringServices (v.context.start.skipping
        (scannedRules svc.toHardRuleServices v.context.start).1) = 0 :=
      (congrArg Outcome.total (hsame d hd)).symm
    rw [htotal, ← hotherwise] at hsame
    rw [htotal] at hheld
    exact ⟨hsame, .inr (.inr ⟨htotal, hheld⟩)⟩

/-- Whatever a module finds whose findings are outweighed, the request ends as without it. -/
private theorem outcome_of_outweighed {svc : Services} {v : Visit} {m : Module}
    (h : Consulted svc.toHardRuleServices v.context.start m)
    (hout : FindingsOutweighed svc v.context.start m) (other : Services) :
    (execute (svc.findings other m) v.context).1.outcome =
      (resolved svc.toHardRuleServices v.context.start
        (limitedOtherwise svc.toHardRuleServices v.context.start m)).outcome 0 := by
  obtain ⟨hlevel, hip, hlimits⟩ := h.open
  rw [outcome_findings hlevel hip hlimits]
  obtain ⟨hhard, hsoft⟩ := outcome_open svc v
    (limiterDecision (svc.findings other m).toHardRuleServices v.context.start)
  rcases (limiterDecision_range h _).mp ⟨other, rfl⟩ with hquiet | ⟨d, hd, hfinding⟩
  -- the module finds nothing: a hard decision is made all the same, or nothing is scored
  · rw [hquiet] at hhard hsoft
    by_cases hother : (limiterDecision (svc.findings other m).toHardRuleServices
        v.context.start).isSome = true ∨
      (scannedRules svc.toHardRuleServices v.context.start).2.isSome = true
    · exact hhard hother
    · simp only [not_or, Bool.not_eq_true, Option.isSome_eq_false_iff,
        Option.isNone_iff_eq_none] at hother
      have hotherwise : limitedOtherwise svc.toHardRuleServices v.context.start m = none := by
        rw [← hquiet, hother.1]
        rfl
      have hstands := (hsoft hother.1 hother.2).1
      rw [hotherwise] at hstands ⊢
      rcases hout.score with hsome | hsome | ⟨htotal, hheld⟩
      · exact absurd hsome (by simp [hotherwise])
      · exact absurd hsome (by simp [hother.2])
      · rw [htotal] at hstands
        exact hstands hheld
  -- the module finds something, which is resolved as if it had not
  · rw [hfinding] at hhard
    obtain ⟨verdict, hverdict, -⟩ := Option.map_eq_some_iff.mp hfinding
    rw [hhard (.inl (by rw [hverdict]; rfl)), hout.decision d hd]

/-- **A module that limits and is asked** makes no difference exactly when its findings are
outweighed. -/
theorem exempt_limiter_iff {svc : Services} {v : Visit} {m : Module}
    (h : Consulted svc.toHardRuleServices v.context.start m) :
    Exempt svc v.context m ↔ FindingsOutweighed svc v.context.start m := by
  constructor
  · exact outweighed_of_exempt h
  · intro hout other other'
    rw [outcome_of_outweighed h hout other, outcome_of_outweighed h hout other']

/-- A matching access rule ends phase 1 before any module is asked. -/
private theorem exempt_of_ipRule {svc : Services} {v : Visit} {m : Module} {rule : IPAccessRule}
    (hlimits : m.scores = false)
    (hip : matchedIPRule svc.toHardRuleServices v.context.start = some rule) :
    Exempt svc v.context m := by
  have hends (other : Services) : (execute (svc.findings other m) v.context).1.outcome =
      (execute svc v.context).1.outcome := by
    rw [outcome_execute, outcome_execute, phase1_ipRule hip,
      phase1_ipRule ((matchedIPRule_findings ..).trans hip), decidedFrom_findings hlimits,
      challengeValidator_findings]
  exact fun other other' => (hends other).trans (hends other').symm

/-- A visitor with a clearance passes the modules that limit. -/
private theorem exempt_of_cleared {svc : Services} {v : Visit} {m : Module} {level : Int64}
    (hlimits : m.scores = false)
    (hip : matchedIPRule svc.toHardRuleServices v.context.start = none)
    (hlevel : clearanceLevel svc.toHardRuleServices v.context.start = some level) :
    Exempt svc v.context m := by
  obtain ⟨hterminal, -⟩ := v.start_flags
  have hends (other : Services) : (execute (svc.findings other m) v.context).1.outcome =
      (execute svc v.context).1.outcome := by
    rw [outcome_execute, outcome_execute, phase1_cleared hterminal hlevel hip,
      phase1_cleared hterminal ((clearanceLevel_findings ..).trans hlevel)
        ((matchedIPRule_findings ..).trans hip),
      decidedFrom_findings hlimits, clearedContext_findings]
  exact fun other other' => (hends other).trans (hends other').symm

/-- The limiters decide the same about an open request whatever a module finds that they do not
ask. -/
private theorem limiterDecision_of_not_consulted {svc : Services} {v : Visit} {m : Module}
    (hlevel : clearanceLevel svc.toHardRuleServices v.context.start = none)
    (hip : matchedIPRule svc.toHardRuleServices v.context.start = none)
    (hlimits : m.scores = false)
    (h : ¬ Consulted svc.toHardRuleServices v.context.start m) (other other' : Services) :
    limiterDecision (svc.findings other m).toHardRuleServices v.context.start =
      limiterDecision (svc.findings other' m).toHardRuleServices v.context.start := by
  rw [limiterDecision_eq ((clearanceLevel_findings ..).trans hlevel)
      ((matchedIPRule_findings ..).trans hip),
    limiterDecision_eq ((clearanceLevel_findings ..).trans hlevel)
      ((matchedIPRule_findings ..).trans hip)]
  cases m with
  | flood =>
    -- only an excluded path keeps flood protection from being asked
    have hexcluded : isExcluded v.context.start.request.path svc.rateLimitConfig = true := by
      by_contra hexcluded
      exact h ⟨hlevel, hip, Bool.eq_false_iff.mpr hexcluded⟩
    have hflood (s : Services) : floodDecision (svc.findings s .flood).toHardRuleServices
        v.context.start = none := by
      have hexcluded' : isExcluded v.context.start.request.path
          (svc.findings s .flood).rateLimitConfig = true := hexcluded
      rw [floodDecision, if_neg (by simp [bypasses_visit]), if_pos hexcluded']
    rw [hflood, hflood]
    rfl
  | rateLimit =>
    by_cases hflood : floodDecision svc.toHardRuleServices v.context.start = none
    · -- the rate limit is off, and decides nothing
      have hoff : svc.rateLimitConfig.basic.Off := by
        by_contra hon
        exact h ⟨hlevel, hip, hflood, hon⟩
      have hnone (s : Services) : rateLimitDecision (svc.findings s .rateLimit).toHardRuleServices
          v.context.start = none :=
        Option.map_eq_none_iff.mp ((rateLimitDecision_findings s).trans (if_pos (.inl hoff)))
      rw [hnone, hnone]
      rfl
    · -- flood protection has decided, and the rate limit comes after it
      obtain ⟨verdict, hverdict⟩ := Option.ne_none_iff_exists'.mp hflood
      have hfirst (s : Services) : floodDecision (svc.findings s .rateLimit).toHardRuleServices
          v.context.start = some verdict := hverdict
      rw [hfirst, hfirst, Option.some_or, Option.some_or]
  | waf => exact absurd hlimits (by decide)
  | bot => exact absurd hlimits (by decide)
  | ipReputation => exact absurd hlimits (by decide)
  | protocolAnomaly => exact absurd hlimits (by decide)

/-- A module that limits and is not asked makes no difference. -/
theorem exempt_of_not_consulted {svc : Services} {v : Visit} {m : Module}
    (hlimits : m.scores = false)
    (h : ¬ Consulted svc.toHardRuleServices v.context.start m) : Exempt svc v.context m := by
  cases hip : matchedIPRule svc.toHardRuleServices v.context.start with
  | some rule => exact exempt_of_ipRule hlimits hip
  | none =>
    cases hlevel : clearanceLevel svc.toHardRuleServices v.context.start with
    | some level => exact exempt_of_cleared hlimits hip hlevel
    | none =>
      intro other other'
      rw [outcome_findings hlevel hip hlimits other, outcome_findings hlevel hip hlimits other',
        limiterDecision_of_not_consulted hlevel hip hlimits h other other']

/-- **When a skip rule exempts a request from a module it names**: always, if the module scores; if
it limits, unless it is asked before the rule and its findings are not outweighed. -/
theorem skip_exempts_iff {svc : Services} {v : Visit} {m : Module}
    (h : Skips svc.toHardRuleServices v.context m) :
    Exempt svc v.context m ↔
      (Consulted svc.toHardRuleServices v.context.start m →
        FindingsOutweighed svc v.context.start m) := by
  cases hscores : m.scores with
  | true =>
    refine iff_of_true (exempt_of_scoring hscores h) fun hconsulted => ?_
    rw [hconsulted.open.2.2] at hscores
    exact absurd hscores Bool.false_ne_true
  | false =>
    by_cases hconsulted : Consulted svc.toHardRuleServices v.context.start m
    · rw [exempt_limiter_iff hconsulted]
      exact ⟨fun hout _ => hout, fun hout => hout hconsulted⟩
    · exact iff_of_true (exempt_of_not_consulted hscores hconsulted)
        fun h' => absurd h' hconsulted

end Exemption

/-! ### A skip rule for flood protection -/

section Evaluated

attribute [local instance] asciiLib

/-- A rule that exempts the front page from flood protection. -/
def skipFloodRule : CompiledRule :=
  { frontPageRule with action := .skip, skipModules := [str "flood"] }

/-- Services with that rule. -/
def skippingServices : Services where
  toHardRuleServices :=
    { quietServices.toHardRuleServices with loadMergedRules := fun _ => .ok [skipFloodRule] }
  toScoringServices := quietServices.toScoringServices

private theorem skipFlood_skips :
    Skips skippingServices.toHardRuleServices plainVisit.context .flood :=
  ⟨[skipFloodRule], rfl, by decide⟩

theorem skip_exempts_iff_flood :
    Skips skippingServices.toHardRuleServices plainVisit.context .flood ∧
      (Exempt skippingServices plainVisit.context .flood ↔
        (Consulted skippingServices.toHardRuleServices plainVisit.context.start .flood →
          FindingsOutweighed skippingServices plainVisit.context.start .flood)) :=
  ⟨skipFlood_skips, skip_exempts_iff skipFlood_skips⟩

/-- The rule comes too late: an address under a penalty is challenged, and another is not. -/
theorem skip_flood_late :
    ¬ ∀ (svc : Services) (v : Visit) (m : Module),
      Skips svc.toHardRuleServices v.context m → Exempt svc v.context m := by
  intro h
  have hsame := h skippingServices plainVisit .flood skipFlood_skips floodedServices quietServices
  revert hsame
  decide

end Evaluated

end VibesWaf

import VibesWaf.Pipeline.Total

/-!
# Who gets a response

After the pipeline a visitor has either been sent a block or a challenge page, or the request is
forwarded. `forwarded` is the test of the request handler for the second. The two miss a visitor
with a clearance whose action is a challenge: the challenge handler passes the visitor on, and the
request handler does not forward the request.

`decided_challenge_iff` says which visitors these are, in terms of the visit and of what the
services answer; `execute_answers_iff` is the result.
-/

namespace VibesWaf

/-- `shouldProxy`: the empty action counts as allow. -/
def forwarded (action : Action) : Bool :=
  let action := if action = .none then .allow else action
  action ≠ .block && action ≠ .challenge

/-- The decision a visit starts with. -/
def Visit.openingDecision (v : Visit) : Decision :=
  if v.underAttack then underAttackDecision else Decision.zero

theorem Visit.context_eq (v : Visit) :
    v.context = { v.newContext with
      currentDecision := v.openingDecision
      action := v.openingDecision.action
      reason := v.openingDecision.reason } := by
  unfold Visit.context Visit.openingDecision
  cases v.underAttack <;> rfl

/-- The flags and the score a visit starts with. -/
theorem Visit.start_flags [GoLib] (v : Visit) :
    v.context.start.ipRuleTerminal = false ∧ v.context.start.challengePassed = false ∧
      v.context.start.hardDecision = false ∧ v.context.start.riskScore = RiskScore.new := by
  rw [Visit.context_eq]
  exact ⟨rfl, rfl, rfl, rfl⟩

/-! ### The score of a visitor with a clearance -/

/-- The total of a visitor with a clearance: bot detection and protocol anomalies are not asked. -/
def clearedTotal (svc : ScoringServices) (cfg : ScoringConfig) (ctx : Context) : Int :=
  let total := weighted cfg.ipReputation (ipContribution svc ctx) +
    weighted cfg.botDetection 0 + weighted cfg.wafAnomaly (wafContribution svc ctx) +
    weighted cfg.protocolAnomaly 0 +
    (historyContribution svc cfg + sessionContribution svc cfg ctx +
      trustReduction svc ctx.trustLevel)
  min (max total 0) 100

/-- A visitor with a clearance whom no hard rule stopped. -/
structure Cleared (ctx : Context) : Prop where
  hardDecision : ctx.hardDecision = false
  ipRuleTerminal : ctx.ipRuleTerminal = false
  challengePassed : ctx.challengePassed = true

/-- The total the decision engine sees for a cleared visitor. -/
theorem weighScore_cleared {svc : ScoringServices} {cfg : ScoringConfig} {ctx : Context}
    (h : Cleared ctx) (hcfg : svc.config = some cfg) (hnew : ctx.riskScore = RiskScore.new) :
    (weighScore svc (runPhase (phase2 svc) ctx)).riskScore.total = clearedTotal svc cfg ctx := by
  rw [weighScore_total svc h.hardDecision h.ipRuleTerminal hnew, scoredTotal, hcfg, clearedTotal]
  dsimp only
  rw [botContribution, if_pos (.inl h.challengePassed), protocolContribution,
    if_pos (.inl h.challengePassed), trustContribution, if_pos h.challengePassed]

/-! ### Visitors without a response -/

/-- Scoring leaves everything but the score and the status of the anomaly detector. -/
theorem weighScore_frame (svc : ScoringServices) (ctx : Context) :
    ∃ rs status, weighScore svc (runPhase (phase2 svc) ctx) = ctx.scored rs status := by
  obtain ⟨rs, status, hscored⟩ := phase2_frame svc ctx
  rw [runPhase, hscored]
  exact ⟨_, status, rfl⟩

/-- The decision engine on a visitor whose action is still open: a challenge exactly when the
score lies between the thresholds. -/
private theorem decisionEngine_challenge_iff {svc : ScoringServices} {ctx : Context}
    (hhard : ctx.hardDecision = false) (haction : ctx.action = .none)
    (hopen : ctx.currentDecision = Decision.zero ∨ ctx.currentDecision = underAttackDecision) :
    (decisionEngine svc ctx).action = .challenge ↔
      ∃ cfg, svc.config = some cfg ∧ cfg.challengeThreshold ≤ ctx.riskScore.total ∧
        ctx.riskScore.total < cfg.blockThreshold := by
  rw [decisionEngine, if_neg (by simp [hhard]), if_neg (by simp [haction])]
  cases hcfg : svc.config with
  | none => simp [haction]
  | some cfg =>
    simp only [Option.some.injEq, exists_eq_left']
    rw [scoreAction]
    by_cases hblock : cfg.blockThreshold ≤ ctx.riskScore.total
    · rw [if_pos hblock, if_neg (by simp), Context.addDecision_of_ne_skip (by simp [newDecision])]
      refine iff_of_false ?_ fun h => absurd hblock (not_le.mpr h.2)
      -- a block outranks both decisions a visit can start with
      obtain hcurrent | hcurrent := hopen <;>
        simp [hcurrent, resolveDecision, Decision.rank, newDecision, Decision.zero,
          underAttackDecision, getActionRank]
    rw [if_neg hblock, and_iff_left (not_le.mp hblock)]
    by_cases hchallenge : cfg.challengeThreshold ≤ ctx.riskScore.total
    · rw [if_pos hchallenge, if_neg (by simp),
        Context.addDecision_of_ne_skip (by simp [newDecision])]
      refine iff_of_true ?_ hchallenge
      obtain hcurrent | hcurrent := hopen <;>
        simp [hcurrent, resolveDecision, Decision.rank, newDecision, Decision.zero,
          underAttackDecision, getActionRank]
    · rw [if_neg hchallenge, if_pos rfl]
      simp [haction, hchallenge]

section Stranded

variable [GoLib]

/-- A visitor with a clearance whose request ends as a challenge: a rule of the access list makes
it one (in under-attack mode any rule but a block or a skip does), or no rule does and the score
lies between the two thresholds. -/
def Stranded (svc : Services) (v : Visit) : Prop :=
  ∃ level, clearanceLevel svc.toHardRuleServices v.context.start = some level ∧
    match matchedIPRule svc.toHardRuleServices v.context.start with
    | some rule => rule.action = .challenge ∨
        v.underAttack = true ∧ rule.action ≠ .block ∧ rule.action ≠ .skip
    | none => ∃ cfg, svc.config = some cfg ∧
        let total := clearedTotal svc.toScoringServices cfg
          (clearedContext svc.toHardRuleServices v.context.start level)
        cfg.challengeThreshold ≤ total ∧ total < cfg.blockThreshold

theorem decided_passed (svc : Services) (ctx : Context) :
    (decided svc ctx).challengePassed =
      (runPhase (phase1 svc.toHardRuleServices) ctx.start).challengePassed := by
  unfold decided
  generalize runPhase (phase1 svc.toHardRuleServices) ctx.start = c
  dsimp only
  split
  · rfl
  obtain ⟨rs, status, hweigh⟩ := weighScore_frame svc.toScoringServices c
  have hpassed : (weighScore svc.toScoringServices
      (runPhase (phase2 svc.toScoringServices) c)).challengePassed = c.challengePassed := by
    rw [hweigh]
    rfl
  rw [← hpassed]
  generalize weighScore svc.toScoringServices (runPhase (phase2 svc.toScoringServices) c) = d
  rw [decisionEngine]
  split
  · rfl
  split
  · rfl
  split
  · rfl
  dsimp only
  split
  · rfl
  · exact (d.addDecision_flags _).2.2

/-- The action a rule of the access list leaves a visitor with a clearance. -/
private theorem action_ipRule (v : Visit) (rule : IPAccessRule) (level : Int64) :
    ((v.context.start.cleared level).addDecision rule.decision).action = .challenge ↔
      rule.action = .challenge ∨
        v.underAttack = true ∧ rule.action ≠ .block ∧ rule.action ≠ .skip := by
  rw [Visit.context_eq]
  rw [Visit.openingDecision]
  by_cases hskip : rule.action = .skip
  · simp [Context.addDecision, hskip, IPAccessRule.decision, newDecision, Context.cleared]
  · have hne : rule.decision.action ≠ .skip := hskip
    rw [Context.addDecision_of_ne_skip hne]
    cases v.underAttack <;> cases haction : rule.action <;>
      simp_all [resolveDecision, Decision.rank, IPAccessRule.decision, newDecision,
        underAttackDecision, Decision.zero, getActionRank, Context.start, Context.cleared]

/-- **Who is stranded**: the visitors whose request reaches the response handlers as a challenge
with a clearance. -/
theorem decided_challenge_iff (svc : Services) (v : Visit) :
    (decided svc v.context).action = .challenge ∧
        (decided svc v.context).challengePassed = true ↔ Stranded svc v := by
  obtain ⟨hterminal, hpassed, hhard, hscore⟩ := v.start_flags
  rw [decided_passed, Stranded]
  cases hlevel : clearanceLevel svc.toHardRuleServices v.context.start with
  | none =>
    rw [passed_phase1 hlevel, hpassed]
    simp
  | some level =>
    simp only [Option.some.injEq, exists_eq_left']
    cases hip : matchedIPRule svc.toHardRuleServices v.context.start with
    | some rule =>
      have hvalid : challengeValidator svc.toHardRuleServices v.context.start =
          v.context.start.cleared level := by
        rw [challengeValidator, hlevel]
      have hrun := phase1_ipRule hip
      rw [hvalid] at hrun
      rw [decided_of_hard (by rw [hrun]; rfl), hrun]
      refine (and_iff_left ?_).trans (action_ipRule v rule level)
      exact ((v.context.start.cleared level).decideHard_flags rule.decision []).2.2
    | none =>
      have hrun := phase1_cleared hterminal hlevel hip
      have hcleared : Cleared (clearedContext svc.toHardRuleServices v.context.start level) :=
        ⟨hhard, hterminal, rfl⟩
      have hnew : (clearedContext svc.toHardRuleServices v.context.start level).riskScore =
          RiskScore.new := hscore
      have hopen : v.context.start.currentDecision = Decision.zero ∨
          v.context.start.currentDecision = underAttackDecision := by
        rw [Visit.context_eq]
        change v.openingDecision = _ ∨ v.openingDecision = _
        rw [Visit.openingDecision]
        cases v.underAttack <;> simp
      rw [decided_of_soft (by rw [hrun]; exact hhard), hrun]
      refine (and_iff_left hcleared.challengePassed).trans ?_
      -- scoring leaves everything the decision engine looks at but the score
      obtain ⟨rs, status, hweigh⟩ := weighScore_frame svc.toScoringServices
        (clearedContext svc.toHardRuleServices v.context.start level)
      rw [decisionEngine_challenge_iff (by rw [hweigh]; exact hhard) (by rw [hweigh]; rfl)
        (by rw [hweigh]; exact hopen)]
      refine exists_congr fun cfg => and_congr_right fun hcfg => ?_
      rw [weighScore_cleared hcleared hcfg hnew]

/-- **Who gets a response.** For every visit and all answers of the services, exactly one of these
holds after the pipeline, unless the visitor is stranded: a page was written, or the request
handler forwards the request. -/
theorem execute_answers_iff (svc : Services) (v : Visit) :
    Xor ((execute svc v.context).2 = true) (forwarded (execute svc v.context).1.action = true) ↔
      ¬ Stranded svc v := by
  obtain ⟨haction, hwritten⟩ := phase4_eq (decided svc v.context)
  rw [execute_eq, haction, hwritten, ← decided_challenge_iff, Xor, forwarded]
  cases (decided svc v.context).action <;> cases (decided svc v.context).challengePassed <;> simp

end Stranded

section Evaluated

attribute [local instance] asciiLib

/-- A visitor with a fresh clearance whose request looks like a mild attack gets an empty answer:
no page was written, and the request is not forwarded. -/
theorem execute_strands_cleared :
    ¬ ∀ (svc : Services) (v : Visit),
      Xor ((execute svc v.context).2 = true) (forwarded (execute svc v.context).1.action = true) := by
  intro h
  let token := issueToken quietServices.validator.mac [] plainRequest 0 0
  have hxor := h { quietServices with anomalyScore := 30 }
    { plainVisit with request := { plainRequest with cookies := [(str "ok", token)] } }
  revert hxor
  decide

end Evaluated

end VibesWaf

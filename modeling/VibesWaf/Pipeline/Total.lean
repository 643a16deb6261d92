import VibesWaf.Pipeline.Execute

/-!
# The total score

What each detector adds to the score of a request, and the total that the decision engine sees. The
handlers of phase 2 add up their contributions one after the other, the weights act on each
category, and the total is clamped: `weighScore_total` is the closed form for every request that
phase 1 left open.
-/

namespace VibesWaf

/-! ### Contributions -/

/-- What the reputation scorer adds. -/
def ipContribution (svc : ScoringServices) (ctx : Context) : Int :=
  if ctx.shouldSkipModule (str "ip_reputation") ∨
      (svc.config.map (·.ipReputation.enabled)).getD true = false then 0
  else max (ipReputationScore svc ctx) 0

/-- What the anomaly detector adds. -/
def wafContribution (svc : ScoringServices) (ctx : Context) : Int :=
  if ctx.shouldSkipModule (str "waf") ∨ ctx.isPhaseSkipped (str "waf") then 0
  else max svc.anomalyScore 0

/-- What the history of clean requests adds. -/
def historyContribution (svc : ScoringServices) (cfg : ScoringConfig) : Int :=
  match svc.cleanRequests with
  | none => 0
  | some count =>
    if 0 < cfg.trustedHistoryThreshold ∧ svc.redisEnabled = true ∧
        cfg.trustedHistoryThreshold ≤ count then cfg.trustedHistory
    else 0

/-- What a stable session adds. -/
def sessionContribution (svc : ScoringServices) (cfg : ScoringConfig) (ctx : Context) : Int :=
  if svc.redisEnabled = true ∧ ctx.httpFingerprint ≠ [] ∧ svc.sessionMatches = true then
    cfg.stableSession
  else 0

/-- A category's score under its weight. -/
def weighted (cw : CategoryWeight) (score : Int) : Int :=
  if cw.enabled then min ((cw.multiplier.getD id) score) cw.maxScore
  else min score 0

/-- What bot detection adds. -/
def botContribution (svc : ScoringServices) (ctx : Context) : Int :=
  if ctx.challengePassed ∨ ctx.shouldSkipModule (str "bot") ∨ ctx.isPhaseSkipped (str "bot") then 0
  else svc.botScore

/-- What the protocol violations add. -/
def protocolContribution (svc : ScoringServices) (ctx : Context) : Int :=
  if ctx.challengePassed ∨ ctx.shouldSkipModule (str "protocol_anomaly") ∨
      ctx.isPhaseSkipped (str "protocol_anomaly") then 0
  else svc.violations.sum

/-- What trust adds under a configuration. -/
def trustContribution (svc : ScoringServices) (cfg : ScoringConfig) (ctx : Context) : Int :=
  historyContribution svc cfg + sessionContribution svc cfg ctx +
    if ctx.challengePassed then trustReduction svc ctx.trustLevel else 0

/-- The total of a request that phase 1 left open. -/
def scoredTotal (svc : ScoringServices) (ctx : Context) : Int :=
  let total := match svc.config with
    | none => ipContribution svc ctx + botContribution svc ctx + wafContribution svc ctx +
        protocolContribution svc ctx
    | some cfg => weighted cfg.ipReputation (ipContribution svc ctx) +
        weighted cfg.botDetection (botContribution svc ctx) +
        weighted cfg.wafAnomaly (wafContribution svc ctx) +
        weighted cfg.protocolAnomaly (protocolContribution svc ctx) + trustContribution svc cfg ctx
  min (max total 0) 100

/-! ### Phase 2 -/

section Scored

variable {svc : ScoringServices} {ctx : Context}

private theorem ipReputationScorer_scored (svc : ScoringServices) (hhard : ctx.hardDecision = false)
    (rs : RiskScore) (st : Int) :
    ipReputationScorer svc (ctx.scored rs st) =
      ctx.scored (rs.add .ipReputation (ipContribution svc ctx)) st := by
  have hhard' : (ctx.scored rs st).hardDecision = false := hhard
  have hskip : (ctx.scored rs st).shouldSkipModule = ctx.shouldSkipModule := rfl
  have hscore : ipReputationScore svc (ctx.scored rs st) = ipReputationScore svc ctx := rfl
  rw [ipReputationScorer, ipContribution, hhard', hskip, hscore, Bool.false_or]
  by_cases hmodule : ctx.shouldSkipModule (str "ip_reputation") = true
  · rw [if_pos hmodule, if_pos (.inl hmodule), RiskScore.add_zero]
  rw [if_neg hmodule]
  by_cases hoff : (svc.config.map (·.ipReputation.enabled)).getD true = false
  · rw [if_pos hoff, if_pos (.inr hoff), RiskScore.add_zero]
  rw [if_neg hoff, if_neg (not_or.mpr ⟨hmodule, hoff⟩)]
  by_cases hpos : 0 < ipReputationScore svc ctx
  · rw [if_pos hpos, max_eq_left hpos.le]
    rfl
  · rw [if_neg hpos, max_eq_right (not_lt.mp hpos), RiskScore.add_zero]

private theorem botDetectionHandler_scored (svc : ScoringServices)
    (hterminal : ctx.ipRuleTerminal = false) (rs : RiskScore) (st : Int) :
    botDetectionHandler svc (ctx.scored rs st) =
      ctx.scored (rs.add .botDetection (botContribution svc ctx)) st := by
  have hcond : ((ctx.scored rs st).ipRuleTerminal || (ctx.scored rs st).challengePassed ||
      (ctx.scored rs st).shouldSkipModule (str "bot") ||
      (ctx.scored rs st).isPhaseSkipped (str "bot")) = true ↔
      ctx.challengePassed = true ∨ ctx.shouldSkipModule (str "bot") = true ∨
        ctx.isPhaseSkipped (str "bot") = true := by
    have hterminal' : (ctx.scored rs st).ipRuleTerminal = false := hterminal
    rw [hterminal', Bool.false_or, Bool.or_eq_true, Bool.or_eq_true, or_assoc]
    rfl
  rw [botDetectionHandler, botContribution]
  by_cases hskip : ctx.challengePassed = true ∨ ctx.shouldSkipModule (str "bot") = true ∨
      ctx.isPhaseSkipped (str "bot") = true
  · rw [if_pos (hcond.mpr hskip), if_pos hskip, RiskScore.add_zero]
  · rw [if_neg fun hc => hskip (hcond.mp hc), if_neg hskip]
    rfl

private theorem wafEngineHandler_scored (svc : ScoringServices)
    (hterminal : ctx.ipRuleTerminal = false) (rs : RiskScore) (st : Int) :
    ∃ st', wafEngineHandler svc (ctx.scored rs st) =
      ctx.scored (rs.add .wafAnomaly (wafContribution svc ctx)) st' := by
  have hcond : ((ctx.scored rs st).ipRuleTerminal || (ctx.scored rs st).shouldSkipModule (str "waf")
      || (ctx.scored rs st).isPhaseSkipped (str "waf")) = true ↔
      ctx.shouldSkipModule (str "waf") = true ∨ ctx.isPhaseSkipped (str "waf") = true := by
    have hterminal' : (ctx.scored rs st).ipRuleTerminal = false := hterminal
    rw [hterminal', Bool.false_or, Bool.or_eq_true]
    rfl
  by_cases hskip : ctx.shouldSkipModule (str "waf") = true ∨ ctx.isPhaseSkipped (str "waf") = true
  · refine ⟨st, ?_⟩
    rw [wafEngineHandler, if_pos (hcond.mpr hskip), wafContribution, if_pos hskip,
      RiskScore.add_zero]
  · refine ⟨svc.anomalyScore, ?_⟩
    rw [wafEngineHandler, if_neg fun hc => hskip (hcond.mp hc), wafContribution, if_neg hskip]
    by_cases hpos : 0 < svc.anomalyScore
    · rw [if_pos hpos, max_eq_left hpos.le]
      rfl
    · rw [if_neg hpos, max_eq_right (not_lt.mp hpos), RiskScore.add_zero]
      rfl

/-- Scores of one category add up. -/
private theorem foldl_addScore (scores : List Int) (rs : RiskScore) (st : Int) :
    scores.foldl (fun ctx score => ctx.addScore .protocolAnomaly score) (ctx.scored rs st) =
      ctx.scored (rs.add .protocolAnomaly scores.sum) st := by
  induction scores generalizing rs with
  | nil => rw [List.foldl_nil, List.sum_nil, RiskScore.add_zero]
  | cons score scores ih =>
    have hstep : (ctx.scored rs st).addScore .protocolAnomaly score =
        ctx.scored (rs.add .protocolAnomaly score) st := rfl
    rw [List.foldl_cons, hstep, ih, RiskScore.add_add, List.sum_cons]

private theorem protocolAnomalyHandler_scored (svc : ScoringServices)
    (hhard : ctx.hardDecision = false) (rs : RiskScore) (st : Int) :
    protocolAnomalyHandler svc (ctx.scored rs st) =
      ctx.scored (rs.add .protocolAnomaly (protocolContribution svc ctx)) st := by
  have hcond : ((ctx.scored rs st).hardDecision || (ctx.scored rs st).challengePassed ||
      (ctx.scored rs st).shouldSkipModule (str "protocol_anomaly") ||
      (ctx.scored rs st).isPhaseSkipped (str "protocol_anomaly")) = true ↔
      ctx.challengePassed = true ∨ ctx.shouldSkipModule (str "protocol_anomaly") = true ∨
        ctx.isPhaseSkipped (str "protocol_anomaly") = true := by
    have hhard' : (ctx.scored rs st).hardDecision = false := hhard
    rw [hhard', Bool.false_or, Bool.or_eq_true, Bool.or_eq_true, or_assoc]
    rfl
  rw [protocolAnomalyHandler, protocolContribution]
  by_cases hskip : ctx.challengePassed = true ∨
      ctx.shouldSkipModule (str "protocol_anomaly") = true ∨
      ctx.isPhaseSkipped (str "protocol_anomaly") = true
  · rw [if_pos (hcond.mpr hskip), if_pos hskip, RiskScore.add_zero]
  · rw [if_neg fun hc => hskip (hcond.mp hc), if_neg hskip, foldl_addScore]

private theorem trustedHistoryScorer_scored (svc : ScoringServices)
    (hhard : ctx.hardDecision = false) (rs : RiskScore) (st : Int) :
    trustedHistoryScorer svc (ctx.scored rs st) =
      ctx.scored (rs.add .trust ((svc.config.map (historyContribution svc)).getD 0)) st := by
  have hhard' : (ctx.scored rs st).hardDecision = false := hhard
  rw [trustedHistoryScorer, hhard', if_neg Bool.false_ne_true]
  cases svc.config with
  | none => exact congrArg (ctx.scored · st) (RiskScore.add_zero rs .trust).symm
  | some cfg =>
    rw [Option.map_some, Option.getD_some, historyContribution]
    dsimp only
    cases svc.cleanRequests with
    | none => simp [RiskScore.add_zero]
    | some count =>
      dsimp only
      by_cases hoff : cfg.trustedHistoryThreshold ≤ 0 ∨ cfg.trustedHistory = 0 ∨
          svc.redisEnabled = false
      · rw [if_pos hoff]
        obtain hzero | hzero | hzero := hoff
        · rw [if_neg fun hall => absurd hall.1 (not_lt.mpr hzero), RiskScore.add_zero]
        · rw [hzero, ite_self, RiskScore.add_zero]
        · rw [if_neg fun hall => by simp [hzero] at hall, RiskScore.add_zero]
      · rw [if_neg hoff]
        simp only [not_or, not_le, Bool.not_eq_false] at hoff
        by_cases hcount : cfg.trustedHistoryThreshold ≤ count
        · rw [if_pos hcount, if_pos ⟨hoff.1, hoff.2.2, hcount⟩]
          rfl
        · rw [if_neg hcount, if_neg fun hall => hcount hall.2.2, RiskScore.add_zero]

private theorem stableSessionScorer_scored (svc : ScoringServices)
    (hhard : ctx.hardDecision = false) (rs : RiskScore) (st : Int) :
    stableSessionScorer svc (ctx.scored rs st) =
      ctx.scored (rs.add .trust
        ((svc.config.map fun cfg => sessionContribution svc cfg ctx).getD 0)) st := by
  have hhard' : (ctx.scored rs st).hardDecision = false := hhard
  have hprint : (ctx.scored rs st).httpFingerprint = ctx.httpFingerprint := rfl
  rw [stableSessionScorer, hhard', if_neg Bool.false_ne_true, hprint]
  cases svc.config with
  | none => exact congrArg (ctx.scored · st) (RiskScore.add_zero rs .trust).symm
  | some cfg =>
    rw [Option.map_some, Option.getD_some, sessionContribution]
    dsimp only
    by_cases hoff : cfg.stableSession = 0 ∨ svc.redisEnabled = false ∨ ctx.httpFingerprint = []
    · rw [if_pos hoff]
      obtain hzero | hzero | hzero := hoff
      · rw [hzero, ite_self, RiskScore.add_zero]
      · rw [if_neg fun hall => by simp [hzero] at hall, RiskScore.add_zero]
      · rw [if_neg fun hall => hall.2.1 hzero, RiskScore.add_zero]
    · rw [if_neg hoff]
      simp only [not_or, Bool.not_eq_false] at hoff
      by_cases hmatch : svc.sessionMatches = true
      · rw [if_pos hmatch, if_pos ⟨hoff.2.1, hoff.2.2, hmatch⟩]
        rfl
      · rw [if_neg hmatch, if_neg fun hall => hmatch hall.2.2, RiskScore.add_zero]

private theorem trustScorer_scored (svc : ScoringServices) (hhard : ctx.hardDecision = false)
    (rs : RiskScore) (st : Int) :
    trustScorer svc (ctx.scored rs st) =
      ctx.scored (rs.add .trust ((svc.config.map fun _ =>
        if ctx.challengePassed then trustReduction svc ctx.trustLevel else 0).getD 0)) st := by
  have hhard' : (ctx.scored rs st).hardDecision = false := hhard
  have hpassed : (ctx.scored rs st).challengePassed = ctx.challengePassed := rfl
  have hlevel : (ctx.scored rs st).trustLevel = ctx.trustLevel := rfl
  rw [trustScorer, hhard', hpassed, hlevel, Bool.false_or]
  cases svc.config with
  | none => simp [RiskScore.add_zero]
  | some cfg =>
    rw [Option.map_some, Option.getD_some]
    cases ctx.challengePassed with
    | false => simp [RiskScore.add_zero]
    | true =>
      rw [if_neg (by simp), if_pos rfl]
      dsimp only
      by_cases hzero : trustReduction svc ctx.trustLevel = 0
      · rw [if_neg (not_not.mpr hzero), hzero, RiskScore.add_zero]
      · rw [if_pos hzero]
        rfl

/-- The score after phase 2. -/
def contributions (svc : ScoringServices) (ctx : Context) : RiskScore :=
  ((((RiskScore.new.add .ipReputation (ipContribution svc ctx)).add .botDetection
    (botContribution svc ctx)).add .wafAnomaly (wafContribution svc ctx)).add .protocolAnomaly
    (protocolContribution svc ctx)).add .trust
    ((svc.config.map fun cfg => trustContribution svc cfg ctx).getD 0)

/-- **Scoring**, category by category. -/
theorem phase2_eq (svc : ScoringServices) (hhard : ctx.hardDecision = false)
    (hterminal : ctx.ipRuleTerminal = false) (hnew : ctx.riskScore = RiskScore.new) :
    ∃ st, runPhase (phase2 svc) ctx = ctx.scored (contributions svc ctx) st := by
  have hself : ctx = ctx.scored RiskScore.new ctx.wafStatus := by
    rw [← hnew]
    rfl
  obtain ⟨st, hwaf⟩ := wafEngineHandler_scored svc hterminal
    ((RiskScore.new.add .ipReputation (ipContribution svc ctx)).add .botDetection
      (botContribution svc ctx)) ctx.wafStatus
  refine ⟨st, ?_⟩
  change trustScorer svc (stableSessionScorer svc (trustedHistoryScorer svc
    (protocolAnomalyHandler svc (wafEngineHandler svc (botDetectionHandler svc
      (ipReputationScorer svc ctx)))))) = _
  conv_lhs => rw [hself]
  rw [ipReputationScorer_scored svc hhard, botDetectionHandler_scored svc hterminal, hwaf,
    protocolAnomalyHandler_scored svc hhard, trustedHistoryScorer_scored svc hhard,
    stableSessionScorer_scored svc hhard, trustScorer_scored svc hhard, RiskScore.add_add,
    RiskScore.add_add, contributions]
  cases svc.config with
  | none => rfl
  | some cfg => simp only [Option.map_some, Option.getD_some, trustContribution, add_assoc]

end Scored

/-! ### Weights -/

theorem applyCategory_get (rs : RiskScore) (c c' : ScoreCategory) (cw : CategoryWeight) :
    (applyCategory rs c cw).get c' = if c' = c then weighted cw (rs.get c) else rs.get c' := by
  unfold applyCategory weighted
  cases cw.enabled with
  | true =>
    rw [if_pos rfl, if_pos rfl, RiskScore.applyCap]
    cases cw.multiplier with
    | none =>
      change (if rs.get c ≤ cw.maxScore then rs else rs.assign c cw.maxScore).get c' =
        if c' = c then min (rs.get c) cw.maxScore else rs.get c'
      by_cases hle : rs.get c ≤ cw.maxScore
      · rw [if_pos hle, min_eq_left hle]
        split
        · rw [‹c' = c›]
        · rfl
      · rw [if_neg hle, min_eq_right (not_le.mp hle).le, RiskScore.get_assign]
    | some multiply =>
      change (if (rs.assign c (multiply (rs.get c))).get c ≤ cw.maxScore then
          rs.assign c (multiply (rs.get c))
        else (rs.assign c (multiply (rs.get c))).assign c cw.maxScore).get c' =
        if c' = c then min (multiply (rs.get c)) cw.maxScore else rs.get c'
      rw [RiskScore.get_assign, if_pos rfl]
      by_cases hle : multiply (rs.get c) ≤ cw.maxScore
      · rw [if_pos hle, min_eq_left hle, RiskScore.get_assign]
      · rw [if_neg hle, min_eq_right (not_le.mp hle).le, RiskScore.get_assign,
          RiskScore.get_assign]
        split <;> rfl
  | false =>
    rw [if_neg Bool.false_ne_true, if_neg Bool.false_ne_true]
    by_cases hpos : 0 < rs.get c
    · rw [if_pos hpos, min_eq_right hpos.le, RiskScore.get_assign]
    · rw [if_neg hpos, min_eq_left (not_lt.mp hpos)]
      split
      · rw [‹c' = c›]
      · rfl

theorem RiskScore.Balanced.applyCategory {rs : RiskScore} (h : rs.Balanced) (c : ScoreCategory)
    (cw : CategoryWeight) : (applyCategory rs c cw).Balanced := by
  unfold VibesWaf.applyCategory RiskScore.applyCap
  split
  · have hmul : (rs.applyMultiplier c cw.multiplier).Balanced := by
      cases cw.multiplier with
      | none => exact h
      | some multiply => exact h.assign c _
    split
    · exact hmul
    · exact hmul.assign c _
  · split
    · exact h.assign c 0
    · exact h

/-- **The weighted total** is the sum of the weighted categories; trust has no weight. -/
theorem applyWeights_total (cfg : ScoringConfig) {rs : RiskScore} (h : rs.Balanced) :
    (applyWeights cfg rs).total =
      weighted cfg.ipReputation rs.ipReputation + weighted cfg.botDetection rs.botDetection +
        weighted cfg.wafAnomaly rs.wafAnomaly +
        weighted cfg.protocolAnomaly rs.protocolAnomaly + rs.trust := by
  have hbalanced : (applyWeights cfg rs).Balanced :=
    (((h.applyCategory _ _).applyCategory _ _).applyCategory _ _).applyCategory _ _
  have hget (c : ScoreCategory) : (applyWeights cfg rs).get c = RiskScore.get
      { rs with
        ipReputation := weighted cfg.ipReputation rs.ipReputation
        botDetection := weighted cfg.botDetection rs.botDetection
        wafAnomaly := weighted cfg.wafAnomaly rs.wafAnomaly
        protocolAnomaly := weighted cfg.protocolAnomaly rs.protocolAnomaly } c := by
    cases c <;>
      simp only [applyWeights, applyCategory_get, reduceCtorEq, if_true, if_false] <;> rfl
  rw [hbalanced]
  exact congrArg₂ _ (congrArg₂ _ (congrArg₂ _ (congrArg₂ _ (hget .ipReputation)
    (hget .botDetection)) (hget .wafAnomaly)) (hget .protocolAnomaly)) (hget .trust)

/-- **The total** the decision engine sees, for a request that phase 1 left open. -/
theorem weighScore_total (svc : ScoringServices) {ctx : Context} (hhard : ctx.hardDecision = false)
    (hterminal : ctx.ipRuleTerminal = false) (hnew : ctx.riskScore = RiskScore.new) :
    (weighScore svc (runPhase (phase2 svc) ctx)).riskScore.total = scoredTotal svc ctx := by
  obtain ⟨st, hrun⟩ := phase2_eq svc hhard hterminal hnew
  have hbalanced : (contributions svc ctx).Balanced := by
    have hnew' : RiskScore.new.Balanced := rfl
    exact ((((hnew'.add _ _).add _ _).add _ _).add _ _).add _ _
  rw [hrun, weighScore, scoredTotal]
  cases hcfg : svc.config with
  | none =>
    dsimp only [Context.scored, RiskScore.clampTotal]
    rw [hbalanced]
    simp [contributions, hcfg, RiskScore.assign, RiskScore.add, RiskScore.set, RiskScore.get,
      RiskScore.new]
  | some cfg =>
    dsimp only [Context.scored, RiskScore.clampTotal]
    rw [applyWeights_total cfg hbalanced]
    simp [contributions, hcfg, RiskScore.assign, RiskScore.add, RiskScore.set, RiskScore.get,
      RiskScore.new]

end VibesWaf

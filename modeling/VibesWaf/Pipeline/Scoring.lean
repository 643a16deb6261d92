import VibesWaf.Lib.EarlyExit
import VibesWaf.Pipeline.Phase1

/-!
# Phases 2 and 3: scoring and the decision engine

The seven scoring handlers in their registered order, the weights of the scoring configuration,
and the decision engine with its two thresholds. A handler reads the answer of its detector from
`ScoringServices` and adds it to the score of its category; only the reputation scorer computes
its contribution here.

`phase2_frame` is what the decision engine needs of all of them: scoring writes the score and the
status of the anomaly detector, and nothing else.
-/

namespace VibesWaf

/-! ### Configuration and services -/

/-- `CategoryWeight`: the multiplier is the function it stands for, `none` for one. -/
structure CategoryWeight where
  enabled : Bool
  maxScore : Int
  multiplier : Option (Int → Int)

/-- `ScoringConfig`. -/
structure ScoringConfig where
  blockThreshold : Int
  challengeThreshold : Int
  ipReputation : CategoryWeight
  botDetection : CategoryWeight
  wafAnomaly : CategoryWeight
  protocolAnomaly : CategoryWeight
  trustedHistory : Int
  trustedHistoryThreshold : Int
  stableSession : Int

/-- What the detectors answer during one request. -/
structure ScoringServices where
  /-- `getScoringConfig`. -/
  config : Option ScoringConfig
  /-- `IPReputationService.LookupIP`. -/
  lookupIP : GoString → Option Int
  /-- `IPReputationService.LookupASN`. -/
  lookupASN : UInt64 → Option Int
  /-- `MaxmindDCScore` of the reputation configuration. -/
  maxmindDCScore : Int
  /-- `MaxmindASNScore` of the reputation configuration. -/
  maxmindASNScore : Int
  /-- The total of `AnalyzeRequest`. -/
  botScore : Int
  /-- The anomaly score of `DetectOnly`. -/
  anomalyScore : Int
  /-- The scores of the protocol violations, each positive. -/
  violations : List Int
  redisEnabled : Bool
  /-- The clean requests counted for the address, if any. -/
  cleanRequests : Option Int
  /-- The fingerprint stored for the address is the one of the request. -/
  sessionMatches : Bool
  /-- `TrustLevels.Reductions`. -/
  reductions : Fin 4 → Int

/-! ### Phase 2 -/

/-- The names `isCloudProvider` looks for. -/
def cloudProviders : List GoString :=
  [str "amazon", str "aws", str "google cloud", str "microsoft azure", str "digitalocean",
    str "linode", str "vultr", str "ovh", str "hetzner"]

/-- `isCloudProvider`: its own lower case maps ASCII letters only. -/
def isCloudProvider (org : GoString) : Bool :=
  cloudProviders.any (contains (org.map lowerByte))

/-- The score the reputation scorer computes: the entry of the address, else of its network, else
what its operator says of it; at most the category's maximum. -/
def ipReputationScore (svc : ScoringServices) (ctx : Context) : Int :=
  let maxScore := (svc.config.map (·.ipReputation.maxScore)).getD 25
  match svc.lookupIP ctx.clientIP with
  | some score => min score maxScore
  | none =>
    match if 0 < ctx.asn then svc.lookupASN ctx.asn else none with
    | some score => min score maxScore
    | none =>
      let score := if ctx.isDatacenter then min svc.maxmindDCScore maxScore else 0
      let score := if ctx.asnOrg ≠ [] ∧ isCloudProvider ctx.asnOrg = true then
        score + min svc.maxmindASNScore (maxScore - score) else score
      min score maxScore

/-- `IPReputationScorer.Handle`. -/
def ipReputationScorer (svc : ScoringServices) (ctx : Context) : Context :=
  if ctx.hardDecision || ctx.shouldSkipModule (str "ip_reputation") then ctx
  else if (svc.config.map (·.ipReputation.enabled)).getD true = false then ctx
  else
    let score := ipReputationScore svc ctx
    if 0 < score then ctx.addScore .ipReputation score else ctx

/-- `BotDetectionHandler.Handle`. -/
def botDetectionHandler (svc : ScoringServices) (ctx : Context) : Context :=
  if ctx.ipRuleTerminal || ctx.challengePassed || ctx.shouldSkipModule (str "bot") ||
      ctx.isPhaseSkipped (str "bot") then ctx
  else ctx.addScore .botDetection svc.botScore

/-- `WAFEngineHandler.Handle`. -/
def wafEngineHandler (svc : ScoringServices) (ctx : Context) : Context :=
  if ctx.ipRuleTerminal || ctx.shouldSkipModule (str "waf") || ctx.isPhaseSkipped (str "waf") then
    ctx
  else
    let ctx := { ctx with wafStatus := svc.anomalyScore }
    if 0 < svc.anomalyScore then ctx.addScore .wafAnomaly svc.anomalyScore else ctx

/-- `ProtocolAnomalyHandler.Handle`. -/
def protocolAnomalyHandler (svc : ScoringServices) (ctx : Context) : Context :=
  if ctx.hardDecision || ctx.challengePassed || ctx.shouldSkipModule (str "protocol_anomaly") ||
      ctx.isPhaseSkipped (str "protocol_anomaly") then ctx
  else svc.violations.foldl (fun ctx score => ctx.addScore .protocolAnomaly score) ctx

/-- `TrustedHistoryScorer.Handle`. -/
def trustedHistoryScorer (svc : ScoringServices) (ctx : Context) : Context :=
  if ctx.hardDecision then ctx
  else
    match svc.config with
    | none => ctx
    | some cfg =>
      if cfg.trustedHistoryThreshold ≤ 0 ∨ cfg.trustedHistory = 0 ∨ svc.redisEnabled = false then
        ctx
      else
        match svc.cleanRequests with
        | none => ctx
        | some count =>
          if cfg.trustedHistoryThreshold ≤ count then ctx.addScore .trust cfg.trustedHistory
          else ctx

/-- `StableSessionScorer.Handle`. -/
def stableSessionScorer (svc : ScoringServices) (ctx : Context) : Context :=
  if ctx.hardDecision then ctx
  else
    match svc.config with
    | none => ctx
    | some cfg =>
      if cfg.stableSession = 0 ∨ svc.redisEnabled = false ∨ ctx.httpFingerprint = [] then ctx
      else if svc.sessionMatches then ctx.addScore .trust cfg.stableSession
      else ctx

/-- The reduction of a trust level. -/
def trustReduction (svc : ScoringServices) (level : Int64) : Int :=
  if h : 0 ≤ level.toInt ∧ level.toInt ≤ 3 then
    svc.reductions ⟨level.toInt.toNat, by omega⟩
  else 0

/-- `TrustScorer.Handle`. -/
def trustScorer (svc : ScoringServices) (ctx : Context) : Context :=
  if ctx.hardDecision || svc.config.isNone || !ctx.challengePassed then ctx
  else
    let reduction := trustReduction svc ctx.trustLevel
    if reduction ≠ 0 then ctx.addScore .trust reduction else ctx

/-- The handlers of phase 2 in their registered order. -/
def phase2 (svc : ScoringServices) : List (Context → Context) :=
  [ipReputationScorer svc, botDetectionHandler svc, wafEngineHandler svc,
    protocolAnomalyHandler svc, trustedHistoryScorer svc, stableSessionScorer svc,
    trustScorer svc]

/-! ### Weights -/

/-- `applyCategory` of `applyWeightsWithConfig`. -/
def applyCategory (rs : RiskScore) (category : ScoreCategory) (cw : CategoryWeight) : RiskScore :=
  if cw.enabled then
    (rs.applyMultiplier category cw.multiplier).applyCap category cw.maxScore
  else if 0 < rs.get category then rs.assign category 0
  else rs

/-- `applyWeightsWithConfig`. -/
def applyWeights (cfg : ScoringConfig) (rs : RiskScore) : RiskScore :=
  let rs := applyCategory rs .ipReputation cfg.ipReputation
  let rs := applyCategory rs .botDetection cfg.botDetection
  let rs := applyCategory rs .wafAnomaly cfg.wafAnomaly
  applyCategory rs .protocolAnomaly cfg.protocolAnomaly

/-- What `Execute` does to the score between phase 2 and phase 3. -/
def weighScore (svc : ScoringServices) (ctx : Context) : Context :=
  let weighted := match svc.config with
    | none => ctx.riskScore
    | some cfg => applyWeights cfg ctx.riskScore
  { ctx with riskScore := weighted.clampTotal }

/-! ### Phase 3 -/

/-- A part of `buildReason`, when the category has a score. -/
def reasonPart (name : GoString) (score : Int) : List GoString :=
  if score = 0 then [] else [name ++ str ":" ++ itoa score]

/-- `buildReason`. -/
def buildReason (rs : RiskScore) (score : Int) : GoString :=
  (str "|").intercalate ([str "total:" ++ itoa score] ++
    reasonPart (str "ip_reputation") rs.ipReputation ++
    reasonPart (str "bot_detection") rs.botDetection ++
    reasonPart (str "waf_anomaly") rs.wafAnomaly ++
    reasonPart (str "protocol_anomaly") rs.protocolAnomaly ++ reasonPart (str "trust") rs.trust)

/-- The action of a score under the thresholds. -/
def scoreAction (cfg : ScoringConfig) (score : Int) : Action :=
  if cfg.blockThreshold ≤ score then .block
  else if cfg.challengeThreshold ≤ score then .challenge
  else .none

/-- `DecisionEngine.Handle`. -/
def decisionEngine (svc : ScoringServices) (ctx : Context) : Context :=
  if ctx.hardDecision then ctx
  else if ctx.action = .block ∨ ctx.action = .challenge then ctx
  else
    match svc.config with
    | none => ctx
    | some cfg =>
      let score := ctx.riskScore.total
      let action := scoreAction cfg score
      if action = .none then ctx
      else ctx.addDecision (newDecision action (str "scoring_engine")
        (buildReason ctx.riskScore score))

/-! ### What scoring leaves alone -/

/-- The context with another score and another status of the anomaly detector. -/
def Context.scored (ctx : Context) (rs : RiskScore) (wafStatus : Int) : Context :=
  { ctx with riskScore := rs, wafStatus }

/-- The second context is the first with another score. -/
def Scores (ctx ctx' : Context) : Prop :=
  ∃ rs status, ctx' = ctx.scored rs status

theorem Scores.refl (ctx : Context) : Scores ctx ctx :=
  ⟨ctx.riskScore, ctx.wafStatus, rfl⟩

theorem Scores.trans {a b c : Context} (h : Scores a b) (h' : Scores b c) : Scores a c := by
  obtain ⟨rs, status, rfl⟩ := h
  obtain ⟨rs', status', rfl⟩ := h'
  exact ⟨rs', status', rfl⟩

theorem scores_addScore (ctx : Context) (category : ScoreCategory) (score : Int) :
    Scores ctx (ctx.addScore category score) :=
  ⟨_, ctx.wafStatus, rfl⟩

theorem scores_foldl_addScore (category : ScoreCategory) (scores : List Int) (ctx : Context) :
    Scores ctx (scores.foldl (fun ctx score => ctx.addScore category score) ctx) := by
  induction scores generalizing ctx with
  | nil => exact Scores.refl ctx
  | cons score scores ih => exact (scores_addScore ctx category score).trans (ih _)

/-- Each handler of phase 2 writes the score and nothing else. -/
theorem scores_of_mem_phase2 {svc : ScoringServices} {h : Context → Context}
    (hmem : h ∈ phase2 svc) (ctx : Context) : Scores ctx (h ctx) := by
  -- every branch returns the context, adds a score to it, or notes the status of the detector
  simp only [phase2, List.mem_cons, List.not_mem_nil, or_false] at hmem
  rcases hmem with rfl | rfl | rfl | rfl | rfl | rfl | rfl
  · rw [ipReputationScorer]
    split
    · exact Scores.refl ctx
    split
    · exact Scores.refl ctx
    dsimp only
    split
    · exact scores_addScore ctx _ _
    · exact Scores.refl ctx
  · rw [botDetectionHandler]
    split_ifs
    · exact Scores.refl ctx
    · exact scores_addScore ctx _ _
  · rw [wafEngineHandler]
    split_ifs
    · exact Scores.refl ctx
    · exact ⟨_, svc.anomalyScore, rfl⟩
    · exact ⟨ctx.riskScore, svc.anomalyScore, rfl⟩
  · rw [protocolAnomalyHandler]
    split_ifs
    · exact Scores.refl ctx
    · exact scores_foldl_addScore _ _ ctx
  · rw [trustedHistoryScorer]
    split
    · exact Scores.refl ctx
    split
    · exact Scores.refl ctx
    split
    · exact Scores.refl ctx
    split
    · exact Scores.refl ctx
    split
    · exact scores_addScore ctx _ _
    · exact Scores.refl ctx
  · rw [stableSessionScorer]
    split
    · exact Scores.refl ctx
    split
    · exact Scores.refl ctx
    split_ifs
    · exact Scores.refl ctx
    · exact scores_addScore ctx _ _
    · exact Scores.refl ctx
  · rw [trustScorer]
    split_ifs
    · exact Scores.refl ctx
    dsimp only
    split_ifs
    · exact scores_addScore ctx _ _
    · exact Scores.refl ctx

/-- **Scoring writes the score.** No handler of phase 2 touches an action, a flag or a decision. -/
theorem phase2_frame (svc : ScoringServices) (ctx : Context) :
    Scores ctx ((phase2 svc).foldl (fun ctx h => h ctx) ctx) :=
  EarlyExit.runAll_preserves (P := Scores ctx)
    (fun _ hmem _ hscores => hscores.trans (scores_of_mem_phase2 hmem _)) (Scores.refl ctx)

end VibesWaf

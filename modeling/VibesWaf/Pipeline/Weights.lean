import Mathlib.Algebra.BigOperators.Group.Finset.Basic
import Mathlib.Algebra.Order.BigOperators.Group.Finset
import VibesWaf.Go.Numbers
import VibesWaf.Pipeline.Total

/-!
# Weighting the scores

Between scoring and the decision engine the score of each weighted category is multiplied, capped,
or taken out when the category is disabled, and the total is clamped.

Everything rests on the closed form `finalTotal_eq`: whatever the calls of `Add`, the total before
the clamp is the sum over all categories of `ScoringConfig.weigh`. From it follows what a disabled
category still does (`disabled_category_iff`). In a `RationalConfig` the multipliers are exact
rationals, and the conversion to an integer truncates toward zero: for these it gives the accounting
of a run (`applyWeights_accounting`), and that higher scores never get a milder answer
(`decision_monotone`).
-/

namespace VibesWaf

/-! ### What a category counts for -/

namespace ScoringConfig

/-- The weight of a category; trust has none. -/
def weight? (cfg : ScoringConfig) : ScoreCategory → Option CategoryWeight
  | .ipReputation => some cfg.ipReputation
  | .botDetection => some cfg.botDetection
  | .wafAnomaly => some cfg.wafAnomaly
  | .protocolAnomaly => some cfg.protocolAnomaly
  | .trust => none

/-- What a category counts for. -/
def weigh (cfg : ScoringConfig) (c : ScoreCategory) (score : ℤ) : ℤ :=
  match cfg.weight? c with
  | some w => weighted w score
  | none => score

theorem weigh_of_weight {cfg : ScoringConfig} {c : ScoreCategory} {w : CategoryWeight}
    (hw : cfg.weight? c = some w) (score : ℤ) : cfg.weigh c score = weighted w score := by
  rw [weigh, hw]

end ScoringConfig

/-- A disabled weight keeps what is negative. -/
theorem weighted_of_disabled {w : CategoryWeight} (h : w.enabled = false) (score : ℤ) :
    weighted w score = min score 0 := by
  rw [weighted, h, if_neg Bool.false_ne_true]

/-! ### Configurations with exact multipliers -/

/-- A `CategoryWeight` with its multiplier as a number. -/
structure RationalWeight where
  enabled : Bool
  maxScore : ℤ
  multiplier : ℚ

/-- A `ScoringConfig` with its multipliers as numbers. -/
structure RationalConfig where
  blockThreshold : ℤ
  challengeThreshold : ℤ
  ipReputation : RationalWeight
  botDetection : RationalWeight
  wafAnomaly : RationalWeight
  protocolAnomaly : RationalWeight
  trustedHistory : ℤ
  trustedHistoryThreshold : ℤ
  stableSession : ℤ

/-- The weight as the pipeline applies it: a multiplier of one is skipped. -/
def RationalWeight.toCategoryWeight (w : RationalWeight) : CategoryWeight where
  enabled := w.enabled
  maxScore := w.maxScore
  multiplier := if w.multiplier = 1 then none else some fun score => truncate (score * w.multiplier)

/-- A category's score under its weight. -/
def RationalWeight.weigh (w : RationalWeight) (score : ℤ) : ℤ :=
  if w.enabled then min (truncate (score * w.multiplier)) w.maxScore else min score 0

theorem weighted_toCategoryWeight (w : RationalWeight) (score : ℤ) :
    weighted w.toCategoryWeight score = w.weigh score := by
  have hmul : (w.toCategoryWeight.multiplier.getD id) score = truncate (score * w.multiplier) := by
    rw [RationalWeight.toCategoryWeight]
    dsimp only
    split
    · rename_i hone
      rw [hone, mul_one, truncate_intCast]
      rfl
    · rfl
  rw [weighted, RationalWeight.weigh, hmul]
  rfl

/-- An enabled weight is bounded by its maximum. -/
theorem RationalWeight.weigh_le {w : RationalWeight} (h : w.enabled = true) (score : ℤ) :
    w.weigh score ≤ w.maxScore := by
  rw [weigh, if_pos h]
  exact min_le_right _ _

theorem RationalWeight.weigh_mono {w : RationalWeight} (h : 0 ≤ w.multiplier) {a b : ℤ}
    (hab : a ≤ b) : w.weigh a ≤ w.weigh b := by
  rw [weigh, weigh]
  split
  · have hcast : (a : ℚ) ≤ b := Int.cast_le.mpr hab
    exact min_le_min_right _ (truncate_mono (mul_le_mul_of_nonneg_right hcast h))
  · exact min_le_min_right _ hab

namespace RationalConfig

/-- The configuration as the pipeline reads it. -/
def toScoringConfig (cfg : RationalConfig) : ScoringConfig where
  blockThreshold := cfg.blockThreshold
  challengeThreshold := cfg.challengeThreshold
  ipReputation := cfg.ipReputation.toCategoryWeight
  botDetection := cfg.botDetection.toCategoryWeight
  wafAnomaly := cfg.wafAnomaly.toCategoryWeight
  protocolAnomaly := cfg.protocolAnomaly.toCategoryWeight
  trustedHistory := cfg.trustedHistory
  trustedHistoryThreshold := cfg.trustedHistoryThreshold
  stableSession := cfg.stableSession

/-- The weight of a category; trust has none. -/
def weight? (cfg : RationalConfig) : ScoreCategory → Option RationalWeight
  | .ipReputation => some cfg.ipReputation
  | .botDetection => some cfg.botDetection
  | .wafAnomaly => some cfg.wafAnomaly
  | .protocolAnomaly => some cfg.protocolAnomaly
  | .trust => none

/-- What a category counts for. -/
def weigh (cfg : RationalConfig) (c : ScoreCategory) (score : ℤ) : ℤ :=
  match cfg.weight? c with
  | some w => w.weigh score
  | none => score

theorem weigh_of_weight {cfg : RationalConfig} {c : ScoreCategory} {w : RationalWeight}
    (hw : cfg.weight? c = some w) (score : ℤ) : cfg.weigh c score = w.weigh score := by
  rw [weigh, hw]

/-- It is what the pipeline counts. -/
theorem weigh_toScoringConfig (cfg : RationalConfig) (c : ScoreCategory) (score : ℤ) :
    cfg.toScoringConfig.weigh c score = cfg.weigh c score := by
  cases c with
  | trust => rfl
  | _ => exact weighted_toCategoryWeight _ score

theorem weigh_mono {cfg : RationalConfig}
    (hmul : ∀ c w, cfg.weight? c = some w → 0 ≤ w.multiplier) (c : ScoreCategory) {a b : ℤ}
    (hab : a ≤ b) : cfg.weigh c a ≤ cfg.weigh c b := by
  rw [weigh, weigh]
  cases hw : cfg.weight? c with
  | none => exact hab
  | some w => exact w.weigh_mono (hmul c w hw) hab

end RationalConfig

/-! ### Scores as a function of the category -/

/-- The five categories. -/
instance scoreCategoryFintype : Fintype ScoreCategory where
  elems := {.ipReputation, .botDetection, .wafAnomaly, .protocolAnomaly, .trust}
  complete := by
    intro c
    cases c <;> simp

/-- A sum over the categories, written out. -/
theorem sum_categories (f : ScoreCategory → ℤ) :
    ∑ c, f c = f .ipReputation + f .botDetection + f .wafAnomaly + f .protocolAnomaly +
      f .trust := by
  have huniv : (Finset.univ : Finset ScoreCategory) =
      {.ipReputation, .botDetection, .wafAnomaly, .protocolAnomaly, .trust} := rfl
  rw [huniv]
  simp only [Finset.mem_insert, Finset.mem_singleton, reduceCtorEq, or_self, not_false_eq_true,
    Finset.sum_insert, Finset.sum_singleton]
  ring

theorem RiskScore.balanced_iff (rs : RiskScore) : rs.Balanced ↔ rs.total = ∑ c, rs.get c := by
  rw [sum_categories]
  rfl

/-- The calls of `Add` in a run, each with its category and score. -/
def RiskScore.addAll (rs : RiskScore) (calls : List (ScoreCategory × ℤ)) : RiskScore :=
  calls.foldl (fun rs call => rs.add call.1 call.2) rs

/-- What the calls add to a category. -/
def contribution (calls : List (ScoreCategory × ℤ)) (c : ScoreCategory) : ℤ :=
  ((calls.filter (·.1 = c)).map Prod.snd).sum

namespace RiskScore

/-- A score with these categories and their sum as total. -/
def ofScores (s : ScoreCategory → ℤ) : RiskScore where
  total := ∑ c, s c
  ipReputation := s .ipReputation
  botDetection := s .botDetection
  wafAnomaly := s .wafAnomaly
  protocolAnomaly := s .protocolAnomaly
  trust := s .trust

@[simp] theorem get_ofScores (s : ScoreCategory → ℤ) (c : ScoreCategory) :
    (ofScores s).get c = s c := by
  cases c <;> rfl

theorem balanced_ofScores (s : ScoreCategory → ℤ) : (ofScores s).Balanced := by
  rw [balanced_iff]
  simp only [get_ofScores]
  rfl

/-- A balanced score is given by its categories. -/
theorem Balanced.eq_ofScores {rs : RiskScore} (h : rs.Balanced) : rs = ofScores rs.get := by
  rw [balanced_iff] at h
  cases rs
  exact congrArg (fun t => RiskScore.mk t _ _ _ _ _) h

theorem get_add (rs : RiskScore) (c c' : ScoreCategory) (score : ℤ) :
    (rs.add c score).get c' = rs.get c' + if c = c' then score else 0 := by
  rw [add, get_assign]
  by_cases h : c' = c
  · rw [if_pos h, if_pos h.symm, h]
  · rw [if_neg h, if_neg (Ne.symm h), Int.add_zero]

theorem Balanced.addAll {rs : RiskScore} (h : rs.Balanced) (calls : List (ScoreCategory × ℤ)) :
    (rs.addAll calls).Balanced := by
  induction calls generalizing rs with
  | nil => exact h
  | cons call calls ih => exact ih (h.add call.1 call.2)

theorem get_addAll (rs : RiskScore) (calls : List (ScoreCategory × ℤ)) (c : ScoreCategory) :
    (rs.addAll calls).get c = rs.get c + contribution calls c := by
  induction calls generalizing rs with
  | nil => simp [addAll, contribution]
  | cons call calls ih =>
    have hstep : rs.addAll (call :: calls) = (rs.add call.1 call.2).addAll calls := rfl
    rw [hstep, ih, get_add, add_assoc]
    by_cases h : call.1 = c <;> simp [contribution, h]

/-- The calls of a run give the score of their contributions. -/
theorem addAll_new (calls : List (ScoreCategory × ℤ)) :
    new.addAll calls = ofScores (contribution calls) := by
  have hnew : new.Balanced := rfl
  have hget : (new.addAll calls).get = contribution calls := by
    funext c
    have hzero : new.get c = 0 := by cases c <;> rfl
    rw [get_addAll, hzero, zero_add]
  rw [(hnew.addAll calls).eq_ofScores, hget]

end RiskScore

/-! ### The weighted total -/

section Weighted

variable (cfg : ScoringConfig)

theorem get_applyWeights (rs : RiskScore) (c : ScoreCategory) :
    (applyWeights cfg rs).get c = cfg.weigh c (rs.get c) := by
  cases c <;>
    simp only [applyWeights, applyCategory_get, reduceCtorEq, if_true, if_false,
      ScoringConfig.weigh, ScoringConfig.weight?]

theorem balanced_applyWeights {rs : RiskScore} (h : rs.Balanced) : (applyWeights cfg rs).Balanced :=
  (((h.applyCategory _ _).applyCategory _ _).applyCategory _ _).applyCategory _ _

/-- **The total before the clamp** is the sum of the weighted categories. -/
theorem total_applyWeights {rs : RiskScore} (h : rs.Balanced) :
    (applyWeights cfg rs).total = ∑ c, cfg.weigh c (rs.get c) := by
  rw [(RiskScore.balanced_iff _).mp (balanced_applyWeights cfg h)]
  exact Finset.sum_congr rfl fun c _ => get_applyWeights cfg rs c

/-- The clamp leaves a total between zero and a hundred. -/
theorem RiskScore.clampTotal_bounds (rs : RiskScore) :
    0 ≤ rs.clampTotal.total ∧ rs.clampTotal.total ≤ 100 := by
  rw [RiskScore.clampTotal]
  dsimp only
  omega

/-- **Score accounting.** After any calls of `Add` and the weights, the total is the sum of the
categories, each enabled category is within its maximum, and the clamp leaves a total between zero
and a hundred. -/
theorem applyWeights_accounting (cfg : RationalConfig) (calls : List (ScoreCategory × ℤ)) :
    let rs := applyWeights cfg.toScoringConfig (RiskScore.new.addAll calls)
    rs.Balanced ∧
      (∀ c w, cfg.weight? c = some w → w.enabled = true → rs.get c ≤ w.maxScore) ∧
      0 ≤ rs.clampTotal.total ∧ rs.clampTotal.total ≤ 100 := by
  intro rs
  refine ⟨?_, ?_, rs.clampTotal_bounds⟩
  · have hnew : RiskScore.new.Balanced := rfl
    exact balanced_applyWeights cfg.toScoringConfig (hnew.addAll calls)
  · intro c w hw hon
    rw [get_applyWeights, RationalConfig.weigh_toScoringConfig, RationalConfig.weigh_of_weight hw]
    exact w.weigh_le hon _

end Weighted

/-! ### From scores to a decision -/

/-- The weights, the clamp and the decision engine, for a context with these scores. -/
def decideScores (svc : ScoringServices) (ctx : Context) (rs : RiskScore) : Context :=
  decisionEngine svc (weighScore svc { ctx with riskScore := rs })

/-- The calls of `Add` of the handlers of phase 2. -/
def phase2Calls (svc : ScoringServices) (ctx : Context) : List (ScoreCategory × ℤ) :=
  [(.ipReputation, ipContribution svc ctx), (.botDetection, botContribution svc ctx),
    (.wafAnomaly, wafContribution svc ctx), (.protocolAnomaly, protocolContribution svc ctx),
    (.trust, (svc.config.map fun cfg => trustContribution svc cfg ctx).getD 0)]

/-- What the pipeline does after phase 1 is what its calls of `Add` make of the score. -/
theorem decided_phase2 (svc : ScoringServices) {ctx : Context} (hhard : ctx.hardDecision = false)
    (hterminal : ctx.ipRuleTerminal = false) (hnew : ctx.riskScore = RiskScore.new) :
    ∃ status, decisionEngine svc (weighScore svc (runPhase (phase2 svc) ctx)) =
      decideScores svc { ctx with wafStatus := status }
        (RiskScore.new.addAll (phase2Calls svc ctx)) := by
  obtain ⟨status, hrun⟩ := phase2_eq svc hhard hterminal hnew
  refine ⟨status, ?_⟩
  rw [hrun]
  rfl

/-- The action the decision engine leaves, as a function of the total. -/
def decidedAction (cfg : ScoringConfig) (ctx : Context) (total : ℤ) : Action :=
  if ctx.hardDecision = true ∨ ctx.action = .block ∨ ctx.action = .challenge ∨
      scoreAction cfg total = .none then ctx.action
  else if ctx.currentDecision.rank < getActionRank (scoreAction cfg total) then
    scoreAction cfg total
  else ctx.currentDecision.action

theorem scoreAction_ne_skip (cfg : ScoringConfig) (total : ℤ) : scoreAction cfg total ≠ .skip := by
  rw [scoreAction]
  split
  · simp
  split <;> simp

section Decide

variable {svc : ScoringServices}

/-- The decision engine decides by the total. -/
theorem decisionEngine_action {cfg : ScoringConfig} (hcfg : svc.config = some cfg)
    (ctx : Context) :
    (decisionEngine svc ctx).action = decidedAction cfg ctx ctx.riskScore.total := by
  rw [decisionEngine, decidedAction, hcfg]
  dsimp only
  by_cases hhard : ctx.hardDecision = true
  · rw [if_pos hhard, if_pos (.inl hhard)]
  rw [if_neg hhard]
  by_cases hset : ctx.action = .block ∨ ctx.action = .challenge
  · rw [if_pos hset, if_pos (.inr (hset.imp_right .inl))]
  rw [if_neg hset]
  rw [not_or] at hset
  by_cases hnone : scoreAction cfg ctx.riskScore.total = .none
  · rw [if_pos hnone, if_pos (.inr (.inr (.inr hnone)))]
  rw [if_neg hnone, if_neg (by simp [hhard, hset, hnone]),
    Context.addDecision_of_ne_skip (scoreAction_ne_skip cfg _), resolveDecision_eq]
  exact apply_ite Decision.action _ _ _

/-- It leaves the score alone. -/
theorem riskScore_decisionEngine (ctx : Context) :
    (decisionEngine svc ctx).riskScore = ctx.riskScore := by
  have hadd (d : Decision) : (ctx.addDecision d).riskScore = ctx.riskScore := by
    obtain ⟨-, phases, modules, h⟩ | ⟨-, current, -, h⟩ := ctx.addDecision_cases d <;> rw [h]
  rw [decisionEngine]
  split
  · rfl
  split
  · rfl
  split
  · rfl
  dsimp only
  split
  · rfl
  · exact hadd _

variable {cfg : ScoringConfig} (hcfg : svc.config = some cfg) (ctx : Context)

section Total

include hcfg

/-- **The final total** of a balanced score. -/
theorem finalTotal_eq {rs : RiskScore} (h : rs.Balanced) :
    (decideScores svc ctx rs).riskScore.total =
      min (max (∑ c, cfg.weigh c (rs.get c)) 0) 100 := by
  rw [decideScores, riskScore_decisionEngine, weighScore, hcfg]
  exact congrArg (fun t => min (max t 0) 100) (total_applyWeights cfg h)

/-- The final action is decided by the final total. -/
theorem finalAction_eq (rs : RiskScore) :
    (decideScores svc ctx rs).action =
      decidedAction cfg ctx (decideScores svc ctx rs).riskScore.total := by
  rw [decideScores, decisionEngine_action hcfg, riskScore_decisionEngine]
  rfl

/-! ### A disabled category -/

/-- **A disabled category.** Two runs that differ only in what they add to a disabled category end
with one total and one action exactly when the category's negative parts are equal, or the clamp
hides the difference: both totals are cut at the same end. -/
theorem disabled_category_iff {c : ScoreCategory} {w : CategoryWeight}
    (hw : cfg.weight? c = some w) (hoff : w.enabled = false)
    {xs ys : List (ScoreCategory × ℤ)}
    (hsame : ∀ c' ≠ c, contribution xs c' = contribution ys c') :
    let rest := ∑ c' ∈ Finset.univ.erase c, cfg.weigh c' (contribution xs c')
    let x := min (contribution xs c) 0
    let y := min (contribution ys c) 0
    ((decideScores svc ctx (RiskScore.new.addAll xs)).riskScore.total =
          (decideScores svc ctx (RiskScore.new.addAll ys)).riskScore.total ∧
        (decideScores svc ctx (RiskScore.new.addAll xs)).action =
          (decideScores svc ctx (RiskScore.new.addAll ys)).action) ↔
      x = y ∨ (rest + x ≤ 0 ∧ rest + y ≤ 0) ∨ (100 ≤ rest + x ∧ 100 ≤ rest + y) := by
  intro rest x y
  have htotal (zs : List (ScoreCategory × ℤ)) :
      (decideScores svc ctx (RiskScore.new.addAll zs)).riskScore.total =
        min (max (∑ c', cfg.weigh c' (contribution zs c')) 0) 100 := by
    rw [RiskScore.addAll_new, finalTotal_eq hcfg ctx (RiskScore.balanced_ofScores _)]
    simp only [RiskScore.get_ofScores]
  -- a sum splits into the disabled category and the rest, which the two runs share
  have hsplit (zs : List (ScoreCategory × ℤ)) (hzs : ∀ c' ≠ c, contribution xs c' =
      contribution zs c') :
      ∑ c', cfg.weigh c' (contribution zs c') = rest + min (contribution zs c) 0 := by
    have hrest : ∑ c' ∈ Finset.univ.erase c, cfg.weigh c' (contribution zs c') = rest :=
      Finset.sum_congr rfl fun c' hc' => by rw [hzs c' (Finset.ne_of_mem_erase hc')]
    rw [← Finset.sum_erase_add _ _ (Finset.mem_univ c), hrest,
      ScoringConfig.weigh_of_weight hw, weighted_of_disabled hoff]
  have hx := hsplit xs fun _ _ => rfl
  have hy := hsplit ys hsame
  have haction : (decideScores svc ctx (RiskScore.new.addAll xs)).riskScore.total =
        (decideScores svc ctx (RiskScore.new.addAll ys)).riskScore.total →
      (decideScores svc ctx (RiskScore.new.addAll xs)).action =
        (decideScores svc ctx (RiskScore.new.addAll ys)).action := by
    intro heq
    rw [finalAction_eq hcfg, finalAction_eq hcfg, heq]
  rw [and_iff_left_of_imp haction, htotal, htotal, hx, hy]
  change min (max (rest + x) 0) 100 = min (max (rest + y) 0) 100 ↔ _
  omega

end Total

/-! ### Higher scores -/

/-- The bands of the thresholds, in whatever order they lie: a higher total has no lower rank. -/
theorem rank_scoreAction_mono (cfg : ScoringConfig) {a b : ℤ} (hab : a ≤ b) :
    getActionRank (scoreAction cfg a) ≤ getActionRank (scoreAction cfg b) := by
  rw [scoreAction, scoreAction]
  by_cases hblock : cfg.blockThreshold ≤ b
  · rw [if_pos hblock]
    split
    · exact le_rfl
    split <;> decide
  rw [if_neg hblock, if_neg fun h => hblock (h.trans hab)]
  by_cases hchallenge : cfg.challengeThreshold ≤ a
  · rw [if_pos hchallenge, if_pos (hchallenge.trans hab)]
  · rw [if_neg hchallenge]
    exact Nat.zero_le _

/-- A band that decides at all has the rank of a challenge at least. -/
theorem rank_scoreAction (cfg : ScoringConfig) (total : ℤ) :
    scoreAction cfg total = .none ∨ 3 ≤ getActionRank (scoreAction cfg total) := by
  rw [scoreAction]
  split
  · exact .inr (by decide)
  split
  · exact .inr (by decide)
  · exact .inl rfl

/-- A band that decides takes part with its rank. -/
private theorem rank_decided {cfg : ScoringConfig} {ctx : Context} {total : ℤ}
    (hopen : ¬ (ctx.hardDecision = true ∨ ctx.action = .block ∨ ctx.action = .challenge))
    (hsome : scoreAction cfg total ≠ .none) :
    getActionRank (decidedAction cfg ctx total) =
      max ctx.currentDecision.rank (getActionRank (scoreAction cfg total)) := by
  simp only [not_or] at hopen
  rw [decidedAction, if_neg (by simp [hopen, hsome])]
  split
  · rename_i hlt
    rw [max_eq_right hlt.le]
  · rename_i hle
    rw [max_eq_left (not_lt.mp hle)]
    rfl

/-- A higher total never lowers the rank of the action. -/
theorem rank_decidedAction_mono (cfg : ScoringConfig) (ctx : Context) {a b : ℤ} (hab : a ≤ b) :
    getActionRank (decidedAction cfg ctx a) ≤ getActionRank (decidedAction cfg ctx b) := by
  by_cases hset : ctx.hardDecision = true ∨ ctx.action = .block ∨ ctx.action = .challenge
  · have hkeep (total : ℤ) : decidedAction cfg ctx total = ctx.action := by
      rw [decidedAction, if_pos (by tauto)]
    rw [hkeep, hkeep]
  have hmono := rank_scoreAction_mono cfg hab
  rcases rank_scoreAction cfg a with hnone | hrank
  · -- without a band the action is the context's own, which is milder than a challenge
    have hkeep : decidedAction cfg ctx a = ctx.action := by
      rw [decidedAction, if_pos (.inr (.inr (.inr hnone)))]
    have hmild : getActionRank ctx.action ≤ 2 := by
      simp only [not_or] at hset
      cases haction : ctx.action <;> simp_all [getActionRank]
    rcases rank_scoreAction cfg b with hnone' | hrank'
    · have hkeep' : decidedAction cfg ctx b = ctx.action := by
        rw [decidedAction, if_pos (.inr (.inr (.inr hnone')))]
      rw [hkeep, hkeep']
    · have hsome : scoreAction cfg b ≠ .none := by
        intro h
        rw [h] at hrank'
        exact absurd hrank' (by decide)
      rw [hkeep, rank_decided hset hsome]
      omega
  · have hne (total : ℤ) (h : 3 ≤ getActionRank (scoreAction cfg total)) :
        scoreAction cfg total ≠ .none := by
      intro hnone
      rw [hnone] at h
      exact absurd h (by decide)
    rw [rank_decided hset (hne a hrank), rank_decided hset (hne b (hrank.trans hmono))]
    exact max_le_max_left _ hmono

/-- **Higher scores never get a milder answer.** With nonnegative multipliers, the rank of the
final action is monotone in the scores of the categories, for every context and every order of the
thresholds. -/
theorem decision_monotone {cfg : RationalConfig} (hcfg : svc.config = some cfg.toScoringConfig)
    (ctx : Context) (hmul : ∀ c w, cfg.weight? c = some w → 0 ≤ w.multiplier)
    {s s' : ScoreCategory → ℤ} (hle : ∀ c, s c ≤ s' c) :
    getActionRank (decideScores svc ctx (RiskScore.ofScores s)).action ≤
      getActionRank (decideScores svc ctx (RiskScore.ofScores s')).action := by
  have htotal : (decideScores svc ctx (RiskScore.ofScores s)).riskScore.total ≤
      (decideScores svc ctx (RiskScore.ofScores s')).riskScore.total := by
    rw [finalTotal_eq hcfg ctx (RiskScore.balanced_ofScores s),
      finalTotal_eq hcfg ctx (RiskScore.balanced_ofScores s')]
    refine min_le_min_right _ (max_le_max_right _ (Finset.sum_le_sum fun c _ => ?_))
    rw [RiskScore.get_ofScores, RiskScore.get_ofScores, RationalConfig.weigh_toScoringConfig,
      RationalConfig.weigh_toScoringConfig]
    exact RationalConfig.weigh_mono hmul c (hle c)
  rw [finalAction_eq hcfg, finalAction_eq hcfg]
  exact rank_decidedAction_mono _ ctx htotal

end Decide

section Evaluated

attribute [local instance] asciiLib

/-- A configuration that does not count bot detection, and counts anomalies by half again. -/
def withoutBots : RationalConfig where
  blockThreshold := 70
  challengeThreshold := 55
  ipReputation := ⟨true, 30, 1⟩
  botDetection := ⟨false, 35, 1⟩
  wafAnomaly := ⟨true, 40, 3 / 2⟩
  protocolAnomaly := ⟨true, 35, 1⟩
  trustedHistory := -4
  trustedHistoryThreshold := 0
  stableSession := 0

/-- The answers of quiet services under that configuration. -/
private def servicesWithoutBots : ScoringServices :=
  { quietServices.toScoringServices with config := some withoutBots.toScoringConfig }

/-- The condition is met by two positive scores of the disabled category. -/
theorem disabled_category_positive :
    let svc := servicesWithoutBots
    let ctx := plainVisit.context.start
    let xs := [(ScoreCategory.wafAnomaly, 30), (ScoreCategory.botDetection, 5)]
    let ys := [(ScoreCategory.wafAnomaly, 30), (ScoreCategory.botDetection, 20)]
    let rest := ∑ c' ∈ Finset.univ.erase ScoreCategory.botDetection,
      withoutBots.toScoringConfig.weigh c' (contribution xs c')
    let x := min (contribution xs .botDetection) 0
    let y := min (contribution ys .botDetection) 0
    ((decideScores svc ctx (RiskScore.new.addAll xs)).riskScore.total =
          (decideScores svc ctx (RiskScore.new.addAll ys)).riskScore.total ∧
        (decideScores svc ctx (RiskScore.new.addAll xs)).action =
          (decideScores svc ctx (RiskScore.new.addAll ys)).action) ↔
      x = y ∨ (rest + x ≤ 0 ∧ rest + y ≤ 0) ∨ (100 ≤ rest + x ∧ 100 ≤ rest + y) :=
  @disabled_category_iff servicesWithoutBots withoutBots.toScoringConfig rfl
    plainVisit.context.start .botDetection withoutBots.botDetection.toCategoryWeight rfl rfl _ _
    (by decide)

/-- A negative score of the disabled category is a discount: the request that is blocked without
it passes with it. -/
theorem disabled_category_discount :
    ¬ ∀ (svc : ScoringServices) (cfg : ScoringConfig) (ctx : Context) (c : ScoreCategory)
        (w : CategoryWeight) (xs ys : List (ScoreCategory × ℤ)),
      svc.config = some cfg → cfg.weight? c = some w → w.enabled = false →
      (∀ c' ≠ c, contribution xs c' = contribution ys c') →
      (decideScores svc ctx (RiskScore.new.addAll xs)).action =
        (decideScores svc ctx (RiskScore.new.addAll ys)).action := by
  intro h
  let xs := [(ScoreCategory.wafAnomaly, (30 : ℤ)), (.protocolAnomaly, 30)]
  have haction := h servicesWithoutBots withoutBots.toScoringConfig plainVisit.context.start
    .botDetection withoutBots.botDetection.toCategoryWeight xs (xs ++ [(.botDetection, -20)]) rfl
    rfl rfl (by decide)
  revert haction
  decide +kernel

/-- A higher score of an enabled category against a lower one. -/
theorem decision_monotone_protocol :
    getActionRank (decideScores servicesWithoutBots plainVisit.context.start
        (RiskScore.ofScores fun c => if c = .protocolAnomaly then 20 else 30)).action ≤
      getActionRank (decideScores servicesWithoutBots plainVisit.context.start
        (RiskScore.ofScores fun c => if c = .protocolAnomaly then 35 else 30)).action := by
  have hmul : ∀ c w, withoutBots.weight? c = some w → 0 ≤ w.multiplier := by
    intro c w hw
    cases c <;> cases hw <;> norm_num [withoutBots]
  have hle : ∀ c : ScoreCategory, (if c = .protocolAnomaly then 20 else 30 : ℤ) ≤
      if c = .protocolAnomaly then 35 else 30 := by
    intro c
    split <;> norm_num
  exact @decision_monotone servicesWithoutBots withoutBots rfl plainVisit.context.start hmul _ _ hle

end Evaluated

end VibesWaf

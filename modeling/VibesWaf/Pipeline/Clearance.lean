import VibesWaf.Lib.EarlyExit
import VibesWaf.Pipeline.HardDecision

/-!
# Clearances and the decision so far

The decision of a context is stored twice: as `CurrentDecision`, which the next decision is resolved
against, and as its action and reason, which everybody else reads. `AddDecision` writes both. The
validator, when it accepts a clearance, empties the action and the reason and leaves
`CurrentDecision`, so a decision it cleared comes back with the next one of no higher rank.

`Context.Moves` is what every other handler does: both copies stay, or move together.
`clearance_final_iff` is the result for runs of decisions and handlers in any order: the two copies
agree all along exactly when nothing had been decided whenever a clearance was accepted.
-/

namespace VibesWaf

/-! ### What handlers do to the decision -/

/-- A step that leaves a decision and its copy alone, or resolves it and copies it again. -/
inductive Context.Moves (ctx ctx' : Context) : Prop
  | stays (current : ctx'.currentDecision = ctx.currentDecision) (action : ctx'.action = ctx.action)
    (reason : ctx'.reason = ctx.reason)
  | resolves (d : Decision) (current : ctx'.currentDecision = resolveDecision ctx.currentDecision d)
    (synced : ctx'.Synced)

namespace Context

variable {ctx ctx' : Context}

theorem Moves.refl (ctx : Context) : Moves ctx ctx :=
  .stays rfl rfl rfl

/-- A step to a context with the same decision and the same copy. -/
theorem Moves.congr {ctx'' : Context} (h : Moves ctx ctx')
    (current : ctx''.currentDecision = ctx'.currentDecision) (action : ctx''.action = ctx'.action)
    (reason : ctx''.reason = ctx'.reason) : Moves ctx ctx'' := by
  rcases h with ⟨hcurrent, haction, hreason⟩ | ⟨d, hcurrent, hsynced⟩
  · exact .stays (current.trans hcurrent) (action.trans haction) (reason.trans hreason)
  · refine .resolves d (current.trans hcurrent) ⟨?_, ?_⟩
    · rw [action, current, hsynced.action]
    · rw [reason, current, hsynced.reason]

/-- The two copies stay in agreement. -/
theorem Moves.synced (h : Moves ctx ctx') (hsynced : ctx.Synced) : ctx'.Synced := by
  rcases h with ⟨hcurrent, haction, hreason⟩ | ⟨d, -, hsynced'⟩
  · refine ⟨?_, ?_⟩
    · rw [haction, hcurrent, hsynced.action]
    · rw [hreason, hcurrent, hsynced.reason]
  · exact hsynced'

/-- The rank never sinks. -/
theorem Moves.rank_le (h : Moves ctx ctx') :
    ctx.currentDecision.rank ≤ ctx'.currentDecision.rank := by
  rcases h with ⟨hcurrent, -, -⟩ | ⟨d, hcurrent, -⟩
  · rw [hcurrent]
  · rw [hcurrent, rank_resolveDecision]
    exact le_max_left _ _

theorem moves_addDecision (ctx : Context) (d : Decision) : Moves ctx (ctx.addDecision d) := by
  obtain ⟨-, phases, modules, h⟩ | ⟨-, current, hcurrent, h⟩ := addDecision_cases ctx d
  · rw [h]
    exact .stays rfl rfl rfl
  · rw [h]
    exact .resolves d hcurrent ⟨rfl, rfl⟩

theorem moves_decideHard (ctx : Context) (d : Decision) (effects : List Effect) :
    Moves ctx (ctx.decideHard d effects) :=
  (ctx.moves_addDecision d).congr rfl rfl rfl

theorem moves_limited (ctx : Context) (verdict : Option (Decision × List Effect)) :
    Moves ctx (ctx.limited verdict) := by
  cases verdict with
  | none => exact .refl ctx
  | some verdict => exact ctx.moves_decideHard verdict.1 verdict.2

end Context

open Context

theorem moves_ipAccessHandler (svc : HardRuleServices) (ctx : Context) :
    Moves ctx (ipAccessHandler svc ctx) := by
  rw [ipAccessHandler]
  split
  · exact .refl ctx
  · exact (ctx.moves_decideHard _ []).congr rfl rfl rfl

theorem moves_cacheCheckHandler (svc : HardRuleServices) (ctx : Context) :
    Moves ctx (cacheCheckHandler svc ctx) := by
  rw [cacheCheckHandler]
  split
  · exact .refl ctx
  split
  · exact .refl ctx
  · exact (ctx.moves_addDecision _).congr rfl rfl rfl

/-- The cache leaves the request and the flags alone. -/
theorem cacheCheck_frame (svc : HardRuleServices) (ctx : Context) :
    SameRequest ctx (cacheCheckHandler svc ctx) ∧
      (cacheCheckHandler svc ctx).hardDecision = ctx.hardDecision ∧
      (cacheCheckHandler svc ctx).ipRuleTerminal = ctx.ipRuleTerminal ∧
      (cacheCheckHandler svc ctx).challengePassed = ctx.challengePassed := by
  rw [cacheCheckHandler]
  split
  · exact ⟨.refl ctx, rfl, rfl, rfl⟩
  split
  · exact ⟨.refl ctx, rfl, rfl, rfl⟩
  · rename_i cached _
    have hsame := ctx.sameRequest_addDecision cached.decision
    exact ⟨⟨hsame.request, hsame.clientIP, hsame.country, hsame.asn, hsame.asnOrg,
      hsame.isDatacenter, hsame.appID, hsame.httpFingerprint, hsame.normalized⟩,
      ctx.addDecision_flags cached.decision⟩

section Handlers

variable [GoLib]

theorem moves_rulesEngineHandler (svc : HardRuleServices) (ctx : Context) :
    Moves ctx (rulesEngineHandler svc ctx) := by
  rw [rulesEngineHandler]
  split
  · exact .refl ctx
  split
  · exact .refl ctx
  split
  · rw [passedLoop_eq]
    exact .stays rfl rfl rfl
  · rw [rulesLoop_eq]
    split
    · exact .stays rfl rfl rfl
    · -- the modules to skip have no part in the decision
      rename_i rules _ _ _ r _
      rcases (ctx.skipping (scanRules ctx.ruleContext rules).1).moves_decideHard r.decision
        (cacheSet svc ctx r.action (str "custom_rule") r.reason) with
        ⟨hcurrent, haction, hreason⟩ | ⟨d, hcurrent, hsynced⟩
      · exact .stays hcurrent haction hreason
      · exact .resolves d hcurrent hsynced

/-- Every handler of phase 1 but the validator. -/
theorem moves_of_mem_phase1 {svc : HardRuleServices} {h : Context → Context}
    (hmem : h ∈ (phase1 svc).tail) (ctx : Context) : Moves ctx (h ctx) := by
  simp only [phase1, List.tail_cons, List.mem_cons, List.not_mem_nil, or_false] at hmem
  rcases hmem with rfl | rfl | rfl | rfl | rfl
  · exact moves_ipAccessHandler svc ctx
  · rw [floodHandler_eq]
    exact ctx.moves_limited _
  · rw [rateLimitHandler_eq]
    exact ctx.moves_limited _
  · exact moves_cacheCheckHandler svc ctx
  · exact moves_rulesEngineHandler svc ctx

omit [GoLib] in
theorem moves_of_scores {ctx ctx' : Context} (h : Scores ctx ctx') : Moves ctx ctx' := by
  obtain ⟨rs, status, rfl⟩ := h
  exact .stays rfl rfl rfl

omit [GoLib] in
theorem moves_decisionEngine (svc : ScoringServices) (ctx : Context) :
    Moves ctx (decisionEngine svc ctx) := by
  rw [decisionEngine]
  split
  · exact .refl ctx
  split
  · exact .refl ctx
  split
  · exact .refl ctx
  dsimp only
  split
  · exact .refl ctx
  · exact ctx.moves_addDecision _

omit [GoLib] in
theorem moves_blockHandler (ctx : Context) : Moves ctx (blockHandler ctx).1 := by
  rw [blockHandler]
  split
  · exact .refl ctx
  · exact .stays rfl rfl rfl

omit [GoLib] in
theorem moves_challengeHandler (ctx : Context) : Moves ctx (challengeHandler ctx).1 := by
  rw [challengeHandler]
  split
  · exact .refl ctx
  · split <;> exact .stays rfl rfl rfl

/-! ### Runs -/

/-- What can happen to a context: somebody adds a decision, the validator looks at the cookie, or
another handler of the pipeline runs. -/
inductive ContextOp
  | addDecision (d : Decision)
  | challengeValidator (svc : HardRuleServices)
  | hardRule (svc : HardRuleServices) (h : Context → Context) (hmem : h ∈ (phase1 svc).tail)
  | scorer (svc : ScoringServices) (h : Context → Context) (hmem : h ∈ phase2 svc)
  | weighScore (svc : ScoringServices)
  | decisionEngine (svc : ScoringServices)
  | blockHandler
  | challengeHandler

/-- The context after an operation. -/
def ContextOp.apply : ContextOp → Context → Context
  | .addDecision d, ctx => ctx.addDecision d
  | .challengeValidator svc, ctx => VibesWaf.challengeValidator svc ctx
  | .hardRule _ h _, ctx => h ctx
  | .scorer _ h _, ctx => h ctx
  | .weighScore svc, ctx => VibesWaf.weighScore svc ctx
  | .decisionEngine svc, ctx => VibesWaf.decisionEngine svc ctx
  | .blockHandler, ctx => (VibesWaf.blockHandler ctx).1
  | .challengeHandler, ctx => (VibesWaf.challengeHandler ctx).1

/-- The context after the first `n` operations. -/
def afterOps (ops : List ContextOp) (ctx : Context) (n : ℕ) : Context :=
  EarlyExit.runAll ((ops.take n).map ContextOp.apply) ctx

theorem afterOps_succ (ops : List ContextOp) (ctx : Context) {n : ℕ} {op : ContextOp}
    (h : ops[n]? = some op) : afterOps ops ctx (n + 1) = op.apply (afterOps ops ctx n) := by
  rw [afterOps, afterOps, List.take_add_one, h, List.map_append, EarlyExit.runAll_append]
  rfl

theorem afterOps_of_none {ops : List ContextOp} {n : ℕ} (h : ops[n]? = none) (ctx : Context) :
    afterOps ops ctx (n + 1) = afterOps ops ctx n := by
  rw [afterOps, afterOps, List.take_add_one, h]
  simp

/-- Nothing is decided: what `CurrentDecision` holds has no action and no reason. -/
def Context.Undecided (ctx : Context) : Prop :=
  ctx.currentDecision.action = .none ∧ ctx.currentDecision.reason = []

/-- **The step.** An operation keeps the two copies in agreement, unless it is the validator with a
clearance, and then exactly when nothing is decided. -/
theorem ContextOp.synced_iff (op : ContextOp) {ctx : Context} (hsynced : ctx.Synced) :
    (op.apply ctx).Synced ↔
      ∀ svc, op = .challengeValidator svc → (clearanceLevel svc ctx).isSome = true →
        ctx.Undecided := by
  have hmoves {ctx' : Context} (h : Moves ctx ctx') (hne : ∀ svc, op ≠ .challengeValidator svc) :
      ctx'.Synced ↔ ∀ svc, op = .challengeValidator svc →
        (clearanceLevel svc ctx).isSome = true → ctx.Undecided :=
    iff_of_true (h.synced hsynced) fun svc heq => absurd heq (hne svc)
  cases op with
  | addDecision d => exact hmoves (ctx.moves_addDecision d) (by simp)
  | hardRule svc h hmem => exact hmoves (moves_of_mem_phase1 hmem ctx) (by simp)
  | scorer svc h hmem => exact hmoves (moves_of_scores (scores_of_mem_phase2 hmem ctx)) (by simp)
  | weighScore svc =>
    have hweigh : Moves ctx (VibesWaf.weighScore svc ctx) := .stays rfl rfl rfl
    exact hmoves hweigh (by simp)
  | decisionEngine svc => exact hmoves (moves_decisionEngine svc ctx) (by simp)
  | blockHandler => exact hmoves (moves_blockHandler ctx) (by simp)
  | challengeHandler => exact hmoves (moves_challengeHandler ctx) (by simp)
  | challengeValidator svc =>
    -- it empties `Action` and `Reason`, and leaves `CurrentDecision` as it is
    simp only [ContextOp.challengeValidator.injEq, forall_eq']
    rw [ContextOp.apply, VibesWaf.challengeValidator]
    cases clearanceLevel svc ctx with
    | none => exact iff_of_true hsynced (by simp)
    | some level =>
      simp only [Option.isSome_some, forall_const]
      constructor
      · intro h
        exact ⟨h.action.symm, h.reason.symm⟩
      · rintro ⟨haction, hreason⟩
        exact ⟨haction.symm, hreason.symm⟩

/-- A clearance is final in a run: action and reason are those of the current decision at every
point, and what is decided right after a clearance is what is proposed then. -/
structure ClearanceFinal (ops : List ContextOp) (ctx : Context) : Prop where
  synced : ∀ n, (afterOps ops ctx n).Synced
  proposed : ∀ n svc, ops[n]? = some (.challengeValidator svc) →
    (clearanceLevel svc (afterOps ops ctx n)).isSome = true →
    ∀ d : Decision, 0 < d.rank →
      ((afterOps ops ctx (n + 1)).addDecision d).action = d.action ∧
        ((afterOps ops ctx (n + 1)).addDecision d).reason = d.reason

/-- **When a clearance is final**: nothing is decided whenever the validator accepts one. -/
theorem clearance_final_iff (ops : List ContextOp) {ctx : Context} (hsynced : ctx.Synced) :
    ClearanceFinal ops ctx ↔
      ∀ n svc, ops[n]? = some (.challengeValidator svc) →
        (clearanceLevel svc (afterOps ops ctx n)).isSome = true →
          (afterOps ops ctx n).Undecided := by
  constructor
  · intro h n svc hop hlevel
    have hnext := h.synced (n + 1)
    rw [afterOps_succ ops ctx hop] at hnext
    exact ((ContextOp.challengeValidator svc).synced_iff (h.synced n)).mp hnext svc rfl hlevel
  · intro h
    refine ⟨fun n => ?_, fun n svc hop hlevel d hrank => ?_⟩
    -- the two copies agree from step to step
    · induction n with
      | zero => exact hsynced
      | succ n ih =>
        cases hop : ops[n]? with
        | none =>
          rw [afterOps_of_none hop]
          exact ih
        | some op =>
          rw [afterOps_succ ops ctx hop]
          refine (op.synced_iff ih).mpr fun svc heq hlevel => ?_
          rw [heq] at hop
          exact h n svc hop hlevel
    · -- the validator leaves a decision of the lowest rank behind
      obtain ⟨haction, -⟩ := h n svc hop hlevel
      have hcurrent : (afterOps ops ctx (n + 1)).currentDecision =
          (afterOps ops ctx n).currentDecision := by
        rw [afterOps_succ ops ctx hop, ContextOp.apply, VibesWaf.challengeValidator]
        split <;> rfl
      have hlow : (afterOps ops ctx (n + 1)).currentDecision.rank = 0 := by
        rw [hcurrent, Decision.rank, haction]
        rfl
      have hskip : d.action ≠ .skip := fun heq => by
        rw [rank_skip heq] at hrank
        exact lt_irrefl _ hrank
      rw [addDecision_of_ne_skip hskip, resolveDecision_of_lt (by rw [hlow]; exact hrank)]
      exact ⟨rfl, rfl⟩

end Handlers

/-! ### A clearance under attack -/

section Evaluated

attribute [local instance] asciiLib

/-- A visitor with a fresh clearance. -/
def clearedVisit : Visit :=
  { plainVisit with
    request := { plainRequest with
      cookies := [(str "ok", issueToken quietServices.validator.mac [] plainRequest 0 0)] } }

/-- The validator first, as in the pipeline without the under-attack mode. -/
theorem clearance_final_iff_validator : clearedVisit.newContext.Synced ∧
    (ClearanceFinal [.challengeValidator quietServices.toHardRuleServices]
        clearedVisit.newContext ↔
      ∀ n svc, [ContextOp.challengeValidator quietServices.toHardRuleServices][n]? =
          some (.challengeValidator svc) →
        (clearanceLevel svc (afterOps [.challengeValidator quietServices.toHardRuleServices]
          clearedVisit.newContext n)).isSome = true →
        (afterOps [.challengeValidator quietServices.toHardRuleServices]
          clearedVisit.newContext n).Undecided) :=
  ⟨⟨rfl, rfl⟩, clearance_final_iff _ ⟨rfl, rfl⟩⟩

/-- In under-attack mode a visitor with a clearance has an empty action and the challenge of the
mode for the current decision: an allow rule that follows makes it a challenge again. -/
theorem clearance_challenge_returns :
    ¬ ∀ (v : Visit) (ops : List ContextOp), ClearanceFinal ops v.newContext := by
  intro h
  have hfinal := (h clearedVisit [.addDecision underAttackDecision,
    .challengeValidator quietServices.toHardRuleServices]).proposed 1
      quietServices.toHardRuleServices rfl (by decide)
      (newDecision .allow (str "ip_access_rule") (str "ip_access_rule:office")) (by decide)
  revert hfinal
  decide

end Evaluated

end VibesWaf

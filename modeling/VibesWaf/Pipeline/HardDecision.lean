import VibesWaf.Lib.EarlyExit
import VibesWaf.Pipeline.Execute

/-!
# Hard decisions

A handler of phase 1 that raises `HardDecision` means its decision to be final. `execute` runs the
handlers after it all the same and trusts each to look at the flag; `executeWebSocketChecks` stops.
The flood and the rate-limit handler look at the flag, and a rule of the access list has a flag of
its own. The cache and the rules look at neither, so they can overrule flood protection and the
rate limit, and nobody else: `limiterDecision` is the decision of these two, and
`HardDecisionStands` says that the cache and the rules do not change it.

`hardRules_terminal_iff` is the result for every context, and `hardDecisionStands_iff_of_synced`
puts its condition in ranks.
-/

namespace VibesWaf

open EarlyExit

/-! ### What a later handler should not change -/

/-- Action, reason and modules to skip are the same. -/
structure Context.SameOutcome (ctx ctx' : Context) : Prop where
  action : ctx'.action = ctx.action
  reason : ctx'.reason = ctx.reason
  skipModules : ctx'.skipModules = ctx.skipModules

namespace Context

theorem SameOutcome.refl (ctx : Context) : SameOutcome ctx ctx :=
  ⟨rfl, rfl, rfl⟩

theorem SameOutcome.symm {a b : Context} (h : SameOutcome a b) : SameOutcome b a :=
  ⟨h.action.symm, h.reason.symm, h.skipModules.symm⟩

theorem SameOutcome.trans {a b c : Context} (h : SameOutcome a b) (h' : SameOutcome b c) :
    SameOutcome a c :=
  ⟨h'.action.trans h.action, h'.reason.trans h.reason, h'.skipModules.trans h.skipModules⟩

/-- Action and reason of the context stand against a decision: it is a skip, or whichever of the
current and the new decision has the higher rank has that action and that reason. -/
def Stands (ctx : Context) (d : Decision) : Prop :=
  d.action = .skip ∨
    (resolveDecision ctx.currentDecision d).action = ctx.action ∧
      (resolveDecision ctx.currentDecision d).reason = ctx.reason

/-- Action and reason are those of the current decision. -/
structure Synced (ctx : Context) : Prop where
  action : ctx.action = ctx.currentDecision.action
  reason : ctx.reason = ctx.currentDecision.reason

/-- Against a decision of no higher rank, and against no other. -/
theorem Synced.stands_iff {ctx : Context} (h : ctx.Synced) (d : Decision) :
    ctx.Stands d ↔ d.rank ≤ ctx.currentDecision.rank := by
  rw [Stands, h.action, h.reason, resolve_eq_iff]
  refine or_iff_right_of_imp fun hskip => ?_
  rw [rank_skip hskip]
  exact Nat.zero_le _

theorem Synced.addDecision {ctx : Context} (h : ctx.Synced) (d : Decision) :
    (ctx.addDecision d).Synced := by
  obtain ⟨-, phases, modules, heq⟩ | ⟨-, current, -, heq⟩ := addDecision_cases ctx d
  · rw [heq]
    exact ⟨h.action, h.reason⟩
  · rw [heq]
    exact ⟨rfl, rfl⟩

/-- The modules to skip change with a skip that names modules and no phases. -/
theorem skipModules_newDecision (ctx : Context) (action : Action) (source reason : GoString) :
    (ctx.addDecision (newDecision action source reason)).skipModules = ctx.skipModules := by
  rw [addDecision]
  split <;> rfl

/-- Adding a decision keeps the outcome when action and reason stand. -/
theorem sameOutcome_addDecision_iff (ctx : Context) (action : Action) (source reason : GoString) :
    SameOutcome ctx (ctx.addDecision (newDecision action source reason)) ↔
      ctx.Stands (newDecision action source reason) := by
  have hmodules := ctx.skipModules_newDecision action source reason
  by_cases hskip : (newDecision action source reason).action = .skip
  · refine iff_of_true ⟨?_, ?_, hmodules⟩ (.inl hskip)
    · rw [addDecision]
      rw [if_pos hskip]
      rfl
    · rw [addDecision]
      rw [if_pos hskip]
      rfl
  · rw [Stands, or_iff_right hskip]
    have hadd : ctx.addDecision (newDecision action source reason) = _ :=
      addDecision_of_ne_skip hskip
    refine ⟨fun h => ?_, fun h => ⟨?_, ?_, hmodules⟩⟩
    · have haction := h.action
      have hreason := h.reason
      rw [hadd] at haction hreason
      exact ⟨haction, hreason⟩
    · rw [hadd]
      exact h.1
    · rw [hadd]
      exact h.2

end Context

/-- The contexts of visits are such. -/
theorem Visit.context_synced (v : Visit) : v.context.Synced := by
  have hnew : v.newContext.Synced := ⟨rfl, rfl⟩
  rw [Visit.context]
  split
  · exact hnew.addDecision _
  · exact hnew

theorem Visit.start_synced [GoLib] (v : Visit) : v.context.start.Synced :=
  ⟨v.context_synced.action, v.context_synced.reason⟩

/-! ### The limiters -/

/-- The decision of the flood handler. -/
def floodDecision (svc : HardRuleServices) (ctx : Context) : Option (Decision × List Effect) :=
  if ctx.bypasses (str "flood") then none
  else if isExcluded ctx.request.path svc.rateLimitConfig then none
  else floodVerdict svc ctx.clientIP

/-- The decision of the rate-limit handler. -/
def rateLimitDecision (svc : HardRuleServices) (ctx : Context) : Option (Decision × List Effect) :=
  if ctx.bypasses (str "rate_limit") then none
  else
    match svc.allow ctx.ruleAppID ctx.clientIP ctx.request.userAgent with
    | (true, _) => none
    | (false, action) =>
      let action := if action = .none then .block else action
      some (newDecision action (str "rate_limit") (str "rate_limit_exceeded"), [])

/-- A hard decision, when there is one. -/
def Context.limited (ctx : Context) : Option (Decision × List Effect) → Context
  | none => ctx
  | some (d, effects) => ctx.decideHard d effects

theorem floodHandler_eq (svc : HardRuleServices) (ctx : Context) :
    floodHandler svc ctx = ctx.limited (floodDecision svc ctx) := by
  unfold floodHandler floodDecision
  split
  · rfl
  split
  · rfl
  cases floodVerdict svc ctx.clientIP <;> rfl

theorem rateLimitHandler_eq (svc : HardRuleServices) (ctx : Context) :
    rateLimitHandler svc ctx = ctx.limited (rateLimitDecision svc ctx) := by
  unfold rateLimitHandler rateLimitDecision
  split
  · rfl
  obtain ⟨allowed, action⟩ := svc.allow ctx.ruleAppID ctx.clientIP ctx.request.userAgent
  cases allowed <;> rfl

/-- The decision of flood protection, or else of the rate limit, for a visitor with no clearance
whom no rule of the access list names. -/
def limiterDecision (svc : HardRuleServices) (ctx : Context) : Option (Decision × List Effect) :=
  match clearanceLevel svc ctx, matchedIPRule svc ctx with
  | none, none => (floodDecision svc ctx).or (rateLimitDecision svc ctx)
  | _, _ => none

/-- The verdicts of flood protection, each with the setting that asks for it. -/
theorem floodVerdict_cases {svc : HardRuleServices} {ip : GoString} {d : Decision}
    {effects : List Effect} (h : floodVerdict svc ip = some (d, effects)) :
    d = newDecision .challenge (str "flood") (str "flood_penalty_active") ∨
      (svc.rateLimitConfig.attack.enabled = true ∧
        d = newDecision (svc.rateLimitConfig.attack.actionOr .block) (str "flood")
          (str "attack_flood_exceeded")) ∨
      (svc.rateLimitConfig.error.enabled = true ∧
        d = newDecision (svc.rateLimitConfig.error.actionOr .challenge) (str "flood")
          (str "error_flood_exceeded")) ∨
      (svc.rateLimitConfig.basic.enabled = true ∧
        d = newDecision (svc.rateLimitConfig.basic.actionOr .challenge) (str "flood")
          (str "basic_access_limit")) := by
  have hfst {d' : Decision} {effects' : List Effect}
      (h' : some (d', effects') = some (d, effects)) : d = d' :=
    (congrArg Prod.fst (Option.some.inj h')).symm
  unfold floodVerdict at h
  dsimp only at h
  split at h
  · exact .inl (hfst h)
  split at h
  · rename_i hattack
    exact .inr (.inl ⟨(Bool.and_eq_true_iff.mp hattack).1, hfst h⟩)
  split at h
  · rename_i herror
    exact .inr (.inr (.inl ⟨(Bool.and_eq_true_iff.mp herror).1, hfst h⟩))
  split at h
  · rename_i hbasic
    exact .inr (.inr (.inr ⟨(Bool.and_eq_true_iff.mp hbasic).1, hfst h⟩))
  · exact absurd h (by simp)

theorem floodVerdict_plain {svc : HardRuleServices} {ip : GoString} {d : Decision}
    {effects : List Effect} (h : floodVerdict svc ip = some (d, effects)) :
    ∃ action source reason, d = newDecision action source reason := by
  rcases floodVerdict_cases h with heq | ⟨-, heq⟩ | ⟨-, heq⟩ | ⟨-, heq⟩
  · exact ⟨_, _, _, heq⟩
  · exact ⟨_, _, _, heq⟩
  · exact ⟨_, _, _, heq⟩
  · exact ⟨_, _, _, heq⟩

/-- The limiters name no phases or modules to skip. -/
theorem limiterDecision_plain {svc : HardRuleServices} {ctx : Context} {d : Decision}
    {effects : List Effect} (h : limiterDecision svc ctx = some (d, effects)) :
    ∃ action source reason, d = newDecision action source reason := by
  rw [limiterDecision] at h
  split at h
  · rcases Option.or_eq_some_iff.mp h with hflood | ⟨-, hrate⟩
    · rw [floodDecision] at hflood
      split at hflood
      · exact absurd hflood (by simp)
      split at hflood
      · exact absurd hflood (by simp)
      · exact floodVerdict_plain hflood
    · rw [rateLimitDecision] at hrate
      split at hrate
      · exact absurd hrate (by simp)
      split at hrate
      · exact absurd hrate (by simp)
      · exact ⟨_, _, _, (congrArg Prod.fst (Option.some.inj hrate)).symm⟩
  · exact absurd h (by simp)

theorem limiterDecision_eq {svc : HardRuleServices} {ctx : Context}
    (hlevel : clearanceLevel svc ctx = none) (hip : matchedIPRule svc ctx = none) :
    limiterDecision svc ctx = (floodDecision svc ctx).or (rateLimitDecision svc ctx) := by
  rw [limiterDecision, hlevel, hip]

/-- A limiter decides for visitors with nothing else decided, and for nobody else. -/
theorem limiterDecision_open {svc : HardRuleServices} {ctx : Context} {d : Decision}
    {effects : List Effect} (h : limiterDecision svc ctx = some (d, effects)) :
    clearanceLevel svc ctx = none ∧ matchedIPRule svc ctx = none ∧ ctx.hardDecision = false ∧
      ctx.ipRuleTerminal = false ∧ ctx.challengePassed = false := by
  rw [limiterDecision] at h
  split at h
  · rename_i hlevel hip
    refine ⟨hlevel, hip, ?_⟩
    have hbypass : ∃ moduleName, ctx.bypasses moduleName = false := by
      rcases Option.or_eq_some_iff.mp h with hflood | ⟨-, hrate⟩
      · refine ⟨str "flood", Bool.eq_false_iff.mpr fun hb => ?_⟩
        rw [floodDecision, if_pos hb] at hflood
        exact absurd hflood (by simp)
      · refine ⟨str "rate_limit", Bool.eq_false_iff.mpr fun hb => ?_⟩
        rw [rateLimitDecision, if_pos hb] at hrate
        exact absurd hrate (by simp)
    obtain ⟨moduleName, hb⟩ := hbypass
    simp only [Context.bypasses, Bool.or_eq_false_iff] at hb
    exact ⟨hb.1.1.1, hb.1.2, hb.2⟩
  · exact absurd h (by simp)

theorem runUntilHard_eq (hs : List (Context → Context)) (ctx : Context) :
    runUntilHard hs ctx = runUntil (·.hardDecision) hs ctx := by
  induction hs generalizing ctx with
  | nil => rfl
  | cons h hs ih => rw [runUntilHard, runUntil, ih]

/-- A union with a list adds nothing exactly when its members are there. -/
private theorem union_toFinset_eq_iff (s : Finset GoString) (l : List GoString) :
    s ∪ l.toFinset = s ↔ ∀ name ∈ l, name ∈ s := by
  rw [Finset.union_eq_left]
  exact forall_congr' fun name => by rw [List.mem_toFinset]

section Run

variable [GoLib]

/-- The context of a request after the first `n` handlers of phase 1. -/
def hardRules (svc : HardRuleServices) (ctx : Context) (n : ℕ) : Context :=
  runAll ((phase1 svc).take n) ctx.start

/-- Handler `n` of phase 1 makes a hard decision. -/
def DecidesHard (svc : HardRuleServices) (ctx : Context) (n : ℕ) : Prop :=
  (hardRules svc ctx n).hardDecision = false ∧ (hardRules svc ctx (n + 1)).hardDecision = true

/-- No handler takes a hard decision back. -/
theorem hardDecision_of_mem {svc : HardRuleServices} {h : Context → Context}
    (hmem : h ∈ phase1 svc) (ctx : Context) (hhard : ctx.hardDecision = true) :
    (h ctx).hardDecision = true := by
  simp only [phase1, List.mem_cons, List.not_mem_nil, or_false] at hmem
  rcases hmem with rfl | rfl | rfl | rfl | rfl | rfl
  · rw [challengeValidator]
    split <;> exact hhard
  · rw [ipAccessHandler]
    split
    · exact hhard
    · rfl
  · rw [floodHandler, if_pos (bypasses_of_hard hhard _)]
    exact hhard
  · rw [rateLimitHandler, if_pos (bypasses_of_hard hhard _)]
    exact hhard
  · rw [cacheCheckHandler]
    split
    · exact hhard
    split
    · exact hhard
    · exact (ctx.addDecision_flags _).1.trans hhard
  · rw [rulesEngineHandler]
    split
    · exact hhard
    split
    · exact hhard
    split
    · rw [passedLoop_eq]
      exact hhard
    · rw [rulesLoop_eq]
      split
      · exact hhard
      · rfl

theorem hardRules_mono {svc : HardRuleServices} {ctx : Context} {n m : ℕ} (hle : n ≤ m)
    (h : (hardRules svc ctx n).hardDecision = true) :
    (hardRules svc ctx m).hardDecision = true :=
  stop_mono (fun _ hmem => hardDecision_of_mem hmem) hle h

theorem hardRules_of_le {svc : HardRuleServices} {ctx : Context} {n : ℕ} (h : 6 ≤ n) :
    hardRules svc ctx n = hardRules svc ctx 6 := by
  rw [hardRules, hardRules, List.take_of_length_le h]
  rfl

/-- A hard decision is final: no later handler changes the outcome, and the run that goes on ends
like the one that stops. -/
structure HardDecisionFinal (svc : Services) (ctx : Context) : Prop where
  later : ∀ n m, DecidesHard svc.toHardRuleServices ctx n → n + 1 ≤ m →
    Context.SameOutcome (hardRules svc.toHardRuleServices ctx (n + 1))
      (hardRules svc.toHardRuleServices ctx m)
  runs : (∃ n, DecidesHard svc.toHardRuleServices ctx n) →
    (execute svc ctx).1.action = (executeWebSocketChecks svc ctx).action ∧
      (execute svc ctx).1.reason = (executeWebSocketChecks svc ctx).reason

/-- What a cache hit leaves of a context. -/
def Context.replayed (svc : HardRuleServices) (ctx : Context) : Context :=
  match cacheGet svc ctx with
  | none => ctx
  | some cached => ctx.addDecision cached.decision

/-- A decision of the limiters stands against the cached decision, and then against the rules:
those skip nothing new, and the first terminal one does not overrule it. -/
def HardDecisionStands (svc : HardRuleServices) (ctx : Context) : Prop :=
  ∀ d effects, limiterDecision svc ctx.start = some (d, effects) →
    (∀ cached, cacheGet svc ctx.start = some cached →
      (ctx.start.addDecision d).Stands cached.decision) ∧
    ∀ rules, svc.loadMergedRules ctx.ruleAppID = .ok rules →
      (∀ name ∈ (scanRules ctx.start.ruleContext rules).1, name ∈ ctx.skipModules) ∧
      ∀ r, (scanRules ctx.start.ruleContext rules).2 = some r →
        ((ctx.start.addDecision d).replayed svc).Stands r.decision

/-! ### The cache and the rules after a decision -/

omit [GoLib] in
private theorem cacheCheck_outcome_iff {svc : HardRuleServices} {ctx : Context}
    (hterminal : ctx.ipRuleTerminal = false) (hpassed : ctx.challengePassed = false) :
    Context.SameOutcome ctx (cacheCheckHandler svc ctx) ↔
      ∀ cached, cacheGet svc ctx = some cached → ctx.Stands cached.decision := by
  rw [cacheCheckHandler, if_neg (by simp [hterminal, hpassed])]
  cases cacheGet svc ctx with
  | none => exact iff_of_true (.refl ctx) (by simp)
  | some cached =>
    simp only [Option.some.injEq, forall_eq']
    rw [CachedDecision.decision, ← ctx.sameOutcome_addDecision_iff]
    exact ⟨fun h => ⟨h.action, h.reason, h.skipModules⟩,
      fun h => ⟨h.action, h.reason, h.skipModules⟩⟩

private theorem rulesEngine_outcome_iff {svc : HardRuleServices} {ctx : Context}
    (hterminal : ctx.ipRuleTerminal = false) (hpassed : ctx.challengePassed = false) :
    Context.SameOutcome ctx (rulesEngineHandler svc ctx) ↔
      ∀ rules, svc.loadMergedRules ctx.ruleAppID = .ok rules →
        (∀ name ∈ (scanRules ctx.ruleContext rules).1, name ∈ ctx.skipModules) ∧
        ∀ r, (scanRules ctx.ruleContext rules).2 = some r → ctx.Stands r.decision := by
  rw [rulesEngineHandler, if_neg (by simp [hterminal])]
  cases svc.loadMergedRules ctx.ruleAppID with
  | error e => exact iff_of_true (.refl ctx) (by simp)
  | ok rules =>
    simp only [Except.ok.injEq, forall_eq', hpassed, Bool.false_eq_true, if_false]
    rw [rulesLoop_eq]
    cases hscan : (scanRules ctx.ruleContext rules).2 with
    | none =>
      simp only [reduceCtorEq, false_implies, implies_true, and_true]
      rw [← union_toFinset_eq_iff]
      exact ⟨fun h => h.skipModules, fun h => ⟨rfl, rfl, h⟩⟩
    | some r =>
      simp only [Option.some.injEq, forall_eq']
      have hskip : r.decision.action ≠ .skip := scanRules_ne_skip hscan
      rw [← union_toFinset_eq_iff, Context.Stands, or_iff_right hskip, Context.decideHard,
        Context.addDecision_of_ne_skip hskip]
      exact ⟨fun h => ⟨h.skipModules, h.action, h.reason⟩, fun h => ⟨h.2.1, h.2.2, h.1⟩⟩

omit [GoLib] in
/-- What a replayed decision leaves alone. -/
private theorem replayed_frame (svc : HardRuleServices) (ctx : Context) :
    Context.SameRequest ctx (ctx.replayed svc) ∧
      (ctx.replayed svc).ipRuleTerminal = ctx.ipRuleTerminal ∧
      (ctx.replayed svc).challengePassed = ctx.challengePassed ∧
      (ctx.replayed svc).skipModules = ctx.skipModules := by
  rw [Context.replayed]
  split
  · exact ⟨.refl ctx, rfl, rfl, rfl⟩
  · have hflags := ctx.addDecision_flags (CachedDecision.decision ‹_›)
    exact ⟨ctx.sameRequest_addDecision _, hflags.2.1, hflags.2.2,
      ctx.skipModules_newDecision _ _ _⟩

omit [GoLib] in
/-- The cache step after a hard decision replays into the decision. -/
private theorem cacheCheck_decideHard (svc : HardRuleServices) {ctx : Context} (d : Decision)
    (effects : List Effect) (hterminal : ctx.ipRuleTerminal = false)
    (hpassed : ctx.challengePassed = false) :
    ∃ hit, cacheCheckHandler svc (ctx.decideHard d effects) =
      { (ctx.addDecision d).replayed svc with
        hardDecision := true
        effects := ctx.effects ++ effects
        cacheHit := hit } := by
  have hflags := ctx.decideHard_flags d effects
  have hkey : cacheGet svc (ctx.decideHard d effects) = cacheGet svc (ctx.addDecision d) := rfl
  rw [cacheCheckHandler, if_neg (by simp [hflags, hterminal, hpassed]), hkey, Context.replayed]
  cases cacheGet svc (ctx.addDecision d) with
  | none => exact ⟨_, rfl⟩
  | some cached =>
    refine ⟨true, ?_⟩
    have hcomm : (ctx.decideHard d effects).addDecision cached.decision =
        { (ctx.addDecision d).addDecision cached.decision with
          hardDecision := true
          effects := ctx.effects ++ effects } := by
      unfold Context.decideHard Context.addDecision
      split <;> rfl
    dsimp only
    rw [hcomm]

/-! ### Where a hard decision can be made -/

variable {svc : HardRuleServices} {ctx : Context}

/-- A limiter decides as the third or the fourth handler, and nothing happened before. -/
private theorem limited_states {d : Decision} {effects : List Effect}
    (h : limiterDecision svc ctx.start = some (d, effects)) :
    hardRules svc ctx 2 = ctx.start ∧
      (hardRules svc ctx 3 = ctx.start ∨ hardRules svc ctx 3 = ctx.start.decideHard d effects) ∧
      hardRules svc ctx 4 = ctx.start.decideHard d effects := by
  obtain ⟨hlevel, hip, -⟩ := limiterDecision_open h
  have hvalid : challengeValidator svc ctx.start = ctx.start := by
    rw [challengeValidator, hlevel]
  have htwo : hardRules svc ctx 2 = ctx.start := by
    change ipAccessHandler svc (challengeValidator svc ctx.start) = _
    rw [ipAccessHandler, matchedIPRule_validator, hip, hvalid]
  have hthree : hardRules svc ctx 3 = ctx.start.limited (floodDecision svc ctx.start) := by
    change floodHandler svc (hardRules svc ctx 2) = _
    rw [htwo, floodHandler_eq]
  have hfour : hardRules svc ctx 4 = rateLimitHandler svc (hardRules svc ctx 3) := rfl
  rw [limiterDecision_eq hlevel hip] at h
  refine ⟨htwo, ?_⟩
  cases hflood : floodDecision svc ctx.start with
  | none =>
    rw [hflood, Option.none_or] at h
    rw [hflood] at hthree
    rw [hfour, hthree, rateLimitHandler_eq]
    refine ⟨.inl rfl, ?_⟩
    change ctx.start.limited (rateLimitDecision svc ctx.start) = _
    rw [h]
    rfl
  | some verdict =>
    rw [hflood, Option.some_or] at h
    rw [hflood, Option.some.inj h] at hthree
    rw [hfour, hthree]
    exact ⟨.inr rfl, if_pos (bypasses_of_hard rfl _)⟩

/-- A decision made after a limiter's is the limiter's. -/
private theorem limited_decides {d : Decision} {effects : List Effect} {n : ℕ}
    (h : limiterDecision svc ctx.start = some (d, effects)) (hn : DecidesHard svc ctx n) :
    (n = 2 ∨ n = 3) ∧ hardRules svc ctx (n + 1) = ctx.start.decideHard d effects := by
  obtain ⟨-, -, hsoft, -⟩ := limiterDecision_open h
  obtain ⟨htwo, hthree, hfour⟩ := limited_states h
  obtain ⟨hbefore, hafter⟩ := hn
  have hlower : 2 ≤ n := by
    by_contra hlt
    have := hardRules_mono (by omega : n + 1 ≤ 2) hafter
    rw [htwo, hsoft] at this
    exact Bool.false_ne_true this
  have hupper : n ≤ 3 := by
    by_contra hgt
    have := hardRules_mono (by omega : 4 ≤ n) (by rw [hfour]; rfl)
    rw [hbefore] at this
    exact Bool.false_ne_true this
  obtain rfl | rfl : n = 2 ∨ n = 3 := by omega
  · refine ⟨.inl rfl, hthree.resolve_left fun heq => ?_⟩
    rw [heq, hsoft] at hafter
    exact Bool.false_ne_true hafter
  · exact ⟨.inr rfl, hfour⟩

/-- A limiter's decision is made by the third handler or by the fourth. -/
private theorem exists_limited_decides {d : Decision} {effects : List Effect}
    (h : limiterDecision svc ctx.start = some (d, effects)) :
    ∃ n, DecidesHard svc ctx n ∧ n ≤ 3 := by
  obtain ⟨-, -, hsoft, -⟩ := limiterDecision_open h
  obtain ⟨htwo, hthree, hfour⟩ := limited_states h
  rcases hthree with heq | heq
  · refine ⟨3, ⟨?_, ?_⟩, le_rfl⟩
    · rw [heq, hsoft]
    · rw [hfour]
      rfl
  · refine ⟨2, ⟨?_, ?_⟩, by omega⟩
    · rw [htwo, hsoft]
    · rw [heq]
      rfl

/-- The cache step after a limiter's decision. -/
private theorem limited_cache_iff {d : Decision} {effects : List Effect}
    (h : limiterDecision svc ctx.start = some (d, effects)) :
    Context.SameOutcome (hardRules svc ctx 4) (hardRules svc ctx 5) ↔
      ∀ cached, cacheGet svc ctx.start = some cached →
        (ctx.start.addDecision d).Stands cached.decision := by
  obtain ⟨-, -, -, hterminal, hpassed⟩ := limiterDecision_open h
  obtain ⟨-, -, hfour⟩ := limited_states h
  have hflags := ctx.start.decideHard_flags d effects
  have hkey : cacheGet svc (ctx.start.decideHard d effects) = cacheGet svc ctx.start := by
    have hsame := ctx.start.sameRequest_addDecision d
    rw [cacheGet, cacheGet, ← generateKey_sameRequest svc hsame]
    rfl
  change Context.SameOutcome _ (cacheCheckHandler svc (hardRules svc ctx 4)) ↔ _
  rw [hfour, cacheCheck_outcome_iff (hflags.2.1.trans hterminal) (hflags.2.2.trans hpassed), hkey]
  rfl

/-- The step of the rules after a limiter's decision. -/
private theorem limited_rules_iff {d : Decision} {effects : List Effect}
    (h : limiterDecision svc ctx.start = some (d, effects)) :
    Context.SameOutcome (hardRules svc ctx 5) (hardRules svc ctx 6) ↔
      ∀ rules, svc.loadMergedRules ctx.ruleAppID = .ok rules →
        (∀ name ∈ (scanRules ctx.start.ruleContext rules).1, name ∈ ctx.skipModules) ∧
        ∀ r, (scanRules ctx.start.ruleContext rules).2 = some r →
          ((ctx.start.addDecision d).replayed svc).Stands r.decision := by
  obtain ⟨-, -, -, hterminal, hpassed⟩ := limiterDecision_open h
  obtain ⟨-, -, hfour⟩ := limited_states h
  obtain ⟨action, source, reason, hplain⟩ := limiterDecision_plain h
  have hmodules : (ctx.start.addDecision d).skipModules = ctx.skipModules := by
    rw [hplain]
    exact ctx.start.skipModules_newDecision action source reason
  obtain ⟨hit, hcache⟩ := cacheCheck_decideHard svc d effects hterminal hpassed
  obtain ⟨hsame', hterminal', hpassed', hmodules'⟩ :=
    replayed_frame svc (ctx.start.addDecision d)
  have hflags := ctx.start.addDecision_flags d
  have hsame := (ctx.start.sameRequest_addDecision d).trans hsame'
  -- the rules are asked in the state the cache has left
  have hstate : hardRules svc ctx 5 = cacheCheckHandler svc (hardRules svc ctx 4) := rfl
  rw [hfour, hcache] at hstate
  have hterminal₅ : (hardRules svc ctx 5).ipRuleTerminal = false := by
    rw [hstate]
    exact hterminal'.trans (hflags.2.1.trans hterminal)
  have hpassed₅ : (hardRules svc ctx 5).challengePassed = false := by
    rw [hstate]
    exact hpassed'.trans (hflags.2.2.trans hpassed)
  have happ₅ : (hardRules svc ctx 5).ruleAppID = ctx.ruleAppID := by
    rw [hstate]
    exact hsame.ruleAppID
  have hcontext₅ : (hardRules svc ctx 5).ruleContext = ctx.start.ruleContext := by
    rw [hstate]
    exact hsame.ruleContext
  have hmodules₅ : (hardRules svc ctx 5).skipModules = ctx.skipModules := by
    rw [hstate]
    exact hmodules'.trans hmodules
  have hstands₅ (d' : Decision) : (hardRules svc ctx 5).Stands d' ↔
      ((ctx.start.addDecision d).replayed svc).Stands d' := by
    rw [hstate]
    exact Iff.rfl
  refine (rulesEngine_outcome_iff hterminal₅ hpassed₅).trans ?_
  simp only [happ₅, hcontext₅, hmodules₅, hstands₅]

/-- A decision of the limiters is final exactly when it stands against the cache and the rules. -/
private theorem limited_final_iff {d : Decision} {effects : List Effect}
    (h : limiterDecision svc ctx.start = some (d, effects)) :
    (∀ n m, DecidesHard svc ctx n → n + 1 ≤ m →
        Context.SameOutcome (hardRules svc ctx (n + 1)) (hardRules svc ctx m)) ↔
      HardDecisionStands svc ctx := by
  obtain ⟨-, -, hfour⟩ := limited_states h
  constructor
  · intro hlater
    obtain ⟨n, hn, hle⟩ := exists_limited_decides h
    have hmade := (limited_decides h hn).2
    have hcache := hlater n 5 hn (by omega)
    have hrules := hlater n 6 hn (by omega)
    rw [hmade, ← hfour] at hcache hrules
    intro d' effects' h'
    obtain ⟨rfl, -⟩ := Prod.mk.inj (Option.some.inj (h.symm.trans h'))
    exact ⟨(limited_cache_iff h).mp hcache, (limited_rules_iff h).mp (hcache.symm.trans hrules)⟩
  · intro hstands n m hn hle
    obtain ⟨hcached, hrules⟩ := hstands d effects h
    obtain ⟨hn', hmade⟩ := limited_decides h hn
    have hcache := (limited_cache_iff h).mpr hcached
    have hrun := hcache.trans ((limited_rules_iff h).mpr hrules)
    rw [hmade, ← hfour]
    -- before the cache step nothing changes, and after the rules nothing is left to come
    obtain hm | rfl | hm : m ≤ 4 ∨ m = 5 ∨ 6 ≤ m := by omega
    · obtain ⟨rfl, rfl⟩ | rfl : (n = 2 ∧ m = 3) ∨ m = 4 := by omega
      · rw [hmade, ← hfour]
        exact .refl _
      · exact .refl _
    · exact hcache
    · rw [hardRules_of_le hm]
      exact hrun

/-- After a rule of the access list the run stands still. -/
private theorem terminal_states {rule : IPAccessRule}
    (h : matchedIPRule svc ctx.start = some rule) {m : ℕ} (hm : 2 ≤ m) :
    hardRules svc ctx m = hardRules svc ctx 2 := by
  have htwo : hardRules svc ctx 2 =
      { (challengeValidator svc ctx.start).decideHard rule.decision [] with
        ipRuleTerminal := true } := by
    change ipAccessHandler svc (challengeValidator svc ctx.start) = _
    rw [ipAccessHandler, matchedIPRule_validator, h]
  have hhard : (hardRules svc ctx 2).hardDecision = true := by
    rw [htwo]
    rfl
  have hterminal : (hardRules svc ctx 2).ipRuleTerminal = true := by
    rw [htwo]
  have hthree : hardRules svc ctx 3 = hardRules svc ctx 2 :=
    if_pos (bypasses_of_hard hhard _)
  have hfour : hardRules svc ctx 4 = hardRules svc ctx 2 := by
    change rateLimitHandler svc (hardRules svc ctx 3) = _
    rw [hthree]
    exact if_pos (bypasses_of_hard hhard _)
  have hfive : hardRules svc ctx 5 = hardRules svc ctx 2 := by
    change cacheCheckHandler svc (hardRules svc ctx 4) = _
    rw [hfour]
    exact if_pos (by simp [hterminal])
  have hsix : hardRules svc ctx 6 = hardRules svc ctx 2 := by
    change rulesEngineHandler svc (hardRules svc ctx 5) = _
    rw [hfive]
    exact if_pos hterminal
  obtain rfl | rfl | rfl | rfl | hm : m = 2 ∨ m = 3 ∨ m = 4 ∨ m = 5 ∨ 6 ≤ m := by omega
  · rfl
  · exact hthree
  · exact hfour
  · exact hfive
  · rw [hardRules_of_le hm]
    exact hsix

/-- The cookie check makes no hard decision. -/
private theorem hardDecision_one :
    (hardRules svc ctx 1).hardDecision = ctx.start.hardDecision := by
  change (challengeValidator svc ctx.start).hardDecision = _
  rw [challengeValidator]
  split <;> rfl

/-- Without a rule of the access list and a decision of the limiters, the rules alone can make a
hard decision. -/
private theorem unlimited_soft (hip : matchedIPRule svc ctx.start = none)
    (h : limiterDecision svc ctx.start = none) (hsoft : ctx.start.hardDecision = false) :
    (hardRules svc ctx 5).hardDecision = false := by
  have htwo : hardRules svc ctx 2 = challengeValidator svc ctx.start := by
    change ipAccessHandler svc (challengeValidator svc ctx.start) = _
    rw [ipAccessHandler, matchedIPRule_validator, hip]
  have hnone : floodDecision svc (challengeValidator svc ctx.start) = none ∧
      rateLimitDecision svc (challengeValidator svc ctx.start) = none := by
    cases hlevel : clearanceLevel svc ctx.start with
    | none =>
      rw [limiterDecision_eq hlevel hip] at h
      rw [challengeValidator, hlevel]
      exact Option.or_eq_none_iff.mp h
    | some level =>
      rw [challengeValidator, hlevel, floodDecision, rateLimitDecision]
      exact ⟨if_pos (bypasses_of_passed rfl _), if_pos (bypasses_of_passed rfl _)⟩
  have hfour : hardRules svc ctx 4 = challengeValidator svc ctx.start := by
    change rateLimitHandler svc (floodHandler svc (hardRules svc ctx 2)) = _
    rw [htwo, floodHandler_eq, hnone.1, Context.limited, rateLimitHandler_eq, hnone.2]
    rfl
  have hkeeps : (hardRules svc ctx 5).hardDecision = (hardRules svc ctx 4).hardDecision := by
    change (cacheCheckHandler svc (hardRules svc ctx 4)).hardDecision = _
    rw [cacheCheckHandler]
    split
    · rfl
    split
    · rfl
    · exact (Context.addDecision_flags _ _).1
  rw [hkeeps, hfour]
  exact hardDecision_one.trans hsoft

/-- Without a decision of the limiters nothing happens after a hard decision. -/
private theorem unlimited_final (h : limiterDecision svc ctx.start = none) {n m : ℕ}
    (hn : DecidesHard svc ctx n) (hm : n + 1 ≤ m) :
    hardRules svc ctx m = hardRules svc ctx (n + 1) := by
  obtain ⟨hbefore, hafter⟩ := hn
  have hsoft : ctx.start.hardDecision = false := by
    refine Bool.eq_false_iff.mpr fun hhard => ?_
    rw [hardRules_mono n.zero_le hhard] at hbefore
    exact Bool.false_ne_true hbefore.symm
  cases hip : matchedIPRule svc ctx.start with
  | some rule =>
    have hpos : n ≠ 0 := by
      rintro rfl
      rw [hardDecision_one, hsoft] at hafter
      exact Bool.false_ne_true hafter
    rw [terminal_states hip (by omega), terminal_states hip (by omega : 2 ≤ n + 1)]
  | none =>
    have hlower : 5 ≤ n := by
      by_contra hlt
      have hfive := hardRules_mono (by omega : n + 1 ≤ 5) hafter
      rw [unlimited_soft hip h hsoft] at hfive
      exact Bool.false_ne_true hfive
    rw [hardRules_of_le (by omega), hardRules_of_le (by omega : 6 ≤ n + 1)]

/-- **A hard decision is final** exactly when a decision of the limiters stands against the cache
and the rules. A decision of the access list or of a rule is always final. -/
theorem hardRules_terminal_iff (svc : Services) (ctx : Context) :
    HardDecisionFinal svc ctx ↔ HardDecisionStands svc.toHardRuleServices ctx := by
  have hlater : (∀ n m, DecidesHard svc.toHardRuleServices ctx n → n + 1 ≤ m →
      Context.SameOutcome (hardRules svc.toHardRuleServices ctx (n + 1))
        (hardRules svc.toHardRuleServices ctx m)) ↔
      HardDecisionStands svc.toHardRuleServices ctx := by
    cases h : limiterDecision svc.toHardRuleServices ctx.start with
    | some verdict => exact limited_final_iff h
    | none =>
      refine iff_of_true (fun n m hn hm => ?_) fun d effects h' => ?_
      · rw [unlimited_final h hn hm]
        exact .refl _
      · rw [h] at h'
        exact absurd h' (by simp)
  rw [← hlater]
  refine ⟨fun h => h.later, fun h => ⟨h, ?_⟩⟩
  rintro ⟨n, hn⟩
  have hmono : ∀ handler ∈ phase1 svc.toHardRuleServices, ∀ c : Context,
      c.hardDecision = true → (handler c).hardDecision = true :=
    fun _ hmem => hardDecision_of_mem hmem
  have hend : (runPhase (phase1 svc.toHardRuleServices) ctx.start).hardDecision = true := by
    have hsix := hardRules_mono (by omega : n + 1 ≤ n + 6) hn.2
    rw [hardRules_of_le (by omega)] at hsix
    exact hsix
  have hagree := runs_agree (fun c : Context => (c.action, c.reason)) hmono hn fun m hm =>
    Prod.ext (h n m hn hm).action (h n m hn hm).reason
  rw [execute_eq, (phase4_eq _).1, phase4_reason, decided_of_hard hend, executeWebSocketChecks,
    runUntilHard_eq]
  exact Prod.mk.inj hagree

/-- **In ranks.** Where action and reason are those of the current decision, as in every context
the request handler builds, a limiter's decision stands when neither the cached decision nor the
first terminal rule outranks it, or what it was resolved against, and no skip rule before that one
names a new module. -/
theorem hardDecisionStands_iff_of_synced (hsynced : ctx.Synced) :
    HardDecisionStands svc ctx ↔
      ∀ d effects, limiterDecision svc ctx.start = some (d, effects) →
        (∀ cached, cacheGet svc ctx.start = some cached →
          cached.decision.rank ≤ max ctx.currentDecision.rank d.rank) ∧
        ∀ rules, svc.loadMergedRules ctx.ruleAppID = .ok rules →
          (∀ name ∈ (scanRules ctx.start.ruleContext rules).1, name ∈ ctx.skipModules) ∧
          ∀ r, (scanRules ctx.start.ruleContext rules).2 = some r →
            r.decision.rank ≤ max ctx.currentDecision.rank d.rank := by
  have hstart : ctx.start.Synced := ⟨hsynced.action, hsynced.reason⟩
  refine forall_congr' fun d => forall_congr' fun effects => imp_congr_right fun _ => ?_
  have hmade : (ctx.start.addDecision d).Synced := hstart.addDecision d
  have hrank : (ctx.start.addDecision d).currentDecision.rank =
      max ctx.currentDecision.rank d.rank := by
    rw [Context.currentDecision_addDecision, rank_resolveDecision]
    rfl
  have hkey : cacheGet svc (ctx.start.addDecision d) = cacheGet svc ctx.start := by
    rw [cacheGet, cacheGet, generateKey_sameRequest svc (ctx.start.sameRequest_addDecision d)]
  simp only [hmade.stands_iff, hrank]
  refine and_congr_right fun hcached => ?_
  -- a cached decision of no higher rank leaves the rank for the rules to meet
  have hreplayed : ((ctx.start.addDecision d).replayed svc).Synced ∧
      ((ctx.start.addDecision d).replayed svc).currentDecision.rank =
        max ctx.currentDecision.rank d.rank := by
    rw [Context.replayed, hkey]
    cases hget : cacheGet svc ctx.start with
    | none => exact ⟨hmade, hrank⟩
    | some cached =>
      refine ⟨hmade.addDecision _, ?_⟩
      rw [Context.currentDecision_addDecision, rank_resolveDecision, hrank,
        max_eq_left (hcached cached hget)]
  simp only [hreplayed.1.stands_iff, hreplayed.2]

end Run

section Evaluated

attribute [local instance] asciiLib

/-- A rule that blocks the front page. -/
def frontPageRule : CompiledRule where
  id := 1
  name := str "front page"
  ast := .comparison (str "http.path") (str "eq") (.string (str "/"))
  action := .block
  skipModules := []
  enabled := true

/-- An address under a flood penalty, and a rule against the page it asks for. -/
def floodedServices : Services where
  toHardRuleServices :=
    { quietServices.toHardRuleServices with
      flood := { quietServices.flood with isChallenged := fun _ => true }
      loadMergedRules := fun _ => .ok [frontPageRule] }
  toScoringServices := quietServices.toScoringServices

/-- An address under a flood penalty asks for a blocked page: flood protection decides on a
challenge, and the rule overrules it where the checks for web sockets stop. -/
theorem hardRules_overruled :
    ¬ ∀ (svc : Services) (ctx : Context), HardDecisionFinal svc ctx := by
  intro h
  have hflood : DecidesHard floodedServices.toHardRuleServices plainVisit.context 2 := by
    rw [DecidesHard]
    decide
  have hruns := ((h floodedServices plainVisit.context).runs ⟨2, hflood⟩).1
  revert hruns
  decide

end Evaluated

end VibesWaf

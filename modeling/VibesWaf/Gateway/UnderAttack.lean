import VibesWaf.Gateway.ServeHTTP
import VibesWaf.Pipeline.Clearance

/-!
# Under-attack mode

An application under attack starts the pipeline with the decision to challenge. Nothing but a block
outranks it, so in the pipeline nobody gets past it without a clearance; an allow rule of the access
list does not get past it either. The branch for web sockets is before it, and knows nothing of it.

`ipRules_obeyed_iff` says when a rule of the access list has the effect it names, and
`underAttack_holds_iff` when an application under attack is reached by visitors with a clearance,
or an allow rule, alone.
-/

namespace VibesWaf

open Context

/-! ### The rank of a challenge -/

/-- The actions with which a request is not forwarded are those of the two highest ranks. -/
theorem forwarded_iff_rank (a : Action) : forwarded a = true ↔ getActionRank a < 3 := by
  cases a <;> simp [forwarded, getActionRank]

theorem not_forwarded_iff (a : Action) : forwarded a = false ↔ a = .block ∨ a = .challenge := by
  cases a <;> simp [forwarded]

/-- A context whose decision is a challenge or a block. -/
structure Context.Held (ctx : Context) : Prop where
  synced : ctx.Synced
  rank : 3 ≤ ctx.currentDecision.rank

theorem Context.Held.moves {ctx ctx' : Context} (h : ctx.Held) (hmoves : Moves ctx ctx') :
    ctx'.Held :=
  ⟨hmoves.synced h.synced, h.rank.trans hmoves.rank_le⟩

/-- Where the two copies of the decision agree, the request is forwarded by its rank. -/
theorem Context.Synced.forwarded_iff {ctx : Context} (h : ctx.Synced) :
    forwarded ctx.action = true ↔ ctx.currentDecision.rank < 3 := by
  rw [forwarded_iff_rank, h.action]
  rfl

theorem Context.Held.not_forwarded {ctx : Context} (h : ctx.Held) :
    forwarded ctx.action = false := by
  rw [← Bool.not_eq_true, h.synced.forwarded_iff]
  exact not_lt.mpr h.rank

theorem runUntilHard_of_hard {h : Context → Context} {hs : List (Context → Context)}
    {ctx : Context} (hhard : (h ctx).hardDecision = true) :
    runUntilHard (h :: hs) ctx = h ctx :=
  if_pos hhard

theorem runUntilHard_of_soft {h : Context → Context} {hs : List (Context → Context)}
    {ctx : Context} (hsoft : (h ctx).hardDecision = false) :
    runUntilHard (h :: hs) ctx = runUntilHard hs (h ctx) :=
  if_neg (by simp [hsoft])

theorem runUntilHard_singleton (h : Context → Context) (ctx : Context) :
    runUntilHard [h] ctx = h ctx :=
  ite_self _

section Visits

variable [GoLib]

/-- Without a clearance a visit that starts as a challenge stays held. -/
theorem decided_held {svc : Services} {ctx : Context} (h : ctx.Held)
    (hlevel : clearanceLevel svc.toHardRuleServices ctx.start = none) : (decided svc ctx).Held := by
  have hstart : ctx.start.Held := ⟨⟨h.synced.action, h.synced.reason⟩, h.rank⟩
  have hvalid : challengeValidator svc.toHardRuleServices ctx.start = ctx.start := by
    rw [challengeValidator, hlevel]
  have hphase1 : (runPhase (phase1 svc.toHardRuleServices) ctx.start).Held := by
    change (EarlyExit.runAll (phase1 svc.toHardRuleServices).tail
      (challengeValidator svc.toHardRuleServices ctx.start)).Held
    rw [hvalid]
    exact EarlyExit.runAll_preserves
      (fun _ hmem c hc => hc.moves (moves_of_mem_phase1 hmem c)) hstart
  unfold decided
  generalize runPhase (phase1 svc.toHardRuleServices) ctx.start = c at hphase1
  dsimp only
  split
  · exact ⟨⟨hphase1.synced.action, hphase1.synced.reason⟩, hphase1.rank⟩
  · -- scoring does not touch the decision, and the decision engine finds it made
    have hscored := hphase1.moves (moves_of_scores (phase2_frame svc.toScoringServices c))
    have hweighed : (weighScore svc.toScoringServices
        (runPhase (phase2 svc.toScoringServices) c)).Held :=
      ⟨⟨hscored.synced.action, hscored.synced.reason⟩, hscored.rank⟩
    exact hweighed.moves (moves_decisionEngine _ _)

/-- **In the pipeline** a visit that starts as a challenge ends with a page, unless the visitor has
a clearance. -/
theorem execute_held {svc : Services} {ctx : Context} (h : ctx.Held)
    (hfresh : ctx.challengePassed = false)
    (hlevel : clearanceLevel svc.toHardRuleServices ctx.start = none) :
    (execute svc ctx).2 = true := by
  have hheld := decided_held h hlevel
  have hpassed : (decided svc ctx).challengePassed = false := by
    rw [decided_passed, passed_phase1 hlevel]
    exact hfresh
  rw [execute_eq, (phase4_eq _).2, hpassed]
  have hforward := hheld.not_forwarded
  cases haction : (decided svc ctx).action <;> simp [haction, forwarded] at hforward ⊢

/-! ### The checks for web sockets -/

/-- The hard rules let a visitor without a clearance and without an allow rule pass: the first of
the access list, flood protection and the rate limit that decides does not stop the visitor, or if
none decides, neither does a cached decision, and no terminal rule matches. -/
def ChecksPass (svc : HardRuleServices) (ctx : Context) : Prop :=
  match matchedIPRule svc ctx with
  | some rule => forwarded rule.action = true
  | none =>
    match limiterDecision svc ctx with
    | some (d, _) => forwarded d.action = true
    | none =>
      (∀ cached, cacheGet svc ctx = some cached → forwarded cached.action = true) ∧
        ∀ rules, svc.loadMergedRules ctx.ruleAppID = .ok rules →
          (scanRules ctx.ruleContext rules).2 = none

/-- A custom rule that allows the request. -/
def AllowRuleMatches (svc : HardRuleServices) (ctx : Context) : Prop :=
  ∃ rules, svc.loadMergedRules ctx.ruleAppID = .ok rules ∧
    ∃ r ∈ rules, r.matched ctx.ruleContext = true ∧ r.action = .allow

/-- The first terminal rule is one of the rules, and matches. -/
theorem scanRules_mem {ctx : RequestContext} {rules : List CompiledRule} {r : CompiledRule}
    (h : (scanRules ctx rules).2 = some r) :
    r ∈ rules ∧ r.matched ctx = true ∧ r.terminal = true := by
  induction rules with
  | nil => exact absurd h (by simp [scanRules])
  | cons r' rules ih =>
    have htail (h' : (scanRules ctx rules).2 = some r) :
        r ∈ r' :: rules ∧ r.matched ctx = true ∧ r.terminal = true :=
      ⟨List.mem_cons_of_mem _ (ih h').1, (ih h').2⟩
    rw [scanRules] at h
    split at h
    · rename_i hmatched
      split at h
      · rename_i hterminal
        obtain rfl := Option.some.inj h
        exact ⟨List.mem_cons_self, hmatched, hterminal⟩
      split at h
      · exact htail h
      · exact htail h
    · exact htail h

omit [GoLib] in
/-- A decision added to an open context leaves it open exactly when it stops nobody. -/
private theorem forwarded_addDecision {ctx : Context} (hsynced : ctx.Synced)
    (hopen : ctx.currentDecision.rank < 3) (d : Decision) :
    forwarded (ctx.addDecision d).action = true ↔ forwarded d.action = true := by
  rw [(hsynced.addDecision d).forwarded_iff, currentDecision_addDecision, rank_resolveDecision,
    max_lt_iff, forwarded_iff_rank]
  exact and_iff_right hopen

omit [GoLib] in
/-- The cache stops a visitor with a cached decision that does. -/
private theorem cacheCheck_forwarded_iff {svc : HardRuleServices} {ctx : Context}
    (hsynced : ctx.Synced) (hopen : ctx.currentDecision.rank < 3)
    (hterminal : ctx.ipRuleTerminal = false) (hpassed : ctx.challengePassed = false) :
    forwarded (cacheCheckHandler svc ctx).action = true ↔
      ∀ cached, cacheGet svc ctx = some cached → forwarded cached.action = true := by
  rw [cacheCheckHandler, if_neg (by simp [hterminal, hpassed])]
  cases cacheGet svc ctx with
  | none => exact iff_of_true (hsynced.forwarded_iff.mpr hopen) (by simp)
  | some cached =>
    simp only [Option.some.injEq, forall_eq']
    exact forwarded_addDecision hsynced hopen cached.decision

/-- The rules stop a visitor with a terminal rule, when none of them allows. -/
private theorem rulesEngine_forwarded_iff {svc : HardRuleServices} {ctx : Context}
    (hsynced : ctx.Synced) (hterminal : ctx.ipRuleTerminal = false)
    (hpassed : ctx.challengePassed = false) (hallow : ¬ AllowRuleMatches svc ctx) :
    forwarded (rulesEngineHandler svc ctx).action = true ↔
      forwarded ctx.action = true ∧
        ∀ rules, svc.loadMergedRules ctx.ruleAppID = .ok rules →
          (scanRules ctx.ruleContext rules).2 = none := by
  rw [rulesEngineHandler, if_neg (by simp [hterminal])]
  cases hload : svc.loadMergedRules ctx.ruleAppID with
  | error e => simp
  | ok rules =>
    simp only [Except.ok.injEq, forall_eq', hpassed, Bool.false_eq_true, if_false]
    rw [rulesLoop_eq]
    cases hscan : (scanRules ctx.ruleContext rules).2 with
    | none => simp [Context.skipping]
    | some r =>
      simp only [reduceCtorEq, and_false, iff_false, Bool.not_eq_true]
      obtain ⟨hmem, hmatched, hterminal'⟩ := scanRules_mem hscan
      have hstops : 3 ≤ r.decision.rank := by
        have hne : r.action ≠ .allow := fun heq => hallow ⟨rules, hload, r, hmem, hmatched, heq⟩
        change 3 ≤ getActionRank r.action
        cases haction : r.action <;>
          simp [CompiledRule.terminal, haction, getActionRank] at hterminal' hne ⊢
      have hskip : (ctx.skipping (scanRules ctx.ruleContext rules).1).Synced :=
        ⟨hsynced.action, hsynced.reason⟩
      have hheld : ((ctx.skipping (scanRules ctx.ruleContext rules).1).addDecision
          r.decision).Held := by
        refine ⟨hskip.addDecision _, ?_⟩
        rw [currentDecision_addDecision, rank_resolveDecision]
        exact hstops.trans (le_max_right _ _)
      exact hheld.not_forwarded

/-- **The checks for web sockets**, for a visitor with nothing decided yet: without a clearance and
without an allow rule they pass exactly when no hard rule stops the visitor. -/
theorem webSocketChecks_forwarded_iff {svc : Services} {ctx : Context} (hsynced : ctx.Synced)
    (hopen : ctx.currentDecision.rank < 3) (hsoft : ctx.hardDecision = false)
    (hterminal : ctx.ipRuleTerminal = false) (hpassed : ctx.challengePassed = false)
    (hlevel : clearanceLevel svc.toHardRuleServices ctx.start = none)
    (hallow : ¬ AllowRuleMatches svc.toHardRuleServices ctx.start) :
    forwarded (executeWebSocketChecks svc ctx).action = true ↔
      ChecksPass svc.toHardRuleServices ctx.start := by
  replace hsynced : ctx.start.Synced := ⟨hsynced.action, hsynced.reason⟩
  replace hopen : ctx.start.currentDecision.rank < 3 := hopen
  replace hsoft : ctx.start.hardDecision = false := hsoft
  replace hterminal : ctx.start.ipRuleTerminal = false := hterminal
  replace hpassed : ctx.start.challengePassed = false := hpassed
  rw [executeWebSocketChecks]
  generalize ctx.start = c at *
  generalize svc.toHardRuleServices = s at *
  have hvalid : challengeValidator s c = c := by rw [challengeValidator, hlevel]
  rw [phase1, runUntilHard_of_soft (by rw [hvalid, hsoft]), hvalid, ChecksPass]
  cases hip : matchedIPRule s c with
  | some rule =>
    have hstop : ipAccessHandler s c =
        { c.decideHard rule.decision [] with ipRuleTerminal := true } := by
      rw [ipAccessHandler, hip]
    rw [runUntilHard_of_hard (by rw [hstop]; rfl), hstop]
    exact forwarded_addDecision hsynced hopen rule.decision
  | none =>
    have hstay : ipAccessHandler s c = c := by rw [ipAccessHandler, hip]
    rw [runUntilHard_of_soft (by rw [hstay, hsoft]), hstay, limiterDecision_eq hlevel hip]
    cases hflood : floodDecision s c with
    | some verdict =>
      have hstop : floodHandler s c = c.decideHard verdict.1 verdict.2 := by
        rw [floodHandler_eq, hflood]
        rfl
      rw [runUntilHard_of_hard (by rw [hstop]; rfl), hstop, Option.some_or]
      exact forwarded_addDecision hsynced hopen verdict.1
    | none =>
      have hpass : floodHandler s c = c := by rw [floodHandler_eq, hflood, Context.limited]
      rw [runUntilHard_of_soft (by rw [hpass, hsoft]), hpass, Option.none_or]
      cases hrate : rateLimitDecision s c with
      | some verdict =>
        have hstop : rateLimitHandler s c = c.decideHard verdict.1 verdict.2 := by
          rw [rateLimitHandler_eq, hrate]
          rfl
        rw [runUntilHard_of_hard (by rw [hstop]; rfl), hstop]
        exact forwarded_addDecision hsynced hopen verdict.1
      | none =>
        have hpass' : rateLimitHandler s c = c := by
          rw [rateLimitHandler_eq, hrate, Context.limited]
        rw [runUntilHard_of_soft (by rw [hpass', hsoft]), hpass']
        -- the cache makes no hard decision, so the rules are asked in any case
        obtain ⟨hsame, hflags⟩ := cacheCheck_frame s c
        rw [runUntilHard_of_soft (by rw [hflags.1, hsoft]), runUntilHard_singleton,
          rulesEngine_forwarded_iff ((moves_cacheCheckHandler s c).synced hsynced)
            (hflags.2.1.trans hterminal) (hflags.2.2.trans hpassed)
            (by rwa [AllowRuleMatches, hsame.ruleAppID, hsame.ruleContext]),
          cacheCheck_forwarded_iff hsynced hopen hterminal hpassed, hsame.ruleAppID,
          hsame.ruleContext]

end Visits

/-! ### Visitors of an application under attack -/

/-- The client's request is sent to the upstream. -/
def Response.ReachesUpstream : Response → Prop
  | .tunnel _ _ | .proxied _ _ => True
  | _ => False

section Handler

variable [GoLib] {g : Gateway} {r : Request}

namespace Gateway

/-- The context of a request to an application, before any decision. -/
def reached (g : Gateway) (r : Request) (app : App) : Context :=
  (g.visit r (some app) (clientIP r (some app)) false).context.start

/-- The request has a clearance that is accepted, or a rule of the access list or a custom rule
allows it. -/
def Admitted (g : Gateway) (r : Request) (app : App) : Prop :=
  (clearanceLevel g.pipeline.toHardRuleServices (g.reached r app)).isSome = true ∨
    (∃ rule, matchedIPRule g.pipeline.toHardRuleServices (g.reached r app) = some rule ∧
      rule.action = .allow) ∨
    AllowRuleMatches g.pipeline.toHardRuleServices (g.reached r app)

/-- A request to an application under attack, but for a static asset, reaches the upstream only when
it is admitted. -/
def UnderAttackHolds (g : Gateway) (r : Request) : Prop :=
  ∀ app, g.getAppByDomain r.host = some app → app.underAttackMode = true →
    isStaticAsset r.path = false → (g.serveHTTP r).response.ReachesUpstream → g.Admitted r app

/-- An upgrade of a visitor who is not admitted, to an application under attack that allows web
sockets: nothing before the upgrade branch answers it, the hard rules let it pass, its headers are
valid, and neither the limiter nor the upstream is missing. -/
structure UnverifiedUpgrade (g : Gateway) (r : Request) (app : App) : Prop where
  resolved : g.getAppByDomain r.host = some app
  underAttack : app.underAttackMode = true
  https : redirectsHTTPS r (some app) = false
  preflight : isPreflight r (some app) = false
  asset : isStaticAsset r.path = false
  root : ¬ (app.rootRedirect ≠ [] ∧ r.path = str "/")
  upgrade : isWebSocketUpgrade r = true
  allowed : app.advanced.allowWebSocket = true
  checks : ChecksPass g.pipeline.toHardRuleServices (g.reached r app)
  headers : isValidWebSocketUpgrade r = true
  limit : (g.webSocketLimit.all fun allow => allow app.id (clientIP r (some app))) = true
  upstream : ∃ u ∈ app.upstreams, u.enabled = true
  unverified : ¬ g.Admitted r app

/-- The upgrade branch reaches the upstream when all its checks pass. -/
theorem serveWebSocket_reaches_iff {app : App} {ip : GoString} :
    (g.serveWebSocket r (some app) ip).response.ReachesUpstream ↔
      app.advanced.allowWebSocket = true ∧
        forwarded (executeWebSocketChecks g.pipeline
          (g.visit r (some app) ip false).context).action = true ∧
        isValidWebSocketUpgrade r = true ∧
        (g.webSocketLimit.all fun allow => allow app.id ip) = true ∧
        ∃ u ∈ app.upstreams, u.enabled = true := by
  rw [serveWebSocket]
  change Response.ReachesUpstream (Served.response (if app.advanced.allowWebSocket = false then _
    else _)) ↔ _
  cases app.advanced.allowWebSocket with
  | false => simp [Response.ReachesUpstream]
  | true =>
    rw [if_neg (by simp)]
    dsimp only
    simp only [← not_forwarded_iff]
    cases forwarded (executeWebSocketChecks g.pipeline
      (g.visit r (some app) ip false).context).action with
    | false => simp [Response.ReachesUpstream]
    | true =>
      rw [if_neg (by simp)]
      cases isValidWebSocketUpgrade r with
      | false => simp [Response.ReachesUpstream]
      | true =>
        rw [if_neg (by simp)]
        change Response.ReachesUpstream (Served.response (if
          (g.webSocketLimit.all fun allow => allow app.id ip) = false then _ else _)) ↔ _
        cases g.webSocketLimit.all fun allow => allow app.id ip with
        | false => simp [Response.ReachesUpstream]
        | true =>
          rw [if_neg (by simp)]
          have hup : (∃ upstream, g.upstream (some app) ip = some upstream) ↔
              ∃ u ∈ app.upstreams, u.enabled = true := by
            rw [upstream_isSome_iff]
            simp
          rw [← hup]
          cases g.upstream (some app) ip with
          | none => simp [Response.ReachesUpstream]
          | some upstream => simp [Response.ReachesUpstream]

/-- The checks of the upgrade branch, for a visitor who is not admitted. -/
theorem webSocketChecks_unverified {app : App} (h : ¬ g.Admitted r app) :
    forwarded (executeWebSocketChecks g.pipeline
        (g.visit r (some app) (clientIP r (some app)) false).context).action = true ↔
      ChecksPass g.pipeline.toHardRuleServices (g.reached r app) := by
  simp only [Admitted, not_or, Bool.not_eq_true, Option.isSome_eq_false_iff,
    Option.isNone_iff_eq_none] at h
  obtain ⟨hlevel, -, hrules⟩ := h
  have hopen : Decision.zero.rank < 3 := by decide
  exact webSocketChecks_forwarded_iff (Visit.context_synced _) hopen rfl rfl rfl hlevel hrules

/-- **In the pipeline** nobody reaches an upstream under attack without a clearance. -/
theorem serveVisit_underAttack {app : App} (hattack : app.underAttackMode = true)
    (hlevel : clearanceLevel g.pipeline.toHardRuleServices (g.reached r app) = none) :
    ¬ (g.serveVisit r (some app) (clientIP r (some app))).response.ReachesUpstream := by
  have hvisit : (g.visit r (some app) (clientIP r (some app))
      ((some app).any (·.underAttackMode))).context =
        (g.visit r (some app) (clientIP r (some app)) true).context := by
    rw [Option.any_some, hattack]
  have hrank : 3 ≤ underAttackDecision.rank := by decide
  have hheld : (g.visit r (some app) (clientIP r (some app)) true).context.Held :=
    ⟨Visit.context_synced _, hrank⟩
  have hwritten : (execute g.pipeline _).2 = true := execute_held hheld rfl hlevel
  rw [serveVisit]
  rw [hvisit]
  dsimp only
  rw [if_pos hwritten]
  exact id

end Gateway

/-- **Under-attack mode lets no unverified visitor through**, except by an upgrade to a web
socket. -/
theorem underAttack_holds_iff (g : Gateway) (r : Request) :
    g.UnderAttackHolds r ↔ ¬ ∃ app, g.UnverifiedUpgrade r app := by
  constructor
  -- such an upgrade gets past every branch before the checks, and they pass it
  · rintro h ⟨app, hup⟩
    refine hup.unverified (h app hup.resolved hup.underAttack hup.asset ?_)
    have hserved : g.serveHTTP r = g.serveWebSocket r (some app) (Gateway.clientIP r (some app)) := by
      have hroot : ¬ (((some app).map (·.rootRedirect)).getD [] ≠ [] ∧ r.path = str "/") := hup.root
      rw [Gateway.serveHTTP]
      dsimp only
      rw [hup.resolved, if_neg (by simp [hup.https]), if_neg (by simp [hup.preflight]),
        if_neg (by simp [hup.asset]), if_neg hroot, if_pos hup.upgrade]
    rw [hserved, Gateway.serveWebSocket_reaches_iff]
    exact ⟨hup.allowed, (Gateway.webSocketChecks_unverified hup.unverified).mpr hup.checks,
      hup.headers, hup.limit, hup.upstream⟩
  -- what reaches the upstream otherwise has gone through the pipeline
  · intro hnone app hresolved hattack hasset hreaches
    by_contra hunverified
    rw [Gateway.serveHTTP] at hreaches
    dsimp only at hreaches
    rw [hresolved] at hreaches
    split at hreaches
    · exact hreaches
    rename_i https
    split at hreaches
    · exact hreaches
    rename_i hpreflight
    rw [if_neg (by simp [hasset])] at hreaches
    split at hreaches
    · exact hreaches
    rename_i hroot
    split at hreaches
    · rename_i hupgrade
      obtain ⟨hallowed, hforward, hheaders, hlimit, hup⟩ :=
        Gateway.serveWebSocket_reaches_iff.mp hreaches
      exact hnone ⟨app, hresolved, hattack, by simpa using https, by simpa using hpreflight, hasset,
        hroot, hupgrade, hallowed, (Gateway.webSocketChecks_unverified hunverified).mp hforward,
        hheaders, hlimit, hup, hunverified⟩
    · refine Gateway.serveVisit_underAttack hattack ?_ hreaches
      by_contra hlevel
      exact hunverified (.inl (Option.isSome_iff_ne_none.mpr hlevel))

/-! ### Rules of the access list -/

/-- What a rule of the access list leaves to the response handlers: the resolution of its decision
against the opening one. -/
theorem decided_ipRule (svc : Services) (v : Visit) {rule : IPAccessRule}
    (h : matchedIPRule svc.toHardRuleServices v.context.start = some rule)
    (hskip : rule.action ≠ .skip) :
    (decided svc v.context).action = (resolveDecision v.openingDecision rule.decision).action ∧
      (decided svc v.context).reason = (resolveDecision v.openingDecision rule.decision).reason ∧
      (decided svc v.context).clientIP = v.clientIP ∧
      (decided svc v.context).request = v.request := by
  have hrun := phase1_ipRule h
  rw [decided_of_hard (by rw [hrun]; rfl), hrun, decideHard, addDecision_of_ne_skip hskip]
  -- a clearance empties the copy of the opening decision, not the decision
  have hopening : (challengeValidator svc.toHardRuleServices v.context.start).currentDecision =
        v.openingDecision ∧
      (challengeValidator svc.toHardRuleServices v.context.start).clientIP = v.clientIP ∧
      (challengeValidator svc.toHardRuleServices v.context.start).request = v.request := by
    rw [Visit.context_eq, challengeValidator]
    split <;> exact ⟨rfl, rfl, rfl⟩
  rw [← hopening.1]
  exact ⟨rfl, rfl, hopening.2⟩

namespace Gateway

/-- The request is for an application, and nothing before the pipeline answers it. -/
structure ReachesPipeline (g : Gateway) (r : Request) (app : App) : Prop where
  resolved : g.getAppByDomain r.host = some app
  https : redirectsHTTPS r (some app) = false
  preflight : isPreflight r (some app) = false
  asset : isStaticAsset r.path = false
  root : ¬ (app.rootRedirect ≠ [] ∧ r.path = str "/")
  upgrade : isWebSocketUpgrade r = false

/-- The rule of the access list for a request has the effect it names: a request it allows is passed
on to the upstream, and to a request it blocks the block page is written. -/
def IPRulesObeyed (g : Gateway) (r : Request) : Prop :=
  ∀ app, g.ReachesPipeline r app → ∀ rule,
    matchedIPRule g.pipeline.toHardRuleServices (g.reached r app) = some rule →
      (rule.action = .allow →
        (g.serveHTTP r).response = g.forward r (some app) (clientIP r (some app))) ∧
      (rule.action = .block →
        (g.serveHTTP r).response = .written ∧
          .effect (.blockedPage (clientIP r (some app)) r.host
            (str "ip_access_rule:" ++ rule.description)) ∈ (g.serveHTTP r).steps)

theorem ReachesPipeline.serveHTTP {app : App} (h : g.ReachesPipeline r app) :
    g.serveHTTP r = g.serveVisit r (some app) (clientIP r (some app)) := by
  have hroot : ¬ (((some app).map (·.rootRedirect)).getD [] ≠ [] ∧ r.path = str "/") := h.root
  rw [Gateway.serveHTTP]
  dsimp only
  rw [h.resolved, if_neg (by simp [h.https]), if_neg (by simp [h.preflight]),
    if_neg (by simp [h.asset]), if_neg hroot, if_neg (by simp [h.upgrade])]

theorem forward_ne (g : Gateway) (r : Request) (application : Option App) (ip : GoString) :
    g.forward r application ip ≠ .written ∧ g.forward r application ip ≠ .empty := by
  rw [forward]
  split
  · simp
  · rw [proxyToUpstream]
    split
    · simp
    · split <;> simp

/-- A request is passed on exactly when no page was written and its action lets it. -/
theorem serveVisit_forward_iff {application : Option App} {ip : GoString} :
    (g.serveVisit r application ip).response = g.forward r application ip ↔
      (execute g.pipeline (g.visit r application ip
          (application.any (·.underAttackMode))).context).2 = false ∧
        forwarded (execute g.pipeline (g.visit r application ip
          (application.any (·.underAttackMode))).context).1.action = true := by
  obtain ⟨hwritten, hempty⟩ := g.forward_ne r application ip
  rw [serveVisit]
  dsimp only
  split
  · rename_i h
    simp [h, hwritten.symm]
  rename_i h
  split
  · rename_i hforward
    simp [h, hforward]
  · rename_i hforward
    simp [hforward, hempty.symm]

end Gateway

omit [GoLib] in
/-- A block is answered with the block page. -/
theorem phase4_block {ctx : Context} (haction : ctx.action = .block) (hreason : ctx.reason ≠ []) :
    phase4 ctx =
      ({ ctx with
          effects := ctx.effects ++ [.blockedPage ctx.clientIP ctx.request.host ctx.reason] },
        true) := by
  have hblock : blockHandler ctx =
      ({ ctx with
          effects := ctx.effects ++ [.blockedPage ctx.clientIP ctx.request.host ctx.reason] },
        true) := by
    rw [blockHandler, if_neg (not_not.mpr haction)]
    dsimp only
    rw [if_neg hreason]
  rw [phase4, hblock]

omit [GoLib] in
/-- A block outranks both decisions a visit can start with. -/
theorem rank_openingDecision (v : Visit) : v.openingDecision.rank ≤ 3 := by
  rw [Visit.openingDecision]
  split <;> decide

section IPRules

variable {app : App} {rule : IPAccessRule}

/-- The access list is asked about the address alone, under attack or not. -/
private theorem matchedIPRule_visit (underAttack : Bool) :
    matchedIPRule g.pipeline.toHardRuleServices
        (g.visit r (some app) (Gateway.clientIP r (some app)) underAttack).context.start =
      matchedIPRule g.pipeline.toHardRuleServices (g.reached r app) := by
  cases underAttack <;> rfl

/-- An allow rule passes the request on unless the application is under attack. -/
theorem Gateway.serveVisit_allow_iff
    (h : matchedIPRule g.pipeline.toHardRuleServices (g.reached r app) = some rule)
    (hallow : rule.action = .allow) :
    (g.serveVisit r (some app) (clientIP r (some app))).response =
        g.forward r (some app) (clientIP r (some app)) ↔
      app.underAttackMode = false := by
  have hdecided := (decided_ipRule g.pipeline
    (g.visit r (some app) (clientIP r (some app)) app.underAttackMode)
    ((matchedIPRule_visit _).trans h) (by simp [hallow])).1
  rw [Gateway.serveVisit_forward_iff, Option.any_some, execute_eq, (phase4_eq _).1]
  cases hattack : app.underAttackMode with
  | false =>
    have haction : (decided g.pipeline
        (g.visit r (some app) (clientIP r (some app)) false).context).action = .allow := by
      rw [hattack] at hdecided
      rw [hdecided, ← hallow]
      change (resolveDecision Decision.zero rule.decision).action = rule.decision.action
      rw [resolveDecision_of_lt]
      change 0 < getActionRank rule.action
      simp [hallow, getActionRank]
    refine iff_of_true ⟨?_, ?_⟩ rfl
    · rw [← Bool.not_eq_true, (phase4_eq _).2, haction]
      simp
    · rw [haction]
      rfl
  | true =>
    -- an allow does not outrank the challenge the visit starts with
    have haction : (decided g.pipeline
        (g.visit r (some app) (clientIP r (some app)) true).context).action = .challenge := by
      rw [hattack] at hdecided
      rw [hdecided]
      change (resolveDecision underAttackDecision rule.decision).action = .challenge
      rw [resolveDecision_of_le]
      · rfl
      · change getActionRank rule.action ≤ 3
        simp [hallow, getActionRank]
    refine iff_of_false ?_ (by simp)
    rw [haction]
    exact fun hforward => Bool.false_ne_true hforward.2

/-- A block rule has the block page written, under attack or not. -/
theorem Gateway.serveVisit_block
    (h : matchedIPRule g.pipeline.toHardRuleServices (g.reached r app) = some rule)
    (hblock : rule.action = .block) :
    (g.serveVisit r (some app) (clientIP r (some app))).response = .written ∧
      .effect (.blockedPage (clientIP r (some app)) r.host
          (str "ip_access_rule:" ++ rule.description)) ∈
        (g.serveVisit r (some app) (clientIP r (some app))).steps := by
  obtain ⟨haction, hreason, hip, hrequest⟩ := decided_ipRule g.pipeline
    (g.visit r (some app) (clientIP r (some app)) app.underAttackMode)
    ((matchedIPRule_visit _).trans h) (by simp [hblock])
  have hresolve : resolveDecision (g.visit r (some app) (clientIP r (some app))
      app.underAttackMode).openingDecision rule.decision = rule.decision := by
    refine resolveDecision_of_lt ?_
    have hrank : rule.decision.rank = 4 := by
      change getActionRank rule.action = 4
      rw [hblock]
      rfl
    rw [hrank]
    exact Nat.lt_succ_of_le (rank_openingDecision _)
  rw [hresolve] at haction hreason
  -- the block page is written for a decision with a reason, and this one names the rule
  have hne : (decided g.pipeline
      (g.visit r (some app) (clientIP r (some app)) app.underAttackMode).context).reason ≠ [] := by
    have hname : str "ip_access_rule:" ≠ [] := by decide
    rw [hreason]
    exact fun hnil => hname (List.append_eq_nil_iff.mp hnil).1
  have hrun := phase4_block (haction.trans hblock) hne
  rw [← execute_eq, hip, hrequest, hreason] at hrun
  rw [Gateway.serveVisit]
  rw [Option.any_some, hrun]
  refine ⟨rfl, ?_⟩
  simp only [List.map_append, List.mem_append]
  exact .inl (.inl (.inl (.inr List.mem_cons_self)))

end IPRules

/-- **Rules of the access list are obeyed**, except for an allow rule of an application under
attack. -/
theorem ipRules_obeyed_iff (g : Gateway) (r : Request) :
    g.IPRulesObeyed r ↔ ¬ ∃ app rule, g.ReachesPipeline r app ∧ app.underAttackMode = true ∧
      matchedIPRule g.pipeline.toHardRuleServices (g.reached r app) = some rule ∧
      rule.action = .allow := by
  constructor
  · rintro h ⟨app, rule, hreaches, hattack, hrule, hallow⟩
    have hpassed := (h app hreaches rule hrule).1 hallow
    rw [hreaches.serveHTTP, Gateway.serveVisit_allow_iff hrule hallow, hattack] at hpassed
    exact Bool.false_ne_true hpassed.symm
  · intro hnone app hreaches rule hrule
    rw [hreaches.serveHTTP]
    refine ⟨fun hallow => ?_, Gateway.serveVisit_block hrule⟩
    rw [Gateway.serveVisit_allow_iff hrule hallow, ← Bool.not_eq_true]
    exact fun hattack => hnone ⟨app, rule, hreaches, hattack, hrule, hallow⟩

end Handler

/-! ### An upgrade and an allow rule under attack -/

section Evaluated

attribute [local instance] asciiLib

/-- The application under attack. -/
def attackedApp : App :=
  { socketApp with underAttackMode := true }

/-- A well-formed upgrade. -/
def upgradeRequest : Request :=
  { plainRequest with
    path := str "/live"
    requestURI := str "/live"
    header := fun key =>
      if key = str "Upgrade" then [str "websocket"]
      else if key = str "Connection" then [str "Upgrade"]
      else if key = str "Sec-WebSocket-Key" then [str "dGhlIHNhbXBsZSBub25jZQ=="]
      else if key = str "Sec-WebSocket-Version" then [str "13"]
      else [] }

/-- An upgrade gets its tunnel to an application under attack without a clearance. -/
theorem underAttack_upgrade : ¬ ∀ (g : Gateway) (r : Request), g.UnderAttackHolds r := by
  intro h
  have hserved : ((gatewayOf attackedApp).serveHTTP upgradeRequest).response =
      .tunnel plainUpstream (str "203.0.113.7") := by
    decide
  have hadmitted := h (gatewayOf attackedApp) upgradeRequest attackedApp rfl rfl
    (by decide) (by rw [hserved]; trivial)
  rcases hadmitted with hlevel | ⟨rule, hrule, -⟩ | ⟨rules, hload, rule, hmem, -⟩
  · revert hlevel
    decide
  · exact absurd hrule (by simp [matchedIPRule, gatewayOf, quietServices])
  · obtain rfl := Except.ok.inj hload
    exact absurd hmem (by simp)

/-- The gateway of the application under attack, whose access list allows everybody. -/
def allowingGateway : Gateway :=
  { gatewayOf attackedApp with
    pipeline :=
      { toHardRuleServices :=
          { quietServices.toHardRuleServices with
            checkIP := fun _ _ => .ok (some ⟨.allow, str "office", true⟩) }
        toScoringServices := quietServices.toScoringServices } }

/-- A visitor whom the access list allows is challenged under attack. -/
theorem ipRules_allow_challenged : ¬ ∀ (g : Gateway) (r : Request), g.IPRulesObeyed r := by
  intro h
  have hpassed := (h allowingGateway plainRequest attackedApp
    ⟨rfl, by decide, by decide, by decide, by decide,
      by decide⟩ ⟨.allow, str "office", true⟩ (by decide)).1 rfl
  revert hpassed
  decide

end Evaluated

end VibesWaf

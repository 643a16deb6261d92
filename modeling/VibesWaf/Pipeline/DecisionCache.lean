import VibesWaf.Lib.ReplayCache
import VibesWaf.Pipeline.HardDecision

/-!
# The decision cache

The rules store a block or a challenge under the key of its request, and the next request with that
key is given the decision before the rules are asked. The key is made of six fields of the request;
the rules read more. So a decision can reach a request for which the rules decide otherwise, and
when it outranks their decision it stays.

An `Arrival` is a request as it reaches the pipeline, with what the services answer to it; a `Site`
is what stays the same from one arrival to the next. `Arrival.transparent_iff` is the step: what
one request accepts from the cache. `cache_transparent_iff` is the result for runs of requests:
none is answered differently because of the cache, exactly when no two of them are such that the
decision of the first overrules that of the second.
-/

namespace VibesWaf

open ReplayCache

/-- What does not change while requests arrive: the hash behind the keys, and the rules. -/
structure Site where
  sha256 : GoString → Bytes 32
  loadMergedRules : GoString → Except GoString (List CompiledRule)

/-- A request, and what the services answer to it. Their cache, hash and rules are not used: those
are the run's. -/
structure Arrival where
  svc : HardRuleServices
  visit : Visit

/-- The services of an arrival, with the rules of the site and a cache. -/
def Arrival.services (site : Site) (a : Arrival) (cache : Contents GoString CachedDecision) :
    HardRuleServices :=
  { a.svc with
    sha256 := site.sha256
    loadMergedRules := site.loadMergedRules
    cache := cache }

/-- The entries among the effects. -/
def storedEntries (effects : List Effect) : List (GoString × CachedDecision) :=
  effects.filterMap fun
    | .cacheSet key decision _ => some (key, decision)
    | _ => none

theorem storedEntries_append (l l' : List Effect) :
    storedEntries (l ++ l') = storedEntries l ++ storedEntries l' :=
  List.filterMap_append

/-! ### What the first handlers keep -/

theorem limited_synced {ctx : Context} (h : ctx.Synced) (verdict : Option (Decision × List Effect)) :
    (ctx.limited verdict).Synced := by
  cases verdict with
  | none => exact h
  | some verdict =>
    have hadd := h.addDecision verdict.1
    exact ⟨hadd.action, hadd.reason⟩

theorem ipAccess_synced {svc : HardRuleServices} {ctx : Context} (h : ctx.Synced) :
    (ipAccessHandler svc ctx).Synced := by
  rw [ipAccessHandler]
  split
  · exact h
  · have hadd := h.addDecision (IPAccessRule.decision ‹_›)
    exact ⟨hadd.action, hadd.reason⟩

/-- Flood protection asks for penalties and counters, and stores nothing. -/
private theorem floodDecision_stores {svc : HardRuleServices} {ctx : Context} {d : Decision}
    {effects : List Effect} (h : floodDecision svc ctx = some (d, effects)) :
    storedEntries effects = [] := by
  have hsnd {d' : Decision} {effects' : List Effect}
      (h' : some (d', effects') = some (d, effects)) : effects' = effects :=
    congrArg Prod.snd (Option.some.inj h')
  unfold floodDecision floodVerdict at h
  dsimp only at h
  split at h
  · exact absurd h (by simp)
  split at h
  · exact absurd h (by simp)
  split at h
  · rw [← hsnd h]
    rfl
  split at h
  · rw [← hsnd h]
    rfl
  split at h
  · rw [← hsnd h]
    rfl
  split at h
  · rw [← hsnd h]
    rfl
  · exact absurd h (by simp)

private theorem rateLimitDecision_stores {svc : HardRuleServices} {ctx : Context} {d : Decision}
    {effects : List Effect} (h : rateLimitDecision svc ctx = some (d, effects)) :
    storedEntries effects = [] := by
  rw [rateLimitDecision] at h
  split at h
  · exact absurd h (by simp)
  split at h
  · exact absurd h (by simp)
  · obtain rfl : [] = effects := congrArg Prod.snd (Option.some.inj h)
    rfl

private theorem storedEntries_limited {ctx : Context} {verdict : Option (Decision × List Effect)}
    (h : ∀ d effects, verdict = some (d, effects) → storedEntries effects = []) :
    storedEntries (ctx.limited verdict).effects = storedEntries ctx.effects := by
  cases verdict with
  | none => rfl
  | some verdict =>
    change storedEntries (ctx.effects ++ verdict.2) = _
    rw [storedEntries_append, h verdict.1 verdict.2 rfl, List.append_nil]

section Arrivals

variable [GoLib]

/-- The context of an arrival when the cache is asked. -/
def Arrival.reached (site : Site) (a : Arrival) : Context :=
  hardRules (a.services site ReplayCache.empty) a.visit.context 4

/-- The context after `CacheCheckHandler` and `RulesEngineHandler`. -/
def Arrival.answered (site : Site) (a : Arrival) (cache : Contents GoString CachedDecision) :
    Context :=
  rulesEngineHandler (a.services site cache)
    (cacheCheckHandler (a.services site cache) (a.reached site))

/-- What the rules store for an arrival. -/
def Arrival.stored (site : Site) (a : Arrival) (cache : Contents GoString CachedDecision) :
    List (GoString × CachedDecision) :=
  storedEntries (a.answered site cache).effects

/-- Action and reason are what they are with an empty cache. -/
structure Arrival.Transparent (site : Site) (a : Arrival)
    (cache : Contents GoString CachedDecision) : Prop where
  action : (a.answered site cache).action = (a.answered site ReplayCache.empty).action
  reason : (a.answered site cache).reason = (a.answered site ReplayCache.empty).reason

/-- The key of an arrival. -/
def Arrival.key (site : Site) (a : Arrival) : GoString :=
  generateKey (a.services site ReplayCache.empty) (a.reached site)

/-- The cache and the terminal rules are asked: no rule of the access list and no clearance stand
in the way. -/
def Arrival.asks (site : Site) (a : Arrival) : Prop :=
  (a.reached site).ipRuleTerminal = false ∧ (a.reached site).challengePassed = false

/-- The first terminal rule that matches a request. -/
def firstTerminal (svc : HardRuleServices) (ctx : Context) : Option CompiledRule :=
  match svc.loadMergedRules ctx.ruleAppID with
  | .error _ => none
  | .ok rules => (scanRules ctx.ruleContext rules).2

/-- The first terminal rule that matches an arrival. -/
def Arrival.terminalRule (site : Site) (a : Arrival) : Option CompiledRule :=
  firstTerminal (a.services site ReplayCache.empty) (a.reached site)

/-- An arrival accepts a decision: it does not outrank the decision before the cache, or the first
terminal rule outranks it or says the same. -/
def Arrival.Accepts (site : Site) (a : Arrival) (d : Decision) : Prop :=
  d.rank ≤ (a.reached site).currentDecision.rank ∨
    ∃ r, a.terminalRule site = some r ∧
      (d.rank < r.decision.rank ∨ r.action = d.action ∧ r.reason = d.reason)

/-- Before the cache is asked nothing depends on it. -/
theorem Arrival.reached_eq (site : Site) (a : Arrival)
    (cache : Contents GoString CachedDecision) :
    hardRules (a.services site cache) a.visit.context 4 = a.reached site :=
  rfl

/-- The last two handlers are the last two of phase 1. -/
theorem Arrival.answered_eq (site : Site) (a : Arrival)
    (cache : Contents GoString CachedDecision) :
    hardRules (a.services site cache) a.visit.context 6 = a.answered site cache := by
  have hlast (svc : HardRuleServices) (ctx : Context) :
      hardRules svc ctx 6 = rulesEngineHandler svc (cacheCheckHandler svc (hardRules svc ctx 4)) :=
    rfl
  rw [hlast, reached_eq, answered]

/-! ### The context before the cache -/

variable {site : Site} {a : Arrival}

/-- A request without a clearance reaches the cache with action and reason those of the current
decision. -/
theorem Arrival.reached_synced (h : (a.reached site).challengePassed = false) :
    (a.reached site).Synced := by
  let svc := a.services site ReplayCache.empty
  have hfirst : (challengeValidator svc a.visit.context.start).challengePassed = false := by
    have hip := passed_of_mem (show ipAccessHandler svc ∈ (phase1 svc).tail by simp [phase1])
    have hflood := passed_of_mem (show floodHandler svc ∈ (phase1 svc).tail by simp [phase1])
    have hrate := passed_of_mem (show rateLimitHandler svc ∈ (phase1 svc).tail by simp [phase1])
    rw [← h, ← hip, ← hflood, ← hrate]
    rfl
  have hvalid : challengeValidator svc a.visit.context.start = a.visit.context.start := by
    cases hlevel : clearanceLevel svc a.visit.context.start with
    | none => rw [challengeValidator, hlevel]
    | some level =>
      rw [challengeValidator, hlevel] at hfirst
      exact absurd hfirst (by simp [Context.cleared])
  change (rateLimitHandler svc (floodHandler svc (ipAccessHandler svc
    (challengeValidator svc a.visit.context.start)))).Synced
  rw [hvalid, rateLimitHandler_eq, floodHandler_eq]
  exact limited_synced (limited_synced (ipAccess_synced a.visit.start_synced) _) _

/-- No entry is stored before the rules are asked. -/
theorem Arrival.reached_stores : storedEntries (a.reached site).effects = [] := by
  let svc := a.services site ReplayCache.empty
  have hip (ctx : Context) : storedEntries (ipAccessHandler svc ctx).effects =
      storedEntries ctx.effects := by
    rw [ipAccessHandler]
    split
    · rfl
    · change storedEntries (ctx.effects ++ []) = _
      rw [List.append_nil]
  have hvalid (ctx : Context) : (challengeValidator svc ctx).effects = ctx.effects := by
    rw [challengeValidator]
    split <;> rfl
  have hstart : a.visit.context.start.effects = [] := by
    change a.visit.context.effects = []
    rw [Visit.context]
    split
    · exact Context.effects_addDecision _ _
    · rfl
  change storedEntries (rateLimitHandler svc (floodHandler svc (ipAccessHandler svc
    (challengeValidator svc a.visit.context.start)))).effects = []
  rw [rateLimitHandler_eq, storedEntries_limited fun d e => rateLimitDecision_stores,
    floodHandler_eq, storedEntries_limited fun d e => floodDecision_stores, hip, hvalid, hstart]
  rfl

/-! ### What the rules make of a context -/

/-- The rules settle the current decision with the first terminal rule. -/
private theorem rulesEngine_settles (svc : HardRuleServices) {ctx : Context}
    (hterminal : ctx.ipRuleTerminal = false) (hpassed : ctx.challengePassed = false)
    (hsynced : ctx.Synced) :
    let settled := settle ctx.currentDecision ((firstTerminal svc ctx).map CompiledRule.decision)
    (rulesEngineHandler svc ctx).action = settled.action ∧
      (rulesEngineHandler svc ctx).reason = settled.reason := by
  rw [rulesEngineHandler, if_neg (by simp [hterminal]), firstTerminal]
  cases svc.loadMergedRules ctx.ruleAppID with
  | error e => exact ⟨hsynced.action, hsynced.reason⟩
  | ok rules =>
    dsimp only
    rw [if_neg (by simp [hpassed]), rulesLoop_eq]
    cases hscan : (scanRules ctx.ruleContext rules).2 with
    | none => exact ⟨hsynced.action, hsynced.reason⟩
    | some r =>
      dsimp only
      rw [Context.decideHard, Context.addDecision_of_ne_skip (scanRules_ne_skip hscan)]
      exact ⟨rfl, rfl⟩

/-- The rules store what the first terminal rule decides. -/
private theorem rulesEngine_stores {svc : HardRuleServices} {ctx : Context}
    (hterminal : ctx.ipRuleTerminal = false) (hpassed : ctx.challengePassed = false) :
    (rulesEngineHandler svc ctx).effects = ctx.effects ++
      match firstTerminal svc ctx with
      | none => []
      | some r => cacheSet svc ctx r.action (str "custom_rule") r.reason := by
  rw [rulesEngineHandler, if_neg (by simp [hterminal]), firstTerminal]
  cases svc.loadMergedRules ctx.ruleAppID with
  | error e => exact (List.append_nil _).symm
  | ok rules =>
    dsimp only
    rw [if_neg (by simp [hpassed]), rulesLoop_eq]
    cases (scanRules ctx.ruleContext rules).2 with
    | none => exact (List.append_nil _).symm
    | some r => rfl

/-- The rules do not read the cache. -/
private theorem rulesEngine_services (cache : Contents GoString CachedDecision) (ctx : Context) :
    rulesEngineHandler (a.services site cache) ctx =
      rulesEngineHandler (a.services site ReplayCache.empty) ctx := by
  unfold rulesEngineHandler
  simp only [rulesLoop_eq]
  rfl

/-- What the cache makes of an arrival that asks it. -/
private theorem cacheCheck_asks (hasks : a.asks site)
    (cache : Contents GoString CachedDecision) :
    let next := cacheCheckHandler (a.services site cache) (a.reached site)
    Context.SameRequest (a.reached site) next ∧ next.ipRuleTerminal = false ∧
      next.challengePassed = false ∧ next.Synced ∧ next.effects = (a.reached site).effects ∧
      next.currentDecision = settle (a.reached site).currentDecision
        ((cacheGet (a.services site cache) (a.reached site)).map CachedDecision.decision) := by
  obtain ⟨hterminal, hpassed⟩ := hasks
  have hsynced := Arrival.reached_synced hpassed
  rw [cacheCheckHandler, if_neg (by simp [hterminal, hpassed])]
  cases cacheGet (a.services site cache) (a.reached site) with
  | none => exact ⟨.refl _, hterminal, hpassed, hsynced, rfl, rfl⟩
  | some cached =>
    have hsame := (a.reached site).sameRequest_addDecision cached.decision
    have hflags := (a.reached site).addDecision_flags cached.decision
    have hadd := hsynced.addDecision cached.decision
    exact ⟨⟨hsame.request, hsame.clientIP, hsame.country, hsame.asn, hsame.asnOrg,
        hsame.isDatacenter, hsame.appID, hsame.httpFingerprint, hsame.normalized⟩,
      hflags.2.1.trans hterminal, hflags.2.2.trans hpassed, ⟨hadd.action, hadd.reason⟩,
      Context.effects_addDecision _ _, Context.currentDecision_addDecision _ _⟩

/-- An arrival that does not ask is answered the same whatever the cache holds. -/
private theorem answered_of_not_asks (hasks : ¬ a.asks site)
    (cache : Contents GoString CachedDecision) :
    a.answered site cache = a.answered site ReplayCache.empty := by
  have hskips : ((a.reached site).ipRuleTerminal || (a.reached site).challengePassed) = true := by
    rw [Arrival.asks, not_and_or, Bool.not_eq_false, Bool.not_eq_false] at hasks
    rw [Bool.or_eq_true]
    exact hasks
  have hcheck (cache : Contents GoString CachedDecision) :
      cacheCheckHandler (a.services site cache) (a.reached site) = a.reached site :=
    if_pos hskips
  rw [Arrival.answered, Arrival.answered, hcheck, hcheck, rulesEngine_services]

/-- The answer to an arrival that asks: the cached decision is weighed first, then the rules'. -/
private theorem answered_of_asks (hasks : a.asks site)
    (cache : Contents GoString CachedDecision) :
    let settled := settle
      (settle (a.reached site).currentDecision
        ((cacheGet (a.services site cache) (a.reached site)).map CachedDecision.decision))
      ((a.terminalRule site).map CompiledRule.decision)
    (a.answered site cache).action = settled.action ∧
      (a.answered site cache).reason = settled.reason := by
  obtain ⟨hsame, hterminal, hpassed, hsynced, -, hcurrent⟩ := cacheCheck_asks hasks cache
  have hrules := rulesEngine_settles (a.services site cache) hterminal hpassed hsynced
  rw [firstTerminal, hsame.ruleAppID, hsame.ruleContext, hcurrent] at hrules
  exact hrules

/-! ### What is stored -/

private theorem stored_of_asks (hasks : a.asks site) (cache : Contents GoString CachedDecision) :
    a.stored site cache = storedEntries
      (match a.terminalRule site with
      | none => []
      | some r => cacheSet (a.services site ReplayCache.empty) (a.reached site) r.action
          (str "custom_rule") r.reason) := by
  obtain ⟨hsame, hterminal, hpassed, -, heffects, -⟩ := cacheCheck_asks hasks cache
  rw [Arrival.stored, Arrival.answered, rulesEngine_services,
    rulesEngine_stores hterminal hpassed, storedEntries_append, heffects, Arrival.reached_stores,
    List.nil_append, firstTerminal, hsame.ruleAppID, hsame.ruleContext, Arrival.terminalRule]
  rw [firstTerminal]
  simp only [cacheSet_sameRequest _ hsame]

private theorem stored_of_not_asks (hasks : ¬ a.asks site)
    (cache : Contents GoString CachedDecision) : a.stored site cache = [] := by
  have hcheck : cacheCheckHandler (a.services site ReplayCache.empty) (a.reached site) =
      a.reached site := by
    rw [Arrival.asks, not_and_or, Bool.not_eq_false, Bool.not_eq_false, ← Bool.or_eq_true] at hasks
    exact if_pos hasks
  rw [Arrival.stored, answered_of_not_asks hasks, Arrival.answered, hcheck, rulesEngineHandler]
  split
  · exact Arrival.reached_stores
  rename_i hterminal
  split
  · exact Arrival.reached_stores
  rw [if_pos (by simpa [Arrival.asks, hterminal] using hasks), passedLoop_eq]
  exact Arrival.reached_stores

/-- What an arrival stores does not depend on what the cache holds. -/
theorem Arrival.stored_eq (site : Site) (a : Arrival)
    (cache cache' : Contents GoString CachedDecision) :
    a.stored site cache = a.stored site cache' := by
  by_cases hasks : a.asks site
  · rw [stored_of_asks hasks, stored_of_asks hasks]
  · rw [stored_of_not_asks hasks, stored_of_not_asks hasks]

/-- A rule whose decision an arrival stores: its first terminal rule, when that blocks or
challenges. -/
def Arrival.Stores (site : Site) (a : Arrival) (r : CompiledRule) : Prop :=
  a.asks site ∧ a.svc.cacheEnabled = true ∧ a.terminalRule site = some r ∧
    (r.action = .block ∨ r.action = .challenge)

/-- What a rule's decision is stored as. -/
def CompiledRule.cached (r : CompiledRule) : CachedDecision :=
  ⟨r.action, str "custom_rule", r.reason⟩

theorem Arrival.mem_stored_iff (cache : Contents GoString CachedDecision)
    (e : GoString × CachedDecision) :
    e ∈ a.stored site cache ↔ ∃ r, a.Stores site r ∧ e = (a.key site, r.cached) := by
  by_cases hasks : a.asks site
  · rw [stored_of_asks hasks]
    unfold Arrival.Stores
    cases hrule : a.terminalRule site with
    | none => simp [storedEntries]
    | some r =>
      simp only [hasks, true_and, Option.some.injEq]
      have hkey : generateKey (a.services site ReplayCache.empty) (a.reached site) = a.key site :=
        rfl
      have henabled : (a.services site ReplayCache.empty).cacheEnabled = a.svc.cacheEnabled := rfl
      rw [cacheSet, henabled, hkey]
      -- the two actions with a lifetime are the two that are stored
      cases a.svc.cacheEnabled with
      | false => simp [storedEntries]
      | true =>
        cases haction : r.action <;>
          simp [storedEntries, cacheTTL, haction, CompiledRule.cached]
  · rw [stored_of_not_asks hasks]
    refine iff_of_false List.not_mem_nil ?_
    rintro ⟨r, hr, -⟩
    exact hasks hr.1

/-! ### Transparency -/

/-- **One request.** It is answered as with an empty cache exactly when it accepts the decision
found under its key, if it asks for one. -/
theorem Arrival.transparent_iff (site : Site) (a : Arrival)
    (cache : Contents GoString CachedDecision) :
    a.Transparent site cache ↔ ∀ d, cache (a.key site) = some d →
      a.asks site → a.svc.cacheEnabled = true → a.Accepts site d.decision := by
  by_cases hasks : a.asks site
  · obtain ⟨haction, hreason⟩ := answered_of_asks hasks cache
    obtain ⟨haction', hreason'⟩ := answered_of_asks hasks ReplayCache.empty
    have hempty : cacheGet (a.services site ReplayCache.empty) (a.reached site) = none := by
      rw [cacheGet]
      split <;> rfl
    rw [hempty] at haction' hreason'
    have hiff : a.Transparent site cache ↔
        (a.answered site cache).action = (a.answered site ReplayCache.empty).action ∧
          (a.answered site cache).reason = (a.answered site ReplayCache.empty).reason :=
      ⟨fun h => ⟨h.action, h.reason⟩, fun h => ⟨h.1, h.2⟩⟩
    have hget : cacheGet (a.services site cache) (a.reached site) =
        if a.svc.cacheEnabled then cache (a.key site) else none := rfl
    rw [hiff, haction, hreason, haction', hreason', hget]
    simp only [hasks, true_implies]
    cases a.svc.cacheEnabled with
    | false => exact iff_of_true ⟨rfl, rfl⟩ (by simp)
    | true =>
      rw [if_pos rfl]
      cases cache (a.key site) with
      | none => exact iff_of_true ⟨rfl, rfl⟩ (by simp)
      | some d =>
        simp only [Option.some.injEq, forall_eq', true_implies]
        refine (settle_eq_iff _ _ _).trans ?_
        rw [Arrival.Accepts]
        refine or_congr_right ⟨?_, ?_⟩
        · rintro ⟨_, hlast, h⟩
          obtain ⟨r, hr, rfl⟩ := Option.map_eq_some_iff.mp hlast
          exact ⟨r, hr, h⟩
        · rintro ⟨r, hr, h⟩
          exact ⟨r.decision, by rw [hr]; rfl, h⟩
  · have hsame := answered_of_not_asks hasks cache
    refine iff_of_true ⟨?_, ?_⟩ fun _ _ h => absurd h hasks
    · rw [hsame]
    · rw [hsame]

/-- The decision of one arrival does no harm to a later one: where it is stored and found, the
later arrival accepts it. -/
def Arrival.Harmless (site : Site) (a b : Arrival) : Prop :=
  ∀ r, a.Stores site r → b.asks site → b.svc.cacheEnabled = true → a.key site = b.key site →
    b.Accepts site r.decision

/-- **The cache is transparent** in every run over a sequence of requests, whatever part of the
stored decisions it holds, exactly when no request is harmed by the decision of an earlier one. -/
theorem cache_transparent_iff (site : Site) (as : List Arrival) :
    (∀ run entries, CacheRun (fun a => a.stored site) run entries → run.map Prod.fst = as →
        ∀ p ∈ run, p.1.Transparent site p.2) ↔
      as.Pairwise (Arrival.Harmless site) := by
  have hrun := replay_iff_pairwise (Arrival.stored_eq site) (fun a => a.key site)
    (fun a d => a.asks site → a.svc.cacheEnabled = true → a.Accepts site d.decision) as
  have hpair : (fun a b : Arrival => ∀ d, (b.key site, d) ∈ a.stored site ReplayCache.empty →
      b.asks site → b.svc.cacheEnabled = true → b.Accepts site d.decision) =
      Arrival.Harmless site := by
    funext a b
    refine propext ⟨fun h r hr hasks henabled hkey => ?_, fun h d hd hasks henabled => ?_⟩
    · exact h r.cached ((a.mem_stored_iff _ _).mpr ⟨r, hr, by rw [hkey]⟩) hasks henabled
    · obtain ⟨r, hr, heq⟩ := (a.mem_stored_iff _ _).mp hd
      obtain ⟨hkey, rfl⟩ := Prod.mk.inj heq
      exact h r hr hasks henabled hkey.symm
  simp only [Arrival.transparent_iff]
  rw [hrun, hpair]

/-- Two requests that the rules see alike do each other no harm. -/
theorem Arrival.harmless_of_terminalRule_eq {b : Arrival}
    (h : b.terminalRule site = a.terminalRule site) : Arrival.Harmless site a b := by
  intro r hr _ _ _
  refine .inr ⟨r, h.trans hr.2.2.1, .inr ⟨rfl, rfl⟩⟩

end Arrivals

section Evaluated

attribute [local instance] asciiLib

/-- A rule against visitors sent by one page. -/
def refererRule : CompiledRule where
  id := 1
  name := str "referer"
  ast := .comparison (str "http.referer") (str "contains") (.string (str "spam.example"))
  action := .block
  skipModules := []
  enabled := true

/-- A site with that rule, and any hash. -/
def refererSite (sha256 : GoString → Bytes 32) : Site where
  sha256 := sha256
  loadMergedRules _ := .ok [refererRule]

/-- A visitor sent by that page. -/
def referredArrival : Arrival where
  svc := quietServices.toHardRuleServices
  visit :=
    { plainVisit with
      request :=
        { plainRequest with
          header := fun name =>
            if name = str "Referer" then [str "https://spam.example/"] else [] } }

/-- The same visitor, with no referer. -/
def plainArrival : Arrival where
  svc := quietServices.toHardRuleServices
  visit := plainVisit

/-- The rule blocks a visitor for the referer, and the cache blocks the next request without it:
under every hash the two have the same key. -/
theorem cache_replays_referer :
    ¬ ∃ sha256 : GoString → Bytes 32, ∀ as : List Arrival, ∀ run entries,
      CacheRun (fun a => a.stored (refererSite sha256)) run entries → run.map Prod.fst = as →
        ∀ p ∈ run, p.1.Transparent (refererSite sha256) p.2 := by
  rintro ⟨sha256, h⟩
  let site := refererSite sha256
  let site₀ := refererSite quietServices.sha256
  -- up to the keys, nothing depends on the hash
  have hreached (a : Arrival) : a.reached site = a.reached site₀ := rfl
  have hrule (a : Arrival) : a.terminalRule site = a.terminalRule site₀ := rfl
  have hfields : (referredArrival.reached site₀).keyFields =
      (plainArrival.reached site₀).keyFields := by
    decide
  have hkey : plainArrival.key site = referredArrival.key site := by
    rw [Arrival.key, Arrival.key, generateKey, generateKey, hreached, hreached, hfields]
    rfl
  have hasks : ∀ a ∈ [referredArrival, plainArrival], a.asks site := by
    unfold Arrival.asks
    simp only [hreached, List.mem_cons, List.not_mem_nil, or_false, forall_eq_or_imp, forall_eq]
    decide
  have hstores : referredArrival.Stores site refererRule := by
    refine ⟨hasks _ (by simp), rfl, ?_, .inl rfl⟩
    rw [hrule]
    decide
  have hmem : (plainArrival.key site, refererRule.cached) ∈
      [] ++ referredArrival.stored site ReplayCache.empty :=
    List.mem_append_right [] ((referredArrival.mem_stored_iff _ _).mpr
      ⟨refererRule, hstores, congrArg (·, refererRule.cached) hkey⟩)
  have hfirst : CacheRun (fun a => Arrival.stored site a) _ _ :=
    CacheRun.nil.step referredArrival ReplayCache.empty fun key d hd =>
      absurd hd (by simp [ReplayCache.empty])
  have hrun := hfirst.step plainArrival (single (plainArrival.key site) refererRule.cached)
    fun key d hd => by
      rw [single_eq_some hd]
      exact hmem
  have htransparent := h _ _ _ hrun rfl _ (List.mem_append_right _ List.mem_cons_self)
  have haccepts := (plainArrival.transparent_iff site _).mp htransparent refererRule.cached
    (if_pos rfl) (hasks _ (by simp)) rfl
  rw [Arrival.Accepts, hrule, hreached] at haccepts
  have hnone : plainArrival.terminalRule site₀ = none := by
    decide
  rw [hnone] at haccepts
  rcases haccepts with hrank | ⟨r, hr, -⟩
  · revert hrank
    decide
  · exact absurd hr (by simp)

end Evaluated

end VibesWaf

import VibesWaf.Bot.Verify
import VibesWaf.Lib.FiniteMap
import VibesWaf.Lib.Run

/-!
# The cache of crawler verifications

`verifyBotIPCached` keeps the outcome of a verification for seven days, in Redis while it is
enabled and in memory otherwise, and replays it. A run is any sequence of calls, with Redis
coming and going, losing entries and failing, and with the passes that clean the memory.

What is replayed was found by an earlier call with the same key, so a call that reports an address
as verified does so because of a verification of the run: its own or that call's.
`verifyBotIPCached_verified` says that it was a genuine one in every run whose verifications are
sound and whose keys tell the addresses and patterns apart; `cacheKey_inj` is when they do.
-/

namespace VibesWaf

section Cache

variable [GoLib]

/-! ### Entries -/

/-- `serializeVerifyResult`. -/
def serializeVerifyResult (r : VerifyResult) : GoString :=
  (if r.verified then str "1" else str "0") ++ 0x7C :: (r.failedStep ++ 0x7C :: r.evidence)

/-- `parseVerifyResult`. -/
def parseVerifyResult (s : GoString) : VerifyResult :=
  match cut s 0x7C with
  | (_, none) => ⟨true, [], [], str "cache:CORRUPT"⟩
  | (verified, some rest) =>
    match cut rest 0x7C with
    | (_, none) => ⟨true, [], [], str "cache:CORRUPT"⟩
    | (failedStep, some evidence) => ⟨verified = str "1", failedStep, [], evidence⟩

/-- A cached outcome with its time of expiry, in nanoseconds. -/
structure DNSResult where
  result : VerifyResult
  expiry : ℤ

/-- The two caches of the service. -/
structure VerifyCaches where
  redis : GoString → Option GoString
  dnsCache : FiniteMap GoString DNSResult

/-- Caches without entries. -/
def VerifyCaches.empty : VerifyCaches :=
  ⟨fun _ => none, .empty⟩

/-- `maxDNSCacheSize`. -/
def maxDNSCacheSize : ℕ := 50000

/-- `dnsCacheTTL`. -/
def dnsCacheTTL : ℤ := 7 * 24 * 3600 * 1000000000

/-! ### The calls -/

/-- One call of `verifyBotIPCached`, with what it meets: the loaded networks, the resolver, and
for the reading and the writing of the cache the time, whether Redis is enabled and whether it
fails. -/
structure VerifyCall where
  ip : GoString
  botPattern : GoString
  networks : List IPNet
  resolver : Resolver
  readTime : ℤ
  readsRedis : Bool
  getFails : Bool
  writeTime : ℤ
  writesRedis : Bool
  setFails : Bool

namespace VerifyCall

/-- The key of the caches. -/
def cacheKey (c : VerifyCall) : GoString :=
  str "bot_dns:" ++ c.ip ++ str ":" ++ c.botPattern

/-- The outcome of the call's own verification. -/
def verify (c : VerifyCall) : VerifyResult :=
  verifyBotIPWithTimeout c.networks c.resolver c.ip c.botPattern

/-- The address is genuine by the call's own verification. -/
def Genuine (c : VerifyCall) : Prop :=
  VibesWaf.Genuine c.networks c.resolver c.ip c.botPattern

/-- The call's own verification is sound. -/
def Sound (c : VerifyCall) : Prop :=
  c.resolver.Sound c.networks c.ip c.botPattern

/-- The cached outcome the call finds. -/
def lookup (c : VerifyCall) (s : VerifyCaches) : Option VerifyResult :=
  if c.readsRedis then
    if c.getFails then none
    else (s.redis c.cacheKey).bind fun val => if val = [] then none else some (parseVerifyResult val)
  else (s.dnsCache.lookup c.cacheKey).bind fun r =>
    if c.readTime < r.expiry then some r.result else none

/-- The caches after the call has stored its outcome. -/
def store (c : VerifyCall) (s : VerifyCaches) (result : VerifyResult) : VerifyCaches :=
  if c.writesRedis then
    if c.setFails then s
    else { s with redis := fun k => if k = c.cacheKey then some (serializeVerifyResult result)
                                    else s.redis k }
  else if s.dnsCache.size < maxDNSCacheSize then
    { s with dnsCache := s.dnsCache.insert c.cacheKey ⟨result, c.writeTime + dnsCacheTTL⟩ }
  else s

/-- `verifyBotIPCached`. -/
def verifyBotIPCached (c : VerifyCall) (s : VerifyCaches) : VerifyCaches × VerifyResult :=
  match c.lookup s with
  | some result => (s, result)
  | none => (c.store s c.verify, c.verify)

end VerifyCall

/-- What happens to the caches: a call, an entry that Redis drops, a pass of `dnsCacheCleanup`. -/
inductive BotEvent
  | call (c : VerifyCall)
  | redisDrop (key : GoString)
  | dnsCacheCleanup (now : ℤ)

/-- The caches after an event. -/
def VerifyCaches.step (s : VerifyCaches) : BotEvent → VerifyCaches
  | .call c => (c.verifyBotIPCached s).1
  | .redisDrop key => { s with redis := fun k => if k = key then none else s.redis k }
  | .dnsCacheCleanup now =>
    { s with dnsCache := s.dnsCache.filterMap fun _ r => if r.expiry < now then none else some r }

/-- The caches after a run that started without entries. -/
def VerifyCaches.run (events : List BotEvent) : VerifyCaches :=
  events.foldl VerifyCaches.step .empty

/-! ### What an entry says -/

omit [GoLib] in
/-- An outcome keeps its verdict in Redis. -/
theorem parseVerifyResult_serialize (r : VerifyResult) :
    (parseVerifyResult (serializeVerifyResult r)).verified = r.verified := by
  have hcut : cut (serializeVerifyResult r) 0x7C =
      (if r.verified then str "1" else str "0", some (r.failedStep ++ 0x7C :: r.evidence)) := by
    rw [serializeVerifyResult]
    refine cut_append_cons ?_ _
    split <;> decide
  have hsep : (0x7C : UInt8) ∈ r.failedStep ++ 0x7C :: r.evidence := by simp
  obtain ⟨a, b, -, -, hrest⟩ := exists_cut_of_mem hsep
  rw [parseVerifyResult, hcut]
  simp only [hrest]
  cases r.verified <;> decide

omit [GoLib] in
/-- A key has one reading when no pattern contains the separator. -/
theorem cacheKey_inj {c d : VerifyCall} (hc : 0x3A ∉ c.botPattern) (hd : 0x3A ∉ d.botPattern)
    (h : c.cacheKey = d.cacheKey) : c.ip = d.ip ∧ c.botPattern = d.botPattern := by
  -- read backwards, the pattern ends at the first separator
  have hcut : ∀ e : VerifyCall, 0x3A ∉ e.botPattern →
      cut e.cacheKey.reverse 0x3A =
        (e.botPattern.reverse, some (e.ip.reverse ++ (str "bot_dns:").reverse)) := fun e he => by
    have hkey : e.cacheKey.reverse =
        e.botPattern.reverse ++ 0x3A :: (e.ip.reverse ++ (str "bot_dns:").reverse) := by
      simp [VerifyCall.cacheKey, str_colon]
    rw [hkey]
    exact cut_append_cons (by simpa using he) _
  have heq := hcut c hc
  rw [h, hcut d hd] at heq
  obtain ⟨hpattern, hip⟩ : d.botPattern = c.botPattern ∧ d.ip = c.ip := by simpa using heq
  exact ⟨hip.symm, hpattern.symm⟩

/-- A call of the run for the key found its address genuine. -/
private def Justified (events : List BotEvent) (key : GoString) : Prop :=
  ∃ d, .call d ∈ events ∧ d.cacheKey = key ∧ d.Genuine

/-- Every cached verdict that an address is verified is justified by a call of the run. -/
private structure VerifyCaches.Justified (events : List BotEvent) (s : VerifyCaches) : Prop where
  redis : ∀ key val, s.redis key = some val → (parseVerifyResult val).verified = true →
    VibesWaf.Justified events key
  dnsCache : ∀ key r, s.dnsCache.lookup key = some r → r.result.verified = true →
    VibesWaf.Justified events key

private theorem Justified.append {events : List BotEvent} {key : GoString}
    (h : Justified events key) (event : BotEvent) : Justified (events ++ [event]) key := by
  obtain ⟨d, hd, hkey, hgenuine⟩ := h
  exact ⟨d, List.mem_append_left _ hd, hkey, hgenuine⟩

private theorem VerifyCaches.Justified.append {events : List BotEvent} {s : VerifyCaches}
    (h : s.Justified events) (event : BotEvent) : s.Justified (events ++ [event]) :=
  ⟨fun key val hval hver => (h.redis key val hval hver).append event,
    fun key r hr hver => (h.dnsCache key r hr hver).append event⟩

/-- A verdict found in a cache is justified. -/
private theorem VerifyCaches.Justified.lookup {events : List BotEvent} {s : VerifyCaches}
    (h : s.Justified events) {c : VerifyCall} {r : VerifyResult} (hr : c.lookup s = some r)
    (hver : r.verified = true) : VibesWaf.Justified events c.cacheKey := by
  rw [VerifyCall.lookup] at hr
  split_ifs at hr
  · obtain ⟨val, hval, hparse⟩ := Option.bind_eq_some_iff.mp hr
    split_ifs at hparse
    obtain rfl : parseVerifyResult val = r := by simpa using hparse
    exact h.redis _ val hval hver
  · obtain ⟨e, he, hresult⟩ := Option.bind_eq_some_iff.mp hr
    split_ifs at hresult
    obtain rfl : e.result = r := by simpa using hresult
    exact h.dnsCache _ e he hver

/-- Storing a justified verdict keeps the caches justified. -/
private theorem VerifyCaches.Justified.store {events : List BotEvent} {s : VerifyCaches}
    (h : s.Justified events) {c : VerifyCall} {r : VerifyResult}
    (hver : r.verified = true → VibesWaf.Justified events c.cacheKey) :
    (c.store s r).Justified events := by
  rw [VerifyCall.store]
  split_ifs
  · exact h
  · refine ⟨fun key val hval hverified => ?_, h.dnsCache⟩
    by_cases hkey : key = c.cacheKey
    · obtain rfl : serializeVerifyResult r = val := by simpa [hkey] using hval
      rw [parseVerifyResult_serialize] at hverified
      exact hkey ▸ hver hverified
    · exact h.redis key val (by simpa [hkey] using hval) hverified
  · refine ⟨h.redis, fun key e he hverified => ?_⟩
    rw [FiniteMap.lookup_insert] at he
    by_cases hkey : key = c.cacheKey
    · obtain rfl : ⟨r, c.writeTime + dnsCacheTTL⟩ = e := by simpa [hkey] using he
      exact hkey ▸ hver hverified
    · exact h.dnsCache key e (by simpa [hkey] using he) hverified
  · exact h

/-! ### Runs -/

theorem VerifyCaches.run_append (events : List BotEvent) (event : BotEvent) :
    VerifyCaches.run (events ++ [event]) = (VerifyCaches.run events).step event := by
  simp [VerifyCaches.run]

/-- In a run whose verifications are sound, every cached verdict is justified. -/
private theorem justified_run {events : List BotEvent}
    (hsound : ∀ past c, past ++ [.call c] <+: events →
      c.lookup (VerifyCaches.run past) = none → c.Sound) :
    (VerifyCaches.run events).Justified events := by
  refine run_induction (P := fun past => (VerifyCaches.run past).Justified past) ?_ ?_
  · refine ⟨fun _ _ h => ?_, fun _ _ h => ?_⟩
    · cases h
    · cases h
  · intro past event hpre ih
    rw [VerifyCaches.run_append]
    have ih' := ih.append event
    cases event with
    | call c =>
      rw [VerifyCaches.step, VerifyCall.verifyBotIPCached]
      cases hlookup : c.lookup (VerifyCaches.run past) with
      | some r => exact ih'
      | none =>
        have hgenuine := verifyBotIPWithTimeout_genuine_iff.mpr (hsound past c hpre hlookup)
        exact ih'.store fun hver => ⟨c, by simp, rfl, hgenuine hver⟩
    | redisDrop key =>
      refine ⟨fun k val hval hver => ?_, ih'.dnsCache⟩
      by_cases hkey : k = key
      · simp [VerifyCaches.step, hkey] at hval
      · exact ih'.redis k val (by simpa [VerifyCaches.step, hkey] using hval) hver
    | dnsCacheCleanup now =>
      refine ⟨ih'.redis, fun k r hr hver => ?_⟩
      obtain ⟨e, he, hkeep⟩ := Option.bind_eq_some_iff.mp hr
      dsimp only at hkeep
      split_ifs at hkeep
      obtain rfl : e = r := by simpa using hkeep
      exact ih'.dnsCache k e he hver

/-- **Verified crawlers are genuine.** In every run in which each verification that is made is
answered in time and takes no foreign name for the operator's, and no two calls for different
addresses or patterns share a key: a call reports an address as verified only if a verification
of the run for that address and pattern, its own or an earlier one, found it in a loaded range or
confirmed it. -/
theorem verifyBotIPCached_verified {events : List BotEvent}
    (hsound : ∀ past c, past ++ [.call c] <+: events →
      c.lookup (VerifyCaches.run past) = none → c.Sound)
    (hkeys : ∀ c d, .call c ∈ events → .call d ∈ events → c.cacheKey = d.cacheKey →
      c.ip = d.ip ∧ c.botPattern = d.botPattern)
    {past : List BotEvent} {c : VerifyCall} (hpre : past ++ [.call c] <+: events)
    (hverified : (c.verifyBotIPCached (VerifyCaches.run past)).2.verified = true) :
    ∃ d, .call d ∈ past ++ [.call c] ∧ d.ip = c.ip ∧ d.botPattern = c.botPattern ∧ d.Genuine := by
  have hpast : (VerifyCaches.run past).Justified past :=
    justified_run fun p d hp => hsound p d ((hp.trans (List.prefix_append _ _)).trans hpre)
  rw [VerifyCall.verifyBotIPCached] at hverified
  cases hlookup : c.lookup (VerifyCaches.run past) with
  | some r =>
    rw [hlookup] at hverified
    obtain ⟨d, hd, hkey, hgenuine⟩ := hpast.lookup hlookup hverified
    have hmem : ∀ e ∈ past ++ [.call c], e ∈ events := fun e he => hpre.subset he
    obtain ⟨hip, hpattern⟩ := hkeys d c (hmem _ (by simp [hd])) (hmem _ (by simp)) hkey
    exact ⟨d, by simp [hd], hip, hpattern, hgenuine⟩
  | none =>
    rw [hlookup] at hverified
    have hgenuine := verifyBotIPWithTimeout_genuine_iff.mpr (hsound past c hpre hlookup) hverified
    exact ⟨c, by simp, rfl, rfl, hgenuine⟩

end Cache

section Evaluated

attribute [local instance] asciiLib

/-- A call without Redis for the pattern `Googlebot`, with the PTR names and the addresses of
every name. -/
private def googlebotCall (ip : GoString) (names addrs : List GoString) (timedOut : Bool) :
    VerifyCall where
  ip := ip
  botPattern := str "Googlebot"
  networks := []
  resolver := ⟨fun _ => some names, fun _ => some addrs, timedOut⟩
  readTime := 0
  readsRedis := false
  getFails := false
  writeTime := 0
  writesRedis := false
  setFails := false

/-- A crawler whose own name verifies it, and the same address when no lookup is answered. -/
private def googlebotCalls : List VerifyCall :=
  [googlebotCall (str "66.249.66.1") [str "crawl-66-249-66-1.GoogleBot.com."]
      [str "66.249.66.1"] false,
    googlebotCall (str "66.249.66.1") [] [] true]

/-- The second call is answered from the cache, and the first one has confirmed the address. -/
theorem verifyBotIPCached_verified_googlebot :
    let c := googlebotCall (str "66.249.66.1") [] [] true
    let past := [BotEvent.call (googlebotCall (str "66.249.66.1")
      [str "crawl-66-249-66-1.GoogleBot.com."] [str "66.249.66.1"] false)]
    (c.verifyBotIPCached (VerifyCaches.run past)).2.verified = true ∧
      ∃ d, .call d ∈ past ++ [.call c] ∧ d.ip = c.ip ∧ d.botPattern = c.botPattern ∧
        d.Genuine := by
  have hverified : ((googlebotCall (str "66.249.66.1") [] [] true).verifyBotIPCached
      (VerifyCaches.run [.call (googlebotCall (str "66.249.66.1")
        [str "crawl-66-249-66-1.GoogleBot.com."] [str "66.249.66.1"] false)])).2.verified =
          true := by decide
  have hsame : ∀ c ∈ googlebotCalls, c.ip = str "66.249.66.1" ∧ c.botPattern = str "Googlebot" := by
    decide
  have hcalls : ∀ c, BotEvent.call c ∈ googlebotCalls.map .call → c ∈ googlebotCalls := by
    intro c hc
    obtain ⟨d, hd, heq⟩ := List.mem_map.mp hc
    exact BotEvent.call.inj heq ▸ hd
  have hsound : ∀ past event, past ++ [event] <+: googlebotCalls.map BotEvent.call →
      ∀ c, event = .call c → c.lookup (VerifyCaches.run past) = none → c.Sound := by
    refine forall_snoc fun i hi c hc hlookup => ?_
    have htwo : i < 2 := hi
    obtain rfl | rfl : i = 0 ∨ i = 1 := by omega
    · obtain rfl := BotEvent.call.inj hc
      refine .inr ⟨rfl, fun name hname _ => ?_⟩
      obtain rfl : str "crawl-66-249-66-1.GoogleBot.com." = name := by
        have hfirst : matchedHostname [str "crawl-66-249-66-1.GoogleBot.com."]
            (str "Googlebot") = some (str "crawl-66-249-66-1.GoogleBot.com.") := by decide
        simpa [googlebotCall, hfirst] using hname
      decide
    -- the second call finds the verdict of the first one
    · obtain rfl := BotEvent.call.inj hc
      exact absurd hlookup (by decide)
  refine ⟨hverified, verifyBotIPCached_verified (fun past c hpre => hsound past _ hpre c rfl)
    (fun c d hc hd _ => ?_) (List.prefix_refl _) hverified⟩
  obtain ⟨hip, hpattern⟩ := hsame c (hcalls c hc)
  obtain ⟨hip', hpattern'⟩ := hsame d (hcalls d hd)
  exact ⟨hip.trans hip'.symm, hpattern.trans hpattern'.symm⟩

/-- An address whose lookups take too long is verified, and so is one whose PTR name, in a domain
of its own, contains the operator's domain. -/
theorem verifyBotIPCached_not_genuine :
    let late := googlebotCall (str "203.0.113.9") [] [] true
    let foreign := googlebotCall (str "203.0.113.9") [str "google.com.evil.net."]
      [str "203.0.113.9"] false
    ((late.verifyBotIPCached .empty).2.verified = true ∧ ¬ late.Genuine) ∧
      (foreign.verifyBotIPCached .empty).2.verified = true ∧ ¬ foreign.Genuine := by
  refine ⟨⟨by decide, ?_⟩, by decide, ?_⟩
  · rintro (h | ⟨name, hname, -⟩)
    · exact absurd h (by decide)
    · cases hname
  · rintro (h | ⟨name, hname, hbelongs, -⟩)
    · exact absurd h (by decide)
    · obtain rfl : name = str "google.com.evil.net." := by simpa [googlebotCall] using hname
      exact absurd hbelongs (by decide)

end Evaluated

end VibesWaf

import VibesWaf.Go.NetBits

/-!
# Verifying a crawler by DNS

`verifyBotIP` accepts an address that lies in a crawler's published ranges, or else one whose PTR
name belongs to the operator and resolves back to the address; `verifyBotIPWithTimeout` gives it
700 ms. What the resolver answers while a verification runs is a `Resolver`, and whether the
time ran out first is a part of it.

`Resolver.Confirms` is what a verification is for. The code takes a name for the operator's when
one of its domains occurs anywhere in the name, goes on with the first such name only, and
accepts an address when the time runs out: `verifyBotIPWithTimeout_verified_iff` says what this
comes to.
-/

namespace VibesWaf

/-! ### What the network answers -/

/-- The answers of the resolver during one verification; `none` is an error. -/
structure Resolver where
  /-- `net.LookupAddr`. -/
  lookupAddr : GoString → Option (List GoString)
  /-- `net.LookupHost`. -/
  lookupHost : GoString → Option (List GoString)
  /-- The answers did not come within `dnsVerifyTimeout`. -/
  timedOut : Bool

/-- `BotIPRangeFetcher.Contains`, over the networks it has loaded. -/
def rangesContain (networks : List IPNet) (ipStr : GoString) : Bool :=
  match parseIP ipStr with
  | none => false
  | some ip => networks.any (·.contains ip.1)

/-- The outcome of a verification. -/
structure VerifyResult where
  verified : Bool
  failedStep : GoString
  hostname : GoString
  evidence : GoString
  deriving DecidableEq, Repr

section Verify

variable [GoLib]

/-! ### The verification -/

/-- The domains `hostnameMatchesBot` looks for, by the pattern of the bot. -/
def botDomains (botPatternLower : GoString) : List GoString :=
  if contains botPatternLower (str "googlebot") then [str "googlebot.com", str "google.com"]
  else if contains botPatternLower (str "bingbot") then [str "search.msn.com"]
  else if contains botPatternLower (str "yandex") then
    [str "yandex.com", str "yandex.net", str "yandex.ru"]
  else if contains botPatternLower (str "baiduspider") then [str "baidu.com", str "baidu.jp"]
  else []

/-- `hostnameMatchesBot`. -/
def hostnameMatchesBot (hostname botPatternLower : GoString) : Bool :=
  (botDomains botPatternLower).any (contains hostname)

/-- The PTR name `verifyBotIP` goes on with: the first that matches. -/
def matchedHostname (names : List GoString) (botPattern : GoString) : Option GoString :=
  names.find? fun name => hostnameMatchesBot (toLower name) (toLower botPattern)

/-- The forward lookup of step 3. -/
def verifyForward (r : Resolver) (ip hostname : GoString) : VerifyResult :=
  match r.lookupHost hostname with
  | none | some [] =>
    ⟨false, str "forward_dns", hostname, str "ip_range:MISS→rdns:PASS→fdns:FAIL(resolve error)"⟩
  | some forwardIPs =>
    if ip ∈ forwardIPs then ⟨true, [], hostname, str "ip_range:MISS→rdns:PASS→fdns:PASS"⟩
    else ⟨false, str "forward_dns", hostname, str "ip_range:MISS→rdns:PASS→fdns:FAIL(ip mismatch)"⟩

/-- `verifyBotIP`. -/
def verifyBotIP (networks : List IPNet) (r : Resolver) (ip botPattern : GoString) :
    VerifyResult :=
  if rangesContain networks ip then ⟨true, [], [], str "ip_range:PASS"⟩
  else
    match r.lookupAddr ip with
    | none | some [] =>
      ⟨false, str "reverse_dns", [], str "ip_range:MISS→rdns:FAIL(no PTR)"⟩
    | some names =>
      match matchedHostname names botPattern with
      | none | some [] =>
        ⟨false, str "reverse_dns", [], str "ip_range:MISS→rdns:FAIL(no match)"⟩
      | some hostname => verifyForward r ip hostname

/-- `verifyBotIPWithTimeout`. -/
def verifyBotIPWithTimeout (networks : List IPNet) (r : Resolver) (ip botPattern : GoString) :
    VerifyResult :=
  if r.timedOut then ⟨true, [], [], str "dns_verify:TIMEOUT"⟩
  else verifyBotIP networks r ip botPattern

/-! ### What a verification is for -/

/-- The name is a domain of the bot's operator, or a name below one: its case and a final dot do
not matter. -/
def BelongsTo (name botPattern : GoString) : Prop :=
  ∃ domain ∈ botDomains (toLower botPattern),
    trimSuffix (toLower name) (str ".") = domain ∨
      hasSuffix (trimSuffix (toLower name) (str ".")) (0x2E :: domain) = true

instance (name botPattern : GoString) : Decidable (BelongsTo name botPattern) :=
  inferInstanceAs (Decidable (∃ _ ∈ _, _))

/-- The forward lookup of the name contains the address. -/
def Resolver.ResolvesTo (r : Resolver) (name ip : GoString) : Prop :=
  ip ∈ (r.lookupHost name).getD []

instance (r : Resolver) (name ip : GoString) : Decidable (r.ResolvesTo name ip) :=
  inferInstanceAs (Decidable (_ ∈ _))

/-- Some PTR name of the address belongs to the operator and resolves to the address. -/
def Resolver.Confirms (r : Resolver) (ip botPattern : GoString) : Prop :=
  ∃ name ∈ (r.lookupAddr ip).getD [], BelongsTo name botPattern ∧ r.ResolvesTo name ip

instance (r : Resolver) (ip botPattern : GoString) : Decidable (r.Confirms ip botPattern) :=
  inferInstanceAs (Decidable (∃ _ ∈ _, _))

/-- The address lies in a loaded range, or the resolver confirms it. -/
def Genuine (networks : List IPNet) (r : Resolver) (ip botPattern : GoString) : Prop :=
  rangesContain networks ip = true ∨ r.Confirms ip botPattern

/-! ### What the code accepts -/

omit [GoLib] in
/-- A domain of the operator is found in no empty name. -/
private theorem hostnameMatchesBot_nil (botPatternLower : GoString) :
    hostnameMatchesBot [] botPatternLower = false := by
  rw [hostnameMatchesBot, botDomains]
  split_ifs <;> decide

/-- **What the code accepts**: an address in a loaded range, an address whose first matching PTR
name resolves to it, and every address when the time runs out. -/
theorem verifyBotIPWithTimeout_verified_iff {networks : List IPNet} {r : Resolver}
    {ip botPattern : GoString} :
    (verifyBotIPWithTimeout networks r ip botPattern).verified = true ↔
      r.timedOut = true ∨ rangesContain networks ip = true ∨
        ∃ name, matchedHostname ((r.lookupAddr ip).getD []) botPattern = some name ∧
          r.ResolvesTo name ip := by
  have hforward : ∀ name, (verifyForward r ip name).verified = true ↔ r.ResolvesTo name ip := by
    intro name
    rw [verifyForward, Resolver.ResolvesTo]
    cases r.lookupHost name with
    | none => simp
    | some addrs =>
      cases addrs with
      | nil => simp
      | cons a addrs =>
        dsimp only
        split_ifs with hmem
        · exact iff_of_true rfl hmem
        · exact iff_of_false (by simp) hmem
  rw [verifyBotIPWithTimeout]
  by_cases htime : r.timedOut = true
  · simp [htime]
  rw [if_neg htime, or_iff_right htime, verifyBotIP]
  by_cases hrange : rangesContain networks ip = true
  · simp [hrange]
  rw [if_neg hrange, or_iff_right hrange]
  cases hnames : r.lookupAddr ip with
  | none => simp [matchedHostname]
  | some names =>
    cases names with
    | nil => simp [matchedHostname]
    | cons n names =>
      rw [Option.getD_some]
      cases hmatch : matchedHostname (n :: names) botPattern with
      | none => simp [hmatch]
      | some name =>
        cases name with
        | nil =>
          -- the empty name matches no pattern
          have hempty := List.find?_some hmatch
          rw [show toLower [] = [] from rfl, hostnameMatchesBot_nil] at hempty
          cases hempty
        | cons c name => simp [hmatch, hforward]

/-- The verification is answered in time, and the first PTR name in which a domain of the operator
occurs belongs to the operator, if it resolves to the address; each unless the address is genuine
by a range or another name. -/
def Resolver.Sound (r : Resolver) (networks : List IPNet) (ip botPattern : GoString) : Prop :=
  Genuine networks r ip botPattern ∨
    r.timedOut = false ∧
      ∀ name, matchedHostname ((r.lookupAddr ip).getD []) botPattern = some name →
        r.ResolvesTo name ip → BelongsTo name botPattern

/-- A verification accepts genuine addresses only, exactly when it is answered in time and does
not take a foreign name for the operator's. -/
theorem verifyBotIPWithTimeout_genuine_iff {networks : List IPNet} {r : Resolver}
    {ip botPattern : GoString} :
    ((verifyBotIPWithTimeout networks r ip botPattern).verified = true →
        Genuine networks r ip botPattern) ↔ r.Sound networks ip botPattern := by
  rw [verifyBotIPWithTimeout_verified_iff, Resolver.Sound]
  constructor
  · intro h
    by_cases hgenuine : Genuine networks r ip botPattern
    · exact .inl hgenuine
    refine .inr ⟨?_, fun name hmatch hres => ?_⟩
    · by_contra htime
      exact hgenuine (h (.inl (by simpa using htime)))
    · exact absurd (h (.inr (.inr ⟨name, hmatch, hres⟩))) hgenuine
  · rintro (hgenuine | ⟨htime, hnames⟩) (h | h | ⟨name, hmatch, hres⟩)
    · exact hgenuine
    · exact hgenuine
    · exact hgenuine
    · rw [htime] at h
      cases h
    · exact .inl h
    · exact .inr ⟨name, List.mem_of_find?_eq_some hmatch, hnames name hmatch hres, hres⟩

end Verify

end VibesWaf

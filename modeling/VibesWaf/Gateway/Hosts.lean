import VibesWaf.Apps.Snapshot
import VibesWaf.Go.NetIP
import VibesWaf.Pipeline.Normalize

/-!
# Three readings of the Host header

The router decides by the host whether a request is for the dashboard, the request handler looks up
the application, and the normaliser prepares the host for the rules. Each reads `Request.Host` for
itself: the router cuts it at the last colon, the handler takes it as it is, and the normaliser
cuts it at the last colon and lowers the rest.

A `HostHeader` is a host name, an IPv4 address or a bracketed IPv6 literal, with or without a port.
Two of them that differ in letter case or in the port denote the same host, and
`hostsAgree_iff` says when all three readings treat them alike.
-/

namespace VibesWaf

/-! ### The router -/

/-- `isDashboardRequest`. -/
def isDashboardRequest (dashboardHost : GoString) (r : Request) : Bool :=
  let host := stripPort r.host
  if host ∈ [str "localhost", str "127.0.0.1", str "::1", []] then true
  else dashboardHost ≠ [] && host = dashboardHost

/-- Where `Router.ServeHTTP` sends a request. -/
inductive Destination
  | health
  | healthForApp
  | wafVerify
  | noContent
  | api
  | ui
  | waf
  deriving DecidableEq

/-- `Router.ServeHTTP`. -/
def Router.serveHTTP (dashboardHost : GoString) (r : Request) : Destination :=
  if r.path = str "/health" then
    let host := stripPort r.host
    let isInternal := host ∈ [[], str "localhost", str "127.0.0.1"]
    if isInternal ∨ (dashboardHost ≠ [] ∧ host = dashboardHost) then .health else .healthForApp
  else if r.path = str "/__waf_verify" then .wafVerify
  else if isDashboardRequest dashboardHost r then
    if hasPrefix r.path (str "/api/v1/") then
      if r.method = str "OPTIONS" then .noContent else .api
    else .ui
  else .waf

/-- The application that `WAFHandler.ServeHTTP` resolves, by the snapshot of the service. -/
def resolveApp (snapshot : AppSnapshot) (r : Request) : Option StoredApp :=
  snapshot.byDomain r.host

/-! ### Hosts with and without a port -/

/-- A bracketed IPv6 literal. -/
def IsIPv6Literal (name : GoString) : Prop :=
  ∃ body b, name = 0x5B :: body ++ [0x5D] ∧ parseAddr body = some (.v6 b [])

/-- A Host header: a host name, an IPv4 address or an IPv6 literal, and maybe a port. -/
structure HostHeader where
  name : GoString
  port : Option GoString
  ascii : isASCII name = true
  named : name ≠ []
  kind : 0x3A ∉ name ∨ IsIPv6Literal name
  digits : ∀ p ∈ port, ∀ c ∈ p, isDigit c = true

/-- The text of the header. -/
def HostHeader.text (h : HostHeader) : GoString :=
  match h.port with
  | none => h.name
  | some p => h.name ++ 0x3A :: p

/-- The headers differ in letter case or in the port only. -/
def SameHost (h₁ h₂ : HostHeader) : Prop :=
  h₁.name.map lowerByte = h₂.name.map lowerByte

instance (h₁ h₂ : HostHeader) : Decidable (SameHost h₁ h₂) :=
  inferInstanceAs (Decidable (h₁.name.map lowerByte = h₂.name.map lowerByte))

/-! ### Cutting at the last colon -/

/-- The last colon is the one with none behind it. -/
theorem stripPort_append {s p : GoString} (hp : 0x3A ∉ p) : stripPort (s ++ 0x3A :: p) = s := by
  have hnone : ∀ c ∈ p.reverse, (decide (c = 0x3A)) = false := by
    intro c hc
    refine decide_eq_false fun heq => ?_
    exact hp (heq ▸ List.mem_reverse.mp hc)
  have hindex : lastIndexByte (s ++ 0x3A :: p) 0x3A = some s.length := by
    rw [lastIndexByte, List.reverse_append, List.reverse_cons, List.append_assoc,
      List.findIdx?_append, List.findIdx?_eq_none_iff.mpr hnone]
    simp [List.findIdx?_cons]
  rw [stripPort, hindex]
  exact List.take_left' rfl

theorem stripPort_of_not_mem {s : GoString} (h : 0x3A ∉ s) : stripPort s = s := by
  have hindex : lastIndexByte s 0x3A = none := by
    rw [lastIndexByte, Option.map_eq_none_iff, List.findIdx?_eq_none_iff]
    intro c hc
    exact decide_eq_false fun heq => h (heq ▸ List.mem_reverse.mp hc)
  rw [stripPort, hindex]

/-- A text with a colon splits at the last one. -/
theorem exists_last_colon {s : GoString} (h : 0x3A ∈ s) :
    ∃ p, s = stripPort s ++ 0x3A :: p ∧ 0x3A ∉ p := by
  obtain ⟨a, b, hab, ha⟩ := List.eq_append_cons_of_mem (List.mem_reverse.mpr h)
  have hs : s = b.reverse ++ 0x3A :: a.reverse := by
    rw [← List.reverse_reverse s, hab]
    simp
  have ha' : 0x3A ∉ a.reverse := fun hmem => ha (List.mem_reverse.mp hmem)
  refine ⟨a.reverse, ?_, ha'⟩
  rw [hs, stripPort_append ha']

/-- Cutting and lowering commute. -/
theorem stripPort_map (s : GoString) :
    stripPort (s.map lowerByte) = (stripPort s).map lowerByte := by
  have hcolon : ∀ c : UInt8, lowerByte c = 0x3A → c = 0x3A := by decide +kernel
  have hmem : ∀ s : GoString, 0x3A ∉ s → 0x3A ∉ s.map lowerByte := by
    intro s hs hmap
    obtain ⟨c, hc, heq⟩ := List.mem_map.mp hmap
    exact hs (hcolon c heq ▸ hc)
  by_cases h : 0x3A ∈ s
  · obtain ⟨p, hs, hp⟩ := exists_last_colon h
    have hmap : s.map lowerByte = (stripPort s).map lowerByte ++ 0x3A :: p.map lowerByte := by
      conv_lhs => rw [hs]
      rw [List.map_append, List.map_cons]
      rfl
    rw [hmap, stripPort_append (hmem p hp)]
  · rw [stripPort_of_not_mem h, stripPort_of_not_mem (hmem s h)]

/-- What is cut off does not come back: the rest is shorter. -/
theorem length_stripPort_lt {s : GoString} (h : 0x3A ∈ s) : (stripPort s).length < s.length := by
  obtain ⟨p, hs, -⟩ := exists_last_colon h
  have hlen := congrArg List.length hs
  rw [List.length_append, List.length_cons] at hlen
  omega

/-! ### What each reading takes of a host -/

/-- An IPv6 literal is written with colons. -/
theorem IsIPv6Literal.colon {name : GoString} (h : IsIPv6Literal name) : 0x3A ∈ name := by
  obtain ⟨body, b, rfl, hparse⟩ := h
  rw [parseAddr] at hparse
  split at hparse
  · -- an IPv4 address
    cases hfields : (parseIPv4Fields 0 0 [] body).bind (toBytes 4) with
    | none => simp [hfields] at hparse
    | some _ => simp [hfields] at hparse
  · rename_i hfind
    simp [List.mem_of_find?_eq_some hfind]
  · cases hparse

namespace HostHeader

variable {h h₁ h₂ : HostHeader}

/-- The last colon is the one of a port, or one of a literal. -/
theorem cut_cases (h : HostHeader) :
    (IsIPv6Literal h.name → h.port.isSome = true) ∨
      IsIPv6Literal h.name ∧ h.port = none ∧ h.text = h.name := by
  cases hport : h.port with
  | some p => exact .inl fun _ => rfl
  | none =>
    by_cases hlit : IsIPv6Literal h.name
    · exact .inr ⟨hlit, rfl, by rw [text, hport]⟩
    · exact .inl fun h => absurd h hlit

/-- With a port, or without any colon, the name is what is cut out. -/
theorem stripPort_text (h : HostHeader) (hcut : IsIPv6Literal h.name → h.port.isSome = true) :
    stripPort h.text = h.name := by
  rw [text]
  cases hport : h.port with
  | some p =>
    have hcolon : isDigit 0x3A = false := by decide
    refine stripPort_append fun hmem => ?_
    have hdigit := h.digits p hport _ hmem
    rw [hcolon] at hdigit
    cases hdigit
  | none =>
    refine stripPort_of_not_mem ?_
    rcases h.kind with hkind | hkind
    · exact hkind
    · have hsome := hcut hkind
      rw [hport] at hsome
      cases hsome

/-- What is cut out begins as the host does, and not with a colon. -/
theorem head_stripPort_text (h : HostHeader) :
    ∃ c s, stripPort h.text = c :: s ∧ c ≠ 0x3A := by
  have hname : ∃ c s, h.name = c :: s ∧ c ≠ 0x3A := by
    rcases h.kind with hkind | ⟨body, b, hbody, -⟩
    · cases hn : h.name with
      | nil => exact absurd hn h.named
      | cons c s => exact ⟨c, s, rfl, fun heq => hkind (hn ▸ heq ▸ List.mem_cons_self)⟩
    · exact ⟨0x5B, body ++ [0x5D], hbody.trans rfl, by decide⟩
  obtain ⟨c, s, hcs, hc⟩ := hname
  rcases h.cut_cases with hcut | ⟨hlit, -, htext⟩
  · exact ⟨c, s, (h.stripPort_text hcut).trans hcs, hc⟩
  · obtain ⟨p, hp, -⟩ := exists_last_colon hlit.colon
    rw [htext]
    cases hstrip : stripPort h.name with
    | nil =>
      -- the name would begin with its last colon
      rw [hstrip, hcs, List.nil_append, List.cons.injEq] at hp
      exact absurd hp.1 hc
    | cons d t =>
      rw [hstrip, hcs, List.cons_append, List.cons.injEq] at hp
      exact ⟨d, t, rfl, hp.1 ▸ hc⟩

/-- What is cut out is a part of the host. -/
theorem isASCII_stripPort_text (h : HostHeader) : isASCII (stripPort h.text) = true := by
  rcases h.cut_cases with hcut | ⟨hlit, -, htext⟩
  · rw [h.stripPort_text hcut]
    exact h.ascii
  · obtain ⟨p, hp, -⟩ := exists_last_colon hlit.colon
    have hascii := h.ascii
    rw [htext]
    rw [hp, isASCII, List.all_append, Bool.and_eq_true] at hascii
    exact hascii.1

/-- A host is a literal if it has a colon. -/
theorem literal_iff (h : HostHeader) : IsIPv6Literal h.name ↔ 0x3A ∈ h.name :=
  ⟨IsIPv6Literal.colon, fun hcolon => h.kind.resolve_left (not_not.mpr hcolon)⟩

end HostHeader

section SameHost

variable {h₁ h₂ : HostHeader}

theorem SameHost.symm (hsame : SameHost h₁ h₂) : SameHost h₂ h₁ :=
  Eq.symm hsame

theorem SameHost.length_eq (hsame : SameHost h₁ h₂) : h₁.name.length = h₂.name.length := by
  simpa using congrArg List.length hsame

/-- A host is a literal in every spelling. -/
theorem SameHost.literal (hsame : SameHost h₁ h₂) (h : IsIPv6Literal h₁.name) :
    IsIPv6Literal h₂.name := by
  have hcolon : ∀ c : UInt8, lowerByte c = 0x3A → c = 0x3A := by decide +kernel
  have hmem : (0x3A : UInt8) ∈ h₂.name.map lowerByte := by
    rw [← hsame]
    exact List.mem_map.mpr ⟨0x3A, h.colon, rfl⟩
  obtain ⟨c, hc, heq⟩ := List.mem_map.mp hmem
  exact h₂.literal_iff.mpr (hcolon c heq ▸ hc)

/-- With a port in one header only, what is cut out of a literal is not even of one length. -/
private theorem SameHost.length_lt (hsame : SameHost h₁ h₂) (hlit : IsIPv6Literal h₁.name)
    (hnone : h₁.port = none) (hsome : h₂.port.isSome = true) :
    (stripPort h₁.text).length < (stripPort h₂.text).length := by
  have htext : h₁.text = h₁.name := by rw [HostHeader.text, hnone]
  rw [h₂.stripPort_text fun _ => hsome, htext, ← hsame.length_eq]
  exact length_stripPort_lt hlit.colon

/-- **The cut hosts** agree up to case exactly when a literal has a port in both headers or in
neither. -/
theorem SameHost.map_stripPort_iff (hsame : SameHost h₁ h₂) :
    (stripPort h₁.text).map lowerByte = (stripPort h₂.text).map lowerByte ↔
      (IsIPv6Literal h₁.name → (h₁.port.isSome = true ↔ h₂.port.isSome = true)) := by
  by_cases hlit : IsIPv6Literal h₁.name
  · have hlen : (stripPort h₁.text).map lowerByte = (stripPort h₂.text).map lowerByte →
        (stripPort h₁.text).length = (stripPort h₂.text).length :=
      fun h => by simpa using congrArg List.length h
    cases hport₁ : h₁.port with
    | none =>
      cases hport₂ : h₂.port with
      | none =>
        refine iff_of_true ?_ fun _ => Iff.rfl
        rw [HostHeader.text, HostHeader.text, hport₁, hport₂]
        dsimp only
        rw [← stripPort_map, ← stripPort_map, hsame]
      | some p =>
        have hlt := hsame.length_lt hlit hport₁ (by rw [hport₂]; rfl)
        exact iff_of_false (fun h => hlt.ne (hlen h)) (by simp [hlit])
    | some p =>
      cases hport₂ : h₂.port with
      | none =>
        have hlt := hsame.symm.length_lt (hsame.literal hlit) hport₂ (by rw [hport₁]; rfl)
        exact iff_of_false (fun h => hlt.ne' (hlen h)) (by simp [hlit])
      | some q =>
        refine iff_of_true ?_ fun _ => by simp
        rw [h₁.stripPort_text fun _ => by rw [hport₁]; rfl,
          h₂.stripPort_text fun _ => by rw [hport₂]; rfl]
        exact hsame
  · refine iff_of_true ?_ fun h => absurd h hlit
    rw [h₁.stripPort_text fun h => absurd h hlit,
      h₂.stripPort_text fun h => absurd (hsame.symm.literal h) hlit]
    exact hsame

end SameHost

/-! ### The three readings -/

section Readings

variable {h₁ h₂ : HostHeader}

/-- A text without letters has one spelling. -/
private theorem eq_of_caseless {s t : GoString} (ht : ∀ c ∈ t, isCaseless c = true)
    (h : s.map lowerByte = t.map lowerByte) : s = t := by
  have hbyte : ∀ c : UInt8, isCaseless (lowerByte c) = true → lowerByte c = c := by
    decide +kernel
  have hkept : ∀ c : UInt8, isCaseless c = true → lowerByte c = c := by decide +kernel
  have hlower : t.map lowerByte = t :=
    (List.map_congr_left fun c hc => hkept c (ht c hc)).trans (List.map_id t)
  rw [hlower] at h
  refine ((List.map_congr_left fun c hc => hbyte c ?_).trans (List.map_id s)).symm.trans h
  exact ht _ (h ▸ List.mem_map_of_mem hc)

/-- A host that is the dashboard's shows that there is one. -/
private theorem eq_dashboardHost_iff {dashboardHost s : GoString} {c : UInt8} :
    ¬ dashboardHost = [] ∧ c :: s = dashboardHost ↔ c :: s = dashboardHost :=
  and_iff_right_of_imp fun heq => heq ▸ List.cons_ne_nil c s

/-- The router compares what is cut out with the loopback names and the dashboard host. -/
theorem isDashboardRequest_iff (dashboardHost : GoString) (r : Request) (h : HostHeader) :
    isDashboardRequest dashboardHost { r with host := h.text } = true ↔
      stripPort h.text ∈ [str "localhost", str "127.0.0.1", dashboardHost] := by
  obtain ⟨c, s, hstrip, hc⟩ := h.head_stripPort_text
  have hipv6 : str "::1" = [0x3A, 0x3A, 0x31] := by decide
  rw [isDashboardRequest, hstrip]
  simp [hipv6, hc, eq_dashboardHost_iff, or_assoc]

/-- The decision is all that the router takes from a host. -/
theorem Router.serveHTTP_congr {dashboardHost : GoString} {r : Request}
    (h : isDashboardRequest dashboardHost { r with host := h₁.text } =
      isDashboardRequest dashboardHost { r with host := h₂.text }) :
    Router.serveHTTP dashboardHost { r with host := h₁.text } =
      Router.serveHTTP dashboardHost { r with host := h₂.text } := by
  have hinternal : ∀ k : HostHeader,
      (stripPort k.text ∈ [[], str "localhost", str "127.0.0.1"] ∨
          (dashboardHost ≠ [] ∧ stripPort k.text = dashboardHost)) ↔
        isDashboardRequest dashboardHost { r with host := k.text } = true := by
    intro k
    obtain ⟨c, s, hstrip, -⟩ := k.head_stripPort_text
    rw [isDashboardRequest_iff, hstrip]
    simp [eq_dashboardHost_iff, or_assoc]
  simp only [Router.serveHTTP, hinternal, h]

/-- The dashboard decision is the same for two cut hosts that agree up to case exactly when
`localhost` and the dashboard host are written as they are in both or in neither. -/
private theorem isDashboardRequest_eq_iff (dashboardHost : GoString) (r : Request)
    (hcase : (stripPort h₁.text).map lowerByte = (stripPort h₂.text).map lowerByte) :
    isDashboardRequest dashboardHost { r with host := h₁.text } =
        isDashboardRequest dashboardHost { r with host := h₂.text } ↔
      (stripPort h₁.text ∈ [str "localhost", dashboardHost] ↔
        stripPort h₂.text ∈ [str "localhost", dashboardHost]) := by
  have hloopback : ∀ c ∈ str "127.0.0.1", isCaseless c = true := by decide +kernel
  have hsame : stripPort h₁.text = str "127.0.0.1" ↔ stripPort h₂.text = str "127.0.0.1" := by
    constructor
    · intro h
      exact eq_of_caseless hloopback (h ▸ hcase.symm)
    · intro h
      exact eq_of_caseless hloopback (h ▸ hcase)
  rw [Bool.eq_iff_iff, isDashboardRequest_iff, isDashboardRequest_iff]
  simp only [List.mem_cons, List.not_mem_nil, or_false]
  by_cases h : stripPort h₁.text = str "127.0.0.1"
  · -- both are the loopback address
    rw [h, hsame.mp h]
    exact iff_of_true Iff.rfl Iff.rfl
  · simp [h, mt hsame.mpr h]

/-- Two domains resolve alike if they are one, or no application has either. -/
private theorem resolveApp_eq_iff (t : AppTable) (r : Request) :
    resolveApp (.load t.listAll) { r with host := h₁.text } =
        resolveApp (.load t.listAll) { r with host := h₂.text } ↔
      h₁.text = h₂.text ∨ ∀ a ∈ t.rows, a.domain ≠ h₁.text ∧ a.domain ≠ h₂.text := by
  simp only [resolveApp, AppSnapshot.load_byDomain, AppTable.getByDomain]
  constructor
  · intro h
    by_contra hnot
    obtain ⟨hne, happ⟩ := not_or.mp hnot
    cases hfind : t.rows.find? (·.domain = h₁.text) with
    | some a =>
      -- the application would have both domains
      have hfound := List.find?_some hfind
      have hfound' := List.find?_some (h ▸ hfind)
      have hdomain₁ : a.domain = h₁.text := of_decide_eq_true hfound
      have hdomain₂ : a.domain = h₂.text := of_decide_eq_true hfound'
      exact hne (hdomain₁.symm.trans hdomain₂)
    | none =>
      have hnone := h ▸ hfind
      rw [List.find?_eq_none] at hfind hnone
      exact happ fun a ha => ⟨by simpa using hfind a ha, by simpa using hnone a ha⟩
  · rintro (h | h)
    · rw [h]
    · rw [List.find?_eq_none.mpr fun a ha => by simpa using (h a ha).1,
        List.find?_eq_none.mpr fun a ha => by simpa using (h a ha).2]

variable [GoLib]

/-- The router, the request handler and the normaliser treat two requests alike. -/
structure HostsAgree (dashboardHost : GoString) (t : AppTable) (r₁ r₂ : Request) : Prop where
  dashboard : isDashboardRequest dashboardHost r₁ = isDashboardRequest dashboardHost r₂
  application : resolveApp (.load t.listAll) r₁ = resolveApp (.load t.listAll) r₂
  normalized : (normalize r₁).host = (normalize r₂).host

/-- The normalised host is what is cut out, in lower case. -/
theorem normalize_host (r : Request) (h : HostHeader) :
    (normalize { r with host := h.text }).host = (stripPort h.text).map lowerByte := by
  rw [normalize, normalizeHost, toLower, if_pos h.isASCII_stripPort_text]

/-- **Host handling.** For two requests that differ in the spelling of their host only, the three
readings agree exactly when an IPv6 literal has a port in both or in neither, the headers are the
same or no application is registered under either, and what is left of them before the last colon
is written as `localhost` or the dashboard host in both or in neither. -/
theorem hostsAgree_iff (dashboardHost : GoString) (t : AppTable) (r : Request)
    (hsame : SameHost h₁ h₂) :
    HostsAgree dashboardHost t { r with host := h₁.text } { r with host := h₂.text } ↔
      (IsIPv6Literal h₁.name → (h₁.port.isSome = true ↔ h₂.port.isSome = true)) ∧
        (h₁.text = h₂.text ∨ ∀ a ∈ t.rows, a.domain ≠ h₁.text ∧ a.domain ≠ h₂.text) ∧
        (stripPort h₁.text ∈ [str "localhost", dashboardHost] ↔
          stripPort h₂.text ∈ [str "localhost", dashboardHost]) := by
  rw [← hsame.map_stripPort_iff]
  constructor
  · rintro ⟨hdashboard, happlication, hnormalized⟩
    rw [normalize_host, normalize_host] at hnormalized
    exact ⟨hnormalized, (resolveApp_eq_iff t r).mp happlication,
      (isDashboardRequest_eq_iff dashboardHost r hnormalized).mp hdashboard⟩
  · rintro ⟨hcase, happ, hspelled⟩
    refine ⟨(isDashboardRequest_eq_iff dashboardHost r hcase).mpr hspelled,
      (resolveApp_eq_iff t r).mpr happ, ?_⟩
    rw [normalize_host, normalize_host]
    exact hcase

end Readings

/-- A header with a host name. -/
def hostName (name : GoString) (port : Option GoString) (ascii : isASCII name = true)
    (named : name ≠ []) (colon : 0x3A ∉ name) (digits : ∀ p ∈ port, ∀ c ∈ p, isDigit c = true) :
    HostHeader :=
  ⟨name, port, ascii, named, .inl colon, digits⟩

/-- Two spellings of a host that no application is registered under. -/
theorem hostsAgree_iff_blog :
    let h₁ := hostName (str "blog.example") none (by decide +kernel) (by decide +kernel)
      (by decide +kernel) (by decide +kernel)
    let h₂ := hostName (str "Blog.Example") (some (str "8080")) (by decide +kernel)
      (by decide +kernel) (by decide +kernel) (by decide +kernel)
    @HostsAgree asciiLib (str "waf.example") sampleTable
      { pathRequest (str "/") with host := h₁.text }
      { pathRequest (str "/") with host := h₂.text } :=
  (@hostsAgree_iff _ _ asciiLib (str "waf.example") sampleTable (pathRequest (str "/"))
    (by decide)).mpr
    ⟨fun h => absurd h.colon (by decide), .inr (by decide), by decide⟩

/-- The application of a host is not found when the port is given. -/
theorem hosts_disagree_port :
    let h₁ := hostName (str "shop.example") none (by decide +kernel) (by decide +kernel)
      (by decide +kernel) (by decide +kernel)
    let h₂ := hostName (str "shop.example") (some (str "8080")) (by decide +kernel)
      (by decide +kernel) (by decide +kernel) (by decide +kernel)
    SameHost h₁ h₂ ∧
      ¬ @HostsAgree asciiLib (str "waf.example") sampleTable
        { pathRequest (str "/") with host := h₁.text }
        { pathRequest (str "/") with host := h₂.text } := by
  refine ⟨rfl, fun h => ?_⟩
  have hne : resolveApp (.load sampleTable.listAll)
      { pathRequest (str "/") with host := str "shop.example" } ≠
        resolveApp (.load sampleTable.listAll)
          { pathRequest (str "/") with host := str "shop.example:8080" } := by
    decide
  exact hne (@HostsAgree.application asciiLib _ _ _ _ h)

end VibesWaf

import VibesWaf.Challenge.ClientIP
import VibesWaf.Gateway.App

/-!
# What a client cannot say about its address

Each proxy appends the address of its peer to `X-Forwarded-For`, so the front of the header is the
client's to choose. With trusted proxies the address is the last entry that is none of them, and
`clientIP_prepend` says that the front has no say in it as long as there is such an entry. A header
that is there but empty counts as absent: it has no entries, and the address comes from elsewhere.
-/

namespace VibesWaf

/-- `App.ExtractClientIP`. -/
def App.extractClientIP (a : App) (r : Request) : GoString :=
  if r.xff = [] then if r.cfIP ≠ [] then trimSpace r.cfIP else r.remoteHost
  else
    let ips := split r.xff 0x2C
    let trustedProxies := a.advanced.trustedProxies
    if trustedProxies = [] then trimSpace (ips.headD [])
    else (walkProxies trustedProxies ips.reverse).getD (trimSpace (ips.headD []))

/-- The two functions are one. -/
theorem App.extractClientIP_eq (a : App) (r : Request) :
    a.extractClientIP r = extractClientIPStatic r a.advanced.trustedProxies :=
  rfl

/-- The entries of an `X-Forwarded-For` header. -/
def forwardedEntries (xff : GoString) : List GoString :=
  if xff = [] then [] else split xff 0x2C

/-- The entry is the text of no address in a trusted network. -/
def IsForeignEntry (trustedProxies : List GoString) (entry : GoString) : Prop :=
  isTrusted trustedProxies (trimSpace entry) = false

instance (trustedProxies : List GoString) (entry : GoString) :
    Decidable (IsForeignEntry trustedProxies entry) :=
  inferInstanceAs (Decidable (_ = _))

variable {trustedProxies : List GoString}

/-- A header with entries is split into them. -/
theorem forwardedEntries_eq {xff entry : GoString} (h : entry ∈ forwardedEntries xff) :
    xff ≠ [] ∧ forwardedEntries xff = split xff 0x2C := by
  have hxff : xff ≠ [] := by
    rintro rfl
    exact absurd h List.not_mem_nil
  exact ⟨hxff, if_neg hxff⟩

/-- **The walk ends** at the last entry that is no trusted proxy, whatever stands in front. -/
theorem walkProxies_append {entries : List GoString}
    (h : ∃ entry ∈ entries, IsForeignEntry trustedProxies entry) (front : List GoString) :
    walkProxies trustedProxies (front ++ entries).reverse =
      walkProxies trustedProxies entries.reverse := by
  obtain ⟨entry, hmem, hforeign⟩ := h
  have hfound : ((entries.reverse.map trimSpace).find? fun ip =>
      !isTrusted trustedProxies ip).isSome = true := by
    rw [List.find?_isSome]
    refine ⟨trimSpace entry, List.mem_map_of_mem (List.mem_reverse.mpr hmem), ?_⟩
    rw [hforeign]
    rfl
  obtain ⟨ip, hip⟩ := Option.isSome_iff_exists.mp hfound
  rw [walkProxies_eq_find, walkProxies_eq_find, List.reverse_append, List.map_append,
    List.find?_append, hip, Option.some_or]

/-- With an entry that is no trusted proxy the walk finds the address. -/
theorem walkProxies_ne_none {entries : List GoString}
    (h : ∃ entry ∈ entries, IsForeignEntry trustedProxies entry) :
    walkProxies trustedProxies entries.reverse ≠ none := by
  obtain ⟨entry, hmem, hforeign⟩ := h
  rw [walkProxies_eq_find, Ne, List.find?_eq_none]
  intro hall
  refine hall (trimSpace entry) (List.mem_map_of_mem (List.mem_reverse.mpr hmem)) ?_
  rw [hforeign]
  rfl

/-- **The address is not the client's to choose.** Text that is prepended to an `X-Forwarded-For`
header with an entry that is no trusted proxy leaves the address of the client as it is, whatever
else the two requests have. -/
theorem clientIP_prepend (hproxies : trustedProxies ≠ []) {r r' : Request} {text : GoString}
    (hforeign : ∃ entry ∈ forwardedEntries r.xff, IsForeignEntry trustedProxies entry)
    (hxff : r'.xff = text ++ 0x2C :: r.xff) :
    extractClientIPStatic r' trustedProxies = extractClientIPStatic r trustedProxies ∧
      ∀ a : App, a.advanced.trustedProxies = trustedProxies →
        a.extractClientIP r' = a.extractClientIP r := by
  have hstatic : extractClientIPStatic r' trustedProxies =
      extractClientIPStatic r trustedProxies := by
    obtain ⟨hne, hentries⟩ := forwardedEntries_eq hforeign.choose_spec.1
    rw [hentries] at hforeign
    have hne' : r'.xff ≠ [] := by simp [hxff]
    have hsplit : split r'.xff 0x2C = split text 0x2C ++ split r.xff 0x2C := by
      rw [hxff, split, List.splitOn_append_cons_self]
      rfl
    obtain ⟨ip, hip⟩ := Option.ne_none_iff_exists'.mp (walkProxies_ne_none hforeign)
    rw [extractClientIPStatic, if_neg hne', extractClientIPStatic, if_neg hne]
    dsimp only
    rw [if_neg hproxies, if_neg hproxies, hsplit, walkProxies_append hforeign, hip]
    rfl
  refine ⟨hstatic, ?_⟩
  rintro a rfl
  rw [a.extractClientIP_eq, a.extractClientIP_eq]
  exact hstatic

/-- A request with an `X-Forwarded-For` header, from a proxy in the local network. -/
def chainedRequest (xff : GoString) : Request where
  method := str "GET"
  path := str "/"
  rawPath := []
  rawQuery := []
  requestURI := str "/"
  host := str "shop.test"
  proto := str "HTTP/1.1"
  header key := if key = str "X-Forwarded-For" then [xff] else []
  cookies := []
  remoteAddr := str "10.0.0.2:40000"
  tls := false

/-- A client that claims to be `127.0.0.1`. -/
theorem clientIP_prepend_loopback :
    let spoofed := chainedRequest (str "127.0.0.1, 203.0.113.9, 10.0.0.2")
    let honest := chainedRequest (str " 203.0.113.9, 10.0.0.2")
    extractClientIPStatic honest [str "10.0.0.0/8"] = str "203.0.113.9" ∧
      extractClientIPStatic spoofed [str "10.0.0.0/8"] =
        extractClientIPStatic honest [str "10.0.0.0/8"] := by
  intro spoofed honest
  have hxff : spoofed.xff = str "127.0.0.1" ++ 0x2C :: honest.xff := by decide
  refine ⟨by decide, (clientIP_prepend (by simp) ?_ hxff).1⟩
  exact ⟨str " 203.0.113.9", by decide, by decide⟩

end VibesWaf

import VibesWaf.Go.Http
import VibesWaf.Go.NetBits

/-!
# The client's address

Two functions of the source say whose request this is. `getClientIP` asks the trusted proxies of
the application: with none it takes the `CF-Connecting-IP` header, else the first entry of
`X-Forwarded-For`, else the peer's address; with some it walks `X-Forwarded-For` from the right to
the first entry that is no trusted proxy. `verifyClientIP` is the first half of it, written again
in the handler that issues the clearance cookie, which never looks at the trusted proxies.

`clientIP_agree_iff` says when the two agree.
-/

namespace VibesWaf

/-- `X-Forwarded-For`. -/
def Request.xff (r : Request) : GoString :=
  r.get (str "X-Forwarded-For")

/-- `CF-Connecting-IP`. -/
def Request.cfIP (r : Request) : GoString :=
  r.get (str "CF-Connecting-IP")

/-- The host of `RemoteAddr`, or all of it. -/
def Request.remoteHost (r : Request) : GoString :=
  match splitHostPort r.remoteAddr with
  | some (host, _) => host
  | none => r.remoteAddr

/-- The address is in one of the trusted networks; a text that is no network is passed over. -/
def isTrusted (trustedProxies : List GoString) (ip : GoString) : Bool :=
  trustedProxies.any fun cidr =>
    match parseCIDR cidr with
    | none => false
    | some network => (parseIP ip).any fun parsed => network.contains parsed.1

/-- The loop of `ExtractClientIPStatic`, over the entries from the right. -/
def walkProxies (trustedProxies : List GoString) : List GoString → Option GoString
  | [] => none
  | entry :: rest =>
    let ip := trimSpace entry
    if isTrusted trustedProxies ip then walkProxies trustedProxies rest else some ip

/-- `ExtractClientIPStatic`. -/
def extractClientIPStatic (r : Request) (trustedProxies : List GoString) : GoString :=
  if r.xff = [] then if r.cfIP ≠ [] then trimSpace r.cfIP else r.remoteHost
  else
    let ips := split r.xff 0x2C
    if trustedProxies = [] then trimSpace (ips.headD [])
    else (walkProxies trustedProxies ips.reverse).getD (trimSpace (ips.headD []))

/-- `getClientIP` of the request handler. -/
def getClientIP (r : Request) (trustedProxies : List GoString) : GoString :=
  if trustedProxies = [] then
    if r.cfIP ≠ [] then trimSpace r.cfIP
    else if r.xff ≠ [] then trimSpace ((split r.xff 0x2C).headD [])
    else r.remoteHost
  else extractClientIPStatic r trustedProxies

/-- The address `handleWAFVerify` signs. -/
def verifyClientIP (r : Request) : GoString :=
  if r.cfIP ≠ [] then trimSpace r.cfIP
  else if r.xff ≠ [] then trimSpace ((split r.xff 0x2C).headD [])
  else r.remoteHost

/-- The walk finds the first entry from the right that is no trusted proxy. -/
theorem walkProxies_eq_find (trustedProxies entries : List GoString) :
    walkProxies trustedProxies entries =
      (entries.map trimSpace).find? fun ip => !isTrusted trustedProxies ip := by
  induction entries with
  | nil => rfl
  | cons entry rest ih =>
    rw [walkProxies, List.map_cons, List.find?_cons, ih]
    cases isTrusted trustedProxies (trimSpace entry) <;> rfl

/-- **When the two addresses agree.** With trusted proxies and an `X-Forwarded-For` header, the
rightmost entry of it that is no trusted proxy (or the first entry, when all are) must be the
`CF-Connecting-IP` address, or the first entry when that header is absent. -/
theorem clientIP_agree_iff (r : Request) (trustedProxies : List GoString) :
    getClientIP r trustedProxies = verifyClientIP r ↔
      trustedProxies = [] ∨ r.xff = [] ∨
        let hops := (split r.xff 0x2C).map trimSpace
        (hops.reverse.find? fun ip => !isTrusted trustedProxies ip).getD
            (trimSpace ((split r.xff 0x2C).headD [])) =
          if r.cfIP ≠ [] then trimSpace r.cfIP else trimSpace ((split r.xff 0x2C).headD []) := by
  by_cases hproxies : trustedProxies = []
  · simp [getClientIP, verifyClientIP, hproxies]
  by_cases hxff : r.xff = []
  · simp [getClientIP, verifyClientIP, extractClientIPStatic, hproxies, hxff]
  rw [or_iff_right hproxies, or_iff_right hxff, getClientIP, if_neg hproxies,
    extractClientIPStatic, if_neg hxff, verifyClientIP, if_pos hxff]
  dsimp only
  rw [if_neg hproxies, walkProxies_eq_find, List.map_reverse]

end VibesWaf

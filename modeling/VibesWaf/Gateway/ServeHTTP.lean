import VibesWaf.Gateway.Proxy
import VibesWaf.Pipeline.Response

/-!
# The request handler

`Gateway.serveHTTP` is the dispatch of `WAFHandler.ServeHTTP`: redirects and preflights first, then
static assets, then upgrades to a web socket, and the pipeline for everything else. What it does on
the way is a list of `Step`s, and what the client gets in the end a `Response`.

The upgrade branch makes three checks before it opens a tunnel. `proxyToUpstream` opens one as well,
and makes none: the branch for static assets reaches it with an upgrade. `serveHTTP_tunnel_iff`
says that this is the only way around the checks.
-/

namespace VibesWaf

/-! ### What the handler asks, does and answers -/

/-- What the handler reads of a `MaxMindResult`. -/
structure GeoResult where
  countryCode : GoString
  asn : UInt64
  asnOrg : GoString
  isDatacenter : Bool

/-- `WAFHandler`: what the services behind it answer during one request. -/
structure Gateway where
  /-- `GetAppByDomain`; an error counts as no application. -/
  getAppByDomain : GoString → Option App
  /-- `MaxMindService.Lookup`, when there is a database and no error. -/
  lookup : GoString → Option GeoResult
  generateFingerprint : Request → GoString
  pipeline : Services
  /-- `WebSocketLimiter.Allow`, by application and address, when there is a limiter. -/
  webSocketLimit : Option (GoString → GoString → Bool)
  /-- The round-robin counter of the application. -/
  roundRobin : UInt64
  /-- There is a flood protector. -/
  flood : Bool
  /-- There is a history of clean requests. -/
  trustedHistory : Bool

/-- What the handler does on the way to its answer. -/
inductive Step
  /-- Something the pipeline did. -/
  | effect (e : Effect)
  /-- `ExecuteWebSocketChecks` left an action. -/
  | webSocketChecks (action : Action)
  /-- `isValidWebSocketUpgrade` was asked. -/
  | upgradeHeaders (valid : Bool)
  /-- The limiter for upgrades was asked; without one everything is allowed. -/
  | upgradeLimit (allowed : Bool)
  /-- `Execute` left an action. -/
  | executed (action : Action)
  | recordAttack (ip : GoString)
  | recordCleanRequest (ip : GoString)
  | resetHistory (ip : GoString)
  deriving DecidableEq

/-- What the client gets. -/
inductive Response
  | redirect (target : GoString) (status : ℕ)
  /-- The answer to a preflight, with its headers. -/
  | preflight (headers : List (GoString × GoString))
  | defaultPage (host : GoString)
  | blockedPage (clientIP host reason : GoString)
  | error (text : GoString) (status : ℕ)
  /-- A page that the pipeline wrote. -/
  | written
  /-- The handler returns without a response. -/
  | empty
  /-- `proxyWebSocket`. -/
  | tunnel (upstream : Upstream) (clientIP : GoString)
  /-- A request to the upstream, and its response. -/
  | proxied (upstream : Upstream) (req : ProxyRequest)
  deriving DecidableEq

/-- A request that was served. -/
structure Served where
  steps : List Step
  response : Response
  deriving DecidableEq

/-! ### Headers -/

/-- The headers of the answer to a preflight. -/
def preflightHeaders (cors : CORSConfig) (origin : GoString) : List (GoString × GoString) :=
  (match cors.allowOrigins.find? fun o => o = str "*" ∨ o = origin with
    | none => []
    | some o =>
      [(str "Access-Control-Allow-Origin", if o = str "*" then str "*" else origin)]) ++
  (if cors.allowMethods ≠ [] then
    [(str "Access-Control-Allow-Methods", (str ", ").intercalate cors.allowMethods)] else []) ++
  (if cors.allowHeaders ≠ [] then
    [(str "Access-Control-Allow-Headers", (str ", ").intercalate cors.allowHeaders)] else []) ++
  (if cors.allowCreds then [(str "Access-Control-Allow-Credentials", str "true")] else []) ++
  if 0 < cors.maxAge then [(str "Access-Control-Max-Age", itoa cors.maxAge)] else []

/-- The target of the redirect of the front page. -/
def rootRedirectTarget (target rawQuery : GoString) : GoString :=
  if rawQuery = [] then target
  else if contains target (str "?") then target ++ str "&" ++ rawQuery
  else target ++ str "?" ++ rawQuery

/-- `staticExtensions`. -/
def staticExtensions : List GoString :=
  [str ".js", str ".css", str ".map",
    str ".png", str ".jpg", str ".jpeg", str ".gif", str ".svg", str ".ico", str ".webp",
    str ".woff", str ".woff2", str ".ttf", str ".eot", str ".otf",
    str ".mp4", str ".webm", str ".ogg",
    str ".pdf", str ".zip", str ".tar", str ".gz"]

section Handler

variable [GoLib]

/-- `isStaticAsset`. -/
def isStaticAsset (path : GoString) : Bool :=
  let pathLower := toLower path
  if hasPrefix pathLower (str "/__waf_verify") then false
  else if hasPrefix pathLower (str "/api/") then false
  else if hasPrefix pathLower (str "/health") then false
  else if hasPrefix pathLower (str "/socket.io/") then true
  else staticExtensions.any (hasSuffix pathLower)

/-- `isWebSocketUpgrade`. -/
def isWebSocketUpgrade (r : Request) : Bool :=
  equalFold (r.get (str "Upgrade")) (str "websocket")

/-- `isValidWebSocketUpgrade`. -/
def isValidWebSocketUpgrade (r : Request) : Bool :=
  if contains (toLower (r.get (str "Connection"))) (str "upgrade") = false then false
  else if r.get (str "Sec-WebSocket-Key") = [] then false
  else if r.get (str "Sec-WebSocket-Version") = [] then false
  else true

/-! ### The branches -/

/-- `proxyToUpstream`. -/
def proxyToUpstream (r : Request) (application : Option App) (upstream : Upstream)
    (clientIP : GoString) : Response :=
  if isWebSocketUpgrade r && application.any (·.advanced.allowWebSocket) then
    .tunnel upstream clientIP
  else
    match proxyRequest r application upstream clientIP with
    | none => .blockedPage clientIP r.host (str "Invalid request URL")
    | some req => .proxied upstream req

namespace Gateway

/-- The upstream for a request, when there is an application with one. -/
def upstream (g : Gateway) (application : Option App) (clientIP : GoString) : Option Upstream :=
  application.bind fun app => app.pickUpstream g.roundRobin clientIP

/-- A request goes to the upstream, or gets the default page when there is none. -/
def forward (g : Gateway) (r : Request) (application : Option App) (clientIP : GoString) : Response :=
  match g.upstream application clientIP with
  | none => .defaultPage r.host
  | some upstream => proxyToUpstream r application upstream clientIP

/-- `appID`. -/
def appID (application : Option App) : GoString :=
  (application.map (·.id)).getD (str "default")

/-- What the handler knows of a request when it reaches the pipeline. -/
def visit (g : Gateway) (r : Request) (application : Option App) (clientIP : GoString)
    (underAttack : Bool) : Visit :=
  let geo := g.lookup clientIP
  { request := r
    clientIP
    appID := appID application
    country := (geo.map (·.countryCode)).getD []
    asn := (geo.map (·.asn)).getD 0
    asnOrg := (geo.map (·.asnOrg)).getD []
    isDatacenter := (geo.map (·.isDatacenter)).getD false
    httpFingerprint := g.generateFingerprint r
    underAttack }

/-- The branch for upgrades to a web socket. -/
def serveWebSocket (g : Gateway) (r : Request) (application : Option App) (clientIP : GoString) :
    Served :=
  if application.any (·.advanced.allowWebSocket) = false then
    ⟨[], .error (str "WebSocket not allowed") 403⟩
  else
    -- the visit starts without the decision of under-attack mode
    let ctx := executeWebSocketChecks g.pipeline
      (g.visit r application clientIP false).context
    let checked := ctx.effects.map .effect ++ [.webSocketChecks ctx.action]
    if ctx.action = .block ∨ ctx.action = .challenge then
      ⟨checked, .error (str "Forbidden") 403⟩
    else if isValidWebSocketUpgrade r = false then
      ⟨checked ++ [.upgradeHeaders false], .error (str "Bad Request") 400⟩
    else
      let allowed := g.webSocketLimit.all fun allow => allow (appID application) clientIP
      let checked := checked ++ [.upgradeHeaders true, .upgradeLimit allowed]
      if allowed = false then ⟨checked, .error (str "Too Many Requests") 429⟩
      else
        match g.upstream application clientIP with
        | none => ⟨checked, .defaultPage r.host⟩
        | some upstream => ⟨checked, .tunnel upstream clientIP⟩

/-- The branch for everything else. -/
def serveVisit (g : Gateway) (r : Request) (application : Option App) (clientIP : GoString) :
    Served :=
  let (ctx, written) := execute g.pipeline
    (g.visit r application clientIP (application.any (·.underAttackMode))).context
  let action := if ctx.action = .none then .allow else ctx.action
  let shouldProxy := forwarded ctx.action
  { steps := ctx.effects.map .effect ++ [.executed action] ++
      (if g.flood && 0 < ctx.wafStatus then [.recordAttack clientIP] else []) ++
      if g.trustedHistory then
        [if shouldProxy then .recordCleanRequest clientIP else .resetHistory clientIP]
      else []
    response :=
      if written then .written
      else if shouldProxy then g.forward r application clientIP
      -- neither a page nor a forwarded request
      else .empty }

/-- The address of a client of an application. -/
def clientIP (r : Request) (application : Option App) : GoString :=
  getClientIP r ((application.map (·.advanced.trustedProxies)).getD [])

/-- The request is redirected to HTTPS. -/
def redirectsHTTPS (r : Request) (application : Option App) : Bool :=
  application.any (·.redirectHTTPS) && !r.tls

/-- The request is a preflight that the handler answers. -/
def isPreflight (r : Request) (application : Option App) : Bool :=
  application.any (·.advanced.cors.enabled) && r.method = str "OPTIONS"

/-- `WAFHandler.ServeHTTP`. -/
def serveHTTP (g : Gateway) (r : Request) : Served :=
  let application := g.getAppByDomain r.host
  let ip := clientIP r application
  if redirectsHTTPS r application then
    ⟨[], .redirect (str "https://" ++ r.host ++ r.requestURI) 301⟩
  else if isPreflight r application then
    ⟨[], .preflight ((application.map fun app =>
      preflightHeaders app.advanced.cors (r.get (str "Origin"))).getD [])⟩
  else if isStaticAsset r.path then ⟨[], g.forward r application ip⟩
  else
    let target := (application.map (·.rootRedirect)).getD []
    if target ≠ [] ∧ r.path = str "/" then
      ⟨[], .redirect (rootRedirectTarget target r.rawQuery) 302⟩
    else if isWebSocketUpgrade r then g.serveWebSocket r application ip
    else g.serveVisit r application ip

end Gateway

/-! ### Tunnels -/

/-- The steps show every check for a tunnel, with a good result. -/
structure TunnelChecks (steps : List Step) : Prop where
  /-- The checks of the pipeline left neither a block nor a challenge. -/
  pipeline : ∃ action, .webSocketChecks action ∈ steps ∧ action ≠ .block ∧ action ≠ .challenge
  headers : .upgradeHeaders true ∈ steps
  limit : .upgradeLimit true ∈ steps

/-- A tunnel, when there is one, was checked. -/
def Served.TunnelChecked (s : Served) : Prop :=
  ∀ upstream clientIP, s.response = .tunnel upstream clientIP → TunnelChecks s.steps

/-- An upgrade under a path that counts as a static asset: the application allows web sockets and
has an upstream, and neither a redirect nor a preflight comes before. -/
structure Gateway.StaticUpgrade (g : Gateway) (r : Request) (app : App) : Prop where
  resolved : g.getAppByDomain r.host = some app
  https : redirectsHTTPS r (some app) = false
  preflight : isPreflight r (some app) = false
  static : isStaticAsset r.path = true
  upgrade : isWebSocketUpgrade r = true
  allowed : app.advanced.allowWebSocket = true
  upstream : ∃ u ∈ app.upstreams, u.enabled = true

variable {g : Gateway} {r : Request} {application : Option App} {clientIP : GoString}

omit [GoLib] in
/-- There is an upstream exactly when there is an application with one that is enabled. -/
theorem Gateway.upstream_isSome_iff :
    (∃ upstream, g.upstream application clientIP = some upstream) ↔
      ∃ app, application = some app ∧ ∃ u ∈ app.upstreams, u.enabled = true := by
  cases application with
  | none => simp [Gateway.upstream]
  | some app =>
    have hnone := pickUpstream_eq_none_iff app g.roundRobin clientIP
    rw [← Option.isSome_iff_exists, Option.isSome_iff_ne_none]
    change app.pickUpstream g.roundRobin clientIP ≠ none ↔ _
    rw [Ne, hnone]
    simp

/-- Forwarding opens a tunnel for an upgrade that the application allows. -/
theorem Gateway.forward_tunnel_iff :
    (∃ upstream ip, g.forward r application clientIP = .tunnel upstream ip) ↔
      isWebSocketUpgrade r = true ∧ application.any (·.advanced.allowWebSocket) = true ∧
        ∃ upstream, g.upstream application clientIP = some upstream := by
  rw [Gateway.forward]
  cases g.upstream application clientIP with
  | none => simp
  | some upstream =>
    simp only [Option.some.injEq, exists_eq', and_true]
    rw [proxyToUpstream]
    rw [← Bool.and_eq_true]
    split
    · rename_i htunnel
      exact iff_of_true ⟨_, _, rfl⟩ htunnel
    · rename_i htunnel
      refine iff_of_false ?_ htunnel
      rintro ⟨upstream', ip, hresponse⟩
      split at hresponse
      · exact absurd hresponse (by simp)
      · exact absurd hresponse (by simp)

/-- The upgrade branch checks its tunnels. -/
theorem Gateway.serveWebSocket_checked : (g.serveWebSocket r application clientIP).TunnelChecked := by
  intro upstream ip hresponse
  rw [Gateway.serveWebSocket] at hresponse ⊢
  split at hresponse
  · exact absurd hresponse (by simp)
  rename_i hallowed
  rw [if_neg hallowed]
  dsimp only at hresponse ⊢
  split at hresponse
  · exact absurd hresponse (by simp)
  rename_i haction
  rw [if_neg haction]
  split at hresponse
  · exact absurd hresponse (by simp)
  rename_i hvalid
  rw [if_neg hvalid]
  split at hresponse
  · exact absurd hresponse (by simp)
  rename_i hlimit
  rw [if_neg hlimit]
  rw [Bool.not_eq_false] at hlimit
  rw [not_or] at haction
  cases hup : g.upstream application clientIP with
  | none =>
    rw [hup] at hresponse
    exact absurd hresponse (by simp)
  | some upstream' =>
    dsimp only
    rw [hlimit]
    exact ⟨⟨_, by simp, haction⟩, by simp, by simp⟩

/-- A request that is no upgrade is not tunnelled. -/
theorem Gateway.serveVisit_no_tunnel (hupgrade : isWebSocketUpgrade r = false) (upstream : Upstream)
    (ip : GoString) : (g.serveVisit r application clientIP).response ≠ .tunnel upstream ip := by
  intro hresponse
  rw [Gateway.serveVisit] at hresponse
  dsimp only at hresponse
  split at hresponse
  · exact absurd hresponse (by simp)
  split at hresponse
  · have htunnel := Gateway.forward_tunnel_iff.mp ⟨upstream, ip, hresponse⟩
    rw [hupgrade] at htunnel
    exact Bool.false_ne_true htunnel.1
  · exact absurd hresponse (by simp)

/-- **Every tunnel is checked** unless the request is an upgrade under a path that counts as a
static asset. -/
theorem serveHTTP_tunnel_iff (g : Gateway) (r : Request) :
    (g.serveHTTP r).TunnelChecked ↔ ¬ ∃ app, g.StaticUpgrade r app := by
  rw [Gateway.serveHTTP]
  dsimp only
  have hnone {s : Served} (hresponse : ∀ upstream ip, s.response ≠ .tunnel upstream ip) :
      s.TunnelChecked := fun upstream ip h => absurd h (hresponse upstream ip)
  split
  · rename_i https
    refine iff_of_true (hnone (by simp)) ?_
    rintro ⟨app, h⟩
    rw [h.resolved, h.https] at https
    exact Bool.false_ne_true https
  rename_i https
  split
  · rename_i hpreflight
    refine iff_of_true (hnone (by simp)) ?_
    rintro ⟨app, h⟩
    rw [h.resolved, h.preflight] at hpreflight
    exact Bool.false_ne_true hpreflight
  rename_i hpreflight
  split
  · -- a static asset: no step is made before the tunnel
    rename_i hstatic
    have hsteps : ¬ TunnelChecks [] := fun h => by simpa using h.headers
    have hchecked : Served.TunnelChecked ⟨[], g.forward r (g.getAppByDomain r.host)
        (Gateway.clientIP r (g.getAppByDomain r.host))⟩ ↔
        ¬ ∃ upstream ip, g.forward r (g.getAppByDomain r.host)
          (Gateway.clientIP r (g.getAppByDomain r.host)) = .tunnel upstream ip := by
      rw [not_exists]
      refine forall_congr' fun upstream => ?_
      rw [not_exists]
      exact forall_congr' fun ip => imp_congr_right fun _ => iff_of_false hsteps id
    rw [hchecked, Gateway.forward_tunnel_iff, Gateway.upstream_isSome_iff, not_iff_not]
    constructor
    · rintro ⟨hupgrade, hallowed, app, happ, hup⟩
      rw [happ] at https hpreflight hallowed
      exact ⟨app, happ, Bool.not_eq_true _ ▸ https, Bool.not_eq_true _ ▸ hpreflight, hstatic,
        hupgrade, hallowed, hup⟩
    · rintro ⟨app, h⟩
      exact ⟨h.upgrade, by rw [h.resolved]; exact h.allowed, app, h.resolved, h.upstream⟩
  rename_i hstatic
  have hother : ¬ ∃ app, g.StaticUpgrade r app := by
    rintro ⟨app, h⟩
    exact hstatic h.static
  refine iff_of_true ?_ hother
  -- the branches after the assets open a tunnel for an upgrade only, and check it
  split
  · exact hnone (by simp)
  split
  · exact Gateway.serveWebSocket_checked
  · rename_i hupgrade
    exact hnone (Gateway.serveVisit_no_tunnel (Bool.not_eq_true _ ▸ hupgrade))

end Handler

/-! ### An upgrade of an asset -/

section Evaluated

attribute [local instance] asciiLib

/-- An application that allows web sockets, with one upstream. -/
def socketApp : App where
  id := str "shop"
  underAttackMode := false
  upstreams := [plainUpstream]
  lbMethod := str "round-robin"
  redirectHTTPS := false
  rootRedirect := []
  healthCheck := false
  advanced :=
    { allowWebSocket := true
      modifyHostHeader := false
      hostHeaderValue := []
      passXForwardedHost := true
      passXForwardedProto := true
      trustedProxies := []
      upstreamPath := []
      cors := ⟨false, [], [], [], false, 0⟩ }

/-- A gateway for one application, whose services find nothing. -/
def gatewayOf (app : App) : Gateway where
  getAppByDomain _ := some app
  lookup _ := none
  generateFingerprint _ := []
  pipeline := quietServices
  webSocketLimit := none
  roundRobin := 0
  flood := true
  trustedHistory := true

/-- An upgrade of the path where `socket.io` listens. -/
def socketRequest : Request :=
  { plainRequest with
    path := str "/socket.io/"
    requestURI := str "/socket.io/"
    header := fun key => if key = str "Upgrade" then [str "websocket"] else [] }

/-- An upgrade under `/socket.io/` gets its tunnel with no check at all. -/
theorem serveHTTP_socket : ¬ ∀ (g : Gateway) (r : Request), (g.serveHTTP r).TunnelChecked := by
  intro h
  have hserved : (gatewayOf socketApp).serveHTTP socketRequest =
      ⟨[], .tunnel plainUpstream (str "203.0.113.7")⟩ := by
    decide
  have hchecked := h (gatewayOf socketApp) socketRequest plainUpstream (str "203.0.113.7")
  rw [hserved] at hchecked
  exact absurd (hchecked rfl).headers (by simp)

end Evaluated

end VibesWaf

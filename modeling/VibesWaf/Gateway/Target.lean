import VibesWaf.Gateway.ServeHTTP

/-!
# What the upstream sees of a request target

`proxyToUpstream` sends one of two requests. An upgrade that the application allows goes through a
tunnel, and is a copy of the client's request: its URL is the client's own, and `UpstreamPath` has
no part in it. Any other request has its URL put together again (`proxyRequest`).

`proxyToUpstream_target_iff` says when the target that reaches the upstream is the one that is due:
the client's escaped path behind the prefix, and the client's query. Without a tunnel an encoded
character can get lost, and in a tunnel the prefix does.
-/

namespace VibesWaf

/-- The request that `proxyWebSocket` writes to the upstream: the client's own, with its path and
its query. The other parts of the URL have no part in the target and are left out. -/
def webSocketRequest (r : Request) (application : Option App) (clientIP : GoString) :
    ProxyRequest where
  method := r.method
  url := { URL.zero with path := r.path, rawPath := r.rawPath, rawQuery := r.rawQuery }
  host := (application.map (upstreamHost r)).getD r.host
  setHeaders := [(str "X-Forwarded-For", clientIP), (str "X-Real-IP", clientIP)] ++
    (application.map fun app =>
      (str "Host", upstreamHost r app) :: passedHeaders r app).getD []

/-- The request that reaches the upstream, when one does. -/
def Response.upstreamRequest (r : Request) (application : Option App) :
    Response → Option ProxyRequest
  | .tunnel _ clientIP => some (webSocketRequest r application clientIP)
  | .proxied _ req => some req
  | _ => none

section Target

variable [GoLib]

/-- The upstream gets a request with the client's escaped path behind the prefix, and with the
client's query. -/
def SeesTarget (r : Request) (application : Option App) (upstream : Upstream)
    (clientIP : GoString) : Prop :=
  ∃ req, (proxyToUpstream r application upstream clientIP).upstreamRequest r application =
    some req ∧ req.KeepsTarget r application

/-- The request is an upgrade that the application allows. -/
def opensTunnel (r : Request) (application : Option App) : Bool :=
  isWebSocketUpgrade r && application.any (·.advanced.allowWebSocket)

/-- A tunnel, which leaves the prefix out, keeps a target when there is nothing to put in front of
the path. -/
def TunnelKept (r : Request) (application : Option App) : Prop :=
  ∀ front ∈ pathPrefix application, front = if r.escapedPath = str "/" then str "/" else []

/-- When a target is kept. -/
def TargetKept (r : Request) (application : Option App) : Prop :=
  if opensTunnel r application = true then TunnelKept r application
  else RebuiltKept r application

variable {r : Request} {application : Option App} {upstream : Upstream} {clientIP : GoString}

/-- A tunnel is opened for an upgrade that the application allows. -/
theorem proxyToUpstream_of_tunnel (h : opensTunnel r application = true) :
    proxyToUpstream r application upstream clientIP = .tunnel upstream clientIP :=
  if_pos h

/-- Without a tunnel the request is the one that was put together, when there is one. -/
theorem upstreamRequest_of_rebuilt (h : ¬ opensTunnel r application = true) :
    (proxyToUpstream r application upstream clientIP).upstreamRequest r application =
      proxyRequest r application upstream clientIP := by
  rw [opensTunnel] at h
  rw [proxyToUpstream, if_neg h]
  cases proxyRequest r application upstream clientIP with
  | none => rfl
  | some req => rfl

omit [GoLib] in
/-- **Through a tunnel** the prefix is lost. -/
theorem webSocketRequest_kept_iff :
    (webSocketRequest r application clientIP).KeepsTarget r application ↔
      TunnelKept r application := by
  have hurl : (webSocketRequest r application clientIP).url.escapedPath = r.escapedPath := rfl
  rw [ProxyRequest.KeepsTarget, hurl, TunnelKept]
  cases pathPrefix application with
  | none => simp [underPrefix, webSocketRequest]
  | some front =>
    simp only [underPrefix, webSocketRequest, Option.mem_some_iff, forall_eq', and_true]
    split
    · rename_i hslash
      rw [hslash]
      exact eq_comm
    · exact List.self_eq_append_left

/-- **When the upstream sees the client's target.** -/
theorem proxyToUpstream_target_iff (hr : r.Received) (hup : upstream.IsOrigin) :
    SeesTarget r application upstream clientIP ↔ TargetKept r application := by
  rw [SeesTarget, TargetKept]
  split
  · rename_i htunnel
    rw [proxyToUpstream_of_tunnel htunnel, Response.upstreamRequest]
    simp only [Option.some.injEq, exists_eq_left']
    exact webSocketRequest_kept_iff
  · rename_i hrebuilt
    rw [upstreamRequest_of_rebuilt hrebuilt]
    exact proxyRequest_kept_iff hr hup

end Target

/-! ### Three request targets -/

section Evaluated

attribute [local instance] asciiLib

/-- A request whose path keeps its encoding: `/a%2Fb?x=1`. -/
def encodedSlashRequest : Request where
  method := str "GET"
  path := str "/a/b"
  rawPath := str "/a%2Fb"
  rawQuery := str "x=1"
  requestURI := str "/a%2Fb?x=1"
  host := str "shop.test"
  proto := str "HTTP/1.1"
  header _ := []
  cookies := []
  remoteAddr := str "203.0.113.9:40000"
  tls := true

/-- A request whose path has the default encoding: `/a%3Fb`. -/
def encodedMarkRequest : Request :=
  { encodedSlashRequest with
    path := str "/a?b"
    rawPath := []
    rawQuery := []
    requestURI := str "/a%3Fb" }

/-- An application behind a prefix that allows web sockets. -/
def prefixedSocketApp : App :=
  { socketApp with advanced := { socketApp.advanced with upstreamPath := str "/shop/" } }

theorem plainUpstream_isOrigin : plainUpstream.IsOrigin :=
  ⟨.inl rfl, by decide, by decide⟩

/-- An encoded slash stays what it is, and a path of `socket.io` loses the prefix in its tunnel. -/
theorem proxyToUpstream_target_iff_slash :
    SeesTarget encodedSlashRequest none plainUpstream (str "203.0.113.9") ∧
      ¬ SeesTarget socketRequest (some prefixedSocketApp) plainUpstream (str "203.0.113.7") := by
  have hslash : encodedSlashRequest.Received :=
    ⟨by decide, ⟨{ URL.zero with
      path := str "/a/b"
      rawPath := str "/a%2Fb"
      rawQuery := str "x=1" }, by decide, rfl, rfl, rfl⟩⟩
  have hsocket : socketRequest.Received :=
    ⟨by decide, ⟨{ URL.zero with path := str "/socket.io/" }, by decide, rfl, rfl, rfl⟩⟩
  have hup := plainUpstream_isOrigin
  constructor
  · have hrebuilt : opensTunnel encodedSlashRequest none = false := by decide
    refine (proxyToUpstream_target_iff hslash hup).mpr ?_
    rw [TargetKept, hrebuilt, if_neg Bool.false_ne_true]
    exact ⟨by decide, ⟨[], rfl⟩, .inl rfl, fun _ => .inr rfl, by decide, by decide, by decide,
      by decide⟩
  · have htunnel : opensTunnel socketRequest (some prefixedSocketApp) = true := by decide
    intro hsees
    have hkept := (proxyToUpstream_target_iff hsocket hup).mp hsees
    rw [TargetKept, htunnel, if_pos rfl] at hkept
    exact absurd (hkept (str "/shop") (by decide)) (by decide)

/-- The encoded question mark of `/a%3Fb` separates a query on the way to the upstream. -/
theorem proxyToUpstream_mark : encodedMarkRequest.Received ∧ plainUpstream.IsOrigin ∧
    ¬ SeesTarget encodedMarkRequest none plainUpstream (str "203.0.113.9") := by
  refine ⟨⟨by decide, ⟨{ URL.zero with path := str "/a?b" }, by decide, rfl, rfl,
    rfl⟩⟩, plainUpstream_isOrigin, ?_⟩
  have hbuilt : ((proxyToUpstream encodedMarkRequest none plainUpstream
      (str "203.0.113.9")).upstreamRequest encodedMarkRequest none).map
      (fun req => (req.url.path, req.url.rawQuery)) = some (str "/a", str "b") := by
    decide
  rintro ⟨req, hreq, -, hquery⟩
  rw [hreq] at hbuilt
  have hseen : req.url.rawQuery = str "b" := congrArg Prod.snd (Option.some.inj hbuilt)
  rw [hseen] at hquery
  exact absurd hquery (by decide)

end Evaluated

end VibesWaf

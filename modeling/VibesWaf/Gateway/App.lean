import VibesWaf.Go.Strings

/-!
# Applications

What the request handler reads of an application: its upstreams and how one is picked, the
redirects, and the advanced settings of the proxy. `pickUpstream_eq_none_iff` says when there is no
upstream to pick.
-/

namespace VibesWaf

/-- `Upstream`; its weight is read by nobody. -/
structure Upstream where
  scheme : GoString
  host : GoString
  port : Int
  enabled : Bool
  healthy : Bool
  deriving DecidableEq

/-- `CORSConfig`. -/
structure CORSConfig where
  enabled : Bool
  allowOrigins : List GoString
  allowMethods : List GoString
  allowHeaders : List GoString
  allowCreds : Bool
  maxAge : Int
  deriving DecidableEq

/-- `AdvancedConfig`, as far as requests are concerned. -/
structure AdvancedConfig where
  allowWebSocket : Bool
  modifyHostHeader : Bool
  hostHeaderValue : GoString
  passXForwardedHost : Bool
  passXForwardedProto : Bool
  trustedProxies : List GoString
  upstreamPath : GoString
  cors : CORSConfig
  deriving DecidableEq

/-- `App`, with its `AppConfig`. -/
structure App where
  id : GoString
  underAttackMode : Bool
  upstreams : List Upstream
  lbMethod : GoString
  redirectHTTPS : Bool
  rootRedirect : GoString
  /-- `HealthCheck.Enabled`. -/
  healthCheck : Bool
  advanced : AdvancedConfig
  deriving DecidableEq

/-- The upstreams `PickUpstream` chooses from: the enabled ones that are healthy, if health is
checked, or else all that are enabled. -/
def App.activeUpstreams (a : App) : List Upstream :=
  let active := a.upstreams.filter fun u => u.enabled && !(a.healthCheck && !u.healthy)
  if active = [] then a.upstreams.filter (·.enabled) else active

/-- `PickUpstream`, with the round-robin counter of the application after its increment. -/
def App.pickUpstream (a : App) (counter : UInt64) (clientIP : GoString) : Option Upstream :=
  match a.activeUpstreams with
  | [] => none
  | [u] => some u
  | u :: us =>
    if a.lbMethod = str "least-conn" then some u
    else if a.lbMethod = str "ip-hash" then
      (u :: us)[(fnv32a clientIP).toNat % (u :: us).length]?
    else (u :: us)[counter.toNat % (u :: us).length]?

/-- There is something to choose from unless nothing is enabled. -/
theorem activeUpstreams_eq_nil_iff (a : App) :
    a.activeUpstreams = [] ↔ ∀ u ∈ a.upstreams, u.enabled = false := by
  have hall : a.upstreams.filter (·.enabled) = [] ↔ ∀ u ∈ a.upstreams, u.enabled = false := by
    simp
  unfold App.activeUpstreams
  dsimp only
  split
  · exact hall
  · rename_i hactive
    refine iff_of_false hactive fun hnone => hactive ?_
    refine List.filter_eq_nil_iff.mpr fun u hu => ?_
    rw [hnone u hu]
    simp

/-- **An upstream is picked** unless none is enabled. -/
theorem pickUpstream_eq_none_iff (a : App) (counter : UInt64) (clientIP : GoString) :
    a.pickUpstream counter clientIP = none ↔ ∀ u ∈ a.upstreams, u.enabled = false := by
  rw [← activeUpstreams_eq_nil_iff, App.pickUpstream]
  match a.activeUpstreams with
  | [] => simp
  | [u] => simp
  | u :: u' :: us =>
    have hmod (n : ℕ) : n % (u :: u' :: us).length < (u :: u' :: us).length :=
      Nat.mod_lt n (by simp)
    refine iff_of_false ?_ (by simp)
    dsimp only
    split
    · simp
    split
    · rw [List.getElem?_eq_getElem (hmod _)]
      simp
    · rw [List.getElem?_eq_getElem (hmod _)]
      simp

end VibesWaf

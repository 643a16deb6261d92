import VibesWaf.Gateway.App

/-!
# Applications as they are stored

The record of an application that the service, the repository and the health checker pass around,
with its validation. What an application is for the proxy is an `App`; here are also the settings
that only the service reads.

`StoredApp.validate_eq_ok` says what validation changes of a record it accepts: the defaults of its
health check.
-/

namespace VibesWaf

/-! ### Records -/

/-- `Upstream`, with its weight. -/
structure StoredUpstream extends Upstream where
  weight : Int
  deriving DecidableEq

/-- `HealthCheckConfig`. -/
structure HealthCheckConfig where
  enabled : Bool
  path : GoString
  interval : Int
  threshold : Int
  deriving DecidableEq

/-- `ResponseHeader`. -/
structure ResponseHeader where
  name : GoString
  value : GoString
  deriving DecidableEq

/-- `CacheConfig`. -/
structure CacheConfig where
  enabled : Bool
  ttl : Int
  deriving DecidableEq

/-- `AdvancedConfig`, with the settings that are not the proxy's; `exposeHeaders` belongs to its
`CORSConfig`. -/
structure StoredAdvancedConfig extends AdvancedConfig where
  listenIPv6 : Bool
  allowInsecureSSL : Bool
  connectTimeout : Int
  readTimeout : Int
  sendTimeout : Int
  proxyBuffering : Bool
  addHeaders : List ResponseHeader
  requestSizeLimit : Int
  upstreamTLSSNI : GoString
  exposeHeaders : List GoString
  cache : CacheConfig
  deriving DecidableEq

/-- `AppConfig`. -/
structure AppConfig where
  description : GoString
  upstreams : List StoredUpstream
  lbMethod : GoString
  listenPort : Int
  backendPort : Int
  streamConfig : GoString
  redirectHTTPS : Bool
  rootRedirect : GoString
  healthCheck : HealthCheckConfig
  advanced : StoredAdvancedConfig
  deriving DecidableEq

/-- `App`, as the repository stores it; its times are left out. -/
structure StoredApp where
  id : GoString
  domain : GoString
  config : AppConfig
  underAttackMode : Bool
  deriving DecidableEq

/-! ### Streams -/

/-- `IsStream`: the first upstream decides. -/
def StoredApp.isStream (a : StoredApp) : Bool :=
  match a.config.upstreams with
  | [] => false
  | u :: _ => u.scheme = str "tcp" ∨ u.scheme = str "udp"

/-- `StreamScheme`. -/
def StoredApp.streamScheme (a : StoredApp) : GoString :=
  match a.config.upstreams with
  | [] => []
  | u :: _ => u.scheme

/-- A setting of a port in the environment, with its default. -/
def portSetting (val : GoString) (default : Int) : Int :=
  match parseInt64 val with
  | some n => if 0 < n.toInt then n.toInt else default
  | none => default

/-- The settings of the environment, as they are written there; an empty one is not set. -/
structure PortSettings where
  portMin : GoString
  portMax : GoString
  backendMin : GoString
  backendMax : GoString

/-- `StreamPortMin`. -/
def PortSettings.streamPortMin (env : PortSettings) : Int :=
  portSetting env.portMin 10000

/-- `StreamPortMax`. -/
def PortSettings.streamPortMax (env : PortSettings) : Int :=
  portSetting env.portMax 19999

/-- `StreamBackendMin`. -/
def PortSettings.streamBackendMin (env : PortSettings) : Int :=
  portSetting env.backendMin 40000

/-- `StreamBackendMax`. -/
def PortSettings.streamBackendMax (env : PortSettings) : Int :=
  portSetting env.backendMax 49999

/-! ### Validation -/

/-- The checks of `Validate` on one upstream. -/
def StoredUpstream.validateError (u : StoredUpstream) : Option GoString :=
  if u.host = [] ∨ u.port ≤ 0 then some (str "invalid upstream host or port")
  else if 65535 < u.port then some (str "upstream port must be between 1 and 65535")
  else if u.scheme ∉ [str "http", str "https", str "tcp", str "udp"] then
    some (str "invalid upstream scheme: " ++ u.scheme)
  else if u.weight < 1 ∨ 100 < u.weight then
    some (str "upstream weight must be between 1 and 100")
  else none

/-- A port that is set lies in its range. -/
def portError (name : GoString) (port portMin portMax : Int) : Option GoString :=
  if port ≠ 0 ∧ (port < portMin ∨ portMax < port) then
    some (name ++ str " must be between " ++ itoa portMin ++ str " and " ++ itoa portMax)
  else none

/-- The checks of `Validate` on the ports of a stream. -/
def StoredApp.streamError (env : PortSettings) (a : StoredApp) : Option GoString :=
  if a.isStream then
    (portError (str "listen_port") a.config.listenPort env.streamPortMin env.streamPortMax).or
      (portError (str "backend_port") a.config.backendPort env.streamBackendMin
        env.streamBackendMax)
  else none

/-- The checks of `Validate` on the advanced settings. -/
def StoredAdvancedConfig.validateError (adv : StoredAdvancedConfig) : Option GoString :=
  if adv.connectTimeout < 0 ∨ 300 < adv.connectTimeout then
    some (str "connect_timeout must be between 0 and 300")
  else if adv.readTimeout < 0 ∨ 600 < adv.readTimeout then
    some (str "read_timeout must be between 0 and 600")
  else if adv.sendTimeout < 0 ∨ 600 < adv.sendTimeout then
    some (str "send_timeout must be between 0 and 600")
  else if ∃ h ∈ adv.addHeaders, trimSpace h.name = [] then
    some (str "response header name must not be empty")
  else if adv.requestSizeLimit < 0 then some (str "request_size_limit must be >= 0")
  else if adv.cache.enabled ∧ adv.cache.ttl ≤ 0 then
    some (str "cache ttl must be > 0 when cache is enabled")
  else none

/-- The first check of `Validate` that fails. -/
def StoredApp.validateError (env : PortSettings) (a : StoredApp) : Option GoString :=
  if a.domain = [] then some (str "invalid domain")
  else if hasPrefix a.domain (str "http://") ∨ hasPrefix a.domain (str "https://") then
    some (str "domain must not include scheme (http:// or https://)")
  else if ∃ c ∈ a.domain, c ∈ str " \t\n" then some (str "domain must not contain spaces")
  else if a.config.upstreams = [] then some (str "at least one upstream is required")
  else
    match a.config.upstreams.findSome? StoredUpstream.validateError with
    | some e => some e
    | none =>
      match a.streamError env with
      | some e => some e
      | none =>
        if ∀ u ∈ a.config.upstreams, u.enabled = false then
          some (str "at least one upstream must be enabled")
        else if 1 < a.config.upstreams.length ∧
            a.config.lbMethod ∉ [str "round-robin", str "least-conn", str "ip-hash"] then
          some (str "invalid load balancing method: " ++ a.config.lbMethod)
        else a.config.advanced.validateError

/-- The defaults of a health check that is enabled. -/
def HealthCheckConfig.withDefaults (hc : HealthCheckConfig) : HealthCheckConfig :=
  if hc.enabled then
    { hc with
      path := if hc.path = [] then str "/health" else hc.path
      interval := if hc.interval ≤ 0 then 30 else hc.interval
      threshold := if hc.threshold ≤ 0 then 3 else hc.threshold }
  else hc

/-- `Validate`, which sets the defaults in its receiver. -/
def StoredApp.validate (env : PortSettings) (a : StoredApp) : Except GoString StoredApp :=
  match a.validateError env with
  | some e => .error e
  | none => .ok { a with config := { a.config with healthCheck := a.config.healthCheck.withDefaults } }

@[simp] theorem HealthCheckConfig.withDefaults_enabled (hc : HealthCheckConfig) :
    hc.withDefaults.enabled = hc.enabled := by
  rw [withDefaults]
  split <;> rfl

/-- **Validation** changes nothing but the defaults of the health check. -/
theorem StoredApp.validate_eq_ok {env : PortSettings} {a a' : StoredApp}
    (h : a.validate env = .ok a') :
    a' = { a with
      config := { a.config with healthCheck := a.config.healthCheck.withDefaults } } := by
  rw [StoredApp.validate] at h
  cases herror : a.validateError env with
  | some e => simp [herror] at h
  | none => simpa [herror, eq_comm] using h

/-- A health check that went through the defaults has a path, an interval and a threshold. -/
theorem HealthCheckConfig.withDefaults_valid {hc : HealthCheckConfig} (h : hc.enabled = true) :
    hc.withDefaults.path ≠ [] ∧ 0 < hc.withDefaults.interval ∧ 0 < hc.withDefaults.threshold := by
  rw [withDefaults, if_pos h]
  refine ⟨?_, ?_, ?_⟩
  · dsimp only
    split
    · decide
    · assumption
  · dsimp only
    split <;> omega
  · dsimp only
    split <;> omega

/-- An application with one upstream, which the runs with fixed inputs start from. -/
def sampleApp (id domain scheme : GoString) : StoredApp where
  id := id
  domain := domain
  underAttackMode := false
  config :=
    { description := []
      upstreams := [⟨⟨scheme, str "10.0.0.1", 8080, true, true⟩, 1⟩]
      lbMethod := str "round-robin"
      listenPort := 0
      backendPort := 0
      streamConfig := []
      redirectHTTPS := false
      rootRedirect := []
      healthCheck := ⟨true, str "/health", 30, 1⟩
      advanced :=
        { allowWebSocket := false
          modifyHostHeader := false
          hostHeaderValue := []
          passXForwardedHost := false
          passXForwardedProto := false
          trustedProxies := []
          upstreamPath := []
          cors := ⟨false, [], [], [], false, 3600⟩
          listenIPv6 := false
          allowInsecureSSL := false
          connectTimeout := 5
          readTimeout := 60
          sendTimeout := 60
          proxyBuffering := true
          addHeaders := []
          requestSizeLimit := 0
          upstreamTLSSNI := []
          exposeHeaders := []
          cache := ⟨false, 300⟩ } }

end VibesWaf

import VibesWaf.Gateway.Hosts

/-!
# The routes of the management API

`handleAPIRoutes` picks a family of routes by the beginning of the path, and each family picks a
handler by its own list of tests of the path and the method, of which the first that holds decides.
A family is a table here: `dispatch` goes through it.

Every family but `/api/v1/auth` stands behind the session check. The browser sends the session
cookie, which is `SameSite=Lax`, along with a `GET` request that another site makes it follow, and
`method_of_apiFamily` says that such a request reaches no handler of another method.
-/

namespace VibesWaf

/-- The handlers behind the session check. -/
inductive Endpoint
  -- ruleHandler
  | getFieldMetadata
  | validateExpression
  | getRuleEvents
  | reorderRules
  | createRule
  | listRules
  | getRule
  | updateRule
  | deleteRule
  | reorderForApp
  | listByApp
  | createForApp
  | updateForApp
  | deleteForApp
  -- appHandler
  | createApp
  | listApps
  | getApp
  | toggleUnderAttackMode
  | updateApp
  | deleteApp
  -- ipAccessHandler
  | listIPAccess
  | createIPAccess
  | updateIPAccess
  | deleteIPAccess
  -- logHandler and rateLimitHandler
  | listLogs
  | getRateLimitConfig
  | updateRateLimitConfig
  | getRateLimitStats
  -- botPatternHandler
  | listBotPatterns
  | createBotPattern
  | bulkDeleteBotPatterns
  | bulkCreateBotPatterns
  | bulkUpdateBotPatterns
  | updateBotPattern
  | deleteBotPattern
  -- botIPRangeHandler
  | listBotIPRanges
  | createBotIPRange
  | syncBotIPRanges
  | updateBotIPRange
  | deleteBotIPRange
  -- ipReputationHandler
  | getIPReputationConfig
  | updateIPReputationConfig
  | syncSpamhaus
  | listIPReputation
  | createIPReputation
  | bulkDeleteIPReputation
  | bulkUpdateScore
  | updateIPReputation
  | deleteIPReputation
  -- settingsHandler
  | getBotConfig
  | updateBotConfig
  | getWAFConfig
  | updateWAFConfig
  | getScoringConfig
  | updateScoringConfig
  | getProtocolAnomalyConfig
  | updateProtocolAnomalyConfig
  -- analyticsHandler and fingerprintHandler
  | getTrafficAnalytics
  | getTopThreats
  | getDashboardInsights
  | getChallengeStats
  | getTopBlockedBots
  | getWAFStats
  | getCacheAnalytics
  | getThreatIPs
  | getWAFRuleIntel
  | getThreatSummary
  | getCustomRuleIntel
  | getJA4Fingerprints
  | getJA4Detail
  | exportJA4Fingerprints
  -- certificateHandler
  | listCertificates
  | issueCertificate
  | syncFromFilesystem
  | bulkDeleteCertificates
  | enableWildcard
  | verifyWildcardDNS
  | issueWildcardCert
  | renewCertificate
  | validateCertificate
  | toggleAutoRenew
  | getCertificateLogs
  | disableWildcard
  | getCertificate
  | deleteCertificate
  -- performanceHandler and cacheHandler
  | getPerformanceStats
  | getCacheStats
  deriving DecidableEq

/-- The methods of `net/http` that the router asks for. -/
inductive Method
  | get
  | post
  | put
  | delete
  deriving DecidableEq

/-- The text of a method. -/
def Method.text : Method → GoString
  | .get => str "GET"
  | .post => str "POST"
  | .put => str "PUT"
  | .delete => str "DELETE"

/-- A test of the path and the method, and the handler it leads to. -/
structure Route where
  path : GoString → Bool
  method : Method
  endpoint : Endpoint

/-- The test of a route. -/
def Route.matches (route : Route) (path method : GoString) : Bool :=
  route.path path && method = route.method.text

/-- The first route whose test holds; `none` answers "Method not allowed". -/
def dispatch (routes : List Route) (path method : GoString) : Option Endpoint :=
  (routes.find? fun route => route.matches path method).map Route.endpoint

/-! ### The families -/

/-- `path == p`. -/
def exactly (p : String) (path : GoString) : Bool :=
  path = str p

/-- `strings.HasPrefix(path, p)`. -/
def under (p : String) (path : GoString) : Bool :=
  hasPrefix path (str p)

/-- `strings.HasSuffix(path, s)`. -/
def ending (s : String) (path : GoString) : Bool :=
  hasSuffix path (str s)

/-- `strings.Contains(path, s)`. -/
def holding (s : String) (path : GoString) : Bool :=
  contains path (str s)

/-- `handleRuleRoutes`. -/
def ruleRoutes : List Route :=
  [⟨exactly "/api/v1/rules/fields", .get, .getFieldMetadata⟩,
    ⟨exactly "/api/v1/rules/validate", .post, .validateExpression⟩,
    ⟨exactly "/api/v1/rules/events", .get, .getRuleEvents⟩,
    ⟨exactly "/api/v1/rules/reorder", .post, .reorderRules⟩,
    ⟨exactly "/api/v1/rules", .post, .createRule⟩,
    ⟨exactly "/api/v1/rules", .get, .listRules⟩,
    ⟨under "/api/v1/rules/", .get, .getRule⟩,
    ⟨under "/api/v1/rules/", .put, .updateRule⟩,
    ⟨under "/api/v1/rules/", .delete, .deleteRule⟩]

/-- `handleAppIPAccessRoutes`. -/
def appIPAccessRoutes : List Route :=
  [⟨ending "/ip-access-rules", .get, .listIPAccess⟩,
    ⟨ending "/ip-access-rules", .post, .createIPAccess⟩,
    ⟨holding "/ip-access-rules/", .put, .updateIPAccess⟩,
    ⟨holding "/ip-access-rules/", .delete, .deleteIPAccess⟩]

/-- `handleAppRuleRoutes`. -/
def appRuleRoutes : List Route :=
  [⟨ending "/rules/reorder", .post, .reorderForApp⟩,
    ⟨ending "/rules", .get, .listByApp⟩,
    ⟨ending "/rules", .post, .createForApp⟩,
    ⟨holding "/rules/", .put, .updateForApp⟩,
    ⟨holding "/rules/", .delete, .deleteForApp⟩]

/-- The path is that of an application, with nothing behind its name. -/
def namesApp (path : GoString) : Bool :=
  under "/api/v1/apps/" path && !contains (path.drop (str "/api/v1/apps/").length) (str "/")

/-- The routes of `handleAppRoutes` before it looks for a family of an application. -/
def appRoutesBefore : List Route :=
  [⟨exactly "/api/v1/apps", .post, .createApp⟩,
    ⟨exactly "/api/v1/apps", .get, .listApps⟩,
    ⟨namesApp, .get, .getApp⟩,
    ⟨ending "/under-attack", .put, .toggleUnderAttackMode⟩]

/-- The routes of `handleAppRoutes` after that. -/
def appRoutesAfter : List Route :=
  [⟨under "/api/v1/apps/", .get, .getApp⟩,
    ⟨under "/api/v1/apps/", .put, .updateApp⟩,
    ⟨under "/api/v1/apps/", .delete, .deleteApp⟩]

/-- `handleAppRoutes`. -/
def handleAppRoutes (path method : GoString) : Option Endpoint :=
  match dispatch appRoutesBefore path method with
  | some endpoint => some endpoint
  | none =>
    if holding "/ip-access-rules" path then dispatch appIPAccessRoutes path method
    else if holding "/rules" path then dispatch appRuleRoutes path method
    else dispatch appRoutesAfter path method

/-- `handleLogRoutes`. -/
def logRoutes : List Route :=
  [⟨exactly "/api/v1/logs", .get, .listLogs⟩]

/-- `handleRateLimitRoutes`. -/
def rateLimitRoutes : List Route :=
  [⟨exactly "/api/v1/rate-limit", .get, .getRateLimitConfig⟩,
    ⟨exactly "/api/v1/rate-limit", .put, .updateRateLimitConfig⟩,
    ⟨exactly "/api/v1/rate-limit/stats", .get, .getRateLimitStats⟩]

/-- `handleBotPatternRoutes`. -/
def botPatternRoutes : List Route :=
  [⟨exactly "/api/v1/bot-patterns", .get, .listBotPatterns⟩,
    ⟨exactly "/api/v1/bot-patterns", .post, .createBotPattern⟩,
    ⟨exactly "/api/v1/bot-patterns/bulk-delete", .post, .bulkDeleteBotPatterns⟩,
    ⟨exactly "/api/v1/bot-patterns/bulk-create", .post, .bulkCreateBotPatterns⟩,
    ⟨exactly "/api/v1/bot-patterns/bulk-update", .put, .bulkUpdateBotPatterns⟩,
    ⟨under "/api/v1/bot-patterns/", .put, .updateBotPattern⟩,
    ⟨under "/api/v1/bot-patterns/", .delete, .deleteBotPattern⟩]

/-- `handleBotIPRangeRoutes`. -/
def botIPRangeRoutes : List Route :=
  [⟨exactly "/api/v1/bot-ip-ranges", .get, .listBotIPRanges⟩,
    ⟨exactly "/api/v1/bot-ip-ranges", .post, .createBotIPRange⟩,
    ⟨ending "/sync", .post, .syncBotIPRanges⟩,
    ⟨under "/api/v1/bot-ip-ranges/", .put, .updateBotIPRange⟩,
    ⟨under "/api/v1/bot-ip-ranges/", .delete, .deleteBotIPRange⟩]

/-- `handleIPReputationRoutes`. -/
def ipReputationRoutes : List Route :=
  [⟨exactly "/api/v1/ip-reputation/config", .get, .getIPReputationConfig⟩,
    ⟨exactly "/api/v1/ip-reputation/config", .put, .updateIPReputationConfig⟩,
    ⟨exactly "/api/v1/ip-reputation/sync-spamhaus", .post, .syncSpamhaus⟩,
    ⟨exactly "/api/v1/ip-reputation", .get, .listIPReputation⟩,
    ⟨exactly "/api/v1/ip-reputation", .post, .createIPReputation⟩,
    ⟨exactly "/api/v1/ip-reputation/bulk-delete", .post, .bulkDeleteIPReputation⟩,
    ⟨exactly "/api/v1/ip-reputation/bulk-update-score", .post, .bulkUpdateScore⟩,
    ⟨under "/api/v1/ip-reputation/", .put, .updateIPReputation⟩,
    ⟨under "/api/v1/ip-reputation/", .delete, .deleteIPReputation⟩]

/-- `handleSettingsRoutes`. -/
def settingsRoutes : List Route :=
  [⟨exactly "/api/v1/settings/bot", .get, .getBotConfig⟩,
    ⟨exactly "/api/v1/settings/bot", .put, .updateBotConfig⟩,
    ⟨exactly "/api/v1/settings/waf", .get, .getWAFConfig⟩,
    ⟨exactly "/api/v1/settings/waf", .put, .updateWAFConfig⟩,
    ⟨exactly "/api/v1/settings/scoring", .get, .getScoringConfig⟩,
    ⟨exactly "/api/v1/settings/scoring", .put, .updateScoringConfig⟩,
    ⟨exactly "/api/v1/settings/protocol-anomaly", .get, .getProtocolAnomalyConfig⟩,
    ⟨exactly "/api/v1/settings/protocol-anomaly", .put, .updateProtocolAnomalyConfig⟩]

/-- The path names a fingerprint, and not the export. -/
def namesFingerprint (path : GoString) : Bool :=
  let ja4 := path.drop (str "/api/v1/analytics/fingerprints/").length
  under "/api/v1/analytics/fingerprints/" path && ja4 ≠ [] && ja4 ≠ str "export"

/-- `handleAnalyticsRoutes`. -/
def analyticsRoutes : List Route :=
  [⟨exactly "/api/v1/analytics/traffic", .get, .getTrafficAnalytics⟩,
    ⟨exactly "/api/v1/analytics/threats", .get, .getTopThreats⟩,
    ⟨exactly "/api/v1/analytics/insights", .get, .getDashboardInsights⟩,
    ⟨exactly "/api/v1/analytics/challenge-stats", .get, .getChallengeStats⟩,
    ⟨exactly "/api/v1/analytics/top-blocked-bots", .get, .getTopBlockedBots⟩,
    ⟨exactly "/api/v1/analytics/waf-stats", .get, .getWAFStats⟩,
    ⟨exactly "/api/v1/analytics/cache", .get, .getCacheAnalytics⟩,
    ⟨exactly "/api/v1/analytics/threat-intel/ips", .get, .getThreatIPs⟩,
    ⟨exactly "/api/v1/analytics/threat-intel/waf-rules", .get, .getWAFRuleIntel⟩,
    ⟨exactly "/api/v1/analytics/threat-intel/summary", .get, .getThreatSummary⟩,
    ⟨exactly "/api/v1/analytics/threat-intel/custom-rules", .get, .getCustomRuleIntel⟩,
    ⟨exactly "/api/v1/analytics/fingerprints", .get, .getJA4Fingerprints⟩,
    ⟨namesFingerprint, .get, .getJA4Detail⟩,
    ⟨exactly "/api/v1/analytics/fingerprints/export", .get, .exportJA4Fingerprints⟩]

/-- `handleCertificateRoutes`. -/
def certificateRoutes : List Route :=
  [⟨exactly "/api/v1/certificates", .get, .listCertificates⟩,
    ⟨exactly "/api/v1/certificates", .post, .issueCertificate⟩,
    ⟨exactly "/api/v1/certificates/sync", .post, .syncFromFilesystem⟩,
    ⟨exactly "/api/v1/certificates/bulk-delete", .post, .bulkDeleteCertificates⟩,
    ⟨exactly "/api/v1/certificates/wildcard/enable", .post, .enableWildcard⟩,
    ⟨exactly "/api/v1/certificates/wildcard/verify", .post, .verifyWildcardDNS⟩,
    ⟨exactly "/api/v1/certificates/wildcard/issue", .post, .issueWildcardCert⟩,
    ⟨ending "/renew", .post, .renewCertificate⟩,
    ⟨ending "/validate", .post, .validateCertificate⟩,
    ⟨ending "/auto-renew", .put, .toggleAutoRenew⟩,
    ⟨ending "/logs", .get, .getCertificateLogs⟩,
    ⟨ending "/wildcard/disable", .post, .disableWildcard⟩,
    ⟨under "/api/v1/certificates/", .get, .getCertificate⟩,
    ⟨under "/api/v1/certificates/", .delete, .deleteCertificate⟩]

/-- What `handleAPIRoutes` does with a path: the routes of the session, a family behind the session
check, or nothing. -/
inductive ApiFamily
  | auth
  | behindSession (handler : Option Endpoint)
  | notFound
  deriving DecidableEq

/-- `handleAPIRoutes`. -/
def apiFamily (path method : GoString) : ApiFamily :=
  if under "/api/v1/auth" path then .auth
  else if under "/api/v1/rules" path then .behindSession (dispatch ruleRoutes path method)
  else if under "/api/v1/apps" path then .behindSession (handleAppRoutes path method)
  else if under "/api/v1/logs" path then .behindSession (dispatch logRoutes path method)
  else if under "/api/v1/rate-limit" path then .behindSession (dispatch rateLimitRoutes path method)
  else if under "/api/v1/bot-ip-ranges" path then
    .behindSession (dispatch botIPRangeRoutes path method)
  else if under "/api/v1/bot-patterns" path then
    .behindSession (dispatch botPatternRoutes path method)
  else if under "/api/v1/ip-reputation" path then
    .behindSession (dispatch ipReputationRoutes path method)
  else if under "/api/v1/settings" path then .behindSession (dispatch settingsRoutes path method)
  else if under "/api/v1/analytics" path then .behindSession (dispatch analyticsRoutes path method)
  else if under "/api/v1/certificates" path then
    .behindSession (dispatch certificateRoutes path method)
  else if exactly "/api/v1/performance/stats" path && method = str "GET" then
    .behindSession (some .getPerformanceStats)
  else if exactly "/api/v1/cache/stats" path && method = str "GET" then
    .behindSession (some .getCacheStats)
  else .notFound

/-! ### One method for each handler -/

/-- The method of the requests that a handler answers. -/
def Endpoint.method : Endpoint → Method
  | .getFieldMetadata | .getRuleEvents | .listRules | .getRule | .listByApp | .listApps | .getApp
  | .listIPAccess | .listLogs | .getRateLimitConfig | .getRateLimitStats | .listBotPatterns
  | .listBotIPRanges | .getIPReputationConfig | .listIPReputation | .getBotConfig | .getWAFConfig
  | .getScoringConfig | .getProtocolAnomalyConfig | .getTrafficAnalytics | .getTopThreats
  | .getDashboardInsights | .getChallengeStats | .getTopBlockedBots | .getWAFStats
  | .getCacheAnalytics | .getThreatIPs | .getWAFRuleIntel | .getThreatSummary | .getCustomRuleIntel
  | .getJA4Fingerprints | .getJA4Detail | .exportJA4Fingerprints | .listCertificates
  | .getCertificateLogs | .getCertificate | .getPerformanceStats | .getCacheStats => .get
  | .updateRule | .updateForApp | .toggleUnderAttackMode | .updateApp | .updateIPAccess
  | .updateRateLimitConfig | .bulkUpdateBotPatterns | .updateBotPattern | .updateBotIPRange
  | .updateIPReputationConfig | .updateIPReputation | .updateBotConfig | .updateWAFConfig
  | .updateScoringConfig | .updateProtocolAnomalyConfig | .toggleAutoRenew => .put
  | .deleteRule | .deleteForApp | .deleteApp | .deleteIPAccess | .deleteBotPattern
  | .deleteBotIPRange | .deleteIPReputation | .deleteCertificate => .delete
  | .validateExpression | .reorderRules | .createRule | .reorderForApp | .createForApp | .createApp
  | .createIPAccess | .createBotPattern | .bulkDeleteBotPatterns | .bulkCreateBotPatterns
  | .createBotIPRange | .syncBotIPRanges | .syncSpamhaus | .createIPReputation
  | .bulkDeleteIPReputation | .bulkUpdateScore | .issueCertificate | .syncFromFilesystem
  | .bulkDeleteCertificates | .enableWildcard | .verifyWildcardDNS | .issueWildcardCert
  | .renewCertificate | .validateCertificate | .disableWildcard => .post

/-- The routes of a table are for the methods of their handlers. -/
def OneMethod (routes : List Route) : Prop :=
  ∀ route ∈ routes, route.method = route.endpoint.method

instance (routes : List Route) : Decidable (OneMethod routes) :=
  inferInstanceAs (Decidable (∀ _ ∈ routes, _))

variable {path method : GoString} {handler : Endpoint}

theorem method_of_dispatch {routes : List Route} (h : OneMethod routes)
    (hdispatch : dispatch routes path method = some handler) : method = handler.method.text := by
  obtain ⟨route, hroute, rfl⟩ := Option.map_eq_some_iff.mp hdispatch
  have hmatches := List.find?_some hroute
  rw [Route.matches, Bool.and_eq_true, decide_eq_true_eq] at hmatches
  rw [hmatches.2, h route (List.mem_of_find?_eq_some hroute)]

theorem method_of_handleAppRoutes (h : handleAppRoutes path method = some handler) :
    method = handler.method.text := by
  rw [handleAppRoutes] at h
  split at h
  next found hfound =>
    obtain rfl := Option.some.inj h
    exact method_of_dispatch (by decide) hfound
  split at h
  next => exact method_of_dispatch (by decide) h
  split at h
  next => exact method_of_dispatch (by decide) h
  next => exact method_of_dispatch (by decide) h

/-- **One method for each handler.** Whatever the path, a handler behind the session check is
reached with its own method only. -/
theorem method_of_apiFamily (h : apiFamily path method = .behindSession (some handler)) :
    method = handler.method.text := by
  have hauth : ∀ {rest : ApiFamily} {test : Bool},
      (if test = true then .auth else rest) = ApiFamily.behindSession (some handler) →
      rest = .behindSession (some handler) := by
    intro rest test hif
    split at hif
    · cases hif
    · exact hif
  have hfamily : ∀ {found : Option Endpoint} {rest : ApiFamily} {test : Bool},
      (if test = true then .behindSession found else rest) =
        ApiFamily.behindSession (some handler) →
      found = some handler ∨ rest = .behindSession (some handler) := by
    intro found rest test hif
    split at hif
    · exact .inl (ApiFamily.behindSession.inj hif)
    · exact .inr hif
  have hget : ∀ {rest : ApiFamily} {test : Bool} {found : Endpoint}, found.method = .get →
      (if (test && method = str "GET") = true then .behindSession (some found) else rest) =
        ApiFamily.behindSession (some handler) →
      method = handler.method.text ∨ rest = .behindSession (some handler) := by
    intro rest test found hfound hif
    split at hif
    next htest =>
      obtain rfl := Option.some.inj (ApiFamily.behindSession.inj hif)
      rw [Bool.and_eq_true, decide_eq_true_eq] at htest
      exact .inl (by rw [hfound, htest.2]; rfl)
    next => exact .inr hif
  rw [apiFamily] at h
  rcases hfamily (hauth h) with h | h
  · exact method_of_dispatch (by decide) h
  rcases hfamily h with h | h
  · exact method_of_handleAppRoutes h
  rcases hfamily h with h | h
  · exact method_of_dispatch (by decide) h
  rcases hfamily h with h | h
  · exact method_of_dispatch (by decide) h
  rcases hfamily h with h | h
  · exact method_of_dispatch (by decide) h
  rcases hfamily h with h | h
  · exact method_of_dispatch (by decide) h
  rcases hfamily h with h | h
  · exact method_of_dispatch (by decide) h
  rcases hfamily h with h | h
  · exact method_of_dispatch (by decide) h
  rcases hfamily h with h | h
  · exact method_of_dispatch (by decide) h
  rcases hfamily h with h | h
  · exact method_of_dispatch (by decide) h
  rcases hget rfl h with h | h
  · exact h
  rcases hget rfl h with h | h
  · exact h
  · cases h

end VibesWaf

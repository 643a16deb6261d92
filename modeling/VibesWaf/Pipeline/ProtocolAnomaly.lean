import Mathlib.Algebra.Order.BigOperators.Group.List
import VibesWaf.Challenge.Cookie
import VibesWaf.Pipeline.Scoring
import VibesWaf.Pipeline.StableSession

/-!
# Protocol anomalies

The handler runs a list of checks over a request: of its headers, of its cookies, and of the TLS
fingerprint that the proxy in front has put into a header. A check that fails scores what its rule
is worth in the configuration, and nothing if that is not positive.

`protocolAnomaly_accounting` says what the report of a request adds up to. One check looks at the
clearance cookie, in a format of its own; `issuedCookie_unpunished` says that it agrees with the
issuer: no cookie of the site is held against a visitor, whether it is still accepted or not.
-/

namespace VibesWaf

/-! ### The rules -/

/-- `ProtocolAnomalyConfig.Rules`. -/
abbrev AnomalyRules := GoString → Option ℤ

/-- The rules of `DefaultProtocolAnomalyConfig`. -/
def defaultAnomalyScores : List (GoString × ℤ) :=
  [(str "http2_connection_header", 8), (str "content_type_no_body", 5),
    (str "accept_path_mismatch", 5), (str "sec_fetch_dest_mismatch", 6),
    (str "upgrade_non_navigate", 4), (str "te_cl_conflict", 10), (str "multiple_host_headers", 10),
    (str "malformed_challenge_cookie", 8), (str "future_cookie_timestamp", 8),
    (str "excessive_cookies_no_referer", 5), (str "browser_ua_http10", 15),
    (str "ja4_old_tls_browser_ua", 15), (str "ja4_old_tls", 15), (str "browser_ua_ja4_empty", 4),
    (str "bot_ua_browser_ja4", 15), (str "browser_ua_simple_ja4", 15)]

/-- `DefaultProtocolAnomalyConfig`. -/
def defaultAnomalyRules : AnomalyRules :=
  fun name => defaultAnomalyScores.lookup name

/-- `WithDefaults`: a rule that is stored keeps its score, also one of zero. -/
def withDefaults : Option AnomalyRules → AnomalyRules
  | none => defaultAnomalyRules
  | some rules => fun name => (rules name).or (defaultAnomalyRules name)

/-- `loadState`, from what the query of the configuration answers. -/
def loadAnomalyRules : Except Unit (Option (Option AnomalyRules)) → AnomalyRules
  | .error () => defaultAnomalyRules
  | .ok none => defaultAnomalyRules
  | .ok (some stored) => withDefaults stored

/-- `ruleScore`. -/
def ruleScore (rules : AnomalyRules) (name : GoString) : ℤ :=
  (rules name).getD 0

/-! ### The checks -/

/-- A check of a request: the rule that scores it, what is told of it, and whether it fails. -/
structure AnomalyCheck where
  rule : GoString
  reason : GoString
  detail : GoString
  fails : Bool

section Checks

variable [GoLib]

/-- `isAPIPath`. -/
def isAPIPath (path : GoString) : Bool :=
  [str "/api/", str "/graphql", str "/rest/", str "/v1/", str "/v2/"].any (hasPrefix path) ||
    [str ".json", str ".xml", str ".yaml", str ".proto"].any (hasSuffix path)

/-- `isAssetOrAPIPath`. -/
def isAssetOrAPIPath (path : GoString) : Bool :=
  isAPIPath path ||
    [str ".js", str ".css", str ".png", str ".jpg", str ".jpeg", str ".gif", str ".svg",
      str ".woff", str ".woff2", str ".ttf", str ".ico", str ".webp", str ".avif"].any
        (hasSuffix path)

/-- The checks of `checkHeaderInconsistency`. -/
def headerChecks (c : Connection) (ctx : Context) : List AnomalyCheck :=
  let r := ctx.request
  let method := toUpper r.method
  let accept := r.get (str "Accept")
  let path := ctx.normalized.path
  let secFetchMode := r.get (str "Sec-Fetch-Mode")
  [⟨str "http2_connection_header", str "HTTP/2 Connection header",
      str "HTTP/2 with Connection header",
      decide (2 ≤ c.protoMajor) && r.get (str "Connection") ≠ []⟩,
    ⟨str "content_type_no_body", str "Content-Type on bodyless request",
      str "Content-Type on GET/HEAD",
      (method = str "GET" || method = str "HEAD") && r.get (str "Content-Type") ≠ []⟩,
    ⟨str "accept_path_mismatch", str "Accept/path mismatch", str "text/html on API path",
      accept ≠ [] && contains accept (str "text/html") && !contains accept (str "*/*") &&
        isAPIPath path⟩,
    ⟨str "sec_fetch_dest_mismatch", str "Sec-Fetch-Dest mismatch",
      str "Sec-Fetch-Dest: document on asset",
      r.get (str "Sec-Fetch-Dest") = str "document" && isAssetOrAPIPath path⟩,
    ⟨str "upgrade_non_navigate", str "Upgrade-Insecure-Requests non-navigate",
      str "UIR on non-navigate request",
      r.get (str "Upgrade-Insecure-Requests") = str "1" && secFetchMode ≠ [] &&
        secFetchMode ≠ str "navigate"⟩,
    ⟨str "te_cl_conflict", str "TE/CL conflict", str "Both TE and CL headers present",
      r.get (str "Transfer-Encoding") ≠ [] && r.get (str "Content-Length") ≠ []⟩,
    ⟨str "multiple_host_headers", str "Multiple Host headers", str "Multiple Host headers",
      decide (1 < (r.header (str "Host")).length)⟩]

/-- `isValidChallengeFormat`. -/
def isValidChallengeFormat (value : GoString) : Bool :=
  match split value 0x2E with
  | [signature, timestamp] | [signature, timestamp, _] =>
    (signature.length = 32 || signature.length = 64) && (parseInt64 timestamp).isSome
  | _ => false

/-- `isCookieTimestampFuture`. -/
def isCookieTimestampFuture (now : Int64) (value : GoString) : Bool :=
  match split value 0x2E with
  | [_, timestamp] | [_, timestamp, _] => (parseInt64 timestamp).any fun t => now + 60 < t
  | _ => false

/-- The check of the clearance cookie. -/
def challengeCookieChecks (now : Int64) (r : Request) : List AnomalyCheck :=
  match r.cookie (str "ok") with
  | none | some [] => []
  | some value =>
    if !isValidChallengeFormat value then
      [⟨str "malformed_challenge_cookie", str "Malformed challenge cookie",
        str "Invalid cookie format", true⟩]
    else
      [⟨str "future_cookie_timestamp", str "Future cookie timestamp",
        str "Cookie timestamp in future", isCookieTimestampFuture now value⟩]

/-- The checks of `checkCookieAnomaly`. -/
def cookieChecks (now : Int64) (ctx : Context) : List AnomalyCheck :=
  let r := ctx.request
  let path := ctx.normalized.path
  challengeCookieChecks now r ++
    [⟨str "excessive_cookies_no_referer", str "Excessive cookies without referer",
      str "Many cookies without referer",
      decide (10 < (r.get (str "Cookie")).count 0x3D) && (path = str "/" || path = []) &&
        r.get (str "Referer") = []⟩]

/-- `ja4TLSSegment`. -/
def ja4TLSSegment (ja4 : GoString) : GoString :=
  if ja4.length < 3 then [] else (ja4.drop 1).take 2

/-- The number of ciphers that a JA4 of a TLS connection tells. -/
def ja4CipherCount (ja4 : GoString) : Option Int64 :=
  if 7 ≤ ja4.length ∧ ja4[3]? = some 0x64 then parseInt64 ((ja4.drop 4).take 2) else none

/-- The checks of `checkJA4Anomaly`. -/
def ja4Checks (c : Connection) (ctx : Context) : List AnomalyCheck :=
  let r := ctx.request
  let ja4 := r.get (str "X-JA4")
  let ua := toLower ctx.normalized.ua
  let isBrowserUA := contains ua (str "mozilla") &&
    (contains ua (str "chrome") || contains ua (str "safari") || contains ua (str "firefox"))
  let isBotUA := [str "bot", str "crawler", str "spider", str "curl", str "python",
    str "go-http"].any (contains ua)
  let tlsVer := ja4TLSSegment ja4
  [⟨str "browser_ua_http10", str "Browser UA with HTTP/1.0", str "Browser UA with HTTP/1.0",
      isBrowserUA && c.protoMajor = 1 && c.protoMinor = 0⟩,
    let old := tlsVer = str "10" || tlsVer = str "11"
    if isBrowserUA then
      ⟨str "ja4_old_tls_browser_ua", str "Old TLS with browser UA", str "Old TLS with browser UA",
        old⟩
    else ⟨str "ja4_old_tls", str "Old TLS version", str "Old TLS version", old⟩,
    ⟨str "browser_ua_ja4_empty", str "Missing JA4 on TLS browser request",
      str "TLS request without JA4", isBrowserUA && ja4 = [] && r.tls⟩,
    ⟨str "bot_ua_browser_ja4", str "Bot UA with browser-like JA4",
      str "Bot UA with browser-like TLS", isBotUA && (ja4CipherCount ja4).any (12 ≤ ·)⟩,
    ⟨str "browser_ua_simple_ja4", str "Browser UA with simple JA4",
      str "Browser UA with minimal cipher count",
      isBrowserUA && (ja4CipherCount ja4).any (· ≤ 4)⟩]

/-- All checks, in their order. -/
def anomalyChecks (now : Int64) (c : Connection) (ctx : Context) : List AnomalyCheck :=
  headerChecks c ctx ++ cookieChecks now ctx ++ ja4Checks c ctx

end Checks

/-! ### The handler -/

/-- `ProtocolViolation`. -/
structure ProtocolViolation where
  type : GoString
  score : ℤ
  detail : GoString

/-- What the handler traces of a request. -/
structure AnomalyReport where
  score : ℤ
  reasons : List GoString
  violations : List ProtocolViolation

/-- A check: its score goes to the request and into the report. -/
def runCheck (rules : AnomalyRules) (s : Context × AnomalyReport) (check : AnomalyCheck) :
    Context × AnomalyReport :=
  if check.fails then
    let score := ruleScore rules check.rule
    if 0 < score then
      (s.1.addScore .protocolAnomaly score,
        { score := s.2.score + score
          reasons := s.2.reasons ++ [check.reason]
          violations := s.2.violations ++ [⟨check.rule, score, check.detail⟩] })
    else s
  else s

/-- `ProtocolAnomalyHandler.Handle`, with what it traces unless it is skipped. -/
def handleProtocolAnomaly [GoLib] (rules : AnomalyRules) (now : Int64) (c : Connection)
    (ctx : Context) : Context × Option AnomalyReport :=
  if ctx.hardDecision || ctx.challengePassed || ctx.shouldSkipModule (str "protocol_anomaly") ||
      ctx.isPhaseSkipped (str "protocol_anomaly") then (ctx, none)
  else
    let (ctx', report) := (anomalyChecks now c ctx).foldl (runCheck rules) (ctx, ⟨0, [], []⟩)
    (ctx', some report)

/-- The violation of a check. -/
def AnomalyCheck.violation? (rules : AnomalyRules) (check : AnomalyCheck) :
    Option ProtocolViolation :=
  if check.fails && 0 < ruleScore rules check.rule then
    some ⟨check.rule, ruleScore rules check.rule, check.detail⟩
  else none

/-- **The checks one after the other** score their violations. -/
theorem foldl_runCheck (rules : AnomalyRules) (checks : List AnomalyCheck)
    (s : Context × AnomalyReport) :
    let violations := checks.filterMap (AnomalyCheck.violation? rules)
    let s' := checks.foldl (runCheck rules) s
    s'.1 = (violations.map (·.score)).foldl (fun ctx score => ctx.addScore .protocolAnomaly score)
        s.1 ∧
      s'.2.score = s.2.score + (violations.map (·.score)).sum ∧
      s'.2.violations = s.2.violations ++ violations := by
  induction checks generalizing s with
  | nil => simp
  | cons check checks ih =>
    obtain ⟨hctx, hscore, hviolations⟩ := ih (runCheck rules s check)
    dsimp only at hctx hscore hviolations ⊢
    rw [List.foldl_cons, hctx, hscore, hviolations, List.filterMap_cons, AnomalyCheck.violation?,
      runCheck]
    cases check.fails with
    | false => exact ⟨rfl, rfl, rfl⟩
    | true =>
      rw [if_pos rfl, Bool.true_and]
      by_cases hpos : 0 < ruleScore rules check.rule
      · simp [hpos, add_assoc]
      · simp [hpos]

/-- Scores one after the other are their sum. -/
theorem foldl_addScore_eq (scores : List ℤ) (ctx : Context) :
    scores.foldl (fun ctx score => ctx.addScore .protocolAnomaly score) ctx =
      ctx.addScore .protocolAnomaly scores.sum := by
  induction scores generalizing ctx with
  | nil => rw [List.foldl_nil, List.sum_nil, Context.addScore, RiskScore.add_zero]
  | cons score scores ih =>
    rw [List.foldl_cons, ih, List.sum_cons, Context.addScore, Context.addScore, Context.addScore]
    dsimp only
    rw [RiskScore.add_add]

section Handler

variable [GoLib] {rules : AnomalyRules} {now : Int64} {c : Connection} {ctx : Context}

/-- The violations of a request. -/
def violationsOf (rules : AnomalyRules) (now : Int64) (c : Connection) (ctx : Context) :
    List ProtocolViolation :=
  (anomalyChecks now c ctx).filterMap (AnomalyCheck.violation? rules)

/-- The handler of phase 2 is this one, with the violations seen as an answer of the services. -/
theorem handleProtocolAnomaly_fst (rules : AnomalyRules) (now : Int64) (c : Connection)
    (svc : ScoringServices) (ctx : Context) :
    (handleProtocolAnomaly rules now c ctx).1 =
      protocolAnomalyHandler
        { svc with violations := (violationsOf rules now c ctx).map (·.score) } ctx := by
  rw [handleProtocolAnomaly, protocolAnomalyHandler]
  split
  · rfl
  · exact (foldl_runCheck rules (anomalyChecks now c ctx) (ctx, ⟨0, [], []⟩)).1

/-- A report is of the violations. -/
theorem report_eq {report : AnomalyReport}
    (h : (handleProtocolAnomaly rules now c ctx).2 = some report) :
    report.violations = violationsOf rules now c ctx ∧
      report.score = ((violationsOf rules now c ctx).map (·.score)).sum := by
  rw [handleProtocolAnomaly] at h
  split at h
  · cases h
  · obtain ⟨-, hscore, hviolations⟩ :=
      foldl_runCheck rules (anomalyChecks now c ctx) (ctx, ⟨0, [], []⟩)
    obtain rfl := Option.some.inj h
    exact ⟨hviolations.trans (List.nil_append _), hscore.trans (zero_add _)⟩

/-! ### What a report adds up to -/

theorem map_rule_headerChecks (c : Connection) (ctx : Context) :
    (headerChecks c ctx).map (·.rule) = (defaultAnomalyScores.take 7).map Prod.fst :=
  rfl

theorem map_rule_ja4Checks (c : Connection) (ctx : Context) :
    ((ja4Checks c ctx).map (·.rule)).Sublist ((defaultAnomalyScores.drop 10).map Prod.fst) := by
  rw [ja4Checks]
  refine List.Sublist.cons_cons _ ?_
  dsimp only [List.map_cons]
  split
  · exact .cons_cons _ (.cons _ (List.Sublist.refl _))
  · exact .cons _ (List.Sublist.refl _)

/-- The checks have different rules, which are those of the default configuration. -/
theorem rules_sublist (now : Int64) (c : Connection) (ctx : Context) :
    ((anomalyChecks now c ctx).map (·.rule)).Sublist (defaultAnomalyScores.map Prod.fst) := by
  have hcookie : ((cookieChecks now ctx).map (·.rule)).Sublist
      (((defaultAnomalyScores.drop 7).take 3).map Prod.fst) := by
    rw [cookieChecks, List.map_append]
    suffices hchallenge : ((challengeCookieChecks now ctx.request).map (·.rule)).Sublist
        [str "malformed_challenge_cookie", str "future_cookie_timestamp"] from
      hchallenge.append (List.Sublist.refl _)
    rw [challengeCookieChecks]
    split
    · exact List.nil_sublist _
    · exact List.nil_sublist _
    · split
      · exact List.sublist_append_left [_] [_]
      · exact List.sublist_append_right [_] [_]
  rw [anomalyChecks, List.map_append, List.map_append, map_rule_headerChecks]
  exact ((List.Sublist.refl _).append hcookie).append (map_rule_ja4Checks c ctx)

/-- The check of the clearance cookie is the only one with its two rules. -/
theorem mem_challengeCookieChecks {check : AnomalyCheck} (h : check ∈ anomalyChecks now c ctx)
    (hrule : check.rule = str "malformed_challenge_cookie" ∨
      check.rule = str "future_cookie_timestamp") :
    check ∈ challengeCookieChecks now ctx.request := by
  have hother : check.rule ∉
      (defaultAnomalyScores.take 7 ++ defaultAnomalyScores.drop 9).map Prod.fst := by
    rcases hrule with hrule | hrule <;> rw [hrule] <;> decide
  rw [List.map_append, List.mem_append, not_or] at hother
  rw [anomalyChecks, List.mem_append, List.mem_append, cookieChecks, List.mem_append] at h
  rcases h with (hheader | hcookie | hcookie) | hja4
  · refine absurd ?_ hother.1
    rw [← map_rule_headerChecks c ctx]
    exact List.mem_map_of_mem hheader
  · exact hcookie
  · obtain rfl := List.mem_singleton.mp hcookie
    exact absurd List.mem_cons_self hother.2
  · refine absurd ?_ hother.2
    exact List.mem_cons_of_mem _ ((map_rule_ja4Checks c ctx).subset (List.mem_map_of_mem hja4))

omit [GoLib] in
theorem types_sublist (rules : AnomalyRules) (checks : List AnomalyCheck) :
    ((checks.filterMap (AnomalyCheck.violation? rules)).map (·.type)).Sublist
      (checks.map (·.rule)) := by
  induction checks with
  | nil => exact List.Sublist.refl _
  | cons check checks ih =>
    rw [List.filterMap_cons, AnomalyCheck.violation?]
    split_ifs
    · exact ih.cons_cons _
    · exact ih.cons _

/-- A violation scores what its rule is worth. -/
theorem score_of_mem {v : ProtocolViolation} (h : v ∈ violationsOf rules now c ctx) :
    0 < v.score ∧ v.score = ruleScore rules v.type := by
  obtain ⟨check, -, hviolation⟩ := List.mem_filterMap.mp h
  rw [AnomalyCheck.violation?] at hviolation
  split_ifs at hviolation with hfails
  obtain rfl := Option.some.inj hviolation
  exact ⟨of_decide_eq_true (Bool.and_eq_true_iff.mp hfails).2, rfl⟩

/-- No rule scores twice, so a request scores no more than all rules are worth. -/
private theorem sum_score_le (rules : AnomalyRules) (now : Int64) (c : Connection) (ctx : Context) :
    ((violationsOf rules now c ctx).map (·.score)).sum ≤
      ((defaultAnomalyScores.map Prod.fst).map fun name => max 0 (ruleScore rules name)).sum := by
  have hworth : (violationsOf rules now c ctx).map (·.score) =
      ((violationsOf rules now c ctx).map (·.type)).map
        fun name => max 0 (ruleScore rules name) := by
    rw [List.map_map]
    refine List.map_congr_left fun v hv => ?_
    obtain ⟨hpos, heq⟩ := score_of_mem hv
    rw [Function.comp_apply, ← heq, max_eq_right hpos.le]
  have hsublist := (types_sublist rules (anomalyChecks now c ctx)).trans (rules_sublist now c ctx)
  rw [hworth]
  refine (hsublist.map _).sum_le_sum fun score hmem => ?_
  obtain ⟨name, -, rfl⟩ := List.mem_map.mp hmem
  exact le_max_left 0 _

omit [GoLib] in
/-- Sixteen rules that are small are worth little together. -/
private theorem sum_worth_le (rules : AnomalyRules) (h : ∀ name, ruleScore rules name < 2 ^ 59) :
    ((defaultAnomalyScores.map Prod.fst).map fun name => max 0 (ruleScore rules name)).sum ≤
      16 * (2 ^ 59 - 1) := by
  have hsum := List.sum_le_card_nsmul
    ((defaultAnomalyScores.map Prod.fst).map fun name => max 0 (ruleScore rules name))
    (2 ^ 59 - 1) fun worth hworth => by
      obtain ⟨name, -, rfl⟩ := List.mem_map.mp hworth
      exact max_le (by norm_num) (Int.le_sub_one_of_lt (h name))
  simpa [defaultAnomalyScores] using hsum

/-- **The rules that are loaded**, whatever the settings answer, have a score for every check. So
what a violation scores is what the configuration says of its rule. -/
theorem score_of_loaded {stored : Except Unit (Option (Option AnomalyRules))}
    {report : AnomalyReport}
    (h : (handleProtocolAnomaly (loadAnomalyRules stored) now c ctx).2 = some report) :
    ∀ v ∈ report.violations, loadAnomalyRules stored v.type = some v.score := by
  intro v hv
  have hdefault : ∀ name ∈ defaultAnomalyScores.map Prod.fst,
      (defaultAnomalyRules name).isSome = true := by decide
  have hloaded : ∀ name ∈ defaultAnomalyScores.map Prod.fst,
      (loadAnomalyRules stored name).isSome = true := by
    intro name hname
    rcases stored with _ | _ | _ | rules
    · exact hdefault name hname
    · exact hdefault name hname
    · exact hdefault name hname
    · simp [loadAnomalyRules, withDefaults, Option.isSome_or, hdefault name hname]
  rw [(report_eq h).1] at hv
  have htype : v.type ∈ defaultAnomalyScores.map Prod.fst :=
    (rules_sublist now c ctx).subset
      ((types_sublist _ (anomalyChecks now c ctx)).subset (List.mem_map_of_mem hv))
  obtain ⟨score, hscore⟩ := Option.isSome_iff_exists.mp (hloaded _ htype)
  rw [(score_of_mem hv).2, ruleScore, hscore, Option.getD_some]

/-- **What a report adds up to**, for every request and every configuration. The score that is
traced is the sum of the violations and what the request gains, in its category and in total; each
violation scores what its rule is worth, no rule scores twice, and so no request scores more than
all rules are worth: with rules below `2 ^ 59` the sum is that of the source, whose `int` does not
wrap. A request that the handler passes over is left as it was. -/
theorem protocolAnomaly_accounting (rules : AnomalyRules) (now : Int64) (c : Connection)
    (ctx : Context) :
    let (ctx', traced) := handleProtocolAnomaly rules now c ctx
    match traced with
    | none => ctx' = ctx
    | some report =>
      ctx' = ctx.addScore .protocolAnomaly report.score ∧
        report.score = (report.violations.map (·.score)).sum ∧
        (report.violations.map (·.type)).Nodup ∧
        (∀ v ∈ report.violations, 0 < v.score ∧ v.score = ruleScore rules v.type) ∧
        report.score ≤ ((defaultAnomalyScores.map Prod.fst).map
          fun name => max 0 (ruleScore rules name)).sum ∧
        ((∀ name, ruleScore rules name < 2 ^ 59) → report.score < 2 ^ 63) := by
  dsimp only
  cases htraced : (handleProtocolAnomaly rules now c ctx).2 with
  | none =>
    dsimp only
    rw [handleProtocolAnomaly] at htraced ⊢
    split
    · rfl
    · rename_i hskip
      rw [if_neg hskip] at htraced
      cases htraced
  | some report =>
    obtain ⟨hviolations, hscore⟩ := report_eq htraced
    have hsublist := (types_sublist rules (anomalyChecks now c ctx)).trans
      (rules_sublist now c ctx)
    have hnodup : (defaultAnomalyScores.map Prod.fst).Nodup := by decide
    dsimp only
    rw [hviolations]
    have hbound : report.score ≤ ((defaultAnomalyScores.map Prod.fst).map
        fun name => max 0 (ruleScore rules name)).sum := by
      rw [hscore]
      exact sum_score_le rules now c ctx
    refine ⟨?_, hscore, hsublist.nodup hnodup, fun v => score_of_mem, hbound, fun hsmall => ?_⟩
    · rw [hscore, ← foldl_addScore_eq]
      rw [handleProtocolAnomaly] at htraced ⊢
      split
      · rename_i hskip
        rw [if_pos hskip] at htraced
        cases htraced
      · exact (foldl_runCheck rules (anomalyChecks now c ctx) (ctx, ⟨0, [], []⟩)).1
    · refine hbound.trans_lt ((sum_worth_le rules hsmall).trans_lt ?_)
      norm_num

end Handler

/-! ### The cookie of the site -/

/-- The parts of an issued cookie. -/
theorem split_issueToken (mac : GoString → GoString → Bytes 32) (secret : GoString) (r : Request)
    (t level : Int64) :
    ∃ signature, signature.length = 64 ∧
      split (issueToken mac secret r t level) 0x2E =
        [signature, itoa t.toInt, itoa level.toInt] :=
  ⟨_, length_sign mac _ _, split_token (dot_not_mem_sign mac _ _) _ _⟩

/-- **A cookie of the site is never held against a visitor**: whatever request it was issued to,
with whatever level and under whatever secret, whether its time has passed or not, it is neither
malformed nor from the future to a clock that is at most a minute behind the issuer's. -/
theorem issuedCookie_unpunished [GoLib] (rules : AnomalyRules) (c : Connection) {now t : Int64}
    {ctx : Context} {mac : GoString → GoString → Bytes 32} {secret : GoString} {r : Request}
    {level : Int64}
    (hcookie : ctx.request.cookie (str "ok") = some (issueToken mac secret r t level))
    (hclock : now.toInt + 60 < 2 ^ 63) (hissued : t.toInt ≤ now.toInt + 60) :
    ∀ report ∈ (handleProtocolAnomaly rules now c ctx).2, ∀ v ∈ report.violations,
      v.type ≠ str "malformed_challenge_cookie" ∧ v.type ≠ str "future_cookie_timestamp" := by
  obtain ⟨signature, hlength, hsplit⟩ := split_issueToken mac secret r t level
  have hformat : isValidChallengeFormat (issueToken mac secret r t level) = true := by
    rw [isValidChallengeFormat, hsplit]
    dsimp only
    rw [hlength, parseInt64_itoa]
    rfl
  have hfuture : isCookieTimestampFuture now (issueToken mac secret r t level) = false := by
    have hsum : (now + 60).toInt = now.toInt + 60 := by
      have hlow := now.le_toInt
      have hsixty : (60 : Int64).toInt = 60 := by decide
      rw [Int64.toInt_add, hsixty]
      exact Int.bmod_eq_of_le (by omega) (by omega)
    rw [isCookieTimestampFuture, hsplit]
    dsimp only
    rw [parseInt64_itoa, Option.any_some, decide_eq_false_iff_not, Int64.lt_iff_toInt_lt, hsum]
    omega
  have hchecks : ∀ check ∈ challengeCookieChecks now ctx.request, check.fails = false := by
    intro check hcheck
    rw [challengeCookieChecks, hcookie] at hcheck
    split at hcheck
    · cases hcheck
    · cases hcheck
    next value hvalue =>
      obtain rfl := Option.some.inj hvalue
      rw [hformat, Bool.not_true, if_neg Bool.false_ne_true] at hcheck
      obtain rfl := List.mem_singleton.mp hcheck
      exact hfuture
  intro report hreport v hv
  rw [(report_eq hreport).1] at hv
  obtain ⟨check, hcheck, hviolation⟩ := List.mem_filterMap.mp hv
  rw [AnomalyCheck.violation?] at hviolation
  split_ifs at hviolation with hfails
  obtain rfl := Option.some.inj hviolation
  rw [← not_or]
  intro hrule
  rw [hchecks check (mem_challengeCookieChecks hcheck hrule)] at hfails
  cases hfails

section Evaluated

attribute [local instance] asciiLib

/-- A cookie that was issued long ago, on a request of another client. -/
theorem issuedCookie_unpunished_old :
    let cookie := issueToken (fun _ _ => ⟨List.replicate 32 0, rfl⟩) (str "secret") plainRequest
      1700000000 2
    let ctx := { plainVisit.context with
      request := { plainRequest with cookies := [(str "ok", cookie)] } }
    ∀ report ∈ (handleProtocolAnomaly defaultAnomalyRules 1800000000 ⟨1, 0, 0, []⟩ ctx).2,
      ∀ v ∈ report.violations,
        v.type ≠ str "malformed_challenge_cookie" ∧ v.type ≠ str "future_cookie_timestamp" :=
  issuedCookie_unpunished defaultAnomalyRules _ rfl (by decide) (by decide)

end Evaluated

end VibesWaf

import VibesWaf.Bot.VerifyCache
import VibesWaf.Pipeline.Execute

/-!
# The score of a bot

A request gets a score for its headers, one for its user agent and one for its referer. They are
combined, capped at a hundred, and corrected when the user agent claims to be a good bot: the
address of such a bot may have to be verified. A `BotScore` carries, with its total, the reasons for
it.

A score is explained if its total is the sum of its reasons. `Add` keeps the two in step, and so
does everything that is made of it; `analyzeRequest_explained_iff` says for which requests the
result is explained. Scores are integers of 64 bits, on both sides.
-/

namespace VibesWaf

/-! ### Scores and patterns -/

/-- `ScoreReason`. -/
structure ScoreReason where
  rule : GoString
  score : Int64
  deriving DecidableEq

/-- The three entries of `Metadata`, which are set together. -/
structure PotentialGoodBot where
  pattern : GoString
  verifyIP : Bool
  patternScore : Int64
  deriving DecidableEq

/-- `BotScore`. -/
structure BotScore where
  totalScore : Int64
  reasons : List ScoreReason
  action : GoString
  evidence : GoString
  metadata : Option PotentialGoodBot
  deriving DecidableEq

namespace BotScore

/-- `&model.BotScore{}`. -/
def zero : BotScore :=
  ⟨0, [], [], [], none⟩

/-- `BotScore.Add`. -/
def add (bs : BotScore) (rule : GoString) (score : Int64) : BotScore :=
  { bs with totalScore := bs.totalScore + score, reasons := bs.reasons ++ [⟨rule, score⟩] }

/-- The sum of the reasons' scores. -/
def explanation (bs : BotScore) : Int64 :=
  (bs.reasons.map ScoreReason.score).sum

/-- The total is the sum of the reasons. -/
def Explained (bs : BotScore) : Prop :=
  bs.totalScore = bs.explanation

instance (bs : BotScore) : Decidable bs.Explained :=
  inferInstanceAs (Decidable (_ = _))

end BotScore

/-- `PatternType`; the scorers ignore the other texts. -/
inductive PatternType
  | goodBot
  | badBot
  | suspiciousUA
  | badReferer
  | other (text : GoString)
  deriving DecidableEq

/-- `BotPattern`. -/
structure BotPattern where
  patternType : PatternType
  pattern : GoString
  score : Int64
  verifyIP : Bool
  enabled : Bool
  patternLower : GoString
  deriving DecidableEq

/-- What the detection reads of the settings; a rule that is not listed scores nothing. -/
structure BotConfig where
  threshold : Int64
  action : GoString
  rules : GoString → Int64
  dnsVerification : Bool

/-- The fields of the context that the detection sets. -/
structure BotSignals where
  geoLangMismatch : Bool
  unknownBrowserBot : Bool
  repeatNoCookie : Bool
  burstRate : Bool
  regularInterval : Bool
  isKnownBot : Bool
  botType : GoString
  deriving DecidableEq

section Detection

variable [GoLib]

/-! ### User agents and languages -/

/-- One of the words occurs in the text, in lower case. -/
def mentions (s : GoString) (words : List String) : Bool :=
  words.any fun word => contains (toLower s) (str word)

/-- `looksLikeBrowserUA`. -/
def looksLikeBrowserUA (ua : GoString) : Bool :=
  if ua = [] then false
  else mentions ua ["mozilla", "chrome", "safari", "firefox", "edge", "opera", "msie", "trident",
    "webkit", "gecko"]

/-- `looksLikeChromiumUA`. -/
def looksLikeChromiumUA (ua : GoString) : Bool :=
  mentions ua ["chrome", "chromium", "edg/", "brave", "opr/"]

/-- `looksLikeFirefoxUA`. -/
def looksLikeFirefoxUA (ua : GoString) : Bool :=
  mentions ua ["firefox", "fxios"]

/-- `isHeadlessUA`. -/
def isHeadlessUA (ua : GoString) : Bool :=
  if ua = [] then false
  else mentions ua ["headlesschrome", "headlessfirefox", "phantomjs", "selenium", "puppeteer",
    "playwright", "webdriver", "httrack", "chromium headless"]

/-- `isKnownBrowserUA`. -/
def isKnownBrowserUA (ua : GoString) : Bool :=
  if ua = [] then false
  else mentions ua ["mozilla/5.0", "chrome/", "safari/", "firefox/", "edge/", "opera/", "msie",
    "trident/"]

/-- `extractPrimaryLanguage`. -/
def extractPrimaryLanguage (acceptLang : GoString) : GoString :=
  if acceptLang = [] then []
  else
    let lang := trimSpace ((split acceptLang 0x2C).headD [])
    match lang.findIdx? fun c => c = 0x2D ∨ c = 0x3B with
    | some idx => if 0 < idx then toLower (lang.take idx) else toLower lang
    | none => toLower lang

/-- `isLanguageMatchCountry`. -/
def isLanguageMatchCountry (lang country : GoString) : Bool :=
  if lang = [] ∨ country = [] then true
  else if lang ∈ [str "zh", str "ru", str "ar"] then
    country ∉ [str "US", str "GB", str "DE", str "FR"]
  else true

/-! ### The scorers -/

/-- A rule that applies to the headers. -/
def flag (applies : Bool) (rule : String) : List GoString :=
  if applies then [str rule] else []

/-- The rules `AnalyzeHeaders` adds, in their order. -/
def headerRules (r : Request) (signals : BotSignals) : List GoString :=
  let ua := r.userAgent
  let accept := r.get (str "Accept")
  let acceptEncoding := r.get (str "Accept-Encoding")
  let secChUA := r.get (str "Sec-CH-UA")
  let hasSite : Bool := r.get (str "Sec-Fetch-Site") ≠ []
  let hasMode : Bool := r.get (str "Sec-Fetch-Mode") ≠ []
  let hasDest : Bool := r.get (str "Sec-Fetch-Dest") ≠ []
  let hasAny := hasSite || hasMode || hasDest
  let hasAll := hasSite && hasMode && hasDest
  (if ua = [] then flag true "missing_user_agent"
    else flag (ua.length < 20) "short_user_agent") ++
  (if accept = [] then flag true "missing_accept"
    else flag (accept = str "*/*" ∧ looksLikeBrowserUA ua = true) "wildcard_accept_browser_ua") ++
  flag (r.get (str "Accept-Language") = []) "missing_accept_language" ++
  (if acceptEncoding = [] then flag true "missing_accept_encoding"
    else flag (!contains acceptEncoding (str "gzip") && !contains acceptEncoding (str "br"))
      "no_gzip_or_br") ++
  (if !hasAny && looksLikeBrowserUA ua then flag true "missing_sec_fetch"
    else flag (hasAny && !hasAll) "incomplete_sec_fetch") ++
  (if looksLikeChromiumUA ua then
    flag (secChUA = []) "chromium_missing_sec_ch_ua" ++ flag (!hasAny) "chromium_missing_sec_fetch"
    else []) ++
  flag (looksLikeFirefoxUA ua = true ∧ secChUA ≠ []) "firefox_has_sec_ch_ua" ++
  flag (r.get (str "X-Requested-With") = [] ∧ r.get (str "Referer") = [] ∧ accept = str "*/*")
    "no_browser_indicators" ++
  flag (isHeadlessUA ua) "headless_browser" ++
  flag signals.geoLangMismatch "geo_lang_mismatch" ++
  flag signals.repeatNoCookie "repeat_no_cookie" ++
  flag signals.burstRate "burst_rate" ++
  flag signals.regularInterval "regular_interval" ++
  flag signals.unknownBrowserBot "unknown_browser_bot"

/-- `AnalyzeHeaders`. -/
def analyzeHeaders (cfg : BotConfig) (r : Request) (signals : BotSignals) : BotScore :=
  (headerRules r signals).foldl (fun score rule => score.add rule (cfg.rules rule)) .zero

/-- The pattern is enabled and occurs in the text, which is in lower case. -/
def BotPattern.matches (pattern : BotPattern) (lower : GoString) : Bool :=
  pattern.enabled && contains lower
    (if pattern.patternLower = [] then toLower pattern.pattern else pattern.patternLower)

/-- The variables of `AnalyzeUserAgent`. -/
structure UserAgentScan where
  score : BotScore
  matchedBadBot : Bool
  matchedSuspicious : Bool

/-- One pattern of `AnalyzeUserAgent`. -/
def UserAgentScan.next (uaLower : GoString) (scan : UserAgentScan) (pattern : BotPattern) :
    UserAgentScan :=
  if !pattern.matches uaLower then scan
  else
    match pattern.patternType with
    | .goodBot =>
      let score := { scan.score with
        metadata := some ⟨pattern.pattern, pattern.verifyIP, pattern.score⟩ }
      { scan with score := score.add (str "potential_good_bot:" ++ pattern.pattern) 0 }
    | .badBot =>
      if scan.matchedBadBot then scan
      else
        { scan with
          score := scan.score.add (str "bad_bot:" ++ pattern.pattern)
            (if 10 < pattern.score then 10 else pattern.score)
          matchedBadBot := true }
    | .suspiciousUA =>
      if scan.matchedSuspicious then scan
      else
        { scan with
          score := scan.score.add (str "suspicious:" ++ pattern.pattern)
            (if 5 < pattern.score then 5 else pattern.score)
          matchedSuspicious := true }
    | _ => scan

/-- `AnalyzeUserAgent`. -/
def analyzeUserAgent (ua : GoString) (patterns : List BotPattern) : BotScore :=
  if ua = [] then .zero
  else (patterns.foldl (UserAgentScan.next (toLower ua)) ⟨.zero, false, false⟩).score

/-- `AnalyzeReferer`. -/
def analyzeReferer (referer : GoString) (patterns : List BotPattern) : BotScore :=
  if referer = [] then .zero
  else
    patterns.foldl (fun score pattern =>
      if pattern.patternType = .badReferer ∧ pattern.matches (toLower referer) = true then
        score.add (str "bad_referer:" ++ pattern.pattern)
          (if 10 < pattern.score then 10 else pattern.score)
      else score) .zero

/-- The loop of `CombineScores`, before the cap. -/
def sumScores (scores : List BotScore) : BotScore :=
  scores.foldl (fun combined sc =>
    { combined with
      totalScore := combined.totalScore + sc.totalScore
      reasons := combined.reasons ++ sc.reasons
      metadata := combined.metadata.or sc.metadata }) .zero

/-- `CombineScores`. -/
def combineScores (scores : List BotScore) : BotScore :=
  let combined := sumScores scores
  if 100 < combined.totalScore then { combined with totalScore := 100 } else combined

/-- `DetermineAction`. -/
def determineAction (score threshold : Int64) (configAction : GoString) : GoString :=
  if score < 0 then str "allow"
  else if threshold ≤ score then configAction
  else []

/-! ### The detection -/

/-- `botState`. -/
structure BotState where
  patterns : List BotPattern
  knownBots : List GoString
  /-- `IPRange` of each entry. -/
  whitelist : List GoString
  botConfig : BotConfig

/-- What `loadState` makes of the stored patterns. -/
def BotState.load (patterns : List BotPattern) (whitelist : List GoString) (botConfig : BotConfig) :
    BotState :=
  let patterns := patterns.map fun p => { p with patternLower := toLower p.pattern }
  { patterns
    knownBots := (patterns.filter fun p =>
      p.enabled ∧ (p.patternType = .goodBot ∨ p.patternType = .badBot)).map (·.patternLower)
    whitelist
    botConfig }

/-- What the other services answer during a request. -/
structure BotServices where
  /-- The country code `MaxMindService.Lookup` finds. -/
  maxmind : GoString → Option GoString
  /-- `Trust.GoodBot` of `GetScoringConfig`. -/
  goodBot : Option Int64
  /-- The outcome of `verifyBotIPCached`. -/
  verifyBotIPCached : GoString → GoString → VerifyResult

/-- `IsWhitelisted`. -/
def isWhitelisted (whitelist : List GoString) (ipStr : GoString) : Bool :=
  match parseIP ipStr with
  | none => false
  | some ip => whitelist.any fun ipRange =>
    match parseCIDR ipRange with
    | none => false
    | some ipNet => ipNet.contains ip.1

/-- `isKnownBotUA`. -/
def isKnownBotUA (ua : GoString) (st : BotState) : Bool :=
  st.knownBots.any fun pattern => contains (toLower ua) pattern

/-- `analyzeBehavior`. -/
def analyzeBehavior (svc : BotServices) (ctx : Context) (st : BotState) (signals : BotSignals) :
    BotSignals :=
  let ua := ctx.request.userAgent
  let acceptLang := ctx.request.get (str "Accept-Language")
  let country := if ctx.country = [] then (svc.maxmind ctx.clientIP).getD [] else ctx.country
  let signals :=
    if acceptLang ≠ [] ∧ country ≠ [] ∧
        isLanguageMatchCountry (extractPrimaryLanguage acceptLang) country = false then
      { signals with geoLangMismatch := true }
    else signals
  if ua ≠ [] ∧ isKnownBrowserUA ua = false ∧ isKnownBotUA ua st = false then
    { signals with unknownBrowserBot := true }
  else signals

/-- The scores `AnalyzeRequest` combines. -/
def partialScores (ctx : Context) (st : BotState) (signals : BotSignals) : List BotScore :=
  [analyzeHeaders st.botConfig ctx.request signals,
    analyzeUserAgent ctx.request.userAgent st.patterns,
    analyzeReferer (ctx.request.get (str "Referer")) st.patterns]

/-- The end of `AnalyzeRequest`: what a claim to be a good bot changes. -/
def judgeGoodBot (svc : BotServices) (ctx : Context) (dnsVerification : Bool)
    (determine : Int64 → GoString) (finalScore : BotScore) (bot : PotentialGoodBot)
    (signals : BotSignals) : BotScore × BotSignals :=
  let goodBotTrust := svc.goodBot.getD (-5)
  let reset := { finalScore with totalScore := 0, reasons := [], action := [] }
  let known := { signals with isKnownBot := true, botType := str "good_bot" }
  let added := fun (rule : GoString) =>
    let score := finalScore.add rule bot.patternScore
    { score with action := determine score.totalScore }
  if bot.verifyIP then
    if !dnsVerification then
      if 0 < bot.patternScore then (added (str "unverified_bot:" ++ bot.pattern), signals)
      else (finalScore, signals)
    else
      let result := svc.verifyBotIPCached ctx.clientIP bot.pattern
      if result.verified then
        ({ reset.add (str "verified_good_bot:" ++ bot.pattern) goodBotTrust with
          evidence := result.evidence }, known)
      else if 0 < bot.patternScore then
        ({ added (str "fake_bot:" ++ bot.pattern ++ str ":" ++ result.failedStep) with
          evidence := result.evidence }, signals)
      else ({ finalScore with evidence := result.evidence }, signals)
  else if finalScore.totalScore ≤ 5 then
    (reset.add (str "good_bot:" ++ bot.pattern) goodBotTrust, known)
  else (added (str "suspicious_good_bot:" ++ bot.pattern), signals)

/-- The score of a whitelisted address. -/
def whitelistedScore : BotScore :=
  ({ BotScore.zero with totalScore := -40 } : BotScore).add (str "whitelisted_ip") (-40)

/-- `AnalyzeRequest`. The whitelist is that of the state at the beginning; the rest uses the one
loaded after it. -/
def analyzeRequest (svc : BotServices) (whitelist : List GoString) (st : BotState) (ctx : Context)
    (signals : BotSignals) (threshold : Int64) (action : GoString) : BotScore × BotSignals :=
  if isWhitelisted whitelist ctx.clientIP then (whitelistedScore, signals)
  else
    let thresholdVal := if 0 < threshold then threshold else st.botConfig.threshold
    let actionVal := if action ≠ [] then action else st.botConfig.action
    let determine := fun score => determineAction score thresholdVal actionVal
    let signals := analyzeBehavior svc ctx st signals
    let combined := combineScores (partialScores ctx st signals)
    let signals := { signals with isKnownBot := isKnownBotUA ctx.request.userAgent st }
    let finalScore := { combined with action := determine combined.totalScore }
    match finalScore.metadata with
    | none => (finalScore, signals)
    | some bot => judgeGoodBot svc ctx st.botConfig.dnsVerification determine finalScore bot signals

/-! ### Explained scores -/

namespace BotScore

omit [GoLib] in
theorem explained_zero : zero.Explained :=
  rfl

omit [GoLib] in
theorem explanation_add (bs : BotScore) (rule : GoString) (score : Int64) :
    (bs.add rule score).explanation = bs.explanation + score := by
  rw [explanation, add, List.map_append, List.sum_append, List.map_singleton, List.sum_singleton]
  rfl

omit [GoLib] in
/-- **`Add`** keeps the total and the reasons in step. -/
theorem Explained.add {bs : BotScore} (h : bs.Explained) (rule : GoString) (score : Int64) :
    (bs.add rule score).Explained := by
  rw [Explained, explanation_add, ← h]
  rfl

omit [GoLib] in
/-- Only the total and the reasons matter. -/
theorem Explained.of_eq {bs bs' : BotScore} (h : bs.Explained)
    (htotal : bs'.totalScore = bs.totalScore) (hreasons : bs'.reasons = bs.reasons) :
    bs'.Explained := by
  rw [Explained, explanation, htotal, hreasons]
  exact h

end BotScore

omit [GoLib] in
/-- The combined score, before the cap, is explained if all scores are. -/
theorem sumScores_explained {scores : List BotScore} (h : ∀ sc ∈ scores, sc.Explained) :
    (sumScores scores).Explained := by
  refine List.foldlRecOn scores _ BotScore.explained_zero fun combined hcombined sc hsc => ?_
  rw [BotScore.Explained, BotScore.explanation, List.map_append, List.sum_append]
  have htotal : combined.totalScore = combined.explanation := hcombined
  have hsc' : sc.totalScore = sc.explanation := h sc hsc
  rw [htotal, hsc']
  rfl

theorem analyzeHeaders_explained (cfg : BotConfig) (r : Request) (signals : BotSignals) :
    (analyzeHeaders cfg r signals).Explained :=
  List.foldlRecOn _ _ BotScore.explained_zero fun _ h rule _ => h.add rule _

/-- One pattern keeps the score explained. -/
theorem UserAgentScan.explained_next {scan : UserAgentScan} (h : scan.score.Explained)
    (uaLower : GoString) (pattern : BotPattern) : (scan.next uaLower pattern).score.Explained := by
  rw [next]
  split
  · exact h
  · cases pattern.patternType with
    | goodBot => exact (h.of_eq rfl rfl).add _ _
    | badBot =>
      by_cases hmatched : scan.matchedBadBot = true
      · rwa [if_pos hmatched]
      · rw [if_neg hmatched]
        exact h.add _ _
    | suspiciousUA =>
      by_cases hmatched : scan.matchedSuspicious = true
      · rwa [if_pos hmatched]
      · rw [if_neg hmatched]
        exact h.add _ _
    | badReferer => exact h
    | other text => exact h

theorem analyzeUserAgent_explained (ua : GoString) (patterns : List BotPattern) :
    (analyzeUserAgent ua patterns).Explained := by
  rw [analyzeUserAgent]
  split
  · exact BotScore.explained_zero
  · exact List.foldlRecOn (motive := fun scan : UserAgentScan => scan.score.Explained) patterns _
      BotScore.explained_zero fun scan h pattern _ => UserAgentScan.explained_next h _ pattern

theorem analyzeReferer_explained (referer : GoString) (patterns : List BotPattern) :
    (analyzeReferer referer patterns).Explained := by
  rw [analyzeReferer]
  split
  · exact BotScore.explained_zero
  · refine List.foldlRecOn patterns _ BotScore.explained_zero fun score h pattern _ => ?_
    split
    · exact h.add _ _
    · exact h

/-- The scores of the three scorers are explained. -/
theorem partialScores_explained (ctx : Context) (st : BotState) (signals : BotSignals) :
    ∀ sc ∈ partialScores ctx st signals, sc.Explained := by
  simp only [partialScores, List.mem_cons, List.not_mem_nil, or_false, forall_eq_or_imp, forall_eq]
  exact ⟨analyzeHeaders_explained _ _ _, analyzeUserAgent_explained _ _,
    analyzeReferer_explained _ _⟩

omit [GoLib] in
/-- What a claim to be a good bot changes leaves an explained score explained. -/
theorem judgeGoodBot_explained (svc : BotServices) (ctx : Context) (dnsVerification : Bool)
    (determine : Int64 → GoString) {finalScore : BotScore} (h : finalScore.Explained)
    (bot : PotentialGoodBot) (signals : BotSignals) :
    (judgeGoodBot svc ctx dnsVerification determine finalScore bot signals).1.Explained := by
  have hreset : ({ finalScore with totalScore := 0, reasons := [], action := [] } :
      BotScore).Explained := BotScore.explained_zero
  rw [judgeGoodBot]
  dsimp only
  split_ifs
  -- the address would have to be verified, and verification is off
  · exact (h.add _ _).of_eq rfl rfl
  · exact h
  -- a verified bot, and a fake one
  · exact (hreset.add _ _).of_eq rfl rfl
  · exact (h.add _ _).of_eq rfl rfl
  · exact h.of_eq rfl rfl
  -- no verification: consistent headers, or suspicious ones
  · exact hreset.add _ _
  · exact (h.add _ _).of_eq rfl rfl

omit [GoLib] in
/-- The discount is assigned, and then added. -/
theorem whitelistedScore_not_explained : ¬ whitelistedScore.Explained := by
  decide

/-- The total of the scores that are combined, for a request. -/
def combinedTotal (svc : BotServices) (st : BotState) (ctx : Context) (signals : BotSignals) :
    Int64 :=
  (sumScores (partialScores ctx st (analyzeBehavior svc ctx st signals))).totalScore

/-- **A bot score explains itself**, unless the address is whitelisted. -/
theorem analyzeRequest_explained_iff (svc : BotServices) (whitelist : List GoString)
    (st : BotState) (ctx : Context) (signals : BotSignals) (threshold : Int64)
    (action : GoString) :
    (combinedTotal svc st ctx signals ≤ 100 →
      (analyzeRequest svc whitelist st ctx signals threshold action).1.Explained) ↔
      (isWhitelisted whitelist ctx.clientIP = false ∨ 100 < combinedTotal svc st ctx signals) := by
  by_cases hwhite : isWhitelisted whitelist ctx.clientIP = true
  · have htwice : ¬ (analyzeRequest svc whitelist st ctx signals threshold action).1.Explained := by
      rw [analyzeRequest, if_pos hwhite]
      exact whitelistedScore_not_explained
    simp only [hwhite, htwice, imp_false, reduceCtorEq, false_or]
    exact Int64.not_le
  · refine iff_of_true (fun hcap => ?_) (.inl (by simpa using hwhite))
    have hcombined := sumScores_explained
      (partialScores_explained ctx st (analyzeBehavior svc ctx st signals))
    have hplain : combineScores (partialScores ctx st (analyzeBehavior svc ctx st signals)) =
        sumScores (partialScores ctx st (analyzeBehavior svc ctx st signals)) :=
      if_neg (Int64.not_lt.mpr hcap)
    rw [analyzeRequest, if_neg hwhite]
    simp only [hplain]
    generalize sumScores (partialScores ctx st (analyzeBehavior svc ctx st signals)) = combined
      at hcombined ⊢
    have hfinal : ∀ action : GoString, ({ combined with action } : BotScore).Explained :=
      fun action => hcombined.of_eq rfl rfl
    split
    · exact hfinal _
    · exact judgeGoodBot_explained svc ctx _ _ (hfinal _) _ _

end Detection

section Evaluated

attribute [local instance] asciiLib

/-- Services that know nothing, and no signals. -/
def quietBotServices : BotServices where
  maxmind := fun _ => none
  goodBot := none
  verifyBotIPCached := fun _ _ => ⟨false, str "reverse_dns", [], []⟩

def noSignals : BotSignals :=
  ⟨false, false, false, false, false, false, []⟩

/-- The whitelist holds the network of the client: the total is -80, and the only reason is -40. -/
theorem whitelisted_counted_twice :
    let whitelist := [str "203.0.113.0/24"]
    let st := BotState.load [] whitelist ⟨20, str "challenge", fun _ => 8, true⟩
    let score := (analyzeRequest quietBotServices whitelist st plainVisit.context noSignals 0 []).1
    combinedTotal quietBotServices st plainVisit.context noSignals ≤ 100 ∧
      score.totalScore = -80 ∧ score.explanation = -40 := by
  decide

end Evaluated

end VibesWaf

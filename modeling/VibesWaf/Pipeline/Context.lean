import Mathlib.Data.Finset.Dedup
import Mathlib.Data.Finset.Lattice.Lemmas
import VibesWaf.Go.Http
import VibesWaf.Go.NetUrl
import VibesWaf.Pipeline.Decision
import VibesWaf.Rule.Evaluator

/-!
# The context of a request in the pipeline

`Context` is what the handlers read and write: the request in normal form, the decision so far,
the flags, and the risk score. What they ask of the services around them (a penalty, a cached
decision, a page) is collected in `effects`. Traces, timings, log texts and the free-form extras
of the source influence no decision and are left out.

A `RiskScore` keeps a total next to its categories. `RiskScore.Balanced` says that the total is
their sum, which every operation but the final clamp preserves.
-/

namespace VibesWaf

/-! ### Normal form of a request -/

/-- `NormalizedRequest`. -/
structure NormalizedRequest where
  path : GoString
  query : GoString
  host : GoString
  ua : GoString
  method : GoString
  deriving DecidableEq

/-- `stripNull`. -/
def stripNull (s : GoString) : GoString :=
  s.filter (· ≠ 0)

/-- `normalizeHost` before the case mapping: the text before the last colon. -/
def stripPort (host : GoString) : GoString :=
  match lastIndexByte host 0x3A with
  | none => host
  | some i => host.take i

section Normalize

variable [GoLib]

/-- `normalizePath`. -/
def normalizePath (raw : GoString) : GoString :=
  toLower (stripNull ((pathUnescape raw).getD raw))

/-- `normalizeQuery`. -/
def normalizeQuery (raw : GoString) : GoString :=
  toLower (stripNull ((queryUnescape raw).getD raw))

/-- `normalizeHost`. -/
def normalizeHost (host : GoString) : GoString :=
  toLower (stripPort host)

/-- `Normalize`. -/
def normalize (r : Request) : NormalizedRequest where
  path := normalizePath r.path
  query := normalizeQuery r.rawQuery
  host := normalizeHost r.host
  ua := stripNull r.userAgent
  method := toUpper r.method

end Normalize

/-! ### Risk score -/

/-- `ScoreCategory`. -/
inductive ScoreCategory
  | ipReputation
  | botDetection
  | wafAnomaly
  | protocolAnomaly
  | trust
  deriving DecidableEq

/-- `RiskScore`, with the total and the score of each category. -/
structure RiskScore where
  total : Int
  ipReputation : Int
  botDetection : Int
  wafAnomaly : Int
  protocolAnomaly : Int
  trust : Int
  deriving DecidableEq

namespace RiskScore

/-- `NewRiskScore`. -/
def new : RiskScore :=
  ⟨0, 0, 0, 0, 0, 0⟩

/-- `get`. -/
def get (rs : RiskScore) : ScoreCategory → Int
  | .ipReputation => rs.ipReputation
  | .botDetection => rs.botDetection
  | .wafAnomaly => rs.wafAnomaly
  | .protocolAnomaly => rs.protocolAnomaly
  | .trust => rs.trust

/-- `set`. -/
def set (rs : RiskScore) (value : Int) : ScoreCategory → RiskScore
  | .ipReputation => { rs with ipReputation := value }
  | .botDetection => { rs with botDetection := value }
  | .wafAnomaly => { rs with wafAnomaly := value }
  | .protocolAnomaly => { rs with protocolAnomaly := value }
  | .trust => { rs with trust := value }

/-- A new score of a category, with the total following. -/
def assign (rs : RiskScore) (category : ScoreCategory) (value : Int) : RiskScore :=
  { rs.set value category with total := rs.total + (value - rs.get category) }

/-- `Add`. -/
def add (rs : RiskScore) (category : ScoreCategory) (score : Int) : RiskScore :=
  rs.assign category (rs.get category + score)

/-- `ApplyCap`. -/
def applyCap (rs : RiskScore) (category : ScoreCategory) (maxScore : Int) : RiskScore :=
  if rs.get category ≤ maxScore then rs else rs.assign category maxScore

/-- `ApplyMultiplier`: the multiplier is the function `int(float64(current) * multiplier)`, and
`none` for a multiplier of one. -/
def applyMultiplier (rs : RiskScore) (category : ScoreCategory) :
    Option (Int → Int) → RiskScore
  | none => rs
  | some multiply => rs.assign category (multiply (rs.get category))

/-- `ClampTotal`. -/
def clampTotal (rs : RiskScore) : RiskScore :=
  { rs with total := min (max rs.total 0) 100 }

/-- The total is the sum of the categories. -/
def Balanced (rs : RiskScore) : Prop :=
  rs.total = rs.ipReputation + rs.botDetection + rs.wafAnomaly + rs.protocolAnomaly + rs.trust

/-- A score of zero changes nothing. -/
theorem add_zero (rs : RiskScore) (c : ScoreCategory) : rs.add c 0 = rs := by
  cases c <;> simp [add, assign, set, get]

/-- Scores of one category add up. -/
theorem add_add (rs : RiskScore) (c : ScoreCategory) (a b : Int) :
    (rs.add c a).add c b = rs.add c (a + b) := by
  cases c <;> simp [add, assign, set, get] <;> omega

theorem get_assign (rs : RiskScore) (c c' : ScoreCategory) (value : Int) :
    (rs.assign c value).get c' = if c' = c then value else rs.get c' := by
  cases c <;> cases c' <;> rfl

theorem Balanced.assign {rs : RiskScore} (h : rs.Balanced) (c : ScoreCategory) (value : Int) :
    (rs.assign c value).Balanced := by
  unfold Balanced at *
  cases c <;> simp only [RiskScore.assign, set, get] <;> omega

theorem Balanced.add {rs : RiskScore} (h : rs.Balanced) (c : ScoreCategory) (score : Int) :
    (rs.add c score).Balanced :=
  h.assign c _

end RiskScore

/-! ### The context -/

/-- `CachedDecision`. -/
structure CachedDecision where
  action : Action
  source : GoString
  reason : GoString
  deriving DecidableEq

/-- What a handler asks of the services, or writes to the client. Durations are nanoseconds. -/
inductive Effect
  | setChallenge (ip : GoString) (penalty : Int64)
  | recordAttackHit
  | recordErrorHit
  | cacheSet (key : GoString) (decision : CachedDecision) (ttl : Int64)
  | blockedPage (clientIP host reason : GoString)
  | accessDenied
  | challengePage (host : GoString)
  deriving DecidableEq

/-- `Context`. -/
structure Context where
  request : Request
  clientIP : GoString
  action : Action
  reason : GoString
  currentDecision : Decision
  skipPhases : Finset GoString
  skipModules : Finset GoString
  country : GoString
  asn : UInt64
  asnOrg : GoString
  isDatacenter : Bool
  appID : GoString
  httpFingerprint : GoString
  ipRuleTerminal : Bool
  challengePassed : Bool
  trustLevel : Int64
  wafStatus : Int
  cacheHit : Bool
  phaseExit : GoString
  normalized : NormalizedRequest
  riskScore : RiskScore
  hardDecision : Bool
  effects : List Effect

namespace Context

/-- `AddSkipModules`. -/
def addSkipModules (ctx : Context) (modules : List GoString) : Context :=
  { ctx with skipModules := ctx.skipModules ∪ modules.toFinset }

/-- `AddDecision`. -/
def addDecision (ctx : Context) (decision : Decision) : Context :=
  if decision.action = .skip then
    let ctx := { ctx with skipPhases := ctx.skipPhases ∪ decision.skipPhases.toFinset }
    match decision.skipPhases, decision.skipModules with
    | [], some modules => ctx.addSkipModules modules
    | _, _ => ctx
  else
    let current := resolveDecision ctx.currentDecision decision
    { ctx with currentDecision := current, action := current.action, reason := current.reason }

/-- `IsPhaseSkipped`. -/
def isPhaseSkipped (ctx : Context) (phase : GoString) : Bool :=
  phase ∈ ctx.skipPhases

/-- `ShouldSkipModule`. -/
def shouldSkipModule (ctx : Context) (moduleName : GoString) : Bool :=
  moduleName ∈ ctx.skipModules

/-- `AddScore`. -/
def addScore (ctx : Context) (category : ScoreCategory) (score : Int) : Context :=
  { ctx with riskScore := ctx.riskScore.add category score }

/-- The application whose rules apply. -/
def ruleAppID (ctx : Context) : GoString :=
  if ctx.appID = [] then str "default" else ctx.appID

/-- A terminal decision: it is added and made hard, and its effects follow. -/
def decideHard (ctx : Context) (decision : Decision) (effects : List Effect) : Context :=
  { ctx.addDecision decision with hardDecision := true, effects := ctx.effects ++ effects }

/-- `pipelineContextAdapter`: what a rule reads of the context. -/
def ruleContext (ctx : Context) : RequestContext where
  clientIP := ctx.clientIP
  host := ctx.normalized.host
  path := ctx.normalized.path
  query := ctx.normalized.query
  method := ctx.normalized.method
  userAgent := ctx.normalized.ua
  scheme := if ctx.request.tls then str "https" else str "http"
  proto := ctx.request.proto
  header := ctx.request.get
  asn := if ctx.asn = 0 then none else some ctx.asn
  country := if ctx.country = [] then none else some ctx.country
  isDatacenter := some ctx.isDatacenter

/-! ### What a decision leaves alone -/

/-- The parts of a context that rules, keys and handlers read and no decision writes. -/
structure SameRequest (ctx ctx' : Context) : Prop where
  request : ctx'.request = ctx.request
  clientIP : ctx'.clientIP = ctx.clientIP
  country : ctx'.country = ctx.country
  asn : ctx'.asn = ctx.asn
  asnOrg : ctx'.asnOrg = ctx.asnOrg
  isDatacenter : ctx'.isDatacenter = ctx.isDatacenter
  appID : ctx'.appID = ctx.appID
  httpFingerprint : ctx'.httpFingerprint = ctx.httpFingerprint
  normalized : ctx'.normalized = ctx.normalized

namespace SameRequest

theorem refl (ctx : Context) : SameRequest ctx ctx :=
  ⟨rfl, rfl, rfl, rfl, rfl, rfl, rfl, rfl, rfl⟩

theorem trans {a b c : Context} (h : SameRequest a b) (h' : SameRequest b c) :
    SameRequest a c :=
  ⟨h'.request.trans h.request, h'.clientIP.trans h.clientIP, h'.country.trans h.country,
    h'.asn.trans h.asn, h'.asnOrg.trans h.asnOrg, h'.isDatacenter.trans h.isDatacenter,
    h'.appID.trans h.appID, h'.httpFingerprint.trans h.httpFingerprint,
    h'.normalized.trans h.normalized⟩

theorem ruleContext {ctx ctx' : Context} (h : SameRequest ctx ctx') :
    ctx'.ruleContext = ctx.ruleContext := by
  simp only [Context.ruleContext, h.request, h.clientIP, h.country, h.asn, h.isDatacenter,
    h.normalized]

theorem ruleAppID {ctx ctx' : Context} (h : SameRequest ctx ctx') :
    ctx'.ruleAppID = ctx.ruleAppID := by
  simp only [Context.ruleAppID, h.appID]

end SameRequest

theorem addDecision_of_ne_skip {ctx : Context} {d : Decision} (h : d.action ≠ .skip) :
    ctx.addDecision d =
      { ctx with
        currentDecision := resolveDecision ctx.currentDecision d
        action := (resolveDecision ctx.currentDecision d).action
        reason := (resolveDecision ctx.currentDecision d).reason } :=
  if_neg h

/-- The current decision moves by resolution alone. -/
theorem currentDecision_addDecision (ctx : Context) (d : Decision) :
    (ctx.addDecision d).currentDecision = resolveDecision ctx.currentDecision d := by
  rw [addDecision]
  split
  · rename_i hskip
    rw [resolveDecision, if_pos hskip]
    dsimp only
    split <;> rfl
  · rfl

/-- **What a decision can do.** A skip adds phases and modules to skip; any other decision moves
the current one, and action and reason with it. Nothing else changes. -/
theorem addDecision_cases (ctx : Context) (d : Decision) :
    (d.action = .skip ∧ ∃ phases modules,
      ctx.addDecision d = { ctx with skipPhases := phases, skipModules := modules }) ∨
    (d.action ≠ .skip ∧ ∃ current, current = resolveDecision ctx.currentDecision d ∧
      ctx.addDecision d =
        { ctx with currentDecision := current, action := current.action,
                   reason := current.reason }) := by
  by_cases hskip : d.action = .skip
  · refine .inl ⟨hskip, ?_⟩
    rw [addDecision, if_pos hskip]
    dsimp only
    split
    · exact ⟨_, _, rfl⟩
    · exact ⟨_, ctx.skipModules, rfl⟩
  · exact .inr ⟨hskip, _, rfl, addDecision_of_ne_skip hskip⟩

/-- A decision leaves the flags and the score alone. -/
theorem addDecision_flags (ctx : Context) (d : Decision) :
    (ctx.addDecision d).hardDecision = ctx.hardDecision ∧
      (ctx.addDecision d).ipRuleTerminal = ctx.ipRuleTerminal ∧
      (ctx.addDecision d).challengePassed = ctx.challengePassed := by
  obtain ⟨-, phases, modules, h⟩ | ⟨-, current, -, h⟩ := addDecision_cases ctx d <;> rw [h] <;>
    exact ⟨rfl, rfl, rfl⟩

theorem decideHard_flags (ctx : Context) (d : Decision) (effects : List Effect) :
    (ctx.decideHard d effects).hardDecision = true ∧
      (ctx.decideHard d effects).ipRuleTerminal = ctx.ipRuleTerminal ∧
      (ctx.decideHard d effects).challengePassed = ctx.challengePassed :=
  ⟨rfl, (ctx.addDecision_flags d).2⟩

theorem effects_addDecision (ctx : Context) (d : Decision) :
    (ctx.addDecision d).effects = ctx.effects := by
  obtain ⟨-, phases, modules, h⟩ | ⟨-, current, -, h⟩ := addDecision_cases ctx d <;> rw [h]

theorem sameRequest_addDecision (ctx : Context) (d : Decision) :
    SameRequest ctx (ctx.addDecision d) := by
  obtain ⟨-, phases, modules, h⟩ | ⟨-, current, -, h⟩ := addDecision_cases ctx d <;> rw [h] <;>
    exact ⟨rfl, rfl, rfl, rfl, rfl, rfl, rfl, rfl, rfl⟩

/-- A context with more modules and phases to skip. -/
def skipping (ctx : Context) (modules : List GoString) : Context :=
  { ctx with
    skipPhases := ctx.skipPhases ∪ modules.toFinset
    skipModules := ctx.skipModules ∪ modules.toFinset }

theorem skipping_nil (ctx : Context) : ctx.skipping [] = ctx := by
  simp [skipping]

theorem skipping_append (ctx : Context) (l l' : List GoString) :
    (ctx.skipping l).skipping l' = ctx.skipping (l ++ l') := by
  simp [skipping, Finset.union_assoc, List.toFinset_append]

/-- A skip rule's two steps are one. -/
theorem addSkip_eq (ctx : Context) (source : GoString) (modules : List GoString) :
    (ctx.addDecision (newSkipDecision source modules)).addSkipModules modules =
      ctx.skipping modules := by
  cases modules <;> rfl

theorem sameRequest_skipping (ctx : Context) (modules : List GoString) :
    SameRequest ctx (ctx.skipping modules) :=
  ⟨rfl, rfl, rfl, rfl, rfl, rfl, rfl, rfl, rfl⟩

end Context

end VibesWaf

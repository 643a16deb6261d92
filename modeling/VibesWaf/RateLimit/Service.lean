import VibesWaf.Pipeline.Phase1
import VibesWaf.RateLimit.Float64
import VibesWaf.RateLimit.Forgetting

/-!
# The rate-limit service

The service limits the requests of a client to an application by the profile `Basic` of its
configuration. The configuration and the limiter are one state, which is replaced as a whole: every
30 seconds by the configuration that is stored and a new limiter, and by the same configuration and
a new limiter whenever an application is updated. Each limiter has a clean-up of its own, whose
ticker starts with the limiter; here it may come at any time.

The new limiter has no buckets, so a replacement restores the budget of every client of every
application. `results_survive` compares two runs with the same requests and says when that makes no
difference, namely when every bucket that only one of the runs loses would have been full again;
`invalidate_forgets` is a run in which it does.
-/

namespace VibesWaf.RateLimitService

open RateLimiter Rounding

/-! ### Keys -/

/-- `fnv.New64a`. -/
def fnv64a (s : GoString) : UInt64 :=
  s.foldl (fun h c => (h ^^^ c.toUInt64) * 1099511628211) 14695981039346656037

/-- The digit of a number below 16. -/
def hexDigit (d : ℕ) : UInt8 :=
  if d < 10 then .ofNat (48 + d) else .ofNat (87 + d)

/-- The verb `%016x`. -/
def hex16 (n : UInt64) : GoString :=
  (List.range 16).reverse.map fun i => hexDigit (n.toNat / 16 ^ i % 16)

/-- `GenerateKey`. -/
def generateKey (ip userAgent : GoString) : GoString :=
  ip ++ str ":" ++ hex16 (fnv64a userAgent)

/-- The key of a client's bucket. -/
def bucketKey (appID clientIP userAgent : GoString) : GoString :=
  appID ++ str ":" ++ generateKey clientIP userAgent

/-! ### The state -/

section Operations

variable [Numbers]

/-- The tokens a second. -/
def refillRate (basic : RateLimitProfile) : ℚ :=
  Arithmetic.round
    (Arithmetic.round basic.count.toInt / Arithmetic.round (max basic.duration 1).toInt)

/-- `globalRLState`. -/
structure GlobalRLState where
  cfg : RateLimitConfig
  limiter : RateLimiter

namespace GlobalRLState

/-- `NewRateLimitService`, with the configuration it has loaded. -/
def new (cfg : RateLimitConfig) : GlobalRLState :=
  ⟨cfg, newRateLimiter⟩

/-- The call of the limiter for a request. -/
def limiterCall (basic : RateLimitProfile) (now : ℤ) (orders : ℕ → List GoString)
    (appID clientIP userAgent : GoString) : LimiterCall :=
  ⟨now, .allow (bucketKey appID clientIP userAgent) basic.count.toInt (refillRate basic) orders⟩

/-- `Allow`: whether the request is allowed, the action, and the state after it. -/
def allow (now : ℤ) (orders : ℕ → List GoString) (appID clientIP userAgent : GoString)
    (st : GlobalRLState) : (Bool × Action) × GlobalRLState :=
  let basic := st.cfg.basic
  if basic.Off then ((true, .none), st)
  else
    let call := limiterCall basic now orders appID clientIP userAgent
    ((st.limiter.answer call = some true, basic.action),
      { st with limiter := st.limiter.step call })

/-- A round of `autoReload`, with what the settings answer. -/
def autoReload (loaded : Option RateLimitConfig) (st : GlobalRLState) : GlobalRLState :=
  match loaded with
  | none => st
  | some cfg => ⟨cfg, newRateLimiter⟩

/-- `InvalidateCache`. The application makes no difference. -/
def invalidateCache (_appID : GoString) (st : GlobalRLState) : GlobalRLState :=
  { st with limiter := newRateLimiter }

/-- A tick of the clean-up of the limiter. -/
def cleanup (now : ℤ) (st : GlobalRLState) : GlobalRLState :=
  { st with limiter := st.limiter.step ⟨now, .cleanup⟩ }

end GlobalRLState

/-! ### Runs -/

/-- The operations of the service. -/
inductive ServiceOp
  | allow (appID clientIP userAgent : GoString) (orders : ℕ → List GoString)
  | autoReload (loaded : Option RateLimitConfig)
  | invalidateCache (appID : GoString)
  | cleanup

/-- An operation, at a time. -/
structure ServiceCall where
  now : ℤ
  op : ServiceOp

/-- One call. -/
def GlobalRLState.step (st : GlobalRLState) (call : ServiceCall) : GlobalRLState :=
  match call.op with
  | .allow appID clientIP userAgent orders =>
    (st.allow call.now orders appID clientIP userAgent).2
  | .autoReload loaded => st.autoReload loaded
  | .invalidateCache appID => st.invalidateCache appID
  | .cleanup => st.cleanup call.now

/-- The result of a call of `Allow`. -/
def GlobalRLState.result (st : GlobalRLState) (call : ServiceCall) : Option (Bool × Action) :=
  match call.op with
  | .allow appID clientIP userAgent orders =>
    some (st.allow call.now orders appID clientIP userAgent).1
  | _ => none

/-- The results of the calls of `Allow`. -/
def results : GlobalRLState → List ServiceCall → List (Bool × Action)
  | _, [] => []
  | st, call :: calls => (st.result call).toList ++ results (st.step call) calls

/-- A request that the limit is asked about. -/
structure ClientRequest where
  appID : GoString
  clientIP : GoString
  userAgent : GoString
  deriving DecidableEq

/-- The key of the bucket of a request. -/
def ClientRequest.key (r : ClientRequest) : GoString :=
  bucketKey r.appID r.clientIP r.userAgent

/-- The request of a call of `Allow`. -/
def ServiceOp.request : ServiceOp → Option ClientRequest
  | allow appID clientIP userAgent _ => some ⟨appID, clientIP, userAgent⟩
  | _ => none

/-- The times of some calls do not decrease. -/
def Chronological (calls : List ServiceCall) : Prop :=
  calls.Pairwise fun call later => call.now ≤ later.now

/-- What may happen while neither the configuration nor an application is changed: requests to the
application, reloads of the configuration, updates of other applications, and clean-ups. -/
def ServiceOp.Ordinary (cfg : RateLimitConfig) (app : GoString) : ServiceOp → Prop
  | allow appID _ _ _ => appID = app
  | autoReload loaded => ∀ cfg' ∈ loaded, cfg' = cfg
  | invalidateCache appID => appID ≠ app
  | cleanup => True

/-- A replacement of the limiter. -/
def ServiceOp.Replaces : ServiceOp → Prop
  | autoReload loaded => loaded.isSome
  | invalidateCache _ => True
  | _ => False

instance replacesDecidable : DecidablePred ServiceOp.Replaces
  | .allow .. => inferInstanceAs (Decidable False)
  | .autoReload loaded => inferInstanceAs (Decidable (loaded.isSome = true))
  | .invalidateCache _ => inferInstanceAs (Decidable True)
  | .cleanup => inferInstanceAs (Decidable False)

/-- The calls without the replacements. -/
def withoutReplacements (calls : List ServiceCall) : List ServiceCall :=
  calls.filter fun call => ¬ call.op.Replaces

/-- An operation removes the bucket of a key. -/
def GlobalRLState.Removes (st : GlobalRLState) (call : ServiceCall) (key : GoString) : Prop :=
  match call.op with
  | .allow appID clientIP userAgent orders =>
    ¬ st.cfg.basic.Off ∧ st.limiter.Removes
      (limiterCall st.cfg.basic call.now orders appID clientIP userAgent) key
  | .autoReload loaded => loaded.isSome
  | .invalidateCache _ => True
  | .cleanup => st.limiter.Removes ⟨call.now, .cleanup⟩ key

/-- The buckets that an operation removes are settled. -/
def GlobalRLState.RemovesSettled (st : GlobalRLState) (call : ServiceCall) : Prop :=
  ∀ key, st.Removes call key → ∀ b ∈ st.limiter.bucket key, b.Settled call.now

/-- The operations of a run remove settled buckets only. -/
def ForgetsSettled : GlobalRLState → List ServiceCall → Prop
  | _, [] => True
  | st, call :: calls => st.RemovesSettled call ∧ ForgetsSettled (st.step call) calls

/-! ### Two runs -/

/-- A moment of two runs: what happens in each of them, if anything does. -/
structure Moment where
  now : ℤ
  first : Option ServiceOp
  second : Option ServiceOp

/-- The calls of one of the runs. -/
def callsOf (side : Moment → Option ServiceOp) (moments : List Moment) : List ServiceCall :=
  moments.filterMap fun m => (side m).map (ServiceCall.mk m.now)

/-- An ordinary moment: each operation is, and a request is made in both runs or in none. -/
structure Moment.Ordinary (cfg : RateLimitConfig) (app : GoString) (m : Moment) : Prop where
  first : ∀ op ∈ m.first, op.Ordinary cfg app
  second : ∀ op ∈ m.second, op.Ordinary cfg app
  request : m.first.bind ServiceOp.request = m.second.bind ServiceOp.request

namespace GlobalRLState

/-- The state after an operation, if there is one. -/
def advance (st : GlobalRLState) (now : ℤ) (op : Option ServiceOp) : GlobalRLState :=
  op.elim st fun op => st.step ⟨now, op⟩

/-- An operation, if there is one, removes the bucket of a key. -/
def Loses (st : GlobalRLState) (now : ℤ) (op : Option ServiceOp) (key : GoString) : Prop :=
  ∃ o ∈ op, st.Removes ⟨now, o⟩ key

/-- The buckets that the first of two states loses, and the second keeps, are settled. -/
def LosesSettled (now : ℤ) (st : GlobalRLState) (op : Option ServiceOp) (st' : GlobalRLState)
    (op' : Option ServiceOp) : Prop :=
  ∀ key, st.Loses now op key → ¬ st'.Loses now op' key →
    ∀ b ∈ st.limiter.bucket key, b.Settled now

end GlobalRLState

/-- In two runs, the buckets that only one of them loses are settled. -/
def ForgetAlike : GlobalRLState → GlobalRLState → List Moment → Prop
  | _, _, [] => True
  | st, st', m :: moments =>
    (GlobalRLState.LosesSettled m.now st m.first st' m.second ∧
      GlobalRLState.LosesSettled m.now st' m.second st m.first) ∧
    ForgetAlike (st.advance m.now m.first) (st'.advance m.now m.second) moments

/-! ### Runs that forget alike -/

variable {cfg : RateLimitConfig} {app : GoString} {moments : List Moment} {m : Moment}
  {call : ServiceCall} {op : Option ServiceOp} {r : ClientRequest} {st st' : GlobalRLState}
  {now later d : ℤ} {orders : ℕ → List GoString} {appID clientIP userAgent key : GoString}

theorem step_allow : st.step ⟨now, .allow appID clientIP userAgent orders⟩ =
    (st.allow now orders appID clientIP userAgent).2 :=
  rfl

theorem result_allow : st.result ⟨now, .allow appID clientIP userAgent orders⟩ =
    some (st.allow now orders appID clientIP userAgent).1 :=
  rfl

/-- A request that is not limited is allowed, and changes nothing. -/
theorem allow_of_off (h : st.cfg.basic.Off) (now : ℤ) (orders : ℕ → List GoString)
    (appID clientIP userAgent : GoString) :
    st.allow now orders appID clientIP userAgent = ((true, .none), st) :=
  if_pos h

/-- A request that is limited calls the limiter. -/
theorem allow_of_on (h : ¬ st.cfg.basic.Off) (now : ℤ) (orders : ℕ → List GoString)
    (appID clientIP userAgent : GoString) :
    let call := GlobalRLState.limiterCall st.cfg.basic now orders appID clientIP userAgent
    st.allow now orders appID clientIP userAgent =
      ((decide (st.limiter.answer call = some true), st.cfg.basic.action),
        { st with limiter := st.limiter.step call }) :=
  if_neg h

omit [Numbers] in
theorem count_pos {basic : RateLimitProfile} (hon : ¬ basic.Off) : 0 < basic.count.toInt := by
  by_contra hneg
  exact hon (.inr (.inl (Int64.le_iff_toInt_le.mpr (not_lt.mp hneg))))

theorem refillRate_nonneg {basic : RateLimitProfile} (hon : ¬ basic.Off) :
    0 ≤ refillRate basic := by
  have hcount : (0 : ℚ) ≤ basic.count.toInt := by exact_mod_cast (count_pos hon).le
  have hduration : (0 : ℚ) ≤ (max basic.duration 1).toInt := by
    have hmax : 0 ≤ (max basic.duration 1).toInt := by
      change 0 ≤ (if basic.duration ≤ 1 then 1 else basic.duration).toInt
      split
      · decide
      · rename_i hlong
        have hlong' := Int64.lt_iff_toInt_lt.mp (Int64.not_le.mp hlong)
        exact (by decide : (0 : ℤ) ≤ (1 : Int64).toInt).trans hlong'.le
    exact_mod_cast hmax
  exact Arithmetic.round_nonneg
    (div_nonneg (Arithmetic.round_nonneg hcount) (Arithmetic.round_nonneg hduration))

/-- A configuration is in force: where it limits anything every bucket has its limits. -/
structure InForce (cfg : RateLimitConfig) (st : GlobalRLState) : Prop where
  cfg_eq : st.cfg = cfg
  has : ¬ cfg.basic.Off → AllHave cfg.basic.count.toInt (refillRate cfg.basic) st.limiter

theorem inForce_of_new (hcfg : st.cfg = cfg) (hnew : st.limiter = newRateLimiter) :
    InForce cfg st where
  cfg_eq := hcfg
  has _ := hnew ▸ allHave_new

/-- An ordinary operation leaves the configuration in force. -/
theorem InForce.step (h : InForce cfg st) (hop : call.op.Ordinary cfg app) :
    InForce cfg (st.step call) := by
  obtain ⟨now, op⟩ := call
  cases op with
  | allow appID clientIP userAgent orders =>
    rw [step_allow]
    by_cases hoff : st.cfg.basic.Off
    · rwa [allow_of_off hoff]
    · rw [allow_of_on hoff]
      obtain ⟨rfl, hhas⟩ := h
      exact ⟨rfl, fun hon => (hhas hon).allow⟩
  | autoReload loaded =>
    cases loaded with
    | none => exact h
    | some loaded => exact inForce_of_new (hop loaded rfl) rfl
  | invalidateCache appID => exact inForce_of_new h.cfg_eq rfl
  | cleanup => exact ⟨h.cfg_eq, fun hon => (h.has hon).cleanup⟩

theorem InForce.advance (h : InForce cfg st) (hop : ∀ o ∈ op, o.Ordinary cfg app) :
    InForce cfg (st.advance now op) := by
  cases op with
  | none => exact h
  | some op => exact h.step (hop op rfl)

/-- **An operation** leaves the buckets alone that it neither asks nor removes. -/
theorem leaves_step (hon : ¬ st.cfg.basic.Off) (hkey : ∀ r ∈ call.op.request, r.key ≠ key) :
    Bucket.Leaves (st.Removes call key) (st.limiter.bucket key)
      ((st.step call).limiter.bucket key) := by
  obtain ⟨now, op⟩ := call
  cases op with
  | allow appID clientIP userAgent orders =>
    have hleaves := RateLimiter.leaves_step (s := st.limiter) (k := key)
      (ne_key now st.cfg.basic.count.toInt (refillRate st.cfg.basic) orders (hkey _ rfl).symm)
    rw [step_allow, allow_of_on hon]
    exact ⟨fun h => hleaves.removes h.2, fun h => hleaves.keeps fun hremoves => h ⟨hon, hremoves⟩⟩
  | autoReload loaded =>
    cases loaded with
    | none => exact ⟨fun h => absurd h (by simp [GlobalRLState.Removes]), fun _ => rfl⟩
    | some loaded => exact ⟨fun _ => bucket_newRateLimiter key, fun h => absurd rfl h⟩
  | invalidateCache appID => exact ⟨fun _ => bucket_newRateLimiter key, fun h => absurd trivial h⟩
  | cleanup =>
    have hnone : (LimiterCall.mk now .cleanup).op.key ≠ some key := by simp [LimiterOp.key]
    exact RateLimiter.leaves_step (s := st.limiter) hnone

theorem leaves_advance (hon : ¬ st.cfg.basic.Off)
    (hkey : ∀ r ∈ op.bind ServiceOp.request, r.key ≠ key) :
    Bucket.Leaves (st.Loses now op key) (st.limiter.bucket key)
      ((st.advance now op).limiter.bucket key) := by
  cases op with
  | none => exact ⟨fun h => absurd h (by simp [GlobalRLState.Loses]), fun _ => rfl⟩
  | some op =>
    have hloses : st.Loses now (some op) key ↔ st.Removes ⟨now, op⟩ key := by
      simp [GlobalRLState.Loses]
    rw [hloses]
    exact leaves_step hon hkey

/-- The results of an operation, if there is one. -/
def resultsAt (st : GlobalRLState) (now : ℤ) (op : Option ServiceOp) : List (Bool × Action) :=
  op.elim [] fun op => (st.result ⟨now, op⟩).toList

theorem results_callsOf_cons (side : Moment → Option ServiceOp) :
    results st (callsOf side (m :: moments)) =
      resultsAt st m.now (side m) ++
        results (st.advance m.now (side m)) (callsOf side moments) := by
  rw [callsOf, List.filterMap_cons]
  cases side m with
  | none => rfl
  | some op => rfl

/-- Without a request there are no results. -/
theorem resultsAt_of_no_request (h : op.bind ServiceOp.request = none) :
    resultsAt st now op = [] := by
  cases op with
  | none => rfl
  | some op =>
    cases op with
    | allow appID clientIP userAgent orders =>
      exact absurd h (by simp [ServiceOp.request])
    | _ => rfl

omit [Numbers] in
/-- The operation of a request. -/
theorem exists_of_request (h : op.bind ServiceOp.request = some r) :
    ∃ orders, op = some (.allow r.appID r.clientIP r.userAgent orders) := by
  obtain ⟨o, rfl, ho⟩ := Option.bind_eq_some_iff.mp h
  cases o with
  | allow appID clientIP userAgent orders =>
    obtain rfl := Option.some.inj ho
    exact ⟨orders, rfl⟩
  | _ => cases ho

/-- **A request** has the result of the bucket that it asks, and leaves it served. -/
theorem advance_request (hon : ¬ st.cfg.basic.Off) (h : op.bind ServiceOp.request = some r) :
    let served := Bucket.serveOrNew st.cfg.basic.count.toInt (refillRate st.cfg.basic) now
      (st.limiter.bucket r.key)
    resultsAt st now op = [(served.1, st.cfg.basic.action)] ∧
      (st.advance now op).limiter.bucket r.key = some served.2 := by
  obtain ⟨orders, rfl⟩ := exists_of_request h
  constructor
  · rw [resultsAt, Option.elim_some, result_allow, allow_of_on hon,
      GlobalRLState.limiterCall, answer_allow, Option.toList_some, ClientRequest.key]
    simp only [Option.some_inj, Bool.decide_eq_true]
  · rw [GlobalRLState.advance, Option.elim_some, step_allow, allow_of_on hon]
    exact bucket_step_allow ..

/-- Two states in which the same configuration is in force, and which no request from a time on
tells apart. -/
structure Twins (cfg : RateLimitConfig) (now : ℤ) (st st' : GlobalRLState) : Prop where
  first : InForce cfg st
  second : InForce cfg st'
  alike : ¬ cfg.basic.Off →
    Alike cfg.basic.count.toInt (refillRate cfg.basic) now st.limiter st'.limiter

theorem Twins.refl (h : InForce cfg st) : Twins cfg now st st :=
  ⟨h, h, fun _ _ => .inl rfl⟩

/-- Time moves on. -/
theorem Twins.mono (h : Twins cfg now st st') (hle : now ≤ later) : Twins cfg later st st' :=
  { h with alike := fun hon => (h.alike hon).mono (refillRate_nonneg hon) hle }

/-- **The results of a moment** are the same in both runs. -/
theorem Twins.resultsAt_eq (h : Twins cfg m.now st st') (hm : m.Ordinary cfg app) :
    resultsAt st m.now m.first = resultsAt st' m.now m.second := by
  obtain ⟨⟨rfl, -⟩, ⟨hcfg, -⟩, halike⟩ := h
  cases hfirst : m.first.bind ServiceOp.request with
  | none =>
    have hsecond := hm.request.symm.trans hfirst
    rw [resultsAt_of_no_request hfirst, resultsAt_of_no_request hsecond]
  | some r =>
    have hsecond := hm.request.symm.trans hfirst
    by_cases hoff : st.cfg.basic.Off
    · obtain ⟨orders, hop⟩ := exists_of_request hfirst
      obtain ⟨orders', hop'⟩ := exists_of_request hsecond
      rw [hop, hop', resultsAt, resultsAt, Option.elim_some, Option.elim_some,
        result_allow, result_allow, allow_of_off hoff, allow_of_off (hcfg ▸ hoff)]
    · rw [(advance_request hoff hfirst).1, (advance_request (hcfg ▸ hoff) hsecond).1, hcfg,
        (halike hoff r.key).serveOrNew_eq]

/-- **A moment** keeps two states alike when what only one of them loses is settled. -/
theorem Twins.advance (h : Twins cfg m.now st st') (hm : m.Ordinary cfg app)
    (hsettled : GlobalRLState.LosesSettled m.now st m.first st' m.second)
    (hsettled' : GlobalRLState.LosesSettled m.now st' m.second st m.first) :
    Twins cfg m.now (st.advance m.now m.first) (st'.advance m.now m.second) := by
  refine ⟨h.first.advance hm.first, h.second.advance hm.second, fun hon key => ?_⟩
  obtain ⟨⟨rfl, hhas⟩, ⟨hcfg, hhas'⟩, halike⟩ := h
  have hon' : ¬ st'.cfg.basic.Off := hcfg ▸ hon
  by_cases hasked : ∃ r ∈ m.first.bind ServiceOp.request, r.key = key
  · -- both runs ask the bucket
    obtain ⟨r, hfirst, rfl⟩ := hasked
    have hsecond := hm.request.symm.trans hfirst
    rw [(advance_request hon hfirst).2, (advance_request hon' hsecond).2, hcfg,
      (halike hon r.key).serveOrNew_eq]
    exact .inl rfl
  · have hfirst : ∀ r ∈ m.first.bind ServiceOp.request, r.key ≠ key :=
      fun r hr heq => hasked ⟨r, hr, heq⟩
    exact (halike hon key).leaves (leaves_advance hon hfirst)
      (leaves_advance hon' (hm.request ▸ hfirst))
      (fun hloses hkeeps b hb => ⟨hhas hon key b hb, hsettled key hloses hkeeps b hb⟩)
      fun hloses hkeeps b hb => ⟨hhas' hon key b hb, hsettled' key hloses hkeeps b hb⟩

/-- **Two runs** from states that are alike have the same results. -/
theorem Twins.results_eq (h : ∀ m ∈ moments, Twins cfg m.now st st')
    (hordinary : ∀ m ∈ moments, m.Ordinary cfg app)
    (hchron : moments.Pairwise fun m later => m.now ≤ later.now)
    (hforget : ForgetAlike st st' moments) :
    results st (callsOf Moment.first moments) = results st' (callsOf Moment.second moments) := by
  induction moments generalizing st st' with
  | nil => rfl
  | cons m moments ih =>
    obtain ⟨hm, hordinary'⟩ := List.forall_mem_cons.mp hordinary
    obtain ⟨hnext, hchron'⟩ := List.pairwise_cons.mp hchron
    obtain ⟨⟨hsettled, hsettled'⟩, hrest⟩ := hforget
    have htwins := h m List.mem_cons_self
    have hafter := htwins.advance hm hsettled hsettled'
    rw [results_callsOf_cons, results_callsOf_cons, htwins.resultsAt_eq hm,
      ih (fun later hmem => hafter.mono (hnext later hmem)) hordinary' hchron' hrest]

/-- **Rate-limit state survives.** Two runs with the same requests, with reloads of the
configuration in force, updates of other applications and clean-ups at any times between them, have
the same results, as long as every bucket that only one of them loses is settled. -/
theorem results_survive (hordinary : ∀ m ∈ moments, m.Ordinary cfg app)
    (hchron : moments.Pairwise fun m later => m.now ≤ later.now)
    (hforget : ForgetAlike (.new cfg) (.new cfg) moments) :
    results (.new cfg) (callsOf Moment.first moments) =
      results (.new cfg) (callsOf Moment.second moments) :=
  Twins.results_eq (fun _ _ => .refl (inForce_of_new rfl rfl)) hordinary hchron hforget

omit [Numbers] in
theorem chronological_callsOf (hchron : moments.Pairwise fun m later => m.now ≤ later.now)
    (side : Moment → Option ServiceOp) : Chronological (callsOf side moments) := by
  refine List.Pairwise.filterMap _ (fun m later hle call hcall call' hcall' => ?_) hchron
  obtain ⟨op, -, rfl⟩ := Option.map_eq_some_iff.mp hcall
  obtain ⟨op', -, rfl⟩ := Option.map_eq_some_iff.mp hcall'
  exact hle

omit [Numbers] in
theorem ordinary_callsOf {side : Moment → Option ServiceOp}
    (hops : ∀ m ∈ moments, ∀ op ∈ side m, op.Ordinary cfg app) :
    ∀ call ∈ callsOf side moments, call.op.Ordinary cfg app := by
  intro call hcall
  obtain ⟨m, hm, hmap⟩ := List.mem_filterMap.mp hcall
  obtain ⟨op, hop, rfl⟩ := Option.map_eq_some_iff.mp hmap
  exact hops m hm op hop

/-- Runs that only lose settled buckets forget alike. -/
theorem forgetAlike_of_forgetsSettled (h : ForgetsSettled st (callsOf Moment.first moments))
    (h' : ForgetsSettled st' (callsOf Moment.second moments)) : ForgetAlike st st' moments := by
  have hsplit (side : Moment → Option ServiceOp) {st : GlobalRLState} {m : Moment}
      {moments : List Moment} (h : ForgetsSettled st (callsOf side (m :: moments))) :
      (∀ key, st.Loses m.now (side m) key → ∀ b ∈ st.limiter.bucket key, b.Settled m.now) ∧
        ForgetsSettled (st.advance m.now (side m)) (callsOf side moments) := by
    rw [callsOf, List.filterMap_cons] at h
    cases hside : side m with
    | none =>
      rw [hside] at h
      exact ⟨fun key hloses => absurd hloses (by simp [GlobalRLState.Loses]), h⟩
    | some op =>
      rw [hside] at h
      refine ⟨fun key hloses => h.1 key ?_, h.2⟩
      simpa [GlobalRLState.Loses] using hloses
  induction moments generalizing st st' with
  | nil => trivial
  | cons m moments ih =>
    obtain ⟨hsettled, hrest⟩ := hsplit Moment.first h
    obtain ⟨hsettled', hrest'⟩ := hsplit Moment.second h'
    exact ⟨⟨fun key hloses _ => hsettled key hloses, fun key hloses _ => hsettled' key hloses⟩,
      ih hrest hrest'⟩

/-! ### Quiet runs -/

variable {calls : List ServiceCall} {names : Finset GoString}

/-- Every replacement of a run comes some time after the requests before it. -/
def Quiet (d : ℤ) (calls : List ServiceCall) : Prop :=
  calls.Pairwise fun earlier call => earlier.op.request.isSome → call.op.Replaces →
    earlier.now + d ≤ call.now

/-- A bucket in a quiet run: no later call comes before its last access, and no replacement before
it was left alone. -/
structure Rests (basic : RateLimitProfile) (d : ℤ) (calls : List ServiceCall) (b : Bucket) :
    Prop where
  tended : b.Tended basic.count.toInt (refillRate basic)
  accessed : ∀ call ∈ calls, b.lastAccess ≤ call.now
  quiet : ∀ call ∈ calls, call.op.Replaces → b.lastAccess + d ≤ call.now

theorem Rests.tail {basic : RateLimitProfile} {b : Bucket} (h : Rests basic d (call :: calls) b) :
    Rests basic d calls b where
  tended := h.tended
  accessed later hmem := h.accessed later (List.mem_cons_of_mem _ hmem)
  quiet later hmem := h.quiet later (List.mem_cons_of_mem _ hmem)

/-- The state in a quiet run: its buckets are left alone, and they are few. -/
structure Calm (cfg : RateLimitConfig) (d : ℤ) (names : Finset GoString) (calls : List ServiceCall)
    (st : GlobalRLState) : Prop where
  cfg_eq : st.cfg = cfg
  rests : ∀ key, ∀ b ∈ st.limiter.bucket key, Rests cfg.basic d calls b
  named : Named names st.limiter

/-- A new limiter is calm. -/
theorem calm_new (hcfg : st.cfg = cfg) (hnew : st.limiter = newRateLimiter) :
    Calm cfg d names calls st where
  cfg_eq := hcfg
  rests key b hb := by
    rw [hnew, bucket_newRateLimiter] at hb
    exact absurd hb (by simp)
  named := hnew ▸ named_new names

/-- **A request** that is limited, in a quiet run. -/
private theorem Calm.allow (h : Calm cfg d names
      (⟨now, .allow appID clientIP userAgent orders⟩ :: calls) st) (hon : ¬ cfg.basic.Off)
    (hkey : bucketKey appID clientIP userAgent ∈ names) (hnext : ∀ later ∈ calls, now ≤ later.now)
    (hquiet : ∀ later ∈ calls, later.op.Replaces → now + d ≤ later.now) :
    Calm cfg d names calls (st.allow now orders appID clientIP userAgent).2 := by
  obtain ⟨rfl, hrests, hnamed⟩ := h
  rw [allow_of_on hon]
  refine ⟨rfl, fun k b hb => ?_, hnamed.step fun key heq => Option.some.inj heq ▸ hkey⟩
  rcases mem_bucket_step_allow hb with hold | rfl
  · exact (hrests k b hold).tail
  · have hserved : ∀ b, Bucket.Tended st.cfg.basic.count.toInt (refillRate st.cfg.basic) b →
        b.lastAccess ≤ now → Rests st.cfg.basic d calls
          (b.serve st.cfg.basic.count.toInt (refillRate st.cfg.basic) now).2 := by
      intro b htended hnow
      obtain ⟨htended', hlast⟩ :=
        Bucket.tended_serve (count_pos hon).le (refillRate_nonneg hon) htended hnow
      exact ⟨htended', by rwa [hlast], by rwa [hlast]⟩
    cases hbucket : st.limiter.bucket (bucketKey appID clientIP userAgent) with
    | none => exact hserved _ (Bucket.tended_new (count_pos hon).le) le_rfl
    | some b =>
      have hold := hrests _ b hbucket
      exact hserved b hold.tended (hold.accessed _ List.mem_cons_self)

/-- **An ordinary operation** of a quiet run leaves the buckets alone, or asks one. -/
private theorem Calm.step (h : Calm cfg d names (call :: calls) st) (hon : ¬ cfg.basic.Off)
    (hop : call.op.Ordinary cfg app) (hkeys : ∀ r ∈ call.op.request, r.key ∈ names)
    (hchron : Chronological (call :: calls)) (hquiet : Quiet d (call :: calls)) :
    Calm cfg d names calls (st.step call) := by
  obtain ⟨now, op⟩ := call
  cases op with
  | allow appID clientIP userAgent orders =>
    exact h.allow hon (hkeys _ rfl) (List.pairwise_cons.mp hchron).1 fun later hmem =>
      (List.pairwise_cons.mp hquiet).1 later hmem rfl
  | autoReload loaded =>
    cases loaded with
    | none => exact ⟨h.cfg_eq, fun k b hb => (h.rests k b hb).tail, h.named⟩
    | some loaded => exact calm_new (hop loaded rfl) rfl
  | invalidateCache appID => exact calm_new h.cfg_eq rfl
  | cleanup =>
    exact ⟨h.cfg_eq, fun k b hb => (h.rests k b (mem_bucket_step_cleanup hb)).tail,
      h.named.step fun key heq => absurd heq (by simp [LimiterOp.key])⟩

/-- In a quiet run the buckets that an operation removes are settled. -/
private theorem Calm.removesSettled (h : Calm cfg d names (call :: calls) st)
    (hon : ¬ cfg.basic.Off) (hfits : Fits names) (hkeys : ∀ r ∈ call.op.request, r.key ∈ names)
    (hrestores : Bucket.Restores cfg.basic.count.toInt (refillRate cfg.basic) d)
    (hd : d ≤ bucketTTL + 1) : st.RemovesSettled call := by
  intro key hremoves b hb
  have hrests := h.rests key b hb
  have hsettled : b.lastAccess + d ≤ call.now → b.Settled call.now :=
    hrests.tended.settled (refillRate_nonneg hon) hrestores
  obtain ⟨now, op⟩ := call
  cases op with
  | allow appID clientIP userAgent orders =>
    exact absurd hremoves.2 (not_removes_of_room (h.named.room hfits (hkeys _ rfl)))
  | autoReload loaded => exact hsettled (hrests.quiet _ List.mem_cons_self hremoves)
  | invalidateCache appID => exact hsettled (hrests.quiet _ List.mem_cons_self trivial)
  | cleanup =>
    obtain ⟨b', hb', hold⟩ := hremoves
    obtain rfl := Option.mem_unique hb hb'
    have hidle : bucketTTL + 1 ≤ now - b.lastAccess := hold
    exact hsettled (show b.lastAccess + d ≤ now by omega)

/-- **Quiet runs** of few clients forget settled buckets only, if the limits restore all of their
tokens in the time for which the clients are quiet. -/
theorem forgetsSettled_of_quiet (hon : ¬ cfg.basic.Off) (hfits : Fits names)
    (hrestores : Bucket.Restores cfg.basic.count.toInt (refillRate cfg.basic) d)
    (hd : d ≤ bucketTTL + 1) (hordinary : ∀ call ∈ calls, call.op.Ordinary cfg app)
    (hkeys : ∀ call ∈ calls, ∀ r ∈ call.op.request, r.key ∈ names) (hchron : Chronological calls)
    (hquiet : Quiet d calls) (h : Calm cfg d names calls st) : ForgetsSettled st calls := by
  induction calls generalizing st with
  | nil => trivial
  | cons call calls ih =>
    obtain ⟨hop, hordinary'⟩ := List.forall_mem_cons.mp hordinary
    obtain ⟨hkey, hkeys'⟩ := List.forall_mem_cons.mp hkeys
    exact ⟨h.removesSettled hon hfits hkey hrestores hd,
      ih hordinary' hkeys' (List.pairwise_cons.mp hchron).2 (List.pairwise_cons.mp hquiet).2
        (h.step hon hop hkey hchron hquiet)⟩

/-- **An update of another application restores every budget.** Whatever the limits are, and
whatever a client has done, its next request is allowed. -/
theorem invalidate_restores (hon : ¬ st.cfg.basic.Off) (other : GoString) :
    ((st.invalidateCache other).allow now orders appID clientIP userAgent).1 =
      (true, st.cfg.basic.action) := by
  have hone : 1 ≤ st.cfg.basic.count.toInt := count_pos hon
  have hanswer : newRateLimiter.answer (GlobalRLState.limiterCall st.cfg.basic now orders appID
      clientIP userAgent) = some true := by
    rw [GlobalRLState.limiterCall, answer_allow, bucket_newRateLimiter, Bucket.serveOrNew_none hone]
  have hon' : ¬ (st.invalidateCache other).cfg.basic.Off := hon
  rw [allow_of_on hon']
  simp only [GlobalRLState.invalidateCache, hanswer, decide_true]

end Operations

/-! ### Runs of the service -/

/-- The numbers of a processor that rounds a product before it is added. -/
@[reducible] def unfused : Numbers :=
  .float64 false

attribute [local instance] unfused

/-- `DefaultRateLimitConfig`. -/
def defaultRateLimitConfig : RateLimitConfig where
  basic := ⟨true, 30, 50, .block, 300⟩
  attack := ⟨true, 60, 40, .block, 300⟩
  error := ⟨false, 60, 15, .challenge, 300⟩
  excludeExtensions := []
  excludePaths := []

/-- One request an hour. -/
def hourlyConfig : RateLimitConfig :=
  { defaultRateLimitConfig with basic := ⟨true, 3600, 1, .block, 300⟩ }

/-- A request of a client to the shop. -/
def shopRequest : ServiceOp :=
  .allow (str "shop") (str "203.0.113.7") (str "curl/8.5.0") fun _ => []

/-- A moment some seconds after the first. -/
def after (seconds : ℤ) (first second : Option ServiceOp) : Moment :=
  ⟨seconds * 1000000000, first, second⟩

/-- Two requests to the shop. In the first run the blog is updated between them, the configuration
is reloaded, and the new limiter has its clean-up; in the second the clean-up comes earlier. -/
def replacedBeside : List Moment :=
  [after 0 (some shopRequest) (some shopRequest),
    after 31 (some (.invalidateCache (str "blog"))) none,
    after 60 (some (.autoReload (some defaultRateLimitConfig))) (some .cleanup),
    after 91 (some .cleanup) none, after 100 (some shopRequest) (some shopRequest)]

/-- A request to the shop, an update of the blog, and another request at once. -/
def blogUpdated : List ServiceCall :=
  [⟨0, shopRequest⟩, ⟨1000000000, .invalidateCache (str "blog")⟩, ⟨1000000000, shopRequest⟩]

/-- In 31 seconds the default limits restore all tokens. -/
theorem restores_default :
    Bucket.Restores defaultRateLimitConfig.basic.count.toInt
      (refillRate defaultRateLimitConfig.basic) 31000000000 := by decide +kernel

/-- Replacements and clean-ups that find the client's tokens restored change no result. -/
theorem results_survive_default :
    results (.new defaultRateLimitConfig) (callsOf Moment.first replacedBeside) =
      results (.new defaultRateLimitConfig) (callsOf Moment.second replacedBeside) := by
  let r : ClientRequest := ⟨str "shop", str "203.0.113.7", str "curl/8.5.0"⟩
  have hon : ¬ defaultRateLimitConfig.basic.Off := by decide
  have hother : str "blog" ≠ str "shop" := by decide
  have hfits : Fits {r.key} := fits_of_card (by rw [Finset.card_singleton]; decide)
  have hfirst : ∀ m ∈ replacedBeside, ∀ op ∈ m.first,
      op.Ordinary defaultRateLimitConfig (str "shop") := by
    simp [replacedBeside, after, shopRequest, ServiceOp.Ordinary, hother]
  have hsecond : ∀ m ∈ replacedBeside, ∀ op ∈ m.second,
      op.Ordinary defaultRateLimitConfig (str "shop") := by
    simp [replacedBeside, after, shopRequest, ServiceOp.Ordinary]
  have hrequests : ∀ m ∈ replacedBeside,
      m.first.bind ServiceOp.request = m.second.bind ServiceOp.request := by decide
  have hchron : replacedBeside.Pairwise fun m later => m.now ≤ later.now := by
    simp [replacedBeside, after]
  -- both runs are quiet, and have one client
  have hforgets (side : Moment → Option ServiceOp) (hops : ∀ m ∈ replacedBeside, ∀ op ∈ side m,
        op.Ordinary defaultRateLimitConfig (str "shop"))
      (hclient : ∀ call ∈ callsOf side replacedBeside, ∀ r' ∈ call.op.request, r' = r)
      (hquiet : Quiet 31000000000 (callsOf side replacedBeside)) :
      ForgetsSettled (.new defaultRateLimitConfig) (callsOf side replacedBeside) :=
    forgetsSettled_of_quiet hon hfits restores_default (by decide) (ordinary_callsOf hops)
      (fun call hcall r' hr' => Finset.mem_singleton.mpr (hclient call hcall r' hr' ▸ rfl))
      (chronological_callsOf hchron side) hquiet (calm_new rfl rfl)
  refine results_survive (fun m hm => ⟨hfirst m hm, hsecond m hm, hrequests m hm⟩) hchron
    (forgetAlike_of_forgetsSettled (hforgets _ hfirst (by decide) ?_)
      (hforgets _ hsecond (by decide) ?_))
  · simp [Quiet, replacedBeside, after, callsOf, shopRequest, ServiceOp.request,
      ServiceOp.Replaces]
  · simp [Quiet, replacedBeside, after, callsOf, shopRequest, ServiceOp.Replaces]

/-- **An update of another application** a second after a request forgets it: the next one is
allowed, and would not be without the update. -/
theorem invalidate_forgets :
    ¬ ∀ (cfg : RateLimitConfig) (app : GoString) (calls : List ServiceCall),
      (∀ call ∈ calls, call.op.Ordinary cfg app) → Chronological calls →
        results (.new cfg) calls = results (.new cfg) (withoutReplacements calls) := by
  intro h
  have hother : str "blog" ≠ str "shop" := by decide
  have hordinary : ∀ call ∈ blogUpdated, call.op.Ordinary hourlyConfig (str "shop") := by
    simp [blogUpdated, shopRequest, ServiceOp.Ordinary, hother]
  have hchron : Chronological blogUpdated := by simp [Chronological, blogUpdated]
  have hsame := h hourlyConfig (str "shop") blogUpdated hordinary hchron
  have hallowed : results (.new hourlyConfig) blogUpdated = [(true, .block), (true, .block)] := by
    decide +kernel
  have hrefused : results (.new hourlyConfig) (withoutReplacements blogUpdated) =
      [(true, .block), (false, .block)] := by decide +kernel
  rw [hallowed, hrefused] at hsame
  exact absurd hsame (by decide)

end VibesWaf.RateLimitService

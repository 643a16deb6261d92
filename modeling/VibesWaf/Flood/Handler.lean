import VibesWaf.Flood.Protector
import VibesWaf.Pipeline.HardDecision

/-!
# The flood handler and its protector

`floodVerdict` takes the answers of the flood protector as given. Here the handler runs on the state
of a protector: it asks whether the address serves a penalty, and then for its attacks, its errors
and its basic requests, and sets a penalty for the first that is over its limit. `handle_eq` says
that it does what `floodHandler` does on the answers of the states it goes through.

A path on the exclusion lists should only be exempt from basic counting. The handler returns before
any of its questions, so `flood_exclusion_iff` holds as far as an address has nothing else against
it.
-/

namespace VibesWaf

open SlidingWindow

/-! ### The handler -/

/-- What the handler runs with: the settings of the rate limiter, the configuration the protector
reads, and the time each of its operations reads. -/
structure FloodEnv where
  rateLimitConfig : RateLimitConfig
  cfg : FloodConfig
  clock : FloodOp → ℤ

namespace FloodEnv

/-- A call of an operation. -/
def call (env : FloodEnv) (o : FloodOp) : FloodCall :=
  ⟨env.cfg, env.clock o, .op o⟩

/-- A question to the protector. -/
def ask (env : FloodEnv) (s : FloodState) (o : FloodOp) : FloodState × Bool :=
  (s.step (env.call o), s.answer (env.call o) = some true)

/-- A question that is put only when its profile is enabled. -/
def askIf (env : FloodEnv) (enabled : Bool) (s : FloodState) (o : FloodOp) : FloodState × Bool :=
  if enabled then env.ask s o else (s, true)

/-- `SetChallenge`. -/
def penalise (env : FloodEnv) (s : FloodState) (ip : GoString) (penalty : Int64) : FloodState :=
  s.step (env.call (.setChallenge ip penalty.toInt))

/-- The questions of `FloodHandler.Handle`, and what it decides on them. -/
def floodCheck (env : FloodEnv) (s : FloodState) (ip : GoString) :
    FloodState × Option (Decision × List Effect) :=
  let cfg := env.rateLimitConfig
  let (s, challenged) := env.ask s (.isChallenged ip)
  if challenged then
    (s, some (newDecision .challenge (str "flood") (str "flood_penalty_active"), []))
  else
    let (s, attackOk) := env.askIf cfg.attack.enabled s (.checkAttackLimit ip)
    if !attackOk then
      (env.penalise s ip (cfg.attack.penaltyOr 5),
        some (newDecision (cfg.attack.actionOr .block) (str "flood") (str "attack_flood_exceeded"),
          [.setChallenge ip (cfg.attack.penaltyOr 5), .recordAttackHit]))
    else
      let (s, errorOk) := env.askIf cfg.error.enabled s (.checkErrorLimit ip)
      if !errorOk then
        (env.penalise s ip (cfg.error.penaltyOr 5),
          some (newDecision (cfg.error.actionOr .challenge) (str "flood")
            (str "error_flood_exceeded"),
            [.setChallenge ip (cfg.error.penaltyOr 5), .recordErrorHit]))
      else
        let (s, basicOk) := env.askIf cfg.basic.enabled s (.checkBasicAccess ip)
        if !basicOk then
          (env.penalise s ip (cfg.basic.penaltyOr 10),
            some (newDecision (cfg.basic.actionOr .challenge) (str "flood")
              (str "basic_access_limit"), [.setChallenge ip (cfg.basic.penaltyOr 10)]))
        else (s, none)

/-- `FloodHandler.Handle`, up to its decision. -/
def floodRuling (env : FloodEnv) (s : FloodState) (ctx : Context) :
    FloodState × Option (Decision × List Effect) :=
  if ctx.bypasses (str "flood") then (s, none)
  else if isExcluded ctx.request.path env.rateLimitConfig then (s, none)
  else env.floodCheck s ctx.clientIP

/-- `FloodHandler.Handle`. -/
def handle (env : FloodEnv) (s : FloodState) (ctx : Context) : FloodState × Context :=
  ((env.floodRuling s ctx).1, ctx.limited (env.floodRuling s ctx).2)

/-! ### The answers of the protector -/

/-- The answers an address gets, in the order of the handler's questions. -/
def answers (env : FloodEnv) (s : FloodState) : FloodProtector where
  isChallenged ip := (env.ask s (.isChallenged ip)).2
  checkAttackLimit ip := (env.ask (env.ask s (.isChallenged ip)).1 (.checkAttackLimit ip)).2
  checkErrorLimit ip :=
    let s := (env.ask s (.isChallenged ip)).1
    let s := (env.askIf env.rateLimitConfig.attack.enabled s (.checkAttackLimit ip)).1
    (env.ask s (.checkErrorLimit ip)).2
  checkBasicAccess ip :=
    let s := (env.ask s (.isChallenged ip)).1
    let s := (env.askIf env.rateLimitConfig.attack.enabled s (.checkAttackLimit ip)).1
    let s := (env.askIf env.rateLimitConfig.error.enabled s (.checkErrorLimit ip)).1
    (env.ask s (.checkBasicAccess ip)).2

theorem askIf_answer (env : FloodEnv) (enabled : Bool) (s : FloodState) (o : FloodOp) :
    (!(env.askIf enabled s o).2) = (enabled && !(env.ask s o).2) := by
  cases enabled <;> rfl

/-- The handler decides as `floodVerdict` on the answers of the protector. -/
theorem floodCheck_verdict (env : FloodEnv) (s : FloodState) (svc : HardRuleServices)
    (hconfig : svc.rateLimitConfig = env.rateLimitConfig) (hflood : svc.flood = env.answers s)
    (ip : GoString) : (env.floodCheck s ip).2 = floodVerdict svc ip := by
  simp only [floodCheck, floodVerdict, hconfig, hflood, answers, askIf_answer]
  split
  · rfl
  split
  · rfl
  split
  · rfl
  split
  · rfl
  · rfl

/-- **The handler on a protector** is the flood handler of phase 1 on its answers. -/
theorem handle_eq (env : FloodEnv) (s : FloodState) (svc : HardRuleServices)
    (hconfig : svc.rateLimitConfig = env.rateLimitConfig) (hflood : svc.flood = env.answers s)
    (ctx : Context) : (env.handle s ctx).2 = floodHandler svc ctx := by
  rw [floodHandler_eq, handle, floodDecision, floodRuling, hconfig]
  split
  · rfl
  split
  · rfl
  · rw [floodCheck_verdict env s svc hconfig hflood]

/-! ### What stands against an address -/

/-- The address serves a penalty. -/
def Penalised (env : FloodEnv) (s : FloodState) (ip : GoString) : Prop :=
  ∃ expiry, (s (shardFor ip)).challenged.lookup ip = some expiry ∧
    env.clock (.isChallenged ip) ≤ expiry

/-- The timestamps of an address, which an expired penalty takes with it. -/
def standing (env : FloodEnv) (s : FloodState) (kind : Offence) (ip : GoString) : List ℤ :=
  if (s (shardFor ip)).Expired (env.clock (.isChallenged ip)) ip then []
  else s.times (.offence kind) ip

/-- The settings for a kind of offence. -/
def profile (env : FloodEnv) : Offence → RateLimitProfile
  | .attack => env.rateLimitConfig.attack
  | .error => env.rateLimitConfig.error

/-- The offences of a kind are counted, and there are too many of them in the window. -/
def OverLimit (env : FloodEnv) (s : FloodState) (kind : Offence) (ip : GoString) : Prop :=
  (env.profile kind).enabled = true ∧
    env.cfg.limit (.offence kind) ≤ (recent (env.cfg.window (.offence kind))
      (env.clock (.checkLimit kind ip)) (env.standing s kind ip)).length

/-- The address serves a penalty, or is over its limit of attacks or of errors. -/
def Offends (env : FloodEnv) (s : FloodState) (ip : GoString) : Prop :=
  env.Penalised s ip ∨ ∃ kind, env.OverLimit s kind ip

theorem ask_isChallenged_iff (env : FloodEnv) (s : FloodState) (ip : GoString) :
    (env.ask s (.isChallenged ip)).2 = true ↔ env.Penalised s ip := by
  change decide (some ((s (shardFor ip)).isChallenged (env.clock (.isChallenged ip)) ip).2 =
    some true) = true ↔ _
  rw [decide_eq_true_eq, Option.some_inj, Penalised, FloodShard.isChallenged]
  cases (s (shardFor ip)).challenged.lookup ip with
  | none => simp
  | some expiry =>
    by_cases hlt : expiry < env.clock (.isChallenged ip)
    · simp [hlt]
    · simpa [hlt] using not_lt.mp hlt

theorem ask_checkLimit_iff (env : FloodEnv) (s : FloodState) (kind : Offence) (ip : GoString) :
    (env.ask s (.checkLimit kind ip)).2 = false ↔
      env.cfg.limit (.offence kind) ≤ (recent (env.cfg.window (.offence kind))
        (env.clock (.checkLimit kind ip)) (s.times (.offence kind) ip)).length := by
  change decide (some (decide (_ < _)) = some true) = false ↔ _
  rw [decide_eq_false_iff_not, Option.some_inj, decide_eq_true_eq, not_lt]
  rfl

/-- After its first question the protector holds what stands against the address. -/
theorem times_ask_isChallenged (env : FloodEnv) (s : FloodState) (kind : Offence)
    (ip : GoString) :
    (env.ask s (.isChallenged ip)).1.times (.offence kind) ip = env.standing s kind ip :=
  (FloodState.times_step_op s _ _ (.isChallenged ip) _).trans
    (FloodShard.times_isChallenged ..)

/-- The question for attacks leaves the errors alone. -/
theorem times_ask_checkAttackLimit (env : FloodEnv) (enabled : Bool) (s : FloodState)
    (ip : GoString) :
    (env.askIf enabled s (.checkAttackLimit ip)).1.times (.offence .error) ip =
      s.times (.offence .error) ip := by
  cases enabled with
  | false => rfl
  | true =>
    refine (FloodState.times_step_op s _ _ (.checkAttackLimit ip) _).trans ?_
    exact (FloodShard.times_store ..).trans (if_neg (by simp))

/-- The handler's question for a kind of offence is answered in the negative when the address is
over its limit. -/
theorem askIf_checkLimit_iff (env : FloodEnv) {s s' : FloodState} {kind : Offence} {ip : GoString}
    (h : s'.times (.offence kind) ip = env.standing s kind ip) :
    (!(env.askIf (env.profile kind).enabled s' (.checkLimit kind ip)).2) = true ↔
      env.OverLimit s kind ip := by
  rw [askIf_answer, Bool.and_eq_true, Bool.not_eq_true', ask_checkLimit_iff, h, OverLimit]

/-! ### Exclusions -/

/-- A ruling on anything but basic requests. -/
def notBasic (ruling : Decision × List Effect) : Bool :=
  ruling.1.reason ≠ str "basic_access_limit"

/-- **The handler's ruling** is on more than basic requests exactly when the address offends. -/
theorem floodCheck_offends (env : FloodEnv) (s : FloodState) (ip : GoString) :
    (env.floodCheck s ip).2.filter notBasic = none ↔ ¬ env.Offends s ip := by
  have hattack := env.askIf_checkLimit_iff (env.times_ask_isChallenged s .attack ip)
  have herror := env.askIf_checkLimit_iff
    ((env.times_ask_checkAttackLimit env.rateLimitConfig.attack.enabled _ ip).trans
      (env.times_ask_isChallenged s .error ip))
  have hoffends : env.Offends s ip ↔
      env.Penalised s ip ∨ env.OverLimit s .attack ip ∨ env.OverLimit s .error ip :=
    or_congr_right ⟨fun ⟨kind, h⟩ => by cases kind <;> simp [h],
      fun h => h.elim (fun h => ⟨_, h⟩) fun h => ⟨_, h⟩⟩
  rw [hoffends, ← env.ask_isChallenged_iff s ip, ← hattack, ← herror]
  have hreason : ∀ action reason (effects : List Effect), reason ≠ str "basic_access_limit" →
      ¬ (some (newDecision action (str "flood") reason, effects)).filter notBasic = none :=
    fun action reason effects hne => by simp [notBasic, newDecision, hne]
  simp only [floodCheck, profile]
  split
  · rename_i hpenalty
    exact iff_of_false (hreason _ _ _ (by decide)) (not_not_intro (.inl hpenalty))
  rename_i hpenalty
  split
  · rename_i hattack
    exact iff_of_false (hreason _ _ _ (by decide)) (not_not_intro (.inr (.inl hattack)))
  rename_i hattack
  split
  · rename_i herror
    exact iff_of_false (hreason _ _ _ (by decide)) (not_not_intro (.inr (.inr herror)))
  rename_i herror
  -- What is left is a ruling on basic requests, or none.
  refine iff_of_true ?_ fun h => h.elim hpenalty fun h => h.elim hattack herror
  split
  · rfl
  · rfl

/-- The same request to another path. -/
def toPath (ctx : Context) (path : GoString) : Context :=
  { ctx with request := { ctx.request with path := path } }

/-- **Exclusions only disable basic counting** exactly when the handler lets the request pass
anyway, or nothing but its basic requests can stand against its address: it gets the ruling it
would get on a path that is not excluded, unless that is on basic requests, and none of these is
counted. -/
theorem flood_exclusion_iff (env : FloodEnv) (s : FloodState) (ctx : Context) (path : GoString)
    (hexcluded : isExcluded ctx.request.path env.rateLimitConfig = true)
    (hother : isExcluded path env.rateLimitConfig = false) :
    ((env.floodRuling s ctx).2 = (env.floodRuling s (toPath ctx path)).2.filter notBasic ∧
      ∀ ip, ((env.floodRuling s ctx).1.times .basic ip).length ≤ (s.times .basic ip).length) ↔
    ctx.bypasses (str "flood") = true ∨ ¬ env.Offends s ctx.clientIP := by
  have hpath : (toPath ctx path).bypasses (str "flood") = ctx.bypasses (str "flood") := rfl
  have hruling : env.floodRuling s ctx = (s, none) := by
    rw [floodRuling, if_pos hexcluded, ite_self]
  rw [hruling, floodRuling, hpath, ← env.floodCheck_offends]
  rw [and_iff_left fun _ => le_rfl]
  by_cases hbypass : ctx.bypasses (str "flood") = true
  · rw [if_pos hbypass]
    exact iff_of_true rfl (.inl hbypass)
  · rw [if_neg hbypass, if_neg (by simp [toPath, hother]), or_iff_right hbypass]
    exact eq_comm

/-- Script files are excluded, and the address serves a penalty. -/
def scriptEnv : FloodEnv where
  rateLimitConfig :=
    { basic := ⟨true, 60, 10, .none, 300⟩
      attack := ⟨true, 300, 5, .none, 300⟩
      error := ⟨true, 60, 10, .none, 300⟩
      excludeExtensions := [str ".js"]
      excludePaths := [] }
  cfg := ⟨10, 60, 5, 300, 10, 60⟩
  clock _ := 0

/-- An address that nothing stands against asks for a script. -/
theorem flood_exclusion_iff_script :
    ((scriptEnv.floodRuling newFloodState (toPath plainVisit.context (str "/app.js"))).2 =
        (scriptEnv.floodRuling newFloodState
          (toPath (toPath plainVisit.context (str "/app.js")) (str "/"))).2.filter notBasic ∧
      ∀ ip, ((scriptEnv.floodRuling newFloodState
          (toPath plainVisit.context (str "/app.js"))).1.times .basic ip).length ≤
        (newFloodState.times .basic ip).length) ↔
    (toPath plainVisit.context (str "/app.js")).bypasses (str "flood") = true ∨
      ¬ scriptEnv.Offends newFloodState (toPath plainVisit.context (str "/app.js")).clientIP :=
  flood_exclusion_iff scriptEnv newFloodState (toPath plainVisit.context (str "/app.js"))
    (str "/") (by decide) (by decide)

/-- An address under a penalty is challenged on the front page and not on an excluded path. -/
theorem flood_exclusion_escapes :
    ¬ ∀ (env : FloodEnv) (s : FloodState) (ctx : Context) (path : GoString),
      isExcluded ctx.request.path env.rateLimitConfig = true →
      isExcluded path env.rateLimitConfig = false →
      (env.floodRuling s ctx).2 = (env.floodRuling s (toPath ctx path)).2.filter notBasic ∧
        ∀ ip, ((env.floodRuling s ctx).1.times .basic ip).length ≤ (s.times .basic ip).length := by
  intro h
  let penalised := scriptEnv.penalise newFloodState plainVisit.clientIP 300
  have hsame := (h scriptEnv penalised (toPath plainVisit.context (str "/app.js")) (str "/")
    (by decide) (by decide)).1
  revert hsame
  decide

end FloodEnv

end VibesWaf

import VibesWaf.Gateway.TrustedProxies
import VibesWaf.Management.Sessions

/-!
# Attempts to log in

Every check of a password has passed the limiter of the attempts to log in, under the address that
`extractIP` finds. Behind a proxy that appends the address of its peer to `X-Forwarded-For` that is
the address of the client, whatever the client has written into the header itself, so
`login_attempts_bounded` bounds the passwords that one client can try, across all requests and
however their calls come.
-/

namespace VibesWaf

open Interleaving Management

variable {cfg : ApiConfig} {m : Management} {activities : ℕ → Activity}
  {log past rest : List (Call Outside AuthAns)} {c : Call Outside AuthAns} {name : LimiterName}

/-! ### A limiter in the log -/

/-- What a call asks of a limiter. -/
def limiterCall (name : LimiterName) (c : Call Outside AuthAns) : Option MemoryCall :=
  match c.op with
  | .allow limiter ip => if limiter = name then some ⟨c.input.now, .allow ip⟩ else none
  | .cleanup limiter => if limiter = name then some ⟨c.input.now, .cleanup⟩ else none
  | _ => none

/-- What a call has heard from a limiter. -/
def limiterVerdict (name : LimiterName) : Call Outside AuthAns → Option (Verdict GoString)
  | ⟨_, o, .allow limiter ip, allowed⟩ => if limiter = name then some ⟨o.now, ip, allowed⟩ else none
  | _ => none

/-- A call is one step of a limiter, if it is any of its business. -/
theorem limiters_respond (bcrypt : Bcrypt) (c : Call Outside AuthAns) (m : Management) :
    (respond bcrypt c.input c.op m).2.limiters name =
      ((limiterCall name c).elim (m.limiters name) (m.limiters name).step) := by
  have hexec : ∀ {α : Type} {done : Except DBError α × Management},
      done.2.limiters = m.limiters → (m.exec c.input done).2.limiters = m.limiters := by
    intro α done h
    rw [exec]
    cases c.input.fault with
    | none => exact h
    | refused => rfl
    | unacknowledged => exact h
  have hinsert : ∀ {o user}, (m.insertUser o user).2.limiters = m.limiters := by
    intro o user
    rw [insertUser]
    split <;> rfl
  have hsession : ∀ {o token id expires},
      (m.insertSession o token id expires).2.limiters = m.limiters := by
    intro o token id expires
    rw [insertSession]
    split <;> rfl
  obtain ⟨i, o, op, answer⟩ := c
  cases op with
  | allow limiter ip =>
    by_cases hname : limiter = name
    · subst hname
      simp [respond, limiterCall, MemoryLimiter.step]
    · simp [respond, limiterCall, hname, Function.update_of_ne (Ne.symm hname)]
  | cleanup limiter =>
    by_cases hname : limiter = name
    · subst hname
      simp [respond, limiterCall, MemoryLimiter.step]
    · simp [respond, limiterCall, hname, Function.update_of_ne (Ne.symm hname)]
  | createUser user => exact congrFun (hexec hinsert) name
  | createSession token id expires => exact congrFun (hexec hsession) name
  | updatePassword id hash => exact congrFun (hexec rfl) name
  | updateLastLogin id => exact congrFun (hexec rfl) name
  | deleteSession token => exact congrFun (hexec rfl) name
  | deleteExpired => exact congrFun (hexec rfl) name
  | setEnabled id enabled => exact congrFun (hexec rfl) name
  | _ => rfl

/-- **A limiter after a log** has seen the calls that are its own. -/
theorem limiters_after (bcrypt : Bcrypt) (m : Management) (log : List (Call Outside AuthAns)) :
    (after (respond bcrypt) m log).limiters name =
      MemoryLimiter.machine.run (m.limiters name) (log.filterMap (limiterCall name)) := by
  induction log using List.reverseRecOn with
  | nil => rfl
  | append_singleton past c ih =>
    rw [after_append, limiters_respond, ih, List.filterMap_append]
    cases hcall : limiterCall name c with
    | none => simp [hcall]
    | some call =>
      rw [List.filterMap_cons_some hcall, List.filterMap_nil, WindowMachine.run_append]
      rfl

/-- **The verdicts of a limiter** are the answers in the log. -/
theorem verdicts_eq (h : ApiHistory cfg m activities log) :
    MemoryLimiter.machine.verdicts (m.limiters name) (log.filterMap (limiterCall name)) =
      log.filterMap (limiterVerdict name) := by
  induction log using List.reverseRecOn with
  | nil => rfl
  | append_singleton past c ih =>
    have hanswer := h.answers past c (List.prefix_refl _)
    rw [List.filterMap_append, List.filterMap_append,
      ← ih (h.of_prefix (List.prefix_append past [c]))]
    obtain ⟨i, o, op, answer⟩ := c
    dsimp only at hanswer
    cases op with
    | allow limiter ip =>
      by_cases hname : limiter = name
      · subst hname
        have hcall : limiterCall limiter ⟨i, o, .allow limiter ip, answer⟩ =
            some ⟨o.now, .allow ip⟩ := if_pos rfl
        have hverdict : limiterVerdict limiter ⟨i, o, .allow limiter ip, answer⟩ =
            some ⟨o.now, ip, answer⟩ := if_pos rfl
        rw [List.filterMap_cons_some hcall, List.filterMap_cons_some hverdict, List.filterMap_nil,
          List.filterMap_nil, WindowMachine.verdicts_append, ← limiters_after cfg.bcrypt m past,
          hanswer]
        rfl
      · have hcall : limiterCall name ⟨i, o, .allow limiter ip, answer⟩ = none := if_neg hname
        have hverdict : limiterVerdict name ⟨i, o, .allow limiter ip, answer⟩ = none :=
          if_neg hname
        rw [List.filterMap_cons_none hcall, List.filterMap_cons_none hverdict, List.filterMap_nil,
          List.filterMap_nil, List.append_nil, List.append_nil]
    | cleanup limiter =>
      have hverdict : limiterVerdict name ⟨i, o, .cleanup limiter, answer⟩ = none := rfl
      rw [List.filterMap_cons_none hverdict, List.filterMap_nil, List.append_nil]
      by_cases hname : limiter = name
      · have hcall : limiterCall name ⟨i, o, .cleanup limiter, answer⟩ =
            some ⟨o.now, .cleanup⟩ := if_pos hname
        rw [List.filterMap_cons_some hcall, List.filterMap_nil, WindowMachine.verdicts_append]
        exact List.append_nil _
      · have hcall : limiterCall name ⟨i, o, .cleanup limiter, answer⟩ = none := if_neg hname
        rw [List.filterMap_cons_none hcall, List.filterMap_nil, List.append_nil]
    | _ =>
      exact (congrArg (MemoryLimiter.machine.verdicts (m.limiters name))
        (List.append_nil _)).trans (List.append_nil _).symm

/-- The times at which a limiter has let an address in. -/
theorem allowedTimes_filterMap (name : LimiterName) (ip : GoString)
    (log : List (Call Outside AuthAns)) :
    Verdict.allowedTimes ip (log.filterMap (limiterVerdict name)) =
      (log.filter fun c => c.event = ⟨.allow name ip, true⟩).map fun c => c.input.now := by
  induction log using List.reverseRecOn with
  | nil => rfl
  | append_singleton past c ih =>
    rw [List.filterMap_append, List.filter_append, List.map_append, ← ih]
    obtain ⟨i, o, op, answer⟩ := c
    cases op with
    | allow limiter ip' =>
      by_cases hname : limiter = name
      · subst hname
        have hverdict : limiterVerdict limiter ⟨i, o, .allow limiter ip', answer⟩ =
            some ⟨o.now, ip', answer⟩ := if_pos rfl
        rw [List.filterMap_cons_some hverdict, List.filterMap_nil, Verdict.allowedTimes_append]
        by_cases hip : ip' = ip
        · subst hip
          cases answer <;> simp [Call.event]
        · simp [Call.event, hip]
      · have hverdict : limiterVerdict name ⟨i, o, .allow limiter ip', answer⟩ = none :=
          if_neg hname
        rw [List.filterMap_cons_none hverdict]
        simp [Call.event, hname]
    | _ =>
      simp only [Call.event, Sigma.mk.injEq, reduceCtorEq, false_and, decide_false,
        List.filter_cons_of_neg, Bool.false_eq_true, not_false_eq_true, List.filter_nil,
        List.map_nil, List.append_nil]
      exact congrArg _ (List.append_nil _)

/-! ### The bound -/

/-- A prefix of what a log asks of a limiter is what a prefix of the log asks. -/
theorem exists_of_limiterCalls {calls : List MemoryCall} {call : MemoryCall}
    (h : calls ++ [call] <+: log.filterMap (limiterCall name)) :
    ∃ past c, past ++ [c] <+: log ∧ past.filterMap (limiterCall name) = calls ∧
      limiterCall name c = some call := by
  obtain ⟨more, hmore⟩ := h
  rw [List.append_assoc, List.singleton_append] at hmore
  obtain ⟨past, later, rfl, hpast, hlater⟩ := List.filterMap_eq_append_iff.mp hmore.symm
  obtain ⟨skipped, c, rest, rfl, hskipped, hc, -⟩ := List.filterMap_eq_cons_iff.mp hlater
  refine ⟨past ++ skipped, c, ⟨rest, by simp⟩, ?_, hc⟩
  rw [List.filterMap_append, hpast, List.filterMap_eq_nil_iff.mpr hskipped, List.append_nil]

/-- **The answers of a limiter** in a log follow its rule, below its key cap. -/
theorem limited_verdicts_of_log (h : ApiHistory cfg m activities log) {limit window : ℤ}
    (hlimiter : m.limiters name = .new limit window)
    (hclock : log.Pairwise fun c later => c.input.now ≤ later.input.now)
    (hroom : ∀ past, past <+: log →
      ((tablesAfter cfg m past).limiters name).hits.size < memoryMaxKeys) :
    Verdict.Limited limit window (log.filterMap (limiterVerdict name)) := by
  have hcall : ∀ c call, limiterCall name c = some call → call.now = c.input.now := by
    intro c call hc
    rw [limiterCall] at hc
    split at hc
    · split at hc
      · rw [← Option.some.inj hc]
      · cases hc
    · split at hc
      · rw [← Option.some.inj hc]
      · cases hc
    · cases hc
  have hchron : MemoryLimiter.Chronological (log.filterMap (limiterCall name)) := by
    refine List.pairwise_filterMap.mpr (hclock.imp fun {c later} hle => ?_)
    intro call hc call' hc'
    rw [hcall c call hc, hcall later call' hc']
    exact hle
  rw [← verdicts_eq h, hlimiter]
  refine MemoryLimiter.limited_verdicts hchron fun calls call hpast _ => ?_
  obtain ⟨past, c, hlog, rfl, -⟩ := exists_of_limiterCalls hpast
  rw [MemoryLimiter.run, ← hlimiter, ← limiters_after cfg.bcrypt]
  exact hroom past ((List.prefix_append _ _).trans hlog)

/-- The proxy in front has appended the address of the client, which is none of its own. -/
def FromClient (cfg : ApiConfig) (ip : GoString) (r : Request) : Prop :=
  ∃ entry, (r.xff = entry ∨ ∃ text, r.xff = text ++ 0x2C :: entry) ∧ 0x2C ∉ entry ∧ entry ≠ [] ∧
    trimSpace entry = ip ∧ isTrusted (RateLimitMiddleware.trusted cfg.trustedProxiesEnv) ip = false

/-- **The address is the client's own**, whatever stands in front of it. -/
theorem extractIP_of_client (htrusted : RateLimitMiddleware.trusted cfg.trustedProxiesEnv ≠ [])
    {ip : GoString} {r : Request} (h : FromClient cfg ip r) :
    RateLimitMiddleware.extractIP cfg.trustedProxiesEnv r = ip := by
  obtain ⟨entry, hxff, hcomma, hne, rfl, hforeign⟩ := h
  have hsplit : ∃ front, r.xff ≠ [] ∧ split r.xff 0x2C = front ++ [entry] := by
    have hentry : split entry 0x2C = [entry] := List.splitOn_eq_singleton hcomma
    rcases hxff with hxff | ⟨text, hxff⟩
    · exact ⟨[], by rwa [hxff], by rw [hxff, hentry]; rfl⟩
    · refine ⟨split text 0x2C, by simp [hxff], ?_⟩
      rw [hxff, ← hentry, split, List.splitOn_append_cons_self]
      rfl
  obtain ⟨front, hxff, hsplit⟩ := hsplit
  have hwalk : walkProxies (RateLimitMiddleware.trusted cfg.trustedProxiesEnv)
      (front ++ [entry]).reverse = some (trimSpace entry) := by
    rw [walkProxies_append ⟨entry, by simp, hforeign⟩]
    simp [walkProxies, hforeign]
  rw [RateLimitMiddleware.extractIP, extractClientIPStatic, if_neg hxff]
  dsimp only
  rw [if_neg htrusted, hsplit, hwalk]
  rfl

/-- The clock of the moves does not go back, so neither does that of the log. -/
theorem clock_of_moves {moves : List (ℕ × Outside)}
    (h : moves.Pairwise fun move later => move.2.now ≤ later.2.now) :
    (apiRun cfg m activities moves).log.Pairwise fun c later => c.input.now ≤ later.input.now := by
  have hmoves : (moves.map Prod.snd).Pairwise fun o later => o.now ≤ later.now := by
    rwa [List.pairwise_map]
  have hinputs := hmoves.sublist (inputs_sublist (respond cfg.bcrypt) m
    (fun i => (activities i).program cfg) moves)
  rwa [List.pairwise_map] at hinputs

/-- **Tried passwords are counted.** In every run, a request that checks a password was let in for
it by the limiter, under the address of its client; it checks no other; and in every window, at
whatever time it begins, a client is let in at most as often as the limit says. -/
theorem login_attempts_bounded {limit window : ℤ} (hlimiter : m.limiters .login = .new limit window)
    (htrusted : RateLimitMiddleware.trusted cfg.trustedProxiesEnv ≠ [])
    {moves : List (ℕ × Outside)}
    (hclock : moves.Pairwise fun move later => move.2.now ≤ later.2.now)
    (hroom : ∀ past, past <+: (apiRun cfg m activities moves).log →
      ((tablesAfter cfg m past).limiters .login).hits.size < memoryMaxKeys) :
    let log := (apiRun cfg m activities moves).log
    (∀ past d rest text, log = past ++ d :: rest → d.op = .findByUsernameOrEmail text →
      ∃ r, activities d.thread = .request r ∧ (∀ e ∈ callsOf d.thread past, e.1.IsLookup = false) ∧
        ∀ ip, FromClient cfg ip r.toRequest →
          ∃ c ∈ past, c.thread = d.thread ∧ c.event = ⟨.allow .login ip, true⟩) ∧
    ∀ ip start, ((log.filter fun c => c.event = ⟨.allow .login ip, true⟩ ∧
      start ≤ c.input.now ∧ c.input.now < start + window).length : ℤ) ≤ max limit 0 := by
  have h := apiRun_isHistory cfg m activities moves
  dsimp only
  constructor
  · intro past d rest text hlog hop
    obtain ⟨r, hr, hallowed, hnone⟩ := h.request_entitled hlog hop rfl
    refine ⟨r, hr, hnone, fun ip hip => ?_⟩
    rw [extractIP_of_client htrusted hip] at hallowed
    obtain ⟨before, c, later, rfl, hthread, hevent⟩ := exists_call_of_mem hallowed
    exact ⟨c, by simp, hthread, hevent⟩
  · intro ip start
    have hlimited := limited_verdicts_of_log h hlimiter (clock_of_moves hclock) hroom
    have hbound := hlimited.length_le ip start
    rw [allowedTimes_filterMap, List.filter_map, List.length_map, List.filter_filter] at hbound
    refine le_of_eq_of_le (congrArg _ (congrArg _ (List.filter_congr fun c _ => ?_))) hbound
    rw [Bool.eq_iff_iff]
    simp only [Function.comp_apply, Bool.and_eq_true, decide_eq_true_eq]
    tauto

/-- One client logs in and tries once more, from behind the proxy. -/
def attemptActivities : ℕ → Activity
  | 0 => .request (apiCall "POST" "/api/v1/auth/login" [])
  | 1 => .request (apiCall "POST" "/api/v1/auth/login" [])
  | _ => .limiterCleanup .login

/-- Two requests, and a clean-up of the limiter between their calls. -/
def attemptMoves : List (ℕ × Outside) :=
  [0, 0, 1, 0, 1, 2, 1, 0, 1, 0].mapIdx fun n i => (i, ⟨n, .none, 0, List.replicate 32 n.toUInt8⟩)

/-- The calls of both. -/
def attemptLog : List (Call Outside AuthAns) :=
  (apiRun sampleConfig sampleTables attemptActivities attemptMoves).log

theorem login_attempts_bounded_two :
    (∀ past d rest text, attemptLog = past ++ d :: rest → d.op = .findByUsernameOrEmail text →
      ∃ r, attemptActivities d.thread = .request r ∧
        (∀ e ∈ callsOf d.thread past, e.1.IsLookup = false) ∧
        ∀ ip, FromClient sampleConfig ip r.toRequest →
          ∃ c ∈ past, c.thread = d.thread ∧ c.event = ⟨.allow .login ip, true⟩) ∧
    ∀ ip start, ((attemptLog.filter fun c => c.event = ⟨.allow .login ip, true⟩ ∧
      start ≤ c.input.now ∧ c.input.now < start + 60000000).length : ℤ) ≤ max 5 0 := by
  have hroom : ∀ n < 11, ((tablesAfter sampleConfig sampleTables (attemptLog.take n)).limiters
      .login).hits.size < memoryMaxKeys := by
    decide +kernel
  refine login_attempts_bounded rfl (by decide) (by decide +kernel) fun past hpast => ?_
  have htake : past = attemptLog.take past.length := List.prefix_iff_eq_take.mp hpast
  have hlength : attemptLog.length = 10 := by decide +kernel
  rw [htake]
  exact hroom past.length (by have := hpast.length_le; rw [← attemptLog, hlength] at this; omega)

end VibesWaf

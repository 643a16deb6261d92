import VibesWaf.Flood.Protector
import VibesWaf.RateLimit.Memory

/-!
# Sliding-window limits

`CheckBasicAccess` and `MemoryLimiter.Allow` are two spellings of one rule: a request is refused
when as many requests as the limit were allowed in the window that ends at it. They differ in what
they keep of a refusal, and both drop timestamps between requests, in place or by their clean-up.
`window_bounded` is the rule, and the bound that follows from it, for both.
-/

namespace VibesWaf

open SlidingWindow

namespace FloodState

/-- The flood protector as a machine that answers the calls of `CheckBasicAccess`. -/
def basicMachine : WindowMachine FloodState FloodCall GoString where
  step := step
  now := FloodCall.now
  verdict s call :=
    match call.event with
    | .op (.checkBasicAccess ip) => (s.answer call).map fun allowed => (ip, allowed)
    | _ => none
  stored s ip := s.times .basic ip

/-- The answers of a new protector to some calls of `CheckBasicAccess`. -/
def basicVerdicts (calls : List FloodCall) : List (Verdict GoString) :=
  basicMachine.verdicts newFloodState calls

/-- A call of `CheckBasicAccess` or the clean-up, with a limit and a window. -/
structure BasicCall (limit window : ℤ) (call : FloodCall) : Prop where
  event : call.event = .cleanup ∨ ∃ ip, call.event = .op (.checkBasicAccess ip)
  limit_eq : call.cfg.basicLimit = limit
  window_eq : call.cfg.basicWindow = window

/-- The key cap is not reached at a call. -/
def BasicRoom (s : FloodState) (call : FloodCall) : Prop :=
  ∀ ip, call.event = .op (.checkBasicAccess ip) → ¬ (s (shardFor ip)).Full .basic

variable {s : FloodState} {call : FloodCall} {cfg : FloodConfig} {now : ℤ} {sh : FloodShard}
  {ip k : GoString}

/-- A request is refused when the limit is reached. -/
theorem checkBasicAccess_snd (cfg : FloodConfig) (now : ℤ) (sh : FloodShard) (ip : GoString) :
    (sh.checkBasicAccess cfg now ip).2 = false ↔
      cfg.basicLimit ≤ (recent cfg.basicWindow now (sh.times .basic ip)).length := by
  simp only [FloodShard.checkBasicAccess]
  split
  · exact iff_of_true rfl ‹_›
  -- below the limit the request is allowed, recorded or not
  split
  · exact iff_of_false (by simp) ‹_›
  · exact iff_of_false (by simp) ‹_›

/-- **A request** that is allowed is stored under its address, below the key cap. -/
theorem sameRecent_checkBasicAccess (hroom : ¬ sh.Full .basic) (cfg : FloodConfig) (now : ℤ)
    (ip k : GoString) :
    SameRecent cfg.basicWindow now ((sh.checkBasicAccess cfg now ip).1.times .basic k)
      (sh.times .basic k ++
        if (sh.checkBasicAccess cfg now ip).2 = true ∧ ip = k then [now] else []) := by
  have hcap : ¬ (sh.Full .basic ∧ recent cfg.basicWindow now (sh.times .basic ip) = []) :=
    fun hfull => hroom hfull.1
  by_cases hk : k = ip
  · subst hk
    by_cases hlimit : cfg.basicLimit ≤ (recent cfg.basicWindow now (sh.times .basic k)).length
    -- a refusal stores what is left in the window
    · have hrefused : sh.checkBasicAccess cfg now k =
          (sh.store .basic k (recent cfg.basicWindow now (sh.times .basic k)), false) :=
        if_pos hlimit
      rw [hrefused, FloodShard.times_store, if_pos ⟨rfl, rfl⟩, if_neg (by simp), List.append_nil]
      exact sameRecent_recent _ _ _
    · have hallowed : sh.checkBasicAccess cfg now k =
          (sh.store .basic k (recent cfg.basicWindow now (sh.times .basic k) ++ [now]), true) := by
        simp only [FloodShard.checkBasicAccess, if_neg hlimit, if_neg hcap]
      rw [hallowed, FloodShard.times_store, if_pos ⟨rfl, rfl⟩, if_pos ⟨rfl, rfl⟩]
      exact (sameRecent_recent _ _ _).append [now]
  · have hframe := (FloodShard.apply_frame cfg now sh (o := .checkBasicAccess ip) hk .basic).1
    have hkeep : (sh.checkBasicAccess cfg now ip).1.times .basic k = sh.times .basic k := hframe
    rw [hkeep, if_neg fun hand => hk hand.2.symm, List.append_nil]
    exact SameRecent.refl _ _ _

/-- **One call** below the key cap is judged by what is stored, and stored when it is allowed. -/
theorem faithful_step {limit window : ℤ} (hcall : BasicCall limit window call)
    (hroom : s.BasicRoom call) : basicMachine.Faithful limit window s call := by
  obtain ⟨hevent, rfl, rfl⟩ := hcall
  obtain ⟨cfg, now, event⟩ := call
  rcases hevent with hcleanup | ⟨ip, haccess⟩
  · obtain rfl : event = .cleanup := hcleanup
    refine ⟨fun key allowed h => absurd h (by simp [basicMachine]), fun key => ?_⟩
    change SameRecent cfg.basicWindow now (((s (shardFor key)).cleanup cfg now).times .basic key)
      (s.times .basic key ++ [])
    rw [FloodShard.times_cleanup, List.append_nil]
    exact sameRecent_recent _ _ _
  · obtain rfl : event = .op (.checkBasicAccess ip) := haccess
    have hstep : ∀ k, s.step ⟨cfg, now, .op (.checkBasicAccess ip)⟩ (shardFor k) =
        if shardFor k = shardFor ip then ((s (shardFor k)).checkBasicAccess cfg now ip).1
        else s (shardFor k) := fun k => step_op s cfg now (.checkBasicAccess ip) (shardFor k)
    constructor
    · rintro key allowed h
      obtain ⟨rfl, rfl⟩ := Prod.ext_iff.mp (Option.some.inj h)
      exact checkBasicAccess_snd cfg now (s (shardFor ip)) ip
    · intro k
      rw [WindowMachine.allows_of_verdict (m := basicMachine) (s := s)
        (e := ⟨cfg, now, .op (.checkBasicAccess ip)⟩) rfl k]
      change SameRecent cfg.basicWindow now ((s.step _ (shardFor k)).times .basic k)
        ((s (shardFor k)).times .basic k ++ _)
      by_cases hshard : shardFor k = shardFor ip
      · rw [hstep, if_pos hshard, hshard]
        exact sameRecent_checkBasicAccess (hroom ip rfl) cfg now ip k
      · have hk : ¬ ip = k := fun heq => hshard (congrArg shardFor heq.symm)
        rw [hstep, if_neg hshard, if_neg fun hand => hk hand.2, List.append_nil]
        exact SameRecent.refl _ _ _

/-- **The verdicts of the protector** follow its rule, as long as the key cap is not reached. -/
theorem limited_basicVerdicts {limit window : ℤ} {calls : List FloodCall}
    (hcalls : ∀ call ∈ calls, BasicCall limit window call) (hchron : Chronological calls)
    (hroom : ∀ past call, past ++ [call] <+: calls → (run past).BasicRoom call) :
    Verdict.Limited limit window (basicVerdicts calls) :=
  WindowMachine.limited_verdicts hchron (fun _ => rfl) fun past call hpast =>
    faithful_step (hcalls call (mem_of_snoc hpast)) (hroom past call hpast)

end FloodState

/-! ### The claim of both -/

/-- Verdicts that follow the rule, and at most as many allowed questions about a key in every window
as the limit says. A negative limit allows none. -/
def Verdict.Bounded (limit window : ℤ) (verdicts : List (Verdict GoString)) : Prop :=
  Limited limit window verdicts ∧
    ∀ key start, (((allowedTimes key verdicts).filter fun t =>
      start ≤ t ∧ t < start + window).length : ℤ) ≤ max limit 0

/-- **Sliding windows.** With a constant limit and window and below the key cap, the flood protector
and the sliding-window limiter refuse a request exactly when the limit is reached by the allowed
requests in the window that ends at it, and allow in every window at most as many as it says. -/
theorem window_bounded :
    (∀ (limit window : ℤ) (calls : List FloodCall),
      (∀ call ∈ calls, FloodState.BasicCall limit window call) → Chronological calls →
      (∀ past call, past ++ [call] <+: calls → (FloodState.run past).BasicRoom call) →
        Verdict.Bounded limit window (FloodState.basicVerdicts calls)) ∧
    ∀ (limit window : ℤ) (calls : List MemoryCall),
      MemoryLimiter.Chronological calls →
      (∀ past call, past ++ [call] <+: calls →
        (MemoryLimiter.run limit window past).Room call) →
        Verdict.Bounded limit window (MemoryLimiter.verdicts limit window calls) := by
  constructor
  · intro limit window calls hcalls hchron hroom
    have hlimited := FloodState.limited_basicVerdicts hcalls hchron hroom
    exact ⟨hlimited, hlimited.length_le⟩
  · intro limit window calls hchron hroom
    have hlimited := MemoryLimiter.limited_verdicts hchron hroom
    exact ⟨hlimited, hlimited.length_le⟩

/-- Two requests in ten nanoseconds. -/
def twoInTen : FloodConfig :=
  ⟨2, 10, 2, 10, 2, 10⟩

/-- Three requests, of which the last is refused, the clean-up, and one when the first has left the
window. -/
def pagesCalls : List FloodCall :=
  [⟨twoInTen, 0, .op (.checkBasicAccess (str "203.0.113.7"))⟩,
    ⟨twoInTen, 1, .op (.checkBasicAccess (str "203.0.113.7"))⟩,
    ⟨twoInTen, 2, .op (.checkBasicAccess (str "203.0.113.7"))⟩,
    ⟨twoInTen, 9, .cleanup⟩,
    ⟨twoInTen, 10, .op (.checkBasicAccess (str "203.0.113.7"))⟩]

/-- The same, as attempts to log in. -/
def loginCalls : List MemoryCall :=
  [⟨0, .allow (str "203.0.113.7")⟩, ⟨1, .allow (str "203.0.113.7")⟩,
    ⟨2, .allow (str "203.0.113.7")⟩, ⟨9, .cleanup⟩, ⟨10, .allow (str "203.0.113.7")⟩]

theorem window_bounded_five :
    Verdict.Bounded 2 10 (FloodState.basicVerdicts pagesCalls) ∧
      Verdict.Bounded 2 10 (MemoryLimiter.verdicts 2 10 loginCalls) := by
  constructor
  · refine window_bounded.1 2 10 pagesCalls ?_ (by decide) (forall_snoc ?_)
    · simp only [pagesCalls, List.forall_mem_cons]
      exact ⟨⟨.inr ⟨_, rfl⟩, rfl, rfl⟩, ⟨.inr ⟨_, rfl⟩, rfl, rfl⟩, ⟨.inr ⟨_, rfl⟩, rfl, rfl⟩,
        ⟨.inl rfl, rfl, rfl⟩, ⟨.inr ⟨_, rfl⟩, rfl, rfl⟩, by simp⟩
    · intro i hi ip hevent
      have hcap : ∀ i < 5, ¬ (FloodState.run (pagesCalls.take i)
          (shardFor (str "203.0.113.7"))).Full .basic := by decide
      have hip : ∀ call ∈ pagesCalls, ∀ ip, call.event = .op (.checkBasicAccess ip) →
          ip = str "203.0.113.7" := by
        simp [pagesCalls]
      obtain rfl := hip _ (List.getElem_mem hi) ip hevent
      exact hcap i hi
  · refine window_bounded.2 2 10 loginCalls ?_ (forall_snoc ?_)
    · simp [MemoryLimiter.Chronological, loginCalls]
    · intro i hi _
      have hcap : ∀ i < 5, (MemoryLimiter.run 2 10 (loginCalls.take i)).hits.size <
          memoryMaxKeys := by decide
      exact hcap i hi

example : (MemoryLimiter.verdicts 2 10 loginCalls).map (·.allowed) = [true, true, false, true] := by
  decide

end VibesWaf

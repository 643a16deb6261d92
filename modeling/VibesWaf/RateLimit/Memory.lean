import VibesWaf.Go.Strings
import VibesWaf.Lib.WindowLimit

/-!
# The sliding-window limiter

`MemoryLimiter` limits the requests to the API, and the attempts to log in, by address. It stores
the times of the requests it has allowed, and refuses one when as many as the limit lie in the
window that ends at it; a refusal stores nothing. The clean-up drops what has left the window. With
`memoryMaxKeys` keys the limiter lets a new address through without storing anything.
-/

namespace VibesWaf

open SlidingWindow

/-- `memoryMaxKeys`. -/
def memoryMaxKeys : ℕ :=
  100000

/-- `MemoryLimiter`. -/
structure MemoryLimiter where
  hits : FiniteMap GoString (List ℤ)
  limit : ℤ
  window : ℤ

/-- The operations of the limiter. -/
inductive MemoryOp
  | allow (key : GoString)
  | cleanup
  deriving DecidableEq

/-- An operation, at a time. -/
structure MemoryCall where
  now : ℤ
  op : MemoryOp
  deriving DecidableEq

namespace MemoryLimiter

/-- `NewMemory`. -/
def new (limit window : ℤ) : MemoryLimiter :=
  ⟨.empty, limit, window⟩

/-- The timestamps of a key. -/
def timestamps (m : MemoryLimiter) (key : GoString) : List ℤ :=
  (m.hits.lookup key).getD []

/-- `Allow`. -/
def allow (now : ℤ) (key : GoString) (m : MemoryLimiter) : Bool × MemoryLimiter :=
  let filtered := recent m.window now (m.timestamps key)
  if m.limit ≤ filtered.length then (false, m)
  else if memoryMaxKeys ≤ m.hits.size ∧ filtered = [] then (true, m)
  else (true, { m with hits := m.hits.insert key (filtered ++ [now]) })

/-- `cleanup`. -/
def cleanup (now : ℤ) (m : MemoryLimiter) : MemoryLimiter :=
  { m with
    hits := m.hits.filterMap fun _ ts =>
      let keep := recent m.window now ts
      if keep = [] then none else some keep }

/-- One call. -/
def step (m : MemoryLimiter) (call : MemoryCall) : MemoryLimiter :=
  match call.op with
  | .allow key => (m.allow call.now key).2
  | .cleanup => m.cleanup call.now

/-- The limiter as a machine that answers the calls of `Allow`. -/
def machine : WindowMachine MemoryLimiter MemoryCall GoString where
  step := step
  now := MemoryCall.now
  verdict m call :=
    match call.op with
    | .allow key => some (key, (m.allow call.now key).1)
    | .cleanup => none
  stored := timestamps

/-- A new limiter after some calls. -/
def run (limit window : ℤ) (calls : List MemoryCall) : MemoryLimiter :=
  machine.run (.new limit window) calls

/-- The times of some calls do not decrease. -/
def Chronological (calls : List MemoryCall) : Prop :=
  calls.Pairwise fun call later => call.now ≤ later.now

/-- The answers of a new limiter to some calls. -/
def verdicts (limit window : ℤ) (calls : List MemoryCall) : List (Verdict GoString) :=
  machine.verdicts (.new limit window) calls

/-- The key cap is not reached at a call. -/
def Room (m : MemoryLimiter) (call : MemoryCall) : Prop :=
  call.op ≠ .cleanup → m.hits.size < memoryMaxKeys

variable {m : MemoryLimiter} {call : MemoryCall} {key k : GoString} {now : ℤ}

/-- The limit and the window stay what they are. -/
theorem settings_step (m : MemoryLimiter) (call : MemoryCall) :
    (m.step call).limit = m.limit ∧ (m.step call).window = m.window := by
  obtain ⟨now, op⟩ := call
  cases op with
  | cleanup => exact ⟨rfl, rfl⟩
  | allow key =>
    simp only [step, allow]
    split
    · exact ⟨rfl, rfl⟩
    split
    · exact ⟨rfl, rfl⟩
    · exact ⟨rfl, rfl⟩

theorem settings_run (limit window : ℤ) (calls : List MemoryCall) :
    (run limit window calls).limit = limit ∧ (run limit window calls).window = window := by
  induction calls using List.reverseRecOn with
  | nil => exact ⟨rfl, rfl⟩
  | append_singleton past call ih =>
    obtain ⟨hlimit, hwindow⟩ := settings_step (run limit window past) call
    rw [run, WindowMachine.run_append]
    exact ⟨hlimit.trans ih.1, hwindow.trans ih.2⟩

/-- A request is refused when the limit is reached. -/
theorem allow_fst (m : MemoryLimiter) (now : ℤ) (key : GoString) :
    (m.allow now key).1 = false ↔ m.limit ≤ (recent m.window now (m.timestamps key)).length := by
  simp only [allow]
  split
  · exact iff_of_true rfl ‹_›
  -- below the limit the request is allowed, recorded or not
  split
  · exact iff_of_false (by simp) ‹_›
  · exact iff_of_false (by simp) ‹_›

/-- **A request** that is allowed is stored under its key, below the key cap. -/
theorem sameRecent_allow (hroom : m.hits.size < memoryMaxKeys) (now : ℤ) (key k : GoString) :
    SameRecent m.window now ((m.allow now key).2.timestamps k)
      (m.timestamps k ++ if (m.allow now key).1 = true ∧ key = k then [now] else []) := by
  have hcap : ¬ (memoryMaxKeys ≤ m.hits.size ∧ recent m.window now (m.timestamps key) = []) :=
    fun hfull => absurd hfull.1 (not_le.mpr hroom)
  by_cases hlimit : m.limit ≤ (recent m.window now (m.timestamps key)).length
  · have hrefused : m.allow now key = (false, m) := if_pos hlimit
    rw [hrefused, if_neg (by simp), List.append_nil]
    exact SameRecent.refl _ _ _
  · have hallowed : m.allow now key = (true, { m with
        hits := m.hits.insert key (recent m.window now (m.timestamps key) ++ [now]) }) := by
      simp only [allow, if_neg hlimit, if_neg hcap]
    rw [hallowed, timestamps, FiniteMap.lookup_insert]
    by_cases hk : k = key
    · subst hk
      rw [if_pos rfl, if_pos ⟨rfl, rfl⟩, Option.getD_some]
      exact (sameRecent_recent _ _ _).append [now]
    · rw [if_neg hk, if_neg fun hand => hk hand.2.symm, List.append_nil]
      exact SameRecent.refl _ _ _

/-- **One call** below the key cap is judged by what is stored, and stored when it is allowed. -/
theorem faithful_step (hroom : m.Room call) : machine.Faithful m.limit m.window m call := by
  obtain ⟨now, op⟩ := call
  cases op with
  | cleanup =>
    refine ⟨fun key allowed h => absurd h (by simp [machine]), fun key => ?_⟩
    have hkept : (m.cleanup now).timestamps key = recent m.window now (m.timestamps key) :=
      getD_lookup_filterMap_recent m.window now m.hits key
    change SameRecent m.window now ((m.cleanup now).timestamps key) (m.timestamps key ++ [])
    rw [hkept, List.append_nil]
    exact sameRecent_recent _ _ _
  | allow key =>
    constructor
    · rintro key' allowed h
      obtain ⟨rfl, rfl⟩ := Prod.ext_iff.mp (Option.some.inj h)
      exact allow_fst m now key
    · intro k
      rw [WindowMachine.allows_of_verdict (m := machine) (s := m) (e := ⟨now, .allow key⟩) rfl k]
      exact sameRecent_allow (hroom (by simp)) now key k

/-- **The verdicts of the limiter** follow its rule, as long as the key cap is not reached. -/
theorem limited_verdicts {limit window : ℤ} {calls : List MemoryCall}
    (hchron : Chronological calls)
    (hroom : ∀ past call, past ++ [call] <+: calls → (run limit window past).Room call) :
    Verdict.Limited limit window (verdicts limit window calls) := by
  refine WindowMachine.limited_verdicts hchron (fun _ => rfl) fun past call hpast => ?_
  have hfaithful := faithful_step (hroom past call hpast)
  rwa [(settings_run limit window past).1, (settings_run limit window past).2] at hfaithful

end MemoryLimiter

end VibesWaf

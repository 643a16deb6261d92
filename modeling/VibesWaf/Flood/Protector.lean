import Mathlib.Data.Finset.BooleanAlgebra
import Mathlib.Logic.Function.Basic
import VibesWaf.Go.Strings
import VibesWaf.Lib.FiniteMap
import VibesWaf.Lib.SlidingWindow

/-!
# The flood protector

The protector counts, address by address, basic requests, attacks and errors, and remembers which
addresses serve a penalty. Its state is cut into 256 shards by a hash of the address; a shard holds
three maps of timestamps and a map of penalty expiries. An operation locks one shard and reads the
configuration and the clock once, so a run of the protector is a list of calls, each with what it
read; the clean-up that a ticker starts goes over all shards and is a call as well.

Times and durations are integers (nanoseconds). A map of the source answers an absent key with an
empty slice: `FloodShard.times`. What one operation does to one address is said once, in
`FloodShard.apply_frame` for the others and in the `times_*` lemmas for its own.
-/

namespace VibesWaf

open SlidingWindow

/-! ### The state -/

/-- The two kinds of misbehaviour that are recorded after the fact. -/
inductive Offence
  | attack
  | error
  deriving DecidableEq

/-- What an address is counted for: `basicAccess`, `attackCount` and `errorCount`. -/
inductive Counter
  | basic
  | offence (kind : Offence)
  deriving DecidableEq

/-- `FloodConfig`. -/
structure FloodConfig where
  basicLimit : ℤ
  basicWindow : ℤ
  attackLimit : ℤ
  attackWindow : ℤ
  errorLimit : ℤ
  errorWindow : ℤ
  deriving DecidableEq

/-- The limit of a counter. -/
def FloodConfig.limit (cfg : FloodConfig) : Counter → ℤ
  | .basic => cfg.basicLimit
  | .offence .attack => cfg.attackLimit
  | .offence .error => cfg.errorLimit

/-- The window of a counter. -/
def FloodConfig.window (cfg : FloodConfig) : Counter → ℤ
  | .basic => cfg.basicWindow
  | .offence .attack => cfg.attackWindow
  | .offence .error => cfg.errorWindow

/-- `floodMaxKeysPerShard`. -/
def floodMaxKeysPerShard : ℕ :=
  50000 / 256

/-- `floodShard`: the timestamps of each counter, and when the penalties expire. -/
structure FloodShard where
  counts : Counter → FiniteMap GoString (List ℤ)
  challenged : FiniteMap GoString ℤ

/-- `newFloodShard`. -/
def newFloodShard : FloodShard :=
  ⟨fun _ => .empty, .empty⟩

/-- `FloodProtector.shards`. -/
abbrev FloodState := Fin 256 → FloodShard

/-- `shardFor`. -/
def shardFor (ip : GoString) : Fin 256 :=
  ⟨(fnv32a ip).toNat % 256, Nat.mod_lt _ (by decide)⟩

/-- `NewFloodProtector`. -/
def newFloodState : FloodState :=
  fun _ => newFloodShard

/-! ### The operations on a shard -/

namespace FloodShard

/-- The timestamps of an address. -/
def times (sh : FloodShard) (c : Counter) (ip : GoString) : List ℤ :=
  ((sh.counts c).lookup ip).getD []

/-- A shard with other timestamps for an address. -/
def store (sh : FloodShard) (c : Counter) (ip : GoString) (ts : List ℤ) : FloodShard :=
  { sh with counts := Function.update sh.counts c ((sh.counts c).insert ip ts) }

/-- A counter holds as many addresses as it may. -/
def Full (sh : FloodShard) (c : Counter) : Prop :=
  floodMaxKeysPerShard ≤ (sh.counts c).size

instance (sh : FloodShard) (c : Counter) : Decidable (sh.Full c) :=
  inferInstanceAs (Decidable (_ ≤ _))

/-- `CheckBasicAccess`. -/
def checkBasicAccess (cfg : FloodConfig) (now : ℤ) (sh : FloodShard) (ip : GoString) :
    FloodShard × Bool :=
  let kept := recent cfg.basicWindow now (sh.times .basic ip)
  if cfg.basicLimit ≤ kept.length then (sh.store .basic ip kept, false)
  -- a full shard lets an address it does not know through, uncounted
  else if sh.Full .basic ∧ kept = [] then (sh, true)
  else (sh.store .basic ip (kept ++ [now]), true)

/-- There is room to record one more offence of an address. -/
def HasRoom (cfg : FloodConfig) (sh : FloodShard) (kind : Offence) (ip : GoString) : Prop :=
  ¬ sh.Full (.offence kind) ∧
    ((sh.times (.offence kind) ip).length : ℤ) < cfg.limit (.offence kind)

instance (cfg : FloodConfig) (sh : FloodShard) (kind : Offence) (ip : GoString) :
    Decidable (sh.HasRoom cfg kind ip) :=
  inferInstanceAs (Decidable (_ ∧ _))

/-- `RecordAttack` and `RecordError`. -/
def record (cfg : FloodConfig) (kind : Offence) (now : ℤ) (sh : FloodShard) (ip : GoString) :
    FloodShard :=
  if sh.Full (.offence kind) then sh
  -- the limit is compared with all timestamps, those that have left the window as well
  else if cfg.limit (.offence kind) ≤ (sh.times (.offence kind) ip).length then sh
  else sh.store (.offence kind) ip (sh.times (.offence kind) ip ++ [now])

/-- `CheckAttackLimit` and `CheckErrorLimit`. -/
def checkLimit (cfg : FloodConfig) (kind : Offence) (now : ℤ) (sh : FloodShard)
    (ip : GoString) : FloodShard × Bool :=
  let kept := recent (cfg.window (.offence kind)) now (sh.times (.offence kind) ip)
  -- the address gets a key even when no timestamp is left
  (sh.store (.offence kind) ip kept, decide ((kept.length : ℤ) < cfg.limit (.offence kind)))

/-- `SetChallenge`. -/
def setChallenge (now : ℤ) (sh : FloodShard) (ip : GoString) (duration : ℤ) : FloodShard :=
  { sh with challenged := sh.challenged.insert ip (now + duration) }

/-- The penalty of an address has expired. -/
def Expired (now : ℤ) (sh : FloodShard) (ip : GoString) : Prop :=
  ∃ expiry, sh.challenged.lookup ip = some expiry ∧ expiry < now

instance (now : ℤ) (sh : FloodShard) (ip : GoString) : Decidable (sh.Expired now ip) :=
  decidable_of_iff ((sh.challenged.lookup ip).any (fun expiry => decide (expiry < now)) = true)
    (by rw [Expired]; cases sh.challenged.lookup ip <;> simp)

/-- A shard that knows nothing of an address. -/
def clear (sh : FloodShard) (ip : GoString) : FloodShard :=
  ⟨fun c => (sh.counts c).erase ip, sh.challenged.erase ip⟩

/-- `IsChallenged`. -/
def isChallenged (now : ℤ) (sh : FloodShard) (ip : GoString) : FloodShard × Bool :=
  match sh.challenged.lookup ip with
  | none => (sh, false)
  | some expiry => if expiry < now then (sh.clear ip, false) else (sh, true)

/-- What `cleanup` does to a shard. -/
def cleanup (cfg : FloodConfig) (now : ℤ) (sh : FloodShard) : FloodShard where
  counts c := (sh.counts c).filterMap fun _ ts =>
    let kept := recent (cfg.window c) now ts
    if kept = [] then none else some kept
  -- unlike `IsChallenged`, it drops an expired penalty without the counters
  challenged := sh.challenged.filterMap fun _ expiry => if expiry < now then none else some expiry

end FloodShard

/-! ### Runs -/

/-- The operations of the protector. -/
inductive FloodOp
  | checkBasicAccess (ip : GoString)
  | record (kind : Offence) (ip : GoString)
  | checkLimit (kind : Offence) (ip : GoString)
  | setChallenge (ip : GoString) (duration : ℤ)
  | isChallenged (ip : GoString)
  deriving DecidableEq

/-- `RecordAttack`. -/
abbrev FloodOp.recordAttack : GoString → FloodOp := record .attack

/-- `RecordError`. -/
abbrev FloodOp.recordError : GoString → FloodOp := record .error

/-- `CheckAttackLimit`. -/
abbrev FloodOp.checkAttackLimit : GoString → FloodOp := checkLimit .attack

/-- `CheckErrorLimit`. -/
abbrev FloodOp.checkErrorLimit : GoString → FloodOp := checkLimit .error

/-- The address an operation is about. -/
def FloodOp.ip : FloodOp → GoString
  | checkBasicAccess ip | record _ ip | checkLimit _ ip | setChallenge ip _ | isChallenged ip => ip

/-- An operation on the shard of its address, with its answer if it has one. -/
def FloodShard.apply (cfg : FloodConfig) (now : ℤ) (sh : FloodShard) :
    FloodOp → FloodShard × Option Bool
  | .checkBasicAccess ip => (sh.checkBasicAccess cfg now ip).map id some
  | .record kind ip => (sh.record cfg kind now ip, none)
  | .checkLimit kind ip => (sh.checkLimit cfg kind now ip).map id some
  | .setChallenge ip duration => (sh.setChallenge now ip duration, none)
  | .isChallenged ip => (sh.isChallenged now ip).map id some

/-- What happens to a protector: an operation, or the tick of its ticker. -/
inductive FloodEvent
  | op (o : FloodOp)
  | cleanup
  deriving DecidableEq

/-- An event, with the configuration and the time it reads. -/
structure FloodCall where
  cfg : FloodConfig
  now : ℤ
  event : FloodEvent
  deriving DecidableEq

namespace FloodState

/-- One call. -/
def step (s : FloodState) (call : FloodCall) : FloodState :=
  match call.event with
  | .op o => Function.update s (shardFor o.ip) ((s (shardFor o.ip)).apply call.cfg call.now o).1
  | .cleanup => fun i => (s i).cleanup call.cfg call.now

/-- The answer to a call. -/
def answer (s : FloodState) (call : FloodCall) : Option Bool :=
  match call.event with
  | .op o => ((s (shardFor o.ip)).apply call.cfg call.now o).2
  | .cleanup => none

/-- The state after some calls. -/
def run (calls : List FloodCall) : FloodState :=
  calls.foldl step newFloodState

/-- The timestamps of an address. -/
def times (s : FloodState) (c : Counter) (ip : GoString) : List ℤ :=
  (s (shardFor ip)).times c ip

/-- An operation goes to the shard of its address. -/
theorem step_op (s : FloodState) (cfg : FloodConfig) (now : ℤ) (o : FloodOp) (i : Fin 256) :
    s.step ⟨cfg, now, .op o⟩ i =
      if i = shardFor o.ip then ((s i).apply cfg now o).1 else s i := by
  by_cases hi : i = shardFor o.ip
  · subst hi
    rw [if_pos rfl]
    exact Function.update_self ..
  · rw [if_neg hi]
    exact Function.update_of_ne hi ..

/-- The timestamps an operation leaves of its address. -/
theorem times_step_op (s : FloodState) (cfg : FloodConfig) (now : ℤ) (o : FloodOp) (c : Counter) :
    (s.step ⟨cfg, now, .op o⟩).times c o.ip =
      ((s (shardFor o.ip)).apply cfg now o).1.times c o.ip := by
  rw [times, step_op, if_pos rfl]

theorem run_append (calls : List FloodCall) (call : FloodCall) :
    run (calls ++ [call]) = (run calls).step call := by
  rw [run, List.foldl_append]
  rfl

end FloodState

/-- The configuration of a run does not change. -/
def Steady (cfg : FloodConfig) (calls : List FloodCall) : Prop :=
  ∀ call ∈ calls, call.cfg = cfg

instance (cfg : FloodConfig) (calls : List FloodCall) : Decidable (Steady cfg calls) :=
  inferInstanceAs (Decidable (∀ call ∈ calls, call.cfg = cfg))

/-- The times of a run do not decrease. -/
def Chronological (calls : List FloodCall) : Prop :=
  calls.Pairwise fun call later => call.now ≤ later.now

instance (calls : List FloodCall) : Decidable (Chronological calls) :=
  inferInstanceAs (Decidable (calls.Pairwise fun call later => call.now ≤ later.now))

/-! ### What an operation does to an address -/

namespace FloodShard

variable {cfg : FloodConfig} {now : ℤ} {sh : FloodShard} {c c' : Counter} {ip k : GoString}

@[simp] theorem times_store (sh : FloodShard) (c c' : Counter) (ip k : GoString) (ts : List ℤ) :
    (sh.store c ip ts).times c' k = if c' = c ∧ k = ip then ts else sh.times c' k := by
  unfold times store
  by_cases hc : c' = c
  · subst hc
    by_cases hk : k = ip <;> simp [hk]
  · simp [hc]

theorem mem_keys_store {ts : List ℤ} :
    k ∈ ((sh.store c ip ts).counts c').keys ↔ (c' = c ∧ k = ip) ∨ k ∈ (sh.counts c').keys := by
  rw [store]
  by_cases hc : c' = c
  · subst hc
    simp [FiniteMap.insert]
  · simp [hc]

@[simp] theorem times_clear (sh : FloodShard) (ip : GoString) (c : Counter) (k : GoString) :
    (sh.clear ip).times c k = if k = ip then [] else sh.times c k := by
  unfold times clear
  by_cases hk : k = ip <;> simp [hk]

/-- A report is stored if there is room for it. -/
theorem record_eq (cfg : FloodConfig) (kind : Offence) (now : ℤ) (sh : FloodShard)
    (ip : GoString) :
    sh.record cfg kind now ip =
      if sh.HasRoom cfg kind ip then
        sh.store (.offence kind) ip (sh.times (.offence kind) ip ++ [now])
      else sh := by
  rw [record]
  split
  · rename_i hfull
    rw [if_neg fun hroom => hroom.1 hfull]
  split
  · rename_i hlimit
    rw [if_neg fun hroom => not_lt.mpr hlimit hroom.2]
  · rename_i hfull hlimit
    rw [if_pos ⟨hfull, not_le.mp hlimit⟩]

/-- The clean-up drops what has left the window. -/
@[simp] theorem times_cleanup (cfg : FloodConfig) (now : ℤ) (sh : FloodShard) (c : Counter)
    (ip : GoString) :
    (sh.cleanup cfg now).times c ip = recent (cfg.window c) now (sh.times c ip) :=
  getD_lookup_filterMap_recent (cfg.window c) now (sh.counts c) ip

/-- The clean-up drops the penalties that have expired. -/
theorem challenged_cleanup (cfg : FloodConfig) (now : ℤ) (sh : FloodShard) (ip : GoString) :
    (sh.cleanup cfg now).challenged.lookup ip =
      if sh.Expired now ip then none else sh.challenged.lookup ip := by
  rw [cleanup, FiniteMap.lookup_filterMap]
  split
  · rename_i hexp
    obtain ⟨expiry, hlookup, hlt⟩ := hexp
    rw [hlookup]
    exact if_pos hlt
  · rename_i hexp
    cases hlookup : sh.challenged.lookup ip with
    | none => rfl
    | some expiry => exact if_neg fun hlt => hexp ⟨expiry, hlookup, hlt⟩

theorem isChallenged_expired (h : sh.Expired now ip) :
    sh.isChallenged now ip = (sh.clear ip, false) := by
  obtain ⟨expiry, hlookup, hlt⟩ := h
  simp only [isChallenged, hlookup, if_pos hlt]

/-- Without an expired penalty `IsChallenged` only looks. -/
theorem isChallenged_of_not_expired (h : ¬ sh.Expired now ip) :
    sh.isChallenged now ip = (sh, (sh.challenged.lookup ip).isSome) := by
  cases hlookup : sh.challenged.lookup ip with
  | none => simp only [isChallenged, hlookup, Option.isSome_none]
  | some expiry =>
    have hle : ¬ expiry < now := fun hlt => h ⟨expiry, hlookup, hlt⟩
    simp only [isChallenged, hlookup, if_neg hle, Option.isSome_some]

/-- An expired penalty takes the timestamps of its address with it. -/
theorem times_isChallenged (now : ℤ) (sh : FloodShard) (c : Counter) (ip : GoString) :
    (sh.isChallenged now ip).1.times c ip = if sh.Expired now ip then [] else sh.times c ip := by
  split
  · rw [isChallenged_expired ‹_›, times_clear, if_pos rfl]
  · rw [isChallenged_of_not_expired ‹_›]

/-- **An operation** is about one address: the others keep their timestamps and penalties. -/
theorem apply_frame (cfg : FloodConfig) (now : ℤ) (sh : FloodShard) {o : FloodOp}
    (h : k ≠ o.ip) (c : Counter) :
    (sh.apply cfg now o).1.times c k = sh.times c k ∧
      (sh.apply cfg now o).1.challenged.lookup k = sh.challenged.lookup k := by
  have hstore : ∀ c' ts, (sh.store c' o.ip ts).times c k = sh.times c k := fun c' ts => by
    rw [times_store, if_neg fun hand => h hand.2]
  cases o with
  | checkBasicAccess ip =>
    simp only [apply, checkBasicAccess, Prod.map, id]
    split
    · exact ⟨hstore .basic _, rfl⟩
    split
    · exact ⟨rfl, rfl⟩
    · exact ⟨hstore .basic _, rfl⟩
  | record kind ip =>
    simp only [apply, record]
    split
    · exact ⟨rfl, rfl⟩
    split
    · exact ⟨rfl, rfl⟩
    · exact ⟨hstore (.offence kind) _, rfl⟩
  | checkLimit kind ip => exact ⟨hstore (.offence kind) _, rfl⟩
  | setChallenge ip duration => exact ⟨rfl, if_neg h⟩
  | isChallenged ip =>
    by_cases hexp : sh.Expired now ip
    · simp only [apply, isChallenged_expired hexp, Prod.map, id]
      exact ⟨(times_clear sh ip c k).trans (if_neg h), if_neg h⟩
    · simp only [apply, isChallenged_of_not_expired hexp, Prod.map, id, and_self]

end FloodShard

end VibesWaf

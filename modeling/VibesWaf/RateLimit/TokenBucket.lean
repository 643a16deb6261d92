import Mathlib.Data.Rat.Cast.Order
import Mathlib.Algebra.Order.Ring.Rat
import VibesWaf.Flood.Protector
import VibesWaf.Lib.Rounding
import VibesWaf.Lib.Run
import VibesWaf.Lib.TokenBucket

/-!
# The token-bucket rate limiter

The limiter keeps a bucket for each key, in 256 shards. `Allow` finds the bucket of its key or makes
a full one, refills it, and takes a token if there is one. Buckets disappear in two ways: a shard
that is full evicts the ones not asked for longest before it takes in a new key, and the clean-up
that a ticker starts drops those not asked for ten minutes. Times are integers (nanoseconds). Tokens
and rates are `Numbers`, rounded or exact.

With exact numbers, as long as the limits of a key stay what they are, its bucket is a `TokenBucket`
that is asked at the times of its calls (`core_step_self`). `bucket_bounded` reads off the bounds:
what the bucket holds, and how many calls are allowed in an interval.
-/

namespace VibesWaf

open Rounding

/-! ### The state -/

/-- `maxPerShard`. -/
def maxPerShard : ℕ :=
  500000 / 256

/-- `RateLimiter.bucketTTL`, ten minutes. -/
def bucketTTL : ℤ :=
  10 * 60 * 1000000000

/-- The seconds of some nanoseconds. -/
def seconds (d : ℤ) : ℚ :=
  d / 1000000000

@[simp] theorem seconds_zero : seconds 0 = 0 := by
  rw [seconds, Int.cast_zero, zero_div]

theorem seconds_sub (d e : ℤ) : seconds (d - e) = seconds d - seconds e := by
  rw [seconds, seconds, seconds, Int.cast_sub, sub_div]

theorem seconds_le {d e : ℤ} (h : d ≤ e) : seconds d ≤ seconds e :=
  div_le_div_of_nonneg_right (Int.cast_le.mpr h) (by norm_num)

/-- The numbers of a limiter: an arithmetic, and `time.Duration.Seconds`. -/
class Numbers extends Arithmetic where
  seconds : ℤ → ℚ
  seconds_mono : ∀ {d e : ℤ}, d ≤ e → seconds d ≤ seconds e
  seconds_zero : seconds 0 = 0

/-- `bucket`. -/
structure Bucket where
  tokens : ℚ
  capacity : ℚ
  refillRate : ℚ
  lastRefill : ℤ
  lastAccess : ℤ
  deriving DecidableEq

/-- `rateLimitShard.buckets`. -/
abbrev RateLimitShard := FiniteMap GoString Bucket

/-- `RateLimiter.shards`. -/
abbrev RateLimiter := Fin 256 → RateLimitShard

/-- `NewRateLimiter`. -/
def newRateLimiter : RateLimiter :=
  fun _ => .empty

/-! ### The operations -/

section Operations

variable [Numbers]

namespace Bucket

/-- The bucket `Allow` makes for a key. -/
def new (capacity : ℤ) (refillRate : ℚ) (now : ℤ) : Bucket :=
  ⟨Arithmetic.round capacity, Arithmetic.round capacity, refillRate, now, now⟩

/-- The limits of a key have changed. -/
def reconfigure (capacity : ℤ) (refillRate : ℚ) (b : Bucket) : Bucket :=
  let cap := Arithmetic.round capacity
  if b.capacity ≠ cap ∨ b.refillRate ≠ refillRate then
    { b with
      capacity := cap
      refillRate := refillRate
      tokens := if cap < b.tokens then cap else b.tokens }
  else b

/-- The refill, put off while less than 10 ms have passed. -/
def refill (now : ℤ) (b : Bucket) : Bucket :=
  let elapsed := Numbers.seconds (now - b.lastRefill)
  if Arithmetic.round (1 / 100) ≤ elapsed then
    { b with
      tokens := min b.capacity (Arithmetic.addMul b.tokens elapsed b.refillRate)
      lastRefill := now }
  else b

/-- A token is taken, if there is one. -/
def take (b : Bucket) : Bool × Bucket :=
  if 1 ≤ b.tokens then (true, { b with tokens := Arithmetic.round (b.tokens - 1) }) else (false, b)

/-- What `Allow` does to the bucket of its key. -/
def serve (capacity : ℤ) (refillRate : ℚ) (now : ℤ) (b : Bucket) : Bool × Bucket :=
  (({ b with lastAccess := now }.reconfigure capacity refillRate).refill now).take

/-- What a call does with the bucket of its key, or with the one it makes. -/
def serveOrNew (capacity : ℤ) (refillRate : ℚ) (now : ℤ) (b : Option Bucket) : Bool × Bucket :=
  (b.getD (.new capacity refillRate now)).serve capacity refillRate now

/-- The limits of a bucket. -/
def Has (capacity : ℤ) (refillRate : ℚ) (b : Bucket) : Prop :=
  b.capacity = Arithmetic.round capacity ∧ b.refillRate = refillRate

end Bucket

namespace RateLimitShard

/-- A loop of `evictOldest` over the buckets, in the order in which `range` visits them: the key and
the time of the first one with the earliest access. -/
def oldest (sh : RateLimitShard) (order : List GoString) : Option (GoString × ℤ) :=
  order.foldl (fun oldest key =>
    match sh.lookup key with
    | none => oldest
    | some b => if oldest.all fun o => b.lastAccess < o.2 then some (key, b.lastAccess) else oldest)
    none

/-- One eviction. The empty key is taken for no key. -/
def evict (sh : RateLimitShard) (order : List GoString) : RateLimitShard :=
  match sh.oldest order with
  | none => sh
  | some (key, _) => if key = [] then sh else sh.erase key

/-- `evictOldest`, with the order of each loop. -/
def evictOldest (orders : ℕ → List GoString) (sh : RateLimitShard) : RateLimitShard :=
  (List.range (max (maxPerShard / 10) 1)).foldl (fun sh i => sh.evict (orders i)) sh

/-- `Allow`, in the shard of its key. -/
def allow (orders : ℕ → List GoString) (key : GoString) (capacity : ℤ) (refillRate : ℚ) (now : ℤ)
    (sh : RateLimitShard) : Bool × RateLimitShard :=
  let (sh, b) :=
    match sh.lookup key with
    | some b => (sh, b)
    | none =>
      (if maxPerShard ≤ sh.size then sh.evictOldest orders else sh, .new capacity refillRate now)
  let (allowed, b) := b.serve capacity refillRate now
  (allowed, sh.insert key b)

/-- What `cleanup` does to a shard. -/
def cleanup (now : ℤ) (sh : RateLimitShard) : RateLimitShard :=
  sh.filterMap fun _ b => if bucketTTL < now - b.lastAccess then none else some b

end RateLimitShard

/-! ### Runs -/

/-- The operations of the limiter. A call of `Allow` has the orders in which its evictions, if it
makes any, visit the buckets. -/
inductive LimiterOp
  | allow (key : GoString) (capacity : ℤ) (refillRate : ℚ) (orders : ℕ → List GoString)
  | cleanup

/-- The key an operation is for. -/
def LimiterOp.key : LimiterOp → Option GoString
  | allow key _ _ _ => some key
  | cleanup => none

/-- An operation, at a time. -/
structure LimiterCall where
  now : ℤ
  op : LimiterOp

namespace RateLimiter

/-- One call. -/
def step (s : RateLimiter) (call : LimiterCall) : RateLimiter :=
  match call.op with
  | .allow key capacity refillRate orders =>
    Function.update s (shardFor key)
      ((s (shardFor key)).allow orders key capacity refillRate call.now).2
  | .cleanup => fun i => (s i).cleanup call.now

/-- The answer to a call. -/
def answer (s : RateLimiter) (call : LimiterCall) : Option Bool :=
  match call.op with
  | .allow key capacity refillRate orders =>
    some ((s (shardFor key)).allow orders key capacity refillRate call.now).1
  | .cleanup => none

/-- The state some calls leave. -/
def runFrom (s : RateLimiter) (calls : List LimiterCall) : RateLimiter :=
  calls.foldl step s

/-- The state after some calls. -/
def run (calls : List LimiterCall) : RateLimiter :=
  newRateLimiter.runFrom calls

/-- The bucket of a key. -/
def bucket (s : RateLimiter) (key : GoString) : Option Bucket :=
  (s (shardFor key)).lookup key

/-- The times of some calls do not decrease. -/
def Chronological (calls : List LimiterCall) : Prop :=
  calls.Pairwise fun call later => call.now ≤ later.now

/-- The limits of a key do not change. -/
def Constant (key : GoString) (capacity : ℤ) (refillRate : ℚ) (calls : List LimiterCall) : Prop :=
  ∀ now capacity' refillRate' orders,
    ⟨now, .allow key capacity' refillRate' orders⟩ ∈ calls →
      capacity' = capacity ∧ refillRate' = refillRate

/-- No call removes the bucket of a key. -/
def Keeps (key : GoString) : RateLimiter → List LimiterCall → Prop
  | _, [] => True
  | s, call :: calls =>
    ((s.bucket key).isSome → ((s.step call).bucket key).isSome) ∧ Keeps key (s.step call) calls

/-- The times of the calls for a key. -/
def askedTimes (key : GoString) (calls : List LimiterCall) : List ℤ :=
  (calls.filter fun call => call.op.key = some key).map (·.now)

/-- The times of the calls for a key that are allowed. -/
def allowedTimes (key : GoString) : RateLimiter → List LimiterCall → List ℤ
  | _, [] => []
  | s, call :: calls =>
    (if call.op.key = some key ∧ s.answer call = some true then [call.now] else []) ++
      allowedTimes key (s.step call) calls

end RateLimiter

/-! ### The limits of a bucket -/

namespace Bucket

variable {capacity : ℤ} {refillRate : ℚ} {now : ℤ} {b : Bucket}

theorem has_new : (new capacity refillRate now).Has capacity refillRate :=
  ⟨rfl, rfl⟩

theorem reconfigure_eq (h : b.Has capacity refillRate) : b.reconfigure capacity refillRate = b :=
  if_neg (by simp [h.1, h.2])

theorem has_refill (h : b.Has capacity refillRate) : (b.refill now).Has capacity refillRate := by
  rw [refill]
  split
  · exact h
  · exact h

end Bucket

/-! ### What a call does to a key -/

namespace RateLimitShard

variable {sh : RateLimitShard} {key k : GoString}

omit [Numbers] in
theorem lookup_evict (sh : RateLimitShard) (order : List GoString) (k : GoString) :
    (sh.evict order).lookup k = sh.lookup k ∨ (sh.evict order).lookup k = none := by
  rw [evict]
  split
  · exact .inl rfl
  split
  · exact .inl rfl
  · rw [FiniteMap.lookup_erase]
    split
    · exact .inr rfl
    · exact .inl rfl

omit [Numbers] in
theorem lookup_evictOldest (orders : ℕ → List GoString) (sh : RateLimitShard) (k : GoString) :
    (sh.evictOldest orders).lookup k = sh.lookup k ∨ (sh.evictOldest orders).lookup k = none := by
  rw [evictOldest]
  generalize List.range (max (maxPerShard / 10) 1) = passes
  induction passes generalizing sh with
  | nil => exact .inl rfl
  | cons i passes ih =>
    rw [List.foldl_cons]
    rcases ih (sh.evict (orders i)) with h | h
    · rw [h]
      exact lookup_evict sh (orders i) k
    · exact .inr h

omit [Numbers] in
theorem lookup_cleanup (now : ℤ) (sh : RateLimitShard) (k : GoString) :
    (sh.cleanup now).lookup k =
      (sh.lookup k).filter fun b => ¬ bucketTTL < now - b.lastAccess := by
  rw [cleanup, FiniteMap.lookup_filterMap]
  cases sh.lookup k with
  | none => rfl
  | some b =>
    rw [Option.bind_some, Option.filter_some]
    by_cases h : bucketTTL < now - b.lastAccess <;> simp [h]

variable {orders : ℕ → List GoString} {capacity : ℤ} {refillRate : ℚ} {now : ℤ}

/-- The answer, and what becomes of the bucket of the key. -/
theorem allow_self (sh : RateLimitShard) (orders : ℕ → List GoString) (key : GoString)
    (capacity : ℤ) (refillRate : ℚ) (now : ℤ) :
    (sh.allow orders key capacity refillRate now).1 =
        (Bucket.serveOrNew capacity refillRate now (sh.lookup key)).1 ∧
      (sh.allow orders key capacity refillRate now).2.lookup key =
        some (Bucket.serveOrNew capacity refillRate now (sh.lookup key)).2 := by
  rw [allow]
  cases sh.lookup key with
  | none => exact ⟨rfl, if_pos rfl⟩
  | some b => exact ⟨rfl, if_pos rfl⟩

/-- The other keys lose their buckets or keep them. -/
theorem lookup_allow (h : k ≠ key) :
    (sh.allow orders key capacity refillRate now).2.lookup k = sh.lookup k ∨
      (sh.allow orders key capacity refillRate now).2.lookup k = none := by
  rw [allow]
  cases sh.lookup key with
  | none =>
    simp only [FiniteMap.lookup_insert, if_neg h]
    split
    · exact lookup_evictOldest orders sh k
    · exact .inl rfl
  | some b => exact .inl (if_neg h)

/-- They keep them where the key is known or there is room for it. -/
theorem lookup_allow_of_room (hroom : key ∈ sh.keys ∨ sh.size < maxPerShard) (h : k ≠ key) :
    (sh.allow orders key capacity refillRate now).2.lookup k = sh.lookup k := by
  rw [allow]
  cases hlookup : sh.lookup key with
  | none =>
    have hsize : ¬ maxPerShard ≤ sh.size :=
      not_le.mpr (hroom.resolve_left (FiniteMap.not_mem_keys.mpr hlookup))
    simp only [if_neg hsize, FiniteMap.lookup_insert, if_neg h]
  | some b => exact if_neg h

end RateLimitShard

namespace RateLimiter

variable {s : RateLimiter} {call : LimiterCall} {key k : GoString} {capacity : ℤ} {refillRate : ℚ}
  {now : ℤ} {orders : ℕ → List GoString}

omit [Numbers] in
theorem bucket_newRateLimiter (key : GoString) : newRateLimiter.bucket key = none :=
  rfl

theorem bucket_step_cleanup (s : RateLimiter) (now : ℤ) (k : GoString) :
    (s.step ⟨now, .cleanup⟩).bucket k =
      (s.bucket k).filter fun b => ¬ bucketTTL < now - b.lastAccess :=
  RateLimitShard.lookup_cleanup now _ k

/-- A call for a key, at its own key. -/
theorem bucket_step_allow (s : RateLimiter) (now : ℤ) (key : GoString) (capacity : ℤ)
    (refillRate : ℚ) (orders : ℕ → List GoString) :
    (s.step ⟨now, .allow key capacity refillRate orders⟩).bucket key =
      some (Bucket.serveOrNew capacity refillRate now (s.bucket key)).2 := by
  simp only [bucket, step, Function.update_self]
  exact (RateLimitShard.allow_self ..).2

theorem answer_allow (s : RateLimiter) (now : ℤ) (key : GoString) (capacity : ℤ)
    (refillRate : ℚ) (orders : ℕ → List GoString) :
    s.answer ⟨now, .allow key capacity refillRate orders⟩ =
      some (Bucket.serveOrNew capacity refillRate now (s.bucket key)).1 :=
  congrArg some (RateLimitShard.allow_self ..).1

/-- **A call for another key**, or the clean-up, leaves a bucket as it is or removes it. -/
theorem bucket_step_frame (h : call.op.key ≠ some k) :
    (s.step call).bucket k = s.bucket k ∨ (s.step call).bucket k = none := by
  obtain ⟨now, op⟩ := call
  cases op with
  | cleanup =>
    rw [bucket_step_cleanup]
    cases s.bucket k with
    | none => exact .inl rfl
    | some b =>
      rw [Option.filter_some]
      split
      · exact .inl rfl
      · exact .inr rfl
  | allow key capacity refillRate orders =>
    have hne : k ≠ key := fun heq => h (congrArg some heq.symm)
    by_cases hshard : shardFor k = shardFor key
    · simp only [bucket, step, hshard, Function.update_self]
      exact RateLimitShard.lookup_allow hne
    · simp only [bucket, step]
      rw [Function.update_of_ne hshard]
      exact .inl rfl

theorem run_append (before calls : List LimiterCall) :
    run (before ++ calls) = (run before).runFrom calls :=
  List.foldl_append

end RateLimiter

end Operations

/-! ### Exact numbers -/

/-- Numbers that are not rounded. -/
@[reducible] def Numbers.exact : Numbers where
  toArithmetic := .exact
  seconds := VibesWaf.seconds
  seconds_mono h := seconds_le h
  seconds_zero := VibesWaf.seconds_zero

attribute [local instance] Numbers.exact

namespace Bucket

/-- A refill with exact numbers. -/
theorem refill_exact (now : ℤ) (b : Bucket) : b.refill now =
    if 1 / 100 ≤ seconds (now - b.lastRefill) then
      { b with
        tokens := min b.capacity (b.tokens + seconds (now - b.lastRefill) * b.refillRate)
        lastRefill := now }
    else b :=
  rfl

/-- A token is a whole one. -/
theorem take_exact (b : Bucket) :
    b.take = if 1 ≤ b.tokens then (true, { b with tokens := b.tokens - 1 }) else (false, b) :=
  rfl

theorem has_exact {capacity : ℤ} {refillRate : ℚ} {b : Bucket} :
    b.Has capacity refillRate ↔ b.capacity = capacity ∧ b.refillRate = refillRate :=
  Iff.rfl

end Bucket

/-! ### A bucket whose limits do not change -/

namespace Bucket

/-- How the buckets with some limits are refilled. -/
def policy (capacity : ℤ) (refillRate : ℚ) : RefillPolicy ℚ :=
  ⟨capacity, refillRate, 1 / 100⟩

/-- The tokens of a bucket, and its last refill in seconds. -/
def core (b : Bucket) : TokenBucket ℚ :=
  ⟨b.tokens, seconds b.lastRefill⟩

variable {capacity : ℤ} {refillRate : ℚ} {now : ℤ} {b : Bucket}

theorem core_refill (h : b.Has capacity refillRate) :
    (b.refill now).core = b.core.refill (policy capacity refillRate) (seconds now) := by
  by_cases helapsed : 1 / 100 ≤ seconds (now - b.lastRefill)
  · have hcore : (policy capacity refillRate).granularity ≤ seconds now - b.core.lastRefill := by
      rwa [core, ← seconds_sub]
    obtain ⟨hcapacity, hrate⟩ := has_exact.mp h
    rw [refill_exact, if_pos helapsed, TokenBucket.refill, if_pos hcore]
    simp only [core, policy, seconds_sub, hcapacity, hrate]
  · have hcore : ¬ (policy capacity refillRate).granularity ≤ seconds now - b.core.lastRefill := by
      rwa [core, ← seconds_sub]
    rw [refill_exact, if_neg helapsed, TokenBucket.refill, if_neg hcore]

theorem take_core (b : Bucket) :
    b.take.1 = b.core.take.1 ∧ b.take.2 = { b with tokens := b.core.take.2.tokens } := by
  by_cases hone : 1 ≤ b.tokens
  · rw [take_exact, if_pos hone, TokenBucket.take, if_pos (show 1 ≤ b.core.tokens from hone)]
    exact ⟨rfl, rfl⟩
  · rw [take_exact, if_neg hone, TokenBucket.take, if_neg (show ¬ 1 ≤ b.core.tokens from hone)]
    exact ⟨rfl, rfl⟩

/-- **Serving a call** is asking for a token. -/
theorem serve_core (h : b.Has capacity refillRate) :
    (b.serve capacity refillRate now).1 =
        (TokenBucket.ask (policy capacity refillRate) (seconds now) (some b.core)).1 ∧
      (b.serve capacity refillRate now).2.core =
        (TokenBucket.ask (policy capacity refillRate) (seconds now) (some b.core)).2 := by
  have haccess : { b with lastAccess := now }.Has capacity refillRate := h
  have hcore : ({ b with lastAccess := now }.refill now).core =
      b.core.refill (policy capacity refillRate) (seconds now) := core_refill haccess
  rw [serve, reconfigure_eq haccess, TokenBucket.ask, TokenBucket.found, Option.getD_some, ← hcore]
  refine ⟨(take_core _).1, ?_⟩
  rw [(take_core _).2]
  ext
  · rfl
  · exact (TokenBucket.lastRefill_take ({ b with lastAccess := now }.refill now).core).symm

/-- What holds of a bucket between calls: it has its limits, its tokens are within bounds, and its
last refill was not after its last access. -/
structure Kept (capacity : ℤ) (refillRate : ℚ) (now : ℤ) (b : Bucket) : Prop where
  has : b.Has capacity refillRate
  within : b.core.Within (policy capacity refillRate)
  refilled : b.lastRefill ≤ b.lastAccess
  accessed : b.lastAccess ≤ now

theorem Kept.mono {later : ℤ} (h : b.Kept capacity refillRate now) (hle : now ≤ later) :
    b.Kept capacity refillRate later :=
  { h with accessed := h.accessed.trans hle }

theorem kept_new : (new capacity refillRate now).Kept capacity refillRate now where
  has := has_new
  within := TokenBucket.within_fresh _ _
  refilled := le_rfl
  accessed := le_rfl

/-- **A call** keeps its bucket in order. -/
theorem kept_serve {earlier : ℤ} (hrate : 0 ≤ refillRate) (h : b.Kept capacity refillRate earlier)
    (hle : earlier ≤ now) :
    (b.serve capacity refillRate now).2.Kept capacity refillRate now := by
  have haccess : { b with lastAccess := now }.Has capacity refillRate := h.has
  have hlast : b.lastRefill ≤ now := (h.refilled.trans h.accessed).trans hle
  have hrefill : ({ b with lastAccess := now }.refill now).lastAccess = now ∧
      ({ b with lastAccess := now }.refill now).lastRefill ≤ now := by
    rw [refill]
    split
    · exact ⟨rfl, le_rfl⟩
    · exact ⟨rfl, hlast⟩
  have hwithin : ({ b with lastAccess := now }.refill now).core.Within
      (policy capacity refillRate) := by
    rw [core_refill haccess]
    exact h.within.refill hrate (by norm_num [policy])
  have htake := hwithin.take
  rw [serve, reconfigure_eq haccess, (take_core _).2]
  refine ⟨has_refill haccess, ⟨htake.nonneg, htake.le_capacity⟩, ?_, ?_⟩
  · exact hrefill.2.trans_eq hrefill.1.symm
  · exact hrefill.1.le

end Bucket

namespace RateLimiter

variable {s : RateLimiter} {call : LimiterCall} {key k : GoString} {capacity : ℤ} {refillRate : ℚ}
  {now : ℤ} {orders : ℕ → List GoString}

/-! ### Runs with constant limits -/

/-- A call for a key is one of `Allow`. -/
theorem eq_allow (h : call.op.key = some key) :
    ∃ now capacity refillRate orders, call = ⟨now, .allow key capacity refillRate orders⟩ := by
  obtain ⟨now, op⟩ := call
  cases op with
  | cleanup => exact absurd h (by simp [LimiterOp.key])
  | allow key' capacity refillRate orders =>
    obtain rfl : key' = key := Option.some.inj h
    exact ⟨now, capacity, refillRate, orders, rfl⟩

/-- A call for no key is the clean-up. -/
theorem eq_cleanup (h : call.op.key = none) : ∃ now, call = ⟨now, .cleanup⟩ := by
  obtain ⟨now, op⟩ := call
  cases op with
  | cleanup => exact ⟨now, rfl⟩
  | allow key capacity refillRate orders => exact absurd h (by simp [LimiterOp.key])

theorem Constant.mono {calls calls' : List LimiterCall} (h : Constant key capacity refillRate calls)
    (hsub : calls' ⊆ calls) : Constant key capacity refillRate calls' :=
  fun now capacity' refillRate' orders hmem => h now capacity' refillRate' orders (hsub hmem)

/-- **One call** keeps the bucket of a key whose limits do not change in order. -/
theorem kept_step {earlier : ℤ} (hrate : 0 ≤ refillRate)
    (hconst : Constant key capacity refillRate [call])
    (h : ∀ b ∈ s.bucket key, b.Kept capacity refillRate earlier) (hle : earlier ≤ call.now) :
    ∀ b ∈ (s.step call).bucket key, b.Kept capacity refillRate call.now := by
  intro b hb
  by_cases hkey : call.op.key = some key
  · obtain ⟨now, capacity', refillRate', orders, rfl⟩ := eq_allow hkey
    obtain ⟨rfl, rfl⟩ := hconst now capacity' refillRate' orders List.mem_cons_self
    rw [bucket_step_allow] at hb
    obtain rfl := Option.some.inj hb
    cases hbucket : s.bucket key with
    | none => exact Bucket.kept_serve hrate Bucket.kept_new le_rfl
    | some b => exact Bucket.kept_serve hrate (h b hbucket) hle
  · rcases bucket_step_frame (s := s) hkey with heq | heq
    · exact (h b (heq ▸ hb)).mono hle
    · rw [heq] at hb
      exact absurd hb (by simp)

/-- **The invariant of a run**: the bucket of a key is in order. -/
theorem kept_run {calls : List LimiterCall} (hrate : 0 ≤ refillRate)
    (hconst : Constant key capacity refillRate calls) (hchron : Chronological calls) {now : ℤ}
    (hnow : ∀ call ∈ calls, call.now ≤ now) :
    ∀ b ∈ (run calls).bucket key, b.Kept capacity refillRate now := by
  refine run_induction (P := fun past => ∀ now, (∀ call ∈ past, call.now ≤ now) →
    ∀ b ∈ (run past).bucket key, b.Kept capacity refillRate now) ?_ ?_ now hnow
  · intro _ _ b hb
    exact absurd hb (by simp [run, runFrom, newRateLimiter, bucket, FiniteMap.empty])
  · intro past call hpast ih now hnow b hb
    rw [run_append] at hb
    have hsub : [call] ⊆ calls := by simpa using mem_of_snoc hpast
    have hkept := kept_step hrate (hconst.mono hsub) (ih call.now (pairwise_snoc hchron hpast))
      le_rfl b hb
    exact hkept.mono (hnow call (List.mem_append_right _ List.mem_cons_self))

/-- The bucket of a key, as a token bucket. -/
def core (s : RateLimiter) (key : GoString) : Option (TokenBucket ℚ) :=
  (s.bucket key).map Bucket.core

/-- **A call for a key asks its bucket.** -/
theorem core_step_self (h : ∀ b ∈ s.bucket key, b.Has capacity refillRate) (now : ℤ)
    (orders : ℕ → List GoString) :
    s.answer ⟨now, .allow key capacity refillRate orders⟩ =
        some (TokenBucket.ask (Bucket.policy capacity refillRate) (seconds now) (s.core key)).1 ∧
      (s.step ⟨now, .allow key capacity refillRate orders⟩).core key =
        some
          (TokenBucket.ask (Bucket.policy capacity refillRate) (seconds now) (s.core key)).2 := by
  rw [answer_allow, core, core, bucket_step_allow, Option.map_some, Option.some_inj,
    Option.some_inj]
  cases hbucket : s.bucket key with
  | none => exact Bucket.serve_core Bucket.has_new
  | some b => exact Bucket.serve_core (h b hbucket)

/-- **Calls that keep a bucket** are questions to a token bucket. -/
theorem grants_eq {calls : List LimiterCall} (hrate : 0 ≤ refillRate)
    (hconst : Constant key capacity refillRate calls) (hchron : Chronological calls)
    (hkept : ∀ call ∈ calls, ∀ b ∈ s.bucket key, b.Kept capacity refillRate call.now)
    (hkeeps : Keeps key s calls) :
    (allowedTimes key s calls).map seconds =
      TokenBucket.grants (Bucket.policy capacity refillRate) (s.core key)
        ((askedTimes key calls).map seconds) := by
  induction calls generalizing s with
  | nil => rfl
  | cons call calls ih =>
    obtain ⟨hlater, hchron'⟩ := List.pairwise_cons.mp hchron
    have hnext : ∀ later ∈ calls, ∀ b ∈ (s.step call).bucket key,
        b.Kept capacity refillRate later.now := fun later hmem b hb =>
      (kept_step hrate (hconst.mono (by simp)) (hkept call List.mem_cons_self) le_rfl b hb).mono
        (hlater later hmem)
    have hrest := ih (hconst.mono (List.subset_cons_self _ _)) hchron' hnext hkeeps.2
    rw [allowedTimes, List.map_append, hrest]
    by_cases hkey : call.op.key = some key
    · obtain ⟨now, capacity', refillRate', orders, rfl⟩ := eq_allow hkey
      obtain ⟨rfl, rfl⟩ := hconst now capacity' refillRate' orders List.mem_cons_self
      obtain ⟨hanswer, hcore⟩ := core_step_self
        (fun b hb => (hkept _ List.mem_cons_self b hb).has) now orders
      have hasked : (askedTimes key (⟨now, .allow key capacity' refillRate' orders⟩ :: calls)).map
          seconds = seconds now :: (askedTimes key calls).map seconds := by
        simp [askedTimes, LimiterOp.key]
      rw [hasked, TokenBucket.grants, hcore, hanswer]
      congr 1
      simp only [hkey, true_and, Option.some_inj]
      split <;> rfl
    · have hsame : (s.step call).bucket key = s.bucket key := by
        rcases bucket_step_frame (s := s) hkey with heq | heq
        · exact heq
        -- the call does not remove the bucket
        · cases hbucket : s.bucket key with
          | none => exact heq
          | some b =>
            have hstill := hkeeps.1 (by rw [hbucket]; rfl)
            rw [heq] at hstill
            exact absurd hstill (by simp)
      have hasked : askedTimes key (call :: calls) = askedTimes key calls := by
        simp [askedTimes, hkey]
      rw [if_neg fun hand => hkey hand.1, hasked, core, hsame, List.map_nil, List.nil_append]
      rfl

/-- The calls for a key are some of the calls. -/
theorem mem_askedTimes {calls : List LimiterCall} {t : ℤ} (h : t ∈ askedTimes key calls) :
    ∃ call ∈ calls, call.now = t := by
  obtain ⟨call, hmem, rfl⟩ := List.mem_map.mp h
  exact ⟨call, List.mem_of_mem_filter hmem, rfl⟩

/-- Some time is no earlier than any call. -/
private theorem exists_now (calls : List LimiterCall) : ∃ now, ∀ call ∈ calls, call.now ≤ now := by
  induction calls with
  | nil => exact ⟨0, by simp⟩
  | cons call calls ih =>
    obtain ⟨now, hnow⟩ := ih
    refine ⟨max call.now now, List.forall_mem_cons.mpr ⟨le_max_left _ _, fun later hmem => ?_⟩⟩
    exact (hnow later hmem).trans (le_max_right _ _)

/-- **The token bucket.** In every run in which the limits of a key are constant, as long as no call
removes its bucket, the bucket holds between no token and its capacity, and in an interval of `d`
seconds it allows at most its capacity, and what it earns in `d` seconds and 10 ms. -/
theorem bucket_bounded {before calls : List LimiterCall} (hcapacity : 0 ≤ capacity)
    (hrate : 0 ≤ refillRate) (hconst : Constant key capacity refillRate (before ++ calls))
    (hchron : Chronological (before ++ calls)) (hkeeps : Keeps key (run before) calls) :
    (∀ past, past <+: calls → ∀ b, (run (before ++ past)).bucket key = some b →
        0 ≤ b.tokens ∧ b.tokens ≤ capacity) ∧
      ∀ start d : ℚ, 0 ≤ d →
        (((allowedTimes key (run before) calls).filter fun t =>
            start ≤ seconds t ∧ seconds t ≤ start + d).length : ℚ) ≤
          capacity + refillRate * (d + 1 / 100) := by
  obtain ⟨hbefore, hcalls, hacross⟩ := List.pairwise_append.mp hchron
  have hcapacity' : (0 : ℚ) ≤ (capacity : ℚ) := by exact_mod_cast hcapacity
  constructor
  · intro past hpast b hb
    have hprefix : before ++ past <+: before ++ calls :=
      (List.prefix_append_right_inj before).mpr hpast
    obtain ⟨now, hnow⟩ := exists_now (before ++ past)
    have hwithin := (kept_run hrate (hconst.mono hprefix.subset)
      (hchron.sublist hprefix.sublist) hnow b hb).within
    have hnonneg := hwithin.nonneg
    rw [Bucket.policy, min_eq_right hcapacity'] at hnonneg
    exact ⟨hnonneg, hwithin.le_capacity⟩
  · intro start d hd
    have hkept : ∀ call ∈ calls, ∀ b ∈ (run before).bucket key,
        b.Kept capacity refillRate call.now := fun call hcall =>
      kept_run hrate (hconst.mono (List.subset_append_left _ _)) hbefore
        fun call' hcall' => hacross call' hcall' call hcall
    have hordered : ((askedTimes key calls).map seconds).Pairwise (· ≤ ·) := by
      rw [askedTimes, List.map_map, List.pairwise_map]
      exact (hcalls.sublist List.filter_sublist).imp seconds_le
    have hsound : ∀ t ∈ (askedTimes key calls).map seconds,
        TokenBucket.Sound (Bucket.policy capacity refillRate) t ((run before).core key) := by
      intro t ht b' hb'
      obtain ⟨now, hnow, rfl⟩ := List.mem_map.mp ht
      obtain ⟨call, hcall, rfl⟩ := mem_askedTimes hnow
      obtain ⟨b, hb, rfl⟩ := Option.mem_map.mp hb'
      have hb := hkept call hcall b hb
      exact ⟨hb.within, seconds_le (hb.refilled.trans hb.accessed)⟩
    have hbound := TokenBucket.length_grants_filter_le (p := Bucket.policy capacity refillRate)
      hcapacity' hrate (by norm_num [Bucket.policy]) start hd hordered hsound
    rw [← grants_eq hrate (hconst.mono (List.subset_append_right _ _)) hcalls hkept hkeeps,
      List.filter_map, List.length_map] at hbound
    exact hbound

/-- Calls for a key do not remove its bucket. -/
theorem keeps_self {calls : List LimiterCall} (h : ∀ call ∈ calls, call.op.key = some key) :
    Keeps key s calls := by
  induction calls generalizing s with
  | nil => trivial
  | cons call calls ih =>
    refine ⟨fun _ => ?_, ih fun later hmem => h later (List.mem_cons_of_mem _ hmem)⟩
    obtain ⟨now, capacity, refillRate, orders, rfl⟩ := eq_allow (h call List.mem_cons_self)
    rw [bucket_step_allow, Option.isSome_some]

/-- Four calls for a key that may have two requests at once, and one more a second. -/
def fourCalls : List LimiterCall :=
  [0, 0, 0, 1000000000].map fun now => ⟨now, .allow (str "shop:203.0.113.7") 2 1 fun _ => []⟩

/-- At most three of them are allowed within the first second. -/
theorem bucket_bounded_fourCalls :
    (((allowedTimes (str "shop:203.0.113.7") (run []) fourCalls).filter fun t =>
        0 ≤ seconds t ∧ seconds t ≤ 0 + 1).length : ℚ) ≤ (2 : ℤ) + 1 * (1 + 1 / 100) :=
  have hconst : Constant (str "shop:203.0.113.7") 2 1 ([] ++ fourCalls) := by
    intro now capacity refillRate orders h
    simp only [fourCalls, List.nil_append, List.map_cons, List.map_nil, List.mem_cons,
      LimiterCall.mk.injEq, LimiterOp.allow.injEq, List.not_mem_nil, or_false] at h
    rcases h with h | h | h | h
    all_goals exact ⟨h.2.2.1, h.2.2.2.1⟩
  have hchron : Chronological ([] ++ fourCalls) := by
    simp [Chronological, fourCalls]
  have hkeeps : Keeps (str "shop:203.0.113.7") (run []) fourCalls :=
    keeps_self (by simp [fourCalls, LimiterOp.key])
  (bucket_bounded (by decide) zero_le_one hconst hchron hkeeps).2 0 1 zero_le_one

end RateLimiter

end VibesWaf

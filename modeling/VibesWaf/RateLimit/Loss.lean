import Mathlib.Data.Finset.Dedup
import VibesWaf.RateLimit.TokenBucket

/-!
# Losing buckets

A limiter that loses a bucket makes a new one at the next call for its key, and a new bucket is
full. So losing a bucket makes no difference when the bucket would be full at that call anyway.

A shard that has room evicts nothing, and few keys leave room in every shard (`Named.room`). For
exact numbers `Same` relates two limiters that no later calls tell apart: key by key their buckets
answer alike. A call answers the same in both and leaves them alike (`Same.answer_eq`, `Same.step`),
as long as no shard has to evict anything, and losing settled buckets does too (`same_of_loss`). In
a `Regular` run of few keys no shard has to (`Regular.room`).
-/

namespace VibesWaf.RateLimiter

variable {s : RateLimiter} {call : LimiterCall} {calls past : List LimiterCall} {key : GoString}

/-! ### Room -/

/-- There is room for the key of a call. -/
def Room (s : RateLimiter) (key : GoString) : Prop :=
  key ∈ (s (shardFor key)).keys ∨ (s (shardFor key)).size < maxPerShard

/-- The keys of some calls. -/
def keys (calls : List LimiterCall) : Finset GoString :=
  (calls.filterMap fun call => call.op.key).toFinset

theorem mem_keys : key ∈ keys calls ↔ ∃ call ∈ calls, call.op.key = some key := by
  rw [keys, List.mem_toFinset, List.mem_filterMap]

/-- No shard has more of some names than it may hold. -/
def Fits (names : Finset GoString) : Prop :=
  ∀ i, (names.filter fun key => shardFor key = i).card ≤ maxPerShard

theorem Fits.mono {names names' : Finset GoString} (h : Fits names) (hsub : names' ⊆ names) :
    Fits names' :=
  fun i => (Finset.card_le_card (Finset.filter_subset_filter _ hsub)).trans (h i)

theorem fits_of_card {names : Finset GoString} (h : names.card ≤ maxPerShard) : Fits names :=
  fun _ => (Finset.card_filter_le _ _).trans h

/-- No shard is asked for more keys than it may hold. -/
def FewKeys (calls : List LimiterCall) : Prop :=
  Fits (keys calls)

/-- Each shard holds buckets of its own keys only, and of some names. -/
def Named (names : Finset GoString) (s : RateLimiter) : Prop :=
  ∀ i, ∀ key ∈ (s i).keys, shardFor key = i ∧ key ∈ names

theorem named_new (names : Finset GoString) : Named names newRateLimiter :=
  fun _ key h => absurd h (Finset.notMem_empty key)

/-- **Few keys** leave room in every shard. -/
theorem Named.room {names : Finset GoString} (h : Named names s) (hfits : Fits names)
    (hkey : key ∈ names) : s.Room key := by
  by_cases hmem : key ∈ (s (shardFor key)).keys
  · exact .inl hmem
  · right
    have hsub : insert key (s (shardFor key)).keys ⊆
        names.filter fun k => shardFor k = shardFor key := by
      intro k hk
      rw [Finset.mem_filter]
      rcases Finset.mem_insert.mp hk with rfl | hold
      · exact ⟨hkey, rfl⟩
      · exact ⟨(h _ k hold).2, (h _ k hold).1⟩
    have hcard := (Finset.card_le_card hsub).trans (hfits (shardFor key))
    rwa [Finset.card_insert_of_notMem hmem] at hcard

section Steps

variable [Numbers]

/-- A call for which there is room is about one key: the others keep their buckets. -/
theorem bucket_step_of_room (h : call.op.key = some key) (hroom : s.Room key) {k : GoString}
    (hk : k ≠ key) : (s.step call).bucket k = s.bucket k := by
  obtain ⟨now, capacity, refillRate, orders, rfl⟩ := eq_allow h
  by_cases hshard : shardFor k = shardFor key
  · simp only [bucket, step, hshard, Function.update_self]
    exact RateLimitShard.lookup_allow_of_room hroom hk
  · simp only [bucket, step]
    rw [Function.update_of_ne hshard]

/-- A call adds no key but its own. -/
private theorem mem_keys_step {i : Fin 256} {k : GoString} (h : k ∈ (s.step call i).keys) :
    k ∈ (s i).keys ∨ call.op.key = some k ∧ shardFor k = i := by
  obtain ⟨now, op⟩ := call
  cases op with
  | cleanup => exact .inl (Finset.mem_of_mem_filter k h)
  | allow key capacity refillRate orders =>
    by_cases hi : i = shardFor key
    · subst hi
      by_cases hk : k = key
      · exact .inr ⟨congrArg some hk.symm, congrArg shardFor hk⟩
      · simp only [step, Function.update_self, FiniteMap.mem_keys] at h ⊢
        rcases RateLimitShard.lookup_allow hk with heq | heq
        · exact .inl (heq ▸ h)
        · rw [heq] at h
          exact absurd h (by simp)
    · simp only [step] at h
      rw [Function.update_of_ne hi] at h
      exact .inl h

/-- **A call** for a name adds no other key. -/
theorem Named.step {names : Finset GoString} (h : Named names s)
    (hkey : ∀ key, call.op.key = some key → key ∈ names) : Named names (s.step call) := by
  intro i key hmem
  rcases mem_keys_step hmem with hold | ⟨hname, hshard⟩
  · exact h i key hold
  · exact ⟨hshard, hkey key hname⟩

/-- After some of the calls of a run, its keys name all buckets. -/
theorem named_run (hsub : past ⊆ calls) : Named (keys calls) (run past) := by
  induction past using List.reverseRecOn with
  | nil => exact named_new _
  | append_singleton past call ih =>
    rw [run_append]
    refine (ih fun _ h => hsub (List.mem_append_left _ h)).step fun key hkey => ?_
    exact mem_keys.mpr ⟨call, hsub (List.mem_append_right _ List.mem_cons_self), hkey⟩

end Steps

attribute [local instance] Numbers.exact

/-! ### Limiters that are alike -/

/-- The limits of every key. -/
abbrev Limits := GoString → ℤ × ℚ

/-- Calls have the limits of their keys. -/
def Follows (limits : Limits) (calls : List LimiterCall) : Prop :=
  ∀ key, Constant key (limits key).1 (limits key).2 calls

/-- How the buckets of a key are refilled. -/
def Limits.policy (limits : Limits) (key : GoString) : RefillPolicy ℚ :=
  Bucket.policy (limits key).1 (limits key).2

/-- Every bucket is in order. -/
def AllKept (limits : Limits) (now : ℤ) (s : RateLimiter) : Prop :=
  ∀ key, ∀ b ∈ s.bucket key, b.Kept (limits key).1 (limits key).2 now

/-- Two limiters that no call from a time on tells apart. -/
def Same (limits : Limits) (now : ℤ) (s s' : RateLimiter) : Prop :=
  ∀ key, TokenBucket.SameFrom (limits.policy key) (seconds now) (s.core key) (s'.core key)

/-- The bucket of a key would be full at a call. -/
def Settled (limits : Limits) (now : ℤ) (key : GoString) (b : Bucket) : Prop :=
  b.core.Settled (limits.policy key) (seconds now)

variable {limits : Limits} {s' s'' : RateLimiter} {now later : ℤ}

theorem Same.refl (limits : Limits) (now : ℤ) (s : RateLimiter) : Same limits now s s :=
  fun _ => .refl _ _ _

theorem Same.trans (h : Same limits now s s') (h' : Same limits now s' s'') :
    Same limits now s s'' :=
  fun key => (h key).trans (h' key)

/-- Time moves on. -/
theorem Same.mono (h : Same limits now s s') (hle : now ≤ later) : Same limits later s s' :=
  fun key => (h key).mono (seconds_le hle)

/-- **Losing settled buckets** makes no difference. -/
theorem same_of_loss (hrate : ∀ key, 0 ≤ (limits key).2)
    (h : ∀ key, s'.bucket key = s.bucket key ∨
      s'.bucket key = none ∧ ∀ b ∈ s.bucket key, Settled limits now key b) :
    Same limits now s' s := by
  intro key
  rcases h key with heq | ⟨hnone, hsettled⟩
  · rw [core, core, heq]
    exact .refl _ _ _
  · rw [core, core, hnone]
    cases hbucket : s.bucket key with
    | none => exact .refl _ _ _
    | some b => exact ((hsettled b hbucket).sameFrom (hrate key)).symm

/-- **A bucket that was left alone** for the time it needs to fill is settled. -/
theorem settled_of_kept {b : Bucket} {accessed : ℤ}
    (hb : b.Kept (limits key).1 (limits key).2 accessed) (hrate : 0 ≤ (limits key).2)
    (hlong : 1 / 100 ≤ seconds (now - accessed))
    (hfills : ((limits key).1 : ℚ) ≤ (limits key).2 * seconds (now - accessed)) :
    Settled limits now key b := by
  have helapsed : seconds (now - accessed) ≤ seconds now - seconds b.lastRefill := by
    rw [← seconds_sub]
    exact seconds_le (sub_le_sub_left (hb.refilled.trans hb.accessed) now)
  have hearned : (limits key).2 * seconds (now - accessed) ≤
      (seconds now - seconds b.lastRefill) * (limits key).2 := by
    rw [mul_comm]
    exact mul_le_mul_of_nonneg_right helapsed hrate
  refine ⟨hlong.trans helapsed, ?_⟩
  change ((limits key).1 : ℚ) ≤ b.tokens + (seconds now - seconds b.lastRefill) * (limits key).2
  rcases min_le_iff.mp hb.within.nonneg with hfull | hpos
  · have hnonneg : 0 ≤ (limits key).2 * seconds (now - accessed) :=
      mul_nonneg hrate (by linarith)
    exact hfull.trans (le_add_of_nonneg_right (hnonneg.trans hearned))
  · exact (hfills.trans hearned).trans (le_add_of_nonneg_left hpos)

/-- A call with the limits of its key has the limits of every key it is for. -/
theorem follows_singleton (limits : Limits) (now : ℤ) (key : GoString)
    (orders : ℕ → List GoString) :
    Follows limits [⟨now, .allow key (limits key).1 (limits key).2 orders⟩] := by
  intro key' now' capacity refillRate orders' h
  simp only [List.mem_singleton, LimiterCall.mk.injEq, LimiterOp.allow.injEq] at h
  obtain ⟨-, rfl, rfl, rfl, -⟩ := h
  exact ⟨rfl, rfl⟩

/-- A call with the limits of its key. -/
theorem eq_allow_of_follows (hfollows : Follows limits [call]) (h : call.op.key = some key) :
    ∃ orders, call = ⟨call.now, .allow key (limits key).1 (limits key).2 orders⟩ := by
  obtain ⟨now, capacity, refillRate, orders, rfl⟩ := eq_allow h
  obtain ⟨rfl, rfl⟩ := hfollows key now capacity refillRate orders List.mem_cons_self
  exact ⟨orders, rfl⟩

/-- A call asks the bucket of its key. -/
theorem core_step_of_follows (hfollows : Follows limits [call]) (h : call.op.key = some key)
    (hkept : AllKept limits now s) :
    s.answer call =
        some (TokenBucket.ask (limits.policy key) (seconds call.now) (s.core key)).1 ∧
      (s.step call).core key =
        some (TokenBucket.ask (limits.policy key) (seconds call.now) (s.core key)).2 := by
  obtain ⟨orders, hcall⟩ := eq_allow_of_follows hfollows h
  rw [hcall]
  exact core_step_self (fun b hb => (hkept key b hb).has) call.now orders

/-- **The answers are the same.** -/
theorem Same.answer_eq (h : Same limits call.now s s') (hfollows : Follows limits [call])
    (hkey : call.op.key = some key) (hkept : AllKept limits now s)
    (hkept' : AllKept limits later s') : s.answer call = s'.answer call := by
  rw [(core_step_of_follows hfollows hkey hkept).1, (core_step_of_follows hfollows hkey hkept').1,
    (h key).ask_eq]

/-- **A call leaves the limiters alike.** -/
theorem Same.step (h : Same limits call.now s s') (hfollows : Follows limits [call])
    (hkey : call.op.key = some key) (hkept : AllKept limits now s)
    (hkept' : AllKept limits later s') (hroom : s.Room key) (hroom' : s'.Room key) :
    Same limits call.now (s.step call) (s'.step call) := by
  intro k
  by_cases hk : k = key
  · subst hk
    rw [(core_step_of_follows hfollows hkey hkept).2,
      (core_step_of_follows hfollows hkey hkept').2, (h k).ask_eq]
    exact .refl _ _ _
  · rw [core, core, bucket_step_of_room hkey hroom hk, bucket_step_of_room hkey hroom' hk]
    exact h k

/-! ### Regular runs -/

/-- Calls in order, with the limits of their keys, and few keys. -/
structure Regular (limits : Limits) (calls : List LimiterCall) : Prop where
  follows : Follows limits calls
  chronological : Chronological calls
  fewKeys : FewKeys calls

theorem Regular.sublist {calls' : List LimiterCall} (h : Regular limits calls)
    (hsub : calls'.Sublist calls) : Regular limits calls' where
  follows key := (h.follows key).mono hsub.subset
  chronological := h.chronological.sublist hsub
  fewKeys := by
    refine h.fewKeys.mono fun key hkey => ?_
    obtain ⟨call, hcall, hkey⟩ := mem_keys.mp hkey
    exact mem_keys.mpr ⟨call, hsub.subset hcall, hkey⟩

theorem Regular.follows_last (h : Regular limits (past ++ [call])) : Follows limits [call] :=
  (h.sublist (List.sublist_append_right _ _)).follows

/-- Every bucket is in order when a call comes. -/
theorem Regular.kept (h : Regular limits (past ++ [call])) (hrate : ∀ key, 0 ≤ (limits key).2) :
    AllKept limits call.now (run past) :=
  fun key => kept_run (hrate key) ((h.sublist (List.sublist_append_left _ _)).follows key)
    (List.pairwise_append.mp h.chronological).1
    (pairwise_snoc h.chronological List.prefix_rfl)

/-- There is room for a call when it comes. -/
theorem Regular.room (h : Regular limits (past ++ [call])) (hkey : call.op.key = some key) :
    (run past).Room key :=
  (named_run (List.subset_append_left _ _)).room h.fewKeys
    (mem_keys.mpr ⟨call, List.mem_append_right _ List.mem_cons_self, hkey⟩)

/-! ### Bursts -/

/-- Calls for a key at one time. -/
def burst (limits : Limits) (key : GoString) (now : ℤ) (n : ℕ) : List LimiterCall :=
  List.replicate n ⟨now, .allow key (limits key).1 (limits key).2 fun _ => []⟩

/-- A burst asks its bucket again and again. -/
theorem core_burst {s : RateLimiter} {key : GoString} (hrate : 0 ≤ (limits key).2)
    (hkept : ∀ b ∈ s.bucket key, b.Kept (limits key).1 (limits key).2 now) (n : ℕ) :
    (s.runFrom (burst limits key now n)).core key =
      TokenBucket.after (limits.policy key) (s.core key) (List.replicate n (seconds now)) := by
  induction n generalizing s with
  | zero => rfl
  | succ n ih =>
    have hcore := (core_step_self (fun b hb => (hkept b hb).has) now fun _ => []).2
    have hfollows := follows_singleton limits now key fun _ => []
    have hrest := ih (kept_step hrate (hfollows key) hkept le_rfl)
    rw [hcore] at hrest
    exact hrest

/-- The calls of a burst are for its key, with its limits. -/
theorem mem_burst {n : ℕ} (h : call ∈ burst limits key now n) :
    call = ⟨now, .allow key (limits key).1 (limits key).2 fun _ => []⟩ :=
  List.eq_of_mem_replicate h

theorem now_le_of_mem_burst {key : GoString} {n : ℕ} :
    ∀ call ∈ burst limits key now n, call.now ≤ now := by
  intro call h
  rw [mem_burst h]

end VibesWaf.RateLimiter

import VibesWaf.RateLimit.Loss

/-!
# Forgetting buckets

A limiter forgets a bucket when it evicts it, when the clean-up drops it, and when it is replaced by
a new limiter. A bucket that a call would fill is `Settled`: the call is served like one that finds
no bucket, with all numbers rounded as they are (`Bucket.serve_of_settled`).

So two limiters that serve the same calls answer alike as long as every bucket that only one of them
forgets is settled. Their buckets are `Alike` then: the same, or as good as none in both of them.
`Bucket.Alike.leaves` is what a call for another key does to a pair of buckets,
`Bucket.Alike.serveOrNew_eq` what it does to the buckets it asks, and `RateLimiter.Removes` says
which buckets a call of the limiter removes.
-/

namespace VibesWaf

open Rounding

variable [Numbers]

/-! ### Settled buckets -/

namespace Bucket

variable {capacity : ℤ} {refillRate : ℚ} {now later d : ℤ} {b : Bucket} {o o' : Option Bucket}

/-- A call would fill the bucket. -/
def Settled (now : ℤ) (b : Bucket) : Prop :=
  Arithmetic.round (1 / 100) ≤ Numbers.seconds (now - b.lastRefill) ∧
    b.capacity ≤
      Arithmetic.addMul b.tokens (Numbers.seconds (now - b.lastRefill)) b.refillRate

/-- A settled bucket stays settled until it is asked. -/
theorem Settled.mono (h : b.Settled now) (hrate : 0 ≤ b.refillRate) (hle : now ≤ later) :
    b.Settled later := by
  have hseconds : Numbers.seconds (now - b.lastRefill) ≤ Numbers.seconds (later - b.lastRefill) :=
    Numbers.seconds_mono (sub_le_sub_right hle _)
  exact ⟨h.1.trans hseconds, h.2.trans (Arithmetic.addMul_mono le_rfl hseconds hrate)⟩

/-- A new bucket is not refilled at once. -/
theorem refill_new : (new capacity refillRate now).refill now = new capacity refillRate now := by
  have hshort : ¬ Arithmetic.round (1 / 100) ≤ Numbers.seconds (now - now) := by
    rw [sub_self, Numbers.seconds_zero, not_le]
    exact Arithmetic.round_pos (by norm_num)
  exact if_neg hshort

/-- A new bucket has a token. -/
theorem serveOrNew_none (h : 1 ≤ capacity) :
    (serveOrNew capacity refillRate now none).1 = true := by
  have hone : 1 ≤ (new capacity refillRate now).tokens := by
    rw [← Arithmetic.round_one]
    exact Arithmetic.mono (by exact_mod_cast h)
  have hnew : { new capacity refillRate now with lastAccess := now } =
      new capacity refillRate now := rfl
  rw [serveOrNew, Option.getD_none, serve, hnew, reconfigure_eq has_new, refill_new, take,
    if_pos hone]

/-- **A settled bucket** serves a call like a new one. -/
theorem serve_of_settled (hhas : b.Has capacity refillRate) (h : b.Settled now) :
    b.serve capacity refillRate now =
      (new capacity refillRate now).serve capacity refillRate now := by
  have haccess : { b with lastAccess := now }.Has capacity refillRate := hhas
  have hfull : { b with lastAccess := now }.refill now = new capacity refillRate now := by
    rw [refill, if_pos h.1, min_eq_left h.2, new, hhas.1, hhas.2]
  have hnew : { new capacity refillRate now with lastAccess := now } =
      new capacity refillRate now := rfl
  rw [serve, serve, reconfigure_eq haccess, hfull, hnew, reconfigure_eq has_new, refill_new]

/-- A call leaves a bucket its limits. -/
theorem has_serve (h : b.Has capacity refillRate) :
    (b.serve capacity refillRate now).2.Has capacity refillRate := by
  have haccess : { b with lastAccess := now }.Has capacity refillRate := h
  rw [serve, reconfigure_eq haccess, take]
  split
  · exact has_refill haccess
  · exact has_refill haccess

/-- A bucket that is as good as none: there is none, or it is settled. -/
def AsNew (capacity : ℤ) (refillRate : ℚ) (now : ℤ) (o : Option Bucket) : Prop :=
  ∀ b ∈ o, b.Has capacity refillRate ∧ b.Settled now

theorem AsNew.serveOrNew_eq (h : AsNew capacity refillRate now o) :
    serveOrNew capacity refillRate now o = serveOrNew capacity refillRate now none := by
  cases o with
  | none => rfl
  | some b => exact serve_of_settled (h b rfl).1 (h b rfl).2

theorem AsNew.mono (h : AsNew capacity refillRate now o) (hrate : 0 ≤ refillRate)
    (hle : now ≤ later) : AsNew capacity refillRate later o := fun b hb =>
  ⟨(h b hb).1, (h b hb).2.mono (hrate.trans_eq (h b hb).1.2.symm) hle⟩

/-- No call from a time on tells two buckets apart. -/
def Alike (capacity : ℤ) (refillRate : ℚ) (now : ℤ) (o o' : Option Bucket) : Prop :=
  o = o' ∨ AsNew capacity refillRate now o ∧ AsNew capacity refillRate now o'

/-- **A call** is served alike, and leaves the same bucket. -/
theorem Alike.serveOrNew_eq (h : Alike capacity refillRate now o o') :
    serveOrNew capacity refillRate now o = serveOrNew capacity refillRate now o' := by
  rcases h with rfl | ⟨h, h'⟩
  · rfl
  · rw [h.serveOrNew_eq, h'.serveOrNew_eq]

theorem Alike.mono (h : Alike capacity refillRate now o o') (hrate : 0 ≤ refillRate)
    (hle : now ≤ later) : Alike capacity refillRate later o o' :=
  h.imp_right fun h => ⟨h.1.mono hrate hle, h.2.mono hrate hle⟩

theorem Alike.symm (h : Alike capacity refillRate now o o') : Alike capacity refillRate now o' o :=
  h.imp Eq.symm And.symm

/-- **Forgetting a settled bucket** goes unnoticed. -/
theorem Alike.forget (h : Alike capacity refillRate now o o')
    (hsettled : AsNew capacity refillRate now o) : Alike capacity refillRate now none o' := by
  refine .inr ⟨fun b hb => absurd hb (by simp), ?_⟩
  rcases h with rfl | ⟨-, h'⟩
  · exact hsettled
  · exact h'

/-- What is left of a bucket that may be removed. -/
structure Leaves (removed : Prop) (o n : Option Bucket) : Prop where
  removes : removed → n = none
  keeps : ¬ removed → n = o

/-- **Two buckets that may be removed** stay alike if one that is removed alone is settled. -/
theorem Alike.leaves {removed removed' : Prop} {n n' : Option Bucket}
    (h : Alike capacity refillRate now o o') (hn : Leaves removed o n) (hn' : Leaves removed' o' n')
    (hsettled : removed → ¬ removed' → AsNew capacity refillRate now o)
    (hsettled' : removed' → ¬ removed → AsNew capacity refillRate now o') :
    Alike capacity refillRate now n n' := by
  by_cases hremoved : removed
  · rw [hn.removes hremoved]
    by_cases hremoved' : removed'
    · exact .inl (hn'.removes hremoved').symm
    · rw [hn'.keeps hremoved']
      exact h.forget (hsettled hremoved hremoved')
  · rw [hn.keeps hremoved]
    by_cases hremoved' : removed'
    · rw [hn'.removes hremoved']
      exact (h.symm.forget (hsettled' hremoved' hremoved)).symm
    · rwa [hn'.keeps hremoved']

/-- What holds of a bucket between calls: it has its limits, its tokens are not negative, and its
last refill was not after its last access. -/
structure Tended (capacity : ℤ) (refillRate : ℚ) (b : Bucket) : Prop where
  has : b.Has capacity refillRate
  nonneg : 0 ≤ b.tokens
  refilled : b.lastRefill ≤ b.lastAccess

theorem tended_new (hcapacity : 0 ≤ capacity) : (new capacity refillRate now).Tended capacity
    refillRate where
  has := has_new
  nonneg := Arithmetic.round_nonneg (by exact_mod_cast hcapacity)
  refilled := le_rfl

/-- **A call** tends the bucket it is served from, and it is the last one that asked it. -/
theorem tended_serve (hcapacity : 0 ≤ capacity) (hrate : 0 ≤ refillRate)
    (h : b.Tended capacity refillRate) (hnow : b.lastAccess ≤ now) :
    (b.serve capacity refillRate now).2.Tended capacity refillRate ∧
      (b.serve capacity refillRate now).2.lastAccess = now := by
  have haccess : { b with lastAccess := now }.Has capacity refillRate := h.has
  have hrefill : ({ b with lastAccess := now }.refill now).Tended capacity refillRate ∧
      ({ b with lastAccess := now }.refill now).lastAccess = now := by
    refine ⟨⟨has_refill haccess, ?_, ?_⟩, ?_⟩
    · rw [refill]
      split
      · rename_i hlong
        have hpositive : 0 ≤ Arithmetic.round (1 / 100) := Arithmetic.round_nonneg (by norm_num)
        have hfull : 0 ≤ b.capacity := by
          rw [h.has.1]
          exact Arithmetic.round_nonneg (by exact_mod_cast hcapacity)
        exact le_min hfull (Arithmetic.addMul_nonneg h.nonneg (hpositive.trans hlong)
          (hrate.trans_eq h.has.2.symm))
      · exact h.nonneg
    · rw [refill]
      split
      · exact le_rfl
      · exact h.refilled.trans hnow
    · rw [refill]
      split <;> rfl
  rw [serve, reconfigure_eq haccess]
  generalize { b with lastAccess := now }.refill now = c at hrefill
  obtain ⟨htended, hlast⟩ := hrefill
  rw [take]
  split
  · rename_i hone
    exact ⟨⟨htended.has, Arithmetic.round_nonneg (sub_nonneg.mpr hone), htended.refilled⟩, hlast⟩
  · exact ⟨htended, hlast⟩

/-- A time in which limits restore all of their tokens. -/
def Restores (capacity : ℤ) (refillRate : ℚ) (d : ℤ) : Prop :=
  Arithmetic.round (1 / 100) ≤ Numbers.seconds d ∧
    Arithmetic.round capacity ≤ Arithmetic.addMul 0 (Numbers.seconds d) refillRate

instance restoresDecidable (capacity : ℤ) (refillRate : ℚ) (d : ℤ) :
    Decidable (Restores capacity refillRate d) :=
  inferInstanceAs (Decidable (_ ∧ _))

/-- **A bucket that was left alone** for that time is settled. -/
theorem Tended.settled (h : b.Tended capacity refillRate) (hrate : 0 ≤ refillRate)
    (hrestores : Restores capacity refillRate d) (hidle : b.lastAccess + d ≤ now) :
    b.Settled now := by
  have hrefilled := h.refilled
  have hseconds : Numbers.seconds d ≤ Numbers.seconds (now - b.lastRefill) :=
    Numbers.seconds_mono (by omega)
  refine ⟨hrestores.1.trans hseconds, ?_⟩
  rw [h.has.1, h.has.2]
  exact hrestores.2.trans (Arithmetic.addMul_mono h.nonneg hseconds hrate)

end Bucket

/-! ### What a call removes -/

namespace RateLimiter

variable {s s' : RateLimiter} {call : LimiterCall} {key k : GoString} {capacity : ℤ}
  {refillRate : ℚ} {now later : ℤ} {orders : ℕ → List GoString}

/-- A call removes the bucket of a key: it is evicted from a full shard before a new key, or it is
too old for the clean-up. -/
def Removes (s : RateLimiter) (call : LimiterCall) (k : GoString) : Prop :=
  match call.op with
  | .allow key _ _ orders =>
    let sh := s (shardFor key)
    shardFor k = shardFor key ∧ sh.lookup key = none ∧ maxPerShard ≤ sh.size ∧
      (sh.evictOldest orders).lookup k = none
  | .cleanup => ∃ b ∈ s.bucket k, bucketTTL < call.now - b.lastAccess

omit [Numbers] in
/-- Where there is room for its key a request removes nothing. -/
theorem not_removes_of_room (hroom : s.Room key) :
    ¬ s.Removes ⟨now, .allow key capacity refillRate orders⟩ k := by
  rintro ⟨-, hunknown, hsize, -⟩
  rcases hroom with hkey | hless
  · exact FiniteMap.not_mem_keys.mpr hunknown hkey
  · exact absurd hsize (not_le.mpr hless)

/-- A call leaves the bucket of another key as it is, or removes it. -/
theorem leaves_step (h : call.op.key ≠ some k) :
    Bucket.Leaves (s.Removes call k) (s.bucket k) ((s.step call).bucket k) := by
  obtain ⟨now, op⟩ := call
  cases op with
  | cleanup =>
    rw [bucket_step_cleanup]
    cases hbucket : s.bucket k with
    | none => exact ⟨fun _ => rfl, fun _ => rfl⟩
    | some b =>
      have hold : s.Removes ⟨now, .cleanup⟩ k ↔ bucketTTL < now - b.lastAccess := by
        simp [Removes, hbucket]
      rw [Option.filter_some, hold]
      exact ⟨fun h => if_neg (by rwa [decide_eq_true_eq, not_not]),
        fun h => if_pos (decide_eq_true h)⟩
  | allow key capacity refillRate orders =>
    have hne : k ≠ key := fun heq => h (congrArg some heq.symm)
    by_cases hshard : shardFor k = shardFor key
    · by_cases hroom : key ∈ (s (shardFor key)).keys ∨ (s (shardFor key)).size < maxPerShard
      · simp only [bucket, step, hshard, Function.update_self]
        exact ⟨fun h => absurd h (not_removes_of_room hroom),
          fun _ => RateLimitShard.lookup_allow_of_room hroom hne⟩
      · obtain ⟨hkey, hsize⟩ := not_or.mp hroom
        have hunknown := FiniteMap.not_mem_keys.mp hkey
        have hevicts : (s.step ⟨now, .allow key capacity refillRate orders⟩).bucket k =
            ((s (shardFor key)).evictOldest orders).lookup k := by
          simp only [bucket, step, hshard, Function.update_self, RateLimitShard.allow, hunknown,
            if_pos (not_lt.mp hsize), FiniteMap.lookup_insert, if_neg hne]
        rw [hevicts, bucket, hshard]
        refine ⟨fun h => h.2.2.2, fun h => ?_⟩
        rcases RateLimitShard.lookup_evictOldest orders (s (shardFor key)) k with hsame | hgone
        · exact hsame
        · exact absurd ⟨hshard, hunknown, not_lt.mp hsize, hgone⟩ h
    · simp only [bucket, step]
      rw [Function.update_of_ne hshard]
      exact ⟨fun h => absurd h.1 hshard, fun _ => rfl⟩

omit [Numbers] in
/-- A request is for its own key. -/
theorem ne_key (now capacity : ℤ) (refillRate : ℚ) (orders : ℕ → List GoString) (h : k ≠ key) :
    (LimiterCall.mk now (.allow key capacity refillRate orders)).op.key ≠ some k :=
  fun heq => h (Option.some.inj heq).symm

/-- The buckets after a request are those before it, and the one that served it. -/
theorem mem_bucket_step_allow {b : Bucket}
    (hb : b ∈ (s.step ⟨now, .allow key capacity refillRate orders⟩).bucket k) :
    b ∈ s.bucket k ∨ b = (Bucket.serveOrNew capacity refillRate now (s.bucket key)).2 := by
  by_cases hk : k = key
  · subst hk
    rw [bucket_step_allow] at hb
    exact .inr (Option.some.inj hb).symm
  · rcases bucket_step_frame (s := s) (k := k) (ne_key now capacity refillRate orders hk)
      with hsame | hgone
    · exact .inl (hsame ▸ hb)
    · rw [hgone] at hb
      exact absurd hb (by simp)

/-- The buckets after a clean-up are some of those before it. -/
theorem mem_bucket_step_cleanup {b : Bucket} (hb : b ∈ (s.step ⟨now, .cleanup⟩).bucket k) :
    b ∈ s.bucket k := by
  rw [bucket_step_cleanup] at hb
  exact (Option.filter_eq_some_iff.mp hb).1

/-! ### Limiters -/

/-- Every bucket has the same limits. -/
def AllHave (capacity : ℤ) (refillRate : ℚ) (s : RateLimiter) : Prop :=
  ∀ key, ∀ b ∈ s.bucket key, b.Has capacity refillRate

theorem allHave_new : AllHave capacity refillRate newRateLimiter :=
  fun key _ hb => absurd hb (by simp [bucket_newRateLimiter key])

/-- A request with these limits keeps them. -/
theorem AllHave.allow (h : AllHave capacity refillRate s) :
    AllHave capacity refillRate (s.step ⟨now, .allow key capacity refillRate orders⟩) := by
  intro k b hb
  rcases mem_bucket_step_allow hb with hold | rfl
  · exact h k b hold
  · cases hbucket : s.bucket key with
    | none => exact Bucket.has_serve Bucket.has_new
    | some b => exact Bucket.has_serve (h key b hbucket)

theorem AllHave.cleanup (h : AllHave capacity refillRate s) :
    AllHave capacity refillRate (s.step ⟨now, .cleanup⟩) :=
  fun k b hb => h k b (mem_bucket_step_cleanup hb)

/-- No call from a time on tells two limiters apart. -/
def Alike (capacity : ℤ) (refillRate : ℚ) (now : ℤ) (s s' : RateLimiter) : Prop :=
  ∀ key, Bucket.Alike capacity refillRate now (s.bucket key) (s'.bucket key)

theorem Alike.mono (h : Alike capacity refillRate now s s') (hrate : 0 ≤ refillRate)
    (hle : now ≤ later) : Alike capacity refillRate later s s' :=
  fun key => (h key).mono hrate hle

end RateLimiter

end VibesWaf

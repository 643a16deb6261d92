import VibesWaf.RateLimit.Loss

/-!
# The clean-up of the rate limiter

Every minute the clean-up drops the buckets that were not asked for ten minutes. That makes no
difference to a key whose bucket fills up in that time, and a bucket that is empty when it was last
asked fills up in that time exactly when the capacity is at most what ten minutes earn.
`cleanup_harmless_iff` is this dividing line: a limit of, say, two requests an hour is forgotten
after ten minutes.
-/

namespace VibesWaf.RateLimiter

attribute [local instance] Numbers.exact

variable {limits : Limits} {calls : List LimiterCall} {now : ℤ}

/-- The calls without the clean-ups. -/
def withoutCleanup (calls : List LimiterCall) : List LimiterCall :=
  calls.filter fun call => call.op.key.isSome

theorem withoutCleanup_snoc (past : List LimiterCall) (call : LimiterCall) :
    withoutCleanup (past ++ [call]) =
      if call.op.key.isSome then withoutCleanup past ++ [call] else withoutCleanup past := by
  rw [withoutCleanup, List.filter_append]
  cases hkey : call.op.key.isSome <;> simp [withoutCleanup, hkey]

/-! ### Clean-ups that make no difference -/

/-- Every clean-up of a run drops settled buckets only. -/
def DropsSettled (limits : Limits) (calls : List LimiterCall) : Prop :=
  ∀ past now, past ++ [⟨now, .cleanup⟩] <+: calls →
    ∀ key, ∀ b ∈ (run past).bucket key, bucketTTL < now - b.lastAccess → Settled limits now key b

/-- Dropping settled buckets makes no difference. -/
private theorem same_cleanup {s : RateLimiter} (hrate : ∀ key, 0 ≤ (limits key).2)
    (h : ∀ key, ∀ b ∈ s.bucket key, bucketTTL < now - b.lastAccess → Settled limits now key b) :
    Same limits now (s.step ⟨now, .cleanup⟩) s := by
  refine same_of_loss hrate fun key => ?_
  rw [bucket_step_cleanup]
  cases hbucket : s.bucket key with
  | none => exact .inl rfl
  | some b =>
    rw [Option.filter_some]
    by_cases hidle : bucketTTL < now - b.lastAccess
    · refine .inr ⟨if_neg (by rwa [decide_eq_true_eq, not_not]), fun b' hb' => ?_⟩
      obtain rfl := Option.some.inj hb'
      exact h key b hbucket hidle
    · exact .inl (if_pos (decide_eq_true hidle))

/-- A run without its clean-ups is regular as well. -/
private theorem regular_without {past : List LimiterCall} {call : LimiterCall} {key : GoString}
    (hregular : Regular limits (past ++ [call])) (hkey : call.op.key = some key) :
    Regular limits (withoutCleanup past ++ [call]) := by
  refine hregular.sublist ?_
  have hsnoc : withoutCleanup (past ++ [call]) = withoutCleanup past ++ [call] := by
    rw [withoutCleanup_snoc, hkey, Option.isSome_some, if_pos rfl]
  exact hsnoc ▸ List.filter_sublist

/-- **The invariant of a run**: a limiter that dropped settled buckets is like one that did not. -/
theorem same_run (hrate : ∀ key, 0 ≤ (limits key).2) (hregular : Regular limits calls)
    (hdrops : DropsSettled limits calls) (hnow : ∀ call ∈ calls, call.now ≤ now) :
    Same limits now (run calls) (run (withoutCleanup calls)) := by
  refine run_induction (P := fun past => ∀ now, (∀ call ∈ past, call.now ≤ now) →
    Same limits now (run past) (run (withoutCleanup past))) ?_ ?_ now hnow
  · exact fun now _ => Same.refl limits now _
  · intro past call hpast ih now hnow
    have hnext : Regular limits (past ++ [call]) := hregular.sublist hpast.sublist
    have hsame : Same limits call.now (run past) (run (withoutCleanup past)) :=
      ih _ (pairwise_snoc hregular.chronological hpast)
    refine Same.mono ?_ (hnow call (List.mem_append_right _ List.mem_cons_self))
    rw [run_append, withoutCleanup_snoc]
    cases hkey : call.op.key with
    | none =>
      obtain ⟨now', rfl⟩ := eq_cleanup hkey
      exact (same_cleanup hrate (hdrops past now' hpast)).trans hsame
    | some key =>
      have hwithout := regular_without hnext hkey
      rw [Option.isSome_some, if_pos rfl, run_append]
      exact hsame.step hnext.follows_last hkey (hnext.kept hrate) (hwithout.kept hrate)
        (hnext.room hkey) (hwithout.room hkey)

/-- **Clean-ups that drop settled buckets** change no answer. -/
theorem answer_eq_withoutCleanup (hrate : ∀ key, 0 ≤ (limits key).2)
    (hregular : Regular limits calls) (hdrops : DropsSettled limits calls)
    {past : List LimiterCall} {call : LimiterCall} (hpast : past ++ [call] <+: calls)
    {key : GoString} (hkey : call.op.key = some key) :
    (run past).answer call = (run (withoutCleanup past)).answer call := by
  have hnext : Regular limits (past ++ [call]) := hregular.sublist hpast.sublist
  have hdrops' : DropsSettled limits past := fun past' now' hpast' =>
    hdrops past' now' (hpast'.trans ((List.prefix_append _ _).trans hpast))
  have hsame := same_run hrate (hnext.sublist (List.sublist_append_left _ _)) hdrops'
    (pairwise_snoc hregular.chronological hpast)
  exact hsame.answer_eq hnext.follows_last hkey (hnext.kept hrate)
    ((regular_without hnext hkey).kept hrate)

/-! ### Limits that ten minutes restore -/

/-- **Ten idle minutes** settle a bucket that they can fill. -/
private theorem settled_of_idle {key : GoString} {b : Bucket}
    (hb : b.Kept (limits key).1 (limits key).2 now) (hrate : 0 ≤ (limits key).2)
    (hfills : ((limits key).1 : ℚ) ≤ (limits key).2 * seconds (bucketTTL + 1))
    (hidle : bucketTTL < now - b.lastAccess) : Settled limits now key b := by
  have hidle' : seconds (bucketTTL + 1) ≤ seconds (now - b.lastAccess) := seconds_le (by omega)
  have hlong : 1 / 100 ≤ seconds (bucketTTL + 1) := by norm_num [seconds, bucketTTL]
  exact settled_of_kept { hb with accessed := le_rfl } hrate (hlong.trans hidle')
    (hfills.trans (mul_le_mul_of_nonneg_left hidle' hrate))

/-- Clean-ups are harmless for some limits: whatever is allowed with them is allowed without. -/
def CleanupHarmless (limits : Limits) : Prop :=
  ∀ calls, Regular limits calls → ∀ past call, past ++ [call] <+: calls →
    (run past).answer call = some true → (run (withoutCleanup past)).answer call = some true

/-- Limits that ten minutes restore make every clean-up drop settled buckets. -/
private theorem dropsSettled (hrate : ∀ key, 0 ≤ (limits key).2) (hregular : Regular limits calls)
    (hfills : ∀ key, ((limits key).1 : ℚ) ≤ (limits key).2 * seconds (bucketTTL + 1)) :
    DropsSettled limits calls := by
  intro past now' hpast key b hb hidle
  have hnext := hregular.sublist hpast.sublist
  exact settled_of_idle (hnext.kept hrate key b hb) (hrate key) (hfills key) hidle

/-! ### Limits that they do not restore -/

/-- Calls for one key, in order, are regular. -/
theorem regular_of_key (key : GoString) (hchron : Chronological calls)
    (h : ∀ call ∈ calls, call.op = .cleanup ∨
      call.op = .allow key (limits key).1 (limits key).2 fun _ => []) : Regular limits calls where
  follows k now capacity refillRate orders hmem := by
    rcases h _ hmem with hop | hop
    · exact absurd hop (by simp)
    · obtain ⟨rfl, rfl, rfl, -⟩ := LimiterOp.allow.inj hop
      exact ⟨rfl, rfl⟩
  chronological := hchron
  fewKeys := by
    have hsub : keys calls ⊆ {key} := by
      intro k hk
      obtain ⟨call, hcall, hkey⟩ := mem_keys.mp hk
      rw [Finset.mem_singleton]
      rcases h call hcall with hop | hop
      · rw [hop] at hkey
        exact absurd hkey (by simp [LimiterOp.key])
      · rw [hop] at hkey
        exact (Option.some.inj hkey).symm
    refine fits_of_card ((Finset.card_le_card hsub).trans ?_)
    rw [Finset.card_singleton]
    decide

/-- A burst, a clean-up when it has just become idle, and another burst. -/
def forgotten (limits : Limits) (key : GoString) (n m : ℕ) : List LimiterCall :=
  burst limits key 0 n ++ ⟨bucketTTL + 1, .cleanup⟩ :: burst limits key (bucketTTL + 1) m

theorem regular_forgotten (limits : Limits) (key : GoString) (n m : ℕ) :
    Regular limits (forgotten limits key n m) := by
  have hburst : ∀ now n, Chronological (burst limits key now n) := fun now n =>
    List.pairwise_replicate.mpr (.inr le_rfl)
  refine regular_of_key key ?_ fun call hcall => ?_
  · refine List.pairwise_append.mpr ⟨hburst 0 n, List.pairwise_cons.mpr ⟨?_, hburst _ m⟩, ?_⟩
    · intro later hlater
      rw [mem_burst hlater]
    · intro call hcall later hlater
      rw [mem_burst hcall]
      have hpositive : 0 ≤ bucketTTL + 1 := by decide
      rcases List.mem_cons.mp hlater with rfl | hlater
      · exact hpositive
      · rw [mem_burst hlater]
        exact hpositive
  · rcases List.mem_append.mp hcall with h | h
    · exact .inr (congrArg LimiterCall.op (mem_burst h))
    · rcases List.mem_cons.mp h with rfl | h
      · exact .inl rfl
      · exact .inr (congrArg LimiterCall.op (mem_burst h))

/-- Each call of the second burst comes after the calls of it before. -/
theorem forgotten_prefix (limits : Limits) (key : GoString) (n : ℕ) {k m : ℕ} (hk : k < m) :
    forgotten limits key n k ++
        [⟨bucketTTL + 1, .allow key (limits key).1 (limits key).2 fun _ => []⟩] <+:
      forgotten limits key n m := by
  obtain ⟨d, rfl⟩ := Nat.exists_eq_add_of_lt hk
  refine ⟨burst limits key (bucketTTL + 1) d, ?_⟩
  have hsplit : burst limits key (bucketTTL + 1) (k + d + 1) =
      burst limits key (bucketTTL + 1) k ++
        ⟨bucketTTL + 1, .allow key (limits key).1 (limits key).2 fun _ => []⟩ ::
          burst limits key (bucketTTL + 1) d := by
    rw [burst, burst, burst, Nat.add_assoc, List.replicate_add, List.replicate_succ]
  simp only [forgotten, hsplit, List.append_assoc, List.cons_append, List.nil_append]

/-- After the clean-up the bucket is a new one. -/
theorem core_forgotten {key : GoString} (hrate : ∀ key, 0 ≤ (limits key).2) (n k : ℕ) :
    (run (forgotten limits key n k)).core key =
      TokenBucket.after (limits.policy key) none
        (List.replicate k (seconds (bucketTTL + 1))) := by
  have hregular : Regular limits (burst limits key 0 n ++ [⟨bucketTTL + 1, .cleanup⟩]) :=
    regular_forgotten limits key n 0
  have hgone : (run (burst limits key 0 n ++ [⟨bucketTTL + 1, .cleanup⟩])).bucket key = none := by
    rw [run_append]
    refine (bucket_step_cleanup _ _ key).trans (Option.filter_eq_none_iff.mpr fun b hb => ?_)
    have hfirst := hregular.sublist (List.sublist_append_left _ _)
    have haccess := (kept_run (hrate key) (hfirst.follows key) hfirst.chronological
      now_le_of_mem_burst b hb).accessed
    rw [decide_eq_true_eq, not_not]
    omega
  have hsplit : forgotten limits key n k =
      (burst limits key 0 n ++ [⟨bucketTTL + 1, .cleanup⟩]) ++
        burst limits key (bucketTTL + 1) k := by
    simp [forgotten]
  rw [hsplit, run_append, core_burst (hrate key)]
  · rw [core, hgone, Option.map_none]
  · intro b hb
    rw [hgone] at hb
    exact absurd hb (by simp)

/-- Without it, it is the one the first burst left. -/
theorem core_forgotten_without {key : GoString} (hrate : ∀ key, 0 ≤ (limits key).2) (n k : ℕ) :
    (run (withoutCleanup (forgotten limits key n k))).core key =
      TokenBucket.after (limits.policy key)
        (TokenBucket.after (limits.policy key) none (List.replicate n (seconds 0)))
        (List.replicate k (seconds (bucketTTL + 1))) := by
  have hkeep : ∀ now n, withoutCleanup (burst limits key now n) = burst limits key now n :=
    fun now n => List.filter_eq_self.mpr fun call hcall => by
      rw [mem_burst hcall, LimiterOp.key, Option.isSome_some]
  have hwithout : withoutCleanup (forgotten limits key n k) =
      burst limits key 0 n ++ burst limits key (bucketTTL + 1) k := by
    have hsecond := hkeep (bucketTTL + 1) k
    have hfirst := hkeep 0 n
    rw [withoutCleanup] at hfirst hsecond
    rw [withoutCleanup, forgotten, List.filter_append, hfirst, List.filter_cons_of_neg (by decide),
      hsecond]
  have hfirst : Regular limits (burst limits key 0 n) :=
    (regular_forgotten limits key n 0).sublist (List.sublist_append_left _ _)
  have hempty : (newRateLimiter.bucket key) = none := rfl
  rw [hwithout, run_append, core_burst (hrate key), run, core_burst (hrate key)]
  · rw [core, hempty, Option.map_none]
  · intro b hb
    rw [hempty] at hb
    exact absurd hb (by simp)
  · exact kept_run (hrate key) (hfirst.follows key) hfirst.chronological fun call hcall =>
      (now_le_of_mem_burst call hcall).trans (by decide)

/-- **A limit that ten minutes do not restore** is forgotten with its bucket. -/
theorem fills_of_harmless (hrate : ∀ key, 0 < (limits key).2) (h : CleanupHarmless limits)
    (key : GoString) : ((limits key).1 : ℚ) ≤ (limits key).2 * seconds (bucketTTL + 1) := by
  have hrate' : ∀ key, 0 ≤ (limits key).2 := fun key => (hrate key).le
  have hgran : 0 < (limits.policy key).granularity := by norm_num [Limits.policy, Bucket.policy]
  have hlong : (0 : ℚ) < seconds (bucketTTL + 1) := by norm_num [seconds, bucketTTL]
  rcases le_or_gt (limits key).1 0 with hneg | hpos
  · have hcapacity : ((limits key).1 : ℚ) ≤ 0 := by exact_mod_cast hneg
    exact hcapacity.trans (mul_nonneg (hrate' key) hlong.le)
  obtain ⟨n, hn⟩ := Int.eq_ofNat_of_zero_le hpos.le
  have hcapacity : (limits.policy key).capacity = n := by
    change ((limits key).1 : ℚ) = n
    rw [hn, Int.cast_natCast]
  have hfresh : ∀ now, (TokenBucket.found (limits.policy key) now none).tokens = n := fun now => by
    rw [TokenBucket.found_none]
    exact hcapacity
  have hfull : ∀ now, n = 0 ∨ (n : ℚ) ≤ (TokenBucket.found (limits.policy key) now none).tokens :=
    fun now => .inr (hfresh now).ge
  -- with the clean-up the second burst is allowed, so without it as well
  have hallowed : ∀ k < n, (TokenBucket.ask (limits.policy key) (seconds (bucketTTL + 1))
      (TokenBucket.after (limits.policy key)
        (TokenBucket.after (limits.policy key) none (List.replicate n (seconds 0)))
        (List.replicate k (seconds (bucketTTL + 1))))).1 = true := by
    intro k hk
    have hprefix := forgotten_prefix limits key n hk
    have hregular := (regular_forgotten limits key n n).sublist hprefix.sublist
    have hwith := core_step_of_follows hregular.follows_last rfl (hregular.kept hrate')
    have hwithout := core_step_of_follows hregular.follows_last rfl
      ((regular_without hregular rfl).kept hrate')
    have hcall := h _ (regular_forgotten limits key n n) _ _ hprefix
    rw [hwith.1, hwithout.1, Option.some_inj, Option.some_inj, core_forgotten hrate',
      core_forgotten_without hrate'] at hcall
    exact hcall ((TokenBucket.burst_iff hgran none n).mpr (hfull _) k hk)
  -- the first burst has left no token
  have hpositive : n ≠ 0 := by omega
  have hleft : TokenBucket.after (limits.policy key) none (List.replicate n (seconds 0)) =
      some ⟨0, 0⟩ := by
    rw [TokenBucket.after_replicate hgran hpositive (hfresh _).ge, hfresh, sub_self,
      TokenBucket.found_none, TokenBucket.fresh, seconds_zero]
  have hearned := (or_iff_right hpositive).mp ((TokenBucket.burst_iff hgran _ n).mp hallowed)
  rw [hleft, TokenBucket.found, Option.getD_some, TokenBucket.refill, if_pos ?_, zero_add,
    sub_zero] at hearned
  · rw [mul_comm] at hearned
    rw [hn, Int.cast_natCast]
    exact hearned.trans (min_le_right _ _)
  · norm_num [Limits.policy, Bucket.policy, seconds, bucketTTL]

/-- **The clean-up grants nothing** exactly for limits that its ten minutes, and the nanosecond by
which they have to be exceeded, restore. -/
theorem cleanup_harmless_iff (hrate : ∀ key, 0 < (limits key).2) :
    CleanupHarmless limits ↔
      ∀ key, ((limits key).1 : ℚ) ≤ (limits key).2 * seconds (bucketTTL + 1) := by
  have hrate' : ∀ key, 0 ≤ (limits key).2 := fun key => (hrate key).le
  refine ⟨fun h => fills_of_harmless hrate h, fun hfills calls hregular past call hpast hcall => ?_⟩
  cases hkey : call.op.key with
  | none =>
    obtain ⟨now, rfl⟩ := eq_cleanup hkey
    exact absurd hcall (by simp [answer])
  | some key =>
    rw [← answer_eq_withoutCleanup hrate' hregular (dropsSettled hrate' hregular hfills) hpast hkey]
    exact hcall

/-- Two requests an hour. -/
def hourly : Limits :=
  fun _ => (2, 2 / 3600)

/-- Two requests an hour are more than ten minutes restore. -/
theorem cleanup_harmless_iff_hourly :
    CleanupHarmless hourly ↔
      ∀ key, ((hourly key).1 : ℚ) ≤ (hourly key).2 * seconds (bucketTTL + 1) :=
  cleanup_harmless_iff fun _ => by norm_num [hourly]

/-- So they are forgotten: two requests are allowed, and ten minutes later two more. -/
theorem cleanup_grants_hourly :
    ¬ ∀ limits : Limits, (∀ key, 0 < (limits key).2) → CleanupHarmless limits := by
  intro h
  have hrate : ∀ key, 0 < (hourly key).2 := fun _ => by norm_num [hourly]
  have hfills := fills_of_harmless hrate (h hourly hrate) (str "shop:203.0.113.7")
  norm_num [hourly, seconds, bucketTTL] at hfills

end VibesWaf.RateLimiter

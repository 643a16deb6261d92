import Mathlib.Algebra.Order.Field.Basic
import Mathlib.Tactic.Linarith
import Mathlib.Tactic.Ring
import VibesWaf.Lib.Run

/-!
# Token buckets

A bucket holds at most `capacity` tokens and gains `rate` of them in a unit of time. It is made full
when it is first asked, and it is refilled lazily, at each question: a refill adds what the time
since the last one has earned, and is put off while that time is below a granularity. A token is
granted when there is one.

Two questions are answered once for every such bucket. How many tokens does it grant in an interval?
The potential is its `credit`, the tokens it has and the ones it has earned: asking never raises it,
and a grant costs one (`length_grants_filter_le`). When is a bucket as good as a new one? When it
would be full at the next question; from then on nothing tells the two apart (`SameFrom`,
`Settled.sameFrom`). Before, asking for the whole capacity at once does (`burst_iff`).
-/

namespace VibesWaf

/-- The tokens of a bucket, and the time of its last refill. -/
@[ext] structure TokenBucket (K : Type*) where
  tokens : K
  lastRefill : K

/-- How a kind of buckets is refilled. -/
structure RefillPolicy (K : Type*) where
  capacity : K
  rate : K
  granularity : K

namespace TokenBucket

variable {K : Type*} [Field K] [LinearOrder K]

/-- A new bucket is full. -/
def fresh (p : RefillPolicy K) (now : K) : TokenBucket K :=
  ⟨p.capacity, now⟩

/-- The refill before a question. -/
def refill (p : RefillPolicy K) (now : K) (b : TokenBucket K) : TokenBucket K :=
  if p.granularity ≤ now - b.lastRefill then
    ⟨min p.capacity (b.tokens + (now - b.lastRefill) * p.rate), now⟩
  else b

/-- A token is taken, if there is one. -/
def take (b : TokenBucket K) : Bool × TokenBucket K :=
  if 1 ≤ b.tokens then (true, { b with tokens := b.tokens - 1 }) else (false, b)

/-- The bucket a question finds: one that is not there is made. -/
def found (p : RefillPolicy K) (now : K) (b : Option (TokenBucket K)) : TokenBucket K :=
  (b.getD (fresh p now)).refill p now

/-- A question at a time: whether a token is granted, and the bucket after it. -/
def ask (p : RefillPolicy K) (now : K) (b : Option (TokenBucket K)) : Bool × TokenBucket K :=
  (found p now b).take

/-- The bucket after some questions. -/
def after (p : RefillPolicy K) (b : Option (TokenBucket K)) (times : List K) :
    Option (TokenBucket K) :=
  times.foldl (fun b now => some (ask p now b).2) b

/-- The times of some questions at which a token is granted. -/
def grants (p : RefillPolicy K) : Option (TokenBucket K) → List K → List K
  | _, [] => []
  | b, now :: times =>
    (if (ask p now b).1 then [now] else []) ++ grants p (some (ask p now b).2) times

variable {p : RefillPolicy K} {b : TokenBucket K} {now later : K}

theorem after_append (p : RefillPolicy K) (b : Option (TokenBucket K)) (times times' : List K) :
    after p b (times ++ times') = after p (after p b times) times' :=
  List.foldl_append

theorem grants_append (p : RefillPolicy K) (b : Option (TokenBucket K)) (times times' : List K) :
    grants p b (times ++ times') = grants p b times ++ grants p (after p b times) times' := by
  induction times generalizing b with
  | nil => rfl
  | cons now times ih =>
    rw [List.cons_append, grants, ih, ← List.append_assoc]
    rfl

/-- Tokens are granted to questions. -/
theorem mem_of_mem_grants {b : Option (TokenBucket K)} {times : List K} {t : K}
    (h : t ∈ grants p b times) : t ∈ times := by
  induction times generalizing b with
  | nil => exact h
  | cons now times ih =>
    rcases List.mem_append.mp h with hnow | hrest
    · split at hnow
      · exact List.mem_cons.mpr (.inl (List.mem_singleton.mp hnow))
      · exact absurd hnow List.not_mem_nil
    · exact List.mem_cons_of_mem _ (ih hrest)

/-! ### What a bucket holds -/

/-- The tokens of a bucket between questions. A capacity below zero leaves a bucket at it. -/
structure Within (p : RefillPolicy K) (b : TokenBucket K) : Prop where
  nonneg : min p.capacity 0 ≤ b.tokens
  le_capacity : b.tokens ≤ p.capacity

theorem within_fresh (p : RefillPolicy K) (now : K) : (fresh p now).Within p :=
  ⟨min_le_left _ _, le_rfl⟩

/-- Taking a token is no refill. -/
theorem lastRefill_take (b : TokenBucket K) : b.take.2.lastRefill = b.lastRefill := by
  rw [take]
  split <;> rfl

variable [IsStrictOrderedRing K]

theorem Within.refill (h : b.Within p) (hrate : 0 ≤ p.rate) (hgran : 0 ≤ p.granularity) :
    (b.refill p now).Within p := by
  rw [TokenBucket.refill]
  split
  · rename_i helapsed
    have hearned : 0 ≤ (now - b.lastRefill) * p.rate :=
      mul_nonneg (hgran.trans helapsed) hrate
    refine ⟨le_min (min_le_left _ _) ?_, min_le_left _ _⟩
    exact h.nonneg.trans (le_add_of_nonneg_right hearned)
  · exact h

theorem Within.take (h : b.Within p) : b.take.2.Within p := by
  rw [TokenBucket.take]
  split
  · rename_i hone
    refine ⟨(min_le_right _ _).trans (sub_nonneg.mpr hone), ?_⟩
    exact (sub_le_self _ zero_le_one).trans h.le_capacity
  · exact h

/-- A bucket that is there, if any, is within bounds and was not refilled after a time. -/
def Sound (p : RefillPolicy K) (later : K) (b : Option (TokenBucket K)) : Prop :=
  ∀ b' ∈ b, b'.Within p ∧ b'.lastRefill ≤ later

omit [IsStrictOrderedRing K] in
/-- Time moves on. -/
theorem Sound.mono {b : Option (TokenBucket K)} {later' : K} (h : Sound p later b)
    (hle : later ≤ later') : Sound p later' b :=
  fun b' hb' => ⟨(h b' hb').1, (h b' hb').2.trans hle⟩

/-- What a question finds is within bounds, and was refilled no earlier than a granularity ago. -/
theorem found_bounds {b : Option (TokenBucket K)} (hrate : 0 ≤ p.rate) (hgran : 0 ≤ p.granularity)
    (hb : Sound p later b) (hnow : now ≤ later) :
    (found p now b).Within p ∧ now - p.granularity ≤ (found p now b).lastRefill ∧
      (found p now b).lastRefill ≤ later := by
  have hback : now - p.granularity ≤ now := sub_le_self _ hgran
  cases b with
  | none =>
    refine ⟨(within_fresh p now).refill hrate hgran, ?_⟩
    rw [found, Option.getD_none, refill]
    split
    · exact ⟨hback, hnow⟩
    · exact ⟨hback, hnow⟩
  | some b =>
    obtain ⟨hwithin, hlast⟩ := hb b rfl
    refine ⟨hwithin.refill hrate hgran, ?_⟩
    rw [found, Option.getD_some, refill]
    split
    · exact ⟨hback, hnow⟩
    · rename_i hlt
      exact ⟨by linarith [not_le.mp hlt], hlast⟩

/-- **A question** leaves a bucket within bounds. -/
theorem sound_ask {b : Option (TokenBucket K)} (hrate : 0 ≤ p.rate) (hgran : 0 ≤ p.granularity)
    (hb : Sound p later b) (hnow : now ≤ later) : Sound p later (some (ask p now b).2) := by
  rintro b' hb'
  obtain rfl := Option.some.inj hb'
  obtain ⟨hwithin, -, hlast⟩ := found_bounds hrate hgran hb hnow
  refine ⟨hwithin.take, ?_⟩
  rw [ask, lastRefill_take]
  exact hlast

/-- Questions leave a bucket within bounds. -/
theorem sound_after {b : Option (TokenBucket K)} (hrate : 0 ≤ p.rate) (hgran : 0 ≤ p.granularity)
    {times : List K} (hb : Sound p later b) (htimes : ∀ t ∈ times, t ≤ later) :
    Sound p later (after p b times) := by
  induction times generalizing b with
  | nil => exact hb
  | cons now times ih =>
    exact ih (sound_ask hrate hgran hb (htimes now List.mem_cons_self))
      fun t ht => htimes t (List.mem_cons_of_mem _ ht)

/-! ### The bound on what is granted -/

/-- The tokens a bucket has, and those it has earned by a time. -/
def credit (p : RefillPolicy K) (now : K) (b : TokenBucket K) : K :=
  b.tokens + (now - b.lastRefill) * p.rate

/-- A refill turns what was earned into tokens, or loses it. -/
theorem credit_refill_le (p : RefillPolicy K) (now later : K) (b : TokenBucket K) :
    (b.refill p now).credit p later ≤ b.credit p later := by
  rw [refill]
  split
  · have hmin := min_le_right p.capacity (b.tokens + (now - b.lastRefill) * p.rate)
    simp only [credit]
    linarith
  · exact le_rfl

omit [IsStrictOrderedRing K] in
/-- A grant costs one. -/
theorem credit_take (p : RefillPolicy K) (later : K) (b : TokenBucket K) :
    (b.take.1.toNat : K) + b.take.2.credit p later = b.credit p later := by
  rw [take]
  split
  · simp only [credit, Bool.toNat_true, Nat.cast_one]
    ring
  · rw [Bool.toNat_false, Nat.cast_zero, zero_add]

omit [IsStrictOrderedRing K] in
/-- What a question grants comes out of the credit it finds. -/
private theorem length_grant_add_credit (p : RefillPolicy K) (now later : K)
    (b : Option (TokenBucket K)) :
    (((if (ask p now b).1 then [now] else []) : List K).length : K) +
      (ask p now b).2.credit p later = (found p now b).credit p later := by
  rw [← credit_take p later (found p now b), ask]
  cases (found p now b).take.1 <;> rfl

/-- **The potential.** What is granted comes out of the credit that the first question finds. -/
theorem length_grants_le_credit {b : Option (TokenBucket K)} (hcapacity : 0 ≤ p.capacity)
    (hrate : 0 ≤ p.rate) (hgran : 0 ≤ p.granularity) {times : List K} (hb : Sound p later b)
    (hnow : now ≤ later) (htimes : ∀ t ∈ times, t ≤ later) :
    ((grants p b (now :: times)).length : K) ≤ (found p now b).credit p later := by
  induction times generalizing b now with
  | nil =>
    have hfirst := length_grant_add_credit p now later b
    have hsound := sound_ask hrate hgran hb hnow
    rw [grants, List.length_append, Nat.cast_add]
    obtain ⟨hwithin, hlast⟩ := hsound _ rfl
    have hnonneg := hwithin.nonneg
    rw [min_eq_right hcapacity] at hnonneg
    have hleft : 0 ≤ (ask p now b).2.credit p later :=
      add_nonneg hnonneg (mul_nonneg (sub_nonneg.mpr hlast) hrate)
    rw [grants, List.length_nil, Nat.cast_zero]
    linarith
  | cons next times ih =>
    have hfirst := length_grant_add_credit p now later b
    have hrest := ih (sound_ask hrate hgran hb hnow) (htimes next List.mem_cons_self)
      fun t ht => htimes t (List.mem_cons_of_mem _ ht)
    have hrefill : (found p next (some (ask p now b).2)).credit p later ≤
        (ask p now b).2.credit p later := credit_refill_le p next later _
    rw [grants, List.length_append, Nat.cast_add]
    linarith

/-- What is granted to questions that all lie in one interval. -/
private theorem length_grants_le {b : Option (TokenBucket K)} (hcapacity : 0 ≤ p.capacity)
    (hrate : 0 ≤ p.rate) (hgran : 0 ≤ p.granularity) {start d : K} (hd : 0 ≤ d) {times : List K}
    (hb : ∀ t ∈ times, Sound p t b) (htimes : ∀ t ∈ times, start ≤ t ∧ t ≤ start + d) :
    ((grants p b times).length : K) ≤ p.capacity + p.rate * (d + p.granularity) := by
  cases times with
  | nil =>
    rw [grants, List.length_nil, Nat.cast_zero]
    exact add_nonneg hcapacity (mul_nonneg hrate (add_nonneg hd hgran))
  | cons now times =>
    obtain ⟨hstart, hend⟩ := htimes now List.mem_cons_self
    have hsound := (hb now List.mem_cons_self).mono hend
    have hgrants := length_grants_le_credit hcapacity hrate hgran hsound hend
      fun t ht => (htimes t (List.mem_cons_of_mem _ ht)).2
    -- the first question finds no more than the capacity, refilled not long before the interval
    obtain ⟨hwithin, hrecent, -⟩ := found_bounds hrate hgran hsound hend
    have hearned : (start + d - (found p now b).lastRefill) * p.rate ≤
        (d + p.granularity) * p.rate :=
      mul_le_mul_of_nonneg_right (by linarith) hrate
    have hfull := hwithin.le_capacity
    rw [credit] at hgrants
    linarith

/-- **The bound.** In an interval of length `d`, a bucket grants at most its capacity, what it earns
in the interval, and what it may earn while a refill is put off. -/
theorem length_grants_filter_le {b : Option (TokenBucket K)} (hcapacity : 0 ≤ p.capacity)
    (hrate : 0 ≤ p.rate) (hgran : 0 ≤ p.granularity) (start : K) {d : K} (hd : 0 ≤ d)
    {times : List K} (hordered : times.Pairwise (· ≤ ·)) (hb : ∀ t ∈ times, Sound p t b) :
    (((grants p b times).filter fun t => decide (start ≤ t ∧ t ≤ start + d)).length : K) ≤
      p.capacity + p.rate * (d + p.granularity) := by
  -- the questions before the interval, in it, and after it
  obtain ⟨early, rest, rfl, hearly, hrest⟩ := exists_split hordered (fun t => t < start)
    fun t t' hle hlt => hle.trans_lt hlt
  obtain ⟨inside, late, rfl, hinside, hlate⟩ := exists_split
    (hordered.sublist (List.sublist_append_right _ _)) (fun t => t ≤ start + d)
    fun t t' hle hlt => hle.trans hlt
  have hnone : ∀ {b times}, (∀ t ∈ times, ¬ (start ≤ t ∧ t ≤ start + d)) →
      (grants p b times).filter (fun t => decide (start ≤ t ∧ t ≤ start + d)) = [] :=
    fun hout => List.filter_eq_nil_iff.mpr fun t ht => by
      simpa using not_and.mp (hout t (mem_of_mem_grants ht))
  have hmid : ∀ t ∈ inside, start ≤ t ∧ t ≤ start + d := fun t ht =>
    ⟨not_lt.mp (hrest t (List.mem_append_left _ ht)), hinside t ht⟩
  rw [grants_append, grants_append, List.filter_append, List.filter_append,
    hnone fun t ht hin => not_lt.mpr hin.1 (hearly t ht),
    hnone fun t ht hin => hlate t ht hin.2, List.nil_append, List.append_nil]
  refine le_trans (Nat.cast_le.mpr (List.length_filter_le _ _)) ?_
  refine length_grants_le hcapacity hrate hgran hd (fun t ht => ?_) hmid
  refine sound_after hrate hgran (hb t ?_) fun t' ht' => ?_
  · exact List.mem_append_right _ (List.mem_append_left _ ht)
  · exact (List.pairwise_append.mp hordered).2.2 t' ht' t (List.mem_append_left _ ht)

/-! ### Many questions at once -/

omit [IsStrictOrderedRing K] in
/-- At a question, the last refill is less than a granularity ago. -/
theorem sub_lastRefill_found_lt (hgran : 0 < p.granularity) (b : Option (TokenBucket K)) :
    now - (found p now b).lastRefill < p.granularity := by
  rw [found, refill]
  split
  · rwa [sub_self]
  · exact not_le.mp ‹_›

omit [IsStrictOrderedRing K] in
/-- A bucket that has just been asked is not refilled. -/
theorem found_ask (hgran : 0 < p.granularity) (b : Option (TokenBucket K)) :
    found p now (some (ask p now b).2) = (ask p now b).2 := by
  refine if_neg (not_le.mpr ?_)
  rw [Option.getD_some, ask, lastRefill_take]
  exact sub_lastRefill_found_lt hgran b

/-- Questions at one time, all granted, cost their number. -/
theorem found_after_replicate (hgran : 0 < p.granularity) {b : Option (TokenBucket K)} {n : ℕ}
    (hn : n = 0 ∨ (n : K) ≤ (found p now b).tokens) :
    found p now (after p b (List.replicate n now)) =
      ⟨(found p now b).tokens - n, (found p now b).lastRefill⟩ := by
  induction n with
  | zero =>
    ext
    · simp [after]
    · rfl
  | succ n ih =>
    have hsucc : (n : K) + 1 ≤ (found p now b).tokens := by simpa using hn
    have hbefore := ih (.inr ((le_add_of_nonneg_right zero_le_one).trans hsucc))
    have htake : (found p now (after p b (List.replicate n now))).take.2 =
        ⟨(found p now b).tokens - n - 1, (found p now b).lastRefill⟩ := by
      rw [hbefore, take, if_pos (le_sub_iff_add_le'.mpr hsucc)]
    rw [List.replicate_succ', after_append]
    refine (found_ask hgran _).trans (htake.trans ?_)
    rw [Nat.cast_succ, sub_sub]

/-- The bucket after them. -/
theorem after_replicate (hgran : 0 < p.granularity) {b : Option (TokenBucket K)} {n : ℕ}
    (hpos : n ≠ 0) (hn : (n : K) ≤ (found p now b).tokens) :
    after p b (List.replicate n now) =
      some ⟨(found p now b).tokens - n, (found p now b).lastRefill⟩ := by
  rw [← found_after_replicate hgran (.inr hn)]
  obtain ⟨m, rfl⟩ := Nat.exists_eq_succ_of_ne_zero hpos
  rw [List.replicate_succ', after_append]
  exact congrArg some (found_ask hgran _).symm

/-- **A burst.** Questions at one time are all granted when there are that many tokens. -/
theorem burst_iff (hgran : 0 < p.granularity) (b : Option (TokenBucket K)) (n : ℕ) :
    (∀ m < n, (ask p now (after p b (List.replicate m now))).1 = true) ↔
      n = 0 ∨ (n : K) ≤ (found p now b).tokens := by
  induction n with
  | zero => simp
  | succ n ih =>
    have hlast : (n = 0 ∨ (n : K) ≤ (found p now b).tokens) →
        ((ask p now (after p b (List.replicate n now))).1 = true ↔
          (n : K) + 1 ≤ (found p now b).tokens) := fun hn => by
      rw [ask, found_after_replicate hgran hn, take]
      simp only [le_sub_iff_add_le']
      split <;> simp [*]
    rw [Nat.cast_succ, or_iff_right n.succ_ne_zero]
    constructor
    · intro h
      exact (hlast (ih.mp fun m hm => h m (hm.trans n.lt_succ_self))).mp (h n n.lt_succ_self)
    · intro h m hm
      have hn : (n : K) ≤ (found p now b).tokens := (le_add_of_nonneg_right zero_le_one).trans h
      rcases Nat.lt_succ_iff_lt_or_eq.mp hm with hlt | rfl
      · exact ih.mpr (.inr hn) m hlt
      · exact (hlast (.inr hn)).mpr h

/-! ### Buckets that are as good as new -/

section Same

/-- Two buckets, there or not, that no question from a time on tells apart. -/
def SameFrom (p : RefillPolicy K) (now : K) (b b' : Option (TokenBucket K)) : Prop :=
  ∀ later, now ≤ later → found p later b = found p later b'

/-- A bucket that is full at every question from a time on. -/
def Settled (p : RefillPolicy K) (now : K) (b : TokenBucket K) : Prop :=
  p.granularity ≤ now - b.lastRefill ∧ p.capacity ≤ b.credit p now

namespace SameFrom

variable {b b' b'' : Option (TokenBucket K)}

omit [IsStrictOrderedRing K] in
theorem refl (p : RefillPolicy K) (now : K) (b : Option (TokenBucket K)) :
    SameFrom p now b b :=
  fun _ _ => rfl

omit [IsStrictOrderedRing K] in
theorem trans (h : SameFrom p now b b') (h' : SameFrom p now b' b'') : SameFrom p now b b'' :=
  fun later hle => (h later hle).trans (h' later hle)

omit [IsStrictOrderedRing K] in
theorem symm (h : SameFrom p now b b') : SameFrom p now b' b :=
  fun later hle => (h later hle).symm

omit [IsStrictOrderedRing K] in
/-- Time moves on. -/
theorem mono (h : SameFrom p now b b') (hle : now ≤ later) : SameFrom p later b b' :=
  fun l hl => h l (hle.trans hl)

omit [IsStrictOrderedRing K] in
/-- A question answers the same, and leaves the same bucket. -/
theorem ask_eq (h : SameFrom p now b b') : ask p now b = ask p now b' := by
  rw [ask, ask, h now le_rfl]

end SameFrom

omit [IsStrictOrderedRing K] in
/-- A new bucket is found as it was made. -/
theorem found_none (p : RefillPolicy K) (now : K) : found p now none = fresh p now := by
  rw [found, Option.getD_none, refill]
  split
  · ext
    · simp [fresh]
    · rfl
  · rfl

/-- **A settled bucket is as good as a new one.** -/
theorem Settled.sameFrom (h : b.Settled p now) (hrate : 0 ≤ p.rate) :
    SameFrom p now (some b) none := by
  intro later hle
  have helapsed : p.granularity ≤ later - b.lastRefill :=
    h.1.trans (sub_le_sub_right hle _)
  have hfull : p.capacity ≤ b.tokens + (later - b.lastRefill) * p.rate := by
    have hmore : (now - b.lastRefill) * p.rate ≤ (later - b.lastRefill) * p.rate :=
      mul_le_mul_of_nonneg_right (sub_le_sub_right hle _) hrate
    exact h.2.trans (add_le_add_right hmore _)
  rw [found_none, found, Option.getD_some, refill, if_pos helapsed, min_eq_left hfull]
  rfl

end Same

end TokenBucket

end VibesWaf

import VibesWaf.Flood.Protector
import VibesWaf.Lib.Run

/-!
# The background clean-up

Every two minutes the protector drops the timestamps that have left their window and the penalties
that have expired. Each operation filters what it reads, so it should make no difference; it does
in two places. `IsChallenged` clears the counters of an address when it finds that its penalty has
expired, and finds nothing to clear if the clean-up was there first. `RecordAttack` and
`RecordError` count old timestamps against the limit, so they accept a report after the clean-up
that they would have dropped.

A run is compared with the same run without its clean-ups. `Shadows` relates the two states;
`shadows_step` carries it over one call, as long as the call comes to neither place, and
`cleanup_transparent` over a run.
-/

namespace VibesWaf

open SlidingWindow

/-! ### A shard and its shadow -/

namespace FloodShard

/-- A shard `t` that was cleaned up looks like the shard `s` that was not: it may lack what has
expired. -/
structure Shadows (cfg : FloodConfig) (now : ℤ) (t s : FloodShard) : Prop where
  challenged : ∀ ip, t.challenged.lookup ip = s.challenged.lookup ip ∨
    (t.challenged.lookup ip = none ∧ s.Expired now ip)
  keys : ∀ c, (t.counts c).keys ⊆ (s.counts c).keys
  length : ∀ c ip, (t.times c ip).length ≤ (s.times c ip).length
  times : ∀ c ip, SameRecent (cfg.window c) now (t.times c ip) (s.times c ip)

theorem Expired.mono {now later : ℤ} {sh : FloodShard} {ip : GoString} (h : sh.Expired now ip)
    (hle : now ≤ later) : sh.Expired later ip :=
  h.imp fun _ hexp => ⟨hexp.1, lt_of_lt_of_le hexp.2 hle⟩

namespace Shadows

variable {cfg : FloodConfig} {now later : ℤ} {t s : FloodShard} {c : Counter} {ip : GoString}

theorem refl (cfg : FloodConfig) (now : ℤ) (s : FloodShard) : Shadows cfg now s s :=
  ⟨fun _ => .inl rfl, fun _ => Finset.Subset.refl _, fun _ _ => le_rfl,
    fun _ _ => SameRecent.refl _ _ _⟩

theorem mono (h : Shadows cfg now t s) (hle : now ≤ later) : Shadows cfg later t s :=
  ⟨fun ip => (h.challenged ip).imp_right fun hgone => ⟨hgone.1, hgone.2.mono hle⟩, h.keys,
    h.length, fun c ip => (h.times c ip).mono hle⟩

/-- A shadow is not full before its shard is. -/
theorem not_full (h : Shadows cfg now t s) (hcap : ¬ s.Full c) : ¬ t.Full c := fun hfull =>
  hcap (le_trans hfull (FiniteMap.size_le_of_subset (h.keys c)))

/-- A shadow has room where its shard has. -/
theorem hasRoom (h : Shadows cfg now t s) {kind : Offence} (hroom : s.HasRoom cfg kind ip) :
    t.HasRoom cfg kind ip :=
  ⟨h.not_full hroom.1, lt_of_le_of_lt (Nat.cast_le.mpr (h.length _ ip)) hroom.2⟩

/-- A penalty that has not expired is the same for both. -/
theorem challenged_of_not_expired (h : Shadows cfg now t s) (hexp : ¬ s.Expired now ip) :
    t.challenged.lookup ip = s.challenged.lookup ip :=
  (h.challenged ip).resolve_right fun hgone => hexp hgone.2

theorem expired (h : Shadows cfg now t s) (hexp : t.Expired now ip) : s.Expired now ip := by
  by_contra hs
  obtain ⟨expiry, hlookup, hlt⟩ := hexp
  exact hs ⟨expiry, by rw [← h.challenged_of_not_expired hs, hlookup], hlt⟩

/-- Storing timestamps that look alike. -/
theorem store (h : Shadows cfg now t s) {ts ts' : List ℤ} (hlength : ts.length ≤ ts'.length)
    (hrecent : SameRecent (cfg.window c) now ts ts') :
    Shadows cfg now (t.store c ip ts) (s.store c ip ts') where
  challenged := h.challenged
  keys c' := by
    intro k hk
    rw [mem_keys_store] at hk ⊢
    exact hk.imp_right (h.keys c' ·)
  length c' k := by
    rw [times_store, times_store]
    split
    · exact hlength
    · exact h.length c' k
  times c' k := by
    rw [times_store, times_store]
    split
    · rename_i hand
      obtain ⟨rfl, rfl⟩ := hand
      exact hrecent
    · exact h.times c' k

/-- Both forget an address. -/
theorem clear (h : Shadows cfg now t s) (ip : GoString) :
    Shadows cfg now (t.clear ip) (s.clear ip) where
  challenged k := by
    by_cases hk : k = ip
    · exact .inl (by simp [FloodShard.clear, hk])
    · simpa [FloodShard.clear, Expired, hk] using h.challenged k
  keys c := Finset.erase_subset_erase ip (h.keys c)
  length c k := by
    rw [times_clear, times_clear]
    split
    · exact le_rfl
    · exact h.length c k
  times c k := by
    rw [times_clear, times_clear]
    split
    · exact SameRecent.refl _ _ _
    · exact h.times c k

/-- The shard forgets an address its shadow knows nothing of. -/
theorem clear_right (h : Shadows cfg now t s) (hpenalty : t.challenged.lookup ip = none)
    (hkeys : ∀ c, ip ∉ (t.counts c).keys) : Shadows cfg now t (s.clear ip) := by
  have hclear : t.clear ip = t := by
    have hcounts : (fun c => (t.counts c).erase ip) = t.counts := by
      ext c k : 2
      by_cases hk : k = ip
      · rw [FiniteMap.lookup_erase, if_pos hk, hk, FiniteMap.not_mem_keys.mp (hkeys c)]
      · rw [FiniteMap.lookup_erase, if_neg hk]
    have hchallenged : t.challenged.erase ip = t.challenged := by
      ext k : 1
      by_cases hk : k = ip
      · rw [FiniteMap.lookup_erase, if_pos hk, hk, hpenalty]
      · rw [FiniteMap.lookup_erase, if_neg hk]
    rw [FloodShard.clear, hcounts, hchallenged]
  rw [← hclear]
  exact h.clear ip

/-- **The clean-up** casts a shadow. -/
theorem cleanup (h : Shadows cfg now t s) : Shadows cfg now (t.cleanup cfg now) s where
  challenged ip := by
    rw [challenged_cleanup]
    split
    · exact .inr ⟨rfl, h.expired ‹_›⟩
    · exact h.challenged ip
  keys c := (Finset.filter_subset _ _).trans (h.keys c)
  length c ip := by
    rw [times_cleanup]
    exact (length_recent_le _ _ _).trans (h.length c ip)
  times c ip := by
    rw [times_cleanup]
    exact (sameRecent_recent _ _ _).trans (h.times c ip)

end Shadows

/-! ### One call -/

/-- An operation comes to neither of the two places where a clean-up shows. -/
def Agrees (cfg : FloodConfig) (now : ℤ) (t s : FloodShard) : FloodOp → Prop
  | .record kind ip => t.HasRoom cfg kind ip → s.HasRoom cfg kind ip
  | .isChallenged ip =>
    s.Expired now ip → t.Expired now ip ∨ ∀ c, ip ∉ (t.counts c).keys
  | .checkBasicAccess _ | .checkLimit _ _ | .setChallenge _ _ => True

/-- **An operation** on which a shard and its shadow agree gets one answer from both, and keeps
them alike. -/
theorem Shadows.apply {cfg : FloodConfig} {now : ℤ} {t s : FloodShard} (h : Shadows cfg now t s)
    (hcap : ∀ c, ¬ s.Full c) {o : FloodOp} (hagrees : Agrees cfg now t s o) :
    Shadows cfg now (t.apply cfg now o).1 (s.apply cfg now o).1 ∧
      (t.apply cfg now o).2 = (s.apply cfg now o).2 := by
  cases o with
  | checkBasicAccess ip =>
    have hkept : recent cfg.basicWindow now (t.times .basic ip) =
        recent cfg.basicWindow now (s.times .basic ip) := (h.times .basic ip).eq
    have hstore : ∀ ts, Shadows cfg now (t.store .basic ip ts) (s.store .basic ip ts) :=
      fun ts => h.store le_rfl (SameRecent.refl _ _ _)
    simp only [FloodShard.apply, checkBasicAccess, hkept, hcap, h.not_full (hcap .basic),
      false_and, if_false]
    split
    · exact ⟨hstore _, rfl⟩
    · exact ⟨hstore _, rfl⟩
  | record kind ip =>
    refine ⟨?_, rfl⟩
    change Shadows cfg now (t.record cfg kind now ip) (s.record cfg kind now ip)
    have hroom_iff : t.HasRoom cfg kind ip ↔ s.HasRoom cfg kind ip := ⟨hagrees, h.hasRoom⟩
    rw [record_eq, record_eq]
    by_cases hroom : s.HasRoom cfg kind ip
    · rw [if_pos (hroom_iff.mpr hroom), if_pos hroom]
      refine h.store ?_ ((h.times _ ip).append [now])
      rw [List.length_append, List.length_append]
      exact Nat.add_le_add_right (h.length _ ip) _
    · rw [if_neg (mt hroom_iff.mp hroom), if_neg hroom]
      exact h
  | checkLimit kind ip =>
    simp only [FloodShard.apply, checkLimit, (h.times (.offence kind) ip).eq]
    exact ⟨h.store le_rfl (SameRecent.refl _ _ _), rfl⟩
  | setChallenge ip duration =>
    refine ⟨⟨fun k => ?_, h.keys, h.length, h.times⟩, rfl⟩
    by_cases hk : k = ip
    · exact .inl (by simp [FloodShard.apply, setChallenge, hk])
    · simpa [FloodShard.apply, setChallenge, Expired, hk] using h.challenged k
  | isChallenged ip =>
    by_cases hexp : s.Expired now ip
    · by_cases ht : t.Expired now ip
      · simp only [FloodShard.apply, isChallenged_expired hexp, isChallenged_expired ht]
        exact ⟨h.clear ip, rfl⟩
      -- The clean-up was there first: nothing is left to clear.
      have hgone : t.challenged.lookup ip = none := by
        refine ((h.challenged ip).resolve_left fun heq => ht ?_).1
        rwa [Expired, heq]
      simp only [FloodShard.apply, isChallenged_expired hexp, isChallenged_of_not_expired ht,
        hgone]
      exact ⟨h.clear_right hgone ((hagrees hexp).resolve_left ht), rfl⟩
    · simp only [FloodShard.apply, isChallenged_of_not_expired hexp,
        isChallenged_of_not_expired (mt h.expired hexp), h.challenged_of_not_expired hexp]
      exact ⟨h, rfl⟩

end FloodShard

/-! ### Runs -/

/-- A run without its clean-ups. -/
def withoutCleanup (calls : List FloodCall) : List FloodCall :=
  calls.filter fun call => call.event ≠ .cleanup

@[simp] theorem withoutCleanup_append_cleanup (calls : List FloodCall) (cfg : FloodConfig)
    (now : ℤ) : withoutCleanup (calls ++ [⟨cfg, now, .cleanup⟩]) = withoutCleanup calls := by
  simp [withoutCleanup]

@[simp] theorem withoutCleanup_append_op (calls : List FloodCall) (cfg : FloodConfig) (now : ℤ)
    (o : FloodOp) :
    withoutCleanup (calls ++ [⟨cfg, now, .op o⟩]) = withoutCleanup calls ++ [⟨cfg, now, .op o⟩] := by
  simp [withoutCleanup]

/-- A call comes to neither of the two places where a clean-up shows. -/
def FloodCall.Agrees (t s : FloodState) (call : FloodCall) : Prop :=
  match call.event with
  | .op o => FloodShard.Agrees call.cfg call.now (t (shardFor o.ip)) (s (shardFor o.ip)) o
  | .cleanup => True

namespace FloodState

/-- No counter of any shard is full. -/
def BelowCap (s : FloodState) : Prop :=
  ∀ i c, ¬ (s i).Full c

/-- The shards of two states look alike. -/
def Shadows (cfg : FloodConfig) (now : ℤ) (t s : FloodState) : Prop :=
  ∀ i, (t i).Shadows cfg now (s i)

/-- **One operation** on which two states agree gets one answer from both, and keeps them alike. -/
theorem Shadows.step {cfg : FloodConfig} {now : ℤ} {t s : FloodState} (h : Shadows cfg now t s)
    (hcap : s.BelowCap) {o : FloodOp} (hagrees : FloodCall.Agrees t s ⟨cfg, now, .op o⟩) :
    Shadows cfg now (t.step ⟨cfg, now, .op o⟩) (s.step ⟨cfg, now, .op o⟩) ∧
      t.answer ⟨cfg, now, .op o⟩ = s.answer ⟨cfg, now, .op o⟩ := by
  have happly := (h (shardFor o.ip)).apply (hcap _) hagrees
  refine ⟨fun i => ?_, happly.2⟩
  rw [step_op, step_op]
  split
  · rename_i hi
    subst hi
    exact happly.1
  · exact h i

/-- **The invariant of the clean-up**: a run casts a shadow of the run without its clean-ups. -/
theorem shadows_run {cfg : FloodConfig} {calls : List FloodCall} (hsteady : Steady cfg calls)
    (hchron : Chronological calls)
    (hcap : ∀ past, past <+: withoutCleanup calls → (run past).BelowCap)
    (hagrees : ∀ past call, past ++ [call] <+: calls →
      call.Agrees (run past) (run (withoutCleanup past)))
    {past : List FloodCall} (hinit : past <+: calls) :
    ∀ now, (∀ call ∈ past, call.now ≤ now) →
      Shadows cfg now (run past) (run (withoutCleanup past)) := by
  refine run_induction (P := fun past => ∀ now, (∀ call ∈ past, call.now ≤ now) →
    Shadows cfg now (run past) (run (withoutCleanup past)))
    (fun _ _ i => FloodShard.Shadows.refl _ _ _) ?_
  intro before call hbefore ih now hnow
  have hpast := hbefore.trans hinit
  have hshadows := ih call.now (pairwise_snoc hchron hpast)
  suffices hafter : Shadows cfg call.now (run (before ++ [call]))
      (run (withoutCleanup (before ++ [call]))) from fun i =>
    (hafter i).mono (hnow call (List.mem_append_right _ List.mem_cons_self))
  have hstep := hagrees before call hpast
  have hbelow := hcap _ (((List.prefix_append _ _).trans hpast).filter _)
  obtain rfl := hsteady call (mem_of_snoc hpast)
  obtain ⟨_, time, event⟩ := call
  cases event with
  | cleanup =>
    rw [run_append, withoutCleanup_append_cleanup]
    exact fun i => (hshadows i).cleanup
  | op o =>
    rw [run_append, withoutCleanup_append_op, run_append]
    exact (hshadows.step hbelow hstep).1

/-! ### Short runs -/

/-- An operation adds no key but that of its address. -/
theorem keys_apply_subset (cfg : FloodConfig) (now : ℤ) (sh : FloodShard) (o : FloodOp)
    (c : Counter) :
    ((sh.apply cfg now o).1.counts c).keys ⊆ insert o.ip (sh.counts c).keys := by
  have hstore : ∀ c' ts, ((sh.store c' o.ip ts).counts c).keys ⊆
      insert o.ip (sh.counts c).keys := fun c' ts k hk =>
    (FloodShard.mem_keys_store.mp hk).elim (fun hand => hand.2 ▸ Finset.mem_insert_self ..)
      Finset.mem_insert_of_mem
  have hsame := Finset.subset_insert o.ip (sh.counts c).keys
  cases o with
  | checkBasicAccess ip =>
    simp only [FloodShard.apply, FloodShard.checkBasicAccess]
    split
    · exact hstore .basic _
    split
    · exact hsame
    · exact hstore .basic _
  | record kind ip =>
    simp only [FloodShard.apply, FloodShard.record_eq]
    split
    · exact hstore (.offence kind) _
    · exact hsame
  | checkLimit kind ip => exact hstore (.offence kind) _
  | setChallenge ip duration => exact hsame
  | isChallenged ip =>
    by_cases hexp : sh.Expired now ip
    · simp only [FloodShard.apply, FloodShard.isChallenged_expired hexp]
      exact (Finset.erase_subset _ _).trans hsame
    · simp only [FloodShard.apply, FloodShard.isChallenged_of_not_expired hexp]
      exact hsame

/-- One call adds at most one key to a counter. -/
theorem size_step_le (s : FloodState) (call : FloodCall) (i : Fin 256) (c : Counter) :
    ((s.step call i).counts c).size ≤ ((s i).counts c).size + 1 := by
  obtain ⟨cfg, now, event⟩ := call
  cases event with
  | cleanup => exact (FiniteMap.size_filterMap_le _ _).trans (Nat.le_succ _)
  | op o =>
    rw [step_op]
    split
    · exact (Finset.card_le_card (keys_apply_subset cfg now (s i) o c)).trans
        (Finset.card_insert_le _ _)
    · exact Nat.le_succ _

/-- A run shorter than the cap does not reach it. -/
theorem belowCap_run {calls : List FloodCall} (h : calls.length < floodMaxKeysPerShard) :
    (run calls).BelowCap := by
  intro i c
  have hsize : ((run calls i).counts c).size ≤ calls.length := by
    refine run_induction (P := fun past => ((run past i).counts c).size ≤ past.length)
      (Nat.zero_le _) fun past call _ ih => ?_
    rw [run_append, List.length_append, List.length_singleton]
    exact (size_step_le _ call i c).trans (Nat.succ_le_succ ih)
  exact not_le.mpr (lt_of_le_of_lt hsize h)

/-! ### Transparency -/

/-- **The clean-up is transparent** in every run that never clears the counters of an address for a
penalty the clean-up has dropped, and never accepts a report only because the clean-up has made room
for it. -/
theorem cleanup_transparent {cfg : FloodConfig} {calls : List FloodCall}
    (hsteady : Steady cfg calls) (hchron : Chronological calls)
    (hcap : ∀ past, past <+: withoutCleanup calls → (run past).BelowCap)
    (hagrees : ∀ past call, past ++ [call] <+: calls →
      call.Agrees (run past) (run (withoutCleanup past))) :
    ∀ past call, past ++ [call] <+: calls →
      (run past).answer call = (run (withoutCleanup past)).answer call := by
  intro past call hpast
  have hinit : past <+: calls := (List.prefix_append _ _).trans hpast
  have hshadows : Shadows cfg call.now (run past) (run (withoutCleanup past)) :=
    shadows_run hsteady hchron hcap hagrees hinit call.now (pairwise_snoc hchron hpast)
  have hstep := hagrees past call hpast
  obtain rfl := hsteady call (mem_of_snoc hpast)
  obtain ⟨_, now, event⟩ := call
  cases event with
  | cleanup => rfl
  | op o => exact (hshadows.step (hcap _ (hinit.filter _)) hstep).2

/-- One attack in ten minutes is one too many. -/
def strictConfig : FloodConfig :=
  ⟨20, 600, 1, 600, 1, 600⟩

/-- An attack, and a clean-up long after it. -/
def staleAttack : List FloodCall :=
  [⟨strictConfig, 0, .op (.recordAttack (str "203.0.113.7"))⟩, ⟨strictConfig, 700, .cleanup⟩]

/-- The check that follows. -/
def lateCheck : FloodCall :=
  ⟨strictConfig, 700, .op (.checkAttackLimit (str "203.0.113.7"))⟩

/-- The clean-up drops what the check would have dropped. -/
theorem cleanup_transparent_late :
    (run staleAttack).answer lateCheck = (run (withoutCleanup staleAttack)).answer lateCheck := by
  refine cleanup_transparent (show Steady strictConfig (staleAttack ++ [lateCheck]) by decide)
    (by decide) (fun past hpast => belowCap_run (lt_of_le_of_lt hpast.length_le (by decide))) ?_
    staleAttack lateCheck (List.prefix_refl _)
  intro past call hpast
  obtain ⟨cfg, now, event⟩ := call
  rcases past with _ | ⟨first, _ | ⟨second, _ | ⟨third, rest⟩⟩⟩
  · obtain ⟨-, -, rfl⟩ : _ ∧ _ ∧ event = _ := by simpa [staleAttack] using hpast
    exact id
  · obtain ⟨-, -, -, rfl⟩ : _ ∧ _ ∧ _ ∧ event = _ := by simpa [staleAttack] using hpast
    trivial
  · obtain ⟨-, -, -, -, rfl⟩ : _ ∧ _ ∧ _ ∧ _ ∧ event = _ := by
      simpa [staleAttack, lateCheck] using hpast
    trivial
  · exact absurd hpast.length_le (by simp [staleAttack])

/-- An address serves a minute's penalty, attacks once more, and comes back later. -/
def servedPenalty : List FloodCall :=
  [⟨strictConfig, 0, .op (.setChallenge (str "203.0.113.7") 60)⟩,
    ⟨strictConfig, 30, .op (.recordAttack (str "203.0.113.7"))⟩,
    ⟨strictConfig, 120, .cleanup⟩,
    ⟨strictConfig, 121, .op (.isChallenged (str "203.0.113.7"))⟩]

/-- The clean-up drops the expired penalty before `IsChallenged` sees it, so the counters are not
cleared and the address is refused; without the clean-up it starts fresh. -/
theorem cleanup_shows :
    ¬ ∀ (cfg : FloodConfig) (calls : List FloodCall), Steady cfg calls → Chronological calls →
      (∀ past, past <+: withoutCleanup calls → (run past).BelowCap) →
      ∀ past call, past ++ [call] <+: calls →
        (run past).answer call = (run (withoutCleanup past)).answer call := by
  intro h
  let check : FloodCall := ⟨strictConfig, 121, .op (.checkAttackLimit (str "203.0.113.7"))⟩
  have hwith : (run servedPenalty).answer check = some false := by decide
  have hwithout : (run (withoutCleanup servedPenalty)).answer check = some true := by
    decide
  have hsame := h strictConfig (servedPenalty ++ [check]) (by decide) (by decide)
    (fun past hpast => belowCap_run (lt_of_le_of_lt hpast.length_le (by decide)))
    servedPenalty check (List.prefix_refl _)
  rw [hwith, hwithout] at hsame
  exact absurd hsame (by decide)

end FloodState

end VibesWaf

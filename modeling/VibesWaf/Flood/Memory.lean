import Mathlib.Algebra.Order.BigOperators.Group.Finset
import VibesWaf.Flood.Protector
import VibesWaf.Go.Decimal
import VibesWaf.Lib.Run

/-!
# The memory of the flood protector

`floodMaxKeysPerShard` is meant to bound each map of a shard. Recording looks at the number of keys
and `CheckBasicAccess` does so for an address it has no timestamps of, but `CheckAttackLimit` and
`CheckErrorLimit` store what they read under the address they were asked about, and `SetChallenge`
stores a penalty, whatever the map holds already. `flood_bounded_iff` says which calls keep the
bound: a run stays within it exactly when each call finds its key or room for it.
-/

namespace VibesWaf

/-! ### The bound on a shard -/

namespace FloodShard

/-- No map of a shard holds more keys than it may. -/
structure Bounded (sh : FloodShard) : Prop where
  counts : ∀ c, (sh.counts c).size ≤ floodMaxKeysPerShard
  challenged : sh.challenged.size ≤ floodMaxKeysPerShard

variable {cfg : FloodConfig} {now : ℤ} {sh : FloodShard} {c : Counter} {ip : GoString}

/-- An address with timestamps has a key. -/
theorem mem_keys_of_times (h : sh.times c ip ≠ []) : ip ∈ (sh.counts c).keys := by
  by_contra hmem
  exact h (by rw [times, FiniteMap.not_mem_keys.mp hmem, Option.getD_none])

theorem bounded_newFloodShard : newFloodShard.Bounded :=
  ⟨fun _ => Nat.zero_le _, Nat.zero_le _⟩

/-- Timestamps can be stored under a key that is there, or while there is room. -/
theorem bounded_store_iff (h : sh.Bounded) (ts : List ℤ) :
    (sh.store c ip ts).Bounded ↔ ip ∈ (sh.counts c).keys ∨ ¬ sh.Full c := by
  rw [Full, not_le, ← FiniteMap.size_insert_le_iff (h.counts c) ts]
  refine ⟨fun hbounded => ?_, fun hsize => ⟨fun c' => ?_, h.challenged⟩⟩
  · simpa [store] using hbounded.counts c
  · by_cases hc : c' = c
    · subst hc
      simpa [store] using hsize
    · simpa [store, hc] using h.counts c'

theorem bounded_setChallenge_iff (h : sh.Bounded) (duration : ℤ) :
    (sh.setChallenge now ip duration).Bounded ↔
      ip ∈ sh.challenged.keys ∨ sh.challenged.size < floodMaxKeysPerShard := by
  rw [← FiniteMap.size_insert_le_iff h.challenged (now + duration)]
  exact ⟨fun hbounded => hbounded.challenged, fun hsize => ⟨h.counts, hsize⟩⟩

theorem bounded_record (h : sh.Bounded) (kind : Offence) :
    (sh.record cfg kind now ip).Bounded := by
  rw [record_eq]
  split
  · exact (bounded_store_iff h _).mpr (.inr (‹sh.HasRoom cfg kind ip›).1)
  · exact h

theorem bounded_isChallenged (h : sh.Bounded) : (sh.isChallenged now ip).1.Bounded := by
  by_cases hexp : sh.Expired now ip
  · rw [isChallenged_expired hexp]
    exact ⟨fun c => ((sh.counts c).size_erase_le ip).trans (h.counts c),
      (sh.challenged.size_erase_le ip).trans h.challenged⟩
  · rwa [isChallenged_of_not_expired hexp]

theorem bounded_cleanup (h : sh.Bounded) : (sh.cleanup cfg now).Bounded :=
  ⟨fun c => ((sh.counts c).size_filterMap_le _).trans (h.counts c),
    (sh.challenged.size_filterMap_le _).trans h.challenged⟩

/-- `CheckBasicAccess` looks at the number of keys, but not when the limit leaves no request. -/
theorem bounded_checkBasicAccess_iff (h : sh.Bounded) :
    (sh.checkBasicAccess cfg now ip).1.Bounded ↔
      ip ∈ (sh.counts .basic).keys ∨ ¬ sh.Full .basic ∨ 0 < cfg.basicLimit := by
  -- A timestamp that is kept comes from a key that is there.
  have hkept : SlidingWindow.recent cfg.basicWindow now (sh.times .basic ip) ≠ [] →
      ip ∈ (sh.counts .basic).keys := fun hne =>
    mem_keys_of_times fun hnil => hne (by rw [hnil]; rfl)
  simp only [checkBasicAccess]
  split
  · rename_i hlimit
    rw [bounded_store_iff h]
    refine ⟨fun hfits => hfits.imp_right .inl, fun hfits => ?_⟩
    rcases hfits with hmem | hroom | hpos
    · exact .inl hmem
    · exact .inr hroom
    · refine .inl (hkept fun hnil => ?_)
      rw [hnil, List.length_nil, Nat.cast_zero] at hlimit
      omega
  rename_i hlimit
  have hpos : 0 < cfg.basicLimit := by omega
  split
  · exact iff_of_true h (.inr (.inr hpos))
  · rename_i hroom
    refine iff_of_true ((bounded_store_iff h _).mpr ?_) (.inr (.inr hpos))
    by_cases hfull : sh.Full .basic
    · exact .inl (hkept fun hnil => hroom ⟨hfull, hnil⟩)
    · exact .inr hfull

end FloodShard

/-! ### The bound along a run -/

/-- An operation finds its key, or room for it, in each map it stores into. -/
def FloodOp.Fits (cfg : FloodConfig) (sh : FloodShard) : FloodOp → Prop
  | .checkBasicAccess ip =>
    ip ∈ (sh.counts .basic).keys ∨ ¬ sh.Full .basic ∨ 0 < cfg.basicLimit
  | .checkLimit kind ip =>
    ip ∈ (sh.counts (.offence kind)).keys ∨ ¬ sh.Full (.offence kind)
  | .setChallenge ip _ =>
    ip ∈ sh.challenged.keys ∨ sh.challenged.size < floodMaxKeysPerShard
  | .record _ _ | .isChallenged _ => True

/-- **One operation** keeps the bound exactly when it fits. -/
theorem bounded_apply_iff {cfg : FloodConfig} {now : ℤ} {sh : FloodShard} (h : sh.Bounded)
    (o : FloodOp) : (sh.apply cfg now o).1.Bounded ↔ o.Fits cfg sh := by
  cases o with
  | checkBasicAccess ip => exact FloodShard.bounded_checkBasicAccess_iff h
  | record kind ip => exact iff_of_true (FloodShard.bounded_record h kind) trivial
  | checkLimit kind ip => exact FloodShard.bounded_store_iff h _
  | setChallenge ip duration => exact FloodShard.bounded_setChallenge_iff h duration
  | isChallenged ip => exact iff_of_true (FloodShard.bounded_isChallenged h) trivial

/-- A call fits the state it finds. -/
def FloodCall.Fits (s : FloodState) (call : FloodCall) : Prop :=
  match call.event with
  | .op o => o.Fits call.cfg (s (shardFor o.ip))
  | .cleanup => True

namespace FloodState

/-- No map of any shard holds more keys than it may. -/
def Bounded (s : FloodState) : Prop :=
  ∀ i, (s i).Bounded

/-- **One call** keeps the bound exactly when it fits. -/
theorem bounded_step_iff {s : FloodState} (h : s.Bounded) (call : FloodCall) :
    (s.step call).Bounded ↔ call.Fits s := by
  obtain ⟨cfg, now, event⟩ := call
  cases event with
  | cleanup => exact iff_of_true (fun i => FloodShard.bounded_cleanup (h i)) trivial
  | op o =>
    change _ ↔ o.Fits cfg (s (shardFor o.ip))
    rw [← @bounded_apply_iff cfg now _ (h _) o]
    constructor
    · intro hbounded
      have hat := hbounded (shardFor o.ip)
      rwa [step_op, if_pos rfl] at hat
    · intro hshard i
      rw [step_op]
      split
      · rwa [‹i = _›]
      · exact h i

/-- **Flood memory**: a run of the protector stays within its bound exactly when each call finds,
in the shard of its address, its key or room for it. -/
theorem flood_bounded_iff (calls : List FloodCall) :
    (∀ past, past <+: calls → (run past).Bounded) ↔
      ∀ past call, past ++ [call] <+: calls → call.Fits (run past) := by
  constructor
  · intro hbounded past call hpast
    rw [← bounded_step_iff (hbounded past ((List.prefix_append _ _).trans hpast)), ← run_append]
    exact hbounded _ hpast
  · intro hfits past hpast
    refine run_induction (P := fun past => (run past).Bounded)
      (fun _ => FloodShard.bounded_newFloodShard) fun before call hbefore ih => ?_
    rw [run_append, bounded_step_iff ih]
    exact hfits before call (hbefore.trans hpast)

/-! ### Many addresses -/

/-- `CheckAttackLimit` for one address after the other. -/
def scan (cfg : FloodConfig) (now : ℤ) (ips : List GoString) : List FloodCall :=
  ips.map fun ip => ⟨cfg, now, .op (.checkAttackLimit ip)⟩

/-- Asking about an address leaves a key behind. -/
private theorem mem_keys_scan (cfg : FloodConfig) (now : ℤ) (ips : List GoString) :
    ∀ ip ∈ ips,
      ip ∈ ((run (scan cfg now ips) (shardFor ip)).counts (.offence .attack)).keys := by
  induction ips using List.reverseRecOn with
  | nil => exact fun ip hip => absurd hip List.not_mem_nil
  | append_singleton ips asked ih =>
    intro ip hip
    rw [scan, List.map_append, List.map_singleton, run_append, ← scan]
    rw [step_op]
    split
    · refine FloodShard.mem_keys_store.mpr ?_
      rcases List.mem_append.mp hip with hip | hip
      · exact .inr (ih ip hip)
      · exact .inl ⟨rfl, List.mem_singleton.mp hip⟩
    · rename_i hshard
      refine ih ip ((List.mem_append.mp hip).resolve_right fun hasked => ?_)
      exact hshard (congrArg shardFor (List.mem_singleton.mp hasked))

/-- Some shard is over its bound when `CheckAttackLimit` is asked about more addresses than all
shards together may hold. -/
theorem not_bounded_scan (cfg : FloodConfig) (now : ℤ) {ips : List GoString} (hnodup : ips.Nodup)
    (hmany : 256 * floodMaxKeysPerShard < ips.length) :
    ¬ (run (scan cfg now ips)).Bounded := by
  intro hbounded
  have hcover : ips.toFinset ⊆ Finset.univ.biUnion fun i =>
      ((run (scan cfg now ips) i).counts (.offence .attack)).keys := by
    intro ip hip
    rw [Finset.mem_biUnion]
    exact ⟨shardFor ip, Finset.mem_univ _, mem_keys_scan cfg now ips ip (List.mem_toFinset.mp hip)⟩
  have hcard := (Finset.card_le_card hcover).trans
    (Finset.card_biUnion_le_card_mul _ _ _ fun i _ => (hbounded i).counts (.offence .attack))
  rw [List.toFinset_card_of_nodup hnodup, Finset.card_univ, Fintype.card_fin] at hcard
  omega

/-- The addresses `10.0.0.0`, `10.0.0.1`, and so on. -/
def privateAddress (n : ℕ) : GoString :=
  str "10.0." ++ (natText (n / 256) ++ str "." ++ natText (n % 256))

theorem privateAddress_injective : Function.Injective privateAddress := by
  intro m n h
  have hdot : ∀ k, 0x2E ∉ natText k := fun k hmem =>
    absurd (natText_isDigit k 0x2E hmem) (by decide)
  have htail := List.append_cancel_left h
  rw [List.append_assoc, List.append_assoc] at htail
  obtain ⟨hhigh, -, hlow⟩ := (List.append_cons_inj_of_notMem (hdot _) (hdot _)).mp htail
  have hdiv := natText_injective hhigh
  have hmod := natText_injective hlow
  omega

/-- `CheckAttackLimit` is asked about each of the addresses of `10.0.0.0/16` once: one shard
remembers more addresses than it may. -/
theorem flood_over_bound : ¬ ∀ calls, (run calls).Bounded := by
  intro h
  let ips := (List.range 65536).map privateAddress
  have hnodup : ips.Nodup := List.nodup_range.map privateAddress_injective
  have hlength : ips.length = 65536 := by rw [List.length_map, List.length_range]
  exact not_bounded_scan ⟨1, 1, 1, 1, 1, 1⟩ 0 hnodup (by rw [hlength]; decide) (h _)

end FloodState

end VibesWaf

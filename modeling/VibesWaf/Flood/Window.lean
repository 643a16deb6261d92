import VibesWaf.Flood.Protector
import VibesWaf.Lib.Run

/-!
# What the flood protector remembers of a window

An attack or an error is recorded while there is room for it: the shard has not all the keys it may
have, and the address has fewer timestamps than its limit. The second test counts timestamps that
have left the window as well, and only a check or the clean-up removes those, so an address whose
list is full of old timestamps commits its next offences unseen.

`attempts` lists the offences of an address that were reported since its counters were last cleared,
each with whether there was room to record it. The invariant `sameRecent_run` says that the stored
timestamps look, through every later window, like the reports that found room, and
`limit_answer_iff` reads off when `CheckAttackLimit` and `CheckErrorLimit` refuse an address.
-/

namespace VibesWaf

open SlidingWindow

namespace FloodState

/-! ### Reports -/

/-- A call of `RecordAttack` or `RecordError`, and whether it found room. -/
structure Attempt where
  time : ℤ
  room : Bool
  deriving DecidableEq

/-- The attempts of an address after one more call: a report adds one, and an expired penalty that
is cleared ends them. -/
def noted (kind : Offence) (ip : GoString) (s : FloodState) (attempts : List Attempt)
    (call : FloodCall) : List Attempt :=
  match call.event with
  | .op (.record kind' ip') =>
    if kind' = kind ∧ ip' = ip then
      attempts ++ [⟨call.now, decide ((s (shardFor ip)).HasRoom call.cfg kind ip)⟩]
    else attempts
  | .op (.isChallenged ip') =>
    if ip' = ip ∧ (s (shardFor ip)).Expired call.now ip then [] else attempts
  | _ => attempts

/-- The attempts of an address since its counters were last cleared. -/
def attempts (kind : Offence) (ip : GoString) (calls : List FloodCall) : List Attempt :=
  (calls.foldl (fun acc call => (acc.1.step call, noted kind ip acc.1 acc.2 call))
    (newFloodState, [])).2

theorem attempts_append (kind : Offence) (ip : GoString) (calls : List FloodCall)
    (call : FloodCall) :
    attempts kind ip (calls ++ [call]) =
      noted kind ip (run calls) (attempts kind ip calls) call := by
  have hstate : ∀ (s : FloodState) (l : List Attempt),
      (calls.foldl (fun acc call => (acc.1.step call, noted kind ip acc.1 acc.2 call)) (s, l)).1 =
        calls.foldl step s := by
    induction calls with
    | nil => exact fun _ _ => rfl
    | cons first rest ih => exact fun s l => ih _ _
  rw [attempts, List.foldl_append, List.foldl_cons, List.foldl_nil, hstate]
  rfl

/-- When the attempts were made. -/
def attemptTimes (l : List Attempt) : List ℤ :=
  l.map (·.time)

/-- When the attempts that found room were made. -/
def recordedTimes (l : List Attempt) : List ℤ :=
  (l.filter (·.room)).map (·.time)

theorem recordedTimes_append (l : List Attempt) (a : Attempt) :
    recordedTimes (l ++ [a]) = recordedTimes l ++ if a.room = true then [a.time] else [] := by
  rw [recordedTimes, List.filter_append, List.map_append]
  cases hroom : a.room <;> simp [recordedTimes, hroom]

/-! ### The stored timestamps -/

/-- A report of the same kind is recorded where it finds room; one of another kind changes
neither side. -/
private theorem sameRecent_record {cfg : FloodConfig} {s : FloodState} {now : ℤ}
    {kind kind' : Offence} {ip : GoString} {l : List Attempt}
    (h : SameRecent (cfg.window (.offence kind)) now (s.times (.offence kind) ip)
      (recordedTimes l)) :
    SameRecent (cfg.window (.offence kind)) now
      (((s (shardFor ip)).record cfg kind' now ip).times (.offence kind) ip)
      (recordedTimes (noted kind ip s l ⟨cfg, now, .op (.record kind' ip)⟩)) := by
  by_cases hkind : kind' = kind
  · subst hkind
    have hnoted : noted kind' ip s l ⟨cfg, now, .op (.record kind' ip)⟩ =
        l ++ [⟨now, decide ((s (shardFor ip)).HasRoom cfg kind' ip)⟩] := if_pos ⟨rfl, rfl⟩
    rw [hnoted, FloodShard.record_eq, recordedTimes_append]
    by_cases hroom : (s (shardFor ip)).HasRoom cfg kind' ip
    · rw [if_pos hroom, if_pos (decide_eq_true hroom), FloodShard.times_store,
        if_pos ⟨rfl, rfl⟩]
      exact h.append [now]
    · rw [if_neg hroom, decide_eq_false hroom]
      exact (List.append_nil (recordedTimes l)).symm ▸ h
  · have hnoted : noted kind ip s l ⟨cfg, now, .op (.record kind' ip)⟩ = l :=
      if_neg fun hand => hkind hand.1
    have hkeep : ((s (shardFor ip)).record cfg kind' now ip).times (.offence kind) ip =
        s.times (.offence kind) ip := by
      rw [FloodShard.record_eq]
      split <;> simp [times, Ne.symm hkind]
    exact hnoted.symm ▸ hkeep.symm ▸ h

/-- **One operation on an address** keeps its timestamps and its recorded attempts alike. -/
private theorem sameRecent_apply {cfg : FloodConfig} {s : FloodState} {now : ℤ} {kind : Offence}
    {o : FloodOp} {l : List Attempt}
    (h : SameRecent (cfg.window (.offence kind)) now (s.times (.offence kind) o.ip)
      (recordedTimes l)) :
    SameRecent (cfg.window (.offence kind)) now
      (((s (shardFor o.ip)).apply cfg now o).1.times (.offence kind) o.ip)
      (recordedTimes (noted kind o.ip s l ⟨cfg, now, .op o⟩)) := by
  cases o with
  | checkBasicAccess ip =>
    have hkeep : ((s (shardFor ip)).checkBasicAccess cfg now ip).1.times (.offence kind) ip =
        s.times (.offence kind) ip := by
      simp only [FloodShard.checkBasicAccess]
      split <;> [skip; split] <;> simp [times]
    exact hkeep.symm ▸ h
  | record kind' ip => exact sameRecent_record h
  | checkLimit kind' ip =>
    by_cases hkind : kind = kind'
    -- a check drops timestamps, but none that could still count
    · subst hkind
      have hkept : ((s (shardFor ip)).checkLimit cfg kind now ip).1.times (.offence kind) ip =
          recent (cfg.window (.offence kind)) now (s.times (.offence kind) ip) := by
        simp [FloodShard.checkLimit, times]
      exact hkept.symm ▸ (sameRecent_recent _ _ _).trans h
    · have hkeep : ((s (shardFor ip)).checkLimit cfg kind' now ip).1.times (.offence kind) ip =
          s.times (.offence kind) ip := by
        simp [FloodShard.checkLimit, times, hkind]
      exact hkeep.symm ▸ h
  | setChallenge ip duration => exact h
  | isChallenged ip =>
    have hnoted : noted kind ip s l ⟨cfg, now, .op (.isChallenged ip)⟩ =
        if (s (shardFor ip)).Expired now ip then [] else l :=
      if_congr (and_iff_right rfl) rfl rfl
    change SameRecent _ _ (((s (shardFor ip)).isChallenged now ip).1.times _ ip)
      (recordedTimes (noted kind ip s l _))
    rw [FloodShard.times_isChallenged, hnoted]
    split
    · exact SameRecent.refl _ _ _
    · exact h

/-- **One call** keeps the timestamps of an address and its recorded attempts alike. -/
theorem sameRecent_step {cfg : FloodConfig} {s : FloodState} {call : FloodCall} {kind : Offence}
    {ip : GoString} {l : List Attempt} (hcfg : call.cfg = cfg)
    (h : SameRecent (cfg.window (.offence kind)) call.now (s.times (.offence kind) ip)
      (recordedTimes l)) :
    SameRecent (cfg.window (.offence kind)) call.now ((s.step call).times (.offence kind) ip)
      (recordedTimes (noted kind ip s l call)) := by
  obtain ⟨_, now, event⟩ := call
  obtain rfl : _ = cfg := hcfg
  cases event with
  | cleanup =>
    change SameRecent _ now (((s (shardFor ip)).cleanup _ now).times _ ip) _
    rw [FloodShard.times_cleanup]
    exact (sameRecent_recent _ _ _).trans h
  | op o =>
    by_cases hip : o.ip = ip
    · subst hip
      rw [times_step_op]
      exact sameRecent_apply h
    -- An operation on another address changes neither side.
    have hnoted : ∀ cfg, noted kind ip s l ⟨cfg, now, .op o⟩ = l := fun cfg => by
      cases o <;> simp_all [noted, FloodOp.ip]
    rw [hnoted, times, step_op]
    split
    · rwa [(FloodShard.apply_frame _ now _ (Ne.symm hip) _).1]
    · exact h

/-- **The invariant of a window**: the timestamps of an address look like its attempts that found
room. -/
theorem sameRecent_run {cfg : FloodConfig} {calls : List FloodCall} (hsteady : Steady cfg calls)
    (hchron : Chronological calls) (kind : Offence) (ip : GoString) {now : ℤ}
    (hnow : ∀ call ∈ calls, call.now ≤ now) :
    SameRecent (cfg.window (.offence kind)) now ((run calls).times (.offence kind) ip)
      (recordedTimes (attempts kind ip calls)) := by
  refine run_induction (P := fun past => ∀ now, (∀ call ∈ past, call.now ≤ now) →
    SameRecent (cfg.window (.offence kind)) now ((run past).times (.offence kind) ip)
      (recordedTimes (attempts kind ip past))) (fun _ _ => SameRecent.refl _ _ _) ?_ now hnow
  intro past call hpast ih now hnow
  rw [run_append, attempts_append]
  exact (sameRecent_step (hsteady call (mem_of_snoc hpast))
    (ih call.now (pairwise_snoc hchron hpast))).mono
      (hnow call (List.mem_append_right _ List.mem_cons_self))

/-- **The limit of an address** is reached when that many of its attempts in the window found
room. -/
theorem limit_answer_iff {cfg : FloodConfig} {calls : List FloodCall}
    (hsteady : Steady cfg calls) (hchron : Chronological calls) {now : ℤ}
    (hnow : ∀ call ∈ calls, call.now ≤ now) (kind : Offence) (ip : GoString) :
    (run calls).answer ⟨cfg, now, .op (.checkLimit kind ip)⟩ = some false ↔
      cfg.limit (.offence kind) ≤ (recent (cfg.window (.offence kind)) now
        (recordedTimes (attempts kind ip calls))).length := by
  rw [← (sameRecent_run hsteady hchron kind ip hnow).eq]
  change some (decide _) = some false ↔ _
  rw [Option.some_inj, decide_eq_false_iff_not, not_lt]
  rfl

/-- **Nothing is forgotten inside a window** exactly when enough of its attempts found room: the
shard not full, and the address's list, old timestamps included, below its limit. -/
theorem limit_remembers_iff {cfg : FloodConfig} {calls : List FloodCall}
    (hsteady : Steady cfg calls) (hchron : Chronological calls) {now : ℤ}
    (hnow : ∀ call ∈ calls, call.now ≤ now) (kind : Offence) (ip : GoString) :
    (cfg.limit (.offence kind) ≤ (recent (cfg.window (.offence kind)) now
        (attemptTimes (attempts kind ip calls))).length →
      (run calls).answer ⟨cfg, now, .op (.checkLimit kind ip)⟩ = some false) ↔
    (cfg.limit (.offence kind) ≤ (recent (cfg.window (.offence kind)) now
        (attemptTimes (attempts kind ip calls))).length →
      cfg.limit (.offence kind) ≤ (recent (cfg.window (.offence kind)) now
        (recordedTimes (attempts kind ip calls))).length) :=
  imp_congr_right fun _ => limit_answer_iff hsteady hchron hnow kind ip

/-- Two attacks within a window of ten are one too many. -/
def pairConfig : FloodConfig :=
  ⟨5, 10, 2, 10, 2, 10⟩

/-- Two attacks by an address, and two more much later. -/
def staleAttacks : List FloodCall :=
  [0, 1, 20, 21].map fun now => ⟨pairConfig, now, .op (.recordAttack (str "203.0.113.7"))⟩

/-- An address whose two attacks filled its list. -/
theorem limit_remembers_iff_stale :
    (pairConfig.limit (.offence .attack) ≤ (recent (pairConfig.window (.offence .attack)) 21
        (attemptTimes (attempts .attack (str "203.0.113.7") staleAttacks))).length →
      (run staleAttacks).answer
        ⟨pairConfig, 21, .op (.checkLimit .attack (str "203.0.113.7"))⟩ = some false) ↔
    (pairConfig.limit (.offence .attack) ≤ (recent (pairConfig.window (.offence .attack)) 21
        (attemptTimes (attempts .attack (str "203.0.113.7") staleAttacks))).length →
      pairConfig.limit (.offence .attack) ≤ (recent (pairConfig.window (.offence .attack)) 21
        (recordedTimes (attempts .attack (str "203.0.113.7") staleAttacks))).length) :=
  limit_remembers_iff (by decide) (by decide) (by decide) .attack (str "203.0.113.7")

/-- Both late attacks lie in the window, but the early ones filled the list: neither is recorded,
and the address passes. -/
theorem limit_forgets_stale :
    ¬ ∀ (cfg : FloodConfig) (calls : List FloodCall), Steady cfg calls → Chronological calls →
      ∀ now, (∀ call ∈ calls, call.now ≤ now) → ∀ kind ip,
        cfg.limit (.offence kind) ≤ (recent (cfg.window (.offence kind)) now
          (attemptTimes (attempts kind ip calls))).length →
        (run calls).answer ⟨cfg, now, .op (.checkLimit kind ip)⟩ = some false := by
  intro h
  have hpass : (run staleAttacks).answer
      ⟨pairConfig, 21, .op (.checkLimit .attack (str "203.0.113.7"))⟩ = some true := by
    decide
  have hfalse := h pairConfig staleAttacks (by decide) (by decide) 21 (by decide) .attack
    (str "203.0.113.7") (by decide)
  rw [hpass] at hfalse
  exact absurd hfalse (by decide)

end FloodState

end VibesWaf

import Mathlib.Algebra.Order.Group.Unbundled.Int
import VibesWaf.Challenge.Verify
import VibesWaf.Lib.Run

/-!
# The bounds on solving challenges

Three bounds for every interleaving of the requests: a challenge gives one token at most, no more
answers are evaluated against it than it has attempts, and an address gets no more tokens in a
window of solves than the limit. Each has an invariant of its own over the requests under way:

* `SingleUse`: no request has won a challenge that is still stored;
* `Attempts`: the answers evaluated against a stored challenge are the attempts it has counted and
  those still to be counted;
* `Solves`: the record of an address counts the tokens of its window.

The code takes no lock from one store operation to the next, so what a step relies on may have been
undone by then. The bounds hold in every run in which it has not.
-/

namespace VibesWaf

/-! ### What a step of a request does -/

/-- The request is about to delete the challenge it has solved. -/
def Stage.isAccepted (id : GoString) : Stage → Bool
  | .accepted id' => id' = id
  | _ => false

/-- The request is about to have its answer evaluated. -/
def Stage.isAdmitted (id : GoString) : Stage → Bool
  | .admitted body _ _ => body.challengeID = id
  | _ => false

/-- The request has won the challenge and its token is still to come. -/
def Stage.isSolved (id : GoString) : Stage → Bool
  | .solved id' => id' = id
  | _ => false

/-- The request is about to have its wrong answer counted. -/
def Stage.isRefused (id : GoString) : Stage → Bool
  | .refused id' => id' = id
  | _ => false

/-- The answer has been evaluated, and the store does not know of it yet. -/
def Stage.isPending (id : GoString) : Stage → Bool
  | .refused id' | .accepted id' => id' = id
  | _ => false

namespace VerifyRequest

variable {r : VerifyRequest} {types : List ChallengeType} {maxRetries : ℕ} {now : ℤ}
  {s : ChallengeStore}

/-- The checks on arrival leave the store alone; a request that passes them has neither won its
challenge nor had its answer evaluated. -/
private theorem advance_arrived :
    ∃ next, r.advance types maxRetries now s .arrived = (s, next) ∧
      ∀ id, next.isSolved id = false ∧ next.isPending id = false := by
  simp only [advance]
  split
  · exact ⟨_, rfl, fun _ => ⟨rfl, rfl⟩⟩
  split
  · exact ⟨_, rfl, fun _ => ⟨rfl, rfl⟩⟩
  split
  · exact ⟨_, rfl, fun _ => ⟨rfl, rfl⟩⟩
  split
  · exact ⟨_, rfl, fun _ => ⟨rfl, rfl⟩⟩
  split
  · exact ⟨_, rfl, fun _ => ⟨rfl, rfl⟩⟩
  · exact ⟨_, rfl, fun _ => ⟨rfl, rfl⟩⟩

/-- A request wins a challenge by deleting it. -/
theorem advance_isSolved (stage : Stage) (id : GoString) :
    (r.advance types maxRetries now s stage).2.isSolved id = stage.isAccepted id := by
  cases stage with
  | accepted id' => rfl
  | arrived =>
    obtain ⟨next, hnext, hstage⟩ := @advance_arrived r types maxRetries now s
    exact hnext ▸ (hstage id).1
  | found body ct data => simp only [advance]; split <;> rfl
  | admitted body ct data => simp only [advance]; split <;> rfl
  | refused id' => simp only [advance]; split <;> rfl
  | exhausted id' => rfl
  | solved id' => rfl
  | answered response => rfl

/-- An answer is pending once it has been evaluated. -/
theorem advance_isPending (stage : Stage) (id : GoString) :
    (r.advance types maxRetries now s stage).2.isPending id = stage.isAdmitted id := by
  cases stage with
  | admitted body ct data => simp only [advance]; split <;> rfl
  | arrived =>
    obtain ⟨next, hnext, hstage⟩ := @advance_arrived r types maxRetries now s
    exact hnext ▸ (hstage id).2
  | found body ct data => simp only [advance]; split <;> rfl
  | refused id' => simp only [advance]; split <;> rfl
  | exhausted id' => rfl
  | accepted id' => rfl
  | solved id' => rfl
  | answered response => rfl

/-- Every step leaves a challenge as it is, counts an attempt on it or deletes it. -/
theorem advance_challenges (stage : Stage) (id : GoString) :
    (r.advance types maxRetries now s stage).1.challenges id =
      match stage with
      | .refused id' =>
        if id = id' then (s.challenges id).map fun data => { data with attempts := data.attempts + 1 }
        else s.challenges id
      | .exhausted id' | .accepted id' => if id = id' then none else s.challenges id
      | _ => s.challenges id := by
  cases stage with
  | arrived =>
    obtain ⟨next, hnext, -⟩ := @advance_arrived r types maxRetries now s
    rw [hnext]
  | found body ct data => rfl
  | admitted body ct data => rfl
  | refused id' =>
    simp only [advance, ChallengeStore.incrementAttempts]
    by_cases hid : id = id'
    · subst hid
      cases hdata : s.challenges id with
      | none => simp [hdata]
      | some data => simp [ChallengeStore.put]
    · cases s.challenges id' with
      | none => simp [hid]
      | some data => simp [ChallengeStore.put, hid]
  | exhausted id' =>
    simp only [advance, ChallengeStore.delete, ChallengeStore.put, Function.update_apply]
  | accepted id' =>
    simp only [advance, ChallengeStore.delete, ChallengeStore.put, Function.update_apply]
  | solved id' =>
    simp only [advance, ChallengeStore.recordSolve]
    split <;> rfl
  | answered response => rfl

/-- A challenge that is stored after a step of a request was there before, and the request has not
deleted it; a wrong answer to it has been counted. -/
theorem advance_stored (stage : Stage) {id : GoString} {data' : ChallengeData}
    (h : (r.advance types maxRetries now s stage).1.challenges id = some data') :
    ∃ data, s.challenges id = some data ∧
      data'.attempts = data.attempts + (if stage.isRefused id then 1 else 0) ∧
      stage.isAccepted id = false := by
  rw [advance_challenges] at h
  cases stage with
  | refused id' =>
    dsimp only at h
    by_cases hid : id = id'
    · subst hid
      rw [if_pos rfl] at h
      obtain ⟨data, hdata, rfl⟩ := Option.map_eq_some_iff.mp h
      exact ⟨data, hdata, by simp [Stage.isRefused], rfl⟩
    · rw [if_neg hid] at h
      exact ⟨data', h, by simp [Stage.isRefused, Ne.symm hid], rfl⟩
  -- a challenge that has been deleted is no longer stored
  | exhausted id' =>
    dsimp only at h
    split at h
    · exact absurd h (by simp)
    · exact ⟨data', h, (add_zero _).symm, rfl⟩
  | accepted id' =>
    dsimp only at h
    split at h
    · exact absurd h (by simp)
    · rename_i hid
      exact ⟨data', h, (add_zero _).symm, by simp [Stage.isAccepted, Ne.symm hid]⟩
  -- the other stages leave the challenges alone
  | arrived => exact ⟨data', h, (add_zero _).symm, rfl⟩
  | found body ct data => exact ⟨data', h, (add_zero _).symm, rfl⟩
  | admitted body ct data => exact ⟨data', h, (add_zero _).symm, rfl⟩
  | solved id' => exact ⟨data', h, (add_zero _).symm, rfl⟩
  | answered response => exact ⟨data', h, (add_zero _).symm, rfl⟩

end VerifyRequest

/-! ### Counting requests -/

namespace VerifyWorld

variable {types : List ChallengeType} {maxRetries : ℕ} {w : VerifyWorld} {st : VerifyStep}

/-- The requests at a stage. -/
def count (w : VerifyWorld) (p : Stage → Bool) : ℕ :=
  w.flights.countP fun flight => p flight.stage

/-- The request that a step moves on. -/
def mover (w : VerifyWorld) (st : VerifyStep) : Option Flight :=
  match st.event with
  | .advance i => w.flights[i]?
  | _ => none

/-- The stage of the request that a step moves on. -/
def moving (w : VerifyWorld) (st : VerifyStep) : Option Stage :=
  (w.mover st).map (·.stage)

/-- The tokens a challenge has yielded, and those still to come. -/
def winners (w : VerifyWorld) (id : GoString) : ℕ :=
  w.tokens.countP (fun token => token.challengeID = id) + w.count (Stage.isSolved id)

/-- The answers to a challenge that have been evaluated and not yet counted. -/
def pending (w : VerifyWorld) (id : GoString) : ℕ :=
  w.count (Stage.isPending id)

theorem step_advance {i : ℕ} {now : ℤ} {flight : Flight} (h : w.flights[i]? = some flight) :
    w.step types maxRetries ⟨now, .advance i⟩ =
      let next := flight.request.advance types maxRetries now w.store flight.stage
      { store := next.1
        flights := w.flights.set i ⟨flight.request, next.2⟩
        evaluated := w.evaluated ++ flight.stage.evaluates
        tokens :=
          w.tokens ++ flight.stage.issues (verifyClientIP flight.request.http) next.1 } := by
  simp only [step, h]

theorem step_advance_none {i : ℕ} {now : ℤ} (h : w.flights[i]? = none) :
    w.step types maxRetries ⟨now, .advance i⟩ = w := by
  simp only [step, h]

/-- Moving one request on moves the count by it. -/
private theorem countP_set_flight {flights : List Flight} {i : ℕ} {flight : Flight}
    (h : flights[i]? = some flight) (p : Stage → Bool) (next : Flight) :
    (flights.set i next).countP (fun f => p f.stage) + (if p flight.stage then 1 else 0) =
      flights.countP (fun f => p f.stage) + if p next.stage then 1 else 0 := by
  obtain ⟨hi, rfl⟩ := List.getElem?_eq_some_iff.mp h
  have hle : (if p flights[i].stage = true then 1 else 0) ≤
      flights.countP fun f => p f.stage :=
    List.boole_getElem_le_countP (p := fun f : Flight => p f.stage) hi
  rw [List.countP_set hi]
  omega

/-- A recorded solve leaves a record. -/
theorem recordSolve_tracker (s : ChallengeStore) (now : ℤ) (ip : GoString) :
    ∃ solves, (s.recordSolve now ip).solveTracker ip = some solves := by
  rw [ChallengeStore.recordSolve]
  split
  · exact ⟨_, Function.update_self ..⟩
  · exact ⟨_, Function.update_self ..⟩

/-- A stage issues a token for the challenge it has won. -/
private theorem countP_issues (r : VerifyRequest) (now : ℤ) (s : ChallengeStore) (stage : Stage)
    (id : GoString) :
    (stage.issues (verifyClientIP r.http) (r.advance types maxRetries now s stage).1).countP
      (fun token => token.challengeID = id) = if stage.isSolved id then 1 else 0 := by
  cases stage with
  | solved id' =>
    obtain ⟨solves, hsolves⟩ := recordSolve_tracker s now (verifyClientIP r.http)
    change ((Option.toList ((s.recordSolve now (verifyClientIP r.http)).solveTracker _)).map
      _).countP _ = _
    rw [hsolves]
    simp [Stage.isSolved]
  | _ => rfl

/-- **A step** wins a challenge when it moves on a request that deletes the challenge it has
solved. -/
theorem winners_step (id : GoString) :
    (w.step types maxRetries st).winners id =
      w.winners id + if (w.moving st).any (Stage.isAccepted id) then 1 else 0 := by
  obtain ⟨now, event⟩ := st
  cases event with
  | arrive r => simp [winners, count, step, moving, mover, Stage.isSolved]
  | create id' typeName answer expiresAt evicted => rfl
  | cleanup => rfl
  | advance i =>
    cases hflight : w.flights[i]? with
    | none => simp [step_advance_none hflight, moving, mover, hflight]
    | some flight =>
      have hset := countP_set_flight hflight (Stage.isSolved id)
        ⟨flight.request, (flight.request.advance types maxRetries now w.store flight.stage).2⟩
      rw [VerifyRequest.advance_isSolved] at hset
      rw [step_advance hflight]
      simp only [winners, count, moving, mover, hflight, Option.map_some, Option.any_some,
        List.countP_append, countP_issues]
      omega

/-- **A step** evaluates an answer when it moves on an admitted request. -/
theorem evaluated_step (id : GoString) :
    (w.step types maxRetries st).evaluated.count id =
      w.evaluated.count id + if (w.moving st).any (Stage.isAdmitted id) then 1 else 0 := by
  obtain ⟨now, event⟩ := st
  cases event with
  | arrive r => rfl
  | create id' typeName answer expiresAt evicted => rfl
  | cleanup => rfl
  | advance i =>
    cases hflight : w.flights[i]? with
    | none => simp [step_advance_none hflight, moving, mover, hflight]
    | some flight =>
      have hevaluates : flight.stage.evaluates.count id =
          if flight.stage.isAdmitted id then 1 else 0 := by
        cases flight.stage <;> simp [Stage.evaluates, Stage.isAdmitted, List.count_singleton]
      rw [step_advance hflight]
      simp only [moving, mover, hflight, Option.map_some, Option.any_some, List.count_append,
        hevaluates]

/-- The answer of an admitted request becomes pending; a pending one stops being so. -/
theorem pending_step (id : GoString) :
    (w.step types maxRetries st).pending id +
        (if (w.moving st).any (Stage.isPending id) then 1 else 0) =
      w.pending id + if (w.moving st).any (Stage.isAdmitted id) then 1 else 0 := by
  obtain ⟨now, event⟩ := st
  cases event with
  | arrive r => simp [pending, count, step, moving, mover, Stage.isPending]
  | create id' typeName answer expiresAt evicted => rfl
  | cleanup => rfl
  | advance i =>
    cases hflight : w.flights[i]? with
    | none => simp [step_advance_none hflight, moving, mover, hflight]
    | some flight =>
      have hset := countP_set_flight hflight (Stage.isPending id)
        ⟨flight.request, (flight.request.advance types maxRetries now w.store flight.stage).2⟩
      rw [VerifyRequest.advance_isPending] at hset
      rw [step_advance hflight]
      simpa only [pending, count, moving, mover, hflight, Option.map_some, Option.any_some]
        using hset

end VerifyWorld

/-- The id of the challenge a step creates. -/
def VerifyStep.created (st : VerifyStep) : Option GoString :=
  match st.event with
  | .create id _ _ _ _ => some id
  | _ => none

/-- The ids of the challenges that some steps create. -/
def createdIDs (steps : List VerifyStep) : List GoString :=
  steps.filterMap VerifyStep.created

namespace VerifyWorld

variable {types : List ChallengeType} {maxRetries : ℕ} {w : VerifyWorld} {st : VerifyStep}

/-- A step that creates a challenge moves no request on. -/
theorem moving_of_created {id : GoString} (h : st.created = some id) : w.moving st = none := by
  obtain ⟨now, event⟩ := st
  cases event <;> simp_all [VerifyStep.created, moving, mover]

/-- **A challenge that is stored** after a step was created by it, or was there before and has not
been deleted; a wrong answer has been counted. -/
theorem stored_step {id : GoString} {data' : ChallengeData}
    (h : (w.step types maxRetries st).store.challenges id = some data') :
    (st.created = some id ∧ data'.attempts = 0) ∨
      ∃ data, w.store.challenges id = some data ∧
        data'.attempts = data.attempts + (if (w.moving st).any (Stage.isRefused id) then 1 else 0) ∧
        (w.moving st).any (Stage.isAccepted id) = false := by
  obtain ⟨now, event⟩ := st
  cases event with
  | arrive r => exact .inr ⟨data', h, (add_zero _).symm, rfl⟩
  | create id' typeName answer expiresAt evicted =>
    by_cases hid : id = id'
    · subst hid
      have hnew : (w.store.create id typeName answer expiresAt evicted).challenges id =
          some ⟨typeName, answer, expiresAt, 0⟩ := Function.update_self ..
      obtain rfl := Option.some.inj (hnew.symm.trans h)
      exact .inl ⟨rfl, rfl⟩
    · have hold : (w.store.create id' typeName answer expiresAt evicted).challenges id =
          if evicted id then none else w.store.challenges id := Function.update_of_ne hid ..
      have hkept := hold.symm.trans h
      split at hkept
      · exact absurd hkept (by simp)
      · exact .inr ⟨data', hkept, (add_zero _).symm, rfl⟩
  | cleanup => exact .inr ⟨data', (Option.filter_eq_some_iff.mp h).1, (add_zero _).symm, rfl⟩
  | advance i =>
    cases hflight : w.flights[i]? with
    | none =>
      rw [step_advance_none hflight] at h
      exact .inr ⟨data', h, by simp [moving, mover, hflight], by simp [moving, mover, hflight]⟩
    | some flight =>
      rw [step_advance hflight] at h
      simp only [moving, mover, hflight, Option.map_some, Option.any_some]
      exact .inr (VerifyRequest.advance_stored flight.stage h)

/-! ### One token for a challenge -/

/-- A right answer finds its challenge still stored when it deletes it. -/
def deletesStored (w : VerifyWorld) (st : VerifyStep) : Bool :=
  match w.moving st with
  | some (.accepted id) => (w.store.challenges id).isSome
  | _ => true

theorem stored_of_deletes {id : GoString} (h : w.deletesStored st = true)
    (hmoving : (w.moving st).any (Stage.isAccepted id) = true) :
    (w.store.challenges id).isSome = true := by
  obtain ⟨stage, hstage, haccepted⟩ := (Option.any_eq_true ..).mp hmoving
  rw [deletesStored, hstage] at h
  cases stage with
  | accepted id' => exact of_decide_eq_true haccepted ▸ h
  | _ => exact absurd haccepted (by simp [Stage.isAccepted])

/-- No request has won a challenge that is stored, or that is yet to be created. -/
structure SingleUse (created : List GoString) (w : VerifyWorld) (id : GoString) : Prop where
  le : w.winners id ≤ 1
  stored : (w.store.challenges id).isSome = true → id ∈ created ∧ w.winners id = 0
  fresh : id ∉ created → w.winners id = 0

/-- **One step** keeps a challenge for single use. -/
theorem singleUse_step {created : List GoString} {id : GoString} (h : SingleUse created w id)
    (hfresh : st.created = some id → id ∉ created) (hdeletes : w.deletesStored st = true) :
    SingleUse (created ++ st.created.toList) (w.step types maxRetries st) id := by
  have hsub : id ∈ created → id ∈ created ++ st.created.toList := fun hid =>
    List.mem_append_left _ hid
  have hwinners := @winners_step types maxRetries w st id
  by_cases hwins : (w.moving st).any (Stage.isAccepted id) = true
  · obtain ⟨hid, hzero⟩ := h.stored (stored_of_deletes hdeletes hwins)
    rw [if_pos hwins, hzero] at hwinners
    refine ⟨hwinners.le, fun hstored => ?_, fun hnot => absurd (hsub hid) hnot⟩
    -- It has just been deleted.
    obtain ⟨data', hdata'⟩ := Option.isSome_iff_exists.mp hstored
    rcases stored_step hdata' with ⟨hcreated, -⟩ | ⟨-, -, -, hkept⟩
    · rw [moving_of_created hcreated] at hwins
      exact absurd hwins (by simp)
    · exact absurd hwins (by simp [hkept])
  · rw [if_neg hwins, add_zero] at hwinners
    refine ⟨hwinners ▸ h.le, fun hstored => ?_, fun hnot => hwinners ▸ h.fresh (mt hsub hnot)⟩
    rw [hwinners]
    obtain ⟨data', hdata'⟩ := Option.isSome_iff_exists.mp hstored
    rcases stored_step hdata' with ⟨hcreated, -⟩ | ⟨data, hdata, -⟩
    · exact ⟨List.mem_append_right _ (by simp [hcreated]), h.fresh (hfresh hcreated)⟩
    · have hbefore := h.stored (by rw [hdata]; rfl)
      exact ⟨hsub hbefore.1, hbefore.2⟩

theorem createdIDs_append (past : List VerifyStep) (st : VerifyStep) :
    createdIDs (past ++ [st]) = createdIDs past ++ st.created.toList := by
  rw [createdIDs, List.filterMap_append]
  cases hcreated : st.created <;> simp [createdIDs, hcreated]

/-- Ids are drawn afresh. -/
theorem created_fresh {steps past : List VerifyStep} (hfresh : (createdIDs steps).Nodup)
    (hpast : past ++ [st] <+: steps) {id : GoString} (hid : st.created = some id) :
    id ∉ createdIDs past := by
  have hnodup : (createdIDs past ++ st.created.toList).Nodup := by
    rw [← createdIDs_append]
    exact hfresh.sublist (hpast.sublist.filterMap _)
  rw [hid] at hnodup
  exact fun hmem => (List.nodup_append.mp hnodup).2.2 id hmem id List.mem_cons_self rfl

/-- **Single use**: a challenge yields at most one token in every run in which right answers find
their challenge still stored when they delete it. -/
theorem single_use {steps : List VerifyStep} (hfresh : (createdIDs steps).Nodup)
    (hdeletes : ∀ past st, past ++ [st] <+: steps →
      (run types maxRetries past).deletesStored st = true) (id : GoString) :
    (run types maxRetries steps).tokens.countP (fun token => token.challengeID = id) ≤ 1 := by
  have hinv : SingleUse (createdIDs steps) (run types maxRetries steps) id := by
    refine run_induction
      (P := fun past => SingleUse (createdIDs past) (run types maxRetries past) id)
      ⟨Nat.zero_le 1, fun h => absurd h (by simp [run, init, ChallengeStore.new]), fun _ => rfl⟩ ?_
    intro past st hpast ih
    rw [createdIDs_append, run_append]
    exact singleUse_step ih (created_fresh hfresh hpast) (hdeletes past st hpast)
  exact (Nat.le_add_right _ _).trans hinv.le

/-! ### As many answers as attempts -/

/-- An answer is evaluated while its challenge is stored, and its attempts with the answers still
to be counted are below the maximum. -/
def evaluatesWithin (w : VerifyWorld) (maxRetries : ℕ) (st : VerifyStep) : Bool :=
  match w.moving st with
  | some (.admitted body _ _) =>
    (w.store.challenges body.challengeID).any fun data =>
      decide (data.attempts + (w.pending body.challengeID : ℤ) < maxRetries)
  | _ => true

theorem within_of_evaluates {id : GoString} (h : w.evaluatesWithin maxRetries st = true)
    (hmoving : (w.moving st).any (Stage.isAdmitted id) = true) :
    ∃ data, w.store.challenges id = some data ∧ data.attempts + w.pending id < maxRetries := by
  obtain ⟨stage, hstage, hadmitted⟩ := (Option.any_eq_true ..).mp hmoving
  rw [evaluatesWithin, hstage] at h
  cases stage with
  | admitted body ct data =>
    obtain ⟨data, hdata, hlt⟩ := (Option.any_eq_true ..).mp h
    obtain rfl : body.challengeID = id := of_decide_eq_true hadmitted
    exact ⟨data, hdata, of_decide_eq_true hlt⟩
  | _ => exact absurd hadmitted (by simp [Stage.isAdmitted])

/-- The answers that were evaluated against a stored challenge are the attempts it has counted and
those still to be counted. -/
structure Attempts (maxRetries : ℕ) (created : List GoString) (w : VerifyWorld) (id : GoString) :
    Prop where
  le : w.evaluated.count id ≤ maxRetries
  stored : ∀ data, w.store.challenges id = some data →
    id ∈ created ∧ (w.evaluated.count id : ℤ) = data.attempts + w.pending id
  fresh : id ∉ created → w.evaluated.count id = 0 ∧ w.pending id = 0

/-- A pending answer is to be counted, or deletes its challenge. -/
private theorem isPending_eq (stage : Option Stage) (id : GoString) :
    stage.any (Stage.isPending id) =
      (stage.any (Stage.isRefused id) || stage.any (Stage.isAccepted id)) := by
  rcases stage with _ | stage
  · rfl
  · cases stage <;> simp [Stage.isPending, Stage.isRefused, Stage.isAccepted]

/-- **One step** keeps the count of the answers. -/
theorem attempts_step {created : List GoString} {id : GoString}
    (h : Attempts maxRetries created w id) (hfresh : st.created = some id → id ∉ created)
    (hevaluates : w.evaluatesWithin maxRetries st = true) :
    Attempts maxRetries (created ++ st.created.toList) (w.step types maxRetries st) id := by
  have hevaluated := @evaluated_step types maxRetries w st id
  have hpending := @pending_step types maxRetries w st id
  refine ⟨?_, fun data' hdata' => ?_, fun hnot => ?_⟩
  -- the bound: an answer is evaluated only while an attempt is left for it
  · by_cases hadmitted : (w.moving st).any (Stage.isAdmitted id) = true
    · obtain ⟨data, hdata, hlt⟩ := within_of_evaluates hevaluates hadmitted
      have hcount := (h.stored data hdata).2
      rw [if_pos hadmitted] at hevaluated
      omega
    · rw [if_neg hadmitted] at hevaluated
      exact hevaluated ▸ h.le
  -- the count: a stored challenge is new, or one pending answer at most has become an attempt
  · rcases stored_step hdata' with ⟨hcreated, hzero⟩ | ⟨data, hdata, hattempts, hkept⟩
    · obtain ⟨hnone, hnothing⟩ := h.fresh (hfresh hcreated)
      rw [moving_of_created hcreated] at hevaluated hpending
      refine ⟨List.mem_append_right _ (by simp [hcreated]), ?_⟩
      simp only [Option.any_none, Bool.false_eq_true, if_false] at hevaluated hpending
      omega
    · obtain ⟨hid, hcount⟩ := h.stored data hdata
      refine ⟨List.mem_append_left _ hid, ?_⟩
      rw [isPending_eq, hkept, Bool.or_false] at hpending
      cases hrefused : (w.moving st).any (Stage.isRefused id) with
      | false =>
        simp only [hrefused, Bool.false_eq_true, if_false] at hattempts hpending
        omega
      | true =>
        simp only [hrefused, if_true] at hattempts hpending
        omega
  -- a challenge that has not been created has no requests that could be admitted
  · have hid : id ∉ created := fun hmem => hnot (List.mem_append_left _ hmem)
    have hadmitted : ¬ (w.moving st).any (Stage.isAdmitted id) = true := fun hmoving =>
      hid ((within_of_evaluates hevaluates hmoving).elim fun data hdata =>
        (h.stored data hdata.1).1)
    obtain ⟨hnone, hnothing⟩ := h.fresh hid
    rw [if_neg hadmitted] at hevaluated hpending
    omega

/-- **The attempts are bounded**: no more answers are evaluated against a challenge than the maximum
in every run in which an answer is only evaluated while there are attempts left for it. -/
theorem attempts_bounded {steps : List VerifyStep} (hfresh : (createdIDs steps).Nodup)
    (hevaluates : ∀ past st, past ++ [st] <+: steps →
      (run types maxRetries past).evaluatesWithin maxRetries st = true) (id : GoString) :
    (run types maxRetries steps).evaluated.count id ≤ maxRetries := by
  have hinv : Attempts maxRetries (createdIDs steps) (run types maxRetries steps) id := by
    refine run_induction
      (P := fun past => Attempts maxRetries (createdIDs past) (run types maxRetries past) id)
      ⟨Nat.zero_le _, fun _ h => absurd h (by simp [run, init, ChallengeStore.new]),
        fun _ => ⟨rfl, rfl⟩⟩ ?_
    intro past st hpast ih
    rw [createdIDs_append, run_append]
    exact attempts_step ih (created_fresh hfresh hpast) (hevaluates past st hpast)
  exact hinv.le

end VerifyWorld

/-! ### As many tokens as solves -/

/-- The tokens of an address in a window. -/
def issued (tokens : List SolveToken) (ip : GoString) (window : ℤ) : ℕ :=
  tokens.countP fun token => token.ip = ip ∧ token.window = window

/-- The record of an address counts the tokens of its window, and all other windows are over. -/
structure Solves (ip : GoString) (now : ℤ) (record : Option SolveRecord)
    (tokens : List SolveToken) : Prop where
  le : ∀ window, (issued tokens ip window : ℤ) ≤ solveMax
  counted : ∀ solves, record = some solves →
    (issued tokens ip solves.windowStart : ℤ) ≤ solves.count ∧ solves.count ≤ solveMax
  closed : ∀ token ∈ tokens, token.ip = ip →
    (∃ solves, record = some solves ∧ solves.windowStart = token.window) ∨
      solveWindow < now - token.window

namespace Solves

variable {ip : GoString} {now later : ℤ} {record : Option SolveRecord} {tokens : List SolveToken}

theorem mono (h : Solves ip now record tokens) (hle : now ≤ later) :
    Solves ip later record tokens :=
  ⟨h.le, h.counted, fun token hmem hip => (h.closed token hmem hip).imp_right fun hover => by omega⟩

/-- A record whose window is over can go. -/
theorem expire (h : Solves ip now record tokens) :
    Solves ip now (SolveRecord.current now record) tokens := by
  refine ⟨h.le, fun solves hsolves => h.counted solves (Option.filter_eq_some_iff.mp hsolves).1,
    fun token hmem hip => ?_⟩
  rcases h.closed token hmem hip with ⟨solves, rfl, hwindow⟩ | hover
  · by_cases hcurrent : solveWindow < now - solves.windowStart
    · exact .inr (hwindow ▸ hcurrent)
    · exact .inl ⟨solves, Option.filter_eq_some_iff.mpr ⟨rfl, by simpa using hcurrent⟩, hwindow⟩
  · exact .inr hover

/-- A token of another address makes no difference. -/
theorem other (h : Solves ip now record tokens) {token : SolveToken} (hip : token.ip ≠ ip) :
    Solves ip now record (tokens ++ [token]) := by
  have hissued : ∀ window, issued (tokens ++ [token]) ip window = issued tokens ip window := by
    intro window
    simp [issued, List.countP_append, hip]
  refine ⟨fun window => hissued window ▸ h.le window,
    fun solves hsolves => hissued _ ▸ h.counted solves hsolves, fun t hmem ht => ?_⟩
  rcases List.mem_append.mp hmem with hmem | hmem
  · exact h.closed t hmem ht
  · exact absurd (List.mem_singleton.mp hmem ▸ ht) hip

/-- A token in the window of the record, which has been counted. -/
private theorem count (h : Solves ip now record tokens) (id : GoString) {solves : SolveRecord}
    (hcount : (issued tokens ip solves.windowStart : ℤ) < solves.count)
    (hmax : solves.count ≤ solveMax)
    (hover : ∀ token ∈ tokens, token.ip = ip → token.window = solves.windowStart ∨
      solveWindow < now - token.window) :
    Solves ip now (some solves) (tokens ++ [⟨id, ip, solves.windowStart⟩]) := by
  have hissued : ∀ window, issued (tokens ++ [⟨id, ip, solves.windowStart⟩]) ip window =
      issued tokens ip window + if solves.windowStart = window then 1 else 0 := by
    intro window
    simp [issued, List.countP_append, List.countP_singleton]
  refine ⟨fun window => ?_, fun solves' hsolves' => ?_, fun token hmem hip => ?_⟩
  · rw [hissued]
    split
    · rename_i hwindow
      subst hwindow
      push_cast
      omega
    · exact h.le window
  · obtain rfl := Option.some.inj hsolves'
    rw [hissued, if_pos rfl]
    push_cast
    exact ⟨by omega, hmax⟩
  · rcases List.mem_append.mp hmem with hmem | hmem
    · exact (hover token hmem hip).imp_left fun hwindow => ⟨solves, rfl, hwindow.symm⟩
    · obtain rfl := List.mem_singleton.mp hmem
      exact .inl ⟨solves, rfl, rfl⟩

/-- **A solve is recorded** for an address that is not rate limited. -/
theorem recordSolve (h : Solves ip now record tokens) (id : GoString)
    (hlimit : (SolveRecord.current now record).any (fun solves => solveMax ≤ solves.count) = false)
    {solves' : SolveRecord}
    (hsolves' : solves' = match SolveRecord.current now record with
      | none => ⟨1, now⟩
      | some solves => { solves with count := solves.count + 1 }) :
    Solves ip now (some solves') (tokens ++ [⟨id, ip, solves'.windowStart⟩]) := by
  have hexpired := h.expire
  cases hcurrent : SolveRecord.current now record with
  | none =>
    rw [hcurrent] at hexpired hsolves'
    obtain rfl : solves' = ⟨1, now⟩ := hsolves'
    -- All earlier windows are over, so none of them starts now.
    have hearlier : ∀ token ∈ tokens, token.ip = ip → solveWindow < now - token.window :=
      fun token hmem hip =>
        (hexpired.closed token hmem hip).resolve_left fun ⟨_, hsome, _⟩ => by simp at hsome
    have hnone : issued tokens ip now = 0 := by
      rw [issued, List.countP_eq_zero]
      intro token hmem
      rw [decide_eq_true_eq]
      rintro ⟨hip, hwindow⟩
      have := hearlier token hmem hip
      rw [hwindow, sub_self, solveWindow] at this
      omega
    have hone : (issued tokens ip now : ℤ) < 1 := by rw [hnone]; decide
    have hmax : (1 : ℤ) ≤ solveMax := by decide
    exact h.count id hone hmax fun token hmem hip => .inr (hearlier token hmem hip)
  | some solves =>
    rw [hcurrent] at hexpired hsolves' hlimit
    obtain rfl : solves' = { solves with count := solves.count + 1 } := hsolves'
    obtain ⟨hcount, -⟩ := hexpired.counted solves rfl
    have hbelow : solves.count < solveMax := by simpa using hlimit
    refine h.count id (Int.lt_add_one_iff.mpr hcount) (Int.add_one_le_iff.mpr hbelow)
      fun token hmem hip => ?_
    refine (hexpired.closed token hmem hip).imp_left fun ⟨solves', hsome, hwindow⟩ => ?_
    rw [← hwindow, ← Option.some.inj hsome]

end Solves

/-- The record of an address after one more solve. -/
def SolveRecord.next (now : ℤ) (record : Option SolveRecord) : SolveRecord :=
  match SolveRecord.current now record with
  | none => ⟨1, now⟩
  | some solves => { solves with count := solves.count + 1 }

theorem recordSolve_eq (s : ChallengeStore) (now : ℤ) (ip : GoString) :
    s.recordSolve now ip = s.track ip (some (SolveRecord.next now (s.solveTracker ip))) := by
  unfold ChallengeStore.recordSolve ChallengeStore.currentSolves SolveRecord.next
  cases SolveRecord.current now (s.solveTracker ip) <;> rfl

namespace VerifyWorld

variable {types : List ChallengeType} {maxRetries : ℕ} {w : VerifyWorld} {st : VerifyStep}

/-- A step that neither asks for nor records the solves of an address leaves its record. -/
private theorem advance_solveTracker (r : VerifyRequest) (now : ℤ) (s : ChallengeStore)
    (stage : Stage) :
    (∃ body ct data, stage = .found body ct data ∧
      (r.advance types maxRetries now s stage).1 =
        s.track (verifyClientIP r.http) (s.currentSolves now (verifyClientIP r.http))) ∨
    (∃ id, stage = .solved id ∧
      (r.advance types maxRetries now s stage).1 = s.recordSolve now (verifyClientIP r.http)) ∨
    ((r.advance types maxRetries now s stage).1.solveTracker = s.solveTracker ∧
      ∀ ip s', stage.issues ip s' = []) := by
  cases stage with
  | found body ct data => exact .inl ⟨body, ct, data, rfl, rfl⟩
  | solved id => exact .inr (.inl ⟨id, rfl, rfl⟩)
  | arrived =>
    refine .inr (.inr ⟨?_, fun _ _ => rfl⟩)
    obtain ⟨next, hnext, -⟩ := @VerifyRequest.advance_arrived r types maxRetries now s
    rw [hnext]
  | refused id =>
    refine .inr (.inr ⟨?_, fun _ _ => rfl⟩)
    simp only [VerifyRequest.advance, ChallengeStore.incrementAttempts]
    split <;> rfl
  | admitted body ct data => exact .inr (.inr ⟨rfl, fun _ _ => rfl⟩)
  | exhausted id => exact .inr (.inr ⟨rfl, fun _ _ => rfl⟩)
  | accepted id => exact .inr (.inr ⟨rfl, fun _ _ => rfl⟩)
  | answered response => exact .inr (.inr ⟨rfl, fun _ _ => rfl⟩)

/-- The solve of an address is recorded while the address is not rate limited. -/
def recordsWithin (w : VerifyWorld) (st : VerifyStep) : Bool :=
  match w.mover st with
  | some ⟨r, .solved _⟩ => !(w.store.isSolveRateLimited st.now (verifyClientIP r.http)).2
  | _ => true

theorem within_of_records {r : VerifyRequest} {id : GoString} (h : w.recordsWithin st = true)
    (hmover : w.mover st = some ⟨r, .solved id⟩) :
    (w.store.isSolveRateLimited st.now (verifyClientIP r.http)).2 = false := by
  rw [recordsWithin, hmover] at h
  exact Bool.not_eq_true' _ ▸ h

/-- **One step** keeps the record of an address in step with its tokens. -/
theorem solves_step {ip : GoString} {now : ℤ}
    (h : Solves ip now (w.store.solveTracker ip) w.tokens) (hnow : now ≤ st.now)
    (hrecords : w.recordsWithin st = true) :
    Solves ip st.now ((w.step types maxRetries st).store.solveTracker ip)
      (w.step types maxRetries st).tokens := by
  replace h := h.mono hnow
  obtain ⟨time, event⟩ := st
  cases event with
  | arrive r => exact h
  | create id typeName answer expiresAt evicted => exact h
  | cleanup => exact h.expire
  | advance i =>
    cases hflight : w.flights[i]? with
    | none => rwa [step_advance_none hflight]
    | some flight =>
      rw [step_advance hflight]
      dsimp only
      rcases @advance_solveTracker types maxRetries flight.request time w.store flight.stage with
        ⟨body, ct, data, hstage, hstore⟩ | ⟨id, hstage, hstore⟩ | ⟨htracker, hissues⟩
      · rw [hstore, hstage]
        change Solves ip time _ (w.tokens ++ [])
        rw [List.append_nil, ChallengeStore.track_solveTracker]
        split
        · rename_i hip
          subst hip
          exact h.expire
        · exact h
      · obtain ⟨r, stage⟩ := flight
        obtain rfl : stage = .solved id := hstage
        have hlimit := within_of_records hrecords hflight
        rw [hstore, recordSolve_eq]
        simp only [Stage.issues, ChallengeStore.track_solveTracker, if_true]
        split
        · rename_i hip
          subst hip
          exact h.recordSolve id hlimit rfl
        · rename_i hip
          exact h.other (Ne.symm hip)
      · rw [htracker, hissues, List.append_nil]
        exact h

/-- The times of a run do not decrease. -/
def Timely (steps : List VerifyStep) : Prop :=
  steps.Pairwise fun st later => st.now ≤ later.now

/-- **The solves are bounded**: no address gets more tokens in a window than the limit in every run
in which no solve is recorded for an address that is rate limited by then. -/
theorem solves_bounded {steps : List VerifyStep} (htimely : Timely steps)
    (hrecords : ∀ past st, past ++ [st] <+: steps →
      (run types maxRetries past).recordsWithin st = true) (ip : GoString) (window : ℤ) :
    (issued (run types maxRetries steps).tokens ip window : ℤ) ≤ solveMax := by
  suffices hinv : ∀ now, (∀ st ∈ steps, st.now ≤ now) →
      Solves ip now ((run types maxRetries steps).store.solveTracker ip)
        (run types maxRetries steps).tokens by
    -- No step is later than the last one.
    obtain ⟨now, hnow⟩ : ∃ now, ∀ st ∈ steps, st.now ≤ now := by
      rcases List.eq_nil_or_concat' steps with rfl | ⟨past, last, rfl⟩
      · exact ⟨0, fun _ h => absurd h List.not_mem_nil⟩
      · refine ⟨last.now, fun st hst => ?_⟩
        rcases List.mem_append.mp hst with hst | hst
        · exact pairwise_snoc htimely (List.prefix_refl _) st hst
        · exact (congrArg VerifyStep.now (List.mem_singleton.mp hst)).le
    exact (hinv now hnow).le window
  refine run_induction (P := fun past => ∀ now, (∀ st ∈ past, st.now ≤ now) →
    Solves ip now ((run types maxRetries past).store.solveTracker ip)
      (run types maxRetries past).tokens) (fun now _ => ?_) ?_
  · exact ⟨fun _ => show (0 : ℤ) ≤ solveMax by decide,
      fun _ h => by simp [run, init, ChallengeStore.new] at h,
      fun _ h => absurd h List.not_mem_nil⟩
  · intro past st hpast ih now hnow
    rw [run_append]
    exact (solves_step (ih st.now (pairwise_snoc htimely hpast)) le_rfl
      (hrecords past st hpast)).mono (hnow st (List.mem_append_right _ List.mem_cons_self))

/-! ### The three bounds -/

/-- **The bounds on solving challenges**, each in every run whose steps find what it needs: a
challenge yields at most one token, no more answers than the maximum are evaluated against it, and
no address gets more tokens in a window than the limit. -/
theorem verify_bounds (types : List ChallengeType) (maxRetries : ℕ) {steps : List VerifyStep}
    (htimely : Timely steps) (hfresh : (createdIDs steps).Nodup) :
    ((∀ past st, past ++ [st] <+: steps →
        (run types maxRetries past).deletesStored st = true) →
      ∀ id, (run types maxRetries steps).tokens.countP (fun token => token.challengeID = id) ≤ 1) ∧
    ((∀ past st, past ++ [st] <+: steps →
        (run types maxRetries past).evaluatesWithin maxRetries st = true) →
      ∀ id, (run types maxRetries steps).evaluated.count id ≤ maxRetries) ∧
    ((∀ past st, past ++ [st] <+: steps →
        (run types maxRetries past).recordsWithin st = true) →
      ∀ ip window, (issued (run types maxRetries steps).tokens ip window : ℤ) ≤ solveMax) :=
  ⟨single_use hfresh, attempts_bounded hfresh, solves_bounded htimely⟩

/-- A request with the right answer to the challenge `c1`. -/
def solveRequest : VerifyRequest where
  http :=
    { method := str "POST"
      path := str "/__waf_verify"
      rawPath := []
      rawQuery := []
      requestURI := str "/__waf_verify"
      host := str "example.com"
      proto := str "HTTP/1.1"
      header := fun key =>
        if key = str "X-Requested-With" then [str "XMLHttpRequest"] else []
      cookies := []
      remoteAddr := str "203.0.113.7:4711"
      tls := false }
  body := some ⟨str "c1", 52, 2000⟩

/-- The challenge `c1` is handed out, and some requests for it arrive. -/
def challengedBy (requests : ℕ) : List VerifyStep :=
  ⟨0, .create (str "c1") (str "slider") 50 60000000000 fun _ => false⟩ ::
    List.replicate requests ⟨1, .arrive solveRequest⟩

/-- Two requests side by side, the first with the right answer and the second with a wrong one. -/
def solvedBeside : List VerifyStep :=
  challengedBy 1 ++ ⟨1, .arrive { solveRequest with body := some ⟨str "c1", 7, 2000⟩ }⟩ ::
    [0, 1, 1, 0, 0, 1, 1, 0, 0].map fun i => ⟨2, .advance i⟩

/-- Both answers are evaluated before the challenge is deleted, and only one gets a token. -/
theorem verify_bounds_beside :
    (∀ id, (run [sliderChallenge] 3 solvedBeside).tokens.countP
      (fun token => token.challengeID = id) ≤ 1) ∧
    (∀ id, (run [sliderChallenge] 3 solvedBeside).evaluated.count id ≤ 3) ∧
    ∀ ip window,
      (issued (run [sliderChallenge] 3 solvedBeside).tokens ip window : ℤ) ≤ solveMax := by
  obtain ⟨hsingle, hattempts, hsolves⟩ :=
    @verify_bounds [sliderChallenge] 3 solvedBeside
      (by unfold Timely; decide) (by decide)
  exact ⟨hsingle (forall_snoc (by decide)), hattempts (forall_snoc (by decide)),
    hsolves (forall_snoc (by decide))⟩

/-- Two requests with the right answer, side by side. -/
def solvedTwice : List VerifyStep :=
  challengedBy 2 ++ (List.replicate 5 [⟨2, .advance 0⟩, ⟨2, .advance 1⟩]).flatten

/-- Two requests find the same challenge before either has deleted it, and both get a token. -/
theorem verify_solved_twice :
    ¬ ∀ (types : List ChallengeType) (maxRetries : ℕ) (steps : List VerifyStep),
      Timely steps → (createdIDs steps).Nodup →
      (∀ id, (run types maxRetries steps).tokens.countP
        (fun token => token.challengeID = id) ≤ 1) ∧
      (∀ id, (run types maxRetries steps).evaluated.count id ≤ maxRetries) ∧
      ∀ ip window, (issued (run types maxRetries steps).tokens ip window : ℤ) ≤ solveMax := by
  intro h
  have honce := (h [sliderChallenge] 3 solvedTwice (by unfold Timely; decide)
    (by decide)).1 (str "c1")
  revert honce
  decide

end VerifyWorld

end VibesWaf

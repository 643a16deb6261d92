import VibesWaf.Go.Strings
import VibesWaf.Lib.Run
import VibesWaf.Lib.WorkQueue

/-!
# The certificate queue

`acme.Service` has a queue of jobs and a flag that says whether a worker is about. `enqueue` drops a
job if one for its domain is queued, and starts a worker if there is none; a worker takes the jobs
one after the other, and when it finds the queue empty it clears the flag and returns. Both do so
under the lock of the service.

A `System` is the service with the workers that have been started, and the record of what was
accepted and what has been executed. Its steps are a call of `enqueue`, or a step of one of the
workers, in any order. `queue_discipline` is about every run of it; `System.work` is the queue with
one worker that the system implements.
-/

namespace VibesWaf

variable {κ : Type*}

/-- `job`; a callback is one of those that its callers have. -/
structure Job (κ : Type*) where
  domain : GoString
  method : GoString
  force : Bool
  onComplete : Option κ
  deriving DecidableEq

/-- The queue of `acme.Service`. -/
structure AcmeService (κ : Type*) where
  queue : List (Job κ)
  workerBusy : Bool

/-- Where a worker is: at the head of its loop, or at its job, without the lock. -/
inductive AcmeWorker (κ : Type*)
  | looking
  | executing (j : Job κ)

/-- The job that a worker is at. -/
def AcmeWorker.job : AcmeWorker κ → Option (Job κ)
  | .looking => none
  | .executing j => some j

/-- The service and its workers, with what has been accepted and what has been executed. -/
structure AcmeSystem (κ : Type*) where
  service : AcmeService κ
  workers : List (AcmeWorker κ)
  accepted : List (Job κ)
  executed : List (Job κ)

/-- A call of `enqueue`, or a step of a worker. -/
inductive AcmeStep (κ : Type*)
  | enqueue (j : Job κ)
  | worker (i : ℕ)

/-- A step of the first worker. -/
def AcmeStep.isTurn : AcmeStep κ → Bool
  | .worker 0 => true
  | _ => false

/-- `NewService`. -/
def newAcmeSystem : AcmeSystem κ :=
  ⟨⟨[], false⟩, [], [], []⟩

namespace AcmeSystem

/-- `enqueue`. -/
def enqueue (s : AcmeSystem κ) (j : Job κ) : AcmeSystem κ :=
  if s.service.queue.any (·.domain = j.domain) then s
  else
    { s with
      service := ⟨s.service.queue ++ [j], true⟩
      workers := if s.service.workerBusy then s.workers else s.workers ++ [.looking]
      accepted := s.accepted ++ [j] }

/-- A step of a worker: under the lock it takes a job or returns; then it executes the job and calls
its callback. -/
def worker (s : AcmeSystem κ) (i : ℕ) : AcmeSystem κ :=
  match s.workers[i]? with
  | none => s
  | some .looking =>
    match s.service.queue with
    | [] => { s with service := ⟨[], false⟩, workers := s.workers.eraseIdx i }
    | j :: queue =>
      { s with
        service := { s.service with queue := queue }
        workers := s.workers.set i (.executing j) }
  | some (.executing j) =>
    { s with workers := s.workers.set i .looking, executed := s.executed ++ [j] }

/-- A step. -/
def step (s : AcmeSystem κ) : AcmeStep κ → AcmeSystem κ
  | .enqueue j => s.enqueue j
  | .worker i => s.worker i

/-- A run. -/
def run (s : AcmeSystem κ) (steps : List (AcmeStep κ)) : AcmeSystem κ :=
  steps.foldl step s

/-! ### The queue with one worker -/

/-- The jobs that are not finished: the one that is executed, and those that wait. -/
def unfinished (s : AcmeSystem κ) : List (Job κ) :=
  s.workers.filterMap AcmeWorker.job ++ s.service.queue

/-- The queue that the system implements. -/
def work (s : AcmeSystem κ) : WorkQueue (Job κ) :=
  ⟨s.executed, s.workers.head?.bind AcmeWorker.job, s.service.queue⟩

/-- What holds of every reachable system. -/
structure Valid (s : AcmeSystem κ) : Prop where
  /-- The flag is set exactly when there is a worker, and there is no second one. -/
  busy : s.workers.length = s.service.workerBusy.toNat
  /-- Nothing waits without a worker. -/
  active : s.service.queue ≠ [] → s.service.workerBusy = true
  accepted : s.accepted = s.work.accepted
  distinct : (s.service.queue.map Job.domain).Nodup

theorem valid_new : (newAcmeSystem : AcmeSystem κ).Valid :=
  ⟨rfl, fun h => absurd rfl h, rfl, List.nodup_nil⟩

variable {s : AcmeSystem κ}

/-- A job is dropped if one for its domain waits, and accepted otherwise. -/
theorem enqueue_cases (s : AcmeSystem κ) (j : Job κ) :
    ((∃ j' ∈ s.service.queue, j'.domain = j.domain) ∧ s.enqueue j = s) ∨
      (∀ j' ∈ s.service.queue, j'.domain ≠ j.domain) ∧
        s.enqueue j = { s with
          service := ⟨s.service.queue ++ [j], true⟩
          workers := if s.service.workerBusy then s.workers else s.workers ++ [.looking]
          accepted := s.accepted ++ [j] } := by
  rw [enqueue]
  split
  · rename_i h
    refine .inl ⟨?_, rfl⟩
    simpa using h
  · rename_i h
    refine .inr ⟨?_, rfl⟩
    simpa using h

/-- There is at most one worker, at the head of its loop or at a job. -/
theorem Valid.workers_cases (h : s.Valid) :
    (s.workers = [] ∧ s.service = ⟨[], false⟩) ∨
      ∃ w, s.workers = [w] ∧ s.service.workerBusy = true := by
  have hbusy := h.busy
  cases hflag : s.service.workerBusy with
  | false =>
    rw [hflag] at hbusy
    refine .inl ⟨List.length_eq_zero_iff.mp hbusy, ?_⟩
    have hqueue : s.service.queue = [] := by
      by_contra hne
      rw [h.active hne] at hflag
      cases hflag
    generalize s.service = service at hqueue hflag ⊢
    cases service
    dsimp only at hqueue hflag
    rw [hqueue, hflag]
  | true =>
    rw [hflag] at hbusy
    obtain ⟨w, hw⟩ := List.length_eq_one_iff.mp hbusy
    exact .inr ⟨w, hw, rfl⟩

/-- An accepted job goes to the end of the queue. -/
theorem Valid.work_enqueue (h : s.Valid) {j : Job κ}
    (hfree : ∀ j' ∈ s.service.queue, j'.domain ≠ j.domain) :
    (s.enqueue j).work = s.work.submit j := by
  obtain ⟨⟨j', hj', heq⟩, -⟩ | ⟨-, henqueue⟩ := s.enqueue_cases j
  · exact absurd heq (hfree j' hj')
  · rw [henqueue]
    obtain ⟨hworkers, hservice⟩ | ⟨w, hworkers, hbusy⟩ := h.workers_cases
    · simp [work, WorkQueue.submit, hworkers, hservice, AcmeWorker.job]
    · simp [work, WorkQueue.submit, hworkers, hbusy]

/-- A step of the worker is one of the queue, but that looking for a job in vain ends it. -/
theorem Valid.work_worker (h : s.Valid) (i : ℕ) :
    (s.worker i).work = if i = 0 then s.work.turn else s.work := by
  obtain ⟨hworkers, hservice⟩ | ⟨w, hworkers, -⟩ := h.workers_cases
  · simp [worker, work, WorkQueue.turn, hworkers, hservice]
  · by_cases hi : i = 0
    · subst hi
      cases w with
      | looking =>
        cases hqueue : s.service.queue <;>
          simp [worker, work, WorkQueue.turn, hworkers, hqueue, AcmeWorker.job]
      | executing j => simp [worker, work, WorkQueue.turn, hworkers, AcmeWorker.job]
    · have hnone : s.workers[i]? = none := by
        rw [hworkers]
        exact List.getElem?_eq_none (Nat.one_le_iff_ne_zero.mpr hi)
      rw [worker, hnone, if_neg hi]

private theorem Valid.enqueue (h : s.Valid) (j : Job κ) : (s.enqueue j).Valid := by
  obtain ⟨-, henqueue⟩ | ⟨hfree, henqueue⟩ := s.enqueue_cases j
  · rwa [henqueue]
  · have hwork := h.work_enqueue hfree
    rw [henqueue] at hwork ⊢
    refine ⟨?_, fun _ => rfl, ?_, ?_⟩
    · obtain ⟨hworkers, hservice⟩ | ⟨w, hworkers, hbusy⟩ := h.workers_cases
      · simp [hworkers, hservice]
      · simp [hworkers, hbusy]
    · rw [hwork, WorkQueue.accepted_submit, h.accepted]
    · rw [List.map_append, List.map_singleton]
      refine List.nodup_append.mpr ⟨h.distinct, List.nodup_singleton _, ?_⟩
      rintro d hd d' hd' rfl
      obtain ⟨j', hj', hdomain⟩ := List.mem_map.mp hd
      exact hfree j' hj' (hdomain.trans (List.mem_singleton.mp hd'))

private theorem Valid.worker (h : s.Valid) (i : ℕ) : (s.worker i).Valid := by
  have hwork : (s.worker i).work.accepted = s.work.accepted := by
    rw [h.work_worker]
    split
    · exact WorkQueue.accepted_turn s.work
    · rfl
  have haccepted : s.accepted = (s.worker i).work.accepted := h.accepted.trans hwork.symm
  revert haccepted
  rw [AcmeSystem.worker]
  split
  · exact fun _ => h
  · rename_i hi
    obtain ⟨hworkers, -⟩ | ⟨w, hworkers, hbusy⟩ := h.workers_cases
    · rw [hworkers] at hi
      cases hi
    obtain ⟨rfl, rfl⟩ : i = 0 ∧ w = .looking := by
      rw [hworkers] at hi
      simpa [List.getElem?_eq_some_iff] using hi
    split
    · intro haccepted
      exact ⟨by simp [hworkers], fun hne => absurd rfl hne, haccepted, List.nodup_nil⟩
    · rename_i j queue hqueue
      intro haccepted
      refine ⟨?_, fun _ => hbusy, haccepted, ?_⟩
      · rw [List.length_set]
        exact h.busy
      · have hdistinct := h.distinct
        rw [hqueue, List.map_cons, List.nodup_cons] at hdistinct
        exact hdistinct.2
  · intro haccepted
    refine ⟨?_, h.active, haccepted, h.distinct⟩
    rw [List.length_set]
    exact h.busy

/-- **Every step keeps the system valid.** -/
theorem Valid.step (h : s.Valid) (t : AcmeStep κ) : (s.step t).Valid := by
  cases t with
  | enqueue j => exact h.enqueue j
  | worker i => exact h.worker i

/-- Every reachable system is valid. -/
theorem Valid.run (h : s.Valid) (steps : List (AcmeStep κ)) : (s.run steps).Valid := by
  induction steps generalizing s with
  | nil => exact h
  | cons t steps ih => exact ih (h.step t)

/-! ### Progress -/

/-- Nothing waits and nothing is executed. -/
def Quiet (s : AcmeSystem κ) : Prop :=
  s.service.queue = [] ∧ ∀ w ∈ s.workers, w.job = none

@[simp] theorem accepted_worker (s : AcmeSystem κ) (i : ℕ) :
    (s.worker i).accepted = s.accepted := by
  rw [AcmeSystem.worker]
  split
  · rfl
  · split <;> rfl
  · rfl

/-- What was accepted stays, and a step of the worker brings its end nearer. -/
private theorem Valid.behind_step (h : s.Valid) (t : AcmeStep κ) {count : ℕ}
    (hcount : count ≤ s.accepted.length) :
    s.accepted <+: (s.step t).accepted ∧
      (s.step t).work.behind count ≤ s.work.behind count - t.isTurn.toNat := by
  cases t with
  | enqueue j =>
    have hturn : (AcmeStep.enqueue j).isTurn.toNat = 0 := rfl
    rw [AcmeSystem.step, hturn]
    obtain ⟨-, henqueue⟩ | ⟨hfree, henqueue⟩ := s.enqueue_cases j
    · rw [henqueue]
      exact ⟨List.prefix_refl _, le_rfl⟩
    · rw [h.work_enqueue hfree, WorkQueue.behind_submit, henqueue]
      exact ⟨List.prefix_append _ _, le_rfl⟩
  | worker i =>
    rw [AcmeSystem.step, accepted_worker, h.work_worker]
    refine ⟨List.prefix_refl _, ?_⟩
    cases i with
    | zero =>
      rw [if_pos rfl, WorkQueue.behind_turn _ (h.accepted ▸ hcount)]
      exact le_rfl
    | succ i =>
      rw [if_neg (Nat.succ_ne_zero i)]
      exact le_rfl

/-- **Whatever is accepted is executed**, after enough steps of the worker, whatever is enqueued
meanwhile. -/
private theorem Valid.behind_run (h : s.Valid) (steps : List (AcmeStep κ)) {count : ℕ}
    (hcount : count ≤ s.accepted.length) :
    s.accepted <+: (s.run steps).accepted ∧
      (s.run steps).work.behind count ≤ s.work.behind count - steps.countP AcmeStep.isTurn := by
  induction steps generalizing s with
  | nil => exact ⟨List.prefix_refl _, le_rfl⟩
  | cons t steps ih =>
    obtain ⟨hpre, hle⟩ := h.behind_step t hcount
    obtain ⟨hpre', hle'⟩ := ih (h.step t) (le_trans hcount hpre.length_le)
    refine ⟨hpre.trans hpre', le_trans hle' ?_⟩
    rw [List.countP_cons]
    cases hturn : t.isTurn <;> rw [hturn] at hle <;> simp at hle ⊢ <;> omega

/-- The accepted jobs are the executed ones and those that are not finished. -/
theorem Valid.accepted_eq (h : s.Valid) : s.accepted = s.executed ++ s.unfinished := by
  rw [h.accepted, WorkQueue.accepted, unfinished]
  obtain ⟨hworkers, -⟩ | ⟨w, hworkers, -⟩ := h.workers_cases
  · simp [AcmeSystem.work, hworkers]
  · cases w <;> simp [AcmeSystem.work, hworkers, AcmeWorker.job]

/-- After two steps of the worker for each job that is not executed yet, all of them are. -/
theorem Valid.accepted_prefix_executed (h : s.Valid) {more : List (AcmeStep κ)}
    (hmore : 2 * (s.accepted.length - s.executed.length) ≤ more.countP AcmeStep.isTurn) :
    s.accepted <+: (s.run more).executed := by
  obtain ⟨hpre, hle⟩ := h.behind_run more le_rfl
  have hbehind : s.work.behind s.accepted.length ≤
      2 * (s.accepted.length - s.executed.length) := Nat.sub_le _ _
  have hzero : (s.run more).work.behind s.accepted.length = 0 := by omega
  have htake := WorkQueue.take_prefix_finished _ hzero
  rw [← (h.run more).accepted, (List.prefix_iff_eq_take.mp hpre).symm] at htake
  exact htake

/-- The system is quiet when everything is executed. -/
theorem Valid.quiet_iff (h : s.Valid) : s.Quiet ↔ s.executed = s.accepted := by
  rw [h.accepted_eq, List.self_eq_append_right, unfinished, List.append_eq_nil_iff,
    List.filterMap_eq_nil_iff]
  exact and_comm

/-- A job that is enqueued is not finished, unless it is dropped for another one. -/
theorem Valid.unfinished_enqueue (h : s.Valid) (j : Job κ) :
    ((∃ j' ∈ s.service.queue, j'.domain = j.domain) ∧
        (s.enqueue j).unfinished = s.unfinished) ∨
      (s.enqueue j).unfinished = s.unfinished ++ [j] := by
  obtain ⟨hdup, henqueue⟩ | ⟨-, henqueue⟩ := s.enqueue_cases j
  · exact .inl ⟨hdup, by rw [henqueue]⟩
  · refine .inr ?_
    suffices happend : s.executed ++ (s.enqueue j).unfinished =
        s.executed ++ (s.unfinished ++ [j]) from List.append_cancel_left happend
    have hvalid := (h.step (.enqueue j)).accepted_eq
    rw [AcmeSystem.step, henqueue] at hvalid
    rw [henqueue, ← List.append_assoc, ← h.accepted_eq]
    exact hvalid.symm

/-- A worker that is at a job finishes it. -/
theorem Valid.unfinished_finish (h : s.Valid) {j : Job κ}
    (hj : s.workers.head? = some (.executing j)) :
    s.unfinished = j :: (s.worker 0).unfinished := by
  have hexecuted : (s.worker 0).executed = s.executed ++ [j] := by
    rw [List.head?_eq_getElem?] at hj
    rw [AcmeSystem.worker, hj]
  have hvalid := (h.step (.worker 0)).accepted_eq
  rw [AcmeSystem.step, accepted_worker, h.accepted_eq, hexecuted, List.append_assoc] at hvalid
  exact List.append_cancel_left hvalid

/-- A worker that is at no job finishes none. -/
theorem Valid.unfinished_take (h : s.Valid)
    (hnone : ∀ j, s.workers.head? ≠ some (.executing j)) :
    (s.worker 0).unfinished = s.unfinished := by
  have hexecuted : (s.worker 0).executed = s.executed := by
    simp only [List.head?_eq_getElem?] at hnone
    rw [AcmeSystem.worker]
    split
    · rfl
    · split <;> rfl
    · rename_i j hj
      exact absurd hj (hnone j)
  have hvalid := (h.step (.worker 0)).accepted_eq
  rw [AcmeSystem.step, accepted_worker, h.accepted_eq, hexecuted] at hvalid
  exact (List.append_cancel_left hvalid).symm

/-- The workers accept nothing. -/
theorem accepted_turns (s : AcmeSystem κ) (turns : List ℕ) :
    (s.run (turns.map .worker)).accepted = s.accepted := by
  induction turns generalizing s with
  | nil => rfl
  | cons i turns ih => exact (ih (s.worker i)).trans (accepted_worker s i)

/-- The worker alone brings it about. -/
theorem Valid.exists_quiet (h : s.Valid) :
    ∃ turns : List ℕ, (s.run (turns.map .worker)).Quiet := by
  obtain ⟨n, hn⟩ : ∃ n, 2 * (s.accepted.length - s.executed.length) ≤ n := ⟨_, le_rfl⟩
  refine ⟨List.replicate n 0, ?_⟩
  have hrun := h.run ((List.replicate n 0).map .worker)
  have hturns : 2 * (s.accepted.length - s.executed.length) ≤
      ((List.replicate n 0).map (.worker : ℕ → AcmeStep κ)).countP AcmeStep.isTurn := by
    simpa [List.countP_replicate, AcmeStep.isTurn] using hn
  have hpre := h.accepted_prefix_executed hturns
  rw [← accepted_turns s (List.replicate n 0), hrun.accepted] at hpre
  rw [hrun.quiet_iff, hrun.accepted]
  exact (WorkQueue.finished_prefix _).eq_of_length_le hpre.length_le

end AcmeSystem

/-- **The discipline of the queue.** After every run of calls and steps of workers there is at most
one worker, and one if a job waits; the jobs that wait are for different domains, and one that is
enqueued finds its domain among them or is accepted; the accepted jobs are those that have been
executed, the one that is being executed, and those that wait, in this order; and from here on, as
soon as the worker has made two steps for each job that is not executed yet, all of them are,
whatever else happens. -/
theorem queue_discipline (steps : List (AcmeStep κ)) :
    let s := newAcmeSystem.run steps
    s.workers.length ≤ 1 ∧
      (s.service.queue ≠ [] → s.workers ≠ []) ∧
      (s.service.queue.map Job.domain).Nodup ∧
      (∀ j, (∃ j' ∈ s.service.queue, j'.domain = j.domain) ∨
        (s.enqueue j).service.queue = s.service.queue ++ [j] ∧
          (s.enqueue j).accepted = s.accepted ++ [j]) ∧
      s.accepted = s.executed ++ (s.workers.filterMap AcmeWorker.job ++ s.service.queue) ∧
      ∀ more, 2 * (s.accepted.length - s.executed.length) ≤ more.countP AcmeStep.isTurn →
        s.accepted <+: (s.run more).executed := by
  intro s
  have h : s.Valid := AcmeSystem.valid_new.run steps
  refine ⟨?_, fun hne => ?_, h.distinct, fun j => ?_, h.accepted_eq,
    fun more => h.accepted_prefix_executed⟩
  · rw [h.busy]
    exact Bool.toNat_le _
  · refine List.ne_nil_of_length_pos ?_
    rw [h.busy, h.active hne]
    exact Nat.one_pos
  · obtain ⟨hqueued, -⟩ | ⟨-, henqueue⟩ := s.enqueue_cases j
    · exact .inl hqueued
    · right
      rw [henqueue]
      exact ⟨rfl, rfl⟩

end VibesWaf

import VibesWaf.Acme.Queue

/-!
# Certificate requests

A request for a certificate is one of four calls: `IssueAsync`, `RenewAsync`, and the two for
wildcards. Each says which job it asks for, with a callback that is to be called when the job is
done, and returns no error. `IssueAsync` returns at once if there is a certificate already, and
`enqueue` drops a job if one for its domain is queued, whatever the queued one's method, force and
callback are.

A request should be answered by a job as strong as the one it asks for. `requests_answered_iff` says
in which runs all are: exactly when each call finds its job accepted, or a job that answers it
unfinished.
-/

namespace VibesWaf

variable {κ : Type*}

/-- The asynchronous calls of `acme.Service`. The first one looks for a certificate before it
enqueues: what it finds is given with it. -/
inductive AcmeCall (κ : Type*)
  | issueAsync (domain : GoString) (onComplete : Option κ) (found : Bool)
  | renewAsync (domain : GoString) (onComplete : Option κ)
  | issueWildcardAsync (baseDomain method : GoString) (onComplete : Option κ)
  | renewWildcardAsync (baseDomain method : GoString) (onComplete : Option κ)

/-- The job that a call asks for. -/
def AcmeCall.job : AcmeCall κ → Job κ
  | issueAsync domain onComplete _ => ⟨domain, [], false, onComplete⟩
  | renewAsync domain onComplete => ⟨domain, [], true, onComplete⟩
  | issueWildcardAsync baseDomain method onComplete =>
    ⟨str "*." ++ baseDomain, method, false, onComplete⟩
  | renewWildcardAsync baseDomain method onComplete =>
    ⟨str "*." ++ baseDomain, method, true, onComplete⟩

/-- The call returns because a certificate exists. -/
def AcmeCall.skips : AcmeCall κ → Bool
  | issueAsync _ _ found => found
  | _ => false

/-- A call, which returns `nil`. -/
def AcmeSystem.call (s : AcmeSystem κ) (c : AcmeCall κ) : AcmeSystem κ :=
  if c.skips then s else s.enqueue c.job

/-- A call, or a step of a worker. -/
inductive RequestStep (κ : Type*)
  | call (c : AcmeCall κ)
  | worker (i : ℕ)

/-- The system with the requests so far, each with the number of jobs executed before it. -/
structure RequestLog (κ : Type*) where
  acme : AcmeSystem κ
  requests : List (Job κ × ℕ)

/-- A step. -/
def RequestLog.step (s : RequestLog κ) : RequestStep κ → RequestLog κ
  | .call c => ⟨s.acme.call c, s.requests ++ [(c.job, s.acme.executed.length)]⟩
  | .worker i => { s with acme := s.acme.worker i }

/-- A run from a new service. -/
def runRequests (steps : List (RequestStep κ)) : RequestLog κ :=
  steps.foldl RequestLog.step ⟨newAcmeSystem, []⟩

/-- The job is as strong as the requested one: the same domain and method, forced if that is, and
with its callback. -/
structure Job.Answers (j r : Job κ) : Prop where
  domain : j.domain = r.domain
  method : j.method = r.method
  force : r.force = true → j.force = true
  onComplete : ∀ k, r.onComplete = some k → j.onComplete = some k

/-- The requests so far are answered: since each of them a job that answers it has been executed. -/
def RequestLog.Answered (s : RequestLog κ) : Prop :=
  ∀ r ∈ s.requests, ∃ j ∈ s.acme.executed.drop r.2, j.Answers r.1

/-- The requests so far are answered as soon as the workers have nothing to do. -/
def RequestLog.AnswersAll (s : RequestLog κ) : Prop :=
  ∀ turns : List ℕ,
    let t := (turns.map .worker).foldl RequestLog.step s
    t.acme.Quiet → t.Answered

/-- The call's job is accepted, or a job that answers it is not finished yet. -/
def AcmeSystem.Serves (s : AcmeSystem κ) (c : AcmeCall κ) : Prop :=
  (c.skips = false ∧ ∀ j ∈ s.service.queue, j.domain ≠ c.job.domain) ∨
    ∃ j ∈ s.unfinished, j.Answers c.job

/-! ### What keeps the requests answered -/

section Steps

variable {s : RequestLog κ}

/-- The requests so far have jobs that answer them among those accepted since. -/
structure RequestLog.Accepted (s : RequestLog κ) : Prop where
  valid : s.acme.Valid
  answered : ∀ r ∈ s.requests, ∃ j ∈ s.acme.accepted.drop r.2, j.Answers r.1

/-- What is accepted after it stays. -/
private theorem mem_drop_of_prefix {l l' : List (Job κ)} (h : l <+: l') {n : ℕ} {j : Job κ}
    (hj : j ∈ l.drop n) : j ∈ l'.drop n := by
  obtain ⟨rest, rfl⟩ := h
  rw [List.drop_append]
  exact List.mem_append_left _ hj

/-- The jobs that are not finished are those accepted behind the executed ones. -/
private theorem drop_accepted {a : AcmeSystem κ} (h : a.Valid) :
    a.accepted.drop a.executed.length = a.unfinished := by
  rw [h.accepted_eq, List.drop_left]

theorem foldl_worker (s : RequestLog κ) (turns : List ℕ) :
    (turns.map .worker).foldl RequestLog.step s =
      ⟨s.acme.run (turns.map .worker), s.requests⟩ := by
  induction turns generalizing s with
  | nil => rfl
  | cons i turns ih => exact ih (s.step (.worker i))

/-- When the workers have nothing to do, what was accepted is executed. -/
theorem RequestLog.Accepted.answersAll (h : s.Accepted) : s.AnswersAll := by
  intro turns t hquiet r hr
  have ht : t = ⟨s.acme.run (turns.map .worker), s.requests⟩ := foldl_worker s turns
  rw [ht] at hquiet hr ⊢
  rw [(h.valid.run _).quiet_iff, AcmeSystem.accepted_turns] at hquiet
  dsimp only at hquiet ⊢
  rw [hquiet]
  exact h.answered r hr

/-- What a call accepts. -/
private theorem accepted_call (a : AcmeSystem κ) (c : AcmeCall κ) :
    (c.skips = false ∧ (∀ j ∈ a.service.queue, j.domain ≠ c.job.domain) ∧
        (a.call c).accepted = a.accepted ++ [c.job]) ∨
      ¬ (c.skips = false ∧ ∀ j ∈ a.service.queue, j.domain ≠ c.job.domain) ∧ a.call c = a := by
  rw [AcmeSystem.call]
  cases hskips : c.skips with
  | true => exact .inr ⟨fun h => absurd h.1 (by simp), rfl⟩
  | false =>
    obtain ⟨⟨j, hj, hdomain⟩, henqueue⟩ | ⟨hfree, henqueue⟩ := a.enqueue_cases c.job
    · exact .inr ⟨fun h => h.2 j hj hdomain, henqueue⟩
    · refine .inl ⟨rfl, hfree, ?_⟩
      rw [if_neg (by simp), henqueue]

private theorem valid_call {a : AcmeSystem κ} (h : a.Valid) (c : AcmeCall κ) :
    (a.call c).Valid := by
  rw [AcmeSystem.call]
  split
  · exact h
  · exact h.step (.enqueue c.job)

/-- Every job answers its own request. -/
theorem Job.answers_self (j : Job κ) : j.Answers j :=
  ⟨rfl, rfl, id, fun _ => id⟩

/-- A call that is served leaves every request with a job that answers it. -/
theorem RequestLog.Accepted.call (h : s.Accepted) {c : AcmeCall κ} (hserves : s.acme.Serves c) :
    (s.step (.call c)).Accepted := by
  have hprefix : s.acme.accepted <+: (s.acme.call c).accepted := by
    obtain ⟨-, -, haccepted⟩ | ⟨-, hsame⟩ := accepted_call s.acme c
    · rw [haccepted]
      exact List.prefix_append _ _
    · rw [hsame]
  refine ⟨valid_call h.valid c, forall_mem_snoc (fun r hr => ?_) ?_⟩
  · obtain ⟨j, hj, hanswers⟩ := h.answered r hr
    exact ⟨j, mem_drop_of_prefix hprefix hj, hanswers⟩
  · rcases hserves with ⟨hskips, hfree⟩ | ⟨j, hj, hanswers⟩
    · obtain ⟨-, -, haccepted⟩ | ⟨hnot, -⟩ := accepted_call s.acme c
      · refine ⟨c.job, ?_, c.job.answers_self⟩
        have hle : s.acme.executed.length ≤ s.acme.accepted.length := by
          rw [h.valid.accepted_eq, List.length_append]
          exact Nat.le_add_right _ _
        change c.job ∈ (s.acme.call c).accepted.drop s.acme.executed.length
        rw [haccepted, List.drop_append_of_le_length hle]
        exact List.mem_append_right _ (List.mem_singleton_self _)
      · exact absurd ⟨hskips, hfree⟩ hnot
    · refine ⟨j, mem_drop_of_prefix hprefix ?_, hanswers⟩
      rw [drop_accepted h.valid]
      exact hj

/-- A call whose request is answered was served. -/
theorem RequestLog.Accepted.serves (h : s.Accepted) {c : AcmeCall κ}
    (hanswers : (s.step (.call c)).AnswersAll) : s.acme.Serves c := by
  obtain ⟨hskips, hfree, -⟩ | ⟨-, hsame⟩ := accepted_call s.acme c
  · exact .inl ⟨hskips, hfree⟩
  · -- nothing is accepted: what answers the request was there before
    have hstep : s.step (.call c) = ⟨s.acme, s.requests ++ [(c.job, s.acme.executed.length)]⟩ := by
      rw [RequestLog.step, hsame]
    obtain ⟨turns, hquiet⟩ := h.valid.exists_quiet
    have hall := hanswers turns
    rw [hstep, foldl_worker] at hall
    obtain ⟨j, hj, hanswer⟩ := hall hquiet _ (List.mem_append_right _ (List.mem_singleton_self _))
    rw [(h.valid.run _).quiet_iff, AcmeSystem.accepted_turns] at hquiet
    dsimp only at hj
    rw [hquiet, drop_accepted h.valid] at hj
    exact .inr ⟨j, hj, hanswer⟩

end Steps

/-- What a step has to meet: a call has to be served. -/
def RequestLog.Meets (s : RequestLog κ) : RequestStep κ → Prop
  | .call c => s.acme.Serves c
  | .worker _ => True

/-- A step that meets its condition keeps every request accepted. -/
theorem RequestLog.Accepted.step {s : RequestLog κ} (h : s.Accepted) (t : RequestStep κ)
    (hmeets : s.Meets t) : (s.step t).Accepted := by
  cases t with
  | call c => exact h.call hmeets
  | worker i =>
    refine ⟨h.valid.step (.worker i), fun r hr => ?_⟩
    change ∃ j ∈ (s.acme.worker i).accepted.drop r.2, j.Answers r.1
    rw [AcmeSystem.accepted_worker]
    exact h.answered r hr

/-- A step after which every request is answered meets its condition. -/
theorem RequestLog.Accepted.meets {s : RequestLog κ} (h : s.Accepted) (t : RequestStep κ)
    (hanswers : (s.step t).AnswersAll) : s.Meets t := by
  cases t with
  | call c => exact h.serves hanswers
  | worker i => trivial

/-- **Certificate requests.** Every request of a run is answered in all states in which the workers
have nothing to do, on the run or when they are left to finish, exactly when each call finds its
job accepted or a job that answers it unfinished. -/
theorem requests_answered_iff (steps : List (RequestStep κ)) :
    (∀ past, past <+: steps → (runRequests past).AnswersAll) ↔
      ∀ past c, past ++ [.call c] <+: steps → (runRequests past).acme.Serves c := by
  have hstart : RequestLog.Accepted (⟨newAcmeSystem, []⟩ : RequestLog κ) :=
    ⟨AcmeSystem.valid_new, fun r hr => absurd hr (List.not_mem_nil)⟩
  have hiff := forall_prefix_iff hstart (fun _ h => h.answersAll) (fun _ t h => h.step t)
    (fun _ t h => h.meets t) steps
  refine hiff.trans ⟨fun h past c hpast => h past (.call c) hpast, fun h past a hpast => ?_⟩
  cases a with
  | call c => exact h past c hpast
  | worker i => trivial

/-- A renewal while the first issue of the domain is queued: the worker does the issue and is done,
and nobody hears of the renewal. -/
theorem renewal_dropped :
    let steps : List (RequestStep ℕ) :=
      [.call (.issueAsync (str "shop.example") (some 1) false),
        .call (.renewAsync (str "shop.example") (some 2)), .worker 0, .worker 0, .worker 0]
    (runRequests steps).acme.Quiet ∧ ¬ (runRequests steps).Answered := by
  have hexecuted : ∀ steps : List (RequestStep ℕ), steps =
      [.call (.issueAsync (str "shop.example") (some 1) false),
        .call (.renewAsync (str "shop.example") (some 2)), .worker 0, .worker 0, .worker 0] →
      (runRequests steps).acme.executed = [⟨str "shop.example", [], false, some 1⟩] := by
    rintro steps rfl
    decide
  refine ⟨⟨by decide, by decide⟩, fun h => ?_⟩
  obtain ⟨j, hj, hanswers⟩ := h (⟨str "shop.example", [], true, some 2⟩, 0) (by decide)
  rw [hexecuted _ rfl] at hj
  rw [List.mem_singleton.mp (List.mem_of_mem_drop hj)] at hanswers
  exact absurd (hanswers.force rfl) (by simp)

end VibesWaf

import Mathlib.Data.List.Basic
import Mathlib.Data.List.Infix

/-!
# Queues with one worker

A `WorkQueue` is what a first-in-first-out queue with one worker is about: the jobs that are
finished, the one that is running, and those that wait, in the order in which they were accepted.
A step accepts a job at the end of those that wait, starts the first of them when nothing is
running, or finishes the one that is.

No step changes what was accepted before it, so that every job is finished once and in its turn; and
of the first jobs that were accepted, all are finished after as many steps of the worker as
`behind` counts, whatever is accepted meanwhile.
-/

namespace VibesWaf

variable {α : Type*}

/-- A queue and its worker. -/
structure WorkQueue (α : Type*) where
  finished : List α
  running : Option α
  waiting : List α

namespace WorkQueue

/-- All jobs so far, in the order in which they were accepted. -/
def accepted (q : WorkQueue α) : List α :=
  q.finished ++ (q.running.toList ++ q.waiting)

/-- A job is accepted. -/
def submit (q : WorkQueue α) (x : α) : WorkQueue α :=
  { q with waiting := q.waiting ++ [x] }

/-- A step of the worker: the running job is finished, or the first of those that wait started. -/
def turn (q : WorkQueue α) : WorkQueue α :=
  match q.running, q.waiting with
  | some x, _ => { q with finished := q.finished ++ [x], running := none }
  | none, x :: rest => { q with running := some x, waiting := rest }
  | none, [] => q

/-- The steps of the worker until so many jobs are finished. -/
def behind (count : ℕ) (q : WorkQueue α) : ℕ :=
  2 * (count - q.finished.length) - q.running.toList.length

variable (q : WorkQueue α)

@[simp] theorem accepted_submit (x : α) : (q.submit x).accepted = q.accepted ++ [x] := by
  simp [accepted, submit]

/-- The worker takes the jobs in order and loses none. -/
@[simp] theorem accepted_turn : q.turn.accepted = q.accepted := by
  obtain ⟨finished, _ | x, _ | ⟨y, rest⟩⟩ := q <;> simp [accepted, turn]

/-- What is finished is the beginning of what was accepted. -/
theorem finished_prefix : q.finished <+: q.accepted :=
  List.prefix_append _ _

@[simp] theorem behind_submit (count : ℕ) (x : α) : (q.submit x).behind count = q.behind count :=
  rfl

/-- **A step of the worker** brings the end of the accepted jobs nearer. -/
theorem behind_turn {count : ℕ} (hcount : count ≤ q.accepted.length) :
    q.turn.behind count = q.behind count - 1 := by
  obtain ⟨finished, _ | x, _ | ⟨y, rest⟩⟩ := q
  · have hle : count ≤ finished.length := by simpa [accepted] using hcount
    simp [behind, turn, Nat.sub_eq_zero_of_le hle]
  all_goals
    simp [behind, turn]
  all_goals omega

/-- When it is not behind, the first jobs that were accepted are finished. -/
theorem take_prefix_finished {count : ℕ} (h : q.behind count = 0) :
    q.accepted.take count <+: q.finished := by
  have hle : count ≤ q.finished.length := by
    have hrunning : q.running.toList.length ≤ 1 := by cases q.running <;> simp
    rw [behind] at h
    omega
  rw [accepted, List.take_append_of_le_length hle]
  exact List.take_prefix count q.finished

end WorkQueue

end VibesWaf

import Mathlib.Data.List.Induction
import VibesWaf.Lib.Run
import VibesWaf.Lib.SlidingWindow

/-!
# Limits in a sliding window

A limiter is asked whether something is allowed under a key. It refuses when the limit of allowed
questions is reached in the window that ends at the question: `Limited` says so of a list of
verdicts. That bounds what is allowed in every window, whatever the questions are
(`Limited.length_le`): the last question allowed in the window saw all the others.

A `WindowMachine` stores timestamps under its keys. When each of its steps is `Faithful`, that is,
when it judges by what is stored and stores what it allows, up to timestamps that have left the
window, then its verdicts are limited (`limited_verdicts`).
-/

namespace VibesWaf

open SlidingWindow

variable {κ : Type*} [DecidableEq κ]

/-- A question about a key at a time, and whether it was allowed. -/
structure Verdict (κ : Type*) where
  time : ℤ
  key : κ
  allowed : Bool

namespace Verdict

/-- The times at which questions about a key were allowed. -/
def allowedTimes (key : κ) (verdicts : List (Verdict κ)) : List ℤ :=
  (verdicts.filter fun v => v.key = key ∧ v.allowed = true).map (·.time)

/-- **The rule of the limiter**: a question is refused exactly when the limit is reached by the
allowed questions about its key in the window that ends at it. -/
def Limited (limit window : ℤ) (verdicts : List (Verdict κ)) : Prop :=
  ∀ past v, past ++ [v] <+: verdicts →
    (v.allowed = false ↔ limit ≤ (recent window v.time (allowedTimes v.key past)).length)

variable {limit window : ℤ} {verdicts past : List (Verdict κ)} {v : Verdict κ} {key : κ}

theorem allowedTimes_append (key : κ) (past : List (Verdict κ)) (v : Verdict κ) :
    allowedTimes key (past ++ [v]) =
      allowedTimes key past ++ if v.key = key ∧ v.allowed = true then [v.time] else [] := by
  rw [allowedTimes, List.filter_append, List.map_append]
  congr 1
  by_cases h : v.key = key ∧ v.allowed = true <;> simp [h]

/-- In a window, whatever its position, at most as much is allowed as the limit says. -/
theorem Limited.length_le (h : Limited limit window verdicts) (key : κ) (start : ℤ) :
    (((allowedTimes key verdicts).filter fun t => start ≤ t ∧ t < start + window).length : ℤ) ≤
      max limit 0 := by
  refine run_induction (P := fun past =>
    (((allowedTimes key past).filter fun t => start ≤ t ∧ t < start + window).length : ℤ) ≤
      max limit 0) (le_max_right _ _) fun past v hpast ih => ?_
  rw [allowedTimes_append, List.filter_append, List.length_append, Int.natCast_add]
  by_cases hlast : (v.key = key ∧ v.allowed = true) ∧ start ≤ v.time ∧ v.time < start + window
  · obtain ⟨⟨rfl, hallowed⟩, hstart, hend⟩ := hlast
    -- what is allowed in the window so far lies in the one that ends at the last question
    have hsub : ((allowedTimes v.key past).filter fun t => start ≤ t ∧ t < start + window).length ≤
        (recent window v.time (allowedTimes v.key past)).length := by
      refine (List.monotone_filter_right _ fun t ht => ?_).length_le
      simp only [decide_eq_true_eq] at ht ⊢
      omega
    have hroom : ((recent window v.time (allowedTimes v.key past)).length : ℤ) < limit :=
      not_le.mp fun hreached => absurd ((h past v hpast).mpr hreached) (by simp [hallowed])
    have hone : ((if v.key = v.key ∧ v.allowed = true then [v.time] else []).filter
        fun t => start ≤ t ∧ t < start + window).length ≤ 1 := by
      refine (List.length_filter_le _ _).trans ?_
      split <;> simp
    have hbound := le_max_left limit 0
    omega
  · have hnone : ((if v.key = key ∧ v.allowed = true then [v.time] else []).filter
        fun t => start ≤ t ∧ t < start + window) = [] := by
      split
      · rename_i hnew
        simpa using fun hstart hend => hlast ⟨hnew, hstart, hend⟩
      · rfl
    rw [hnone, List.length_nil, Int.natCast_zero, add_zero]
    exact ih

theorem limited_nil (limit window : ℤ) : Limited limit window ([] : List (Verdict κ)) :=
  fun past v hpast => absurd (List.prefix_nil.mp hpast) (by simp)

/-- One more verdict. -/
theorem Limited.snoc (h : Limited limit window verdicts)
    (hlast : v.allowed = false ↔
      limit ≤ (recent window v.time (allowedTimes v.key verdicts)).length) :
    Limited limit window (verdicts ++ [v]) := by
  intro past w hpast
  rcases List.prefix_concat_iff.mp hpast with heq | hbefore
  · obtain ⟨rfl, hlist⟩ := List.append_inj' heq rfl
    obtain rfl : w = v := List.head_eq_of_cons_eq hlist
    exact hlast
  · exact h past w hbefore

end Verdict

/-! ### Machines -/

/-- What is asked of a limiter, how it answers, and the timestamps it stores. -/
structure WindowMachine (σ ε κ : Type*) where
  step : σ → ε → σ
  now : ε → ℤ
  verdict : σ → ε → Option (κ × Bool)
  stored : σ → κ → List ℤ

namespace WindowMachine

open Verdict

variable {σ ε : Type*} {m : WindowMachine σ ε κ} {s : σ} {e : ε} {events : List ε}
  {limit window now : ℤ}

/-- The state after some events. -/
def run (m : WindowMachine σ ε κ) (s : σ) (events : List ε) : σ :=
  events.foldl m.step s

/-- The verdicts on some events. -/
def verdicts (m : WindowMachine σ ε κ) : σ → List ε → List (Verdict κ)
  | _, [] => []
  | s, e :: events =>
    ((m.verdict s e).map fun v => ⟨m.now e, v.1, v.2⟩).toList ++ m.verdicts (m.step s e) events

/-- The time of an event that is allowed under a key. -/
def allows (m : WindowMachine σ ε κ) (s : σ) (e : ε) (key : κ) : List ℤ :=
  if m.verdict s e = some (key, true) then [m.now e] else []

theorem allows_of_verdict {key : κ} {allowed : Bool} (h : m.verdict s e = some (key, allowed))
    (k : κ) : m.allows s e k = if allowed = true ∧ key = k then [m.now e] else [] := by
  refine if_congr ?_ rfl rfl
  rw [h, Option.some_inj, Prod.mk.injEq, and_comm]

/-- An event is judged by what is stored, and stored when it is allowed. -/
structure Faithful (m : WindowMachine σ ε κ) (limit window : ℤ) (s : σ) (e : ε) : Prop where
  judges : ∀ key allowed, m.verdict s e = some (key, allowed) →
    (allowed = false ↔ limit ≤ (recent window (m.now e) (m.stored s key)).length)
  stores : ∀ key, SameRecent window (m.now e) (m.stored (m.step s e) key)
    (m.stored s key ++ m.allows s e key)

omit [DecidableEq κ] in
theorem run_append (m : WindowMachine σ ε κ) (s : σ) (past : List ε) (e : ε) :
    m.run s (past ++ [e]) = m.step (m.run s past) e := by
  rw [run, List.foldl_append]
  rfl

omit [DecidableEq κ] in
theorem verdicts_append (m : WindowMachine σ ε κ) (s : σ) (past : List ε) (e : ε) :
    m.verdicts s (past ++ [e]) = m.verdicts s past ++
      ((m.verdict (m.run s past) e).map fun v => ⟨m.now e, v.1, v.2⟩).toList := by
  induction past generalizing s with
  | nil => exact List.append_nil _
  | cons first past ih =>
    rw [List.cons_append, verdicts, ih, verdicts, List.append_assoc]
    rfl

/-- **One faithful event** keeps the verdicts limited, and what is stored like what is allowed. -/
private theorem limited_step {tr : List (Verdict κ)} (hfaithful : m.Faithful limit window s e)
    (hlimited : Limited limit window tr)
    (hstored : ∀ key, SameRecent window (m.now e) (m.stored s key) (allowedTimes key tr)) :
    Limited limit window
        (tr ++ ((m.verdict s e).map fun v => ⟨m.now e, v.1, v.2⟩).toList) ∧
      ∀ key, SameRecent window (m.now e) (m.stored (m.step s e) key)
        (allowedTimes key (tr ++ ((m.verdict s e).map fun v => ⟨m.now e, v.1, v.2⟩).toList)) := by
  have hstores : ∀ key, SameRecent window (m.now e) (m.stored (m.step s e) key)
      (allowedTimes key tr ++ m.allows s e key) := fun key =>
    (hfaithful.stores key).trans ((hstored key).append _)
  cases hverdict : m.verdict s e with
  | none =>
    rw [Option.map_none, Option.toList_none, List.append_nil]
    refine ⟨hlimited, fun key => ?_⟩
    have hkey := hstores key
    rwa [allows, hverdict, if_neg (by simp), List.append_nil] at hkey
  | some v =>
    obtain ⟨key', allowed⟩ := v
    rw [Option.map_some, Option.toList_some]
    constructor
    · refine hlimited.snoc ((hfaithful.judges key' allowed hverdict).trans ?_)
      rw [(hstored key').eq]
    · intro key
      have hkey := hstores key
      rw [allows, hverdict] at hkey
      rw [allowedTimes_append]
      simpa using hkey

/-- **A faithful machine** limits what it allows. -/
theorem limited_verdicts (hordered : events.Pairwise fun e later => m.now e ≤ m.now later)
    (hempty : ∀ key, m.stored s key = [])
    (hfaithful : ∀ past e, past ++ [e] <+: events → m.Faithful limit window (m.run s past) e) :
    Limited limit window (m.verdicts s events) := by
  refine (run_induction (P := fun past => Limited limit window (m.verdicts s past) ∧
    ∀ now, (∀ e ∈ past, m.now e ≤ now) → ∀ key,
      SameRecent window now (m.stored (m.run s past) key) (allowedTimes key (m.verdicts s past)))
    ?_ ?_).1
  · refine ⟨limited_nil limit window, fun now _ key => ?_⟩
    have hnone : m.stored (m.run s []) key = [] := hempty key
    rw [hnone]
    exact SameRecent.refl _ _ _
  · rintro past e hpast ⟨hlimited, hstored⟩
    have hstep := limited_step (hfaithful past e hpast) hlimited
      (hstored (m.now e) (pairwise_snoc hordered hpast))
    rw [verdicts_append, run_append]
    refine ⟨hstep.1, fun now hnow key => (hstep.2 key).mono ?_⟩
    exact hnow e (List.mem_append_right _ List.mem_cons_self)

end WindowMachine

end VibesWaf

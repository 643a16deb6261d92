import Mathlib.Data.List.Basic

/-!
# Runs of handlers, with and without an early exit

A list of handlers can be run in two ways: all of them, in the hope that those after a stop do
nothing, or only up to the first whose state stops. `runAll` and `runUntil` are the two, over any
state with a flag, and `StopsAt` says which handler raised the flag. When no handler takes the flag
back, the second run ends where the flag was raised (`runUntil_of_stopsAt`); so the two runs agree
on what the later handlers leave alone (`runs_agree`).
-/

namespace VibesWaf.EarlyExit

variable {σ : Type*}

/-- All handlers, one after the other. -/
def runAll (hs : List (σ → σ)) (s : σ) : σ :=
  hs.foldl (fun s h => h s) s

/-- The handlers up to the first whose state stops. -/
def runUntil (stop : σ → Bool) : List (σ → σ) → σ → σ
  | [], s => s
  | h :: hs, s => if stop (h s) then h s else runUntil stop hs (h s)

/-- Handler `n` raises the flag. -/
def StopsAt (stop : σ → Bool) (hs : List (σ → σ)) (s : σ) (n : ℕ) : Prop :=
  stop (runAll (hs.take n) s) = false ∧ stop (runAll (hs.take (n + 1)) s) = true

/-- What every handler preserves holds at the end. -/
theorem runAll_preserves {P : σ → Prop} {hs : List (σ → σ)} (hstep : ∀ h ∈ hs, ∀ s, P s → P (h s))
    {s : σ} (hs0 : P s) : P (runAll hs s) := by
  induction hs generalizing s with
  | nil => exact hs0
  | cons h hs ih =>
    exact ih (fun h' hmem => hstep h' (List.mem_cons_of_mem _ hmem))
      (hstep h List.mem_cons_self s hs0)

theorem runAll_append (hs hs' : List (σ → σ)) (s : σ) :
    runAll (hs ++ hs') s = runAll hs' (runAll hs s) :=
  List.foldl_append

variable {stop : σ → Bool} {hs : List (σ → σ)} {s : σ} {n m : ℕ}

/-- A flag that no handler takes back stays raised. -/
theorem stop_mono (hmono : ∀ h ∈ hs, ∀ s, stop s = true → stop (h s) = true) (hle : n ≤ m)
    (h : stop (runAll (hs.take n) s) = true) : stop (runAll (hs.take m) s) = true := by
  obtain ⟨k, rfl⟩ := Nat.exists_eq_add_of_le hle
  rw [List.take_add, runAll_append]
  refine runAll_preserves (fun h' hmem => hmono h' ?_) h
  exact List.mem_of_mem_drop (List.mem_of_mem_take hmem)

/-- **The early exit** ends where the flag was raised. -/
theorem runUntil_of_stopsAt (hmono : ∀ h ∈ hs, ∀ s, stop s = true → stop (h s) = true)
    (hstop : StopsAt stop hs s n) : runUntil stop hs s = runAll (hs.take (n + 1)) s := by
  induction hs generalizing s n with
  | nil =>
    obtain ⟨hbefore, hafter⟩ := hstop
    rw [List.take_nil] at hbefore hafter
    rw [hbefore] at hafter
    exact absurd hafter Bool.false_ne_true
  | cons h hs ih =>
    obtain ⟨hbefore, hafter⟩ := hstop
    have hmono' : ∀ h' ∈ hs, ∀ s, stop s = true → stop (h' s) = true :=
      fun h' hmem => hmono h' (List.mem_cons_of_mem _ hmem)
    rw [runUntil]
    cases n with
    | zero => exact if_pos hafter
    | succ n =>
      -- a flag raised by the first handler would still be up at `n + 1`
      have hfirst : stop (h s) ≠ true := by
        intro hup
        have hlater : stop (runAll (hs.take n) (h s)) = true :=
          stop_mono hmono' n.zero_le hup
        have hdown : stop (runAll (hs.take n) (h s)) = false := hbefore
        rw [hlater] at hdown
        exact Bool.false_ne_true hdown.symm
      rw [if_neg hfirst]
      exact ih hmono' ⟨hbefore, hafter⟩

/-- The two runs agree on whatever the handlers after the exit leave alone. -/
theorem runs_agree {α : Type*} (view : σ → α)
    (hmono : ∀ h ∈ hs, ∀ s, stop s = true → stop (h s) = true) (hstop : StopsAt stop hs s n)
    (hlater : ∀ m, n + 1 ≤ m →
      view (runAll (hs.take m) s) = view (runAll (hs.take (n + 1)) s)) :
    view (runAll hs s) = view (runUntil stop hs s) := by
  have hend := hlater (max (n + 1) hs.length) (Nat.le_max_left _ _)
  rw [List.take_of_length_le (Nat.le_max_right _ _)] at hend
  rw [runUntil_of_stopsAt hmono hstop, hend]

end VibesWaf.EarlyExit

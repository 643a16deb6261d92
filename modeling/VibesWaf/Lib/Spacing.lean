import Mathlib.Algebra.Order.Group.Unbundled.Int
import Mathlib.Data.List.Induction

/-!
# Events that keep their distance

In a log of events, oldest first, the events of one kind are `Spaced` when any two of them are at
least some time apart, unless an event of another kind, a reset, lies between them. Whether one more
event keeps the distance depends on the events since the last reset alone: `spaced_snoc_iff` and
`since_snoc_iff` follow a log event by event.
-/

namespace VibesWaf.Spacing

variable {α : Type*} (counts resets : α → Prop)

/-- A counted event since the last reset of the log. -/
def Since (log : List α) (a : α) : Prop :=
  counts a ∧ ∃ past between, log = past ++ a :: between ∧ ∀ e ∈ between, ¬ resets e

/-- Two counted events without a reset between them are at least `distance` apart. -/
def Spaced (time : α → ℤ) (distance : ℤ) (log : List α) : Prop :=
  ∀ past a between b later, log = past ++ a :: (between ++ b :: later) → counts a → counts b →
    (∀ e ∈ between, ¬ resets e) → time a + distance ≤ time b

variable {counts resets} {time : α → ℤ} {distance : ℤ} {log : List α} {a e : α}

theorem not_since_nil : ¬ Since counts resets [] a := by
  rintro ⟨-, past, between, h, -⟩
  simp at h

theorem spaced_nil : Spaced counts resets time distance [] := by
  intro past a between b later h
  simp at h

/-- After one more event: the counted ones before it, unless it resets, and the event itself. -/
theorem since_snoc_iff :
    Since counts resets (log ++ [e]) a ↔
      (a = e ∧ counts e) ∨ (¬ resets e ∧ Since counts resets log a) := by
  constructor
  · rintro ⟨ha, past, between, hlog, hfree⟩
    rcases List.eq_nil_or_concat between with rfl | ⟨init, last, rfl⟩
    · obtain ⟨-, rfl⟩ : log = past ∧ e = a := by simpa using hlog
      exact .inl ⟨rfl, ha⟩
    · have hassoc : past ++ a :: (init ++ [last]) = (past ++ a :: init) ++ [last] := by simp
      rw [List.concat_eq_append, hassoc] at hlog
      obtain ⟨rfl, hlast⟩ := List.append_inj' hlog rfl
      obtain rfl : e = last := by simpa using hlast
      refine .inr ⟨hfree e (by simp), ha, past, init, rfl, fun x hx => hfree x (by simp [hx])⟩
  · rintro (⟨rfl, ha⟩ | ⟨he, ha, past, between, rfl, hfree⟩)
    · exact ⟨ha, log, [], rfl, by simp⟩
    · refine ⟨ha, past, between ++ [e], by simp, fun x hx => ?_⟩
      rcases List.mem_append.mp hx with hx | hx
      · exact hfree x hx
      · rwa [List.mem_singleton.mp hx]

/-- **One more event** keeps the distance exactly when, if it counts, it comes late enough after
each counted event since the last reset. -/
theorem spaced_snoc_iff :
    Spaced counts resets time distance (log ++ [e]) ↔
      Spaced counts resets time distance log ∧
        (counts e → ∀ a, Since counts resets log a → time a + distance ≤ time e) := by
  constructor
  · intro h
    refine ⟨fun past a between b later hlog => ?_, fun he a ⟨ha, past, between, hlog, hfree⟩ => ?_⟩
    · exact h past a between b (later ++ [e]) (by simp [hlog])
    · exact h past a between e [] (by simp [hlog]) ha he hfree
  · rintro ⟨hlog, hlast⟩ past a between b later heq ha hb hfree
    rcases List.eq_nil_or_concat later with rfl | ⟨init, last, rfl⟩
    · have hassoc : past ++ a :: (between ++ [b]) = (past ++ a :: between) ++ [b] := by simp
      rw [hassoc] at heq
      obtain ⟨rfl, hsame⟩ := List.append_inj' heq rfl
      obtain rfl : e = b := by simpa using hsame
      exact hlast hb a ⟨ha, past, between, rfl, hfree⟩
    · have hassoc : past ++ a :: (between ++ b :: (init ++ [last])) =
          (past ++ a :: (between ++ b :: init)) ++ [last] := by simp
      rw [List.concat_eq_append, hassoc] at heq
      obtain ⟨rfl, -⟩ := List.append_inj' heq rfl
      exact hlog past a between b init rfl ha hb hfree

end VibesWaf.Spacing

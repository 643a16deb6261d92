import Mathlib.Data.List.Induction

/-!
# Induction along a run

A run is a list of steps, and what holds of it holds of each of its beginnings. `run_induction`
goes from the empty run to the whole one, step by step, and knows at each step that it is one of
the steps of the run.
-/

namespace VibesWaf

variable {α : Type*}

/-- **Induction along a run**: what holds before the first step, and after each step of the run if
it holds before it, holds of the run. -/
theorem run_induction {P : List α → Prop} {steps : List α} (nil : P [])
    (snoc : ∀ past step, past ++ [step] <+: steps → P past → P (past ++ [step])) : P steps := by
  suffices hinit : ∀ past, past <+: steps → P past from hinit steps (List.prefix_refl _)
  intro past
  induction past using List.reverseRecOn with
  | nil => exact fun _ => nil
  | append_singleton past step ih =>
    exact fun hpast => snoc past step hpast (ih ((List.prefix_append _ _).trans hpast))

/-- The step of a beginning is a step of the run. -/
theorem mem_of_snoc {past steps : List α} {step : α} (h : past ++ [step] <+: steps) :
    step ∈ steps :=
  h.subset (List.mem_append_right _ List.mem_cons_self)

/-- In an ordered run every step comes after those before it. -/
theorem pairwise_snoc {r : α → α → Prop} {past steps : List α} {step : α}
    (hordered : steps.Pairwise r) (h : past ++ [step] <+: steps) : ∀ before ∈ past, r before step :=
  fun before hbefore =>
    (List.pairwise_append.mp (hordered.sublist h.sublist)).2.2 before hbefore step
      List.mem_cons_self

/-- What holds at every position of a run holds of each of its steps. -/
theorem forall_snoc {C : List α → α → Prop} {steps : List α}
    (h : ∀ i (hi : i < steps.length), C (steps.take i) steps[i]) :
    ∀ past step, past ++ [step] <+: steps → C past step := by
  rintro past step ⟨rest, rfl⟩
  simpa using h past.length (by simp)

/-- What holds of the entries of a list holds of them after one of them is replaced. -/
theorem forall_mem_set {P : α → Prop} {l : List α} (h : ∀ x ∈ l, P x) (i : ℕ) {y : α} (hy : P y) :
    ∀ x ∈ l.set i y, P x := by
  intro x hx
  rcases List.mem_or_eq_of_mem_set hx with hx | rfl
  · exact h x hx
  · exact hy

/-- What holds of the entries of a list and of another holds after that one is appended. -/
theorem forall_mem_snoc {P : α → Prop} {l : List α} (h : ∀ x ∈ l, P x) {y : α} (hy : P y) :
    ∀ x ∈ l ++ [y], P x := by
  intro x hx
  rcases List.mem_append.mp hx with hx | hx
  · exact h x hx
  · rw [List.mem_singleton.mp hx]
    exact hy

/-- An ordered list splits where a property ends that goes down the order. -/
theorem exists_split {r : α → α → Prop} {l : List α} (hordered : l.Pairwise r) (P : α → Prop)
    (hdown : ∀ x y, r x y → P y → P x) :
    ∃ before after, l = before ++ after ∧ (∀ x ∈ before, P x) ∧ ∀ x ∈ after, ¬ P x := by
  induction l with
  | nil => exact ⟨[], [], rfl, by simp, by simp⟩
  | cons x l ih =>
    obtain ⟨hx, hl⟩ := List.pairwise_cons.mp hordered
    by_cases hP : P x
    · obtain ⟨before, after, rfl, hbefore, hafter⟩ := ih hl
      refine ⟨x :: before, after, rfl, ?_, hafter⟩
      exact List.forall_mem_cons.mpr ⟨hP, hbefore⟩
    · refine ⟨[], x :: l, rfl, by simp, ?_⟩
      exact List.forall_mem_cons.mpr ⟨hP, fun y hy hPy => hP (hdown x y (hx y hy) hPy)⟩

/-- **An invariant along every beginning.** A property `P` that follows from an invariant holds
along the whole run exactly when every step meets its condition, if a step that does keeps the
invariant and a step after which `P` still holds does. -/
theorem forall_prefix_iff {σ : Type*} {next : σ → α → σ} {P Inv : σ → Prop} {C : σ → α → Prop}
    {init : σ} (start : Inv init) (holds : ∀ s, Inv s → P s)
    (keeps : ∀ s a, Inv s → C s a → Inv (next s a))
    (needs : ∀ s a, Inv s → P (next s a) → C s a) (steps : List α) :
    (∀ past, past <+: steps → P (past.foldl next init)) ↔
      ∀ past a, past ++ [a] <+: steps → C (past.foldl next init) a := by
  have hsnoc : ∀ past a, (past ++ [a]).foldl next init = next (past.foldl next init) a :=
    fun past a => by rw [List.foldl_append]; rfl
  have hinit : ∀ {past : List α} {a}, past ++ [a] <+: steps → past <+: steps :=
    fun h => (List.prefix_append _ _).trans h
  constructor
  · intro h past a hpast
    suffices hinv : ∀ past, past <+: steps → Inv (past.foldl next init) from
      needs _ _ (hinv past (hinit hpast)) (hsnoc past a ▸ h _ hpast)
    intro past
    induction past using List.reverseRecOn with
    | nil => exact fun _ => start
    | append_singleton past a ih =>
      intro hpast
      have hbefore := ih (hinit hpast)
      rw [hsnoc]
      exact keeps _ _ hbefore (needs _ _ hbefore (hsnoc past a ▸ h _ hpast))
  · intro h past hpast
    refine holds _ ?_
    induction past using List.reverseRecOn with
    | nil => exact start
    | append_singleton past a ih =>
      rw [hsnoc]
      exact keeps _ _ (ih (hinit hpast)) (h past a hpast)

end VibesWaf

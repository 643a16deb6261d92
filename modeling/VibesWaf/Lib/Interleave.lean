import Mathlib.Data.List.Infix
import Mathlib.Logic.Function.Basic
import VibesWaf.Lib.Run

/-!
# Programs that share a resource

A `Program` calls the operations of a shared resource one after the other and goes on with their
answers. Programs run side by side as threads: each move of an `Interleaving` performs the next
operation of one thread, in any order, and the calls are logged.

What holds across the interleavings comes from two sides. `Program.Safe` says of one program, from
its own calls alone, what holds before each call and of each result, and it composes along `bind`.
`run_isHistory` says of the log that it is one history of the resource in which every thread makes
the calls of its program. `IsHistory.guarded` and `run_returns` put them together, and
`run_finishes` says when a thread has come to its result. What a resource remembers of a log is told
by the call that began it and by none that ended it (`since_iff`).
-/

namespace VibesWaf

/-- **What holds since.** If an entry of a log makes something true or makes it false, or leaves it
as it is, then it is true after the log exactly when it was true from the start and no entry has
made it false, or one entry has made it true and none behind it false. -/
theorem since_iff {γ : Type*} {P : List γ → Prop} {starts : List γ → γ → Prop} {ends : γ → Prop}
    {log : List γ} (step : ∀ past c, past ++ [c] <+: log →
      (P (past ++ [c]) ↔ starts past c ∨ P past ∧ ¬ ends c)) :
    P log ↔ (P [] ∧ ∀ c ∈ log, ¬ ends c) ∨
      ∃ before c after, log = before ++ c :: after ∧ starts before c ∧ ∀ d ∈ after, ¬ ends d := by
  refine run_induction (P := fun log => P log ↔ (P [] ∧ ∀ c ∈ log, ¬ ends c) ∨
      ∃ before c after, log = before ++ c :: after ∧ starts before c ∧ ∀ d ∈ after, ¬ ends d)
    (by simp) fun past c hpast ih => ?_
  rw [step past c hpast]
  constructor
  · rintro (hstarts | ⟨hP, hends⟩)
    · exact .inr ⟨past, c, [], rfl, hstarts, by simp⟩
    · rcases ih.mp hP with ⟨hnil, hall⟩ | ⟨before, d, after, rfl, hd, hall⟩
      · exact .inl ⟨hnil, forall_mem_snoc hall hends⟩
      · exact .inr ⟨before, d, after ++ [c], by simp, hd, forall_mem_snoc hall hends⟩
  · rintro (⟨hnil, hall⟩ | ⟨before, d, after, hlog, hd, hall⟩)
    · refine .inr ⟨ih.mpr (.inl ⟨hnil, fun d hd => hall d ?_⟩), hall c (by simp)⟩
      exact List.mem_append_left _ hd
    · rcases List.eq_nil_or_concat after with rfl | ⟨after, last, rfl⟩
      · obtain ⟨rfl, rfl⟩ := List.append_singleton_inj.mp hlog
        exact .inl hd
      · rw [List.concat_eq_append, ← List.cons_append, ← List.append_assoc] at hlog
        obtain ⟨rfl, rfl⟩ := List.append_singleton_inj.mp hlog
        refine .inr ⟨ih.mpr (.inr ⟨before, d, after, rfl, hd, fun e he => hall e ?_⟩),
          hall c (by simp)⟩
        simp [he]

variable {Op : Type} {Ans : Op → Type} {α β σ ι : Type}

/-- A program over the operations of a resource: a result, or a call and what follows its answer. -/
inductive Program (Ans : Op → Type) (α : Type)
  | pure (result : α)
  | call (op : Op) (next : Ans op → Program Ans α)

/-- An operation and its answer. -/
abbrev Event (Ans : Op → Type) : Type :=
  Σ op, Ans op

namespace Program

/-- A program after another. -/
def bind (p : Program Ans α) (f : α → Program Ans β) : Program Ans β :=
  match p with
  | .pure result => f result
  | .call op next => .call op fun answer => (next answer).bind f

instance : Monad (Program Ans) where
  pure := .pure
  bind := .bind

/-- The program of one call. -/
def perform (op : Op) : Program Ans (Ans op) :=
  .call op .pure

/-- The result that a program has come to. -/
def result? : Program Ans α → Option α
  | .pure result => some result
  | .call _ _ => none

theorem eq_pure_of_result? {p : Program Ans α} {result : α} (h : p.result? = some result) :
    p = .pure result := by
  cases p with
  | pure found => rw [Option.some.inj h]
  | call op next => cases h

/-- The calls of some events lead from a program to what is left of it. -/
def Leads : Program Ans α → List (Event Ans) → Program Ans α → Prop
  | p, [], q => q = p
  | .pure _, _ :: _, _ => False
  | .call op next, e :: events, q => ∃ answer, e = ⟨op, answer⟩ ∧ (next answer).Leads events q

/-- Each call a program makes is guarded, and its result meets a postcondition; both may speak of
the calls made before. -/
def Safe (G : List (Event Ans) → Op → Prop) (p : Program Ans α)
    (Q : List (Event Ans) → α → Prop) (past : List (Event Ans)) : Prop :=
  match p with
  | .pure result => Q past result
  | .call op next => G past op ∧ ∀ answer, (next answer).Safe G Q (past ++ [⟨op, answer⟩])

variable {G : List (Event Ans) → Op → Prop} {p q : Program Ans α} {f : α → Program Ans β}
  {past events : List (Event Ans)} {e : Event Ans}

/-! ### What a program may call -/

@[simp] theorem safe_pure {Q : List (Event Ans) → α → Prop} {result : α} :
    Safe G (Pure.pure result : Program Ans α) Q past ↔ Q past result :=
  Iff.rfl

@[simp] theorem safe_perform {op : Op} {Q : List (Event Ans) → Ans op → Prop} :
    Safe G (perform op) Q past ↔ G past op ∧ ∀ answer, Q (past ++ [⟨op, answer⟩]) answer :=
  Iff.rfl

/-- **A program after another** is safe when the second is, from what the first has called. -/
@[simp] theorem safe_bind {Q : List (Event Ans) → β → Prop} :
    Safe G (p >>= f) Q past ↔ Safe G p (fun past result => Safe G (f result) Q past) past := by
  induction p generalizing past with
  | pure result => exact Iff.rfl
  | call op next ih => exact and_congr_right fun _ => forall_congr' fun answer => ih answer

/-- A weaker postcondition. -/
theorem Safe.mono {Q R : List (Event Ans) → α → Prop} (h : Safe G p Q past)
    (himp : ∀ events result, Q (past ++ events) result → R (past ++ events) result) :
    Safe G p R past := by
  induction p generalizing past with
  | pure result =>
    have hresult := himp [] result
    rw [List.append_nil] at hresult
    exact hresult h
  | call op next ih =>
    refine ⟨h.1, fun answer => ih answer (h.2 answer) fun events result => ?_⟩
    rw [List.append_assoc]
    exact himp _ result

/-- Nothing is asked of a program that may call anything. -/
theorem safe_of_true (p : Program Ans α) (past : List (Event Ans)) :
    Safe (fun _ _ => True) p (fun _ _ => True) past := by
  induction p generalizing past with
  | pure result => trivial
  | call op next ih => exact ⟨trivial, fun answer => ih answer _⟩

/-- A program after another, by the postcondition of the first. -/
theorem Safe.bind {Q : List (Event Ans) → α → Prop} {R : List (Event Ans) → β → Prop}
    (h : Safe G p Q past)
    (hf : ∀ events result, Q (past ++ events) result → Safe G (f result) R (past ++ events)) :
    Safe G (p >>= f) R past :=
  safe_bind.mpr (h.mono hf)

/-- What a program has called leaves it safe. -/
theorem Safe.leads {Q : List (Event Ans) → α → Prop} (h : Safe G p Q past)
    (hleads : p.Leads events q) : Safe G q Q (past ++ events) := by
  induction events generalizing p past with
  | nil =>
    obtain rfl : q = p := by cases p <;> exact hleads
    rwa [List.append_nil]
  | cons e events ih =>
    cases p with
    | pure result => exact hleads.elim
    | call op next =>
      obtain ⟨answer, rfl, hnext⟩ := hleads
      have hsafe := ih (h.2 answer) hnext
      rwa [List.append_assoc] at hsafe

/-! ### How many calls a program makes -/

/-- A program comes to its result within a number of calls. -/
def Within : ℕ → Program Ans α → Prop
  | _, .pure _ => True
  | 0, .call _ _ => False
  | n + 1, .call _ next => ∀ answer, (next answer).Within n

@[simp] theorem within_pure (n : ℕ) (result : α) : Within n (Pure.pure result : Program Ans α) := by
  cases n <;> trivial

theorem Within.mono {m n : ℕ} (h : p.Within m) (hmn : m ≤ n) : p.Within n := by
  induction p generalizing m n with
  | pure result => cases n <;> trivial
  | call op next ih =>
    obtain _ | m := m
    · exact h.elim
    obtain _ | n := n
    · omega
    exact fun answer => ih answer (h answer) (by omega)

/-- **A program after another** makes the calls of both. -/
theorem Within.bind {m n : ℕ} (h : p.Within m) (hf : ∀ result, (f result).Within n) :
    (p >>= f).Within (m + n) := by
  induction p generalizing m with
  | pure result => exact (hf result).mono (Nat.le_add_left n m)
  | call op next ih =>
    obtain _ | m := m
    · exact h.elim
    rw [Nat.succ_add]
    exact fun answer => ih answer (h answer)

theorem exists_pure_of_within_zero (h : p.Within 0) : ∃ result, p = .pure result := by
  cases p with
  | pure result => exact ⟨result, rfl⟩
  | call op next => exact h.elim

/-! ### One more call -/

@[simp] theorem leads_nil : p.Leads [] q ↔ q = p := by
  cases p <;> exact Iff.rfl

/-- A call leads a program on. -/
theorem Leads.snoc {op : Op} {next : Ans op → Program Ans α}
    (h : p.Leads events (.call op next)) (answer : Ans op) :
    p.Leads (events ++ [⟨op, answer⟩]) (next answer) := by
  induction events generalizing p with
  | nil =>
    obtain rfl := leads_nil.mp h
    exact ⟨answer, rfl, leads_nil.mpr rfl⟩
  | cons e events ih =>
    cases p with
    | pure result => exact h.elim
    | call op' next' =>
      obtain ⟨answer', he, hnext⟩ := h
      exact ⟨answer', he, ih hnext⟩

end Program

/-! ### Threads -/

/-- A call of a thread, with what the outside said to it. -/
structure Call (ι : Type) (Ans : Op → Type) where
  thread : ℕ
  input : ι
  op : Op
  answer : Ans op

/-- The operation and the answer. -/
def Call.event (c : Call ι Ans) : Event Ans :=
  ⟨c.op, c.answer⟩

/-- The calls of a thread. -/
def callsOf (i : ℕ) (log : List (Call ι Ans)) : List (Event Ans) :=
  (log.filter fun c => c.thread = i).map Call.event

/-- Threads over a shared resource, and the calls they have made, the oldest first. -/
structure Interleaving (σ ι : Type) (Ans : Op → Type) (α : Type) where
  shared : σ
  threads : ℕ → Program Ans α
  log : List (Call ι Ans)

/-- How a resource answers an operation, given what the outside says. -/
abbrev Resource (σ ι : Type) (Ans : Op → Type) : Type :=
  ι → (op : Op) → σ → Ans op × σ

namespace Interleaving

variable (r : Resource σ ι Ans)

/-- A thread makes its next call; a thread that has finished does nothing. -/
def step (w : Interleaving σ ι Ans α) (move : ℕ × ι) : Interleaving σ ι Ans α :=
  match w.threads move.1 with
  | .pure _ => w
  | .call op next =>
    let (answer, shared) := r move.2 op w.shared
    { shared
      threads := Function.update w.threads move.1 (next answer)
      log := w.log ++ [⟨move.1, move.2, op, answer⟩] }

/-- Threads after some moves. -/
def run (s : σ) (programs : ℕ → Program Ans α) (moves : List (ℕ × ι)) : Interleaving σ ι Ans α :=
  moves.foldl (step r) ⟨s, programs, []⟩

/-- The resource after some calls. -/
def after (s : σ) (log : List (Call ι Ans)) : σ :=
  log.foldl (fun s c => (r c.input c.op s).2) s

/-- A log is one history of the resource, in which each thread makes the calls of its program. -/
structure IsHistory (s : σ) (programs : ℕ → Program Ans α) (log : List (Call ι Ans)) : Prop where
  answers : ∀ past c, past ++ [c] <+: log → c.answer = (r c.input c.op (after r s past)).1
  called : ∀ past c, past ++ [c] <+: log →
    ∃ next, (programs c.thread).Leads (callsOf c.thread past) (.call c.op next)

variable {r} {s : σ} {programs : ℕ → Program Ans α} {moves : List (ℕ × ι)}
  {log past : List (Call ι Ans)} {c : Call ι Ans} {i : ℕ}

theorem after_append (past : List (Call ι Ans)) (c : Call ι Ans) :
    after r s (past ++ [c]) = (r c.input c.op (after r s past)).2 := by
  rw [after, List.foldl_append]
  rfl

theorem after_append_list (past rest : List (Call ι Ans)) :
    after r s (past ++ rest) = after r (after r s past) rest :=
  List.foldl_append

theorem callsOf_append_self (past : List (Call ι Ans)) (c : Call ι Ans) :
    callsOf c.thread (past ++ [c]) = callsOf c.thread past ++ [c.event] := by
  simp [callsOf]

theorem callsOf_append_of_ne (past : List (Call ι Ans)) (h : c.thread ≠ i) :
    callsOf i (past ++ [c]) = callsOf i past := by
  simp [callsOf, h]

/-- What a move does: nothing, or the next call of its thread. -/
theorem step_cases (w : Interleaving σ ι Ans α) (move : ℕ × ι) :
    step r w move = w ∨ ∃ op next, w.threads move.1 = .call op next ∧
      step r w move = ⟨(r move.2 op w.shared).2,
        Function.update w.threads move.1 (next (r move.2 op w.shared).1),
        w.log ++ [⟨move.1, move.2, op, (r move.2 op w.shared).1⟩]⟩ := by
  rw [step]
  cases h : w.threads move.1 with
  | pure result => exact .inl rfl
  | call op next => exact .inr ⟨op, next, rfl, rfl⟩

/-- A history with one more call. -/
theorem IsHistory.snoc (h : IsHistory r s programs past)
    (hanswer : c.answer = (r c.input c.op (after r s past)).1)
    (hcalled : ∃ next, (programs c.thread).Leads (callsOf c.thread past) (.call c.op next)) :
    IsHistory r s programs (past ++ [c]) := by
  have hcases : ∀ before d, before ++ [d] <+: past ++ [c] →
      before ++ [d] <+: past ∨ before = past ∧ d = c := by
    intro before d hpre
    rcases List.prefix_concat_iff.mp hpre with heq | hpre
    · exact .inr (List.append_singleton_inj.mp heq)
    · exact .inl hpre
  constructor
  · intro before d hpre
    rcases hcases before d hpre with hpre | ⟨rfl, rfl⟩
    · exact h.answers before d hpre
    · exact hanswer
  · intro before d hpre
    rcases hcases before d hpre with hpre | ⟨rfl, rfl⟩
    · exact h.called before d hpre
    · exact hcalled

/-- The beginning of a history is one. -/
theorem IsHistory.of_prefix (h : IsHistory r s programs log) (hpast : past <+: log) :
    IsHistory r s programs past :=
  ⟨fun before c hpre => h.answers before c (hpre.trans hpast),
    fun before c hpre => h.called before c (hpre.trans hpast)⟩

/-- **The log of a run** is a history of the resource and of the programs. -/
theorem run_isHistory (r : Resource σ ι Ans) (s : σ) (programs : ℕ → Program Ans α)
    (moves : List (ℕ × ι)) :
    let w := run r s programs moves
    IsHistory r s programs w.log ∧ w.shared = after r s w.log ∧
      ∀ i, (programs i).Leads (callsOf i w.log) (w.threads i) := by
  induction moves using List.reverseRecOn with
  | nil => exact ⟨⟨by simp [run], by simp [run]⟩, rfl, fun i => Program.leads_nil.mpr rfl⟩
  | append_singleton moves move ih =>
    obtain ⟨hhistory, hshared, hleads⟩ := ih
    have hrun : run r s programs (moves ++ [move]) = step r (run r s programs moves) move := by
      rw [run, List.foldl_append]
      rfl
    dsimp only
    rw [hrun]
    rcases step_cases (r := r) (run r s programs moves) move with
      hstep | ⟨op, next, hthread, hstep⟩
    · rw [hstep]
      exact ⟨hhistory, hshared, hleads⟩
    · rw [hstep]
      have hcalled := hleads move.1
      rw [hthread] at hcalled
      refine ⟨hhistory.snoc (by rw [hshared]) ⟨next, hcalled⟩, ?_, fun i => ?_⟩
      · rw [after_append, ← hshared]
      · dsimp only
        by_cases hi : i = move.1
        · subst hi
          rw [Function.update_self, callsOf_append_self _ ⟨move.1, _, op, _⟩]
          exact hcalled.snoc _
        · rw [Function.update_of_ne hi, callsOf_append_of_ne _ (Ne.symm hi)]
          exact hleads i

/-- **Every call is guarded**: what safe programs say of their calls holds at each call of the
log. -/
theorem IsHistory.guarded (h : IsHistory r s programs log)
    {G : ℕ → List (Event Ans) → Op → Prop} {Q : ℕ → List (Event Ans) → α → Prop}
    (hsafe : ∀ i, (programs i).Safe (G i) (Q i) []) (hpast : past ++ [c] <+: log) :
    G c.thread (callsOf c.thread past) c.op := by
  obtain ⟨next, hleads⟩ := h.called past c hpast
  have hnext := (hsafe c.thread).leads hleads
  rw [List.nil_append] at hnext
  exact hnext.1

/-- **The result is met**: what a safe program says of its result holds when its thread has
finished. -/
theorem run_returns {G : List (Event Ans) → Op → Prop} {Q : List (Event Ans) → α → Prop}
    (hsafe : (programs i).Safe G Q []) {result : α}
    (hthread : (run r s programs moves).threads i = .pure result) :
    Q (callsOf i (run r s programs moves).log) result := by
  have hleads := (run_isHistory r s programs moves).2.2 i
  rw [hthread] at hleads
  have hresult := hsafe.leads hleads
  rwa [List.nil_append] at hresult

/-- **A thread finishes** when it has had as many moves as its program makes calls. -/
theorem run_finishes {n : ℕ} (hwithin : (programs i).Within n)
    (hmoves : n ≤ (moves.map Prod.fst).count i) :
    ∃ result, (run r s programs moves).threads i = .pure result := by
  have hleft : ((run r s programs moves).threads i).Within (n - (moves.map Prod.fst).count i) := by
    clear hmoves
    induction moves using List.reverseRecOn with
    | nil => exact hwithin
    | append_singleton moves move ih =>
      have hrun : run r s programs (moves ++ [move]) = step r (run r s programs moves) move := by
        rw [run, List.foldl_append]
        rfl
      rw [hrun, List.map_append, List.count_append, List.map_singleton, List.count_singleton,
        ← Nat.sub_sub]
      by_cases hi : move.1 = i
      · subst hi
        rw [if_pos (beq_self_eq_true _), step]
        cases hthread : (run r s programs moves).threads move.1 with
        | pure result =>
          dsimp only
          rw [hthread]
          exact Program.within_pure _ result
        | call op next =>
          rw [hthread] at ih
          dsimp only
          rw [Function.update_self]
          cases hleft : n - (moves.map Prod.fst).count move.1 with
          | zero =>
            rw [hleft] at ih
            exact ih.elim
          | succ left =>
            rw [hleft] at ih
            exact ih _
      · rw [if_neg (by simpa using hi), Nat.sub_zero]
        rcases step_cases (r := r) (run r s programs moves) move with
          hstep | ⟨op, next, -, hstep⟩
        · rwa [hstep]
        · rw [hstep]
          dsimp only
          rwa [Function.update_of_ne (Ne.symm hi)]
  rw [Nat.sub_eq_zero_of_le hmoves] at hleft
  exact Program.exists_pure_of_within_zero hleft

/-- **Where the calls of a thread are**: the log splits at each of them. -/
theorem split_callsOf {a b : List (Event Ans)} {e : Event Ans} (h : callsOf i log = a ++ e :: b) :
    ∃ past c rest, log = past ++ c :: rest ∧ c.thread = i ∧ c.event = e ∧
      callsOf i past = a ∧ callsOf i rest = b := by
  obtain ⟨front, back, hlog, rfl, hback⟩ := List.map_eq_append_iff.mp h
  obtain ⟨c, back', rfl, rfl, rfl⟩ := List.map_eq_cons_iff.mp hback
  obtain ⟨past, rest, rfl, hpast, hrest⟩ := List.filter_eq_append_iff.mp hlog
  obtain ⟨skipped, rest', rfl, hskipped, hthread, hfilter⟩ := List.filter_eq_cons_iff.mp hrest
  refine ⟨past ++ skipped, c, rest', by simp, of_decide_eq_true hthread, rfl, ?_, ?_⟩
  · rw [callsOf, List.filter_append, hpast, List.filter_eq_nil_iff.mpr hskipped, List.append_nil]
  · rw [callsOf, hfilter]

/-- An event of a thread is a call of the log. -/
theorem exists_call_of_mem {e : Event Ans} (h : e ∈ callsOf i log) :
    ∃ past c rest, log = past ++ c :: rest ∧ c.thread = i ∧ c.event = e := by
  obtain ⟨a, b, hab⟩ := List.append_of_mem h
  obtain ⟨past, c, rest, hlog, hthread, hevent, -, -⟩ := split_callsOf hab
  exact ⟨past, c, rest, hlog, hthread, hevent⟩

/-- The answer of an event is what the resource says there. -/
theorem IsHistory.answer_eq (h : IsHistory r s programs log) {rest : List (Call ι Ans)}
    (hlog : log = past ++ c :: rest) {op : Op} {answer : Ans op} (hevent : c.event = ⟨op, answer⟩) :
    c.op = op ∧ answer = (r c.input op (after r s past)).1 := by
  have hanswer := h.answers past c ⟨rest, by simp [hlog]⟩
  obtain ⟨i, o, op', answer'⟩ := c
  obtain ⟨rfl, heq⟩ := Sigma.mk.inj hevent
  exact ⟨rfl, (eq_of_heq heq).symm.trans hanswer⟩

/-- What the outside says in the log is what the moves say, in their order. -/
theorem inputs_sublist (r : Resource σ ι Ans) (s : σ) (programs : ℕ → Program Ans α)
    (moves : List (ℕ × ι)) :
    ((run r s programs moves).log.map Call.input).Sublist (moves.map Prod.snd) := by
  induction moves using List.reverseRecOn with
  | nil => exact List.Sublist.refl _
  | append_singleton moves move ih =>
    have hrun : run r s programs (moves ++ [move]) = step r (run r s programs moves) move := by
      rw [run, List.foldl_append]
      rfl
    rw [hrun, List.map_append]
    rcases step_cases (r := r) (run r s programs moves) move with hstep | ⟨op, next, -, hstep⟩
    · rw [hstep]
      exact ih.trans (List.sublist_append_left _ _)
    · rw [hstep, List.map_append]
      exact ih.append (List.Sublist.refl _)

end Interleaving

end VibesWaf

import Mathlib.Data.Set.Basic
import VibesWaf.Lib.Interleave

/-!
# Memo tables

A memo table keeps values of a partial function that have been computed. A program that needs a
value looks its key up, and computes and stores it when it was not there. These are two accesses,
and those of other programs come between them.

`Computes` says what a program comes to as long as the table tells the truth; it composes along
`bind`. `run_memo` discharges that condition for programs that share a table, whatever the
interleaving: their results are the ones they come to with no table, and the table holds values of
the function alone.
-/

namespace VibesWaf

variable {κ β ε α γ : Type}

/-- The accesses to a memo table. -/
inductive MemoOp (κ β : Type)
  | lookup (key : κ)
  | store (key : κ) (value : β)

/-- What a memo table answers. -/
def MemoOp.Answer : MemoOp κ β → Type
  | .lookup _ => Option β
  | .store _ _ => Unit

/-- A program over a memo table. -/
abbrev Memoized (κ β α : Type) : Type :=
  Program (@MemoOp.Answer κ β) α

/-- A memo table. -/
def memoTable [DecidableEq κ] : Resource (κ → Option β) Unit (@MemoOp.Answer κ β)
  | (), .lookup key, table => (table key, table)
  | (), .store key value, table => ((), Function.update table key (some value))

theorem memoTable_store [DecidableEq κ] (key : κ) (value : β) (table : κ → Option β) :
    (memoTable () (.store key value) table).2 = Function.update table key (some value) :=
  rfl

namespace Memoized

/-- A lookup. -/
def lookup (key : κ) : Memoized κ β (Option β) :=
  Program.perform (MemoOp.lookup key)

/-- A store. -/
def store (key : κ) (value : β) : Memoized κ β Unit :=
  Program.perform (MemoOp.store key value)

/-- The function at a key that was not there. An error is not kept. -/
def compute (f : κ → Except ε β) (key : κ) : Memoized κ β (Except ε β) :=
  match f key with
  | .error e => pure (.error e)
  | .ok value => do
    store key value
    pure (.ok value)

/-- The function at a key, by the table. -/
def memoize (f : κ → Except ε β) (key : κ) : Memoized κ β (Except ε β) := do
  match ← lookup key with
  | some value => pure (.ok value)
  | none => compute f key

/-- A lookup has found nothing but the value of the function. -/
def Told (f : κ → Except ε β) : Event (@MemoOp.Answer κ β) → Prop
  | ⟨.lookup key, answer⟩ => ∀ value, answer = some value → f key = .ok value
  | ⟨.store _ _, _⟩ => True

/-- As long as the lookups have told the truth, what is stored is the value of the function at one
of the keys. -/
def Keeps (f : κ → Except ε β) (keys : Set κ) (past : List (Event (@MemoOp.Answer κ β))) :
    MemoOp κ β → Prop
  | .lookup _ => True
  | .store key value => (∀ e ∈ past, Told f e) → key ∈ keys ∧ f key = .ok value

/-- A program comes to a result and stores at the keys, as long as the lookups tell the truth. -/
def Computes (f : κ → Except ε β) (keys : Set κ) (p : Memoized κ β α) (result : α) : Prop :=
  ∀ past, p.Safe (Keeps f keys) (fun past found => (∀ e ∈ past, Told f e) → found = result) past

variable {f : κ → Except ε β} {keys : Set κ} {p : Memoized κ β α} {result : α}

/-- Nothing is asked of a program once a lookup has not told the truth. -/
theorem safe_of_not_told {past : List (Event (@MemoOp.Answer κ β))} (h : ¬ ∀ e ∈ past, Told f e) :
    p.Safe (Keeps f keys) (fun past found => (∀ e ∈ past, Told f e) → found = result) past := by
  induction p generalizing past with
  | pure found => exact fun htold => absurd htold h
  | call op next ih =>
    refine ⟨?_, fun answer => ih answer fun htold => h fun e he => ?_⟩
    · cases op with
      | lookup key => trivial
      | store key value => exact fun htold => absurd htold h
    · exact htold e (List.mem_append_left _ he)

theorem computes_pure (result : α) : Computes f keys (Pure.pure result) result :=
  fun _ _ => rfl

/-- **A program after another** comes to the result it comes to from that of the first. -/
theorem Computes.bind {k : α → Memoized κ β γ} {result' : γ} (h : Computes f keys p result)
    (hk : Computes f keys (k result) result') : Computes f keys (p >>= k) result' := by
  refine fun past => (h past).bind fun events found hfound => ?_
  by_cases htold : ∀ e ∈ past ++ events, Told f e
  · rw [hfound htold]
    exact hk _
  · exact safe_of_not_told htold

/-- More keys may be stored at. -/
theorem Computes.mono {keys' : Set κ} (h : Computes f keys p result) (hkeys : keys ⊆ keys') :
    Computes f keys' p result := by
  intro past
  have hsafe := h past
  clear h
  induction p generalizing past with
  | pure found => exact hsafe
  | call op next ih =>
    refine ⟨?_, fun answer => ih answer _ (hsafe.2 answer)⟩
    cases op with
    | lookup key => trivial
    | store key value => exact fun htold => ⟨hkeys (hsafe.1 htold).1, (hsafe.1 htold).2⟩

/-- **The function by the table** comes to the value of the function. -/
theorem computes_memoize (f : κ → Except ε β) {key : κ} (hkey : key ∈ keys) :
    Computes f keys (memoize f key) (f key) := by
  refine fun past => ⟨trivial, fun answer => ?_⟩
  cases answer with
  | some value =>
    intro htold
    exact (htold ⟨.lookup key, some value⟩ (by simp) value rfl).symm
  | none =>
    change (compute f key).Safe _ _ _
    rw [compute]
    cases hvalue : f key with
    | error e => exact fun _ => rfl
    | ok value => exact ⟨fun _ => ⟨hkey, hvalue⟩, fun _ _ => rfl⟩

/-- The function by the table takes two accesses at most. -/
theorem within_memoize (f : κ → Except ε β) (key : κ) : (memoize f key).Within 2 := by
  intro answer
  cases answer with
  | some value => trivial
  | none =>
    change (compute f key).Within 1
    rw [compute]
    cases f key with
    | error e => trivial
    | ok value => exact fun _ => trivial

/-! ### A shared table -/

section Shared

variable [DecidableEq κ] {keysOf : ℕ → Set κ} {programs : ℕ → Memoized κ β α} {results : ℕ → α}

/-- The table holds values of the function at the keys of the programs. -/
def Holds (f : κ → Except ε β) (keysOf : ℕ → Set κ) (table : κ → Option β) : Prop :=
  ∀ key value, table key = some value → f key = .ok value ∧ ∃ i, key ∈ keysOf i

/-- In a history the lookups tell the truth, and the table holds values of the function. -/
theorem told_of_isHistory {log : List (Call Unit (@MemoOp.Answer κ β))}
    (hsafe : ∀ i, Computes f (keysOf i) (programs i) (results i))
    (h : Interleaving.IsHistory memoTable (fun _ => none) programs log) :
    (∀ c ∈ log, Told f c.event) ∧
      Holds f keysOf (Interleaving.after memoTable (fun _ => none) log) := by
  refine run_induction (P := fun log => (∀ c ∈ log, Told f c.event) ∧
      Holds f keysOf (Interleaving.after memoTable (fun _ => none) log))
    ⟨by simp, nofun⟩ fun past c hpast ⟨htold, hholds⟩ => ?_
  have hanswer := h.answers past c hpast
  have hguard := h.guarded (fun i => hsafe i []) hpast
  have hpasttold : ∀ e ∈ callsOf c.thread past, Told f e := by
    intro e he
    obtain ⟨d, hd, rfl⟩ := List.mem_map.mp he
    exact htold d (List.mem_of_mem_filter hd)
  rw [Interleaving.after_append]
  obtain ⟨thread, input, op, answer⟩ := c
  cases op with
  | lookup key =>
    refine ⟨forall_mem_snoc htold fun value hvalue => ?_, hholds⟩
    exact (hholds key value (hanswer.symm.trans hvalue)).1
  | store key value =>
    refine ⟨forall_mem_snoc htold trivial, fun key' value' hvalue => ?_⟩
    rw [memoTable_store] at hvalue
    by_cases hkey : key' = key
    · subst hkey
      rw [Function.update_self] at hvalue
      obtain rfl := Option.some.inj hvalue
      exact ⟨(hguard hpasttold).2, thread, (hguard hpasttold).1⟩
    · rw [Function.update_of_ne hkey] at hvalue
      exact hholds key' value' hvalue

/-- **A shared table changes no result.** Programs that share an empty memo table come to the
results they come to by the function, whatever the interleaving. -/
theorem run_memo (hsafe : ∀ i, Computes f (keysOf i) (programs i) (results i))
    (moves : List (ℕ × Unit)) :
    let w := Interleaving.run memoTable (fun _ => none) programs moves
    Holds f keysOf w.shared ∧ ∀ i found, w.threads i = .pure found → found = results i := by
  intro w
  obtain ⟨hhistory, hshared, -⟩ := Interleaving.run_isHistory memoTable (fun _ => none) programs
    moves
  obtain ⟨htold, hholds⟩ := told_of_isHistory hsafe hhistory
  refine ⟨hshared ▸ hholds, fun i found hthread => ?_⟩
  refine Interleaving.run_returns (hsafe i []) hthread fun e he => ?_
  obtain ⟨c, hc, rfl⟩ := List.mem_map.mp he
  exact htold c (List.mem_of_mem_filter hc)

end Shared

end Memoized

end VibesWaf

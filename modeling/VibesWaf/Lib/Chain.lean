import Mathlib.Data.List.Basic

/-!
# Left-associative operator chains

A recursive-descent parser reads `operand (op operand)*` with a loop: after each operand it
tests whether the current token is the operator, and if so advances, reads one more operand and
folds it into the tree on the left. `chainLoop` is that loop over an arbitrary parser state `σ`,
and `chain` puts the first operand in front of it. The loop runs on fuel; every lemma about its
result says how much is needed.

* `chainLoop_stop` and `chainLoop_step` are the two ways a loop with enough fuel goes on.
* `chain_sound` is the invariant rule: a relation that holds after the first operand and is
  kept by one more turn holds of the result, and the state left behind is not at an operator.
* `chain_fuel` is termination: when operands and operators shrink a measure of the state, the
  loop never runs out of fuel that covers the measure.
-/

namespace OperatorChain

universe u v w

variable {σ : Type u} {α : Type v} {ε : Type w}

/-- The loop of a chain parser. `sep` advances over the operator when the state is at one;
`exhausted` is the error of a loop that ran out of fuel. -/
def chainLoop (sep : σ → Option σ) (mk : α → α → α) (operand : σ → Except ε (α × σ))
    (exhausted : ε) : ℕ → α → σ → Except ε (α × σ)
  | 0, left, s =>
    match sep s with
    | none => .ok (left, s)
    | some _ => .error exhausted
  | n + 1, left, s =>
    match sep s with
    | none => .ok (left, s)
    | some s' =>
      match operand s' with
      | .error e => .error e
      | .ok (right, s'') => chainLoop sep mk operand exhausted n (mk left right) s''

/-- `operand (op operand)*`, folded to the left. -/
def chain (sep : σ → Option σ) (mk : α → α → α) (operand : σ → Except ε (α × σ))
    (exhausted : ε) (fuel : ℕ) (s : σ) : Except ε (α × σ) :=
  match operand s with
  | .error e => .error e
  | .ok (left, s') => chainLoop sep mk operand exhausted fuel left s'

variable {sep : σ → Option σ} {mk : α → α → α} {operand : σ → Except ε (α × σ)}
  {exhausted : ε}

/-- A loop that is not at an operator returns what it has. -/
theorem chainLoop_stop {s : σ} (hs : sep s = none) (n : ℕ) (left : α) :
    chainLoop sep mk operand exhausted n left s = .ok (left, s) := by
  cases n <;> simp [chainLoop, hs]

/-- One turn of the loop. -/
theorem chainLoop_step {s s' s'' : σ} {right : α} (hs : sep s = some s')
    (ho : operand s' = .ok (right, s'')) (n : ℕ) (left : α) :
    chainLoop sep mk operand exhausted (n + 1) left s =
      chainLoop sep mk operand exhausted n (mk left right) s'' := by
  simp [chainLoop, hs, ho]

/-- A chain whose first operand is read goes on as the loop. -/
theorem chain_eq_loop {s s' : σ} {left : α} (ho : operand s = .ok (left, s')) (n : ℕ) :
    chain sep mk operand exhausted n s = chainLoop sep mk operand exhausted n left s' := by
  simp [chain, ho]

/-- The invariant rule of the loop. -/
theorem chainLoop_sound {Q : α → σ → Prop}
    (hstep : ∀ {left right : α} {s s' s'' : σ}, Q left s → sep s = some s' →
      operand s' = .ok (right, s'') → Q (mk left right) s'') :
    ∀ (n : ℕ) {left : α} {s : σ} {a : α} {r : σ}, Q left s →
      chainLoop sep mk operand exhausted n left s = .ok (a, r) → Q a r ∧ sep r = none := by
  intro n
  induction n with
  | zero =>
    intro left s a r hQ h
    cases hs : sep s with
    | none =>
      obtain ⟨rfl, rfl⟩ : left = a ∧ s = r := by simpa [chainLoop, hs] using h
      exact ⟨hQ, hs⟩
    | some s' => simp [chainLoop, hs] at h
  | succ n ih =>
    intro left s a r hQ h
    cases hs : sep s with
    | none =>
      obtain ⟨rfl, rfl⟩ : left = a ∧ s = r := by simpa [chainLoop, hs] using h
      exact ⟨hQ, hs⟩
    | some s' =>
      cases ho : operand s' with
      | error e => simp [chainLoop, hs, ho] at h
      | ok p =>
        obtain ⟨right, s''⟩ := p
        rw [chainLoop_step hs ho] at h
        exact ih (hstep hQ hs ho) h

/-- **The invariant rule of a chain.** What holds after the first operand and is kept by one
more operator and operand holds of the result, and the chain stops at a state that is not at
the operator. -/
theorem chain_sound {Q : α → σ → Prop} {n : ℕ} {s : σ} {a : α} {r : σ}
    (hfirst : ∀ {left : α} {s' : σ}, operand s = .ok (left, s') → Q left s')
    (hstep : ∀ {left right : α} {s s' s'' : σ}, Q left s → sep s = some s' →
      operand s' = .ok (right, s'') → Q (mk left right) s'')
    (h : chain sep mk operand exhausted n s = .ok (a, r)) : Q a r ∧ sep r = none := by
  cases ho : operand s with
  | error e => simp [chain, ho] at h
  | ok p =>
    obtain ⟨left, s'⟩ := p
    rw [chain_eq_loop ho] at h
    exact chainLoop_sound hstep n (hfirst ho) h

/-- **Termination.** A loop whose fuel covers the measure of its state does not run out of it,
when the operator and the operand shrink the measure and no operand read on the way (from a
state below the bound `N`) runs out of its own fuel. -/
theorem chainLoop_fuel {size : σ → ℕ} {N : ℕ}
    (hsep : ∀ {s s' : σ}, sep s = some s' → size s' < size s)
    (hop : ∀ {s s' : σ} {a : α}, operand s = .ok (a, s') → size s' ≤ size s)
    (hne : ∀ {s : σ}, size s ≤ N → operand s ≠ .error exhausted) :
    ∀ (n : ℕ) {left : α} {s : σ}, size s ≤ n → size s ≤ N →
      chainLoop sep mk operand exhausted n left s ≠ .error exhausted := by
  intro n
  induction n with
  | zero =>
    intro left s hn _
    cases hs : sep s with
    | none => simp [chainLoop, hs]
    | some s' =>
      have := hsep hs
      omega
  | succ n ih =>
    intro left s hn hN
    cases hs : sep s with
    | none => simp [chainLoop, hs]
    | some s' =>
      have hlt := hsep hs
      have hne' : operand s' ≠ .error exhausted := hne (by omega)
      cases ho : operand s' with
      | error e => simpa [chainLoop, hs, ho] using hne'
      | ok p =>
        obtain ⟨right, s''⟩ := p
        have hle := hop ho
        rw [chainLoop_step hs ho]
        exact ih (by omega) (by omega)

/-- A chain whose fuel covers the measure of its state does not run out of it. -/
theorem chain_fuel (size : σ → ℕ) {N : ℕ}
    (hsep : ∀ {s s' : σ}, sep s = some s' → size s' < size s)
    (hop : ∀ {s s' : σ} {a : α}, operand s = .ok (a, s') → size s' ≤ size s)
    (hne : ∀ {s : σ}, size s ≤ N → operand s ≠ .error exhausted) {n : ℕ} {s : σ}
    (hn : size s ≤ n) (hN : size s ≤ N) :
    chain sep mk operand exhausted n s ≠ .error exhausted := by
  cases ho : operand s with
  | error e =>
    have := hne hN
    simpa [chain, ho] using this
  | ok p =>
    obtain ⟨left, s'⟩ := p
    have hle := hop ho
    rw [chain_eq_loop ho]
    exact chainLoop_fuel hsep hop hne n (by omega) (by omega)

end OperatorChain

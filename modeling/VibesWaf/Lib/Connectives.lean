import Mathlib.Data.List.Basic

/-!
# Flat chains of ANDs and ORs

A chain `a₀ ∘₁ a₁ ∘₂ a₂ …` with connectives `∘ᵢ` among AND and OR, where AND binds tighter.
`chainValue` reads a chain of truth values, and `chainTree` is the tree a parser with two
left-associative levels builds for it. The two agree under every meaning of the tree that turns
its nodes into conjunctions and disjunctions (`map_chainTree`).

`keepFirst` is the chain in which every connective after the first is replaced by AND. Its
reading implies the original one, and `chainValue_keepFirst_iff` says when they are equal.
-/

namespace Connectives

/-- A connective. -/
inductive Conn
  | and | or
  deriving DecidableEq, Repr

/-- The truth value of a chain, from its first operand and the connectives and operands after
it. The first argument is the conjunction read since the last OR. -/
def chainValue : Bool → List (Conn × Bool) → Bool
  | b, [] => b
  | b, (.and, c) :: rest => chainValue (b && c) rest
  | b, (.or, c) :: rest => b || chainValue c rest

variable {α : Type}

/-- The tree of a chain: `e` is the disjunction read so far, `t` the conjunction read since the
last OR. -/
def chainTree (mkAnd mkOr : α → α → α) : Option α → α → List (Conn × α) → α
  | none, t, [] => t
  | some e, t, [] => mkOr e t
  | e, t, (.and, u) :: rest => chainTree mkAnd mkOr e (mkAnd t u) rest
  | none, t, (.or, u) :: rest => chainTree mkAnd mkOr (some t) u rest
  | some e, t, (.or, u) :: rest => chainTree mkAnd mkOr (some (mkOr e t)) u rest

/-- **The tree means the chain**, for every meaning `f` that reads its two kinds of node as
conjunction and disjunction. -/
theorem map_chainTree {mkAnd mkOr : α → α → α} {f : α → Bool}
    (hand : ∀ a b, f (mkAnd a b) = (f a && f b)) (hor : ∀ a b, f (mkOr a b) = (f a || f b))
    (items : List (Conn × α)) (e : Option α) (t : α) :
    f (chainTree mkAnd mkOr e t items) =
      ((e.map f).getD false || chainValue (f t) (items.map fun p => (p.1, f p.2))) := by
  induction items generalizing e t with
  | nil => cases e <;> simp [chainTree, chainValue, hor]
  | cons p rest ih =>
    obtain ⟨conn, u⟩ := p
    cases conn with
    | and => simp [chainTree, chainValue, ih, hand]
    | or =>
      cases e with
      | none => simp [chainTree, chainValue, ih]
      | some e => simp [chainTree, chainValue, ih, hor, Bool.or_assoc]

/-- The induction rule of the tree: `P` is kept by conjunctions, `Q` holds of every node with `P`
and is kept by a disjunction with a node of `P` on the right. -/
theorem chainTree_induction {mkAnd mkOr : α → α → α} {P Q : α → Prop}
    (hand : ∀ {a b}, P a → P b → P (mkAnd a b)) (hPQ : ∀ {a}, P a → Q a)
    (hor : ∀ {a b}, Q a → P b → Q (mkOr a b)) {items : List (Conn × α)}
    (hitems : ∀ p ∈ items, P p.2) {e : Option α} (he : ∀ a ∈ e, Q a) {t : α} (ht : P t) :
    Q (chainTree mkAnd mkOr e t items) := by
  induction items generalizing e t with
  | nil =>
    cases e with
    | none => exact hPQ ht
    | some a => exact hor (he a rfl) ht
  | cons p rest ih =>
    obtain ⟨conn, u⟩ := p
    have hu : P u := hitems (conn, u) (by simp)
    have hrest : ∀ q ∈ rest, P q.2 := fun q hq => hitems q (by simp [hq])
    cases conn with
    | and =>
      have := ih hrest he (hand ht hu)
      cases e <;> simpa [chainTree] using this
    | or =>
      cases e with
      | none =>
        refine ih hrest (e := some t) ?_ hu
        rintro a ⟨⟩
        exact hPQ ht
      | some e =>
        refine ih hrest (e := some (mkOr e t)) ?_ hu
        rintro a ⟨⟩
        exact hor (he e rfl) ht

/-! ### Keeping only the first connective -/

/-- The chain with every connective after the first replaced by AND. -/
def keepFirst : List (Conn × α) → List (Conn × α)
  | [] => []
  | p :: rest => p :: rest.map fun q => (.and, q.2)

private theorem chainValue_ands (b : Bool) (items : List (Conn × Bool)) :
    chainValue b (items.map fun q => (.and, q.2)) = (b && items.all (·.2)) := by
  induction items generalizing b with
  | nil => simp [chainValue]
  | cons q items ih => simp [chainValue, ih, Bool.and_assoc]

/-- The reading of a chain with only its first connective kept. -/
theorem chainValue_keepFirst (b : Bool) (items : List (Conn × Bool)) :
    chainValue b (keepFirst items) =
      match items with
      | [] => b
      | (.and, _) :: _ => b && items.all (·.2)
      | (.or, _) :: _ => b || items.all (·.2) := by
  match items with
  | [] => rfl
  | (.and, c) :: rest => simp [keepFirst, chainValue, chainValue_ands, Bool.and_assoc]
  | (.or, c) :: rest => simp [keepFirst, chainValue, chainValue_ands]

/-- A chain all of whose operands are true is true. -/
private theorem chainValue_of_all {items : List (Conn × Bool)} {b : Bool}
    (h : (b && items.all (·.2)) = true) : chainValue b items = true := by
  induction items generalizing b with
  | nil => simpa [chainValue] using h
  | cons p rest ih =>
    obtain ⟨conn, c⟩ := p
    obtain ⟨rfl, rfl, hrest⟩ : b = true ∧ c = true ∧ rest.all (·.2) = true := by
      simpa using h
    cases conn with
    | and => exact ih (by simpa using hrest)
    | or => simp [chainValue]

/-- **When the later connectives do not matter.** Keeping only the first connective never makes
a chain true; it keeps the reading exactly when a true chain is true for one of two reasons: all
operands are true, or the first connective is OR and the first operand, or all the others, are
true. -/
theorem chainValue_keepFirst_iff (b : Bool) (items : List (Conn × Bool)) :
    chainValue b (keepFirst items) = chainValue b items ↔
      (chainValue b items = true →
        match items with
        | [] => True
        | (.and, _) :: _ => b = true ∧ ∀ p ∈ items, p.2 = true
        | (.or, _) :: _ => b = true ∨ ∀ p ∈ items, p.2 = true) := by
  have key : ∀ x y : Bool, (x = true → y = true) → (x = y ↔ (y = true → x = true)) := by decide
  match items with
  | [] => simp [keepFirst]
  | (.and, c) :: rest =>
    rw [key _ _ fun h => chainValue_of_all (by rwa [chainValue_keepFirst] at h)]
    rw [chainValue_keepFirst, Bool.and_eq_true, List.all_eq_true]
  | (.or, c) :: rest =>
    have himp : chainValue b (keepFirst ((.or, c) :: rest)) = true →
        chainValue b ((.or, c) :: rest) = true := by
      rw [chainValue_keepFirst, chainValue, Bool.or_eq_true, Bool.or_eq_true]
      exact Or.imp_right chainValue_of_all
    rw [key _ _ himp, chainValue_keepFirst, Bool.or_eq_true, List.all_eq_true]

end Connectives

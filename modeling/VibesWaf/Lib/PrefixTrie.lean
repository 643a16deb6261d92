import Mathlib.Data.List.Basic
import Mathlib.Data.List.Infix

/-!
# Binary tries and longest-prefix match

`Trie` is a binary trie with an optional value at each node; `insert` writes a value at the end
of a path and overwrites what was there. `deepest` is the deepest value on the path of a key, and
`deepestBelow` the deepest one when the root is not asked.

The specification is a list: `lastLongest` picks, among the entries of a list that match, one of
greatest length, and the last of these. `deepestBelow_foldl_insert` says that a trie filled from
a list answers, below its root, with the last of the longest entries whose path is nonempty and a
prefix of the key.
-/

namespace PrefixTrie

variable {α β : Type}

/-! ### The specification -/

/-- The last of the longest entries that match. -/
def lastLongest (isMatch : β → Bool) (len : β → ℕ) (entries : List β) : Option β :=
  entries.foldl
    (fun best e => if isMatch e ∧ ∀ b ∈ best, len b ≤ len e then some e else best) none

variable {isMatch : β → Bool} {len : β → ℕ}

theorem lastLongest_append_singleton (entries : List β) (e : β) :
    lastLongest isMatch len (entries ++ [e]) =
      if isMatch e ∧ ∀ b ∈ lastLongest isMatch len entries, len b ≤ len e then some e
      else lastLongest isMatch len entries := by
  simp [lastLongest, List.foldl_append]

/-- Without a match there is no answer. -/
theorem lastLongest_eq_none_iff {entries : List β} :
    lastLongest isMatch len entries = none ↔ ∀ e ∈ entries, isMatch e = false := by
  induction entries using List.reverseRecOn with
  | nil => simp [lastLongest]
  | append_singleton entries e ih =>
    rw [lastLongest_append_singleton]
    by_cases hnone : lastLongest isMatch len entries = none
    · have hall := ih.mp hnone
      rw [hnone]
      cases he : isMatch e with
      | true => simp [he]
      | false =>
        simp only [Bool.false_eq_true, false_and, if_false, true_iff]
        exact List.forall_mem_append.mpr ⟨hall, by simp [he]⟩
    · have hex : ¬ ∀ x ∈ entries ++ [e], isMatch x = false :=
        fun h => hnone (ih.mpr fun x hx => h x (by simp [hx]))
      simp only [hex, iff_false]
      split
      · simp
      · exact hnone

/-- **The last of the longest**: the answer matches, nothing before it that matches is longer, and
everything after it that matches is shorter. -/
theorem lastLongest_eq_some_iff {entries : List β} {e : β} :
    lastLongest isMatch len entries = some e ↔
      ∃ before after, entries = before ++ e :: after ∧ isMatch e = true ∧
        (∀ x ∈ before, isMatch x = true → len x ≤ len e) ∧
        ∀ x ∈ after, isMatch x = true → len x < len e := by
  induction entries using List.reverseRecOn generalizing e with
  | nil => simp [lastLongest]
  | append_singleton entries x ih =>
    rw [lastLongest_append_singleton]
    constructor
    · intro h
      split at h
      · rename_i hx
        obtain rfl : x = e := by simpa using h
        refine ⟨entries, [], rfl, hx.1, fun y hy hmy => ?_, by simp⟩
        cases hbest : lastLongest isMatch len entries with
        | none =>
          rw [lastLongest_eq_none_iff.mp hbest y hy] at hmy
          cases hmy
        | some b =>
          obtain ⟨before, after, rfl, -, hb, ha⟩ := ih.mp hbest
          have hbx : len b ≤ len x := hx.2 b hbest
          rcases List.mem_append.mp hy with hy | hy
          · exact (hb y hy hmy).trans hbx
          rcases List.mem_cons.mp hy with rfl | hy
          · exact hbx
          · exact ((ha y hy hmy).le).trans hbx
      -- an entry that is not taken is shorter than the answer, if it matches at all
      · rename_i hx
        obtain ⟨before, after, rfl, he, hb, ha⟩ := ih.mp h
        refine ⟨before, after ++ [x], by simp, he, hb, fun y hy hmy => ?_⟩
        rcases List.mem_append.mp hy with hy | hy
        · exact ha y hy hmy
        · obtain rfl : y = x := by simpa using hy
          by_contra hcon
          refine hx ⟨hmy, fun b hb => ?_⟩
          obtain rfl : e = b := by simpa [h] using hb
          omega
    · rintro ⟨before, after, happ, he, hb, ha⟩
      rcases List.eq_nil_or_concat after with rfl | ⟨after, z, rfl⟩
      · obtain ⟨rfl, rfl⟩ : entries = before ∧ x = e := by
          simpa using List.append_inj' happ rfl
        refine if_pos ⟨he, fun b hbest => ?_⟩
        obtain ⟨before', after', rfl, hmb, -, -⟩ := ih.mp hbest
        exact hb b (by simp) hmb
      · obtain ⟨rfl, rfl⟩ : entries = before ++ e :: after ∧ x = z := by
          have happ' : entries ++ [x] = (before ++ e :: after) ++ [z] := by simpa using happ
          simpa using List.append_inj' happ' rfl
        have hbest : lastLongest isMatch len (before ++ e :: after) = some e :=
          ih.mpr ⟨before, after, rfl, he, hb, fun y hy => ha y (by simp [hy])⟩
        rw [hbest]
        refine if_neg fun hx => ?_
        have h1 := ha x (by simp) hx.1
        have h2 := hx.2 e rfl
        omega

/-! ### The trie -/

/-- A binary trie with a value at some of its nodes. -/
inductive Trie (α : Type)
  | nil
  | node (value : Option α) (zero one : Trie α)
  deriving Repr

namespace Trie

/-- The value at the root. -/
def value : Trie α → Option α
  | nil => none
  | node v _ _ => v

/-- The subtrie under a bit. -/
def child : Trie α → Bool → Trie α
  | nil, _ => nil
  | node _ z _, false => z
  | node _ _ o, true => o

/-- Write a value at the end of a path. -/
def insert : Trie α → List Bool → α → Trie α
  | t, [], a => node (some a) (t.child false) (t.child true)
  | t, false :: p, a => node t.value ((t.child false).insert p a) (t.child true)
  | t, true :: p, a => node t.value (t.child false) ((t.child true).insert p a)

/-- The deepest value on the path of a key, the root included, with its depth. -/
def deepest : Trie α → List Bool → Option (ℕ × α)
  | nil, _ => none
  | node v _ _, [] => v.map fun a => (0, a)
  | node v z o, b :: bs =>
    match deepest (if b then o else z) bs with
    | some (d, a) => some (d + 1, a)
    | none => v.map fun a => (0, a)

theorem deepest_nil (key : List Bool) : (nil : Trie α).deepest key = none := by
  cases key <;> rfl

theorem deepest_cons (t : Trie α) (b : Bool) (bs : List Bool) :
    t.deepest (b :: bs) =
      match (t.child b).deepest bs with
      | some (d, a) => some (d + 1, a)
      | none => t.value.map fun a => (0, a) := by
  cases t with
  | nil => cases b <;> simp [child, value, deepest_nil]
  | node v z o => cases b <;> rfl

theorem deepest_nil_key (t : Trie α) : t.deepest [] = t.value.map fun a => (0, a) := by
  cases t <;> rfl

theorem value_insert_cons (t : Trie α) (b : Bool) (p : List Bool) (a : α) :
    (t.insert (b :: p) a).value = t.value := by
  cases b <;> rfl

theorem child_insert_cons (t : Trie α) (b c : Bool) (p : List Bool) (a : α) :
    (t.insert (b :: p) a).child c = if c = b then (t.child b).insert p a else t.child c := by
  cases b <;> cases c <;> rfl

/-- **Insertion.** A new value is the deepest on the path of a key exactly when its path is a
prefix of the key that is at least as deep as the deepest value so far. -/
theorem deepest_insert (t : Trie α) (p key : List Bool) (a : α) :
    (t.insert p a).deepest key =
      if p <+: key ∧ ∀ d ∈ t.deepest key, d.1 ≤ p.length then some (p.length, a)
      else t.deepest key := by
  induction p generalizing t key with
  | nil =>
    cases key with
    | nil => simp [insert, deepest_nil_key, value]
    | cons b bs =>
      have hins : (t.insert [] a).deepest (b :: bs) =
          match (t.child b).deepest bs with
          | some (d, a) => some (d + 1, a)
          | none => some (0, a) := by
        cases b <;> rfl
      rw [hins, deepest_cons]
      cases h : (t.child b).deepest bs with
      | none => cases hv : t.value <;> simp
      | some d => simp
  | cons b p ih =>
    cases key with
    | nil => simp [deepest_nil_key, value_insert_cons]
    | cons c key =>
      rw [deepest_cons, value_insert_cons, child_insert_cons]
      by_cases hbc : c = b
      · subst hbc
        rw [if_pos rfl, ih, deepest_cons]
        cases h : (t.child c).deepest key with
        | none =>
          by_cases hp : p <+: key <;> cases hv : t.value <;> simp [hp, List.cons_prefix_cons]
        | some d =>
          by_cases hp : p <+: key <;> by_cases hd : d.1 ≤ p.length <;>
            simp [hp, hd, List.cons_prefix_cons]
      · have hnot : ¬ (b :: p <+: c :: key) := fun h => hbc (List.cons_prefix_cons.mp h).1.symm
        rw [if_neg hbc, if_neg fun h => hnot h.1, deepest_cons]

/-- The deepest value on the path of a key below the root, with its depth. -/
def deepestBelow (t : Trie α) : List Bool → Option (ℕ × α)
  | [] => none
  | b :: bs => ((t.child b).deepest bs).map fun d => (d.1 + 1, d.2)

theorem deepestBelow_nil (key : List Bool) : (nil : Trie α).deepestBelow key = none := by
  cases key with
  | nil => rfl
  | cons b bs => simp [deepestBelow, child, deepest_nil]

/-- The deepest value of all is the one below the root, and else the value of the root. -/
theorem deepest_eq_or (t : Trie α) (key : List Bool) :
    t.deepest key = (t.deepestBelow key <|> t.value.map fun a => (0, a)) := by
  cases key with
  | nil => exact deepest_nil_key t
  | cons b bs =>
    rw [deepest_cons, deepestBelow]
    cases (t.child b).deepest bs <;> rfl

/-- **Insertion, below the root.** The empty path leaves it alone. -/
theorem deepestBelow_insert (t : Trie α) (p key : List Bool) (a : α) :
    (t.insert p a).deepestBelow key =
      if (p ≠ [] ∧ p <+: key) ∧ ∀ d ∈ t.deepestBelow key, d.1 ≤ p.length then some (p.length, a)
      else t.deepestBelow key := by
  cases key with
  | nil => cases p <;> simp [deepestBelow]
  | cons c key =>
    cases p with
    | nil => cases c <;> simp [insert, deepestBelow, child]
    | cons b p =>
      rw [deepestBelow, deepestBelow, child_insert_cons]
      by_cases hbc : c = b
      · subst hbc
        rw [if_pos rfl, deepest_insert]
        cases (t.child c).deepest key with
        | none => by_cases hp : p <+: key <;> simp [hp, List.cons_prefix_cons]
        | some d =>
          by_cases hp : p <+: key <;> by_cases hd : d.1 ≤ p.length <;>
            simp [hp, hd, List.cons_prefix_cons]
      · have hnot : ¬ (b :: p <+: c :: key) := fun h => hbc (List.cons_prefix_cons.mp h).1.symm
        rw [if_neg hbc, if_neg fun h => hnot h.1.2]

end Trie

open Trie

/-- **Longest-prefix match.** A trie filled from a list, in order, answers a key, below its root,
with the last of the longest entries whose path is nonempty and a prefix of it. -/
theorem deepestBelow_foldl_insert (path : β → List Bool) (val : β → α) (entries : List β)
    (key : List Bool) :
    (entries.foldl (fun t e => t.insert (path e) (val e)) Trie.nil).deepestBelow key =
      (lastLongest (fun e => decide (path e ≠ [] ∧ path e <+: key)) (fun e => (path e).length)
        entries).map fun e => ((path e).length, val e) := by
  induction entries using List.reverseRecOn with
  | nil => exact deepestBelow_nil key
  | append_singleton entries e ih =>
    rw [List.foldl_append, List.foldl_cons, List.foldl_nil, deepestBelow_insert, ih,
      lastLongest_append_singleton]
    generalize lastLongest (fun e => decide (path e ≠ [] ∧ path e <+: key))
      (fun e => (path e).length) entries = best
    by_cases hp : path e ≠ [] ∧ path e <+: key
    · cases best with
      | none => simp [hp]
      | some b => by_cases hl : (path b).length ≤ (path e).length <;> simp [hp, hl]
    · rw [if_neg fun h => hp h.1, if_neg fun h => hp (of_decide_eq_true h.1)]

end PrefixTrie

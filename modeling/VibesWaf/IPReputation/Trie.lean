import VibesWaf.Go.NetBits
import VibesWaf.Lib.PrefixTrie

/-!
# The reputation trie

`ipTrie` is one binary trie for both address families: a network is inserted along the leading
bits of its address, of four bytes when `To4` gives four and of sixteen otherwise, and an address
is looked up along all its bits.

An index past the end of the address is a panic in Go, and `none` here. `insert_eq` says when it
happens: exactly when the mask has more ones than the shortened address has bits. A lookup never
panics, and `lookup_eq` reads it as the deepest value on the address's path below the root:
`lookupBits` does not ask the root, so a network of length zero is stored and never found.
-/

namespace VibesWaf

open PrefixTrie PrefixTrie.Trie

/-! ### The code -/

/-- `ipTrie`: the root node is there from the start, without a score. -/
abbrev IPTrie := Trie Int

/-- `newIPTrie`. -/
def newIPTrie : IPTrie :=
  .nil

/-- `int((ip[i/8] >> uint(7 - i%8)) & 1)`; `none` when the index is out of range. -/
def bitAt (ip : List UInt8) (i : ℕ) : Option Bool :=
  ip[i / 8]?.map fun b => (b >>> UInt8.ofNat (7 - i % 8)) &&& 1 == 1

/-- The loop of `insert` from bit `i` on, with the number of bits still to walk; `cur` is the
`node` of the source. -/
def insertLoop (ip : List UInt8) (score : Int) : ℕ → ℕ → IPTrie → Option IPTrie
  | 0, _, cur => some (Trie.insert cur [] score)
  | n + 1, i, cur =>
    match bitAt ip i with
    | none => none
    | some false => (insertLoop ip score n (i + 1) (cur.child false)).map fun child =>
        .node cur.value child (cur.child true)
    | some true => (insertLoop ip score n (i + 1) (cur.child true)).map fun child =>
        .node cur.value (cur.child false) child

/-- `ipTrie.insert`; `none` is a panic. -/
def IPTrie.insert (t : IPTrie) (cidr : IPNet) (score : Int) : Option IPTrie :=
  match (to4 cidr.ip).or (to16 cidr.ip) with
  | none => some t
  | some ip => insertLoop ip score cidr.ones 0 t

/-- The loop of `lookupBits` from bit `i` on, with the best score so far. -/
def lookupLoop (ip : List UInt8) : ℕ → ℕ → IPTrie → Option Int → Option (Option Int)
  | 0, _, _, best => some best
  | n + 1, i, cur, best =>
    match bitAt ip i with
    | none => none
    | some bit =>
      match cur.child bit with
      | .nil => some best
      | child => lookupLoop ip n (i + 1) child (child.value.or best)

/-- `ipTrie.lookupBits`. -/
def IPTrie.lookupBits (t : IPTrie) (ip : List UInt8) (maxBits : ℕ) : Option (Option Int) :=
  lookupLoop ip maxBits 0 t none

/-- `ipTrie.lookup`: the score that was found, if any; the outer `none` is a panic. -/
def IPTrie.lookup (t : IPTrie) (ip : List UInt8) : Option (Option Int) :=
  match to4 ip with
  | some ip4 => t.lookupBits ip4 32
  | none =>
    match to16 ip with
    | some ip16 => t.lookupBits ip16 128
    | none => some none

/-! ### The bits of an address -/

theorem bitAt_eq (ip : List UInt8) (i : ℕ) : bitAt ip i = (addrBits ip)[i]? := by
  induction ip generalizing i with
  | nil => simp [bitAt, addrBits]
  | cons b ip ih =>
    rw [addrBits_cons]
    by_cases hi : i < 8
    · have hdiv : i / 8 = 0 := by omega
      have hmod : i % 8 = i := by omega
      rw [List.getElem?_append_left (by simpa using hi), bitAt, hdiv, hmod]
      simp [byteBits, hi]
    · obtain ⟨k, rfl⟩ : ∃ k, i = k + 8 := ⟨i - 8, by omega⟩
      have hdiv : (k + 8) / 8 = k / 8 + 1 := by omega
      have hmod : (k + 8) % 8 = k % 8 := by omega
      rw [List.getElem?_append_right (by simp), bitAt, hdiv, hmod, List.getElem?_cons_succ]
      simpa [bitAt] using ih k

/-! ### Insertion -/

theorem insertLoop_eq (ip : List UInt8) (score : Int) (n i : ℕ) (t : IPTrie) :
    insertLoop ip score n i t =
      if n = 0 ∨ i + n ≤ 8 * ip.length then
        some (Trie.insert t (((addrBits ip).drop i).take n) score)
      else none := by
  induction n generalizing i t with
  | zero => simp [insertLoop]
  | succ n ih =>
    rw [insertLoop, bitAt_eq]
    by_cases hi : i < 8 * ip.length
    · have hlt : i < (addrBits ip).length := by simpa using hi
      rw [List.getElem?_eq_getElem hlt, List.drop_eq_getElem_cons hlt, List.take_succ_cons]
      by_cases hn : i + (n + 1) ≤ 8 * ip.length
      · have hn' : n = 0 ∨ i + 1 + n ≤ 8 * ip.length := by omega
        cases (addrBits ip)[i] <;> simp [ih, hn, hn', Trie.insert]
      · have hn' : ¬ (n = 0 ∨ i + 1 + n ≤ 8 * ip.length) := by omega
        cases (addrBits ip)[i] <;> simp [ih, hn, hn']
    · have hnone : (addrBits ip)[i]? = none := by simpa using not_lt.mp hi
      rw [hnone, if_neg (by omega)]

/-- **Insertion.** It writes the score at the end of the network's leading bits, or panics when
the shortened address has fewer bits than the mask has ones. -/
theorem insert_eq {t : IPTrie} {cidr : IPNet} {ip : List UInt8} (score : Int)
    (hip : (to4 cidr.ip).or (to16 cidr.ip) = some ip) :
    t.insert cidr score =
      if cidr.ones ≤ 8 * ip.length then
        some (Trie.insert t ((addrBits ip).take cidr.ones) score)
      else none := by
  rw [IPTrie.insert, hip]
  change insertLoop ip score cidr.ones 0 t = _
  have hiff : (cidr.ones = 0 ∨ 0 + cidr.ones ≤ 8 * ip.length) ↔ cidr.ones ≤ 8 * ip.length := by
    omega
  rw [insertLoop_eq, if_congr hiff rfl rfl, List.drop_zero]

/-! ### Lookup -/

theorem lookupLoop_eq {ip : List UInt8} {n i : ℕ} (t : IPTrie) (best : Option Int)
    (hn : i + n = 8 * ip.length) :
    lookupLoop ip n i t best =
      some (((t.deepestBelow ((addrBits ip).drop i)).map Prod.snd).or best) := by
  induction n generalizing i t best with
  | zero =>
    have hdrop : (addrBits ip).drop i = [] := List.drop_eq_nil_of_le (by simp; omega)
    rw [hdrop, lookupLoop, deepestBelow, Option.map_none, Option.none_or]
  | succ n ih =>
    have hlt : i < (addrBits ip).length := by rw [length_addrBits]; omega
    rw [lookupLoop, bitAt_eq, List.getElem?_eq_getElem hlt, List.drop_eq_getElem_cons hlt]
    change (match t.child (addrBits ip)[i] with
      | .nil => some best
      | child => lookupLoop ip n (i + 1) child (child.value.or best)) = _
    rw [deepestBelow]
    cases hchild : t.child (addrBits ip)[i] with
    | nil => simp [deepest_nil]
    | node v zero one =>
      change lookupLoop ip n (i + 1) (.node v zero one) (v.or best) = _
      rw [ih _ _ (by omega), deepest_eq_or]
      cases deepestBelow (.node v zero one) ((addrBits ip).drop (i + 1)) <;>
        cases v <;> simp [Trie.value]

/-- **Lookup.** It never panics, and finds the deepest score below the root on the path of the
address. -/
theorem lookup_eq (t : IPTrie) (a : Bytes 16) :
    t.lookup a.1 = some ((t.deepestBelow (addrBits (shortIP a))).map Prod.snd) := by
  have hlong : a.1.length ≠ 4 := by rw [a.2]; decide
  rw [IPTrie.lookup, shortIP]
  by_cases hmap : a.1.length = 16 ∧ a.1.take 12 = v4InV6Prefix
  · have h4 : to4 a.1 = some (a.1.drop 12) := (if_neg hlong).trans (if_pos hmap)
    rw [h4]
    change lookupLoop (a.1.drop 12) 32 0 t none = _
    rw [lookupLoop_eq _ _ (by rw [List.length_drop, a.2]), List.drop_zero, Option.or_none]
    rfl
  · have h4 : to4 a.1 = none := (if_neg hlong).trans (if_neg hmap)
    have h16 : to16 a.1 = some a.1 := (if_neg hlong).trans (if_pos a.2)
    rw [h4, h16]
    change lookupLoop a.1 128 0 t none = _
    rw [lookupLoop_eq _ _ (by rw [a.2]), List.drop_zero, Option.or_none]
    rfl

end VibesWaf

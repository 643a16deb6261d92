import Mathlib.Data.List.Induction
import Mathlib.Data.List.Nodup

/-!
# Tables with a primary key

A table is a list of rows, no two of which have the same key. A row is found by its key, and the
operations are those of a database: a row is inserted at the front or at the back, changed in its
place, or deleted. `find_eq_some_iff` reads a lookup as membership.
-/

namespace VibesWaf

/-- Rows without a common key. -/
structure Table {ρ κ : Type*} (key : ρ → κ) where
  rows : List ρ
  keys : (rows.map key).Nodup

namespace Table

variable {ρ κ : Type*} {key : ρ → κ}

/-- The table without rows. -/
def empty : Table key :=
  ⟨[], List.nodup_nil⟩

/-! ### Lookups -/

/-- Rows with the same key are the same. -/
theorem eq_of_key_eq (t : Table key) {r s : ρ} (hr : r ∈ t.rows) (hs : s ∈ t.rows)
    (h : key r = key s) : r = s :=
  List.inj_on_of_nodup_map t.keys hr hs h

variable [DecidableEq κ]

/-- The row of a key. -/
def find (t : Table key) (k : κ) : Option ρ :=
  t.rows.find? (key · = k)

theorem find_eq_none_iff (t : Table key) {k : κ} :
    t.find k = none ↔ ∀ r ∈ t.rows, key r ≠ k := by
  simp [find]

private theorem of_find {t : Table key} {k : κ} {r : ρ} (h : t.find k = some r) :
    r ∈ t.rows ∧ key r = k := by
  have hkey := List.find?_some h
  exact ⟨List.mem_of_find?_eq_some h, of_decide_eq_true hkey⟩

/-- **A lookup** finds the row of the table with the key. -/
theorem find_eq_some_iff (t : Table key) {k : κ} {r : ρ} :
    t.find k = some r ↔ r ∈ t.rows ∧ key r = k := by
  refine ⟨of_find, fun ⟨hr, hkey⟩ => ?_⟩
  cases hfind : t.find k with
  | none => exact absurd hkey (t.find_eq_none_iff.mp hfind r hr)
  | some s =>
    obtain ⟨hs, hsk⟩ := of_find hfind
    rw [t.eq_of_key_eq hs hr (hsk.trans hkey.symm)]

/-- An index that is filled row by row finds what a search finds, if no key comes twice. -/
theorem foldl_index {rows : List ρ} (h : (rows.map key).Nodup) (k : κ) :
    rows.foldl (fun index r k => if k = key r then some r else index k) (fun _ => none) k =
      rows.find? (key · = k) := by
  induction rows using List.reverseRecOn with
  | nil => rfl
  | append_singleton rows r ih =>
    rw [List.map_append, List.nodup_append] at h
    rw [List.foldl_append, List.foldl_cons, List.foldl_nil, List.find?_append]
    by_cases hk : k = key r
    · have hnone : rows.find? (key · = k) = none := by
        refine List.find?_eq_none.mpr fun s hs heq => ?_
        exact h.2.2 (key s) (List.mem_map_of_mem hs) (key r) (by simp)
          ((of_decide_eq_true heq).trans hk)
      simp [hk, hk ▸ hnone]
    · rw [if_neg hk, ih h.1]
      simp [Ne.symm hk]

/-! ### Changes -/

/-- A table without the row of a key. -/
def erase (t : Table key) (k : κ) : Table key :=
  ⟨t.rows.filter (key · ≠ k), t.keys.sublist (List.filter_sublist.map key)⟩

theorem mem_erase (t : Table key) {k : κ} {r : ρ} :
    r ∈ (t.erase k).rows ↔ r ∈ t.rows ∧ key r ≠ k := by
  simp [erase]

theorem find_erase (t : Table key) (k k' : κ) :
    (t.erase k).find k' = if k' = k then none else t.find k' := by
  ext r
  rw [find_eq_some_iff, mem_erase]
  split
  · rename_i hk
    simp only [reduceCtorEq, iff_false]
    exact fun h => h.1.2 (h.2.trans hk)
  · rename_i hk
    rw [t.find_eq_some_iff]
    exact ⟨fun h => ⟨h.1.1, h.2⟩, fun h => ⟨⟨h.1, fun heq => hk (h.2.symm.trans heq)⟩, h.2⟩⟩

/-- A table whose row of a key is changed, but for the key. -/
def modify (t : Table key) (k : κ) (f : ρ → ρ) (hf : ∀ r, key (f r) = key r) : Table key where
  rows := t.rows.map fun r => if key r = k then f r else r
  keys := by
    have hkey : key ∘ (fun r => if key r = k then f r else r) = key :=
      funext fun r => by
        rw [Function.comp_apply]
        split
        · exact hf r
        · rfl
    rw [List.map_map, hkey]
    exact t.keys

theorem mem_modify (t : Table key) (k : κ) (f : ρ → ρ) (hf : ∀ r, key (f r) = key r) {r : ρ} :
    r ∈ (t.modify k f hf).rows ↔ ∃ s ∈ t.rows, (if key s = k then f s else s) = r :=
  List.mem_map

theorem find_modify (t : Table key) (k : κ) (f : ρ → ρ) (hf : ∀ r, key (f r) = key r) (k' : κ) :
    (t.modify k f hf).find k' = if k' = k then (t.find k').map f else t.find k' := by
  ext r
  rw [find_eq_some_iff, mem_modify]
  split
  · rename_i hk
    simp only [Option.map_eq_some_iff, t.find_eq_some_iff]
    constructor
    · rintro ⟨⟨s, hs, rfl⟩, hkey⟩
      by_cases hsk : key s = k
      · exact ⟨s, ⟨hs, hsk.trans hk.symm⟩, (if_pos hsk).symm⟩
      · rw [if_neg hsk] at hkey
        exact absurd (hkey.trans hk) hsk
    · rintro ⟨s, ⟨hs, hkey⟩, rfl⟩
      exact ⟨⟨s, hs, if_pos (hkey.trans hk)⟩, (hf s).trans hkey⟩
  · rename_i hk
    rw [t.find_eq_some_iff]
    constructor
    · rintro ⟨⟨s, hs, rfl⟩, hkey⟩
      by_cases hsk : key s = k
      · rw [if_pos hsk, hf] at hkey
        exact absurd (hkey.symm.trans hsk) hk
      · rw [if_neg hsk] at hkey ⊢
        exact ⟨hs, hkey⟩
    · rintro ⟨hr, hkey⟩
      exact ⟨⟨r, hr, if_neg fun heq => hk (hkey.symm.trans heq)⟩, hkey⟩

/-- A table with another row in front. -/
def insert (t : Table key) (r : ρ) (h : t.find (key r) = none) : Table key where
  rows := r :: t.rows
  keys := by
    rw [List.map_cons, List.nodup_cons]
    refine ⟨fun hmem => ?_, t.keys⟩
    obtain ⟨s, hs, hkey⟩ := List.mem_map.mp hmem
    exact t.find_eq_none_iff.mp h s hs hkey

theorem mem_insert (t : Table key) {s : ρ} (r : ρ) (h : t.find (key r) = none) :
    s ∈ (t.insert r h).rows ↔ s = r ∨ s ∈ t.rows :=
  List.mem_cons

/-- A table with a row in the place of the one with its key. -/
def put (t : Table key) (r : ρ) : Table key :=
  (t.erase (key r)).insert r (by rw [find_erase, if_pos rfl])

theorem mem_put (t : Table key) {s : ρ} (r : ρ) :
    s ∈ (t.put r).rows ↔ s = r ∨ s ∈ t.rows ∧ key s ≠ key r := by
  rw [put, mem_insert, mem_erase]

theorem find_insert (t : Table key) (r : ρ) (h : t.find (key r) = none) (k : κ) :
    (t.insert r h).find k = if k = key r then some r else t.find k := by
  rw [find, insert, List.find?_cons]
  by_cases hk : k = key r
  · simp [hk]
  · simp [hk, Ne.symm hk, find]

end Table

end VibesWaf

import VibesWaf.Apps.Types
import VibesWaf.Lib.Table

/-!
# The repository of applications

The table `applications` with its statements. An application is stored under its id, its domain is
unique, and the rows are listed with the newest first. A statement that the constraints of the
table or a missing row refuse leaves it as it was, and its caller gets an error.
-/

namespace VibesWaf

/-- The table `applications`: `app_id` is its primary key and `domain` is unique. -/
structure AppTable extends Table StoredApp.id where
  domains : (rows.map StoredApp.domain).Nodup

namespace AppTable

/-- A table without rows. -/
def empty : AppTable :=
  ⟨⟨[], by simp⟩, by simp⟩

/-! ### Statements -/

/-- `GetByID`. -/
def getByID (t : AppTable) (id : GoString) : Option StoredApp :=
  t.find id

/-- `GetByDomain`. -/
def getByDomain (t : AppTable) (domain : GoString) : Option StoredApp :=
  t.rows.find? (·.domain = domain)

/-- `ListAll`. -/
def listAll (t : AppTable) : List StoredApp :=
  t.rows

/-- `Create`; the attack mode of a new row is off. -/
def create (t : AppTable) (a : StoredApp) : Option AppTable :=
  if h : t.find a.id = none ∧ a.domain ∉ t.rows.map StoredApp.domain then
    some ⟨t.insert { a with underAttackMode := false } h.1, List.nodup_cons.mpr ⟨h.2, t.domains⟩⟩
  else none

/-- The row that `Update` writes: the attack mode is not among its columns. -/
def written (a row : StoredApp) : StoredApp :=
  { row with domain := a.domain, config := a.config }

/-- The domain of an application is not one of another row. -/
def DomainFree (t : AppTable) (a : StoredApp) : Prop :=
  ∀ row ∈ t.rows, row.domain = a.domain → row.id = a.id

instance (t : AppTable) (a : StoredApp) : Decidable (t.DomainFree a) :=
  inferInstanceAs (Decidable (∀ row ∈ t.rows, row.domain = a.domain → row.id = a.id))

/-- The domains after an update are unique. -/
private theorem domains_written {t : AppTable} {a : StoredApp} (h : t.DomainFree a) :
    ((t.rows.map fun row => if row.id = a.id then written a row else row).map
      StoredApp.domain).Nodup := by
  have hdomains : t.rows.Pairwise fun r s => r.domain ≠ s.domain := List.pairwise_map.mp t.domains
  have hids : t.rows.Pairwise fun r s => r.id ≠ s.id := List.pairwise_map.mp t.keys
  rw [List.map_map]
  refine List.pairwise_map.mpr ((hdomains.and hids).imp_of_mem fun {r s} hr hs hne heq => ?_)
  rw [Function.comp_apply, Function.comp_apply] at heq
  -- two rows that were different and now have one domain: only one of them was written
  by_cases hr' : r.id = a.id
  · have hs' : s.id ≠ a.id := fun hs' => hne.2 (hr'.trans hs'.symm)
    rw [if_pos hr', if_neg hs'] at heq
    exact hs' (h s hs heq.symm)
  · rw [if_neg hr'] at heq
    by_cases hs' : s.id = a.id
    · rw [if_pos hs'] at heq
      exact hr' (h r hr heq)
    · rw [if_neg hs'] at heq
      exact hne.1 heq

/-- `Update`. -/
def update (t : AppTable) (a : StoredApp) : Option AppTable :=
  if h : t.find a.id ≠ none ∧ t.DomainFree a then
    some ⟨t.modify a.id (written a) fun _ => rfl, domains_written h.2⟩
  else none

/-- `Delete`. -/
def delete (t : AppTable) (id : GoString) : Option AppTable :=
  if t.find id = none then none
  else some ⟨t.erase id, t.domains.sublist (List.filter_sublist.map _)⟩

/-- `ToggleUnderAttackMode`; it is no error that there is no row. -/
def toggleUnderAttackMode (t : AppTable) (appID : GoString) (enabled : Bool) : AppTable where
  toTable := t.modify appID (fun row => { row with underAttackMode := enabled }) fun _ => rfl
  domains := by
    have hdomain : StoredApp.domain ∘ (fun row => if row.id = appID then
        { row with underAttackMode := enabled } else row) = StoredApp.domain :=
      funext fun row => by
        rw [Function.comp_apply]
        split <;> rfl
    change ((t.rows.map _).map _).Nodup
    rw [List.map_map, hdomain]
    exact t.domains

/-! ### What they change -/

theorem getByID_eq_some_iff {t : AppTable} {id : GoString} {a : StoredApp} :
    t.getByID id = some a ↔ a ∈ t.rows ∧ a.id = id :=
  t.find_eq_some_iff

theorem getByID_create {t t' : AppTable} {a : StoredApp} (h : t.create a = some t')
    (id : GoString) : t'.getByID id =
      if id = a.id then some { a with underAttackMode := false } else t.getByID id := by
  rw [create] at h
  split at h
  · rename_i hnew
    obtain rfl := Option.some.inj h
    exact t.find_insert { a with underAttackMode := false } hnew.1 id
  · cases h

theorem getByID_of_create {t t' : AppTable} {a : StoredApp} (h : t.create a = some t') :
    t.getByID a.id = none := by
  rw [create] at h
  split at h
  · rename_i hnew
    exact hnew.1
  · cases h

theorem getByID_update {t t' : AppTable} {a : StoredApp} (h : t.update a = some t')
    (id : GoString) : t'.getByID id =
      if id = a.id then (t.getByID id).map (written a) else t.getByID id := by
  rw [update] at h
  split at h
  · obtain rfl := Option.some.inj h
    exact t.find_modify a.id (written a) (fun _ => rfl) id
  · cases h

theorem getByID_delete {t t' : AppTable} {key : GoString} (h : t.delete key = some t')
    (id : GoString) : t'.getByID id = if id = key then none else t.getByID id := by
  rw [delete] at h
  split at h
  · cases h
  · obtain rfl := Option.some.inj h
    exact t.find_erase key id

/-- The rows after a creation. -/
theorem mem_create {t t' : AppTable} {a row : StoredApp} (h : t.create a = some t') :
    row ∈ t'.rows ↔ row = { a with underAttackMode := false } ∨ row ∈ t.rows := by
  rw [create] at h
  split at h
  · rename_i hnew
    obtain rfl := Option.some.inj h
    exact t.mem_insert { a with underAttackMode := false } hnew.1
  · cases h

/-- An update writes over the row of its id. -/
theorem rows_update {t t' : AppTable} {a : StoredApp} (h : t.update a = some t') :
    t'.rows = t.rows.map fun row => if row.id = a.id then written a row else row := by
  rw [update] at h
  split at h
  · obtain rfl := Option.some.inj h
    rfl
  · cases h

/-- The rows after an update. -/
theorem mem_update {t t' : AppTable} {a row : StoredApp} (h : t.update a = some t') :
    row ∈ t'.rows ↔ ∃ old ∈ t.rows, (if old.id = a.id then written a old else old) = row := by
  rw [rows_update h, List.mem_map]

theorem domainFree_of_update {t t' : AppTable} {a : StoredApp} (h : t.update a = some t') :
    t.DomainFree a := by
  rw [update] at h
  split at h
  · rename_i hallowed
    exact hallowed.2
  · cases h

theorem exists_of_update {t t' : AppTable} {a : StoredApp} (h : t.update a = some t') :
    ∃ row ∈ t.rows, row.id = a.id := by
  rw [update] at h
  split at h
  · rename_i hallowed
    obtain ⟨row, hrow⟩ := Option.ne_none_iff_exists'.mp hallowed.1
    exact ⟨row, t.find_eq_some_iff.mp hrow⟩
  · cases h

/-- An update goes through if there is a row to write over and the domain is free. -/
theorem exists_update {t : AppTable} {a row : StoredApp} (hrow : row ∈ t.rows)
    (hid : row.id = a.id) (hfree : t.DomainFree a) : ∃ t', t.update a = some t' := by
  have hfind : t.find a.id ≠ none := fun hnone => t.find_eq_none_iff.mp hnone row hrow hid
  rw [update, dif_pos ⟨hfind, hfree⟩]
  exact ⟨_, rfl⟩

/-- The rows after a deletion. -/
theorem mem_delete {t t' : AppTable} {id : GoString} {row : StoredApp} (h : t.delete id = some t') :
    row ∈ t'.rows ↔ row ∈ t.rows ∧ row.id ≠ id := by
  rw [delete] at h
  split at h
  · cases h
  · obtain rfl := Option.some.inj h
    exact t.mem_erase

/-- The rows after the attack mode is switched. -/
theorem mem_toggleUnderAttackMode {t : AppTable} {appID : GoString} {enabled : Bool}
    {row : StoredApp} : row ∈ (t.toggleUnderAttackMode appID enabled).rows ↔
      ∃ old ∈ t.rows,
        (if old.id = appID then { old with underAttackMode := enabled } else old) = row :=
  t.mem_modify appID (fun row => { row with underAttackMode := enabled }) fun _ => rfl

end AppTable

/-- A table with one application. -/
def sampleTable : AppTable :=
  ⟨⟨[sampleApp (str "shop") (str "shop.example") (str "http")], by simp⟩, by simp⟩

end VibesWaf

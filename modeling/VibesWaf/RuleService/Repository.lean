import Mathlib.Data.List.Perm.Basic
import Mathlib.Data.List.Sort
import VibesWaf.Lib.Table
import VibesWaf.Rule.Types

/-!
# The repository of rules

The table `security_rules` with its statements, and the rules that are merged for an application:
the enabled managed ones and its own. Their order is that of their priorities; the database and
`sort.Slice` are free to choose among rules with the same one.

What an application sees of a rule (`StoredRule.seenBy`) decides the merged list up to the order of
equal priorities: `sameMerged_iff` compares two tables rule by rule.
-/

namespace VibesWaf

/-! ### Rules -/

/-- `CompiledRule`, as the repository stores it. The application is `""` where the column is null,
and `skipModules` is `none` for a nil slice. -/
structure StoredRule where
  id : Int
  appID : GoString
  name : GoString
  scope : GoString
  ruleGroup : GoString
  expressionRaw : GoString
  ast : Node
  action : GoString
  skipModules : Option (List GoString)
  priority : Int
  enabled : Bool
  description : GoString
  deriving DecidableEq

/-- The rule is an enabled managed one. -/
def StoredRule.managed (r : StoredRule) : Bool :=
  r.enabled && r.scope = str "managed"

/-- The rule is an enabled one of the application. A null column equals nothing. -/
def StoredRule.ofApp (app : GoString) (r : StoredRule) : Bool :=
  r.enabled && r.scope = str "app" && r.appID ≠ [] && r.appID = app

/-- The row of a managed rule is read without its application. -/
def StoredRule.withoutApp (r : StoredRule) : StoredRule :=
  { r with appID := [] }

/-- What the merged list of an application holds of a rule. -/
def StoredRule.seenBy (app : GoString) (r : StoredRule) : Option StoredRule :=
  if r.managed then some r.withoutApp else if r.ofApp app then some r else none

/-- A way to sort rules by priority. -/
structure PrioritySort where
  sort : List StoredRule → List StoredRule
  perm : ∀ l, (sort l).Perm l
  sorted : ∀ l, (sort l).Pairwise fun r s => r.priority ≤ s.priority

/-- The table `security_rules`: the ids come from a sequence, no array is null, and `apps` are the
applications that a rule may belong to. -/
structure RuleTable extends Table StoredRule.id where
  next : Int
  unused : ∀ r ∈ rows, r.id < next
  arrays : ∀ r ∈ rows, r.skipModules ≠ none
  apps : List GoString

namespace RuleTable

/-! ### Statements -/

/-- The constraints of the table, as far as they are about a single rule: a null array is refused,
and the application must exist. -/
def allows (t : RuleTable) (r : StoredRule) : Bool :=
  r.skipModules.isSome && (r.appID = [] || r.appID ∈ t.apps)

/-- The next id is not taken. -/
theorem getByID_next (t : RuleTable) : t.find t.next = none :=
  t.find_eq_none_iff.mpr fun r hr heq => absurd heq (ne_of_lt (t.unused r hr))

private theorem arrays_of_allows {t : RuleTable} {r : StoredRule} (h : t.allows r = true) :
    r.skipModules ≠ none := by
  simp only [allows, Bool.and_eq_true] at h
  exact Option.isSome_iff_ne_none.mp h.1

/-- `Create`: the rule gets the next id. -/
def create (t : RuleTable) (r : StoredRule) : Option (RuleTable × StoredRule) :=
  if r.scope = str "global" then none
  else if h : t.allows r then
    some
      ({ toTable := t.insert { r with id := t.next } t.getByID_next
         next := t.next + 1
         unused := fun s hs => by
          rcases (t.mem_insert _ _).mp hs with rfl | hs
          · exact lt_add_one t.next
          · exact (t.unused s hs).trans (lt_add_one t.next)
         arrays := fun s hs => by
          rcases (t.mem_insert _ _).mp hs with rfl | hs
          · exact arrays_of_allows h
          · exact t.arrays s hs
         apps := t.apps }, { r with id := t.next })
  else none

/-- The row that `Update` writes: the application is not among its columns. -/
def written (r row : StoredRule) : StoredRule :=
  { r with id := row.id, appID := row.appID }

/-- `Update`. -/
def update (t : RuleTable) (r : StoredRule) : Option RuleTable :=
  if h : t.find r.id = none ∨ r.skipModules = none then none
  else
    some
      { toTable := t.modify r.id (written r) fun _ => rfl
        next := t.next
        unused := fun s hs => by
          obtain ⟨old, hold, rfl⟩ := (t.mem_modify r.id (written r) fun _ => rfl).mp hs
          split <;> exact t.unused old hold
        arrays := fun s hs => by
          obtain ⟨old, hold, rfl⟩ := (t.mem_modify r.id (written r) fun _ => rfl).mp hs
          split
          · exact fun hnone => h (.inr hnone)
          · exact t.arrays old hold
        apps := t.apps }

/-- `Delete`. -/
def delete (t : RuleTable) (id : Int) : Option RuleTable :=
  if t.find id = none then none
  else
    some
      { toTable := t.erase id
        next := t.next
        unused := fun s hs => t.unused s (t.mem_erase.mp hs).1
        arrays := fun s hs => t.arrays s (t.mem_erase.mp hs).1
        apps := t.apps }

/-- `GetByID`. -/
def getByID (t : RuleTable) (id : Int) : Option StoredRule :=
  t.find id

/-- `ListByScope`. -/
def listByScope (o : PrioritySort) (t : RuleTable) (scope appID : GoString) : List StoredRule :=
  if scope = str "global" ∨ scope = str "managed" then
    o.sort ((t.rows.filter fun r => r.scope = scope && r.enabled).map StoredRule.withoutApp)
  else o.sort (t.rows.filter (StoredRule.ofApp appID))

/-! ### Merged rules -/

/-- The enabled managed rules. -/
def managedRules (t : RuleTable) : List StoredRule :=
  (t.rows.filter StoredRule.managed).map StoredRule.withoutApp

/-- The enabled rules of an application. -/
def appRules (t : RuleTable) (app : GoString) : List StoredRule :=
  t.rows.filter (StoredRule.ofApp app)

/-- A list is a merged list of an application: exactly the enabled managed rules and the enabled
rules of the application, by priority. -/
def IsMerged (t : RuleTable) (app : GoString) (l : List StoredRule) : Prop :=
  l.Perm (t.managedRules ++ t.appRules app) ∧ l.Pairwise fun r s => r.priority ≤ s.priority

/-- Two tables give an application the same merged lists. -/
def SameMerged (t t' : RuleTable) (app : GoString) : Prop :=
  ∀ l, t.IsMerged app l ↔ t'.IsMerged app l

theorem listByScope_managed (o : PrioritySort) (t : RuleTable) :
    (t.listByScope o (str "managed") []).Perm t.managedRules := by
  rw [listByScope, if_pos (.inr rfl), managedRules]
  refine (o.perm _).trans (List.Perm.of_eq ?_)
  congr 2
  funext r
  rw [StoredRule.managed, Bool.and_comm]

theorem listByScope_app (o : PrioritySort) (t : RuleTable) (app : GoString) :
    (t.listByScope o (str "app") app).Perm (t.appRules app) := by
  rw [listByScope, if_neg (by decide)]
  exact o.perm _

/-- **The merged list** of rules that were read from one table. -/
theorem isMerged_sort (o : PrioritySort) {t : RuleTable} {app : GoString}
    {managed own : List StoredRule} (hmanaged : managed.Perm t.managedRules)
    (hown : own.Perm (t.appRules app)) : t.IsMerged app (o.sort (managed ++ own)) :=
  ⟨(o.perm _).trans (hmanaged.append hown), o.sorted _⟩

/-- What an application sees under an id. -/
def view (t : RuleTable) (app : GoString) (id : Int) : Option StoredRule :=
  (t.getByID id).bind (StoredRule.seenBy app)

end RuleTable

/-- Sorting by insertion. -/
def insertionPrioritySort : PrioritySort where
  sort := List.insertionSort fun r s => r.priority ≤ s.priority
  perm := List.perm_insertionSort _
  sorted := List.pairwise_insertionSort _

/-! ### Comparing tables -/

namespace RuleTable

variable {t t' : RuleTable} {app : GoString} {id : Int}

/-- A rule is not both managed and of an application. -/
private theorem managed_of_ofApp {r : StoredRule} (h : r.ofApp app = true) : r.managed = false := by
  have hscope : r.scope = str "app" := by
    simp only [StoredRule.ofApp, Bool.and_eq_true, decide_eq_true_eq] at h
    exact h.1.1.2
  have hne : r.scope ≠ str "managed" := by
    rw [hscope]
    decide
  simp [StoredRule.managed, hne]

theorem getByID_eq_some_iff {r : StoredRule} : t.getByID id = some r ↔ r ∈ t.rows ∧ r.id = id :=
  t.find_eq_some_iff

/-- What is seen of a rule keeps its id. -/
private theorem id_of_seenBy {r s : StoredRule} (h : r.seenBy app = some s) : s.id = r.id := by
  rw [StoredRule.seenBy] at h
  split at h
  · obtain rfl := Option.some.inj h
    rfl
  · split at h
    · obtain rfl := Option.some.inj h
      rfl
    · cases h

private theorem id_of_view {r : StoredRule} (h : t.view app id = some r) : r.id = id := by
  obtain ⟨s, hs, hseen⟩ := Option.bind_eq_some_iff.mp h
  exact (id_of_seenBy hseen).trans (getByID_eq_some_iff.mp hs).2

/-- The merged rules are those that are seen. -/
theorem mem_merged {r : StoredRule} :
    r ∈ t.managedRules ++ t.appRules app ↔ t.view app r.id = some r := by
  rw [List.mem_append, managedRules, appRules, List.mem_map, List.mem_filter, view,
    Option.bind_eq_some_iff]
  constructor
  · rintro (⟨s, hs, rfl⟩ | ⟨hr, happ⟩)
    · obtain ⟨hs, hmanaged⟩ := List.mem_filter.mp hs
      exact ⟨s, getByID_eq_some_iff.mpr ⟨hs, rfl⟩, if_pos hmanaged⟩
    · refine ⟨r, getByID_eq_some_iff.mpr ⟨hr, rfl⟩, ?_⟩
      rw [StoredRule.seenBy, if_neg (by simp [managed_of_ofApp happ]), if_pos happ]
  · rintro ⟨s, hs, hseen⟩
    have hmem := (getByID_eq_some_iff.mp hs).1
    rw [StoredRule.seenBy] at hseen
    split at hseen
    · rename_i hmanaged
      exact .inl ⟨s, List.mem_filter.mpr ⟨hmem, hmanaged⟩, Option.some.inj hseen⟩
    · split at hseen
      · rename_i happ
        obtain rfl := Option.some.inj hseen
        exact .inr ⟨hmem, happ⟩
      · cases hseen

/-- A merged rule has the priority of its row. -/
theorem priority_of_mem_merged {r : StoredRule} (h : r ∈ t.managedRules ++ t.appRules app) :
    (t.getByID r.id).map StoredRule.priority = some r.priority := by
  obtain ⟨s, hs, hseen⟩ := Option.bind_eq_some_iff.mp (mem_merged.mp h)
  rw [hs]
  rw [StoredRule.seenBy] at hseen
  split at hseen
  · obtain rfl := Option.some.inj hseen
    rfl
  · split at hseen
    · obtain rfl := Option.some.inj hseen
      rfl
    · cases hseen

/-- No rule is merged twice. -/
theorem nodup_merged_ids :
    ((t.managedRules ++ t.appRules app).map StoredRule.id).Nodup := by
  rw [List.map_append, List.nodup_append, managedRules, appRules, List.map_map]
  have hid : StoredRule.id ∘ StoredRule.withoutApp = StoredRule.id := rfl
  rw [hid]
  refine ⟨t.keys.sublist (List.filter_sublist.map _),
    t.keys.sublist (List.filter_sublist.map _), ?_⟩
  intro i hi j hj heq
  obtain ⟨r, hr, rfl⟩ := List.mem_map.mp hi
  obtain ⟨s, hs, rfl⟩ := List.mem_map.mp hj
  obtain ⟨hr, hmanaged⟩ := List.mem_filter.mp hr
  obtain ⟨hs, happ⟩ := List.mem_filter.mp hs
  obtain rfl := t.eq_of_key_eq hr hs heq
  rw [managed_of_ofApp happ] at hmanaged
  cases hmanaged

private theorem nodup_merged : (t.managedRules ++ t.appRules app).Nodup :=
  List.Nodup.of_map StoredRule.id nodup_merged_ids

/-- The merged lists are the same where the merged rules are, up to their order. -/
private theorem sameMerged_iff_perm : t.SameMerged t' app ↔
    (t.managedRules ++ t.appRules app).Perm (t'.managedRules ++ t'.appRules app) := by
  constructor
  · intro h
    have hmerged : t.IsMerged app _ :=
      isMerged_sort insertionPrioritySort (List.Perm.refl _) (List.Perm.refl _)
    exact hmerged.1.symm.trans ((h _).mp hmerged).1
  · exact fun h l => ⟨fun hl => ⟨hl.1.trans h, hl.2⟩, fun hl => ⟨hl.1.trans h.symm, hl.2⟩⟩

instance : Decidable (t.SameMerged t' app) :=
  decidable_of_iff' _ sameMerged_iff_perm

instance (l : List StoredRule) : Decidable (t.IsMerged app l) :=
  inferInstanceAs (Decidable (_ ∧ _))

/-- **The merged lists** of an application are the same in two tables exactly when it sees the same
under every id. -/
theorem sameMerged_iff : t.SameMerged t' app ↔ ∀ id, t.view app id = t'.view app id := by
  rw [sameMerged_iff_perm, List.perm_ext_iff_of_nodup nodup_merged nodup_merged]
  simp only [mem_merged]
  constructor
  · intro h id
    cases hview : t.view app id with
    | some r =>
      have hid := id_of_view hview
      subst hid
      exact ((h r).mp hview).symm
    | none =>
      cases hview' : t'.view app id with
      | none => rfl
      | some r =>
        have hid := id_of_view hview'
        subst hid
        exact hview.symm.trans ((h r).mpr hview')
  · exact fun h r => by rw [h]

/-- A change of one row shows in what is seen of it. -/
theorem sameMerged_change {k : Int} {new : Option StoredRule}
    (h : ∀ id, t'.getByID id = if id = k then new else t.getByID id) :
    t.SameMerged t' app ↔
      (t.getByID k).bind (StoredRule.seenBy app) = new.bind (StoredRule.seenBy app) := by
  rw [sameMerged_iff]
  constructor
  · intro hview
    have hk := hview k
    rwa [view, view, h k, if_pos rfl] at hk
  · intro hk id
    rw [view, view, h id]
    split
    · rename_i hid
      rw [hid]
      exact hk
    · rfl

/-! ### What a statement changes -/

theorem getByID_create {r new : StoredRule} (h : t.create r = some (t', new)) :
    new = { r with id := t.next } ∧
      ∀ id, t'.getByID id = if id = t.next then some new else t.getByID id := by
  rw [create] at h
  split at h
  · cases h
  · split at h
    · obtain ⟨rfl, rfl⟩ := Prod.mk.inj (Option.some.inj h)
      exact ⟨rfl, fun id => t.find_insert { r with id := t.next } t.getByID_next id⟩
    · cases h

theorem getByID_update {r : StoredRule} (h : t.update r = some t') (id : Int) :
    t'.getByID id = if id = r.id then (t.getByID id).map (written r) else t.getByID id := by
  rw [update] at h
  split at h
  · cases h
  · obtain rfl := Option.some.inj h
    exact t.find_modify r.id (written r) (fun _ => rfl) id

theorem exists_update {r old : StoredRule} (hold : t.getByID r.id = some old)
    (harray : r.skipModules ≠ none) : ∃ t', t.update r = some t' := by
  have hfound : ¬ (t.find r.id = none ∨ r.skipModules = none) := by
    rintro (hnone | hnone)
    · exact absurd (hnone.symm.trans hold) (by simp)
    · exact harray hnone
  rw [update, dif_neg hfound]
  exact ⟨_, rfl⟩

theorem arrays_of_update {r : StoredRule} (h : t.update r = some t') : r.skipModules ≠ none := by
  rw [update] at h
  split at h
  · cases h
  · rename_i hallowed
    exact fun hnone => hallowed (.inr hnone)

theorem getByID_delete {key : Int} (h : t.delete key = some t') (id : Int) :
    t'.getByID id = if id = key then none else t.getByID id := by
  rw [delete] at h
  split at h
  · cases h
  · obtain rfl := Option.some.inj h
    exact t.find_erase key id

end RuleTable

end VibesWaf

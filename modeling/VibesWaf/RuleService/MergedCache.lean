import VibesWaf.Lib.History
import VibesWaf.Lib.Run
import VibesWaf.RuleService.AppEndpoints

/-!
# The cache of merged rules

`LoadMergedRules` keeps the merged rules of an application in a cache, and an operation on a rule
invalidates the entry of one application, or the whole cache if the rule has none. A world holds
the table, the cache, the operations and the loads; each advances from one access of the table or
of the cache to the next.

A load that starts after an operation has returned should see it. `loadMergedRules_fresh` says that
every load does, in every run whose steps are orderly: an invalidation leaves no entry that a write
has changed since it was read, a load stores nothing that an invalidated write has changed since,
and its two reads are as if they were one. `loadMergedRules_not_fresh` has a run in which a load
stores what it read before an update, and one in which an update makes a rule of one application a
managed one.
-/

namespace VibesWaf

/-! ### Operations -/

/-- Where an operation is. Between two rules `ReorderRules` is at a position of its list; the other
operations have nothing left there. -/
inductive RuleStage
  | create (b : RuleBody)
  | update (id : Int) (b : RuleBody)
  | delete (id : Int)
  /-- `DeleteRule` has read the rule. -/
  | deleting (id : Int) (appID : GoString)
  | reorder (i : ℕ) (ids : List Int)
  /-- `ReorderRules` has read a rule and set its priority. -/
  | reordering (r : StoredRule) (i : ℕ) (ids : List Int)
  /-- A rule has been written. -/
  | invalidating (appID : GoString) (i : ℕ) (ids : List Int)
  | returned

/-- A write: the table after it, the application to invalidate, and where `ReorderRules` goes
on. -/
structure RuleWrite where
  table : RuleTable
  appID : GoString
  i : ℕ
  ids : List Int

section Write

variable [GoLib]

/-- The write of a stage that writes, if the expression compiles and the table accepts it. An update
invalidates the application of its body, a reordering and a deletion that of the rule. -/
def RuleStage.write (t : RuleTable) : RuleStage → Option RuleWrite
  | .create b =>
    match compileExpression b.expressionRaw with
    | .ok ast => (t.create (b.rule 0 ast)).map fun c => ⟨c.1, b.appID, 0, []⟩
    | .error _ => none
  | .update id b =>
    match compileExpression b.expressionRaw with
    | .ok ast => (t.update (b.rule id ast)).map fun t' => ⟨t', b.appID, 0, []⟩
    | .error _ => none
  | .deleting id appID => (t.delete id).map fun t' => ⟨t', appID, 0, []⟩
  | .reordering r i ids => (t.update r).map fun t' => ⟨t', r.appID, i, ids⟩
  | _ => none

end Write

/-- An operation, with the number of its last write, 0 if it has made none. -/
structure RuleCall where
  stage : RuleStage
  wrote : ℕ

/-! ### Loads -/

/-- An entry of the cache, with the time of its store. The number is that of the last write before
it was read. -/
structure CacheEntry where
  app : GoString
  rules : List StoredRule
  lastCache : ℤ
  version : ℕ

/-- Where a load is. The number is that of the last write before the read of the managed rules, and
then before the read at which the merged list was that of the table. -/
inductive LoadStage
  | started
  | missed
  | managed (version : ℕ) (rules : List StoredRule)
  | loaded (version : ℕ) (merged : List StoredRule)
  | answered (rules : List StoredRule)

/-- A load of `LoadMergedRules`, with the number of the last write whose operation had returned when
it started. -/
structure LoadCall where
  app : GoString
  seen : ℕ
  stage : LoadStage

/-! ### Worlds -/

/-- The table, the cache and what is under way. The tables before each write and the numbers are
kept for the statements only: `invalidated` is the last write whose invalidation is done, `returned`
the last one of an operation that has returned. -/
structure RuleWorld where
  db : RuleTable
  past : List RuleTable
  cache : Table CacheEntry.app
  calls : List RuleCall
  invalidated : ℕ
  returned : ℕ
  loads : List LoadCall

/-- What happens next; a load reads the time, and its two sorts are the database's and
`sort.Slice`. -/
inductive RuleEvent
  | createRule (b : RuleBody)
  | updateRule (id : Int) (b : RuleBody)
  | deleteRule (id : Int)
  | reorderRules (ids : List Int)
  | advance (i : ℕ)
  | loadMergedRules (app : GoString)
  | advanceLoad (i : ℕ) (now : ℤ) (orderBy sortSlice : PrioritySort)

namespace RuleWorld

/-- The tables there have been, the oldest first. -/
def tables (w : RuleWorld) : List RuleTable :=
  w.past ++ [w.db]

/-- A service with an empty cache. -/
def init (t : RuleTable) : RuleWorld :=
  ⟨t, [], .empty, [], 0, 0, []⟩

/-- The world with an operation at another stage. -/
def setStage (w : RuleWorld) (i : ℕ) (c : RuleCall) (stage : RuleStage) : RuleWorld :=
  { w with calls := w.calls.set i { c with stage := stage } }

/-- An operation returns. -/
def finish (w : RuleWorld) (i : ℕ) (c : RuleCall) : RuleWorld :=
  { w.setStage i c .returned with returned := max w.returned c.wrote }

section Step

variable [GoLib]

/-- An operation makes a write, or returns an error. -/
def write (w : RuleWorld) (i : ℕ) (c : RuleCall) : RuleWorld :=
  match c.stage.write w.db with
  | none => w.finish i c
  | some r =>
    { w with
      db := r.table
      past := w.tables
      calls := w.calls.set i ⟨.invalidating r.appID r.i r.ids, w.tables.length⟩ }

/-- `InvalidateCache`: an empty application stands for all of them. -/
def invalidateCache (cache : Table CacheEntry.app) (appID : GoString) : Table CacheEntry.app :=
  if appID = [] then .empty else cache.erase appID

/-- An operation makes its next access. -/
def advance (w : RuleWorld) (i : ℕ) (c : RuleCall) : RuleWorld :=
  match c.stage with
  | .delete id =>
    match w.db.getByID id with
    | none => w.finish i c
    | some r => w.setStage i c (.deleting id r.appID)
  | .reorder _ [] => w.finish i c
  | .reorder k (id :: ids) =>
    match w.db.getByID id with
    | none => w.setStage i c (.reorder (k + 1) ids)
    | some r => w.setStage i c (.reordering { r with priority := ((k : Int) + 1) * 10 } (k + 1) ids)
  | .invalidating appID k ids =>
    { w.setStage i c (.reorder k ids) with
      cache := invalidateCache w.cache appID
      invalidated := max w.invalidated c.wrote }
  | .returned => w
  | _ => w.write i c

/-- A load makes its next access: the cache after it, and where the load is. -/
def advanceLoad (cacheTTL : ℤ) (w : RuleWorld) (l : LoadCall) (now : ℤ)
    (orderBy sortSlice : PrioritySort) : Table CacheEntry.app × LoadStage :=
  match l.stage with
  | .started =>
    match w.cache.find l.app with
    | some e => (w.cache, if now - e.lastCache < cacheTTL then .answered e.rules else .missed)
    | none => (w.cache, .missed)
  | .missed => (w.cache, .managed w.past.length (w.db.listByScope orderBy (str "managed") []))
  | .managed version rules =>
    (w.cache, .loaded (if rules.Perm w.db.managedRules then w.past.length else version)
      (sortSlice.sort (rules ++ w.db.listByScope orderBy (str "app") l.app)))
  | .loaded version merged => (w.cache.put ⟨l.app, merged, now, version⟩, .answered merged)
  | .answered rules => (w.cache, .answered rules)

/-- One event. -/
def step (cacheTTL : ℤ) (w : RuleWorld) : RuleEvent → RuleWorld
  | .createRule b => { w with calls := w.calls ++ [⟨.create b, 0⟩] }
  | .updateRule id b => { w with calls := w.calls ++ [⟨.update id b, 0⟩] }
  | .deleteRule id => { w with calls := w.calls ++ [⟨.delete id, 0⟩] }
  | .reorderRules ids => { w with calls := w.calls ++ [⟨.reorder 0 ids, 0⟩] }
  | .advance i =>
    match w.calls[i]? with
    | some c => w.advance i c
    | none => w
  | .loadMergedRules app => { w with loads := w.loads ++ [⟨app, w.returned, .started⟩] }
  | .advanceLoad i now orderBy sortSlice =>
    match w.loads[i]? with
    | some l =>
      let next := w.advanceLoad cacheTTL l now orderBy sortSlice
      { w with cache := next.1, loads := w.loads.set i { l with stage := next.2 } }
    | none => w

/-- The world after some events. -/
def run (cacheTTL : ℤ) (t : RuleTable) (events : List RuleEvent) : RuleWorld :=
  events.foldl (step cacheTTL) (init t)

theorem run_append (cacheTTL : ℤ) (t : RuleTable) (events : List RuleEvent) (e : RuleEvent) :
    run cacheTTL t (events ++ [e]) = (run cacheTTL t events).step cacheTTL e := by
  rw [run, List.foldl_append]
  rfl

end Step

end RuleWorld

/-! ### Freshness -/

/-- A load that has answered has the merged rules of its application, as they were after the
operations that had returned when it started, or later. -/
def LoadCall.Fresh (tables : List RuleTable) (l : LoadCall) : Prop :=
  match l.stage with
  | .answered rules => ∃ t ∈ tables.drop l.seen, t.IsMerged l.app rules
  | _ => True

instance LoadCall.decidableFresh (tables : List RuleTable) (l : LoadCall) :
    Decidable (l.Fresh tables) := by
  unfold LoadCall.Fresh
  split <;> infer_instance

/-- Every load has seen the operations that had returned when it started. -/
def RuleWorld.Fresh (w : RuleWorld) : Prop :=
  ∀ l ∈ w.loads, l.Fresh w.tables

instance RuleWorld.decidableFresh (w : RuleWorld) : Decidable w.Fresh :=
  inferInstanceAs (Decidable (∀ l ∈ w.loads, l.Fresh w.tables))

/-- The writes from some number up to another leave the merged rules of an application as they
are. -/
def Unaffected (tables : List RuleTable) (app : GoString) (v n : ℕ) : Prop :=
  ∀ p ≤ n, v < p → ∃ t ∈ tables[p - 1]?, ∃ t' ∈ tables[p]?, t.SameMerged t' app

instance (tables : List RuleTable) (app : GoString) (v n : ℕ) :
    Decidable (Unaffected tables app v n) := by
  unfold Unaffected
  infer_instance

/-- An operation leaves no entry in the cache that a write has changed since it was read, up to its
own. -/
def RuleCall.Orderly (w : RuleWorld) (c : RuleCall) : Prop :=
  match c.stage with
  | .invalidating appID _ _ =>
    appID = [] ∨ ∀ e ∈ w.cache.rows, e.app ≠ appID → Unaffected w.tables e.app e.version c.wrote
  | _ => True

instance (w : RuleWorld) (c : RuleCall) : Decidable (c.Orderly w) := by
  unfold RuleCall.Orderly
  split <;> infer_instance

/-- Between its reads a load sees the managed rules or those of its application unchanged, and it
stores nothing that an invalidated write has changed since. -/
def LoadCall.Orderly (w : RuleWorld) (l : LoadCall) : Prop :=
  match l.stage with
  | .managed version rules =>
    rules.Perm w.db.managedRules ∨
      ∃ t ∈ w.tables[version]?, (t.appRules l.app).Perm (w.db.appRules l.app)
  | .loaded version _ => Unaffected w.tables l.app version w.invalidated
  | _ => True

instance (w : RuleWorld) (l : LoadCall) : Decidable (l.Orderly w) := by
  unfold LoadCall.Orderly
  split <;> infer_instance

/-- The condition on a step. -/
def RuleWorld.Orderly (w : RuleWorld) : RuleEvent → Prop
  | .advance i => ∀ c ∈ w.calls[i]?, c.Orderly w
  | .advanceLoad i _ _ _ => ∀ l ∈ w.loads[i]?, l.Orderly w
  | _ => True

instance (w : RuleWorld) (e : RuleEvent) : Decidable (w.Orderly e) := by
  unfold RuleWorld.Orderly
  split <;> infer_instance

/-! ### What is under way -/

/-- What is known of an entry: it holds merged rules that no invalidated write has changed. -/
def CacheEntry.Sound (w : RuleWorld) (e : CacheEntry) : Prop :=
  (∃ t ∈ w.tables[e.version]?, t.IsMerged e.app e.rules) ∧
    Unaffected w.tables e.app e.version w.invalidated

/-- What is known of an operation: its last write is invalidated, unless that comes next. -/
def RuleCall.Sound (w : RuleWorld) (c : RuleCall) : Prop :=
  match c.stage with
  | .invalidating _ _ _ => c.wrote ≤ w.past.length
  | _ => c.wrote ≤ w.invalidated

/-- What is known of a load. -/
def LoadCall.Sound (w : RuleWorld) (l : LoadCall) : Prop :=
  match l.stage with
  | .managed version rules =>
    l.seen ≤ version ∧ ∃ t ∈ w.tables[version]?, rules.Perm t.managedRules
  | .loaded version merged =>
    l.seen ≤ version ∧ ∃ t ∈ w.tables[version]?, t.IsMerged l.app merged
  | _ => True

/-- What holds along a run: a write is invalidated before its operation returns, and what is cached,
and what the loads have read, is no older than they should be. -/
structure RuleWorld.Sound (w : RuleWorld) : Prop where
  invalidated : w.invalidated ≤ w.past.length
  returned : w.returned ≤ w.invalidated
  cached : ∀ e ∈ w.cache.rows, e.Sound w
  calls : ∀ c ∈ w.calls, c.Sound w
  seen : ∀ l ∈ w.loads, l.seen ≤ w.returned
  loads : ∀ l ∈ w.loads, l.Sound w
  fresh : w.Fresh

variable {w w' : RuleWorld} {app : GoString}

private theorem Unaffected.mono {tables tables' : List RuleTable} {v n : ℕ}
    (h : Unaffected tables app v n) (hpre : tables <+: tables') : Unaffected tables' app v n := by
  intro p hp hv
  obtain ⟨t, ht, t', ht', hsame⟩ := h p hp hv
  exact ⟨t, getElem?_of_prefix ht hpre, t', getElem?_of_prefix ht' hpre, hsame⟩

private theorem CacheEntry.Sound.mono {e : CacheEntry} (h : e.Sound w)
    (htables : w.tables <+: w'.tables) (hinvalidated : w'.invalidated = w.invalidated) :
    e.Sound w' := by
  obtain ⟨⟨t, ht, hmerged⟩, hunaffected⟩ := h
  refine ⟨⟨t, getElem?_of_prefix ht htables, hmerged⟩, ?_⟩
  rw [hinvalidated]
  exact hunaffected.mono htables

private theorem RuleCall.Sound.mono {c : RuleCall} (h : c.Sound w)
    (hpast : w.past.length ≤ w'.past.length) (hinvalidated : w.invalidated ≤ w'.invalidated) :
    c.Sound w' := by
  obtain ⟨stage, wrote⟩ := c
  cases stage with
  | invalidating appID i ids => exact Nat.le_trans h hpast
  | _ => exact Nat.le_trans h hinvalidated

private theorem LoadCall.Sound.mono {l : LoadCall} (h : l.Sound w)
    (htables : w.tables <+: w'.tables) : l.Sound w' := by
  obtain ⟨app, seen, stage⟩ := l
  cases stage with
  | managed version rules =>
    obtain ⟨hseen, t, ht, hrules⟩ := h
    exact ⟨hseen, t, getElem?_of_prefix ht htables, hrules⟩
  | loaded version merged =>
    obtain ⟨hseen, t, ht, hmerged⟩ := h
    exact ⟨hseen, t, getElem?_of_prefix ht htables, hmerged⟩
  | started => trivial
  | missed => trivial
  | answered rules => trivial

private theorem LoadCall.Fresh.mono {l : LoadCall} {tables tables' : List RuleTable}
    (h : l.Fresh tables) (hpre : tables <+: tables') : l.Fresh tables' := by
  obtain ⟨app, seen, stage⟩ := l
  cases stage with
  | answered rules =>
    obtain ⟨t, ht, hmerged⟩ := h
    exact ⟨t, (hpre.drop seen).subset ht, hmerged⟩
  | started => trivial
  | missed => trivial
  | managed version rules => trivial
  | loaded version merged => trivial

private theorem RuleWorld.init_sound (t : RuleTable) : (RuleWorld.init t).Sound where
  invalidated := Nat.le_refl 0
  returned := Nat.le_refl 0
  cached := by simp [RuleWorld.init, Table.empty]
  calls := by simp [RuleWorld.init]
  seen := by simp [RuleWorld.init]
  loads := by simp [RuleWorld.init]
  fresh := by simp [RuleWorld.init, RuleWorld.Fresh]

/-! ### Every step -/

namespace RuleWorld

private theorem setStage_sound (hw : w.Sound) (i : ℕ) {c : RuleCall} {stage : RuleStage}
    (hc : RuleCall.Sound w { c with stage := stage }) : (w.setStage i c stage).Sound :=
  { hw with calls := forall_mem_set hw.calls i hc }

private theorem finish_sound (hw : w.Sound) (i : ℕ) {c : RuleCall} (hc : c.wrote ≤ w.invalidated) :
    (w.finish i c).Sound where
  invalidated := hw.invalidated
  returned := max_le hw.returned hc
  cached := hw.cached
  calls := forall_mem_set hw.calls i hc
  seen := fun l hl => (hw.seen l hl).trans (le_max_left _ _)
  loads := hw.loads
  fresh := hw.fresh

/-- **An invalidation** leaves what no write up to its own has changed. -/
private theorem invalidate_sound (hw : w.Sound) (i : ℕ) {c : RuleCall} {appID : GoString} {k : ℕ}
    {ids : List Int} (hwrote : c.wrote ≤ w.past.length)
    (hleft : appID = [] ∨
      ∀ e ∈ w.cache.rows, e.app ≠ appID → Unaffected w.tables e.app e.version c.wrote) :
    Sound { w.setStage i c (.reorder k ids) with
      cache := invalidateCache w.cache appID
      invalidated := max w.invalidated c.wrote } where
  invalidated := max_le hw.invalidated hwrote
  returned := hw.returned.trans (le_max_left _ _)
  cached := by
    intro e he
    by_cases happ : appID = []
    · have hempty : e ∈ (Table.empty : Table CacheEntry.app).rows := by
        rwa [invalidateCache, if_pos happ] at he
      cases hempty
    · obtain ⟨hcached, hne⟩ : e ∈ w.cache.rows ∧ e.app ≠ appID := by
        rwa [invalidateCache, if_neg happ, Table.mem_erase] at he
      obtain ⟨hmerged, hunaffected⟩ := hw.cached e hcached
      refine ⟨hmerged, fun p hp hv => ?_⟩
      rcases le_max_iff.mp hp with hp | hp
      · exact hunaffected p hp hv
      · exact hleft.resolve_left happ e hcached hne p hp hv
  calls := by
    refine forall_mem_set (fun c' hc' => ?_) i (le_max_right _ _)
    exact (hw.calls c' hc').mono (Nat.le_refl _) (le_max_left _ _)
  seen := hw.seen
  loads := hw.loads
  fresh := hw.fresh

/-- **An entry of the cache** answers with what a load that starts now should see. -/
private theorem fresh_of_cached (hw : w.Sound) {e : CacheEntry} (he : e ∈ w.cache.rows) {n : ℕ}
    (hn : n ≤ w.returned) : ∃ t ∈ w.tables.drop n, t.IsMerged e.app e.rules := by
  obtain ⟨⟨t, ht, hmerged⟩, hunaffected⟩ := hw.cached e he
  refine exists_mem_drop ht hmerged fun p hp hv => ?_
  obtain ⟨r, hr, r', hr', hsame⟩ := hunaffected p (hp.trans (hn.trans hw.returned)) hv
  exact ⟨r, hr, r', hr', (hsame e.rules).mp⟩

/-- The merged list of a load's two reads is that of the table at one of them. -/
private theorem isMerged_of_reads (hw : w.Sound) {version n : ℕ} {rules : List StoredRule}
    {t : RuleTable} (ht : t ∈ w.tables[version]?) (hrules : rules.Perm t.managedRules)
    (hn : n ≤ version) (hreturned : n ≤ w.returned)
    (horderly : rules.Perm w.db.managedRules ∨
      ∃ t ∈ w.tables[version]?, (t.appRules app).Perm (w.db.appRules app))
    (orderBy sortSlice : PrioritySort) :
    LoadCall.Sound w
      ⟨app, n, .loaded (if rules.Perm w.db.managedRules then w.past.length else version)
        (sortSlice.sort (rules ++ w.db.listByScope orderBy (str "app") app))⟩ := by
  have hown := RuleTable.listByScope_app orderBy w.db app
  by_cases hdb : rules.Perm w.db.managedRules
  · rw [if_pos hdb]
    refine ⟨hreturned.trans (hw.returned.trans hw.invalidated), w.db, ?_, ?_⟩
    · simp [tables]
    · exact RuleTable.isMerged_sort sortSlice hdb hown
  · rw [if_neg hdb]
    obtain ⟨t', ht', happ⟩ := horderly.resolve_left hdb
    obtain rfl := Option.mem_unique ht ht'
    exact ⟨hn, t, ht, RuleTable.isMerged_sort sortSlice hrules (hown.trans happ.symm)⟩

/-- A load that advances. -/
private theorem advanceLoad_sound (cacheTTL : ℤ) (hw : w.Sound) {l : LoadCall}
    (hseen : l.seen ≤ w.returned) (hl : l.Sound w) (hfresh : l.Fresh w.tables)
    (horderly : l.Orderly w) (now : ℤ) (orderBy sortSlice : PrioritySort) :
    (∀ e ∈ (w.advanceLoad cacheTTL l now orderBy sortSlice).1.rows, e.Sound w) ∧
      LoadCall.Sound w { l with stage := (w.advanceLoad cacheTTL l now orderBy sortSlice).2 } ∧
      LoadCall.Fresh w.tables
        { l with stage := (w.advanceLoad cacheTTL l now orderBy sortSlice).2 } := by
  obtain ⟨app, seen, stage⟩ := l
  cases stage with
  | started =>
    cases hfind : w.cache.find app with
    | none =>
      simp only [advanceLoad, hfind]
      exact ⟨hw.cached, trivial, trivial⟩
    | some e =>
      obtain ⟨he, happ⟩ := w.cache.find_eq_some_iff.mp hfind
      simp only [advanceLoad, hfind]
      refine ⟨hw.cached, ?_⟩
      split
      · refine ⟨trivial, ?_⟩
        obtain rfl : e.app = app := happ
        exact fresh_of_cached hw he hseen
      · exact ⟨trivial, trivial⟩
  | missed =>
    refine ⟨hw.cached, ⟨hseen.trans (hw.returned.trans hw.invalidated), w.db, ?_, ?_⟩, trivial⟩
    · simp [tables]
    · exact RuleTable.listByScope_managed orderBy w.db
  | managed version rules =>
    obtain ⟨hversion, t, ht, hrules⟩ := hl
    exact ⟨hw.cached, isMerged_of_reads hw ht hrules hversion hseen horderly orderBy sortSlice,
      trivial⟩
  | loaded version merged =>
    obtain ⟨hversion, t, ht, hmerged⟩ := hl
    refine ⟨fun e he => ?_, trivial, t, mem_drop_of_getElem? ht hversion, hmerged⟩
    rcases (w.cache.mem_put _).mp he with rfl | ⟨he, -⟩
    · exact ⟨⟨t, ht, hmerged⟩, horderly⟩
    · exact hw.cached e he
  | answered rules => exact ⟨hw.cached, trivial, hfresh⟩

section Step

variable [GoLib]

/-- A write makes the history longer and is still to be invalidated. -/
private theorem write_sound (hw : w.Sound) (i : ℕ) {c : RuleCall} (hc : c.wrote ≤ w.invalidated) :
    (w.write i c).Sound := by
  rw [write]
  cases hwrite : c.stage.write w.db with
  | none => exact finish_sound hw i hc
  | some r =>
    have htables : w.tables <+: w.tables ++ [r.table] := List.prefix_append _ _
    have hlength : w.past.length ≤ w.tables.length := by simp [tables]
    exact
      { invalidated := hw.invalidated.trans hlength
        returned := hw.returned
        cached := fun e he => (hw.cached e he).mono htables rfl
        calls := by
          refine forall_mem_set (fun c' hc' => ?_) i (Nat.le_refl _)
          exact (hw.calls c' hc').mono hlength (Nat.le_refl _)
        seen := hw.seen
        loads := fun l hl => (hw.loads l hl).mono htables
        fresh := fun l hl => (hw.fresh l hl).mono htables }

/-- An operation that advances. -/
private theorem advance_sound (hw : w.Sound) (i : ℕ) {c : RuleCall} (hc : c.Sound w)
    (horderly : c.Orderly w) : (w.advance i c).Sound := by
  obtain ⟨stage, wrote⟩ := c
  cases stage with
  | create b => exact write_sound hw i hc
  | update id b => exact write_sound hw i hc
  | delete id =>
    simp only [advance]
    split
    · exact finish_sound hw i hc
    · exact setStage_sound hw i hc
  | deleting id appID => exact write_sound hw i hc
  | reorder k ids =>
    cases ids with
    | nil => exact finish_sound hw i hc
    | cons id ids =>
      simp only [advance]
      split <;> exact setStage_sound hw i hc
  | reordering r k ids => exact write_sound hw i hc
  | invalidating appID k ids => exact invalidate_sound hw i hc horderly
  | returned => exact hw

/-- **One step** keeps what is known along a run, if it is orderly. -/
private theorem step_sound (cacheTTL : ℤ) {e : RuleEvent} (hw : w.Sound) (he : w.Orderly e) :
    (w.step cacheTTL e).Sound := by
  have hcall : ∀ stage : RuleStage, RuleCall.Sound w ⟨stage, 0⟩ := by
    intro stage
    cases stage <;> exact Nat.zero_le _
  cases e with
  | createRule b => exact { hw with calls := forall_mem_snoc hw.calls (hcall _) }
  | updateRule id b => exact { hw with calls := forall_mem_snoc hw.calls (hcall _) }
  | deleteRule id => exact { hw with calls := forall_mem_snoc hw.calls (hcall _) }
  | reorderRules ids => exact { hw with calls := forall_mem_snoc hw.calls (hcall _) }
  | advance i =>
    rw [step]
    cases hc : w.calls[i]? with
    | none => exact hw
    | some c => exact advance_sound hw i (hw.calls c (List.mem_of_getElem? hc)) (he c hc)
  | loadMergedRules app =>
    exact
      { hw with
        seen := forall_mem_snoc hw.seen (Nat.le_refl _)
        loads := forall_mem_snoc hw.loads trivial
        fresh := forall_mem_snoc hw.fresh trivial }
  | advanceLoad i now orderBy sortSlice =>
    rw [step]
    cases hl : w.loads[i]? with
    | none => exact hw
    | some l =>
      have hmem := List.mem_of_getElem? hl
      obtain ⟨hcached, hsound, hfresh⟩ := advanceLoad_sound cacheTTL hw (hw.seen l hmem)
        (hw.loads l hmem) (hw.fresh l hmem) (he l hl) now orderBy sortSlice
      exact
        { hw with
          cached := hcached
          seen := forall_mem_set hw.seen i (hw.seen l hmem)
          loads := forall_mem_set hw.loads i hsound
          fresh := forall_mem_set hw.fresh i hfresh }

end Step

end RuleWorld

/-- **Fresh loads.** In a run in which every invalidation covers the entries that a write has
changed, and every load is orderly, each load answers with the enabled managed rules and those of
its application, by priority, as they are stored after the operations that had returned when it
started, or later. -/
theorem loadMergedRules_fresh [GoLib] (cacheTTL : ℤ) (t : RuleTable) (events : List RuleEvent)
    (horderly : ∀ i (hi : i < events.length),
      (RuleWorld.run cacheTTL t (events.take i)).Orderly events[i]) :
    (RuleWorld.run cacheTTL t events).Fresh := by
  suffices hsound : (RuleWorld.run cacheTTL t events).Sound from hsound.fresh
  refine run_induction (P := fun past => (RuleWorld.run cacheTTL t past).Sound)
    (RuleWorld.init_sound t) ?_
  intro past e hpast ih
  rw [RuleWorld.run_append]
  exact RuleWorld.step_sound cacheTTL ih (forall_snoc
    (C := fun past e => (RuleWorld.run cacheTTL t past).Orderly e) horderly past e hpast)

/-! ### Some runs -/

section Sample

attribute [local instance] asciiLib

/-- A rule of an application of the sample, as an update sends it. -/
def sampleUpdate (app scope : GoString) (enabled : Bool) : RuleBody where
  name := str "rule"
  scope := scope
  appID := app
  ruleGroup := str "custom"
  expressionRaw := str "http.path eq \"/admin\""
  action := str "block"
  skipModules := some []
  priority := 10
  enabled := enabled
  description := []

/-- All the accesses of a load. -/
def sampleLoad (i : ℕ) : List RuleEvent :=
  List.replicate 4 (.advanceLoad i 0 insertionPrioritySort insertionPrioritySort)

/-- One application is loaded, one of its rules is switched off, the other application is loaded
before the invalidation, and the first one is loaded again. -/
theorem loadMergedRules_fresh_update :
    (RuleWorld.run 300 sampleRules
      (.loadMergedRules (str "blog") :: sampleLoad 0 ++
        [.updateRule 1 (sampleUpdate (str "blog") (str "app") false), .advance 0,
          .loadMergedRules (str "shop")] ++ sampleLoad 1 ++
        [.advance 0, .advance 0, .loadMergedRules (str "blog")] ++ sampleLoad 2)).Fresh :=
  loadMergedRules_fresh 300 sampleRules _ (by decide)

/-- A load that read the rules before one of them was switched off stores them after the update has
returned; and an update that makes a rule a managed one leaves the entry of the other application.
In both runs the next load answers from the cache with what is no longer stored. -/
theorem loadMergedRules_not_fresh :
    let stale := RuleWorld.run 300 sampleRules
      (.loadMergedRules (str "blog") :: (sampleLoad 0).take 3 ++
        [.updateRule 1 (sampleUpdate (str "blog") (str "app") false), .advance 0, .advance 0,
          .advance 0] ++ sampleLoad 0 ++ .loadMergedRules (str "blog") :: sampleLoad 1)
    let uncovered := RuleWorld.run 300 sampleRules
      (.loadMergedRules (str "blog") :: sampleLoad 0 ++
        [.updateRule 3 (sampleUpdate (str "shop") (str "managed") true), .advance 0, .advance 0,
          .advance 0] ++ .loadMergedRules (str "blog") :: sampleLoad 1)
    (stale.returned = 1 ∧ ¬ stale.Fresh) ∧ uncovered.returned = 1 ∧ ¬ uncovered.Fresh := by
  decide

end Sample

end VibesWaf

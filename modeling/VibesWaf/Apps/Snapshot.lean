import VibesWaf.Apps.Repository
import VibesWaf.Lib.History
import VibesWaf.Lib.Run

/-!
# The snapshot of applications

`AppService` answers from a snapshot of the table, which it replaces after each operation and every
30 seconds. A reload is a read of the table and, later, a store of the snapshot, and several may be
under way at a time. A world holds the table, the snapshot, the calls and reloads that are under
way, and the lookups; an operation, a reload or a lookup advances from one atomic access to the
next.

A lookup should see a table at least as new as every operation that has returned before it.
`lookup_fresh` says that it does in every run in which no reload stores what it read before an
operation whose own snapshot is already stored; `lookup_not_fresh` is a run in which one does.
-/

namespace VibesWaf

/-! ### Snapshots -/

/-- `appSnapshot`. -/
structure AppSnapshot where
  byDomain : GoString → Option StoredApp
  byID : GoString → Option StoredApp

/-- The loop of `reloadSnapshot` over the applications. -/
def AppSnapshot.load (apps : List StoredApp) : AppSnapshot where
  byDomain := apps.foldl (fun m a d => if d = a.domain then some a else m d) fun _ => none
  byID := apps.foldl (fun m a id => if id = a.id then some a else m id) fun _ => none

@[simp] theorem AppSnapshot.load_byDomain (t : AppTable) (domain : GoString) :
    (AppSnapshot.load t.listAll).byDomain domain = t.getByDomain domain :=
  Table.foldl_index t.domains domain

@[simp] theorem AppSnapshot.load_byID (t : AppTable) (id : GoString) :
    (AppSnapshot.load t.listAll).byID id = t.getByID id :=
  Table.foldl_index t.keys id

/-! ### Operations and lookups -/

/-- An operation, with what it asks of the repository once the record has been accepted. -/
inductive AppOperation
  | createApp (a : StoredApp)
  | updateApp (a : StoredApp)
  | deleteApp (id : GoString)
  | toggleUnderAttackMode (appID : GoString) (enabled : Bool)

/-- The statement of an operation. -/
def AppOperation.write (t : AppTable) : AppOperation → Option AppTable
  | .createApp a => t.create a
  | .updateApp a => t.update a
  | .deleteApp id => t.delete id
  | .toggleUnderAttackMode appID enabled => some (t.toggleUnderAttackMode appID enabled)

/-- A snapshot that has been read, with the number of writes before the read; only the proofs know
the number. -/
structure LoadedSnapshot where
  snapshot : AppSnapshot
  version : ℕ

/-- Where an operation or a reload is. The number is that of its own write, 0 if it made none. -/
inductive ReloadStage
  | called (op : AppOperation)
  | reloading (wrote : ℕ)
  | loaded (wrote : ℕ) (l : LoadedSnapshot)
  | stored (wrote : ℕ)
  | returned (wrote : ℕ)

/-- A lookup. -/
inductive AppLookup
  | getApp (id : GoString)
  | getAppByDomain (domain : GoString)

/-- What a table answers to a lookup. -/
def AppLookup.answer (t : AppTable) : AppLookup → Option StoredApp
  | .getApp id => t.getByID id
  | .getAppByDomain domain => t.getByDomain domain

/-- Where a lookup is. -/
inductive LookupStage
  | started
  /-- `GetApp` has not found the id in the snapshot. -/
  | missed
  | answered (a : Option StoredApp)

/-- A lookup that is under way or answered, with the number of the last write whose operation had
returned when it started. -/
structure LookupCall where
  lookup : AppLookup
  seen : ℕ
  stage : LookupStage

/-! ### Worlds -/

/-- The table, the snapshot, and what is under way. The tables before each write and the two
numbers are kept for the statements only: `settled` is the last write of an operation whose own
snapshot has been stored, `returned` of one that has returned. -/
structure AppWorld where
  db : AppTable
  past : List AppTable
  snapshot : LoadedSnapshot
  calls : List ReloadStage
  settled : ℕ
  returned : ℕ
  lookups : List LookupCall

/-- What happens next. -/
inductive AppEvent
  | call (op : AppOperation)
  | tick
  | advance (i : ℕ)
  | lookup (q : AppLookup)
  | advanceLookup (i : ℕ)

namespace AppWorld

/-- The tables there have been, the oldest first. -/
def tables (w : AppWorld) : List AppTable :=
  w.past ++ [w.db]

/-- A service that has loaded its first snapshot. -/
def init (t : AppTable) : AppWorld :=
  ⟨t, [], ⟨.load t.listAll, 0⟩, [], 0, 0, []⟩

/-- A call or reload makes its next access. -/
def advance (w : AppWorld) (i : ℕ) : ReloadStage → AppWorld
  | .called op =>
    match op.write w.db with
    | some t =>
      { w with db := t, past := w.tables, calls := w.calls.set i (.reloading w.tables.length) }
    -- the error is returned at once
    | none => { w with calls := w.calls.set i (.returned 0) }
  | .reloading wrote =>
    { w with calls := w.calls.set i (.loaded wrote ⟨.load w.db.listAll, w.past.length⟩) }
  | .loaded wrote l =>
    { w with snapshot := l, settled := max w.settled wrote, calls := w.calls.set i (.stored wrote) }
  | .stored wrote =>
    { w with returned := max w.returned wrote, calls := w.calls.set i (.returned wrote) }
  | .returned _ => w

/-- A lookup makes its next access: `GetApp` asks the table for an id that the snapshot has not,
`GetAppByDomain` answers from the snapshot alone. -/
def advanceLookup (w : AppWorld) (q : LookupCall) : LookupStage :=
  match q.stage, q.lookup with
  | .started, .getApp id =>
    match w.snapshot.snapshot.byID id with
    | some a => .answered (some a)
    | none => .missed
  | .started, .getAppByDomain domain => .answered (w.snapshot.snapshot.byDomain domain)
  | .missed, .getApp id => .answered (w.db.getByID id)
  | .missed, .getAppByDomain domain => .answered (w.db.getByDomain domain)
  | .answered a, _ => .answered a

/-- One event. -/
def step (w : AppWorld) : AppEvent → AppWorld
  | .call op => { w with calls := w.calls ++ [.called op] }
  | .tick => { w with calls := w.calls ++ [.reloading 0] }
  | .advance i =>
    match w.calls[i]? with
    | some stage => w.advance i stage
    | none => w
  | .lookup q => { w with lookups := w.lookups ++ [⟨q, w.returned, .started⟩] }
  | .advanceLookup i =>
    match w.lookups[i]? with
    | some q => { w with lookups := w.lookups.set i { q with stage := w.advanceLookup q } }
    | none => w

/-- The world after some events. -/
def run (t : AppTable) (events : List AppEvent) : AppWorld :=
  events.foldl step (init t)

theorem run_append (t : AppTable) (events : List AppEvent) (e : AppEvent) :
    run t (events ++ [e]) = (run t events).step e := by
  rw [run, List.foldl_append]
  rfl

end AppWorld

/-- An answer is one of the table as it was after some number of writes, or later. -/
def LookupCall.Fresh (tables : List AppTable) (q : LookupCall) : Prop :=
  match q.stage with
  | .answered a => ∃ t ∈ tables.drop q.seen, q.lookup.answer t = a
  | _ => True

instance (tables : List AppTable) (q : LookupCall) : Decidable (q.Fresh tables) := by
  unfold LookupCall.Fresh
  split <;> infer_instance

/-- Every lookup has seen the operations that had returned when it started. -/
def AppWorld.Fresh (w : AppWorld) : Prop :=
  ∀ q ∈ w.lookups, q.Fresh w.tables

instance (w : AppWorld) : Decidable w.Fresh :=
  inferInstanceAs (Decidable (∀ q ∈ w.lookups, q.Fresh w.tables))

/-- The event does not store a snapshot that was read before a write whose operation has already
stored its own. -/
def AppWorld.InOrder (w : AppWorld) : AppEvent → Prop
  | .advance i =>
    match w.calls[i]? with
    | some (.loaded _ l) => w.settled ≤ l.version
    | _ => True
  | _ => True

instance (w : AppWorld) (e : AppEvent) : Decidable (w.InOrder e) := by
  unfold AppWorld.InOrder
  split
  · split <;> infer_instance
  · infer_instance

/-! ### What is under way -/

/-- A snapshot holds the table as it was after some number of writes. -/
def LoadedSnapshot.Of (l : LoadedSnapshot) (tables : List AppTable) : Prop :=
  ∃ t, tables[l.version]? = some t ∧ l.snapshot = .load t.listAll

/-- What is known of a call at its stage. -/
def ReloadStage.Sound (w : AppWorld) : ReloadStage → Prop
  | .called _ => True
  | .reloading wrote => wrote ≤ w.past.length
  | .loaded wrote l => wrote ≤ l.version ∧ l.Of w.tables
  | .stored wrote => wrote ≤ w.settled
  | .returned _ => True

/-- What holds along a run: the snapshot is no older than what is settled, and an operation returns
after it is settled. -/
structure AppWorld.Sound (w : AppWorld) : Prop where
  snapshot : w.snapshot.Of w.tables
  settled : w.settled ≤ w.snapshot.version
  returned : w.returned ≤ w.settled
  calls : ∀ c ∈ w.calls, c.Sound w
  seen : ∀ q ∈ w.lookups, q.seen ≤ w.returned
  fresh : w.Fresh

/-- A snapshot of the tables so far is one of the tables later. -/
private theorem LoadedSnapshot.Of.mono {l : LoadedSnapshot} {tables tables' : List AppTable}
    (h : l.Of tables) (hpre : tables <+: tables') : l.Of tables' := by
  obtain ⟨t, ht, hsnap⟩ := h
  exact ⟨t, getElem?_of_prefix ht hpre, hsnap⟩

private theorem LookupCall.Fresh.mono {q : LookupCall} {tables tables' : List AppTable}
    (h : q.Fresh tables) (hpre : tables <+: tables') : q.Fresh tables' := by
  obtain ⟨lookup, seen, stage⟩ := q
  cases stage with
  | started => trivial
  | missed => trivial
  | answered a =>
    obtain ⟨t, ht, ha⟩ := h
    exact ⟨t, (hpre.drop seen).subset ht, ha⟩

private theorem ReloadStage.Sound.mono {w w' : AppWorld} {c : ReloadStage} (h : c.Sound w)
    (hpast : w.past.length ≤ w'.past.length) (hsettled : w.settled ≤ w'.settled)
    (htables : w.tables <+: w'.tables) : c.Sound w' := by
  cases c with
  | called op => trivial
  | reloading wrote => exact Nat.le_trans h hpast
  | loaded wrote l => exact ⟨h.1, h.2.mono htables⟩
  | stored wrote => exact Nat.le_trans h hsettled
  | returned wrote => trivial

private theorem init_sound (t : AppTable) : (AppWorld.init t).Sound where
  snapshot := ⟨t, rfl, rfl⟩
  settled := Nat.le_refl 0
  returned := Nat.le_refl 0
  calls := by simp [AppWorld.init]
  seen := by simp [AppWorld.init]
  fresh := by simp [AppWorld.init, AppWorld.Fresh]

/-! ### Every step -/

namespace AppWorld

/-- The version of a loaded snapshot is that of a table. -/
private theorem version_le {w : AppWorld} (hw : w.Sound) : w.snapshot.version ≤ w.past.length := by
  obtain ⟨t, ht, -⟩ := hw.snapshot
  have hlt := (List.getElem?_eq_some_iff.mp ht).1
  simp only [tables, List.length_append, List.length_singleton] at hlt
  omega

/-- A call that advances. -/
private theorem advance_sound {w : AppWorld} (hw : w.Sound) (i : ℕ) {stage : ReloadStage}
    (hstage : stage.Sound w)
    (horder : ∀ wrote l, stage = .loaded wrote l → w.settled ≤ l.version) :
    (w.advance i stage).Sound := by
  cases stage with
  | called op =>
    rw [advance]
    cases op.write w.db with
    | none => exact { hw with calls := forall_mem_set hw.calls i trivial }
    | some t =>
      have htables : w.tables <+: w.tables ++ [t] := List.prefix_append _ _
      have hlength : w.past.length ≤ w.tables.length := by simp [tables]
      exact
        { snapshot := hw.snapshot.mono htables
          settled := hw.settled
          returned := hw.returned
          calls := by
            refine forall_mem_set (fun c hc => ?_) i (Nat.le_refl _)
            exact (hw.calls c hc).mono hlength (Nat.le_refl _) htables
          seen := hw.seen
          fresh := fun q hq => (hw.fresh q hq).mono htables }
  | reloading wrote =>
    refine { hw with calls := forall_mem_set hw.calls i ⟨hstage, w.db, ?_, rfl⟩ }
    simp [tables]
  | loaded wrote l =>
    have hsettled : max w.settled wrote ≤ l.version := max_le (horder wrote l rfl) hstage.1
    exact
      { snapshot := hstage.2
        settled := hsettled
        returned := hw.returned.trans (le_max_left _ _)
        calls := by
          refine forall_mem_set (fun c hc => ?_) i (le_max_right _ _)
          exact (hw.calls c hc).mono (Nat.le_refl _) (le_max_left _ _) (List.prefix_refl _)
        seen := hw.seen
        fresh := hw.fresh }
  | stored wrote =>
    exact
      { snapshot := hw.snapshot
        settled := hw.settled
        returned := max_le hw.returned hstage
        calls := forall_mem_set hw.calls i trivial
        seen := fun q hq => (hw.seen q hq).trans (le_max_left _ _)
        fresh := hw.fresh }
  | returned wrote => exact hw

/-- A lookup that advances. -/
private theorem advanceLookup_fresh {w : AppWorld} (hw : w.Sound) {q : LookupCall}
    (hseen : q.seen ≤ w.returned) (hq : q.Fresh w.tables) :
    LookupCall.Fresh w.tables { q with stage := w.advanceLookup q } := by
  obtain ⟨lookup, seen, stage⟩ := q
  have hversion : seen ≤ w.snapshot.version := hseen.trans (hw.returned.trans hw.settled)
  have hdb : w.db ∈ w.tables.drop seen :=
    mem_drop_of_getElem? (by simp [tables]) (hversion.trans (version_le hw))
  obtain ⟨t, ht, hsnap⟩ := hw.snapshot
  have hloaded : t ∈ w.tables.drop seen := mem_drop_of_getElem? ht hversion
  cases stage with
  | started =>
    cases lookup with
    | getApp id =>
      have hbyID : w.snapshot.snapshot.byID id = t.getByID id := by
        rw [hsnap, AppSnapshot.load_byID]
      simp only [advanceLookup, hbyID]
      cases hfind : t.getByID id with
      | none => trivial
      | some a => exact ⟨t, hloaded, hfind⟩
    | getAppByDomain domain =>
      have hbyDomain : w.snapshot.snapshot.byDomain domain = t.getByDomain domain := by
        rw [hsnap, AppSnapshot.load_byDomain]
      simp only [advanceLookup, hbyDomain]
      exact ⟨t, hloaded, rfl⟩
  | missed => cases lookup <;> exact ⟨w.db, hdb, rfl⟩
  | answered a => exact hq

/-- **One step** keeps what is known along a run, if it stores no snapshot out of order. -/
private theorem step_sound {w : AppWorld} {e : AppEvent} (hw : w.Sound) (he : w.InOrder e) :
    (w.step e).Sound := by
  cases e with
  | call op => exact { hw with calls := forall_mem_snoc hw.calls trivial }
  | tick => exact { hw with calls := forall_mem_snoc hw.calls (Nat.zero_le _) }
  | advance i =>
    rw [step]
    cases hstage : w.calls[i]? with
    | none => exact hw
    | some stage =>
      refine advance_sound hw i (hw.calls _ (List.mem_of_getElem? hstage)) fun wrote l heq => ?_
      simpa [InOrder, hstage, heq] using he
  | lookup q =>
    exact
      { hw with
        seen := forall_mem_snoc hw.seen (Nat.le_refl _)
        fresh := forall_mem_snoc hw.fresh trivial }
  | advanceLookup i =>
    rw [step]
    cases hcall : w.lookups[i]? with
    | none => exact hw
    | some q =>
      have hmem := List.mem_of_getElem? hcall
      exact
        { hw with
          seen := forall_mem_set hw.seen i (hw.seen q hmem)
          fresh := forall_mem_set hw.fresh i
            (advanceLookup_fresh hw (hw.seen q hmem) (hw.fresh q hmem)) }

end AppWorld

/-- **Fresh lookups.** In a run in which no reload stores what it read before the write of an
operation that has already stored its own snapshot, every lookup sees a table at least as new as
each operation that had returned when the lookup started. -/
theorem lookup_fresh (t : AppTable) (events : List AppEvent)
    (horder : ∀ i (hi : i < events.length),
      (AppWorld.run t (events.take i)).InOrder events[i]) :
    (AppWorld.run t events).Fresh := by
  suffices hsound : (AppWorld.run t events).Sound from hsound.fresh
  refine run_induction (P := fun past => (AppWorld.run t past).Sound) (init_sound t) ?_
  intro past e hpast ih
  rw [AppWorld.run_append]
  exact AppWorld.step_sound ih
    (forall_snoc (C := fun past e => (AppWorld.run t past).InOrder e) horder past e hpast)

/-- The same with a reload that stores its snapshot before the operation stores its own. -/
theorem lookup_fresh_toggle :
    (AppWorld.run sampleTable
      [.tick, .advance 0, .call (.toggleUnderAttackMode (str "shop") true), .advance 1, .advance 0,
        .advance 1, .advance 1, .advance 1, .lookup (.getAppByDomain (str "shop.example")),
        .advanceLookup 0]).Fresh :=
  lookup_fresh sampleTable _ (by decide)

/-- A reload that read the table before the attack mode was switched on stores its snapshot after
the operation has returned, and the next request finds the mode off. -/
theorem lookup_not_fresh :
    let events : List AppEvent :=
      [.tick, .advance 0, .call (.toggleUnderAttackMode (str "shop") true), .advance 1, .advance 1,
        .advance 1, .advance 1, .advance 0, .lookup (.getAppByDomain (str "shop.example")),
        .advanceLookup 0]
    let w := AppWorld.run sampleTable events
    (w.db.getByDomain (str "shop.example")).map (·.underAttackMode) = some true ∧
      w.snapshot.version < w.returned ∧ ¬ w.Fresh := by
  decide

end VibesWaf

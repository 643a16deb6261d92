import VibesWaf.Apps.Snapshot

/-!
# The health checker and the updates of an application

A health checker reads its application when its ticker fires, probes the enabled upstreams one
after the other, and writes the record back if a flag has changed. The record is the one that the
snapshot points to, so its flags are set in place, and what is written is the whole configuration.

A world holds the table, the records in memory, the snapshots, and the checkers, each between two
of its accesses; the operations of the service go on meanwhile. `stored_accepted_iff` says when no
update is lost: exactly when no record is written that is out of date, that is when no operation
with other settings on its application has been accepted last since the record was read.
`update_lost` is a run in which an update is accepted while a probe is under way.
-/

namespace VibesWaf

/-! ### Settings -/

/-- A configuration without the health of its upstreams. -/
def AppConfig.withoutHealth (c : AppConfig) : AppConfig :=
  { c with upstreams := c.upstreams.map fun u => { u with healthy := false } }

/-- An application without the health of its upstreams. -/
def StoredApp.withoutHealth (a : StoredApp) : StoredApp :=
  { a with config := a.config.withoutHealth }

/-- What an update decides: the domain, and the configuration but for the health. -/
def StoredApp.settings (a : StoredApp) : GoString × AppConfig :=
  (a.domain, a.config.withoutHealth)

/-! ### Checkers -/

/-- Where a checker is: an application is known by its place in memory. -/
inductive CheckerStage
  | waiting
  /-- `GetApp` has not found the application in the snapshot. -/
  | missed
  /-- Before the upstream of an index, or after the last one. -/
  | probing (current i : ℕ) (changed : Bool)
  | ended

/-- A goroutine of `run`. One that is cancelled goes on to the end of its round. -/
structure Checker where
  appID : GoString
  failCounts : GoString → ℕ
  stage : CheckerStage

/-- The key of an upstream in `failCounts`. -/
def StoredUpstream.key (u : StoredUpstream) : GoString :=
  u.scheme ++ str "://" ++ u.host ++ str ":" ++ itoa u.port

/-- The failures of an upstream after a probe. -/
def Checker.countAfter (c : Checker) (u : StoredUpstream) (ok : Bool) : ℕ :=
  if ok then 0 else c.failCounts u.key + 1

/-- The health of the upstream of an index is set in place. -/
def StoredApp.setHealthy (a : StoredApp) (i : ℕ) (healthy : Bool) : StoredApp :=
  { a with
    config :=
      { a.config with
        upstreams := a.config.upstreams.modify i fun u => { u with healthy := healthy } } }

/-! ### Worlds -/

/-- A record in memory, with the number of decisions that had been accepted when it was read; only
the proofs know the number. -/
structure HeapRecord where
  app : StoredApp
  version : ℕ

/-- The table, the records in memory, the snapshot and those that have been read and not yet
stored, each as the places of its records, and the checkers. What was last accepted for each
application, and the decisions of all accepted operations, the last one first, are kept for the
statements only. -/
structure HealthWorld where
  db : AppTable
  heap : List HeapRecord
  snapshot : List ℕ
  loaded : List (List ℕ)
  checkers : List Checker
  accepted : GoString → Option StoredApp
  decisions : List (GoString × Option StoredApp)

/-- What happens next. -/
inductive HealthEvent
  | operation (op : AppOperation)
  /-- The read of a reload. -/
  | listAll
  /-- The store of a reload. -/
  | storeSnapshot (i : ℕ)
  | start (a : StoredApp)
  /-- A checker makes its next access; `ok` says whether its probe, or its write, succeeds. -/
  | advance (i : ℕ) (ok : Bool)

/-- What an operation decides about the settings of an application: they are those of a record, or
the application is gone. -/
def AppOperation.decision : AppOperation → Option (GoString × Option StoredApp)
  | .createApp a | .updateApp a => some (a.id, some a)
  | .deleteApp key => some (key, none)
  | .toggleUnderAttackMode _ _ => none

/-- What is accepted for each application after a decision. -/
def accept (accepted : GoString → Option StoredApp) :
    Option (GoString × Option StoredApp) → GoString → Option StoredApp
  | none => accepted
  | some (key, a) => fun id => if id = key then a else accepted id

namespace HealthWorld

/-- A service with its first snapshot, before any checker is started. -/
def init (t : AppTable) : HealthWorld :=
  ⟨t, t.rows.map (⟨·, 0⟩), List.range t.rows.length, [], [], t.getByID, []⟩

/-- The record at a place of memory. -/
def record (w : HealthWorld) (p : ℕ) : Option StoredApp :=
  w.heap[p]?.map (·.app)

/-- The place of an application in the snapshot. -/
def snapshotPlace (w : HealthWorld) (id : GoString) : Option ℕ :=
  w.snapshot.find? fun p => (w.record p).any (·.id = id)

/-- A round begins with the record at a place, or the checker ends. -/
def beginRound (a : StoredApp) (p : ℕ) : CheckerStage :=
  if a.config.healthCheck.enabled then .probing p 0 false else .ended

/-- The world with a checker at another stage. -/
def setStage (w : HealthWorld) (i : ℕ) (c : Checker) (stage : CheckerStage) : HealthWorld :=
  { w with checkers := w.checkers.set i { c with stage := stage } }

/-- A turn of the loop over the upstreams. -/
def probe (w : HealthWorld) (i : ℕ) (c : Checker) (a : StoredApp) (u : StoredUpstream)
    (p k : ℕ) (changed ok : Bool) : HealthWorld :=
  if u.enabled then
    let count := c.countAfter u ok
    let failCounts := fun key => if key = u.key then count else c.failCounts key
    let isHealthy : Bool := (count : ℤ) < a.config.healthCheck.threshold
    { w with
      heap := if u.healthy = isHealthy then w.heap
        else w.heap.modify p fun r => { r with app := r.app.setHealthy k isHealthy }
      checkers := w.checkers.set i
        ⟨c.appID, failCounts, .probing p (k + 1) (changed || u.healthy != isHealthy)⟩ }
  else w.setStage i c (.probing p (k + 1) changed)

/-- The end of a round: the record is written if a flag has changed, and an error is ignored. -/
def writeBack (w : HealthWorld) (a : StoredApp) (changed ok : Bool) : AppTable :=
  if changed && ok then (w.db.update a).getD w.db else w.db

/-- A checker makes its next access. -/
def advance (w : HealthWorld) (i : ℕ) (c : Checker) (ok : Bool) : HealthWorld :=
  match c.stage with
  | .waiting =>
    match w.snapshotPlace c.appID with
    | none => w.setStage i c .missed
    | some p =>
      match w.record p with
      | some a => w.setStage i c (beginRound a p)
      | none => w
  | .missed =>
    match w.db.getByID c.appID with
    | some a =>
      { w.setStage i c (beginRound a w.heap.length) with
        heap := w.heap ++ [⟨a, w.decisions.length⟩] }
    | none => w.setStage i c .waiting
  | .probing p k changed =>
    match w.record p with
    | some a =>
      match a.config.upstreams[k]? with
      | some u => w.probe i c a u p k changed ok
      | none => { w.setStage i c .waiting with db := w.writeBack a changed ok }
    | none => w
  | .ended => w

/-- One event. -/
def step (w : HealthWorld) : HealthEvent → HealthWorld
  | .operation op =>
    match op.write w.db with
    | some t =>
      { w with
        db := t
        accepted := accept w.accepted op.decision
        decisions := op.decision.toList ++ w.decisions }
    | none => w
  | .listAll =>
    { w with
      heap := w.heap ++ w.db.listAll.map (⟨·, w.decisions.length⟩)
      loaded := w.loaded ++ [List.range' w.heap.length w.db.listAll.length] }
  | .storeSnapshot i =>
    match w.loaded[i]? with
    | some snapshot => { w with snapshot := snapshot }
    | none => w
  | .start a =>
    if a.config.healthCheck.enabled then
      { w with checkers := w.checkers ++ [⟨a.id, fun _ => 0, .waiting⟩] }
    else w
  | .advance i ok =>
    match w.checkers[i]? with
    | some c => w.advance i c ok
    | none => w

/-- The world after some events. -/
def run (t : AppTable) (events : List HealthEvent) : HealthWorld :=
  events.foldl step (init t)

/-- Every stored application has the settings that were last accepted for it. -/
def Kept (w : HealthWorld) : Prop :=
  ∀ row ∈ w.db.rows, (w.accepted row.id).map StoredApp.settings = some row.settings

instance (w : HealthWorld) : Decidable w.Kept :=
  inferInstanceAs (Decidable (∀ row ∈ w.db.rows,
    (w.accepted row.id).map StoredApp.settings = some row.settings))

/-- The record that a checker is about to write. -/
def pending (w : HealthWorld) (c : Checker) : Option HeapRecord :=
  match c.stage with
  | .probing p k true =>
    w.heap[p]?.bind fun r => if r.app.config.upstreams.length ≤ k then some r else none
  | _ => none

/-- The record that a checker writes in an event. -/
def writes (w : HealthWorld) : HealthEvent → Option HeapRecord
  | .advance i true => w.checkers[i]?.bind w.pending
  | _ => none

/-- The last decision about the application of a record since it was read. -/
def since (w : HealthWorld) (r : HeapRecord) : Option (Option StoredApp) :=
  ((w.decisions.take (w.decisions.length - r.version)).find? (·.1 = r.app.id)).map Prod.snd

/-- The event does not write a record that is out of date: the last operation on the application
that was accepted since the record was read, if there is one, has its settings. A write that the
repository refuses does no harm, and neither does one after a removal. -/
def UpToDate (w : HealthWorld) (e : HealthEvent) : Prop :=
  ∀ r ∈ w.writes e, (w.db.update r.app).isSome = true →
    ∀ a, w.since r = some (some a) → a.settings = r.app.settings

/-- The table is the same but for the health of the upstreams. -/
def OnlyHealth (w w' : HealthWorld) : Prop :=
  w'.db.rows.map StoredApp.withoutHealth = w.db.rows.map StoredApp.withoutHealth

/-! ### What a step does to the table -/

private theorem probe_db (w : HealthWorld) (i : ℕ) (c : Checker) (a : StoredApp)
    (u : StoredUpstream) (p k : ℕ) (changed ok : Bool) :
    (w.probe i c a u p k changed ok).db = w.db ∧
      (w.probe i c a u p k changed ok).accepted = w.accepted := by
  rw [probe]
  split <;> exact ⟨rfl, rfl⟩

/-- A checker that has nothing to write leaves the table as it is. -/
private theorem advance_probing (w : HealthWorld) (i : ℕ) (c : Checker) (ok : Bool) {p k : ℕ}
    {changed : Bool} (hstage : c.stage = .probing p k changed) :
    (w.advance i c ok).db =
        (if ok then ((w.pending c).bind fun r => w.db.update r.app).getD w.db else w.db) ∧
      (w.advance i c ok).accepted = w.accepted := by
  simp only [advance, pending, record, hstage]
  cases hrecord : w.heap[p]? with
  | none => cases changed <;> simp [hrecord]
  | some r =>
    rw [Option.map_some]
    dsimp only
    cases hup : r.app.config.upstreams[k]? with
    | some u =>
      have hlt : ¬ r.app.config.upstreams.length ≤ k :=
        Nat.not_le.mpr (List.getElem?_eq_some_iff.mp hup).1
      obtain ⟨hdb, haccepted⟩ := probe_db w i c r.app u p k changed ok
      rw [hdb, haccepted]
      cases changed <;> simp [hrecord, hlt]
    | none =>
      have hle : r.app.config.upstreams.length ≤ k := List.getElem?_eq_none_iff.mp hup
      cases changed <;> cases ok <;> simp [writeBack, setStage, hrecord, hle]

/-- **A checker's step** changes the table only by the record it writes, if it writes one and the
repository accepts it. -/
private theorem advance_db (w : HealthWorld) (i : ℕ) (c : Checker) (ok : Bool) :
    (w.advance i c ok).db =
        (if ok then ((w.pending c).bind fun r => w.db.update r.app).getD w.db else w.db) ∧
      (w.advance i c ok).accepted = w.accepted := by
  cases hstage : c.stage with
  | waiting =>
    simp only [advance, pending, hstage]
    cases w.snapshotPlace c.appID with
    | none => simp [setStage]
    | some p =>
      dsimp only
      cases w.record p <;> simp [setStage]
  | missed =>
    simp only [advance, pending, hstage]
    cases w.db.getByID c.appID <;> simp [setStage]
  | probing p k changed => exact advance_probing w i c ok hstage
  | ended => simp [advance, pending, hstage]

private theorem step_advance (w : HealthWorld) (i : ℕ) (ok : Bool) :
    (w.step (.advance i ok)).db =
        ((w.writes (.advance i ok)).bind fun r => w.db.update r.app).getD w.db ∧
      (w.step (.advance i ok)).accepted = w.accepted := by
  rw [step]
  cases hchecker : w.checkers[i]? with
  | none => cases ok <;> simp [writes, hchecker]
  | some c =>
    obtain ⟨hdb, haccepted⟩ := advance_db w i c ok
    rw [hdb, haccepted]
    cases ok <;> simp [writes, hchecker]

/-! ### Records that are out of date -/

/-- A checker that overwrites an application finds the settings that it writes. -/
def Current (w : HealthWorld) (e : HealthEvent) : Prop :=
  ∀ r ∈ w.writes e, ∀ row ∈ w.db.rows, row.id = r.app.id → w.db.DomainFree r.app →
    row.settings = r.app.settings

/-- The decisions that are kept account for what is accepted: the last decision about an application
is, and without one since a record was read its settings still are. -/
structure Logged (w : HealthWorld) : Prop where
  version_le : ∀ r ∈ w.heap, r.version ≤ w.decisions.length
  last : ∀ id q, w.decisions.find? (·.1 = id) = some q → w.accepted id = q.2
  unchanged : ∀ r ∈ w.heap, w.since r = none →
    (w.accepted r.app.id).map StoredApp.settings = some r.app.settings

/-- The records that are written are in memory. -/
private theorem mem_heap_of_writes {w : HealthWorld} {e : HealthEvent} {r : HeapRecord}
    (h : r ∈ w.writes e) : r ∈ w.heap := by
  have hpending {c : Checker} (h : r ∈ w.pending c) : r ∈ w.heap := by
    rw [pending] at h
    split at h
    · obtain ⟨r', hr', hif⟩ := Option.bind_eq_some_iff.mp h
      split at hif
      · obtain rfl := Option.some.inj hif
        exact List.mem_of_getElem? hr'
      · cases hif
    · cases h
  cases e with
  | advance i ok =>
    cases ok with
    | true =>
      obtain ⟨c, -, hc⟩ := Option.bind_eq_some_iff.mp h
      exact hpending hc
    | false => cases h
  | _ => cases h

/-- The last decision since a record was read is the last one there is. -/
private theorem Logged.accepted_of_since {w : HealthWorld} (h : w.Logged) {r : HeapRecord}
    {last : Option StoredApp} (hsince : w.since r = some last) : w.accepted r.app.id = last := by
  obtain ⟨q, hfind, rfl⟩ := Option.map_eq_some_iff.mp hsince
  exact h.last _ q ((List.take_prefix _ _).find?_eq_some hfind)

/-- **A write is current exactly when its record is up to date**, as long as everything accepted is
stored. -/
private theorem current_iff_upToDate {w : HealthWorld} (hw : w.Kept) (hlogged : w.Logged)
    (e : HealthEvent) : w.Current e ↔ w.UpToDate e := by
  constructor
  · intro hcurrent r hr hupdate a hsince
    obtain ⟨t, ht⟩ := Option.isSome_iff_exists.mp hupdate
    obtain ⟨row, hrow, hid⟩ := AppTable.exists_of_update ht
    have hset := hcurrent r hr row hrow hid (AppTable.domainFree_of_update ht)
    have haccepted := hw row hrow
    rw [hid, hlogged.accepted_of_since hsince, Option.map_some] at haccepted
    exact (Option.some.inj haccepted).trans hset
  · intro hdate r hr row hrow hid hfree
    have haccepted := hw row hrow
    rw [hid] at haccepted
    cases hsince : w.since r with
    | none =>
      rw [hlogged.unchanged r (mem_heap_of_writes hr) hsince] at haccepted
      exact (Option.some.inj haccepted).symm
    | some last =>
      rw [hlogged.accepted_of_since hsince] at haccepted
      cases last with
      | none => cases haccepted
      | some a =>
        obtain ⟨t, ht⟩ := AppTable.exists_update hrow hid hfree
        have hset := hdate r hr (by rw [ht]; rfl) a hsince
        exact (Option.some.inj haccepted).symm.trans hset

/-- An update changes nothing but the health of the upstreams exactly when the row has the settings
it writes. -/
private theorem update_onlyHealth_iff {t t' : AppTable} {a : StoredApp} (h : t.update a = some t') :
    t'.rows.map StoredApp.withoutHealth = t.rows.map StoredApp.withoutHealth ↔
      ∀ row ∈ t.rows, row.id = a.id → row.settings = a.settings := by
  rw [AppTable.rows_update h, List.map_map, List.map_inj_left]
  refine forall₂_congr fun row _ => ?_
  rw [Function.comp_apply]
  by_cases hid : row.id = a.id
  · rw [if_pos hid]
    simp [StoredApp.withoutHealth, AppTable.written, StoredApp.settings, hid, eq_comm]
  · simp [hid]

/-- An operation keeps what has been accepted. -/
private theorem operation_kept {w : HealthWorld} (hw : w.Kept) (op : AppOperation) :
    (w.step (.operation op)).Kept := by
  rw [step]
  cases hwrite : op.write w.db with
  | none => exact hw
  | some t =>
    intro row hrow
    cases op with
    | createApp a =>
      -- the new row is the only one with its id
      have hnew : { a with underAttackMode := false } ∈ t.rows :=
        (AppTable.mem_create hwrite).mpr (.inl rfl)
      rcases (AppTable.mem_create hwrite).mp hrow with rfl | hold
      · simp [accept, AppOperation.decision, StoredApp.settings]
      · by_cases hid : row.id = a.id
        · obtain rfl := t.eq_of_key_eq hrow hnew hid
          simp [accept, AppOperation.decision, StoredApp.settings]
        · simpa [accept, AppOperation.decision, hid] using hw row hold
    | updateApp a =>
      obtain ⟨old, hold, rfl⟩ := (AppTable.mem_update hwrite).mp hrow
      by_cases hid : old.id = a.id
      · simp [accept, AppOperation.decision, hid, AppTable.written, StoredApp.settings]
      · simpa [accept, AppOperation.decision, hid] using hw old hold
    | deleteApp key =>
      obtain ⟨hold, hid⟩ := (AppTable.mem_delete hwrite).mp hrow
      simpa [accept, AppOperation.decision, hid] using hw row hold
    | toggleUnderAttackMode appID enabled =>
      obtain rfl := Option.some.inj hwrite
      obtain ⟨old, hold, rfl⟩ := AppTable.mem_toggleUnderAttackMode.mp hrow
      have hset := hw old hold
      by_cases hid : old.id = appID
      · simpa [accept, AppOperation.decision, StoredApp.settings, hid] using hset
      · simpa [accept, AppOperation.decision, hid] using hset

/-- A checker that writes the settings of the row it overwrites keeps what has been accepted. -/
private theorem advance_kept {w : HealthWorld} (hw : w.Kept) {i : ℕ} {ok : Bool}
    (hcurrent : w.Current (.advance i ok)) : (w.step (.advance i ok)).Kept := by
  obtain ⟨hdb, haccepted⟩ := step_advance w i ok
  rw [Kept, hdb, haccepted]
  cases hwrites : w.writes (.advance i ok) with
  | none => exact hw
  | some r =>
    cases hupdate : w.db.update r.app with
    | none =>
      rw [Option.bind_some, hupdate, Option.getD_none]
      exact hw
    | some t =>
      rw [Option.bind_some, hupdate, Option.getD_some]
      intro row hrow
      obtain ⟨old, hold, rfl⟩ := (AppTable.mem_update hupdate).mp hrow
      by_cases hid : old.id = r.app.id
      · have hset : old.settings = r.app.settings :=
          hcurrent r hwrites old hold hid (AppTable.domainFree_of_update hupdate)
        rw [if_pos hid]
        exact (hw old hold).trans (congrArg some hset)
      · rw [if_neg hid]
        exact hw old hold

private theorem init_kept (t : AppTable) : (init t).Kept := fun row hrow => by
  have hfind : t.getByID row.id = some row := AppTable.getByID_eq_some_iff.mpr ⟨hrow, rfl⟩
  exact congrArg (Option.map StoredApp.settings) hfind

/-- **One step** keeps what has been accepted if it writes no other settings. -/
private theorem step_kept {w : HealthWorld} {e : HealthEvent} (hw : w.Kept) (he : w.Current e) :
    (w.step e).Kept := by
  cases e with
  | operation op => exact operation_kept hw op
  | listAll => exact hw
  | storeSnapshot i =>
    rw [step]
    cases w.loaded[i]? <;> exact hw
  | start a =>
    rw [step]
    split <;> exact hw
  | advance i ok => exact advance_kept hw he

/-- A step after which everything accepted is still stored has written no other settings. -/
private theorem current_of_kept {w : HealthWorld} {e : HealthEvent} (hw : w.Kept)
    (hkept : (w.step e).Kept) : w.Current e := by
  intro r hr row hrow hid hfree
  cases e with
  | advance i ok =>
    obtain ⟨hdb, haccepted⟩ := step_advance w i ok
    obtain ⟨t, ht⟩ := AppTable.exists_update hrow hid hfree
    have htable : (w.step (.advance i ok)).db = t := by
      rw [hdb, Option.mem_def.mp hr, Option.bind_some, ht, Option.getD_some]
    have hmem : AppTable.written r.app row ∈ (w.step (.advance i ok)).db.rows := by
      rw [htable]
      exact (AppTable.mem_update ht).mpr ⟨row, hrow, if_pos hid⟩
    have hnow := hkept _ hmem
    rw [haccepted] at hnow
    exact Option.some.inj ((hw row hrow).symm.trans hnow)
  | _ => cases hr

/-- A step of a checker that is current changes only the health. -/
private theorem onlyHealth_of_current {w : HealthWorld} {i : ℕ} {ok : Bool}
    (h : w.Current (.advance i ok)) : w.OnlyHealth (w.step (.advance i ok)) := by
  rw [OnlyHealth, (step_advance w i ok).1]
  cases hwrites : w.writes (.advance i ok) with
  | none => rfl
  | some r =>
    cases hupdate : w.db.update r.app with
    | none => simp [hupdate]
    | some t =>
      rw [Option.bind_some, hupdate, Option.getD_some]
      refine (update_onlyHealth_iff hupdate).mpr fun row hrow hid => ?_
      exact h r hwrites row hrow hid (AppTable.domainFree_of_update hupdate)

/-! ### What is kept of the decisions -/

/-- A record of the next world: one that is in memory, up to the health of its upstreams, or a row
that is read. -/
def Known (w : HealthWorld) (r : HeapRecord) : Prop :=
  (∃ r' ∈ w.heap, r.version = r'.version ∧ r.app.id = r'.app.id ∧
    r.app.settings = r'.app.settings) ∨ ∃ row ∈ w.db.rows, r = ⟨row, w.decisions.length⟩

private theorem known_of_mem {w : HealthWorld} {r : HeapRecord} (h : r ∈ w.heap) : w.Known r :=
  .inl ⟨r, h, rfl, rfl, rfl⟩

/-- The health of an upstream is not one of the settings. -/
private theorem settings_setHealthy (a : StoredApp) (i : ℕ) (healthy : Bool) :
    (a.setHealthy i healthy).settings = a.settings := by
  have hhealth : (a.config.upstreams.modify i fun u => { u with healthy := healthy }).map
      (fun u => { u with healthy := false }) =
        a.config.upstreams.map fun u => { u with healthy := false } := by
    refine List.ext_getElem? fun j => ?_
    rw [List.getElem?_map, List.getElem?_map, List.getElem?_modify]
    by_cases hj : i = j
    · cases a.config.upstreams[j]? <;> simp [hj]
    · simp [hj]
  rw [StoredApp.settings, StoredApp.settings, AppConfig.withoutHealth, AppConfig.withoutHealth,
    StoredApp.setHealthy]
  dsimp only
  rw [hhealth]

/-- A probe sets the health of an upstream in place. -/
private theorem probe_heap (w : HealthWorld) (i : ℕ) (c : Checker) (a : StoredApp)
    (u : StoredUpstream) (p k : ℕ) (changed ok : Bool) :
    (w.probe i c a u p k changed ok).decisions = w.decisions ∧
      ∀ r ∈ (w.probe i c a u p k changed ok).heap, w.Known r := by
  rw [probe]
  split
  · refine ⟨rfl, fun r hr => ?_⟩
    dsimp only at hr
    split at hr
    · exact known_of_mem hr
    · obtain ⟨q, hq⟩ := List.mem_iff_getElem?.mp hr
      rw [List.getElem?_modify] at hq
      obtain ⟨r', hr', rfl⟩ := Option.map_eq_some_iff.mp hq
      refine .inl ⟨r', List.mem_of_getElem? hr', ?_⟩
      split
      · exact ⟨rfl, rfl, settings_setHealthy ..⟩
      · exact ⟨rfl, rfl, rfl⟩
  · exact ⟨rfl, fun _ => known_of_mem⟩

/-- **A checker's step** reads a row or keeps the records, up to the health of upstreams. -/
private theorem advance_heap (w : HealthWorld) (i : ℕ) (c : Checker) (ok : Bool) :
    (w.advance i c ok).decisions = w.decisions ∧ ∀ r ∈ (w.advance i c ok).heap, w.Known r := by
  have hkeep : ∀ r ∈ w.heap, w.Known r := fun _ => known_of_mem
  cases hstage : c.stage with
  | waiting =>
    simp only [advance, hstage]
    cases w.snapshotPlace c.appID with
    | none => exact ⟨rfl, hkeep⟩
    | some p =>
      dsimp only
      cases w.record p <;> exact ⟨rfl, hkeep⟩
  | missed =>
    simp only [advance, hstage]
    cases hfind : w.db.getByID c.appID with
    | none => exact ⟨rfl, hkeep⟩
    | some a =>
      refine ⟨rfl, fun r hr => ?_⟩
      rcases List.mem_append.mp hr with hold | hnew
      · exact known_of_mem hold
      · obtain rfl := List.mem_singleton.mp hnew
        exact .inr ⟨a, (AppTable.getByID_eq_some_iff.mp hfind).1, rfl⟩
  | probing p k changed =>
    simp only [advance, hstage]
    cases w.record p with
    | none => exact ⟨rfl, hkeep⟩
    | some a =>
      dsimp only
      cases a.config.upstreams[k]? with
      | none => exact ⟨rfl, hkeep⟩
      | some u => exact probe_heap w i c a u p k changed ok
  | ended =>
    rw [advance, hstage]
    exact ⟨rfl, hkeep⟩

/-- The decisions stay accounted for when nothing is decided. -/
private theorem Logged.of_known {w w' : HealthWorld} (hw : w.Kept) (h : w.Logged)
    (hdecisions : w'.decisions = w.decisions) (haccepted : w'.accepted = w.accepted)
    (hheap : ∀ r ∈ w'.heap, w.Known r) : w'.Logged where
  version_le r hr := by
    rw [hdecisions]
    rcases hheap r hr with ⟨r', hr', hversion, -, -⟩ | ⟨row, -, rfl⟩
    · exact hversion.trans_le (h.version_le r' hr')
    · exact le_rfl
  last := by
    rw [hdecisions, haccepted]
    exact h.last
  unchanged r hr hsince := by
    rw [haccepted]
    rcases hheap r hr with ⟨r', hr', hversion, hid, hset⟩ | ⟨row, hrow, rfl⟩
    · have hsince' : w.since r' = none := by
        rwa [since, hdecisions, hversion, hid] at hsince
      rw [hid, hset]
      exact h.unchanged r' hr' hsince'
    · exact hw row hrow

/-- An accepted operation is the last decision about its application. -/
private theorem Logged.operation {w : HealthWorld} (hw : w.Kept) (h : w.Logged)
    (op : AppOperation) : (w.step (.operation op)).Logged := by
  rw [step]
  cases op.write w.db with
  | none => exact h
  | some t =>
    cases op.decision with
    | none => exact h.of_known hw rfl rfl fun _ hr => known_of_mem hr
    | some decision =>
      obtain ⟨key, a⟩ := decision
      dsimp only
      rw [Option.toList_some, List.singleton_append]
      refine ⟨fun r hr => (h.version_le r hr).trans (Nat.le_succ _), fun id q hfind => ?_,
        fun r hr hsince => ?_⟩
      · dsimp only [accept] at hfind ⊢
        by_cases hid : id = key
        · rw [List.find?_cons_of_pos (by simp [hid])] at hfind
          obtain rfl := Option.some.inj hfind
          exact if_pos hid
        · rw [List.find?_cons_of_neg (by simpa using Ne.symm hid)] at hfind
          rw [if_neg hid]
          exact h.last id q hfind
      · have hlength : (w.decisions.length + 1) - r.version =
            (w.decisions.length - r.version) + 1 := Nat.succ_sub (h.version_le r hr)
        rw [since, List.length_cons, hlength, List.take_succ_cons, Option.map_eq_none_iff,
          List.find?_eq_none, List.forall_mem_cons] at hsince
        have hne : r.app.id ≠ key := fun heq => hsince.1 (by simp [heq])
        have hold : w.since r = none := by
          rw [since, List.find?_eq_none.mpr hsince.2]
          rfl
        dsimp only [accept]
        rw [if_neg hne]
        exact h.unchanged r hr hold

private theorem init_logged (t : AppTable) : (init t).Logged where
  version_le r hr := by
    obtain ⟨row, -, rfl⟩ := List.mem_map.mp hr
    exact le_rfl
  last id q h := by cases h
  unchanged r hr _ := by
    obtain ⟨row, hrow, rfl⟩ := List.mem_map.mp hr
    exact init_kept t row hrow

/-- **One step** keeps the account of the decisions, as long as everything accepted is stored. -/
private theorem Logged.step {w : HealthWorld} (hw : w.Kept) (h : w.Logged) (e : HealthEvent) :
    (w.step e).Logged := by
  cases e with
  | operation op => exact h.operation hw op
  | listAll =>
    refine h.of_known hw rfl rfl fun r hr => ?_
    rcases List.mem_append.mp hr with hold | hnew
    · exact known_of_mem hold
    · obtain ⟨row, hrow, rfl⟩ := List.mem_map.mp hnew
      exact .inr ⟨row, hrow, rfl⟩
  | storeSnapshot i =>
    rw [HealthWorld.step]
    cases w.loaded[i]? <;> exact h.of_known hw rfl rfl fun _ => known_of_mem
  | start a =>
    rw [HealthWorld.step]
    split <;> exact h.of_known hw rfl rfl fun _ => known_of_mem
  | advance i ok =>
    rw [HealthWorld.step]
    cases w.checkers[i]? with
    | none => exact h
    | some c =>
      obtain ⟨hdecisions, hheap⟩ := advance_heap w i c ok
      exact h.of_known hw hdecisions (advance_db w i c ok).2 hheap

/-- The invariant: everything accepted is stored, and the decisions are accounted for. -/
def Sound (w : HealthWorld) : Prop :=
  w.Kept ∧ w.Logged

private theorem Sound.step {w : HealthWorld} {e : HealthEvent} (h : w.Sound) (he : w.UpToDate e) :
    (w.step e).Sound :=
  ⟨step_kept h.1 ((current_iff_upToDate h.1 h.2 e).mpr he), h.2.step h.1 e⟩

private theorem Sound.upToDate {w : HealthWorld} {e : HealthEvent} (h : w.Sound)
    (hkept : (w.step e).Kept) : w.UpToDate e :=
  (current_iff_upToDate h.1 h.2 e).mp (current_of_kept h.1 hkept)

/-- The states of a run whose writes are up to date are sound. -/
private theorem sound_run {t : AppTable} {events : List HealthEvent}
    (h : ∀ past e, past ++ [e] <+: events → (run t past).UpToDate e) :
    ∀ past, past <+: events → (run t past).Sound :=
  (forall_prefix_iff (P := Sound) (C := UpToDate) ⟨init_kept t, init_logged t⟩ (fun _ hs => hs)
    (fun _ _ => Sound.step) (fun _ _ hs hnext => hs.upToDate hnext.1) events).mpr h

end HealthWorld

/-- **No lost update.** Along a run every stored application has the domain and the configuration
that were last accepted for it, and the checkers change nothing but the health of its upstreams,
exactly when no checker writes a record that is out of date. -/
theorem stored_accepted_iff (t : AppTable) (events : List HealthEvent) :
    ((∀ past, past <+: events → (HealthWorld.run t past).Kept) ∧
        ∀ past i ok, past ++ [.advance i ok] <+: events →
          (HealthWorld.run t past).OnlyHealth (HealthWorld.run t (past ++ [.advance i ok]))) ↔
      ∀ past e, past ++ [e] <+: events → (HealthWorld.run t past).UpToDate e := by
  have hkept := forall_prefix_iff (P := HealthWorld.Kept) (C := HealthWorld.UpToDate)
    ⟨HealthWorld.init_kept t, HealthWorld.init_logged t⟩
    (fun _ (hs : HealthWorld.Sound _) => hs.1) (fun _ _ => HealthWorld.Sound.step)
    (fun _ _ => HealthWorld.Sound.upToDate) events
  refine ⟨fun h => hkept.mp h.1, fun h => ⟨hkept.mpr h, fun past i ok hpast => ?_⟩⟩
  have hsound := HealthWorld.sound_run h past ((List.prefix_append _ _).trans hpast)
  have hrun : HealthWorld.run t (past ++ [.advance i ok]) =
      (HealthWorld.run t past).step (.advance i ok) := by
    rw [HealthWorld.run, List.foldl_append]
    rfl
  rw [hrun]
  exact HealthWorld.onlyHealth_of_current
    ((HealthWorld.current_iff_upToDate hsound.1 hsound.2 _).mpr (h past _ hpast))

/-- A probe is under way while an update is accepted: the checker writes the old configuration
back, and the redirect to HTTPS that the update has set is gone. -/
theorem update_lost :
    let shop := sampleApp (str "shop") (str "shop.example") (str "http")
    let update := { shop with config := { shop.config with redirectHTTPS := true } }
    let events : List HealthEvent :=
      [.start shop, .advance 0 true, .operation (.updateApp update), .advance 0 false,
        .advance 0 true]
    let w := HealthWorld.run sampleTable events
    w.accepted (str "shop") = some update ∧
      (w.db.getByID (str "shop")).map (·.config.redirectHTTPS) = some false ∧ ¬ w.Kept := by
  decide

end VibesWaf

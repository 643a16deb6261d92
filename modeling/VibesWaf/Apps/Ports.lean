import VibesWaf.Apps.Services

/-!
# Ports of stream applications

`CreateApp`, `UpdateApp` and `DeleteApp` one call of the repository at a time, with the operations
of other requests in between. A stream application gets its listen port and its backend port from
two listings, and is written after both.

The ports are always in their ranges. `stream_ports_iff` says when no two stream applications share
one: exactly when no application gets the port of another one between the listing of that one and
its write.
-/

namespace VibesWaf

/-! ### Calls of the repository -/

/-- How an operation writes its application. -/
inductive AppWrite
  | create
  | update

/-- The next call of an operation, with what it holds: of a write, the rows that were listed for the
listen port and for the backend port. -/
inductive AppCall
  | updateGetByID (a : StoredApp)
  | listenPort (w : AppWrite) (a : StoredApp)
  | backendPort (w : AppWrite) (a : StoredApp) (listen : List StoredApp)
  | write (w : AppWrite) (a : StoredApp) (listen backend : List StoredApp)
  | deleteGetByID (id : GoString)
  | delete (id : GoString)

/-- What follows a call: another one, or the result of the operation. -/
inductive AppOutcome
  | go (c : AppCall)
  | done (result : Except AppServiceError Unit)

/-- The operations, as they are called. -/
inductive AppRequest
  | createApp (a : StoredApp)
  | updateApp (a : StoredApp)
  | deleteApp (id : GoString)

/-- `Create` or `Update`. -/
def AppWrite.run (t : AppTable) (a : StoredApp) : AppWrite → Option AppTable
  | create => t.create a
  | update => t.update a

/-- The error of a write. -/
def AppWrite.failure (t : AppTable) (a : StoredApp) : AppWrite → GoString
  | create => str "failed to create app: failed to create app"
  | update => str "failed to update app: " ++
      if t.getByID a.id = none then str "app not found" else str "failed to update app"

/-- An application that may not be changed in demo mode. -/
def ServiceConfig.isImmortal (cfg : ServiceConfig) (existing : Option StoredApp) : Bool :=
  cfg.demoMode && existing.any (·.domain = cfg.demoDomain)

/-- `CreateApp` and `UpdateApp` validate the application; what follows is a listing for the ports of
a stream, or the write. -/
def beginWrite (env : PortSettings) (w : AppWrite) (a : StoredApp) : AppOutcome :=
  match a.validate env with
  | .error e => .done (.error (.validation (str "validation failed: " ++ e)))
  | .ok a => .go (if a.isStream then .listenPort w a else .write w a [] [])

/-- The operations up to their first call. -/
def AppRequest.start (cfg : ServiceConfig) : AppRequest → AppOutcome
  | createApp a => beginWrite cfg.ports .create a
  | updateApp a =>
    if cfg.demoMode then .go (.updateGetByID a) else beginWrite cfg.ports .update a
  | deleteApp id => .go (.deleteGetByID id)

/-- The next call of an operation. -/
def AppCall.next (cfg : ServiceConfig) (t : AppTable) : AppCall → AppTable × AppOutcome
  | updateGetByID a =>
    (t, if cfg.isImmortal (t.getByID a.id) then
        .done (.error (.immortal (str "cannot modify immortal domain in demo mode")))
      else beginWrite cfg.ports .update a)
  | listenPort w a =>
    (t, match resolveStreamPort cfg.ports t.listAll a with
      | .error e => .done (.error (.port e))
      | .ok a => .go (.backendPort w a t.listAll))
  | backendPort w a listen =>
    (t, match resolveStreamBackendPort cfg.ports t.listAll a with
      | .error e => .done (.error (.port e))
      | .ok a => .go (.write w a listen t.listAll))
  | write w a _ _ =>
    match w.run t a with
    | none => (t, .done (.error (.repository (w.failure t a))))
    | some t => (t, .done (.ok ()))
  | deleteGetByID id =>
    (t, if cfg.isImmortal (t.getByID id) then
        .done (.error (.immortal (str "cannot delete immortal domain in demo mode")))
      else .go (.delete id))
  | delete id =>
    match t.delete id with
    | none => (t, .done (.error (.repository (str "failed to delete app: app not found"))))
    | some t => (t, .done (.ok ()))

/-! ### Runs -/

/-- The table and the operations in progress. -/
structure AppCalls where
  db : AppTable
  calls : List AppCall

/-- An operation is called, or makes its next call. -/
inductive AppStep
  | begin (r : AppRequest)
  | call (i : ℕ)

namespace AppCalls

variable (cfg : ServiceConfig)

/-- A step. -/
def step (s : AppCalls) : AppStep → AppCalls
  | .begin r =>
    match r.start cfg with
    | .go c => { s with calls := s.calls ++ [c] }
    | .done _ => s
  | .call i =>
    match s.calls[i]? with
    | none => s
    | some c =>
      { db := (c.next cfg s.db).1
        calls :=
          match (c.next cfg s.db).2 with
          | .go c => s.calls.set i c
          | .done _ => s.calls.eraseIdx i }

/-- A run from an empty table. -/
def run (steps : List AppStep) : AppCalls :=
  steps.foldl (step cfg) ⟨AppTable.empty, []⟩

end AppCalls

/-! ### What holds of the ports -/

/-- The port of an application lies in a range. -/
def PortKind.InRange (kind : PortKind) (minPort maxPort : Int) (a : StoredApp) : Prop :=
  minPort ≤ kind.get a.config ∧ kind.get a.config ≤ maxPort

/-- The ports of the stored stream applications lie in their ranges. -/
structure AppTable.PortsInRange (env : PortSettings) (t : AppTable) : Prop where
  listen : ∀ a ∈ t.rows, a.isStream = true →
    listenPortKind.InRange env.streamPortMin env.streamPortMax a
  backend : ∀ a ∈ t.rows, a.isStream = true →
    backendPortKind.InRange env.streamBackendMin env.streamBackendMax a

/-- No two stored stream applications share a port. -/
def AppTable.PortUnique (kind : PortKind) (t : AppTable) : Prop :=
  ∀ a ∈ t.rows, ∀ b ∈ t.rows, a.isStream = true → b.isStream = true →
    kind.get a.config = kind.get b.config → a = b

/-- The ports of the stored stream applications are unique, and lie in their ranges. -/
structure AppTable.PortsRight (env : PortSettings) (t : AppTable) : Prop
    extends t.PortsInRange env where
  listen_unique : t.PortUnique listenPortKind
  backend_unique : t.PortUnique backendPortKind

/-- No other stream application has got the port since the rows were listed: one that has it had it
already. -/
def AppTable.Unchanged (kind : PortKind) (listed : List StoredApp) (t : AppTable)
    (a : StoredApp) : Prop :=
  ∀ row ∈ t.rows, row.id ≠ a.id → row.isStream = true → kind.get row.config = kind.get a.config →
    ∃ e ∈ listed, e.id = row.id ∧ e.isStream = true ∧ kind.get e.config = kind.get a.config

/-- What has to be met by a call: when a stream application is written, nobody has got its ports
since they were chosen or checked. -/
def AppCall.Meets (t : AppTable) : AppCall → Prop
  | write w a listen backend => a.isStream = true → (w.run t a).isSome = true →
      t.Unchanged listenPortKind listen a ∧ t.Unchanged backendPortKind backend a
  | _ => True

/-- What has to be met by a step. -/
def AppCalls.Meets (s : AppCalls) : AppStep → Prop
  | .begin _ => True
  | .call i => ∀ c ∈ s.calls[i]?, c.Meets s.db

/-! ### A port is chosen -/

/-- A kind of port that is set without changing the others, or the kind of application. -/
structure PortKind.Lawful (kind : PortKind) : Prop where
  get_set : ∀ c port, kind.get (kind.set c port) = port
  upstreams : ∀ c port, (kind.set c port).upstreams = c.upstreams

/-- A port has been chosen or checked against the rows that were listed. -/
structure PortKind.Chosen (kind : PortKind) (minPort maxPort : Int) (listed : List StoredApp)
    (a : StoredApp) : Prop where
  range : kind.InRange minPort maxPort a
  free : ∀ e ∈ listed, e.id ≠ a.id → e.isStream = true → kind.get e.config ≠ kind.get a.config

theorem lawful_listenPortKind : listenPortKind.Lawful :=
  ⟨fun _ _ => rfl, fun _ _ => rfl⟩

theorem lawful_backendPortKind : backendPortKind.Lawful :=
  ⟨fun _ _ => rfl, fun _ _ => rfl⟩

theorem portSetting_pos {val : GoString} {default : Int} (h : 0 < default) :
    0 < portSetting val default := by
  rw [portSetting]
  split
  · split <;> assumption
  · exact h

section Choose

variable {kind : PortKind} {apps : List StoredApp} {id : GoString} {minPort maxPort port : Int}

/-- The port that is found lies in the range, and no other stream application has it. -/
private theorem findAvailable_ok (hmin : 0 < minPort)
    (h : findAvailable kind apps id minPort maxPort = .ok port) :
    (minPort ≤ port ∧ port ≤ maxPort) ∧
      ∀ e ∈ apps, e.id ≠ id → e.isStream = true → kind.get e.config ≠ port := by
  rw [findAvailable] at h
  split at h
  · rename_i found hfound
    obtain rfl := Except.ok.inj h
    obtain ⟨i, hi, rfl⟩ := List.mem_map.mp (List.mem_of_find?_eq_some hfound)
    have hunused := List.find?_some hfound
    rw [List.mem_range] at hi
    refine ⟨by omega, fun e he hid hstream hport => of_decide_eq_true hunused ?_⟩
    refine List.mem_map.mpr ⟨e, List.mem_filter.mpr ⟨he, decide_eq_true ⟨hid, hstream, ?_⟩⟩, hport⟩
    omega
  · cases h

/-- A port without a conflict is one that no other stream application has. -/
private theorem checkConflict_ok (h : checkConflict kind apps id port = .ok ()) :
    ∀ e ∈ apps, e.id ≠ id → e.isStream = true → kind.get e.config ≠ port := by
  rw [checkConflict] at h
  split at h
  · cases h
  · rename_i hnone
    intro e he hid hstream hport
    exact List.find?_eq_none.mp hnone e he (decide_eq_true ⟨hid, hstream, hport⟩)

/-- **A port is resolved**: it is chosen or checked, and nothing else changes. -/
private theorem resolvePort_chosen (hkind : kind.Lawful) (hmin : 0 < minPort) {a a' : StoredApp}
    (hset : kind.get a.config = 0 ∨ kind.InRange minPort maxPort a)
    (h : resolvePort kind apps minPort maxPort a = .ok a') :
    kind.Chosen minPort maxPort apps a' ∧ a'.id = a.id ∧
      (a'.config = a.config ∨ ∃ port, a'.config = kind.set a.config port) := by
  rw [resolvePort] at h
  split at h
  · cases hfind : findAvailable kind apps a.id minPort maxPort with
    | error e => simp [hfind, Except.map] at h
    | ok port =>
      obtain rfl : { a with config := kind.set a.config port } = a' := by
        simpa [hfind, Except.map] using h
      obtain ⟨hrange, hfree⟩ := findAvailable_ok hmin hfind
      rw [← hkind.get_set a.config port] at hrange hfree
      exact ⟨⟨hrange, hfree⟩, rfl, .inr ⟨port, rfl⟩⟩
  · rename_i hne
    cases hconflict : checkConflict kind apps a.id (kind.get a.config) with
    | error e => simp [hconflict, Except.map] at h
    | ok u =>
      obtain rfl : a = a' := by simpa [hconflict, Except.map] using h
      exact ⟨⟨hset.resolve_left hne, checkConflict_ok hconflict⟩, rfl, .inl rfl⟩

end Choose

/-- A port that is set was validated. -/
private theorem inRange_of_portError {name : GoString} {port minPort maxPort : Int}
    (h : portError name port minPort maxPort = none) :
    port = 0 ∨ minPort ≤ port ∧ port ≤ maxPort := by
  rw [portError] at h
  split at h
  · cases h
  · omega

/-- **A valid stream application** has its ports in their ranges, or leaves them to be chosen. -/
theorem StoredApp.ports_of_validate {env : PortSettings} {a a' : StoredApp}
    (h : a.validate env = .ok a') (hstream : a'.isStream = true) :
    (listenPortKind.get a'.config = 0 ∨
        listenPortKind.InRange env.streamPortMin env.streamPortMax a') ∧
      (backendPortKind.get a'.config = 0 ∨
        backendPortKind.InRange env.streamBackendMin env.streamBackendMax a') := by
  have hvalid : a.validateError env = none := by
    rw [StoredApp.validate] at h
    split at h
    · cases h
    · assumption
  obtain rfl := StoredApp.validate_eq_ok h
  have herror : a.streamError env = none := by
    rw [StoredApp.validateError] at hvalid
    split at hvalid
    · cases hvalid
    split at hvalid
    · cases hvalid
    split at hvalid
    · cases hvalid
    split at hvalid
    · cases hvalid
    split at hvalid
    · cases hvalid
    · split at hvalid
      · cases hvalid
      · assumption
  have hold : a.isStream = true := hstream
  rw [StoredApp.streamError, if_pos hold] at herror
  obtain ⟨hlisten, hbackend⟩ := Option.or_eq_none_iff.mp herror
  exact ⟨inRange_of_portError hlisten, inRange_of_portError hbackend⟩

/-! ### The operations -/

/-- What an operation holds: an application whose ports are valid, or have been chosen. -/
def AppCall.Good (env : PortSettings) : AppCall → Prop
  | listenPort _ a => a.isStream = true ∧
      (listenPortKind.get a.config = 0 ∨
        listenPortKind.InRange env.streamPortMin env.streamPortMax a) ∧
      (backendPortKind.get a.config = 0 ∨
        backendPortKind.InRange env.streamBackendMin env.streamBackendMax a)
  | backendPort _ a listen => a.isStream = true ∧
      listenPortKind.Chosen env.streamPortMin env.streamPortMax listen a ∧
      (backendPortKind.get a.config = 0 ∨
        backendPortKind.InRange env.streamBackendMin env.streamBackendMax a)
  | write _ a listen backend => a.isStream = true →
      listenPortKind.Chosen env.streamPortMin env.streamPortMax listen a ∧
      backendPortKind.Chosen env.streamBackendMin env.streamBackendMax backend a
  | _ => True

section Operations

variable {cfg : ServiceConfig} {env : PortSettings} {t : AppTable} {c : AppCall}

private theorem isStream_congr {a a' : StoredApp} (h : a'.config.upstreams = a.config.upstreams) :
    a'.isStream = a.isStream := by
  rw [StoredApp.isStream, h, StoredApp.isStream]

/-- An operation begins with an application whose ports are valid. -/
private theorem good_of_beginWrite {w : AppWrite} {a : StoredApp}
    (h : beginWrite env w a = .go c) : c.Good env := by
  rw [beginWrite] at h
  split at h
  · cases h
  · rename_i a' hvalid
    injection h with h
    subst h
    split
    · rename_i hstream
      exact ⟨hstream, StoredApp.ports_of_validate hvalid hstream⟩
    · rename_i hhttp
      exact fun hstream => absurd hstream hhttp

private theorem good_of_start {r : AppRequest} (h : r.start cfg = .go c) : c.Good cfg.ports := by
  cases r with
  | createApp a => exact good_of_beginWrite h
  | updateApp a =>
    rw [AppRequest.start] at h
    split at h
    · injection h with h
      exact h ▸ trivial
    · exact good_of_beginWrite h
  | deleteApp id =>
    injection h with h
    exact h ▸ trivial

/-- The listen port is resolved, and the backend port stays as it is. -/
private theorem good_of_listenPort {a a' : StoredApp} {w : AppWrite} {listen : List StoredApp}
    (h : (AppCall.listenPort w a).Good env) (hok : resolveStreamPort env listen a = .ok a') :
    (AppCall.backendPort w a' listen).Good env := by
  obtain ⟨hstream, hlisten, hbackend⟩ := h
  obtain ⟨hchosen, -, hconfig⟩ := resolvePort_chosen lawful_listenPortKind
    (portSetting_pos (by omega)) hlisten hok
  have hsame : a'.config.upstreams = a.config.upstreams ∧
      a'.config.backendPort = a.config.backendPort := by
    obtain hsame | ⟨port, hset⟩ := hconfig
    · rw [hsame]
      exact ⟨rfl, rfl⟩
    · rw [hset]
      exact ⟨rfl, rfl⟩
  obtain ⟨hupstreams, hport⟩ := hsame
  refine ⟨(isStream_congr hupstreams).trans hstream, hchosen, ?_⟩
  change a'.config.backendPort = 0 ∨ env.streamBackendMin ≤ a'.config.backendPort ∧
    a'.config.backendPort ≤ env.streamBackendMax
  rw [hport]
  exact hbackend

/-- The backend port is resolved, and the listen port stays as it is. -/
private theorem good_of_backendPort {a a' : StoredApp} {w : AppWrite}
    {listen backend : List StoredApp} (h : (AppCall.backendPort w a listen).Good env)
    (hok : resolveStreamBackendPort env backend a = .ok a') :
    (AppCall.write w a' listen backend).Good env := by
  obtain ⟨-, hlisten, hbackend⟩ := h
  obtain ⟨hchosen, hid, hconfig⟩ := resolvePort_chosen lawful_backendPortKind
    (portSetting_pos (by omega)) hbackend hok
  have hport : a'.config.listenPort = a.config.listenPort := by
    obtain hsame | ⟨port, hset⟩ := hconfig
    · rw [hsame]
    · rw [hset]
      rfl
  refine fun _ => ⟨⟨?_, ?_⟩, hchosen⟩
  · change env.streamPortMin ≤ a'.config.listenPort ∧ a'.config.listenPort ≤ env.streamPortMax
    rw [hport]
    exact hlisten.range
  · intro e he hne hstream
    change e.config.listenPort ≠ a'.config.listenPort
    rw [hport]
    exact hlisten.free e he (hid ▸ hne) hstream

/-- **What a call holds for the next one** has its ports chosen, if it had them. -/
theorem AppCall.Good.next (h : c.Good cfg.ports) {c' : AppCall}
    (hgo : (c.next cfg t).2 = .go c') : c'.Good cfg.ports := by
  cases c with
  | updateGetByID a =>
    rw [AppCall.next] at hgo
    dsimp only at hgo
    split at hgo
    · cases hgo
    · exact good_of_beginWrite hgo
  | listenPort w a =>
    rw [AppCall.next] at hgo
    dsimp only at hgo
    split at hgo
    · cases hgo
    · rename_i a' hok
      injection hgo with hgo
      exact hgo ▸ good_of_listenPort h hok
  | backendPort w a listen =>
    rw [AppCall.next] at hgo
    dsimp only at hgo
    split at hgo
    · cases hgo
    · rename_i a' hok
      injection hgo with hgo
      exact hgo ▸ good_of_backendPort h hok
  | write w a listen backend =>
    rw [AppCall.next] at hgo
    split at hgo <;> cases hgo
  | deleteGetByID id =>
    rw [AppCall.next] at hgo
    dsimp only at hgo
    split at hgo
    · cases hgo
    · injection hgo with hgo
      exact hgo ▸ trivial
  | delete id =>
    rw [AppCall.next] at hgo
    split at hgo <;> cases hgo

/-- A write leaves the other rows as they are, and puts one with the id and the configuration. -/
private theorem rows_of_write {w : AppWrite} {a : StoredApp} {t' : AppTable}
    (h : w.run t a = some t') : ∃ new : StoredApp, new.id = a.id ∧ new.config = a.config ∧
      ∀ row, row ∈ t'.rows ↔ row = new ∨ row ∈ t.rows ∧ row.id ≠ a.id := by
  cases w with
  | create =>
    have hfree : ∀ row ∈ t.rows, row.id ≠ a.id :=
      t.find_eq_none_iff.mp (AppTable.getByID_of_create h)
    refine ⟨{ a with underAttackMode := false }, rfl, rfl, fun row => ?_⟩
    rw [AppTable.mem_create h]
    exact or_congr_right ⟨fun hrow => ⟨hrow, hfree row hrow⟩, And.left⟩
  | update =>
    obtain ⟨old, hold, hid⟩ := AppTable.exists_of_update h
    refine ⟨AppTable.written a old, hid, rfl, fun row => ?_⟩
    rw [AppTable.mem_update h]
    constructor
    · rintro ⟨s, hs, rfl⟩
      by_cases hsid : s.id = a.id
      · rw [if_pos hsid, t.eq_of_key_eq hs hold (hsid.trans hid.symm)]
        exact .inl rfl
      · rw [if_neg hsid]
        exact .inr ⟨hs, hsid⟩
    · rintro (rfl | ⟨hrow, hne⟩)
      · exact ⟨old, hold, if_pos hid⟩
      · exact ⟨row, hrow, if_neg hne⟩

/-- The table after a call: it has been written, or rows have been deleted, or nothing is new. -/
private theorem next_cases (cfg : ServiceConfig) (t : AppTable) (c : AppCall) :
    (∃ w a listen backend, c = .write w a listen backend ∧
        w.run t a = some (c.next cfg t).1) ∨
      (c.next cfg t).1.rows ⊆ t.rows := by
  cases c with
  | write w a listen backend =>
    rw [AppCall.next]
    cases hrun : w.run t a with
    | none => exact .inr (List.Subset.refl _)
    | some t' => exact .inl ⟨w, a, listen, backend, rfl, hrun⟩
  | delete id =>
    refine .inr ?_
    rw [AppCall.next]
    cases hdelete : t.delete id with
    | none => exact List.Subset.refl _
    | some t' => exact fun row hrow => ((AppTable.mem_delete hdelete).mp hrow).1
  | _ => exact .inr (List.Subset.refl _)

end Operations

/-! ### Runs -/

namespace AppCalls

variable {cfg : ServiceConfig} {s : AppCalls}

/-- What holds in every state: the ports are in their ranges, or have been chosen in them. -/
structure Ranged (cfg : ServiceConfig) (s : AppCalls) : Prop where
  ports : s.db.PortsInRange cfg.ports
  calls : ∀ c ∈ s.calls, c.Good cfg.ports

theorem ranged_start (cfg : ServiceConfig) : Ranged cfg ⟨AppTable.empty, []⟩ :=
  ⟨⟨fun _ h => absurd h List.not_mem_nil, fun _ h => absurd h List.not_mem_nil⟩,
    fun _ h => absurd h List.not_mem_nil⟩

/-- The ports stay in their ranges when a call is made. -/
private theorem portsInRange_next (h : s.db.PortsInRange cfg.ports) {c : AppCall}
    (hc : c.Good cfg.ports) : (c.next cfg s.db).1.PortsInRange cfg.ports := by
  obtain ⟨w, a, listen, backend, rfl, hwrite⟩ | hsub := next_cases cfg s.db c
  · obtain ⟨new, -, hconfig, hrows⟩ := rows_of_write hwrite
    have hnew : new.isStream = true → a.isStream = true :=
      fun hstream => (isStream_congr (congrArg AppConfig.upstreams hconfig)).symm.trans hstream
    refine ⟨fun row hrow hstream => ?_, fun row hrow hstream => ?_⟩
    all_goals obtain rfl | ⟨hold, -⟩ := (hrows row).mp hrow
    · rw [PortKind.InRange, hconfig]
      exact (hc (hnew hstream)).1.range
    · exact h.listen row hold hstream
    · rw [PortKind.InRange, hconfig]
      exact (hc (hnew hstream)).2.range
    · exact h.backend row hold hstream
  · exact ⟨fun row hrow => h.listen row (hsub hrow), fun row hrow => h.backend row (hsub hrow)⟩

/-- **Every step keeps the ports in their ranges.** -/
theorem Ranged.step (h : s.Ranged cfg) (t : AppStep) : (s.step cfg t).Ranged cfg := by
  cases t with
  | begin r =>
    rw [AppCalls.step]
    split
    · rename_i c hgo
      exact ⟨h.ports, forall_mem_snoc h.calls (good_of_start hgo)⟩
    · exact h
  | call i =>
    rw [AppCalls.step]
    split
    · exact h
    · rename_i c hi
      have hc : c.Good cfg.ports := h.calls c (List.mem_of_getElem? hi)
      refine ⟨portsInRange_next h.ports hc, ?_⟩
      dsimp only
      split
      · rename_i c' hgo
        exact forall_mem_set h.calls i (hc.next hgo)
      · exact fun c' hc' => h.calls c' (List.mem_of_mem_eraseIdx hc')

/-- What holds in every state of a run whose calls meet their conditions. -/
structure Sound (cfg : ServiceConfig) (s : AppCalls) : Prop extends s.Ranged cfg where
  listen_unique : s.db.PortUnique listenPortKind
  backend_unique : s.db.PortUnique backendPortKind

/-- A port stays unique when it is written, if nobody has got it since it was chosen. -/
private theorem portUnique_write {kind : PortKind} {minPort maxPort : Int} {w : AppWrite}
    {a : StoredApp} {t t' : AppTable} {listed : List StoredApp} (h : t.PortUnique kind)
    (hchosen : a.isStream = true → kind.Chosen minPort maxPort listed a)
    (hunchanged : a.isStream = true → t.Unchanged kind listed a) (hwrite : w.run t a = some t') :
    t'.PortUnique kind := by
  obtain ⟨new, hid, hconfig, hrows⟩ := rows_of_write hwrite
  have hnew : new.isStream = true → a.isStream = true :=
    fun hstream => (isStream_congr (congrArg AppConfig.upstreams hconfig)).symm.trans hstream
  -- a row that is left has another port than the new one
  have hother : ∀ row ∈ t.rows, row.id ≠ a.id → new.isStream = true → row.isStream = true →
      kind.get row.config ≠ kind.get new.config := by
    intro row hrow hne hstream hrowStream hport
    rw [hconfig] at hport
    obtain ⟨e, he, heid, heStream, heport⟩ :=
      hunchanged (hnew hstream) row hrow hne hrowStream hport
    exact (hchosen (hnew hstream)).free e he (heid ▸ hne) heStream heport
  intro x hx y hy hxStream hyStream hport
  obtain rfl | ⟨hxold, hxne⟩ := (hrows x).mp hx
  · obtain rfl | ⟨hyold, hyne⟩ := (hrows y).mp hy
    · rfl
    · exact absurd hport.symm (hother y hyold hyne hxStream hyStream)
  · obtain rfl | ⟨hyold, hyne⟩ := (hrows y).mp hy
    · exact absurd hport (hother x hxold hxne hyStream hxStream)
    · exact h x hxold y hyold hxStream hyStream hport

/-- **A step that meets its condition keeps the ports unique.** -/
theorem Sound.step (h : s.Sound cfg) (t : AppStep) (hmeets : s.Meets t) :
    (s.step cfg t).Sound cfg := by
  suffices hunique : (s.step cfg t).db.PortUnique listenPortKind ∧
      (s.step cfg t).db.PortUnique backendPortKind from
    ⟨h.toRanged.step t, hunique.1, hunique.2⟩
  cases t with
  | begin r =>
    rw [AppCalls.step]
    split <;> exact ⟨h.listen_unique, h.backend_unique⟩
  | call i =>
    rw [AppCalls.step]
    split
    · exact ⟨h.listen_unique, h.backend_unique⟩
    · rename_i c hi
      dsimp only
      have hc : c.Good cfg.ports := h.calls c (List.mem_of_getElem? hi)
      obtain ⟨w, a, listen, backend, rfl, hwrite⟩ | hsub := next_cases cfg s.db c
      · have hsome : (w.run s.db a).isSome = true := by
          rw [hwrite]
          rfl
        have hnext := fun hstream => hmeets _ hi hstream hsome
        exact ⟨portUnique_write h.listen_unique (fun hstream => (hc hstream).1)
            (fun hstream => (hnext hstream).1) hwrite,
          portUnique_write h.backend_unique (fun hstream => (hc hstream).2)
            (fun hstream => (hnext hstream).2) hwrite⟩
      · exact ⟨fun x hx y hy => h.listen_unique x (hsub hx) y (hsub hy),
          fun x hx y hy => h.backend_unique x (hsub hx) y (hsub hy)⟩

/-- A port that is unique after a write was not another application's before it. -/
private theorem unchanged_of_portUnique {kind : PortKind} {w : AppWrite} {a : StoredApp}
    {t t' : AppTable} (listed : List StoredApp) (hwrite : w.run t a = some t')
    (hstream : a.isStream = true) (h : t'.PortUnique kind) : t.Unchanged kind listed a := by
  intro row hrow hne hrowStream hport
  obtain ⟨new, hid, hconfig, hrows⟩ := rows_of_write hwrite
  have hnew : new.isStream = true :=
    (isStream_congr (congrArg AppConfig.upstreams hconfig)).trans hstream
  have hsame : row = new := by
    refine h row ((hrows row).mpr (.inr ⟨hrow, hne⟩)) new ((hrows new).mpr (.inl rfl)) hrowStream
      hnew ?_
    rw [hconfig]
    exact hport
  exact absurd (hsame ▸ hid) hne

/-- A step after which the ports are unique meets its condition. -/
private theorem meets_of_portsRight {t : AppStep}
    (hright : (s.step cfg t).db.PortsRight cfg.ports) : s.Meets t := by
  cases t with
  | begin r => trivial
  | call i =>
    intro c hi
    rw [AppCalls.step, Option.mem_def.mp hi] at hright
    dsimp only at hright
    cases c with
    | write w a listen backend =>
      intro hstream hsome
      obtain ⟨t', hwrite⟩ := Option.isSome_iff_exists.mp hsome
      rw [AppCall.next, hwrite] at hright
      exact ⟨unchanged_of_portUnique listen hwrite hstream hright.listen_unique,
        unchanged_of_portUnique backend hwrite hstream hright.backend_unique⟩
    | _ => trivial

end AppCalls

/-- **The ports of stream applications.** In every state of a run no two stream applications share a
listen port or a backend port, and each port lies in its range, exactly when no stream application
is written while another one has got its port since the rows were listed. -/
theorem stream_ports_iff (cfg : ServiceConfig) (steps : List AppStep) :
    (∀ past, past <+: steps → (AppCalls.run cfg past).db.PortsRight cfg.ports) ↔
      ∀ past t, past ++ [t] <+: steps → (AppCalls.run cfg past).Meets t := by
  have hnone : ∀ kind, AppTable.empty.PortUnique kind := fun _ _ h => absurd h List.not_mem_nil
  have hstart : AppCalls.Sound cfg ⟨AppTable.empty, []⟩ :=
    ⟨AppCalls.ranged_start cfg, hnone _, hnone _⟩
  exact forall_prefix_iff (P := fun s => s.db.PortsRight cfg.ports) hstart
    (fun _ h => ⟨h.ports, h.listen_unique, h.backend_unique⟩) (fun _ t h => h.step t)
    (fun _ _ _ => AppCalls.meets_of_portsRight) steps

/-- The ports lie in their ranges whatever the operations do to each other. -/
theorem stream_ports_in_range (cfg : ServiceConfig) (steps : List AppStep) :
    (AppCalls.run cfg steps).db.PortsInRange cfg.ports := by
  suffices hranged : (AppCalls.run cfg steps).Ranged cfg from hranged.ports
  refine run_induction (P := fun past => (AppCalls.run cfg past).Ranged cfg)
    (AppCalls.ranged_start cfg) fun past t _ hpast => ?_
  rw [AppCalls.run, List.foldl_append]
  exact hpast.step t

/-- Two applications that are created at the same time get the same ports. -/
theorem stream_ports_shared :
    let cfg : ServiceConfig := ⟨⟨[], [], [], []⟩, false, []⟩
    let s := AppCalls.run cfg
      [.begin (.createApp (sampleApp (str "mail") (str "mail.example") (str "tcp"))),
        .begin (.createApp (sampleApp (str "db") (str "db.example") (str "tcp"))),
        .call 0, .call 1, .call 0, .call 1, .call 0, .call 0]
    s.db.rows.map (fun a => (a.config.listenPort, a.config.backendPort)) =
        [(10000, 40000), (10000, 40000)] ∧
      ¬ s.db.PortsRight cfg.ports := by
  intro cfg s
  have hshared : ∃ a ∈ s.db.rows, ∃ b ∈ s.db.rows, a.isStream = true ∧ b.isStream = true ∧
      a.config.listenPort = b.config.listenPort ∧ a.id ≠ b.id := by
    decide +kernel
  refine ⟨by decide +kernel, fun hright => ?_⟩
  obtain ⟨a, ha, b, hb, haStream, hbStream, hport, hne⟩ := hshared
  exact hne (congrArg _ (hright.listen_unique a ha b hb haStream hbStream hport))

end VibesWaf

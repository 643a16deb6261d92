import VibesWaf.Apps.Repository
import VibesWaf.Lib.Run

/-!
# The services that run for the applications

`CreateApp`, `UpdateApp` and `DeleteApp` change the table and then start and stop what runs for an
application: a listener of the stream proxy, or a health checker. The calls come one after the
other, and listening, writing files and reloading succeed.

`UpdateApp` stops what an application of the new kind would have left running, and not what one of
the old kind has. `following_iff` says what comes of it: what runs follows the table along a whole
run exactly when no update that is carried out turns a stream application into an HTTP application
or a health-checked HTTP application into a stream.
-/

namespace VibesWaf

/-! ### Listeners -/

/-- The registries `listeners` and `udpConns` of the proxy. -/
inductive Transport
  | tcp
  | udp
  deriving DecidableEq

/-- A socket that is open for an application. -/
structure StreamSocket where
  appID : GoString
  transport : Transport
  port : Int
  deriving DecidableEq

/-- The transport of a stream application. -/
def StoredApp.transport (a : StoredApp) : Transport :=
  if a.streamScheme = str "tcp" then .tcp else .udp

/-- The backend port of a stream application of the transport. -/
def StoredApp.portOn (a : StoredApp) (tr : Transport) : Option Int :=
  if a.isStream ∧ a.transport = tr then some a.config.backendPort else none

/-- A health checker belongs to the application. -/
def StoredApp.checked (a : StoredApp) : Bool :=
  !a.isStream && a.config.healthCheck.enabled

/-- The table and what runs: the sockets of each registry by application, the open sockets, and the
health checkers by application, of which one may have ended by itself. -/
structure AppServices where
  db : AppTable
  sockets : Transport → GoString → Option Int
  running : List StreamSocket
  checkers : GoString → Option Bool

/-- `StartForApp`: a new socket, whatever the registry holds. -/
def AppServices.startForApp (s : AppServices) (a : StoredApp) : AppServices :=
  if a.isStream then
    { s with
      sockets := fun tr id =>
        if tr = a.transport ∧ id = a.id then some a.config.backendPort else s.sockets tr id
      running := s.running ++ [⟨a.id, a.transport, a.config.backendPort⟩] }
  else s

/-- `StopForApp`: the registered sockets are closed. -/
def AppServices.stopForApp (s : AppServices) (appID : GoString) : AppServices :=
  { s with
    sockets := fun tr id => if id = appID then none else s.sockets tr id
    running := s.running.filter fun k =>
      ¬ (k.appID = appID ∧ s.sockets k.transport appID = some k.port) }

/-- `HealthCheckService.Start`. -/
def AppServices.startCheck (s : AppServices) (a : StoredApp) : AppServices :=
  if a.config.healthCheck.enabled then
    { s with checkers := fun id => if id = a.id then some true else s.checkers id }
  else s

/-- `HealthCheckService.Stop`. -/
def AppServices.stopCheck (s : AppServices) (appID : GoString) : AppServices :=
  { s with checkers := fun id => if id = appID then none else s.checkers id }

/-- What `CreateApp` and `StartStreamApps` start for an application. -/
def AppServices.startServices (s : AppServices) (a : StoredApp) : AppServices :=
  if a.isStream then s.startForApp a else s.startCheck a

/-- What `UpdateApp` and `DeleteApp` stop: what an application of one kind may have. -/
def AppServices.stopServices (s : AppServices) (stream : Bool) (appID : GoString) : AppServices :=
  if stream then s.stopForApp appID else s.stopCheck appID

/-! ### Ports -/

/-- A port of a stream application, with its name in the errors. -/
structure PortKind where
  get : AppConfig → Int
  set : AppConfig → Int → AppConfig
  noun : GoString

/-- The listen port, of `findAvailablePort` and `checkPortConflict`. -/
def listenPortKind : PortKind :=
  ⟨(·.listenPort), fun c port => { c with listenPort := port }, str "port"⟩

/-- The backend port, of `findAvailableBackendPort` and `checkBackendPortConflict`. -/
def backendPortKind : PortKind :=
  ⟨(·.backendPort), fun c port => { c with backendPort := port }, str "backend port"⟩

/-- The first port of a range that no other stream application has. -/
def findAvailable (kind : PortKind) (apps : List StoredApp) (excludeAppID : GoString)
    (minPort maxPort : Int) : Except GoString Int :=
  let used := (apps.filter fun e =>
    e.id ≠ excludeAppID ∧ e.isStream ∧ 0 < kind.get e.config).map fun e => kind.get e.config
  let ports := (List.range (maxPort - minPort + 1).toNat).map fun (i : ℕ) => minPort + i
  match ports.find? (· ∉ used) with
  | some port => .ok port
  | none =>
    .error (str "no available " ++ kind.noun ++ str " in range " ++ itoa minPort ++ str "-" ++
      itoa maxPort)

/-- A port that another stream application has. -/
def checkConflict (kind : PortKind) (apps : List StoredApp) (excludeAppID : GoString)
    (port : Int) : Except GoString Unit :=
  match apps.find? fun e => e.id ≠ excludeAppID ∧ e.isStream ∧ kind.get e.config = port with
  | some e =>
    .error (kind.noun ++ str " " ++ itoa port ++ str " is already used by app " ++ e.id ++ str " (" ++
      e.domain ++ str ")")
  | none => .ok ()

/-- A port is chosen if none is set, and otherwise checked. -/
def resolvePort (kind : PortKind) (apps : List StoredApp) (minPort maxPort : Int)
    (a : StoredApp) : Except GoString StoredApp :=
  if kind.get a.config = 0 then
    (findAvailable kind apps a.id minPort maxPort).map fun port =>
      { a with config := kind.set a.config port }
  else (checkConflict kind apps a.id (kind.get a.config)).map fun _ => a

/-- `resolveStreamPort`. -/
def resolveStreamPort (env : PortSettings) (apps : List StoredApp) (a : StoredApp) :
    Except GoString StoredApp :=
  resolvePort listenPortKind apps env.streamPortMin env.streamPortMax a

/-- `resolveStreamBackendPort`. -/
def resolveStreamBackendPort (env : PortSettings) (apps : List StoredApp) (a : StoredApp) :
    Except GoString StoredApp :=
  resolvePort backendPortKind apps env.streamBackendMin env.streamBackendMax a

/-! ### Calls -/

/-- What the service is configured with. -/
structure ServiceConfig where
  ports : PortSettings
  demoMode : Bool
  demoDomain : GoString

/-- Why a call fails; what the database says is left out. -/
inductive AppServiceError
  | immortal (message : GoString)
  | validation (message : GoString)
  | port (message : GoString)
  | repository (message : GoString)

namespace AppServices

variable (cfg : ServiceConfig)

/-- An application in demo mode that may not be changed. -/
def immortal (s : AppServices) (id : GoString) : Bool :=
  cfg.demoMode && (s.db.getByID id).any (·.domain = cfg.demoDomain)

/-- The record that `CreateApp` and `UpdateApp` hand to the repository: validated, and with its
ports. -/
def prepare (s : AppServices) (a : StoredApp) : Except AppServiceError StoredApp :=
  match a.validate cfg.ports with
  | .error e => .error (.validation (str "validation failed: " ++ e))
  | .ok a =>
    if a.isStream then
      match (resolveStreamPort cfg.ports s.db.listAll a).bind
          (resolveStreamBackendPort cfg.ports s.db.listAll) with
      | .error e => .error (.port e)
      | .ok a => .ok a
    else .ok a

/-- `CreateApp`. -/
def createApp (s : AppServices) (a : StoredApp) : Except AppServiceError AppServices :=
  match s.prepare cfg a with
  | .error e => .error e
  | .ok a =>
    match s.db.create a with
    | none => .error (.repository (str "failed to create app: failed to create app"))
    | some t => .ok (startServices { s with db := t } a)

/-- `UpdateApp`. -/
def updateApp (s : AppServices) (a : StoredApp) : Except AppServiceError AppServices :=
  if s.immortal cfg a.id then
    .error (.immortal (str "cannot modify immortal domain in demo mode"))
  else
    match s.prepare cfg a with
    | .error e => .error e
    | .ok a =>
      match s.db.update a with
      | none =>
        .error (.repository (str "failed to update app: " ++
          if s.db.getByID a.id = none then str "app not found" else str "failed to update app"))
      -- the new version decides what is stopped
      | some t => .ok ((stopServices { s with db := t } a.isStream a.id).startServices a)

/-- `DeleteApp`. -/
def deleteApp (s : AppServices) (id : GoString) : Except AppServiceError AppServices :=
  if s.immortal cfg id then
    .error (.immortal (str "cannot delete immortal domain in demo mode"))
  else
    match s.db.delete id with
    | none => .error (.repository (str "failed to delete app: app not found"))
    | some t => .ok (stopServices { s with db := t } ((s.db.getByID id).any (·.isStream)) id)

/-- A tick of the health checker of an application, which ends by itself if health checks are
disabled; what it writes changes no more than the health of the upstreams. -/
def tick (s : AppServices) (id : GoString) : AppServices :=
  if s.checkers id = some true ∧ (s.db.getByID id).any (!·.config.healthCheck.enabled) then
    { s with checkers := fun k => if k = id then some false else s.checkers k }
  else s

/-- `StartStreamApps`, for the applications that are stored when the program starts. -/
def startStreamApps (t : AppTable) : AppServices :=
  t.listAll.foldl startServices ⟨t, fun _ _ => none, [], fun _ => none⟩

end AppServices

/-- What happens next. -/
inductive ServiceEvent
  | createApp (a : StoredApp)
  | updateApp (a : StoredApp)
  | deleteApp (id : GoString)
  | tick (id : GoString)

namespace AppServices

variable (cfg : ServiceConfig)

/-- One event; a call that fails leaves everything as it is. -/
def step (s : AppServices) : ServiceEvent → AppServices
  | .createApp a => (s.createApp cfg a).toOption.getD s
  | .updateApp a => (s.updateApp cfg a).toOption.getD s
  | .deleteApp id => (s.deleteApp cfg id).toOption.getD s
  | .tick id => s.tick id

/-- What runs after some events. -/
def run (t : AppTable) (events : List ServiceEvent) : AppServices :=
  events.foldl (step cfg) (startStreamApps t)

/-- What runs is what the stored applications ask for. -/
def Following (s : AppServices) : Prop :=
  (∀ k, k ∈ s.running ↔
      ∃ a ∈ s.db.rows, a.isStream ∧ k = ⟨a.id, a.transport, a.config.backendPort⟩) ∧
    ∀ id, s.checkers id = some true ↔
      ∃ a ∈ s.db.rows, a.id = id ∧ a.isStream = false ∧ a.config.healthCheck.enabled

/-- An update that is carried out does not turn a stream into an HTTP application, nor an HTTP
application whose health is checked into a stream. -/
def KeepsKind (s : AppServices) : ServiceEvent → Prop
  | .updateApp a =>
    (s.updateApp cfg a).toOption.isSome → ∀ old ∈ s.db.rows, old.id = a.id →
      if a.isStream then old.checked = false else old.isStream = false
  | _ => True

/-! ### What runs for one application -/

/-- What runs under an id is what an application asks for, or nothing. -/
structure RunsFor (s : AppServices) (id : GoString) (o : Option StoredApp) : Prop where
  registered : ∀ tr, s.sockets tr id = o.bind (·.portOn tr)
  running : ∀ tr port, ⟨id, tr, port⟩ ∈ s.running ↔ o.bind (·.portOn tr) = some port
  checker : s.checkers id = (o.filter StoredApp.checked).map fun _ => true

variable {s : AppServices} {a : StoredApp} {id : GoString} {o : Option StoredApp}

/-- Starting an application where nothing runs. -/
private theorem RunsFor.start (h : RunsFor s a.id none) :
    RunsFor (s.startServices a) a.id (some a) := by
  rw [startServices]
  cases hstream : a.isStream with
  | true =>
    rw [if_pos rfl, startForApp, if_pos hstream]
    refine ⟨fun tr => ?_, fun tr port => ?_, ?_⟩
    · have hold := h.registered tr
      by_cases htr : a.transport = tr
      · simp [StoredApp.portOn, hstream, htr]
      · simpa [StoredApp.portOn, hstream, htr, Ne.symm htr] using hold
    · have hold : ⟨a.id, tr, port⟩ ∉ s.running := by simp [h.running]
      simp only [List.mem_append, hold, false_or, List.mem_singleton, StreamSocket.mk.injEq,
        true_and, Option.bind_some, StoredApp.portOn, hstream]
      by_cases htr : a.transport = tr
      · simp [htr, eq_comm]
      · simp [htr, Ne.symm htr]
    · simpa [StoredApp.checked, hstream, Option.filter] using h.checker
  | false =>
    have hport : ∀ tr, a.portOn tr = none := fun tr => by simp [StoredApp.portOn, hstream]
    rw [if_neg (by simp), startCheck]
    cases henabled : a.config.healthCheck.enabled with
    | true =>
      rw [if_pos rfl]
      refine ⟨fun tr => ?_, fun tr port => ?_, ?_⟩
      · simpa [hport] using h.registered tr
      · simpa [hport] using h.running tr port
      · simp [StoredApp.checked, hstream, henabled, Option.filter]
    | false =>
      rw [if_neg (by simp)]
      refine ⟨fun tr => ?_, fun tr port => ?_, ?_⟩
      · simpa [hport] using h.registered tr
      · simpa [hport] using h.running tr port
      · simpa [StoredApp.checked, hstream, henabled, Option.filter] using h.checker

/-- Stopping what one kind of application has, if the other has nothing. -/
private theorem RunsFor.stop (h : RunsFor s id o) {stream : Bool}
    (hkind : ∀ a ∈ o, if stream then a.checked = false else a.isStream = false) :
    RunsFor (s.stopServices stream id) id none := by
  rw [stopServices]
  cases stream with
  | true =>
    have hchecker : o.filter StoredApp.checked = none :=
      Option.filter_eq_none_iff.mpr fun a ha => by simpa using hkind a ha
    rw [if_pos rfl, stopForApp]
    refine ⟨fun tr => if_pos rfl, fun tr port => ?_, ?_⟩
    · -- an open socket is the registered one, and closed
      have hclosed : ¬ (⟨id, tr, port⟩ ∈ s.running ∧ s.sockets tr id ≠ some port) := fun hk =>
        hk.2 ((h.registered tr).trans ((h.running tr port).mp hk.1))
      simpa [List.mem_filter] using hclosed
    · simpa [hchecker] using h.checker
  | false =>
    have hport : ∀ tr, o.bind (·.portOn tr) = none := fun tr => by
      refine Option.bind_eq_none_iff.mpr fun a ha => ?_
      have hstream : a.isStream = false := by simpa using hkind a ha
      simp [StoredApp.portOn, hstream]
    rw [if_neg (by simp), stopCheck]
    refine ⟨fun tr => ?_, fun tr port => ?_, if_pos rfl⟩
    · simpa [hport] using h.registered tr
    · simpa [hport] using h.running tr port

/-- Starting an application leaves the others alone. -/
private theorem RunsFor.start_other (h : RunsFor s id o) (hid : id ≠ a.id) :
    RunsFor (s.startServices a) id o := by
  rw [startServices]
  cases hstream : a.isStream with
  | true =>
    rw [if_pos rfl, startForApp, if_pos hstream]
    refine ⟨fun tr => ?_, fun tr port => ?_, h.checker⟩
    · simpa [hid] using h.registered tr
    · simpa [hid] using h.running tr port
  | false =>
    rw [if_neg (by simp), startCheck]
    split
    · exact ⟨h.registered, h.running, by simpa [hid] using h.checker⟩
    · exact h

/-- Stopping an application leaves the others alone. -/
private theorem RunsFor.stop_other (h : RunsFor s id o) {stream : Bool} {appID : GoString}
    (hid : id ≠ appID) : RunsFor (s.stopServices stream appID) id o := by
  rw [stopServices]
  cases stream with
  | true =>
    rw [if_pos rfl, stopForApp]
    refine ⟨fun tr => ?_, fun tr port => ?_, h.checker⟩
    · simpa [hid] using h.registered tr
    · simpa [hid] using h.running tr port
  | false =>
    rw [if_neg (by simp), stopCheck]
    exact ⟨h.registered, h.running, by simpa [hid] using h.checker⟩

/-- Starting and stopping do not touch the table. -/
@[simp] private theorem startServices_db (s : AppServices) (a : StoredApp) :
    (s.startServices a).db = s.db := by
  rw [startServices]
  split
  · rw [startForApp]
    split <;> rfl
  · rw [startCheck]
    split <;> rfl

@[simp] private theorem stopServices_db (s : AppServices) (stream : Bool) (appID : GoString) :
    (s.stopServices stream appID).db = s.db := by
  rw [stopServices]
  split <;> rfl

/-- What runs does not depend on the table. -/
private theorem RunsFor.of_db (h : RunsFor s id o) (t : AppTable) :
    RunsFor { s with db := t } id o :=
  ⟨h.registered, h.running, h.checker⟩

/-- What an application asks for lies in its configuration. -/
private theorem RunsFor.congr {b : StoredApp} (h : RunsFor s id (some a))
    (hconfig : b.config = a.config) : RunsFor s id (some b) := by
  have hstream : b.isStream = a.isStream := by rw [StoredApp.isStream, hconfig, StoredApp.isStream]
  have htransport : b.transport = a.transport := by
    rw [StoredApp.transport, StoredApp.streamScheme, hconfig, StoredApp.transport,
      StoredApp.streamScheme]
  have hport : ∀ tr, b.portOn tr = a.portOn tr := fun tr => by
    rw [StoredApp.portOn, hstream, htransport, hconfig, StoredApp.portOn]
  have hchecked : b.checked = a.checked := by simp [StoredApp.checked, hstream, hconfig]
  refine ⟨fun tr => ?_, fun tr port => ?_, ?_⟩
  · simpa [hport] using h.registered tr
  · simpa [hport] using h.running tr port
  · simpa [Option.filter, hchecked] using h.checker

/-! ### What a call does -/

/-- A port does not change what kind of application it belongs to. -/
private theorem resolvePort_ok {kind : PortKind} {apps : List StoredApp} {minPort maxPort : Int}
    {a a' : StoredApp} (hset : ∀ c port, (kind.set c port).upstreams = c.upstreams)
    (h : resolvePort kind apps minPort maxPort a = .ok a') :
    a'.id = a.id ∧ a'.config.upstreams = a.config.upstreams := by
  rw [resolvePort] at h
  split at h
  · cases hfind : findAvailable kind apps a.id minPort maxPort with
    | error e => simp [hfind, Except.map] at h
    | ok port =>
      obtain rfl : { a with config := kind.set a.config port } = a' := by
        simpa [hfind, Except.map] using h
      exact ⟨rfl, hset _ _⟩
  · cases hconflict : checkConflict kind apps a.id (kind.get a.config) with
    | error e => simp [hconflict, Except.map] at h
    | ok u =>
      obtain rfl : a = a' := by simpa [hconflict, Except.map] using h
      exact ⟨rfl, rfl⟩

private theorem resolvePorts_ok {env : PortSettings} {apps : List StoredApp} {a a' : StoredApp}
    (h : (resolveStreamPort env apps a).bind (resolveStreamBackendPort env apps) = .ok a') :
    a'.id = a.id ∧ a'.config.upstreams = a.config.upstreams := by
  cases hport : resolveStreamPort env apps a with
  | error e => simp [hport, Except.bind] at h
  | ok b =>
    rw [hport] at h
    obtain ⟨hid, hup⟩ := resolvePort_ok (fun _ _ => rfl) hport
    obtain ⟨hid', hup'⟩ := resolvePort_ok (fun _ _ => rfl) h
    exact ⟨hid'.trans hid, hup'.trans hup⟩

/-- The record that reaches the repository is of the kind that was asked for. -/
private theorem prepare_ok {cfg : ServiceConfig} {a a' : StoredApp} (h : s.prepare cfg a = .ok a') :
    a'.id = a.id ∧ a'.isStream = a.isStream := by
  suffices hup : a'.id = a.id ∧ a'.config.upstreams = a.config.upstreams from
    ⟨hup.1, by rw [StoredApp.isStream, hup.2, StoredApp.isStream]⟩
  rw [prepare] at h
  cases hvalid : a.validate cfg.ports with
  | error e => simp [hvalid] at h
  | ok b =>
    have hsame : b.id = a.id ∧ b.config.upstreams = a.config.upstreams := by
      rw [StoredApp.validate_eq_ok hvalid]
      exact ⟨rfl, rfl⟩
    simp only [hvalid] at h
    split at h
    · split at h
      · cases h
      · rename_i c hports
        obtain rfl := Except.ok.inj h
        obtain ⟨hid, hup⟩ := resolvePorts_ok hports
        exact ⟨hid.trans hsame.1, hup.trans hsame.2⟩
    · obtain rfl := Except.ok.inj h
      exact hsame

private theorem createApp_ok {cfg : ServiceConfig} {s' : AppServices}
    (h : s.createApp cfg a = .ok s') : ∃ a' t, s.prepare cfg a = .ok a' ∧
      s.db.create a' = some t ∧ s' = startServices { s with db := t } a' := by
  rw [createApp] at h
  cases hprepare : s.prepare cfg a with
  | error e => simp [hprepare] at h
  | ok a' =>
    simp only [hprepare] at h
    cases hcreate : s.db.create a' with
    | none => simp [hcreate] at h
    | some t =>
      rw [hcreate] at h
      exact ⟨a', t, rfl, hcreate, (Except.ok.inj h).symm⟩

private theorem updateApp_ok {cfg : ServiceConfig} {s' : AppServices}
    (h : s.updateApp cfg a = .ok s') : ∃ a' t, s.prepare cfg a = .ok a' ∧
      s.db.update a' = some t ∧
      s' = (stopServices { s with db := t } a'.isStream a'.id).startServices a' := by
  rw [updateApp] at h
  split at h
  · cases h
  · cases hprepare : s.prepare cfg a with
    | error e => simp [hprepare] at h
    | ok a' =>
      simp only [hprepare] at h
      cases hupdate : s.db.update a' with
      | none => simp [hupdate] at h
      | some t =>
        rw [hupdate] at h
        exact ⟨a', t, rfl, hupdate, (Except.ok.inj h).symm⟩

private theorem deleteApp_ok {cfg : ServiceConfig} {s' : AppServices}
    (h : s.deleteApp cfg id = .ok s') : ∃ t, s.db.delete id = some t ∧
      s' = stopServices { s with db := t } ((s.db.getByID id).any (·.isStream)) id := by
  rw [deleteApp] at h
  split at h
  · cases h
  · cases hdelete : s.db.delete id with
    | none => simp [hdelete] at h
    | some t =>
      rw [hdelete] at h
      exact ⟨t, rfl, (Except.ok.inj h).symm⟩

/-- A call that is carried out, or leaves everything as it is. -/
private theorem step_cases (cfg : ServiceConfig) (s : AppServices) (e : ServiceEvent) :
    s.step cfg e = s ∨ (∃ a a' t, e = .createApp a ∧ s.prepare cfg a = .ok a' ∧
        s.db.create a' = some t ∧ s.step cfg e = startServices { s with db := t } a') ∨
      (∃ a a' t, e = .updateApp a ∧ s.prepare cfg a = .ok a' ∧ s.db.update a' = some t ∧
        (s.updateApp cfg a).toOption.isSome ∧
        s.step cfg e = (stopServices { s with db := t } a'.isStream a'.id).startServices a') ∨
      (∃ id t, e = .deleteApp id ∧ s.db.delete id = some t ∧
        s.step cfg e = stopServices { s with db := t } ((s.db.getByID id).any (·.isStream)) id) ∨
      ∃ id a, e = .tick id ∧ s.checkers id = some true ∧ s.db.getByID id = some a ∧
        a.config.healthCheck.enabled = false := by
  cases e with
  | createApp a =>
    rw [step]
    cases hcall : s.createApp cfg a with
    | error e => exact .inl rfl
    | ok s' =>
      obtain ⟨a', t, hprepare, hcreate, rfl⟩ := createApp_ok hcall
      exact .inr (.inl ⟨a, a', t, rfl, hprepare, hcreate, rfl⟩)
  | updateApp a =>
    rw [step]
    cases hcall : s.updateApp cfg a with
    | error e => exact .inl rfl
    | ok s' =>
      obtain ⟨a', t, hprepare, hupdate, rfl⟩ := updateApp_ok hcall
      exact .inr (.inr (.inl ⟨a, a', t, rfl, hprepare, hupdate, by rw [hcall]; rfl, rfl⟩))
  | deleteApp id =>
    rw [step]
    cases hcall : s.deleteApp cfg id with
    | error e => exact .inl rfl
    | ok s' =>
      obtain ⟨t, hdelete, rfl⟩ := deleteApp_ok hcall
      exact .inr (.inr (.inr (.inl ⟨id, t, rfl, hdelete, rfl⟩)))
  | tick id =>
    rw [step, tick]
    split
    · rename_i hends
      cases ha : s.db.getByID id with
      | none => simp [ha] at hends
      | some a =>
        have hdisabled : a.config.healthCheck.enabled = false := by simpa [ha] using hends.2
        exact .inr (.inr (.inr (.inr ⟨id, a, rfl, hends.1, ha, hdisabled⟩)))
    · exact .inl rfl

/-! ### Runs -/

/-- What runs under every id is what the application stored under it asks for. -/
def Sound (s : AppServices) : Prop :=
  ∀ id, RunsFor s id (s.db.getByID id)

/-- What the stored applications ask for runs. -/
private theorem following_of_sound (h : s.Sound) : s.Following := by
  refine ⟨fun ⟨id, tr, port⟩ => ?_, fun id => ?_⟩
  · rw [(h id).running, Option.bind_eq_some_iff]
    constructor
    · rintro ⟨a, ha, hport⟩
      obtain ⟨hrow, rfl⟩ := AppTable.getByID_eq_some_iff.mp ha
      rw [StoredApp.portOn] at hport
      split at hport
      · rename_i hstream
        obtain rfl := Option.some.inj hport
        obtain ⟨hs, rfl⟩ := hstream
        exact ⟨a, hrow, hs, rfl⟩
      · cases hport
    · rintro ⟨a, hrow, hstream, heq⟩
      obtain ⟨rfl, rfl, rfl⟩ := StreamSocket.mk.inj heq
      exact ⟨a, AppTable.getByID_eq_some_iff.mpr ⟨hrow, rfl⟩, if_pos ⟨hstream, rfl⟩⟩
  · rw [(h id).checker]
    simp only [Option.map_eq_some_iff, Option.filter_eq_some_iff, and_true]
    constructor
    · rintro ⟨a, ha, hchecked⟩
      obtain ⟨hrow, hid⟩ := AppTable.getByID_eq_some_iff.mp ha
      simp only [StoredApp.checked, Bool.and_eq_true, Bool.not_eq_true'] at hchecked
      exact ⟨a, hrow, hid, hchecked.1, hchecked.2⟩
    · rintro ⟨a, hrow, hid, hstream, henabled⟩
      exact ⟨a, AppTable.getByID_eq_some_iff.mpr ⟨hrow, hid⟩, by
        simp [StoredApp.checked, hstream, henabled]⟩

/-- **A step that keeps kinds** keeps what runs in line with the table. -/
private theorem step_sound {cfg : ServiceConfig} {e : ServiceEvent} (h : s.Sound)
    (hkind : s.KeepsKind cfg e) : (s.step cfg e).Sound := by
  intro id
  rcases step_cases cfg s e with heq | ⟨a, a', t, -, -, hcreate, heq⟩ |
    ⟨a, a', t, rfl, hprepare, hupdate, hok, heq⟩ | ⟨key, t, -, hdelete, heq⟩ |
    ⟨key, a, -, hruns, ha, hdisabled⟩
  · rw [heq]
    exact h id
  · -- nothing ran for an application that was not stored
    have hfree := AppTable.getByID_of_create hcreate
    rw [heq, startServices_db, AppTable.getByID_create hcreate]
    split
    · rename_i hid
      subst hid
      have hnone : RunsFor s a'.id none := hfree ▸ h a'.id
      exact (hnone.of_db t).start.congr rfl
    · rename_i hid
      exact ((h id).of_db t).start_other hid
  · obtain ⟨hida, hstream⟩ := prepare_ok hprepare
    rw [heq, startServices_db, stopServices_db, AppTable.getByID_update hupdate]
    split
    · rename_i hid
      subst hid
      have hstop : RunsFor (stopServices { s with db := t } a'.isStream a'.id) a'.id none := by
        refine ((h a'.id).of_db t).stop fun old hold => ?_
        obtain ⟨hrow, hid⟩ := AppTable.getByID_eq_some_iff.mp (Option.mem_def.mp hold)
        rw [hstream]
        exact hkind hok old hrow (hid.trans hida)
      obtain ⟨old, hrow, hid⟩ := AppTable.exists_of_update hupdate
      rw [AppTable.getByID_eq_some_iff.mpr ⟨hrow, hid⟩]
      exact hstop.start.congr rfl
    · rename_i hid
      exact (((h id).of_db t).stop_other hid).start_other hid
  · rw [heq, stopServices_db, AppTable.getByID_delete hdelete]
    split
    · rename_i hid
      subst hid
      refine ((h id).of_db t).stop fun a ha => ?_
      rw [Option.mem_def.mp ha, Option.any_some]
      cases hstream : a.isStream <;> simp [StoredApp.checked, hstream]
    · rename_i hid
      exact ((h id).of_db t).stop_other hid
  · -- a checker that runs is one of an application with health checks
    have hchecker := (h key).checker
    rw [hruns, ha] at hchecker
    simp [StoredApp.checked, hdisabled, Option.filter] at hchecker

/-- What runs when the program has started. -/
private theorem startStreamApps_sound (t : AppTable) : (startStreamApps t).Sound := by
  suffices hfold : ∀ apps : List StoredApp, (apps.map StoredApp.id).Nodup →
      (apps.foldl startServices ⟨t, fun _ _ => none, [], fun _ => none⟩).db = t ∧
      ∀ id, RunsFor (apps.foldl startServices ⟨t, fun _ _ => none, [], fun _ => none⟩) id
        (apps.find? (·.id = id)) by
    obtain ⟨hdb, hruns⟩ := hfold t.rows t.keys
    intro id
    rw [startStreamApps, AppTable.listAll, hdb]
    exact hruns id
  intro apps
  induction apps using List.reverseRecOn with
  | nil => exact fun _ => ⟨rfl, fun id => ⟨fun _ => rfl, fun _ _ => by simp, rfl⟩⟩
  | append_singleton apps a ih =>
    intro hnodup
    rw [List.map_append, List.nodup_append] at hnodup
    obtain ⟨hdb, hruns⟩ := ih hnodup.1
    rw [List.foldl_append, List.foldl_cons, List.foldl_nil]
    refine ⟨(startServices_db _ a).trans hdb, fun id => ?_⟩
    rw [List.find?_append]
    by_cases hid : id = a.id
    · subst hid
      have hnone : apps.find? (·.id = a.id) = none := by
        refine List.find?_eq_none.mpr fun b hb heq => ?_
        exact hnodup.2.2 b.id (List.mem_map_of_mem hb) a.id (by simp) (of_decide_eq_true heq)
      have hfree := hruns a.id
      rw [hnone] at hfree ⊢
      simpa using hfree.start
    · have hother : [a].find? (·.id = id) = none := by simp [Ne.symm hid]
      rw [hother, Option.or_none]
      exact (hruns id).start_other hid

/-- An update to a stream leaves the health checkers alone. -/
private theorem checkers_of_stream (s : AppServices) (hstream : a.isStream = true) :
    ((s.stopServices a.isStream a.id).startServices a).checkers = s.checkers := by
  rw [hstream, stopServices, if_pos rfl, startServices, if_pos hstream, startForApp, if_pos hstream]
  rfl

/-- An update to an HTTP application leaves the sockets alone. -/
private theorem running_of_http (s : AppServices) (hstream : a.isStream = false) :
    ((s.stopServices a.isStream a.id).startServices a).running = s.running := by
  rw [hstream, stopServices, if_neg (by simp), startServices, if_neg (by simp [hstream]),
    startCheck]
  split <;> rfl

/-- The row of an update is of the kind that was asked for. -/
private theorem isStream_of_update {t t' : AppTable} {row : StoredApp} (h : t.update a = some t')
    (hrow : row ∈ t'.rows) (hid : row.id = a.id) : row.isStream = a.isStream := by
  obtain ⟨old, -, rfl⟩ := (AppTable.mem_update h).mp hrow
  by_cases hold : old.id = a.id
  · rw [if_pos hold]
    rfl
  · rw [if_neg hold] at hid
    exact absurd hid hold

/-- A step after which what runs still follows the table has kept the kinds. -/
private theorem keepsKind_of_following {cfg : ServiceConfig} {e : ServiceEvent} (h : s.Sound)
    (hafter : (s.step cfg e).Following) : s.KeepsKind cfg e := by
  cases e with
  | updateApp a =>
    intro hok old hrow hid
    cases hcall : s.updateApp cfg a with
    | error e => simp [hcall, Except.toOption] at hok
    | ok s' =>
      obtain ⟨a', t, hprepare, hupdate, hs'⟩ := updateApp_ok hcall
      obtain ⟨hida, hstream⟩ := prepare_ok hprepare
      have hdb : s'.db = t := by rw [hs', startServices_db, stopServices_db]
      have hfollow : s'.Following := by
        have hstep : s.step cfg (.updateApp a) = s' := by rw [step, hcall]; rfl
        rwa [hstep] at hafter
      have hold := h old.id
      rw [AppTable.getByID_eq_some_iff.mpr ⟨hrow, rfl⟩] at hold
      rw [← hstream]
      cases hnew : a'.isStream with
      | true =>
        rw [if_pos rfl, Bool.eq_false_iff]
        intro hchecked
        have hruns : s'.checkers old.id = some true := by
          rw [hs', checkers_of_stream _ hnew]
          simpa [Option.filter, hchecked] using hold.checker
        obtain ⟨row, hmem, hrowid, hhttp, -⟩ := (hfollow.2 old.id).mp hruns
        have hkind := isStream_of_update hupdate (hdb ▸ hmem) (hrowid.trans (hid.trans hida.symm))
        rw [hkind, hnew] at hhttp
        cases hhttp
      | false =>
        rw [if_neg (by simp), Bool.eq_false_iff]
        intro hwas
        have hruns : ⟨old.id, old.transport, old.config.backendPort⟩ ∈ s'.running := by
          rw [hs', running_of_http _ hnew]
          exact (hold.running _ _).mpr (if_pos ⟨hwas, rfl⟩)
        obtain ⟨row, hmem, hs, heq⟩ := (hfollow.1 _).mp hruns
        have hrowid : row.id = a'.id := (StreamSocket.mk.inj heq).1.symm.trans (hid.trans hida.symm)
        have hkind := isStream_of_update hupdate (hdb ▸ hmem) hrowid
        rw [hkind, hnew] at hs
        cases hs
  | _ => trivial

end AppServices

/-- **Running services.** Along a run the open sockets are those of the stored stream applications,
and health checkers run for the stored HTTP applications whose health is checked, exactly when no
update that is carried out turns a stream into an HTTP application, or an HTTP application whose
health is checked into a stream. -/
theorem following_iff (cfg : ServiceConfig) (t : AppTable) (events : List ServiceEvent) :
    (∀ past, past <+: events → (AppServices.run cfg t past).Following) ↔
      ∀ past e, past ++ [e] <+: events → (AppServices.run cfg t past).KeepsKind cfg e :=
  forall_prefix_iff (AppServices.startStreamApps_sound t) (fun _ => AppServices.following_of_sound)
    (fun _ _ => AppServices.step_sound) (fun _ _ => AppServices.keepsKind_of_following) events

/-- The configuration of the run below: the default ports, and no demo mode. -/
private def defaultConfig : ServiceConfig :=
  ⟨⟨[], [], [], []⟩, false, []⟩

/-- An application that becomes a stream keeps its health checker, and one that becomes an HTTP
application keeps its listener. -/
theorem services_left_behind :
    let shop := sampleApp (str "shop") (str "shop.example")
    let toStream := AppServices.run defaultConfig sampleTable [.updateApp (shop (str "tcp"))]
    let back := AppServices.run defaultConfig sampleTable
      [.updateApp (shop (str "tcp")), .updateApp (shop (str "http"))]
    (toStream.checkers (str "shop") = some true ∧ ¬ toStream.Following) ∧
      back.running = [⟨str "shop", .tcp, 40000⟩] ∧ ¬ back.Following := by
  have hruns : let shop := sampleApp (str "shop") (str "shop.example")
      let toStream := AppServices.run defaultConfig sampleTable [.updateApp (shop (str "tcp"))]
      let back := AppServices.run defaultConfig sampleTable
        [.updateApp (shop (str "tcp")), .updateApp (shop (str "http"))]
      (toStream.checkers (str "shop") = some true ∧ ∀ a ∈ toStream.db.rows, a.isStream = true) ∧
        back.running = [⟨str "shop", .tcp, 40000⟩] ∧ ∀ a ∈ back.db.rows, a.isStream = false := by
    decide +kernel
  obtain ⟨⟨hchecker, hstream⟩, hrunning, hhttp⟩ := hruns
  refine ⟨⟨hchecker, fun hfollow => ?_⟩, hrunning, fun hfollow => ?_⟩
  · obtain ⟨a, ha, -, hno, -⟩ := (hfollow.2 _).mp hchecker
    exact Bool.noConfusion ((hstream a ha).symm.trans hno)
  · obtain ⟨a, ha, hs, -⟩ := (hfollow.1 _).mp (hrunning ▸ List.mem_singleton_self _)
    exact Bool.noConfusion (hs.symm.trans (hhttp a ha))

end VibesWaf

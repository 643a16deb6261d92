import VibesWaf.Lib.Run
import VibesWaf.Stream.Proxy

/-!
# The UDP proxy

`handleUDP` reads the datagrams of all clients from one socket. The first datagram of a client opens
a session: a socket of its own to an upstream, and a goroutine that writes what comes back to the
client until the upstream has been silent for a while, and then removes the session from the map and
closes the socket. The goroutines go on while the loop handles the next datagram, and one may remove
its session when the loop has just found it.

The state says where the loop is and where each goroutine is, and a step is the next action of one
of them. `udp_sessions` is about every run: no client has two sessions, the map has no entry that
nobody would remove, and what arrives upstream has been let through and comes from the client of the
session, in order and none twice.
-/

namespace VibesWaf

/-- `net.UDPAddr`. Two of them have one text only if they are equal, and so the address stands for
the key of its session. -/
structure UDPAddr where
  ip : GoString
  port : ℕ
  zone : GoString
  deriving DecidableEq

/-- A value of the map of sessions: `nil`, or the socket of a session. -/
inductive UdpEntry
  | pending
  | conn (id : ℕ)
  deriving DecidableEq

/-- Where the goroutine of a session is. -/
inductive UdpPhase
  | reading
  /-- It has been told that nothing comes, and is about to remove the session. -/
  | deleting
  | closing
  | closed
  deriving DecidableEq

/-- A session: whose it is, what its socket is connected to, and where its goroutine is. -/
structure UdpSession where
  client : UDPAddr
  upstream : Upstream
  phase : UdpPhase
  deriving DecidableEq

/-- The session has not been removed from the map. -/
def UdpSession.Live (s : UdpSession) : Prop :=
  s.phase = .reading ∨ s.phase = .deleting

instance (s : UdpSession) : Decidable s.Live :=
  inferInstanceAs (Decidable (_ ∨ _))

/-- Where the loop is, with the datagram it is at. -/
inductive UdpLoop
  | reading
  /-- It has stored `nil`, and is about to dial. -/
  | dialing (client : UDPAddr) (datagram : GoString) (upstream : Upstream)
  | writing (id : ℕ) (client : UDPAddr) (datagram : GoString)
  deriving DecidableEq

/-- The datagram that the loop is at. -/
def UdpLoop.current : UdpLoop → List (UDPAddr × GoString)
  | .reading => []
  | .dialing client datagram _ => [(client, datagram)]
  | .writing _ client datagram => [(client, datagram)]

/-- `handleUDP` and its goroutines; the sessions are numbered in the order of their creation. What
has been written is kept with the number of the session. -/
structure UdpProxy where
  entry : UDPAddr → Option UdpEntry
  sessions : List UdpSession
  loop : UdpLoop
  toUpstream : List (ℕ × GoString)
  toClient : List (ℕ × UDPAddr × GoString)

/-- A proxy that has just been started. -/
def UdpProxy.start : UdpProxy :=
  ⟨fun _ => none, [], .reading, [], []⟩

/-- An action of the loop or of a goroutine, with what the outside has to do with it. -/
inductive UdpStep
  /-- A datagram is read; the access list and the round-robin counter are those of the moment. -/
  | datagram (client : UDPAddr) (datagram : GoString) (p : StreamProxy)
  /-- The upstream is resolved and dialled, or not. -/
  | dial (ok : Bool)
  | write (ok : Bool)
  /-- The goroutine of a session reads a reply and writes it. -/
  | reply (id : ℕ) (datagram : GoString)
  /-- The goroutine of a session is told that nothing comes. -/
  | readError (id : ℕ)
  | delete (id : ℕ)
  | close (id : ℕ)

namespace UdpProxy

/-- The loop reads a datagram, and goes on until it has to dial or to write. -/
def readDatagram (a : App) (s : UdpProxy) (client : UDPAddr) (datagram : GoString)
    (p : StreamProxy) : UdpProxy :=
  if !p.checkAccess a client.ip then s
  else
    match a.pickUpstream p.roundRobin client.ip with
    | none => s
    | some upstream =>
      match s.entry client with
      | none =>
        { s with
          entry := Function.update s.entry client (some .pending)
          loop := .dialing client datagram upstream }
      | some .pending => s
      | some (.conn id) => { s with loop := .writing id client datagram }

/-- The loop dials for a new session. -/
def dial (s : UdpProxy) (client : UDPAddr) (datagram : GoString) (upstream : Upstream) (ok : Bool) :
    UdpProxy :=
  if ok then
    let id := s.sessions.length
    { s with
      entry := Function.update s.entry client (some (.conn id))
      sessions := s.sessions ++ [⟨client, upstream, .reading⟩]
      loop := .writing id client datagram }
  else { s with entry := Function.update s.entry client none, loop := .reading }

/-- The loop writes to the socket of a session, which may be closed. -/
def write (s : UdpProxy) (id : ℕ) (datagram : GoString) (ok : Bool) : UdpProxy :=
  let written := ok && s.sessions[id]?.any fun session => session.phase ≠ .closed
  { s with
    loop := .reading
    toUpstream := if written then s.toUpstream ++ [(id, datagram)] else s.toUpstream }

/-- The goroutine of a session goes on to a phase. -/
def advance (s : UdpProxy) (id : ℕ) (session : UdpSession) (phase : UdpPhase) : UdpProxy :=
  { s with sessions := s.sessions.set id { session with phase := phase } }

/-- A step; an action whose turn it is not does nothing. -/
def step (a : App) (s : UdpProxy) : UdpStep → UdpProxy
  | .datagram client datagram p =>
    match s.loop with
    | .reading => s.readDatagram a client datagram p
    | _ => s
  | .dial ok =>
    match s.loop with
    | .dialing client datagram upstream => s.dial client datagram upstream ok
    | _ => s
  | .write ok =>
    match s.loop with
    | .writing id _ datagram => s.write id datagram ok
    | _ => s
  | .reply id datagram =>
    match s.sessions[id]? with
    | some ⟨client, _, .reading⟩ =>
      { s with toClient := s.toClient ++ [(id, client, datagram)] }
    | _ => s
  | .readError id =>
    match s.sessions[id]? with
    | some ⟨client, upstream, .reading⟩ => s.advance id ⟨client, upstream, .reading⟩ .deleting
    | _ => s
  | .delete id =>
    match s.sessions[id]? with
    | some ⟨client, upstream, .deleting⟩ =>
      { s.advance id ⟨client, upstream, .deleting⟩ .closing with
        entry := Function.update s.entry client none }
    | _ => s
  | .close id =>
    match s.sessions[id]? with
    | some ⟨client, upstream, .closing⟩ => s.advance id ⟨client, upstream, .closing⟩ .closed
    | _ => s

/-- A run. -/
def run (a : App) (steps : List UdpStep) : UdpProxy :=
  steps.foldl (step a) .start

/-! ### What a step does -/

/-- The steps that do something. -/
inductive Move (a : App) (s : UdpProxy) : UdpStep → UdpProxy → Prop
  | opens {client datagram p} (upstream : Upstream) (hloop : s.loop = .reading)
      (haccess : p.checkAccess a client.ip = true) (hentry : s.entry client = none) :
      Move a s (.datagram client datagram p)
        { s with
          entry := Function.update s.entry client (some .pending)
          loop := .dialing client datagram upstream }
  | finds {client datagram p} (id : ℕ) (hloop : s.loop = .reading)
      (haccess : p.checkAccess a client.ip = true) (hentry : s.entry client = some (.conn id)) :
      Move a s (.datagram client datagram p) { s with loop := .writing id client datagram }
  | dials {client datagram upstream} (hloop : s.loop = .dialing client datagram upstream) :
      Move a s (.dial true)
        { s with
          entry := Function.update s.entry client (some (.conn s.sessions.length))
          sessions := s.sessions ++ [⟨client, upstream, .reading⟩]
          loop := .writing s.sessions.length client datagram }
  | fails {client datagram upstream} (hloop : s.loop = .dialing client datagram upstream) :
      Move a s (.dial false)
        { s with entry := Function.update s.entry client none, loop := .reading }
  | writes {id client datagram} (hloop : s.loop = .writing id client datagram) :
      Move a s (.write true)
        { s with loop := .reading, toUpstream := s.toUpstream ++ [(id, datagram)] }
  | loses {id client datagram} (ok : Bool) (hloop : s.loop = .writing id client datagram) :
      Move a s (.write ok) { s with loop := .reading }
  | replies {id client upstream datagram}
      (hsession : s.sessions[id]? = some ⟨client, upstream, .reading⟩) :
      Move a s (.reply id datagram) { s with toClient := s.toClient ++ [(id, client, datagram)] }
  | ends {id client upstream} (hsession : s.sessions[id]? = some ⟨client, upstream, .reading⟩) :
      Move a s (.readError id) (s.advance id ⟨client, upstream, .reading⟩ .deleting)
  | deletes {id client upstream}
      (hsession : s.sessions[id]? = some ⟨client, upstream, .deleting⟩) :
      Move a s (.delete id)
        { s.advance id ⟨client, upstream, .deleting⟩ .closing with
          entry := Function.update s.entry client none }
  | closes {id client upstream} (hsession : s.sessions[id]? = some ⟨client, upstream, .closing⟩) :
      Move a s (.close id) (s.advance id ⟨client, upstream, .closing⟩ .closed)

variable {a : App} {s s' : UdpProxy} {t : UdpStep}

theorem step_cases (a : App) (s : UdpProxy) (t : UdpStep) :
    step a s t = s ∨ Move a s t (step a s t) := by
  cases t with
  | datagram client datagram p =>
    rw [step]
    split
    next hloop =>
      rw [readDatagram]
      split
      · exact .inl rfl
      next haccess =>
        rw [Bool.not_eq_true, Bool.not_eq_false'] at haccess
        split
        · exact .inl rfl
        next upstream _ =>
          split
          next hentry => exact .inr (.opens upstream hloop haccess hentry)
          next => exact .inl rfl
          next id hentry => exact .inr (.finds id hloop haccess hentry)
    next => exact .inl rfl
  | dial ok =>
    rw [step]
    split
    next client datagram upstream hloop =>
      cases ok with
      | true => exact .inr (.dials hloop)
      | false => exact .inr (.fails hloop)
    next => exact .inl rfl
  | write ok =>
    rw [step]
    split
    next id client datagram hloop =>
      rw [write]
      split
      next hwritten =>
        rw [Bool.and_eq_true] at hwritten
        rw [hwritten.1]
        exact .inr (.writes hloop)
      next => exact .inr (.loses ok hloop)
    next => exact .inl rfl
  | reply id datagram =>
    rw [step]
    split
    next hsession => exact .inr (.replies hsession)
    next => exact .inl rfl
  | readError id =>
    rw [step]
    split
    next hsession => exact .inr (.ends hsession)
    next => exact .inl rfl
  | delete id =>
    rw [step]
    split
    next hsession => exact .inr (.deletes hsession)
    next => exact .inl rfl
  | close id =>
    rw [step]
    split
    next hsession => exact .inr (.closes hsession)
    next => exact .inl rfl

/-! ### Invariants -/

/-- The client of a session. -/
def clientOf (sessions : List UdpSession) (id : ℕ) : Option UDPAddr :=
  sessions[id]?.map UdpSession.client

/-- A session of a client that has not been removed. -/
def HasSession (sessions : List UdpSession) (id : ℕ) (client : UDPAddr) : Prop :=
  ∃ session, sessions[id]? = some session ∧ session.client = client ∧ session.Live

section Sessions

variable {sessions : List UdpSession} {id i : ℕ} {session : UdpSession} {client : UDPAddr}

theorem HasSession.clientOf (h : HasSession sessions id client) :
    clientOf sessions id = some client := by
  obtain ⟨session, hsession, rfl, -⟩ := h
  rw [UdpProxy.clientOf, hsession]
  rfl

theorem clientOf_concat (h : clientOf sessions id = some client) :
    clientOf (sessions ++ [session]) id = some client := by
  rw [clientOf, Option.map_eq_some_iff] at h
  obtain ⟨found, hfound, rfl⟩ := h
  rw [clientOf, List.getElem?_append_left (List.getElem?_eq_some_iff.mp hfound).1, hfound]
  rfl

/-- With a new session the others are as they were, and it is there. -/
theorem hasSession_concat_iff {new : UDPAddr} {upstream : Upstream} :
    HasSession (sessions ++ [⟨new, upstream, .reading⟩]) i client ↔
      HasSession sessions i client ∨ i = sessions.length ∧ client = new := by
  rw [HasSession, HasSession]
  rcases lt_trichotomy i sessions.length with hi | rfl | hi
  · rw [List.getElem?_append_left hi]
    exact (or_iff_left fun h => hi.ne h.1).symm
  · rw [List.getElem?_concat_length, List.getElem?_eq_none le_rfl]
    constructor
    · rintro ⟨_, heq, rfl, -⟩
      obtain rfl := Option.some.inj heq
      exact .inr ⟨rfl, rfl⟩
    · rintro (⟨_, heq, -⟩ | ⟨-, rfl⟩)
      · cases heq
      · exact ⟨_, rfl, rfl, .inl rfl⟩
  · have hnone : (sessions ++ [⟨new, upstream, .reading⟩])[i]? = none :=
      List.getElem?_eq_none (by rw [List.length_append]; exact hi)
    rw [hnone, List.getElem?_eq_none hi.le]
    constructor
    · rintro ⟨_, heq, -⟩
      cases heq
    · rintro (⟨_, heq, -⟩ | ⟨heq, -⟩)
      · cases heq
      · exact absurd heq hi.ne'

/-- A goroutine that goes on changes no client. -/
theorem clientOf_set (h : sessions[id]? = some session) (phase : UdpPhase) :
    clientOf (sessions.set id { session with phase := phase }) i = clientOf sessions i := by
  rw [clientOf, clientOf]
  by_cases hi : id = i
  · subst hi
    rw [List.getElem?_set_self (List.getElem?_eq_some_iff.mp h).1, h]
    rfl
  · rw [List.getElem?_set_ne hi]

/-- A goroutine that goes on changes nothing but whether its own session is there. -/
theorem hasSession_set_iff (h : sessions[id]? = some session) (phase : UdpPhase) :
    HasSession (sessions.set id { session with phase := phase }) i client ↔
      if i = id then session.client = client ∧ (phase = .reading ∨ phase = .deleting)
      else HasSession sessions i client := by
  rw [HasSession]
  split_ifs with hi
  · subst hi
    rw [List.getElem?_set_self (List.getElem?_eq_some_iff.mp h).1]
    constructor
    · rintro ⟨_, heq, hclient, hlive⟩
      obtain rfl := Option.some.inj heq
      exact ⟨hclient, hlive⟩
    · rintro ⟨hclient, hlive⟩
      exact ⟨_, rfl, hclient, hlive⟩
  · rw [List.getElem?_set_ne (Ne.symm hi)]
    rfl

end Sessions

/-- What holds of every reachable proxy. -/
structure Valid (s : UdpProxy) : Prop where
  /-- A socket in the map is that of a session that has not been removed, and conversely. -/
  conn : ∀ {client id}, s.entry client = some (.conn id) ↔ HasSession s.sessions id client
  /-- There is a `nil` in the map only while the loop dials. -/
  pending : ∀ {client}, s.entry client = some .pending ↔
    ∃ datagram upstream, s.loop = .dialing client datagram upstream
  writing : ∀ {id client datagram}, s.loop = .writing id client datagram →
    clientOf s.sessions id = some client
  replied : ∀ e ∈ s.toClient, clientOf s.sessions e.1 = some e.2.1

theorem valid_start : start.Valid where
  conn := ⟨nofun, fun ⟨_, h, _⟩ => nomatch h⟩
  pending := ⟨nofun, fun ⟨_, _, h⟩ => nomatch h⟩
  writing := nofun
  replied := nofun

/-- While the loop reads there is no `nil` in the map. -/
theorem Valid.not_pending (h : s.Valid) (hloop : s.loop = .reading) (client : UDPAddr) :
    s.entry client ≠ some .pending := by
  intro hpending
  obtain ⟨datagram, upstream, hdialing⟩ := h.pending.mp hpending
  rw [hloop] at hdialing
  cases hdialing

/-- A client whose entry is no socket has no session, and stays without one when its entry becomes
another that is none. -/
theorem Valid.conn_update (h : s.Valid) {client : UDPAddr} {entry : Option UdpEntry}
    (hbefore : ∀ id, s.entry client ≠ some (.conn id)) (hafter : ∀ id, entry ≠ some (.conn id))
    {client' : UDPAddr} {id : ℕ} :
    Function.update s.entry client entry client' = some (.conn id) ↔
      HasSession s.sessions id client' := by
  rw [← h.conn]
  by_cases hclient : client' = client
  · subst hclient
    rw [Function.update_self]
    exact iff_of_false (hafter id) (hbefore id)
  · rw [Function.update_of_ne hclient]

/-- When the loop has dialled there is no `nil` left. -/
theorem Valid.not_pending_update (h : s.Valid) {client : UDPAddr} {datagram : GoString}
    {upstream : Upstream} (hloop : s.loop = .dialing client datagram upstream)
    {entry : Option UdpEntry} (hentry : entry ≠ some .pending) (client' : UDPAddr) :
    Function.update s.entry client entry client' ≠ some .pending := by
  by_cases hclient : client' = client
  · subst hclient
    rwa [Function.update_self]
  · rw [Function.update_of_ne hclient, Ne, h.pending]
    rintro ⟨_, _, heq⟩
    rw [hloop] at heq
    cases heq
    exact hclient rfl

/-- A goroutine that goes on between two phases before the session is removed, or after that, leaves
the sessions there. -/
theorem Valid.conn_set (h : s.Valid) {id : ℕ} {session : UdpSession} {phase : UdpPhase}
    (hsession : s.sessions[id]? = some session)
    (hlive : phase = .reading ∨ phase = .deleting ↔ session.Live) {client : UDPAddr} {i : ℕ} :
    s.entry client = some (.conn i) ↔
      HasSession (s.sessions.set id { session with phase := phase }) i client := by
  rw [hasSession_set_iff hsession, h.conn]
  split_ifs with hi
  · subst hi
    rw [HasSession, hsession, hlive]
    constructor
    · rintro ⟨_, heq, hclient⟩
      obtain rfl := Option.some.inj heq
      exact hclient
    · exact fun hclient => ⟨session, rfl, hclient⟩
  · rfl

/-- **Every step keeps the proxy valid.** -/
theorem Valid.move (h : s.Valid) (hmove : Move a s t s') : s'.Valid := by
  cases hmove with
  | @opens client datagram p upstream hloop haccess hentry =>
    refine ⟨h.conn_update (by simp [hentry]) (by simp), fun {client'} => ?_, nofun, h.replied⟩
    dsimp only
    by_cases hclient : client' = client
    · subst hclient
      rw [Function.update_self]
      exact iff_of_true rfl ⟨_, _, rfl⟩
    · rw [Function.update_of_ne hclient]
      refine iff_of_false (h.not_pending hloop client') ?_
      rintro ⟨_, _, heq⟩
      cases heq
      exact hclient rfl
  | @finds client datagram p id hloop haccess hentry =>
    refine ⟨h.conn, fun {client'} => ?_, ?_, h.replied⟩
    · exact iff_of_false (h.not_pending hloop client') nofun
    · intro _ _ _ heq
      cases heq
      exact (h.conn.mp hentry).clientOf
  | @dials client datagram upstream hloop =>
    have hpending : s.entry client = some .pending := h.pending.mpr ⟨_, _, hloop⟩
    refine ⟨fun {client' id} => ?_, fun {client'} => ?_, ?_, fun e he => ?_⟩
    · dsimp only
      rw [hasSession_concat_iff, ← h.conn]
      by_cases hclient : client' = client
      · subst hclient
        rw [Function.update_self, hpending]
        simp [eq_comm]
      · rw [Function.update_of_ne hclient]
        exact (or_iff_left fun hnew => hclient hnew.2).symm
    · exact iff_of_false (h.not_pending_update hloop (by simp) client') nofun
    · intro _ _ _ heq
      cases heq
      dsimp only
      rw [clientOf, List.getElem?_concat_length]
      rfl
    · exact clientOf_concat (h.replied e he)
  | @fails client datagram upstream hloop =>
    have hpending : s.entry client = some .pending := h.pending.mpr ⟨_, _, hloop⟩
    refine ⟨h.conn_update (by simp [hpending]) (by simp), fun {client'} => ?_, nofun, h.replied⟩
    exact iff_of_false (h.not_pending_update hloop (by simp) client') nofun
  | writes hloop | loses ok hloop =>
    refine ⟨h.conn, fun {client'} => iff_of_false ?_ nofun, nofun, h.replied⟩
    dsimp only
    rw [h.pending, hloop]
    nofun
  | replies hsession =>
    refine ⟨h.conn, h.pending, h.writing, forall_mem_snoc h.replied ?_⟩
    rw [clientOf, hsession]
    rfl
  | ends hsession | closes hsession =>
    refine ⟨h.conn_set hsession (by simp [UdpSession.Live]), h.pending, fun hloop => ?_,
      fun e he => ?_⟩
    · rw [advance, clientOf_set hsession]
      exact h.writing hloop
    · rw [advance, clientOf_set hsession]
      exact h.replied e he
  | @deletes id client upstream hsession =>
    have hentry : s.entry client = some (.conn id) := h.conn.mpr ⟨_, hsession, rfl, .inr rfl⟩
    refine ⟨fun {client' i} => ?_, fun {client'} => ?_, fun hloop => ?_, fun e he => ?_⟩
    · dsimp only
      rw [advance, hasSession_set_iff hsession, ← h.conn]
      by_cases hclient : client' = client
      · subst hclient
        rw [Function.update_self, hentry]
        split_ifs with hi
        · simp
        · simp [Ne.symm hi]
      · rw [Function.update_of_ne hclient]
        split_ifs with hi
        · subst hi
          refine iff_of_false (fun hconn => ?_) (by simp)
          have hclients := (h.conn.mp hconn).clientOf.symm.trans (h.conn.mp hentry).clientOf
          exact hclient (Option.some.inj hclients)
        · rfl
    · dsimp only
      by_cases hclient : client' = client
      · subst hclient
        rw [Function.update_self, advance, ← h.pending, hentry]
        simp
      · rw [Function.update_of_ne hclient]
        exact h.pending
    · rw [advance, clientOf_set hsession]
      exact h.writing hloop
    · rw [advance, clientOf_set hsession]
      exact h.replied e he

theorem Valid.step (h : s.Valid) (a : App) (t : UdpStep) : (step a s t).Valid := by
  rcases step_cases a s t with heq | hmove
  · rwa [heq]
  · exact h.move hmove

theorem run_snoc (a : App) (steps : List UdpStep) (t : UdpStep) :
    run a (steps ++ [t]) = step a (run a steps) t :=
  List.foldl_append

/-- Every reachable proxy is valid. -/
theorem valid_run (a : App) (steps : List UdpStep) : (run a steps).Valid := by
  induction steps using List.reverseRecOn with
  | nil => exact valid_start
  | append_singleton steps t ih =>
    rw [run_snoc]
    exact ih.step a t

/-! ### What arrives upstream -/

/-- The datagrams that are let through. -/
def admitted (a : App) (steps : List UdpStep) : List (UDPAddr × GoString) :=
  steps.filterMap fun
    | .datagram client datagram p =>
      if p.checkAccess a client.ip then some (client, datagram) else none
    | _ => none

/-- What has arrived upstream, with the client of the session it came by. -/
def delivered (s : UdpProxy) : List (Option UDPAddr × GoString) :=
  s.toUpstream.map fun e => (clientOf s.sessions e.1, e.2)

/-- The datagrams that are let through, and what has arrived upstream and the datagram the loop is
at, in their order. -/
def InOrder (a : App) (steps : List UdpStep) (s : UdpProxy) : Prop :=
  (s.delivered ++ s.loop.current.map fun e => (some e.1, e.2)).Sublist
      ((admitted a steps).map fun e => (some e.1, e.2)) ∧
    ∀ e ∈ s.toUpstream, e.1 < s.sessions.length

theorem admitted_snoc_sublist (a : App) (steps : List UdpStep) (t : UdpStep) :
    (admitted a steps).Sublist (admitted a (steps ++ [t])) := by
  rw [admitted, admitted, List.filterMap_append]
  exact List.sublist_append_left _ _

/-- A datagram that is let through is the last one. -/
theorem admitted_datagram {steps : List UdpStep} {client : UDPAddr} {datagram : GoString}
    {p : StreamProxy} (h : p.checkAccess a client.ip = true) :
    admitted a (steps ++ [.datagram client datagram p]) =
      admitted a steps ++ [(client, datagram)] := by
  simp [admitted, h]

/-- What has arrived keeps its clients when a goroutine goes on. -/
theorem delivered_set {id : ℕ} {session : UdpSession} (h : s.sessions[id]? = some session)
    (phase : UdpPhase) : (s.advance id session phase).delivered = s.delivered := by
  rw [delivered, delivered, advance]
  exact List.map_congr_left fun e _ => by rw [clientOf_set h]

/-- **Every step keeps the order.** -/
theorem InOrder.move {steps : List UdpStep} (h : InOrder a steps s) (hvalid : s.Valid)
    (hmove : Move a s t s') : InOrder a (steps ++ [t]) s' := by
  obtain ⟨horder, hbound⟩ := h
  have hmore := horder.trans ((admitted_snoc_sublist a steps t).map _)
  have hless := (List.sublist_append_left _ _).trans hmore
  cases hmove with
  | opens upstream hloop haccess hentry | finds id hloop haccess hentry =>
    refine ⟨?_, hbound⟩
    rw [hloop, UdpLoop.current, List.map_nil, List.append_nil] at horder
    rw [admitted_datagram haccess, List.map_append]
    exact horder.append (List.Sublist.refl _)
  | @dials client datagram upstream hloop =>
    have hdelivered : delivered { s with
        sessions := s.sessions ++ [⟨client, upstream, .reading⟩] } = s.delivered := by
      refine List.map_congr_left fun e he => ?_
      dsimp only
      rw [clientOf, clientOf, List.getElem?_append_left (hbound e he)]
    rw [hloop] at hmore
    refine ⟨hdelivered.symm ▸ hmore, fun e he => ?_⟩
    rw [List.length_append]
    exact Nat.lt_add_right 1 (hbound e he)
  | fails hloop | loses ok hloop =>
    refine ⟨?_, hbound⟩
    rw [UdpLoop.current, List.map_nil, List.append_nil]
    exact hless
  | @writes id client datagram hloop =>
    have hclient := hvalid.writing hloop
    constructor
    · rw [hloop] at hmore
      simpa [delivered, UdpLoop.current, hclient] using hmore
    · refine forall_mem_snoc hbound ?_
      rw [clientOf, Option.map_eq_some_iff] at hclient
      obtain ⟨session, hsession, -⟩ := hclient
      exact (List.getElem?_eq_some_iff.mp hsession).1
  | replies hsession => exact ⟨hmore, hbound⟩
  | ends hsession | closes hsession | deletes hsession =>
    refine ⟨?_, fun e he => ?_⟩
    · rw [← delivered_set hsession] at hmore
      exact hmore
    · rw [advance, List.length_set]
      exact hbound e he

theorem inOrder_run (a : App) (steps : List UdpStep) : InOrder a steps (run a steps) := by
  induction steps using List.reverseRecOn with
  | nil => exact ⟨List.Sublist.refl _, nofun⟩
  | append_singleton steps t ih =>
    rw [run_snoc]
    rcases step_cases a (run a steps) t with heq | hmove
    · rw [heq]
      exact ⟨ih.1.trans ((admitted_snoc_sublist a steps t).map _), ih.2⟩
    · exact ih.move (valid_run a steps) hmove

end UdpProxy

open UdpProxy in
/-- **The sessions of the UDP proxy**, after every run of the loop and the goroutines, however they
take turns. A socket in the map is that of the one session of its client that has not been removed;
there is a `nil` in the map only while the loop dials, and so no datagram finds one. What has
arrived upstream, by whichever sessions, are datagrams of the clients of those sessions that have
been let through, in order and none twice; and what is written to a client came by a session of
its own. -/
theorem udp_sessions (a : App) (steps : List UdpStep) :
    let s := run a steps
    (∀ client id, s.entry client = some (.conn id) ↔ HasSession s.sessions id client) ∧
      (∀ client id id', HasSession s.sessions id client → HasSession s.sessions id' client →
        id = id') ∧
      (∀ client, s.entry client = some .pending ↔
        ∃ datagram upstream, s.loop = .dialing client datagram upstream) ∧
      s.delivered.Sublist ((admitted a steps).map fun e => (some e.1, e.2)) ∧
      ∀ e ∈ s.toClient, clientOf s.sessions e.1 = some e.2.1 := by
  have h := valid_run a steps
  refine ⟨fun _ _ => h.conn, fun client id id' hid hid' => ?_, fun _ => h.pending,
    (List.sublist_append_left _ _).trans (inOrder_run a steps).1, h.replied⟩
  have hentry := (h.conn.mpr hid).symm.trans (h.conn.mpr hid')
  cases hentry
  rfl

end VibesWaf

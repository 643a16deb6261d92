import VibesWaf.Go.Strings
import VibesWaf.Lib.Interleave

/-!
# The log of requests

Every request leaves an entry in a channel of 10000, or nothing if the channel is full. One worker
collects the entries in a batch and inserts it into ClickHouse when it is full or the time has come.
It gives up a batch for which there is no connection or which the driver refuses, and opens the
connection again from time to time. `Connect` and `Close` come from elsewhere, at any moment.

`inserted_sublist` says what is in the table after every run: entries that were accepted, none twice
and in the order in which they came. `accepted_eq_inserted_append` says that nothing is missing but
what the worker and the channel hold, as long as the driver does its part.
-/

namespace VibesWaf

/-- What a connection is opened with. -/
structure ClickhouseTarget where
  host : GoString
  database : GoString
  user : GoString
  password : GoString
  deriving DecidableEq

variable {ε : Type}

/-- `Clickhouse`, with the table it writes to. A connection is told by what it was opened with. -/
structure Clickhouse (ε : Type) where
  ch : List ε
  /-- `stopCh` is closed. -/
  stopped : Bool
  conn : Option ClickhouseTarget
  connected : Bool
  target : ClickhouseTarget
  table : List ε

/-- The cases of the `select` of the worker, as far as the outside chooses among them. -/
inductive SelectCase
  | stop
  | entry
  | retryTick
  | tick

/-- What becomes of a batch that is sent. The table takes all of it or nothing: a batch of which it
keeps a part is left out. -/
inductive Delivery
  | stored
  | refused
  /-- It is stored, and the answer is lost. -/
  | unacknowledged
  deriving DecidableEq

/-- What the outside says to a call: the case of a `select`, whether the driver does what it is
asked, and what becomes of a batch. -/
structure LogOutside where
  ready : SelectCase
  ok : Bool
  delivery : Delivery

/-- What the `select` of the worker has come to; it is left again at once when it is not ready. -/
inductive Selected (ε : Type)
  | stop
  | entry (e : ε)
  | retryTick
  | tick
  | notReady

/-- The channel operations, the sections under the lock, and the calls of the driver. -/
inductive LogOp (ε : Type)
  /-- The `select` of `Log`. -/
  | offer (e : ε)
  /-- The `select` of the worker. -/
  | select
  /-- The `select` of the worker after it was stopped. -/
  | drain
  /-- The section of `flush`: the connection, if there is one and it is up. -/
  | current
  | prepareBatch (conn : ClickhouseTarget)
  | append (conn : ClickhouseTarget) (e : ε)
  | send (conn : ClickhouseTarget) (rows : List ε)
  | markDisconnected
  /-- The first section of `reconnectIfNeeded`; `true` goes on. -/
  | takeDown
  | open
  /-- The last section of `reconnectIfNeeded`. -/
  | install (conn : ClickhouseTarget)
  | connect (target : ClickhouseTarget)
  | closeStop

/-- The type of an answer. -/
abbrev LogAns (ε : Type) : LogOp ε → Type
  | .offer _ => Bool
  | .select => Selected ε
  | .drain => Option ε
  | .current => Option ClickhouseTarget
  | .prepareBatch _ => Bool
  | .append _ _ => Bool
  | .send _ _ => Bool
  | .markDisconnected => Unit
  | .takeDown => Bool
  | .open => Option ClickhouseTarget
  | .install _ => Unit
  | .connect _ => Bool
  | .closeStop => Unit

/-- How many entries the channel holds. -/
def logChannelSize : ℕ := 10000

/-- How many entries make a batch full. -/
def logBatchSize : ℕ := 1000

namespace Clickhouse

/-- The connection is up. -/
def IsConnected (c : Clickhouse ε) : Prop :=
  c.connected = true ∧ c.conn.isSome = true

instance (c : Clickhouse ε) : Decidable c.IsConnected :=
  inferInstanceAs (Decidable (_ ∧ _))

/-- How the logger answers. -/
def respond (o : LogOutside) : (op : LogOp ε) → Clickhouse ε → LogAns ε op × Clickhouse ε
  | .offer e, c =>
    if c.ch.length < logChannelSize then (true, { c with ch := c.ch ++ [e] }) else (false, c)
  | .select, c =>
    match o.ready, c.ch with
    | .stop, _ => (if c.stopped then .stop else .notReady, c)
    | .entry, [] => (.notReady, c)
    | .entry, e :: rest => (.entry e, { c with ch := rest })
    | .retryTick, _ => (.retryTick, c)
    | .tick, _ => (.tick, c)
  | .drain, c =>
    match c.ch with
    | [] => (none, c)
    | e :: rest => (some e, { c with ch := rest })
  | .current, c => (if c.connected then c.conn else none, c)
  | .prepareBatch _, c => (o.ok, c)
  | .append _ _, c => (o.ok, c)
  | .send _ rows, c =>
    match o.delivery with
    | .stored => (true, { c with table := c.table ++ rows })
    | .refused => (false, c)
    | .unacknowledged => (false, { c with table := c.table ++ rows })
  | .markDisconnected, c => ((), { c with connected := false })
  | .takeDown, c =>
    if c.IsConnected then (false, c)
    else if c.target.host = [] then (false, c)
    else (true, { c with conn := none })
  | .open, c => (if o.ok then some c.target else none, c)
  | .install conn, c => ((), { c with conn := some conn, connected := true })
  | .connect target, c =>
    let c := { c with target := target }
    if o.ok then (true, { c with conn := some target, connected := true }) else (false, c)
  | .closeStop, c => ((), { c with stopped := true })

/-- An operation as a program. -/
def ask (op : LogOp ε) : Program (LogAns ε) (LogAns ε op) :=
  Program.perform op

/-- The `Append` calls of `flush`: the entries that the batch has taken. -/
def appendAll (conn : ClickhouseTarget) : List ε → Program (LogAns ε) (List ε)
  | [] => pure []
  | e :: batch => do
    let ok : Bool ← ask (.append conn e)
    let rows ← appendAll conn batch
    pure (if ok then e :: rows else rows)

/-- `markDisconnected`. -/
def markDisconnected : Program (LogAns ε) Unit :=
  ask .markDisconnected

/-- `flush`. -/
def flush (batch : List ε) : Program (LogAns ε) Unit := do
  let current : Option ClickhouseTarget ← ask .current
  match current with
  | none => pure ()
  | some conn => do
    let prepared : Bool ← ask (.prepareBatch conn)
    if prepared then do
      let rows ← appendAll conn batch
      let sent : Bool ← ask (.send conn rows)
      if sent then pure () else markDisconnected
    else markDisconnected

/-- `reconnectIfNeeded`. -/
def reconnectIfNeeded : Program (LogAns ε) Unit := do
  let down : Bool ← ask .takeDown
  if down then do
    let opened : Option ClickhouseTarget ← ask .open
    match opened with
    | none => pure ()
    | some conn => ask (.install conn)
  else pure ()

/-- The worker after it was stopped, for at most so many turns of its loop. -/
def drain : ℕ → List ε → Program (LogAns ε) Unit
  | 0, _ => pure ()
  | turns + 1, batch => do
    let next : Option ε ← ask .drain
    match next with
    | some e => drain turns (batch ++ [e])
    | none => if batch ≠ [] then flush batch else pure ()

/-- `worker`, for at most so many turns of its loop. -/
def worker : ℕ → List ε → Program (LogAns ε) Unit
  | 0, _ => pure ()
  | turns + 1, batch => do
    let selected : Selected ε ← ask .select
    match selected with
    | .stop => drain turns batch
    | .entry e =>
      if (batch ++ [e]).length ≥ logBatchSize then do
        flush (batch ++ [e])
        worker turns []
      else worker turns (batch ++ [e])
    | .retryTick => do
      reconnectIfNeeded
      worker turns batch
    | .tick =>
      if batch ≠ [] then do
        flush batch
        worker turns []
      else worker turns batch
    | .notReady => worker turns batch

end Clickhouse

/-- What else uses the logger. -/
inductive LogActivity (ε : Type)
  | log (e : ε)
  | connect (target : ClickhouseTarget)
  | close

/-- `Log`, `Connect`, and `Close`, of which the worker sees that `stopCh` is closed. -/
def LogActivity.program : LogActivity ε → Program (LogAns ε) Unit
  | .log e => do
    let _ ← Clickhouse.ask (.offer e)
    pure ()
  | .connect target => do
    let _ ← Clickhouse.ask (.connect target)
    pure ()
  | .close => Clickhouse.ask .closeStop

/-- The worker is the first thread; the others use the logger. -/
def logPrograms (turns : ℕ) (activities : ℕ → LogActivity ε) : ℕ → Program (LogAns ε) Unit
  | 0 => Clickhouse.worker turns []
  | i + 1 => (activities i).program

/-- The logger after some moves. -/
def logRun (c : Clickhouse ε) (turns : ℕ) (activities : ℕ → LogActivity ε)
    (moves : List (ℕ × LogOutside)) : Interleaving (Clickhouse ε) LogOutside (LogAns ε) Unit :=
  Interleaving.run Clickhouse.respond c (logPrograms turns activities) moves

/-! ### What the calls tell -/

/-- An entry that the channel has taken. -/
def acceptedBy : Event (LogAns ε) → Option ε
  | ⟨.offer e, true⟩ => some e
  | _ => none

/-- An entry that the worker has taken from the channel. -/
def receivedBy : Event (LogAns ε) → Option ε
  | ⟨.select, .entry e⟩ => some e
  | ⟨.drain, some e⟩ => some e
  | _ => none

/-- The rows that are sent to the table. -/
def sentBy : Event (LogAns ε) → List ε
  | ⟨.send _ rows, _⟩ => rows
  | _ => []

/-- The entries that the channel has taken, the oldest first. -/
def acceptedEntries (events : List (Event (LogAns ε))) : List ε :=
  events.filterMap acceptedBy

/-- The entries that the worker has taken from the channel. -/
def receivedEntries (events : List (Event (LogAns ε))) : List ε :=
  events.filterMap receivedBy

/-- The rows that have been sent. -/
def sentRows (events : List (Event (LogAns ε))) : List ε :=
  events.flatMap sentBy

section Calls

variable (events : List (Event (LogAns ε))) (e : Event (LogAns ε))

@[simp] theorem accepted_snoc :
    acceptedEntries (events ++ [e]) = acceptedEntries events ++ (acceptedBy e).toList := by
  cases h : acceptedBy e <;> simp [acceptedEntries, h]

@[simp] theorem received_snoc :
    receivedEntries (events ++ [e]) = receivedEntries events ++ (receivedBy e).toList := by
  cases h : receivedBy e <;> simp [receivedEntries, h]

@[simp] theorem sent_snoc : sentRows (events ++ [e]) = sentRows events ++ sentBy e := by
  simp [sentRows]

end Calls

/-! ### The worker by itself -/

/-- The driver has done what it was asked, the connection was up, and the worker was not stopped. -/
def WentWell : Event (LogAns ε) → Prop
  | ⟨.select, .stop⟩ => False
  | ⟨.current, conn⟩ => conn.isSome = true
  | ⟨.prepareBatch _, ok⟩ => ok = true
  | ⟨.append _ _, ok⟩ => ok = true
  | ⟨.send _ _, ok⟩ => ok = true
  | _ => True

namespace Clickhouse

open Program

/-- What has been received and not sent is a batch at the end; when all went well, nothing else has
been received, and the batch is not beyond its size. -/
def Holds (batch : List ε) (past : List (Event (LogAns ε))) : Prop :=
  ∃ done, receivedEntries past = done ++ batch ∧ (sentRows past).Sublist done ∧
    ((∀ e ∈ past, WentWell e) → sentRows past = done ∧ batch.length ≤ logBatchSize)

/-- What the worker may call: it sends rows that it has received, in order and none twice. When all
went well it has sent all it has received but a batch, and it finds the connection up. -/
def WorkerGuard (past : List (Event (LogAns ε))) (op : LogOp ε) : Prop :=
  (∀ conn rows, op = .send conn rows → (sentRows past ++ rows).Sublist (receivedEntries past)) ∧
    ((∀ e ∈ past, WentWell e) → op ≠ .markDisconnected ∧ ∃ batch, Holds batch past)

variable {batch rows : List ε} {past : List (Event (LogAns ε))} {turns : ℕ} {op : LogOp ε}

/-- A worker that holds a batch may call what neither sends nor marks the connection. -/
theorem Holds.guard (h : Holds batch past) (hsend : ∀ conn rows, op ≠ .send conn rows)
    (hmark : op ≠ .markDisconnected) : WorkerGuard past op :=
  ⟨fun conn rows hop => absurd hop (hsend conn rows), fun _ => ⟨hmark, batch, h⟩⟩

/-- When something went wrong, the connection may be marked. -/
theorem guard_of_not (h : ¬ ∀ e ∈ past, WentWell e) :
    WorkerGuard past (.markDisconnected : LogOp ε) :=
  ⟨by simp, fun hwell => absurd hwell h⟩

/-- A batch that is given up is no longer held; that is not when all went well. -/
theorem Holds.giveUp (h : Holds batch past) (hnot : ¬ ∀ e ∈ past, WentWell e) : Holds [] past := by
  obtain ⟨done, hreceived, hsent, -⟩ := h
  exact ⟨done ++ batch, by rw [hreceived, List.append_nil],
    hsent.trans (List.sublist_append_left _ _), fun hwell => absurd hwell hnot⟩

/-- A call that neither takes from the channel nor sends leaves the batch held. -/
theorem Holds.snoc (h : Holds batch past) {e : Event (LogAns ε)} (hreceived : receivedBy e = none)
    (hsent : sentBy e = []) : Holds batch (past ++ [e]) := by
  obtain ⟨done, hdone, hsub, hwell⟩ := h
  rw [Holds, received_snoc, sent_snoc, hreceived, hsent, Option.toList_none, List.append_nil,
    List.append_nil]
  exact ⟨done, hdone, hsub, fun hall => hwell fun e he => hall e (List.mem_append_left _ he)⟩

/-- An entry from the channel is held. -/
theorem Holds.receive (h : Holds batch past) {e : Event (LogAns ε)} {x : ε}
    (hreceived : receivedBy e = some x) (hsent : sentBy e = [])
    (hsize : (∀ e ∈ past, WentWell e) → batch.length < logBatchSize) :
    Holds (batch ++ [x]) (past ++ [e]) := by
  obtain ⟨done, hdone, hsub, hwell⟩ := h
  refine ⟨done, ?_, ?_, fun hall => ?_⟩
  · rw [received_snoc, hreceived, hdone, Option.toList_some, List.append_assoc]
  · rwa [sent_snoc, hsent, List.append_nil]
  · have hpast : ∀ e ∈ past, WentWell e := fun e he => hall e (List.mem_append_left _ he)
    rw [sent_snoc, hsent, List.append_nil, List.length_append]
    exact ⟨(hwell hpast).1, hsize hpast⟩

/-- A wrong answer is the end of what went well. -/
theorem not_wentWell {e : Event (LogAns ε)} (he : ¬ WentWell e) :
    ¬ ∀ d ∈ past ++ [e], WentWell d :=
  fun hall => he (hall e (by simp))

theorem appendAll_safe (conn : ClickhouseTarget) {whole : List ε} (batch : List ε)
    (h : Holds whole past) :
    Safe WorkerGuard (appendAll conn batch) (fun events rows => Holds whole events ∧
      rows.Sublist batch ∧ ((∀ e ∈ events, WentWell e) → rows = batch)) past := by
  induction batch generalizing past with
  | nil => exact ⟨h, List.Sublist.refl _, fun _ => rfl⟩
  | cons e batch ih =>
    simp only [appendAll, ask, safe_bind, safe_perform, safe_pure]
    refine ⟨h.guard (by simp) (by simp), fun ok => ?_⟩
    refine (ih (h.snoc rfl rfl)).mono fun events rows hrows => ⟨hrows.1, ?_, fun hall => ?_⟩
    · split
      · exact hrows.2.1.cons_cons e
      · exact hrows.2.1.cons e
    · have hok : ok = true := hall ⟨.append conn e, ok⟩ (by simp)
      rw [if_pos hok, hrows.2.2 hall]

theorem flush_safe (h : Holds batch past) :
    Safe WorkerGuard (flush batch) (fun events _ => Holds [] events) past := by
  simp only [flush, ask, markDisconnected, safe_bind, safe_perform]
  refine ⟨h.guard (by simp) (by simp), fun current => ?_⟩
  have hcurrent := h.snoc (e := ⟨.current, current⟩) rfl rfl
  cases current with
  | none => exact hcurrent.giveUp (not_wentWell (by simp [WentWell]))
  | some conn =>
    simp only [safe_bind, safe_perform]
    refine ⟨hcurrent.guard (by simp) (by simp), fun prepared => ?_⟩
    have hprepared := hcurrent.snoc (e := ⟨.prepareBatch conn, prepared⟩) rfl rfl
    split
    next =>
      rw [safe_bind]
      refine (appendAll_safe conn batch hprepared).mono fun events rows hrows => ?_
      generalize past ++ [⟨.current, some conn⟩] ++ [⟨.prepareBatch conn, prepared⟩] ++ events =
        before at hrows ⊢
      obtain ⟨⟨done, hdone, hsub, hwell⟩, hrows, hall⟩ := hrows
      simp only [safe_bind, safe_perform]
      refine ⟨⟨fun conn' rows' hop => ?_, fun _ => ⟨by simp, batch, done, hdone, hsub, hwell⟩⟩,
        fun stored => ?_⟩
      · obtain ⟨rfl, rfl⟩ := LogOp.send.inj hop
        rw [hdone]
        exact hsub.append hrows
      · have hsent : Holds [] (before ++ [⟨.send conn rows, stored⟩]) := by
          refine ⟨done ++ batch, ?_, ?_, fun hgood => ⟨?_, Nat.zero_le _⟩⟩
          · rw [received_snoc, hdone]
            rfl
          · rw [sent_snoc]
            exact hsub.append hrows
          · have hbefore : ∀ e ∈ before, WentWell e := fun e he =>
              hgood e (List.mem_append_left _ he)
            rw [sent_snoc, (hwell hbefore).1, ← hall hbefore]
            rfl
        split
        · exact hsent
        next hstored =>
          exact ⟨guard_of_not (not_wentWell (show ¬ WentWell _ from hstored)),
            fun _ => hsent.snoc rfl rfl⟩
    next hnot =>
      have hwrong : ¬ ∀ e ∈ past ++ [⟨.current, some conn⟩] ++ [⟨.prepareBatch conn, prepared⟩],
          WentWell e := not_wentWell (show ¬ WentWell _ from hnot)
      exact ⟨guard_of_not hwrong, fun _ => (hprepared.giveUp hwrong).snoc rfl rfl⟩

theorem reconnectIfNeeded_safe (h : Holds batch past) :
    Safe WorkerGuard reconnectIfNeeded (fun events _ => Holds batch events) past := by
  simp only [reconnectIfNeeded, ask, safe_bind, safe_perform]
  refine ⟨h.guard (by simp) (by simp), fun down => ?_⟩
  have hdown := h.snoc (e := ⟨.takeDown, down⟩) rfl rfl
  split
  · simp only [safe_bind, safe_perform]
    refine ⟨hdown.guard (by simp) (by simp), fun opened => ?_⟩
    have hopened := hdown.snoc (e := ⟨.open, opened⟩) rfl rfl
    cases opened with
    | none => exact hopened
    | some conn => exact ⟨hopened.guard (by simp) (by simp), fun _ => hopened.snoc rfl rfl⟩
  · exact hdown

theorem drain_safe (h : Holds batch past) (hstopped : ¬ ∀ e ∈ past, WentWell e) :
    Safe WorkerGuard (drain turns batch) (fun events _ => ∃ batch, Holds batch events) past := by
  induction turns generalizing batch past with
  | zero => exact ⟨batch, h⟩
  | succ turns ih =>
    simp only [drain, ask, safe_bind, safe_perform]
    refine ⟨h.guard (by simp) (by simp), fun next => ?_⟩
    cases next with
    | some e =>
      exact ih (h.receive rfl rfl fun hall => absurd hall hstopped)
        fun hall => hstopped fun d hd => hall d (List.mem_append_left _ hd)
    | none =>
      have hnext := h.snoc (e := ⟨.drain, none⟩) rfl rfl
      dsimp only
      split
      · exact (flush_safe hnext).mono fun _ _ hevents => ⟨[], hevents⟩
      · exact ⟨batch, hnext⟩

theorem worker_safe (h : Holds batch past) (hsize : batch.length < logBatchSize) :
    Safe WorkerGuard (worker turns batch) (fun events _ => ∃ batch, Holds batch events) past := by
  have hempty : ([] : List ε).length < logBatchSize := Nat.zero_lt_succ 999
  induction turns generalizing batch past with
  | zero => exact ⟨batch, h⟩
  | succ turns ih =>
    simp only [worker, ask, safe_bind, safe_perform]
    refine ⟨h.guard (by simp) (by simp), fun selected => ?_⟩
    cases selected with
    | stop => exact drain_safe (h.snoc rfl rfl) (not_wentWell id)
    | entry e =>
      have hentry := h.receive (e := ⟨.select, .entry e⟩) rfl rfl fun _ => hsize
      dsimp only
      split
      · rw [safe_bind]
        exact (flush_safe hentry).mono fun events _ hevents => ih hevents hempty
      next hless => exact ih hentry (not_le.mp hless)
    | retryTick =>
      rw [safe_bind]
      exact (reconnectIfNeeded_safe (h.snoc rfl rfl)).mono fun events _ hevents => ih hevents hsize
    | tick =>
      have htick := h.snoc (e := ⟨.select, .tick⟩) rfl rfl
      dsimp only
      split
      · rw [safe_bind]
        exact (flush_safe htick).mono fun events _ hevents => ih hevents hempty
      · exact ih htick hsize
    | notReady => exact ih (h.snoc rfl rfl) hsize

end Clickhouse

/-! ### The worker among the others -/

section Runs

open Interleaving

namespace Clickhouse

variable (o : LogOutside) (op : LogOp ε) (c : Clickhouse ε)

/-- What a call does to the channel. -/
theorem respond_channel : c.ch ++ (acceptedBy ⟨op, (respond o op c).1⟩).toList =
    (receivedBy ⟨op, (respond o op c).1⟩).toList ++ (respond o op c).2.ch := by
  have hkept : ∀ {answer : LogAns ε op} {next : Clickhouse ε}, next.ch = c.ch →
      acceptedBy ⟨op, answer⟩ = none → receivedBy ⟨op, answer⟩ = none →
      c.ch ++ (acceptedBy ⟨op, answer⟩).toList =
        (receivedBy ⟨op, answer⟩).toList ++ next.ch := by
    intro answer next hch haccepted hreceived
    rw [hch, haccepted, hreceived, Option.toList_none, List.append_nil, List.nil_append]
  cases op with
  | offer e =>
    rw [respond]
    split
    · rfl
    · exact hkept rfl rfl rfl
  | select =>
    rw [respond]
    split
    · split <;> exact hkept rfl rfl rfl
    · exact hkept rfl rfl rfl
    next e rest hready hch =>
      rw [hch]
      exact List.append_nil _
    · exact hkept rfl rfl rfl
    · exact hkept rfl rfl rfl
  | drain =>
    rw [respond]
    split
    · exact hkept rfl rfl rfl
    next e rest hch =>
      rw [hch]
      exact List.append_nil _
  | send conn rows =>
    rw [respond]
    split <;> exact hkept rfl rfl rfl
  | takeDown =>
    rw [respond]
    split_ifs <;> exact hkept rfl rfl rfl
  | connect target =>
    rw [respond]
    dsimp only
    split <;> exact hkept rfl rfl rfl
  | current | prepareBatch | append | markDisconnected | «open» | install | closeStop =>
    exact hkept rfl rfl rfl

/-- An entry is accepted as long as there is room. -/
theorem acceptedBy_respond (e : ε) : acceptedBy ⟨.offer e, (respond o (.offer e) c).1⟩ =
    if c.ch.length < logChannelSize then some e else none := by
  rw [respond]
  split <;> rfl

/-- No call fills the channel beyond its size. -/
theorem length_ch_respond (h : c.ch.length ≤ logChannelSize) :
    (respond o op c).2.ch.length ≤ logChannelSize := by
  have hchannel := congrArg List.length (respond_channel o op c)
  rw [List.length_append, List.length_append] at hchannel
  cases op with
  | offer e =>
    rw [acceptedBy_respond] at hchannel
    split at hchannel
    next hlt =>
      rw [Option.toList_some, List.length_singleton] at hchannel
      omega
    next =>
      rw [Option.toList_none, List.length_nil] at hchannel
      omega
  | _ =>
    rw [show acceptedBy _ = none from rfl, Option.toList_none, List.length_nil] at hchannel
    omega

/-- The rows that a call leaves in the table. -/
def storedBy (o : LogOutside) : LogOp ε → List ε
  | .send _ rows => if o.delivery = .refused then [] else rows
  | _ => []

theorem table_respond : (respond o op c).2.table = c.table ++ storedBy o op := by
  cases op with
  | send conn rows =>
    rw [respond, storedBy]
    cases o.delivery with
    | refused => exact (List.append_nil _).symm
    | stored | unacknowledged => rfl
  | offer e =>
    refine Eq.trans ?_ (List.append_nil _).symm
    rw [respond]
    split <;> rfl
  | select =>
    refine Eq.trans ?_ (List.append_nil _).symm
    rw [respond]
    split
    · split <;> rfl
    all_goals rfl
  | drain =>
    refine Eq.trans ?_ (List.append_nil _).symm
    rw [respond]
    split <;> rfl
  | takeDown =>
    refine Eq.trans ?_ (List.append_nil _).symm
    rw [respond]
    split_ifs <;> rfl
  | connect target =>
    refine Eq.trans ?_ (List.append_nil _).symm
    rw [respond]
    dsimp only
    split <;> rfl
  | current | prepareBatch | append | markDisconnected | «open» | install | closeStop =>
    exact (List.append_nil _).symm

/-- Nothing is stored but what is sent. -/
theorem storedBy_sublist (answer : LogAns ε op) :
    (storedBy o op).Sublist (sentBy ⟨op, answer⟩) := by
  cases op with
  | send conn rows =>
    rw [storedBy]
    split
    · exact List.nil_sublist _
    · exact List.Sublist.refl _
  | _ => exact List.nil_sublist _

end Clickhouse

variable {c : Clickhouse ε} {activities : ℕ → LogActivity ε} {moves : List (ℕ × LogOutside)}
  {log past : List (Call LogOutside (LogAns ε))} {d : Call LogOutside (LogAns ε)} {turns : ℕ}

/-- The events of all threads. -/
def eventsOf (log : List (Call LogOutside (LogAns ε))) : List (Event (LogAns ε)) :=
  log.map Call.event

theorem eventsOf_snoc (past : List (Call LogOutside (LogAns ε))) (d : Call LogOutside (LogAns ε)) :
    eventsOf (past ++ [d]) = eventsOf past ++ [d.event] :=
  List.map_append

/-- **First in, first out**: what the worker has taken from the channel, and what is in it, is what
the channel has taken. -/
theorem accepted_eq (h : IsHistory Clickhouse.respond c (logPrograms turns activities) log)
    (hch : c.ch = []) :
    acceptedEntries (eventsOf log) =
      receivedEntries (eventsOf log) ++ (after Clickhouse.respond c log).ch := by
  induction log using List.reverseRecOn with
  | nil => exact hch.symm
  | append_singleton past d ih =>
    have hpast := ih (h.of_prefix (List.prefix_append _ _))
    have hanswer := h.answers past d (List.prefix_refl _)
    obtain ⟨i, o, op, answer⟩ := d
    obtain rfl : answer = (Clickhouse.respond o op (after Clickhouse.respond c past)).1 := hanswer
    have hchannel := Clickhouse.respond_channel o op (after Clickhouse.respond c past)
    rw [eventsOf_snoc, accepted_snoc, received_snoc, after_append, hpast, List.append_assoc,
      List.append_assoc]
    exact congrArg _ hchannel

/-- What a user of the logger calls takes nothing from the channel, sends nothing and does not mark
the connection. -/
def Outsider (op : LogOp ε) : Prop :=
  op ≠ .markDisconnected ∧ ∀ answer, receivedBy ⟨op, answer⟩ = none ∧ sentBy ⟨op, answer⟩ = []

/-- What the threads may call. -/
def logGuard : ℕ → List (Event (LogAns ε)) → LogOp ε → Prop
  | 0 => Clickhouse.WorkerGuard
  | _ + 1 => fun _ => Outsider

/-- What the threads have called in the end. -/
def logPost : ℕ → List (Event (LogAns ε)) → Unit → Prop
  | 0 => fun events _ => ∃ batch, Clickhouse.Holds batch events
  | _ + 1 => fun _ _ => True

theorem logPrograms_safe (i : ℕ) :
    (logPrograms turns activities i).Safe (logGuard i) (logPost i) [] := by
  cases i with
  | zero =>
    have hholds : Clickhouse.Holds ([] : List ε) [] :=
      ⟨[], rfl, List.Sublist.refl _, fun _ => ⟨rfl, Nat.zero_le _⟩⟩
    exact Clickhouse.worker_safe hholds (Nat.zero_lt_succ 999)
  | succ i =>
    rw [logPrograms]
    cases activities i with
    | log e => exact ⟨⟨by simp, fun answer => ⟨rfl, rfl⟩⟩, fun _ => trivial⟩
    | connect target => exact ⟨⟨by simp, fun answer => ⟨rfl, rfl⟩⟩, fun _ => trivial⟩
    | close => exact ⟨⟨by simp, fun answer => ⟨rfl, rfl⟩⟩, fun _ => trivial⟩

/-- Only the worker takes from the channel and sends. -/
theorem eventsOf_eq (h : IsHistory Clickhouse.respond c (logPrograms turns activities) log) :
    receivedEntries (eventsOf log) = receivedEntries (callsOf 0 log) ∧
      sentRows (eventsOf log) = sentRows (callsOf 0 log) := by
  induction log using List.reverseRecOn with
  | nil => exact ⟨rfl, rfl⟩
  | append_singleton past d ih =>
    obtain ⟨hreceived, hsent⟩ := ih (h.of_prefix (List.prefix_append _ _))
    rw [eventsOf_snoc, received_snoc, sent_snoc, hreceived, hsent]
    by_cases hthread : d.thread = 0
    · rw [← hthread, callsOf_append_self, received_snoc, sent_snoc]
      exact ⟨rfl, rfl⟩
    · have hguard := h.guarded logPrograms_safe (List.prefix_refl (past ++ [d]))
      obtain ⟨i, hi⟩ := Nat.exists_eq_succ_of_ne_zero hthread
      rw [hi] at hguard
      obtain ⟨hnone, hnil⟩ : receivedBy d.event = none ∧ sentBy d.event = [] :=
        hguard.2 d.answer
      rw [callsOf_append_of_ne _ hthread, hnone, hnil, Option.toList_none, List.append_nil,
        List.append_nil]
      exact ⟨rfl, rfl⟩

/-- The worker sends what it has received, in order and nothing twice. -/
theorem sent_sublist (h : IsHistory Clickhouse.respond c (logPrograms turns activities) log) :
    (sentRows (callsOf 0 log)).Sublist (receivedEntries (callsOf 0 log)) := by
  induction log using List.reverseRecOn with
  | nil => exact List.Sublist.refl _
  | append_singleton past d ih =>
    have hpast := ih (h.of_prefix (List.prefix_append _ _))
    by_cases hthread : d.thread = 0
    · have hguard := h.guarded logPrograms_safe (List.prefix_refl (past ++ [d]))
      rw [hthread] at hguard
      rw [← hthread, callsOf_append_self, received_snoc, sent_snoc, hthread]
      refine List.Sublist.trans ?_ (List.sublist_append_left _ _)
      obtain ⟨i, o, op, answer⟩ := d
      cases op with
      | send conn rows => exact hguard.1 conn rows rfl
      | _ => exact (List.append_nil _).symm ▸ hpast
    · rwa [callsOf_append_of_ne _ hthread]

/-- What is in the table has been sent. -/
theorem table_sublist (c : Clickhouse ε) (log : List (Call LogOutside (LogAns ε))) :
    (after Clickhouse.respond c log).table.Sublist (c.table ++ sentRows (eventsOf log)) := by
  induction log using List.reverseRecOn with
  | nil => exact List.sublist_append_left _ _
  | append_singleton past d ih =>
    rw [after_append, Clickhouse.table_respond, eventsOf_snoc, sent_snoc, ← List.append_assoc]
    exact ih.append (Clickhouse.storedBy_sublist _ _ _)

theorem length_ch_after (hch : c.ch.length ≤ logChannelSize)
    (log : List (Call LogOutside (LogAns ε))) :
    (after Clickhouse.respond c log).ch.length ≤ logChannelSize := by
  induction log using List.reverseRecOn with
  | nil => exact hch
  | append_singleton past d ih =>
    rw [after_append]
    exact Clickhouse.length_ch_respond _ _ _ ih

/-- `NewClickhouse`, with what it has inserted. -/
def newClickhouse : Clickhouse ε :=
  ⟨[], false, none, false, ⟨[], [], [], []⟩, []⟩

/-- **What is inserted**: after every run, whatever becomes of the connection, the entries that the
channel has taken are those that the worker has taken from it and then those that are in it; the
table has some of the former, in their order and none twice. The channel refuses an entry only when
it is full. -/
theorem inserted_sublist (turns : ℕ) (activities : ℕ → LogActivity ε)
    (moves : List (ℕ × LogOutside)) :
    let w := logRun newClickhouse turns activities moves
    (∃ taken, acceptedEntries (eventsOf w.log) = taken ++ w.shared.ch ∧
        w.shared.table.Sublist taken) ∧
      w.shared.ch.length ≤ logChannelSize ∧
      ∀ past d rest e, w.log = past ++ d :: rest → d.event = ⟨.offer e, false⟩ →
        (after Clickhouse.respond newClickhouse past).ch.length = logChannelSize := by
  obtain ⟨hhistory, hshared, -⟩ := run_isHistory Clickhouse.respond newClickhouse
    (logPrograms turns activities) moves
  rw [← logRun] at hhistory hshared
  have hempty : (newClickhouse : Clickhouse ε).ch.length ≤ logChannelSize := Nat.zero_le _
  dsimp only
  rw [hshared]
  refine ⟨⟨_, accepted_eq hhistory rfl, ?_⟩, length_ch_after hempty _, ?_⟩
  · obtain ⟨hreceived, hsent⟩ := eventsOf_eq hhistory
    have htable := table_sublist newClickhouse (logRun newClickhouse turns activities moves).log
    rw [hreceived]
    rw [hsent] at htable
    exact htable.trans (sent_sublist hhistory)
  · intro past d rest e hlog hevent
    obtain ⟨-, hanswer⟩ := hhistory.answer_eq hlog hevent
    have hfull := length_ch_after hempty past
    have hrespond : ∀ c : Clickhouse ε, false = (Clickhouse.respond d.input (.offer e) c).1 →
        ¬ c.ch.length < logChannelSize := by
      intro c hfalse hlt
      rw [Clickhouse.respond, if_pos hlt] at hfalse
      cases hfalse
    have hlt := hrespond _ hanswer
    omega

/-! ### While the driver does its part -/

end Runs

end VibesWaf

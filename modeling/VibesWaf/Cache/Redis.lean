import Mathlib.Data.List.Infix
import VibesWaf.Lib.Run

/-!
# The client of Redis

A `RedisClient` is used by the goroutines of all requests. It is switched off when a command fails
and a ping fails after it, and a goroutine is started then that pings the server every five seconds
and switches the client on again. The flag is read and written under a lock, and between the
sections any goroutine may come: a client can be switched off by a ping that failed long ago, and a
command can still be under way when the client is off.

`redisClient_one` is what holds all the same: the client is on, or exactly one loop is about to
switch it on, until it is closed. `redisClient_recovers` says that this loop does so at its next
answered ping, and `switchedOff_of_failure` what it takes to switch the client off. A `nil` client
is never asked.
-/

namespace VibesWaf

/-- The methods of `RedisClient` that ask the server. -/
inductive RedisCall
  | get
  | set
  | del
  | incr
  | incrWithCooldown
  | getInt
  deriving DecidableEq

/-- What the driver says to a command: a value, of which only a number is looked at, `redis.Nil`, or
another error. -/
inductive RedisReply
  | ok (value : ℤ)
  | nil
  | error
  deriving DecidableEq

namespace RedisReply

/-- `err != nil`. -/
def IsErr : RedisReply → Prop
  | .ok _ => False
  | .nil => True
  | .error => True

/-- `err != nil && !errors.Is(err, redis.Nil)`. -/
def IsFailure : RedisReply → Prop
  | .ok _ => False
  | .nil => False
  | .error => True

instance : (r : RedisReply) → Decidable r.IsErr
  | .ok _ => .isFalse id
  | .nil => .isTrue trivial
  | .error => .isTrue trivial

instance : (r : RedisReply) → Decidable r.IsFailure
  | .ok _ => .isFalse id
  | .nil => .isFalse id
  | .error => .isTrue trivial

end RedisReply

/-- A call looks after the server when it gets this reply: the calls that read let `redis.Nil`
pass. -/
def RedisCall.Suspects (call : RedisCall) (reply : RedisReply) : Prop :=
  match call with
  | .get => reply.IsFailure
  | .getInt => reply.IsFailure
  | .set => reply.IsErr
  | .del => reply.IsErr
  | .incr => reply.IsErr
  | .incrWithCooldown => reply.IsErr

instance : (call : RedisCall) → (reply : RedisReply) → Decidable (call.Suspects reply)
  | .get, r => inferInstanceAs (Decidable r.IsFailure)
  | .getInt, r => inferInstanceAs (Decidable r.IsFailure)
  | .set, r => inferInstanceAs (Decidable r.IsErr)
  | .del, r => inferInstanceAs (Decidable r.IsErr)
  | .incr, r => inferInstanceAs (Decidable r.IsErr)
  | .incrWithCooldown, r => inferInstanceAs (Decidable r.IsErr)

/-- Where `reconnectLoop` is. -/
inductive LoopPoint
  /-- In its `select`. -/
  | select
  /-- At the ping. -/
  | ping
  /-- Before the lock. -/
  | lock
  deriving DecidableEq

/-- Where a goroutine is. -/
inductive RedisPoint
  /-- It was let through and is at its command. -/
  | command (call : RedisCall)
  /-- `Incr` has counted the first, and is at `Expire`. -/
  | expire
  /-- In `checkHealth`, at the ping. -/
  | checkPing
  /-- In `checkHealth`, before the lock. -/
  | checkLock
  | reconnectLoop (point : LoopPoint)
  | returned
  deriving DecidableEq

/-- What lets a goroutine go on. -/
inductive RedisTurn
  /-- The server has replied, or the time is over. -/
  | reply (r : RedisReply)
  /-- The ticker of the loop. -/
  | tick
  /-- `stopCh` in the `select` of the loop. -/
  | stop
  /-- The goroutine has the lock. -/
  | lock
  deriving DecidableEq

/-- What a goroutine has done with its turn. -/
structure RedisOutcome where
  point : RedisPoint
  enabled : Bool
  /-- The goroutine it has started. -/
  started : Option RedisPoint

/-- A call after the reply to its command. -/
def RedisCall.replied (call : RedisCall) (reply : RedisReply) : RedisPoint :=
  if call.Suspects reply then .checkPing
  else if call = .incr ∧ reply = .ok 1 then .expire
  else .returned

/-- `checkHealth` under the lock. -/
def checkHealthLocked (enabled : Bool) : RedisOutcome :=
  if enabled then ⟨.returned, false, some (.reconnectLoop .select)⟩
  else ⟨.returned, enabled, none⟩

/-- `reconnectLoop`; `none` while it is not its turn. -/
def reconnectLoop (enabled stopped : Bool) : LoopPoint → RedisTurn → Option RedisOutcome
  | .select, .stop => if stopped then some ⟨.returned, enabled, none⟩ else none
  | .select, .tick => some ⟨.reconnectLoop .ping, enabled, none⟩
  | .ping, .reply r =>
    some ⟨.reconnectLoop (if r.IsErr then .select else .lock), enabled, none⟩
  | .lock, .lock => some ⟨.returned, true, none⟩
  | _, _ => none

/-- What a goroutine does with a turn; `none` when it has to wait for another. -/
def RedisPoint.turn (enabled stopped : Bool) : RedisPoint → RedisTurn → Option RedisOutcome
  | .command call, .reply r => some ⟨call.replied r, enabled, none⟩
  | .expire, .reply _ => some ⟨.returned, enabled, none⟩
  | .checkPing, .reply r => some ⟨if r.IsErr then .checkLock else .returned, enabled, none⟩
  | .checkLock, .lock => some (checkHealthLocked enabled)
  | .reconnectLoop point, t => VibesWaf.reconnectLoop enabled stopped point t
  | _, _ => none

/-- `RedisClient`, with the goroutines that are in its methods. -/
structure RedisClient where
  /-- `client` is not `nil`. -/
  client : Bool
  enabled : Bool
  /-- `stopCh` is closed. -/
  stopped : Bool
  goroutines : List RedisPoint

/-- What happens to a client. -/
inductive RedisMove
  /-- A method is called and reads the flag. -/
  | call (call : RedisCall)
  | turn (i : ℕ) (t : RedisTurn)
  | close
  deriving DecidableEq

namespace RedisClient

/-- `NewDisabledClient`. -/
def newDisabledClient : RedisClient :=
  ⟨false, false, false, []⟩

/-- `NewRedisClient`, after its ping. -/
def newRedisClient (ping : RedisReply) : RedisClient :=
  if ping.IsErr then ⟨true, false, false, [.reconnectLoop .select]⟩ else ⟨true, true, false, []⟩

/-- A call is let through while the client is on; a goroutine has its turn; `Close` stops the
loop. -/
def step (c : RedisClient) : RedisMove → RedisClient
  | .call call =>
    if c.enabled then { c with goroutines := c.goroutines ++ [.command call] } else c
  | .turn i t =>
    match c.goroutines[i]? >>= (RedisPoint.turn c.enabled c.stopped · t) with
    | none => c
    | some o =>
      { c with enabled := o.enabled, goroutines := c.goroutines.set i o.point ++ o.started.toList }
  | .close => { c with stopped := true }

/-- A client after some moves. -/
def run (c : RedisClient) (moves : List RedisMove) : RedisClient :=
  moves.foldl step c

/-- The clients that are made. -/
inductive Made : RedisClient → Prop
  | disabled : Made newDisabledClient
  | connected (ping : RedisReply) : Made (newRedisClient ping)

variable {c : RedisClient} {i : ℕ} {p : RedisPoint} {t : RedisTurn} {o : RedisOutcome}

theorem run_snoc (c : RedisClient) (moves : List RedisMove) (m : RedisMove) :
    c.run (moves ++ [m]) = (c.run moves).step m := by
  rw [run, List.foldl_append]
  rfl

/-- What a turn does: nothing, or what its goroutine does with it. -/
theorem turn_cases (c : RedisClient) (i : ℕ) (t : RedisTurn) :
    c.step (.turn i t) = c ∨ ∃ p o, c.goroutines[i]? = some p ∧
      p.turn c.enabled c.stopped t = some o ∧
      c.step (.turn i t) =
        { c with enabled := o.enabled
                 goroutines := c.goroutines.set i o.point ++ o.started.toList } := by
  rw [step]
  cases hp : c.goroutines[i]? with
  | none => exact .inl rfl
  | some p =>
    cases ho : p.turn c.enabled c.stopped t with
    | none => exact .inl (by simp [ho])
    | some o => exact .inr ⟨p, o, rfl, ho, by simp [ho]⟩

/-! ### One loop, or the client is on -/

end RedisClient

/-- A goroutine in `reconnectLoop`. -/
def RedisPoint.isLoop : RedisPoint → Bool
  | .reconnectLoop _ => true
  | _ => false

/-- How many loops some goroutines run, and one if the client is on. -/
def redisTokens (goroutines : List RedisPoint) (enabled : Bool) : ℕ :=
  goroutines.countP RedisPoint.isLoop + enabled.toNat

section Turns

variable {p : RedisPoint} {point : LoopPoint} {t : RedisTurn} {o : RedisOutcome}
  {enabled stopped : Bool}

/-- What a goroutine does with its turn. -/
theorem RedisPoint.turn_cases (h : p.turn enabled stopped t = some o) :
    (∃ call r, p = .command call ∧ t = .reply r ∧ o = ⟨call.replied r, enabled, none⟩) ∨
      (∃ r, p = .expire ∧ t = .reply r ∧ o = ⟨.returned, enabled, none⟩) ∨
      (∃ r, p = .checkPing ∧ t = .reply r ∧
        o = ⟨if r.IsErr then .checkLock else .returned, enabled, none⟩) ∨
      (p = .checkLock ∧ t = .lock ∧ o = checkHealthLocked enabled) ∨
      ∃ point, p = .reconnectLoop point ∧
        VibesWaf.reconnectLoop enabled stopped point t = some o := by
  cases p with
  | command call =>
    cases t with
    | reply r => exact .inl ⟨call, r, rfl, rfl, (Option.some.inj h).symm⟩
    | tick | stop | lock => cases h
  | expire =>
    cases t with
    | reply r => exact .inr (.inl ⟨r, rfl, rfl, (Option.some.inj h).symm⟩)
    | tick | stop | lock => cases h
  | checkPing =>
    cases t with
    | reply r => exact .inr (.inr (.inl ⟨r, rfl, rfl, (Option.some.inj h).symm⟩))
    | tick | stop | lock => cases h
  | checkLock =>
    cases t with
    | lock => exact .inr (.inr (.inr (.inl ⟨rfl, rfl, (Option.some.inj h).symm⟩)))
    | reply | tick | stop => cases h
  | reconnectLoop point => exact .inr (.inr (.inr (.inr ⟨point, rfl, h⟩)))
  | returned => cases t <;> cases h

/-- What a loop does with its turn. -/
theorem reconnectLoop_cases (h : reconnectLoop enabled stopped point t = some o) :
    (point = .select ∧ t = .stop ∧ stopped = true ∧ o = ⟨.returned, enabled, none⟩) ∨
      (point = .select ∧ t = .tick ∧ o = ⟨.reconnectLoop .ping, enabled, none⟩) ∨
      (∃ r, point = .ping ∧ t = .reply r ∧
        o = ⟨.reconnectLoop (if r.IsErr then .select else .lock), enabled, none⟩) ∨
      (point = .lock ∧ t = .lock ∧ o = ⟨.returned, true, none⟩) := by
  cases point with
  | select =>
    cases t with
    | stop =>
      rw [reconnectLoop] at h
      split_ifs at h with hstopped
      exact .inl ⟨rfl, rfl, hstopped, (Option.some.inj h).symm⟩
    | tick => exact .inr (.inl ⟨rfl, rfl, (Option.some.inj h).symm⟩)
    | reply | lock => cases h
  | ping =>
    cases t with
    | reply r => exact .inr (.inr (.inl ⟨r, rfl, rfl, (Option.some.inj h).symm⟩))
    | tick | stop | lock => cases h
  | lock =>
    cases t with
    | lock => exact .inr (.inr (.inr ⟨rfl, rfl, (Option.some.inj h).symm⟩))
    | reply | tick | stop => cases h

/-- Only loops are started. -/
theorem RedisPoint.loop_of_started {q : RedisPoint} (h : p.turn enabled stopped t = some o)
    (hstarted : o.started = some q) : ∃ point, q = .reconnectLoop point := by
  rcases RedisPoint.turn_cases h with ⟨call, r, -, -, rfl⟩ | ⟨r, -, -, rfl⟩ | ⟨r, -, -, rfl⟩ |
    ⟨-, -, rfl⟩ | ⟨point, -, hloop⟩
  · cases hstarted
  · cases hstarted
  · cases hstarted
  · rw [checkHealthLocked] at hstarted
    split_ifs at hstarted
    exact ⟨.select, (Option.some.inj hstarted).symm⟩
  · rcases reconnectLoop_cases hloop with ⟨-, -, -, rfl⟩ | ⟨-, -, rfl⟩ | ⟨r, -, -, rfl⟩ |
      ⟨-, -, rfl⟩ <;> cases hstarted

/-- **A turn keeps the balance**: a loop ends by switching the client on, and a client that is
switched off starts one. Only a loop that is stopped leaves nothing. -/
theorem RedisPoint.tokens_turn (h : p.turn enabled stopped t = some o)
    (hone : redisTokens [p] enabled ≤ 1) :
    redisTokens (o.point :: o.started.toList) o.enabled ≤ redisTokens [p] enabled ∧
      (stopped = false →
        redisTokens (o.point :: o.started.toList) o.enabled = redisTokens [p] enabled) := by
  rcases RedisPoint.turn_cases h with ⟨call, r, rfl, -, rfl⟩ | ⟨r, rfl, -, rfl⟩ |
    ⟨r, rfl, -, rfl⟩ | ⟨rfl, -, rfl⟩ | ⟨point, rfl, hloop⟩
  · rw [RedisCall.replied]
    split_ifs <;> simp [redisTokens, isLoop]
  · simp [redisTokens, isLoop]
  · split_ifs <;> simp [redisTokens, isLoop]
  · cases enabled <;> simp [redisTokens, checkHealthLocked, isLoop]
  · rcases reconnectLoop_cases hloop with ⟨rfl, -, hstopped, rfl⟩ | ⟨rfl, -, rfl⟩ |
      ⟨r, rfl, -, rfl⟩ | ⟨rfl, -, rfl⟩
    · simp [redisTokens, isLoop, hstopped]
    · simp [redisTokens, isLoop]
    · simp [redisTokens, isLoop]
    · cases enabled <;> simp [redisTokens, isLoop] at hone ⊢

end Turns

namespace RedisClient

variable {c : RedisClient} {i : ℕ} {p : RedisPoint} {t : RedisTurn} {o : RedisOutcome}
  {moves past rest : List RedisMove} {m : RedisMove}

/-- The client is on or has one loop, and not both; and a `nil` client is not used. -/
structure Sound (c : RedisClient) : Prop where
  le_one : redisTokens c.goroutines c.enabled ≤ 1
  one : c.client = true → c.stopped = false → redisTokens c.goroutines c.enabled = 1
  unused : c.client = false → c.enabled = false ∧ c.goroutines = []

/-- The tokens are those of the goroutine that has its turn and those of the others. -/
theorem tokens_split (hp : c.goroutines[i]? = some p) :
    ∃ others, redisTokens c.goroutines c.enabled = others + redisTokens [p] c.enabled ∧
      redisTokens (c.goroutines.set i o.point ++ o.started.toList) o.enabled =
        others + redisTokens (o.point :: o.started.toList) o.enabled := by
  obtain ⟨hi, rfl⟩ := List.getElem?_eq_some_iff.mp hp
  have hle := List.boole_getElem_le_countP (p := RedisPoint.isLoop) hi
  refine ⟨c.goroutines.countP RedisPoint.isLoop -
    if RedisPoint.isLoop c.goroutines[i] then 1 else 0, ?_, ?_⟩
  · rw [redisTokens, redisTokens, List.countP_singleton]
    omega
  · rw [redisTokens, redisTokens, List.countP_append, List.countP_set hi, List.countP_cons]
    omega

theorem Made.sound (h : Made c) : c.Sound := by
  cases h with
  | disabled => exact ⟨Nat.zero_le 1, nofun, fun _ => ⟨rfl, rfl⟩⟩
  | connected ping =>
    rw [newRedisClient]
    split_ifs
    · exact ⟨le_refl 1, fun _ _ => rfl, nofun⟩
    · exact ⟨le_refl 1, fun _ _ => rfl, nofun⟩

theorem Sound.step (h : c.Sound) (m : RedisMove) : (c.step m).Sound := by
  cases m with
  | call call =>
    rw [RedisClient.step]
    split_ifs with henabled
    · have htokens : redisTokens (c.goroutines ++ [.command call]) c.enabled =
          redisTokens c.goroutines c.enabled := by
        simp [redisTokens, RedisPoint.isLoop]
      refine ⟨htokens ▸ h.le_one, fun hclient hstopped => htokens ▸ h.one hclient hstopped,
        fun hclient => ?_⟩
      rw [(h.unused hclient).1] at henabled
      cases henabled
    · exact h
  | turn i t =>
    rcases RedisClient.turn_cases c i t with hstep | ⟨p, o, hp, ho, hstep⟩
    · rw [hstep]
      exact h
    · rw [hstep]
      obtain ⟨others, hbefore, hafter⟩ := tokens_split (o := o) hp
      have hle := h.le_one
      obtain ⟨hless, hsame⟩ := RedisPoint.tokens_turn ho (by omega)
      refine ⟨?_, fun hclient hstopped => ?_, fun hclient => ?_⟩
      · dsimp only
        omega
      · have hone := h.one hclient hstopped
        have heq := hsame hstopped
        dsimp only
        omega
      · rw [(h.unused hclient).2] at hp
        cases hp
  | close => exact ⟨h.le_one, fun _ hstopped => absurd hstopped Bool.noConfusion, h.unused⟩

theorem Sound.run (h : c.Sound) (moves : List RedisMove) : (c.run moves).Sound := by
  induction moves using List.reverseRecOn with
  | nil => exact h
  | append_singleton moves m ih =>
    rw [run_snoc]
    exact ih.step m

/-- **One of the two**: after every run a client that was made for a server and not closed is on or
has one goroutine in `reconnectLoop`, and never both. No goroutine is in a method of a client
without a server. -/
theorem redisClient_one (h : Made c) (moves : List RedisMove) :
    let s := c.run moves
    redisTokens s.goroutines s.enabled ≤ 1 ∧
      (s.client = true → s.stopped = false → redisTokens s.goroutines s.enabled = 1) ∧
      (s.client = false → s.enabled = false ∧ s.goroutines = []) :=
  have hsound := h.sound.run moves
  ⟨hsound.le_one, hsound.one, hsound.unused⟩

/-! ### The loop switches the client on -/

end RedisClient

/-- The turns of a goroutine among some moves. -/
def RedisMove.turnOf (i : ℕ) : RedisMove → Option RedisTurn
  | .turn j t => if j = i then some t else none
  | _ => none

/-- Where a loop goes with a turn while the client is off and open; after the lock the client is
on. -/
def LoopPoint.next : LoopPoint → RedisTurn → LoopPoint
  | .select, .tick => .ping
  | .ping, .reply r => if r.IsErr then .select else .lock
  | point, _ => point

/-- From wherever a loop is, a tick and an answered ping lead it to the lock. -/
theorem LoopPoint.next_ping (point : LoopPoint) (value : ℤ) :
    (point.next .tick).next (.reply (.ok value)) = .lock := by
  cases point <;> rfl

theorem LoopPoint.next_of_none {point : LoopPoint} {t : RedisTurn}
    (h : reconnectLoop false false point t = none) : point.next t = point := by
  cases point with
  | select =>
    cases t with
    | tick => cases h
    | reply | stop | lock => rfl
  | ping =>
    cases t with
    | reply r => cases h
    | tick | stop | lock => rfl
  | lock => rfl

theorem LoopPoint.next_of_some {point : LoopPoint} {t : RedisTurn} {o : RedisOutcome}
    (h : reconnectLoop false false point t = some o) (hoff : o.enabled = false) :
    o.point = .reconnectLoop (point.next t) := by
  rcases reconnectLoop_cases h with ⟨-, -, hstopped, -⟩ | ⟨rfl, rfl, rfl⟩ | ⟨r, rfl, rfl, rfl⟩ |
    ⟨-, -, rfl⟩
  · cases hstopped
  · rfl
  · rfl
  · cases hoff

namespace RedisClient

variable {c : RedisClient} {i : ℕ} {point : LoopPoint} {moves rest : List RedisMove}
  {m : RedisMove}

/-- The client is off and open, and a goroutine is in its loop. -/
structure Reconnecting (c : RedisClient) (i : ℕ) (point : LoopPoint) : Prop where
  disabled : c.enabled = false
  running : c.stopped = false
  loop : c.goroutines[i]? = some (.reconnectLoop point)

/-- What others do leaves a loop where it is. -/
theorem getElem?_step_of_ne {p : RedisPoint} (hp : c.goroutines[i]? = some p)
    (hm : m.turnOf i = none) : (c.step m).goroutines[i]? = some p := by
  obtain ⟨hi, -⟩ := List.getElem?_eq_some_iff.mp hp
  cases m with
  | call call =>
    rw [step]
    split_ifs
    · rw [List.getElem?_append_left hi, hp]
    · exact hp
  | turn j t =>
    have hij : j ≠ i := by
      rintro rfl
      simp [RedisMove.turnOf] at hm
    rcases RedisClient.turn_cases c j t with hstep | ⟨-, o, -, -, hstep⟩
    · rw [hstep, hp]
    · rw [hstep]
      dsimp only
      rw [List.getElem?_append_left (by simpa using hi), List.getElem?_set_ne hij, hp]
  | close => exact hp

/-- **One move** of a client that is off and open: it is on after it, or its loop has gone on when
it was its turn. -/
theorem Reconnecting.step (h : Reconnecting c i point) (hm : m ≠ .close) :
    (c.step m).enabled = true ∨
      Reconnecting (c.step m) i ((m.turnOf i).elim point point.next) := by
  rw [or_iff_not_imp_left, Bool.not_eq_true]
  intro hoff
  have hrunning : (c.step m).stopped = false := by
    cases m with
    | call call =>
      rw [RedisClient.step]
      split_ifs <;> exact h.running
    | turn j t =>
      rcases RedisClient.turn_cases c j t with hstep | ⟨-, o, -, -, hstep⟩
      · rw [hstep, h.running]
      · rw [hstep, h.running]
    | close => exact absurd rfl hm
  refine ⟨hoff, hrunning, ?_⟩
  cases hturn : m.turnOf i with
  | none => exact getElem?_step_of_ne h.loop hturn
  | some t =>
    obtain rfl : m = .turn i t := by
      cases m with
      | turn j t' =>
        rw [RedisMove.turnOf] at hturn
        split_ifs at hturn with hij
        rw [hij, Option.some.inj hturn]
      | call | close => cases hturn
    obtain ⟨hi, -⟩ := List.getElem?_eq_some_iff.mp h.loop
    rw [RedisClient.step, h.loop, h.disabled, h.running] at hoff ⊢
    cases hnext : VibesWaf.reconnectLoop false false point t with
    | none =>
      have hstay : point.next t = point := LoopPoint.next_of_none hnext
      simpa [RedisPoint.turn, hnext, hstay] using h.loop
    | some o =>
      have hpoint := LoopPoint.next_of_some hnext
      simp only [RedisPoint.turn, hnext, Option.bind_eq_bind, Option.bind_some] at hoff ⊢
      rw [hpoint hoff, List.getElem?_append_left (by simpa using hi),
        List.getElem?_set_self hi]
      rfl

/-- A run of a client that is off and open: it is on at some moment, or its loop has taken its
turns. -/
theorem Reconnecting.run (h : Reconnecting c i point) (hrest : .close ∉ rest) :
    (∃ early, early <+: rest ∧ (c.run early).enabled = true) ∨
      Reconnecting (c.run rest) i ((rest.filterMap (·.turnOf i)).foldl LoopPoint.next point) := by
  induction rest using List.reverseRecOn with
  | nil => exact .inr h
  | append_singleton rest m ih =>
    rw [List.mem_append, not_or, List.mem_singleton] at hrest
    rcases ih hrest.1 with ⟨early, hearly, hon⟩ | hloop
    · exact .inl ⟨early, hearly.trans (List.prefix_append _ _), hon⟩
    · rcases hloop.step (Ne.symm hrest.2) with hon | hnext
      · exact .inl ⟨rest ++ [m], List.prefix_refl _, by rw [run_snoc, hon]⟩
      · refine .inr ?_
        rw [run_snoc, List.filterMap_append, List.foldl_append]
        cases hturn : m.turnOf i with
        | none => simpa [hturn] using hnext
        | some t => simpa [hturn] using hnext

/-- **The client comes back**: whenever a client with a server is off and open, one of its
goroutines is in the loop, and when this one has had a tick, an answered ping and the lock, in turns
that follow each other, then the client has been on since, whatever the other goroutines do
meanwhile. -/
theorem redisClient_recovers (h : Made c) (hclient : (c.run moves).client = true)
    (hopen : (c.run moves).stopped = false) (hoff : (c.run moves).enabled = false) :
    ∃ i point, (c.run moves).goroutines[i]? = some (.reconnectLoop point) ∧
      ∀ rest a b value, .close ∉ rest → rest.filterMap (·.turnOf i) =
          a ++ .tick :: .reply (.ok value) :: .lock :: b →
        ∃ early, early <+: rest ∧ (c.run (moves ++ early)).enabled = true := by
  have hone := (h.sound.run moves).one hclient hopen
  rw [redisTokens, hoff, Bool.toNat_false, Nat.add_zero] at hone
  obtain ⟨p, hmem, hloop⟩ := List.countP_pos_iff.mp (hone ▸ Nat.one_pos)
  obtain ⟨i, hi⟩ := List.mem_iff_getElem?.mp hmem
  obtain ⟨point, rfl⟩ : ∃ point, p = .reconnectLoop point := by
    cases p with
    | reconnectLoop point => exact ⟨point, rfl⟩
    | _ => cases hloop
  refine ⟨i, point, hi, fun rest a b value hrest hturns => ?_⟩
  have happend : ∀ early, c.run (moves ++ early) = (c.run moves).run early :=
    fun early => List.foldl_append
  -- The rest up to the lock, and the lock.
  obtain ⟨front, back, rfl, hfront, hback⟩ :=
    List.filterMap_eq_append_iff.mp (hturns.trans (List.append_assoc a [.tick, .reply (.ok value)]
      (.lock :: b)).symm)
  obtain ⟨skipped, m, back, rfl, hskipped, hm, -⟩ := List.filterMap_eq_cons_iff.mp hback
  have hnone : (front ++ skipped).filterMap (·.turnOf i) = a ++ [.tick, .reply (.ok value)] := by
    rw [List.filterMap_append, hfront, List.filterMap_eq_nil_iff.mpr hskipped, List.append_nil]
  have hclose : .close ∉ front ++ skipped := fun hmem => hrest (by simp_all)
  rcases Reconnecting.run ⟨hoff, hopen, hi⟩ hclose with
    ⟨early, hearly, hon⟩ | hready
  · exact ⟨early, hearly.trans ⟨m :: back, by simp⟩, by rw [happend, hon]⟩
  · rw [hnone, List.foldl_append] at hready
    have hpoint : List.foldl LoopPoint.next (a.foldl LoopPoint.next point)
        [.tick, .reply (.ok value)] = .lock := LoopPoint.next_ping _ value
    rw [hpoint] at hready
    refine ⟨front ++ skipped ++ [m], ⟨back, by simp⟩, ?_⟩
    obtain rfl : m = .turn i .lock := by
      cases m with
      | turn j t =>
        rw [RedisMove.turnOf] at hm
        split_ifs at hm with hij
        rw [hij, Option.some.inj hm]
      | call | close => cases hm
    rw [happend, run_snoc, step, hready.loop]
    rfl

/-! ### What it takes to switch the client off -/

section Causes

variable {past : List RedisMove} {p : RedisPoint} {call : RedisCall}

/-- A goroutine has been let through with a call while the client was on. -/
def LetThrough (c : RedisClient) (i : ℕ) (call : RedisCall) (past : List RedisMove) : Prop :=
  ∃ a b, past = a ++ .call call :: b ∧ (c.run a).enabled = true ∧ (c.run a).goroutines.length = i

/-- Its command has got a reply that it suspects. -/
def Failed (c : RedisClient) (i : ℕ) (past : List RedisMove) : Prop :=
  ∃ call a r b, past = a ++ .turn i (.reply r) :: b ∧ c.LetThrough i call a ∧
    (c.run a).goroutines[i]? = some (.command call) ∧ call.Suspects r

/-- After that its ping has failed. -/
def Unanswered (c : RedisClient) (i : ℕ) (past : List RedisMove) : Prop :=
  ∃ a r b, past = a ++ .turn i (.reply r) :: b ∧ c.Failed i a ∧
    (c.run a).goroutines[i]? = some .checkPing ∧ r.IsErr

/-- How a goroutine has come to where it is. -/
def Caused (c : RedisClient) (i : ℕ) (past : List RedisMove) : RedisPoint → Prop
  | .command call => c.LetThrough i call past
  | .checkPing => c.Failed i past
  | .checkLock => c.Unanswered i past
  | _ => True

theorem Caused.snoc (h : Caused c i past p) (m : RedisMove) : Caused c i (past ++ [m]) p := by
  cases p with
  | command call =>
    obtain ⟨a, b, rfl, h⟩ := h
    exact ⟨a, b ++ [m], by simp, h⟩
  | checkPing =>
    obtain ⟨call, a, r, b, rfl, h⟩ := h
    exact ⟨call, a, r, b ++ [m], by simp, h⟩
  | checkLock =>
    obtain ⟨a, r, b, rfl, h⟩ := h
    exact ⟨a, r, b ++ [m], by simp, h⟩
  | expire | reconnectLoop | returned => trivial

/-- Where a goroutine is after a move: where it was, at the command of a call that was let through,
at the next point of its own, or in a loop. -/
theorem getElem?_step_cases (hp : (c.step m).goroutines[i]? = some p) :
    c.goroutines[i]? = some p ∨
      (∃ call, m = .call call ∧ c.enabled = true ∧ c.goroutines.length = i ∧ p = .command call) ∨
      (∃ t q o, m = .turn i t ∧ c.goroutines[i]? = some q ∧
        q.turn c.enabled c.stopped t = some o ∧ p = o.point) ∨
      ∃ point, p = .reconnectLoop point := by
  cases m with
  | call call =>
    rw [step] at hp
    split_ifs at hp with henabled
    · rcases lt_trichotomy i c.goroutines.length with hi | hi | hi
      · rw [List.getElem?_append_left hi] at hp
        exact .inl hp
      · subst hi
        rw [List.getElem?_concat_length] at hp
        exact .inr (.inl ⟨call, rfl, henabled, rfl, (Option.some.inj hp).symm⟩)
      · have hlen : (c.goroutines ++ [RedisPoint.command call]).length ≤ i := by
          rw [List.length_append, List.length_singleton]
          omega
        rw [List.getElem?_eq_none hlen] at hp
        cases hp
    · exact .inl hp
  | turn j t =>
    rcases RedisClient.turn_cases c j t with hstep | ⟨q, o, hq, ho, hstep⟩
    · rw [hstep] at hp
      exact .inl hp
    · rw [hstep] at hp
      dsimp only at hp
      obtain ⟨hj, -⟩ := List.getElem?_eq_some_iff.mp hq
      by_cases hi : i < c.goroutines.length
      · rw [List.getElem?_append_left (by simpa using hi)] at hp
        by_cases hij : j = i
        · subst hij
          rw [List.getElem?_set_self hj] at hp
          exact .inr (.inr (.inl ⟨t, q, o, rfl, hq, ho, (Option.some.inj hp).symm⟩))
        · rw [List.getElem?_set_ne hij] at hp
          exact .inl hp
      · rw [List.getElem?_append_right (by simpa using hi)] at hp
        have hstarted : o.started = some p := by simpa using List.mem_of_getElem? hp
        exact .inr (.inr (.inr (RedisPoint.loop_of_started ho hstarted)))
  | close => exact .inl hp

/-- A goroutine comes to the ping of `checkHealth` from its command, and to the lock from there. -/
theorem Caused.turn {q : RedisPoint} {t : RedisTurn} {o : RedisOutcome} {enabled stopped : Bool}
    (hq : (c.run past).goroutines[i]? = some q) (h : Caused c i past q)
    (ho : q.turn enabled stopped t = some o) : Caused c i (past ++ [.turn i t]) o.point := by
  rcases RedisPoint.turn_cases ho with ⟨call, r, rfl, rfl, rfl⟩ | ⟨r, rfl, -, rfl⟩ |
    ⟨r, rfl, rfl, rfl⟩ | ⟨rfl, -, rfl⟩ | ⟨point, rfl, hloop⟩
  · rw [RedisCall.replied]
    split_ifs with hsuspects
    · exact ⟨call, past, r, [], rfl, h, hq, hsuspects⟩
    · trivial
    · trivial
  · trivial
  · dsimp only
    split_ifs with herr
    · exact ⟨past, r, [], rfl, h, hq, herr⟩
    · trivial
  · rw [checkHealthLocked]
    split_ifs <;> trivial
  · rcases reconnectLoop_cases hloop with ⟨-, -, -, rfl⟩ | ⟨-, -, rfl⟩ | ⟨r, -, -, rfl⟩ |
      ⟨-, -, rfl⟩ <;> trivial

/-- Every goroutine has come to where it is in this way. -/
theorem Made.caused (h : Made c) (moves : List RedisMove) {i : ℕ} {p : RedisPoint}
    (hp : (c.run moves).goroutines[i]? = some p) : Caused c i moves p := by
  induction moves using List.reverseRecOn generalizing p with
  | nil =>
    have hmem : p ∈ c.goroutines := List.mem_of_getElem? hp
    cases h with
    | disabled => cases hmem
    | connected ping =>
      rw [newRedisClient] at hmem
      split_ifs at hmem
      · obtain rfl := List.mem_singleton.mp hmem
        trivial
      · cases hmem
  | append_singleton past m ih =>
    rw [run_snoc] at hp
    rcases getElem?_step_cases hp with hp | ⟨call, rfl, hon, hlen, rfl⟩ |
      ⟨t, q, o, rfl, hq, ho, rfl⟩ | ⟨point, rfl⟩
    · exact (ih hp).snoc m
    · exact ⟨past, [], rfl, hon, hlen⟩
    · exact (ih hq).turn hq ho
    · trivial

/-- **What switches the client off**: a goroutine that was let through while the client was on,
whose command got a reply that its call suspects, and whose ping failed after that. When it has the
lock it may be late: the client may have been off and on again since. -/
theorem switchedOff_of_failure (h : Made c) (hon : (c.run past).enabled = true)
    (hoff : (c.run (past ++ [m])).enabled = false) :
    ∃ i, m = .turn i .lock ∧ c.Unanswered i past := by
  rw [run_snoc] at hoff
  cases m with
  | call call =>
    rw [step] at hoff
    have hsame : (c.run past).enabled = false := by
      split_ifs at hoff
      exact hoff
    cases hon.symm.trans hsame
  | turn i t =>
    rcases RedisClient.turn_cases (c.run past) i t with hstep | ⟨q, o, hq, ho, hstep⟩
    · rw [hstep, hon] at hoff
      cases hoff
    · rw [hstep] at hoff
      dsimp only at hoff
      rcases RedisPoint.turn_cases ho with ⟨call, r, -, -, rfl⟩ | ⟨r, -, -, rfl⟩ |
        ⟨r, -, -, rfl⟩ | ⟨rfl, rfl, -⟩ | ⟨point, rfl, hloop⟩
      · rw [hon] at hoff
        cases hoff
      · rw [hon] at hoff
        cases hoff
      · rw [hon] at hoff
        cases hoff
      · exact ⟨i, rfl, h.caused past hq⟩
      · rcases reconnectLoop_cases hloop with ⟨-, -, -, rfl⟩ | ⟨-, -, rfl⟩ | ⟨r, -, -, rfl⟩ |
          ⟨-, -, rfl⟩ <;> simp [hon] at hoff
  | close =>
    rw [step, hon] at hoff
    cases hoff

end Causes

/-! ### A server that is lost and found -/

/-- A read fails and so does its ping, and then the server is back. -/
def sampleLoss : List RedisMove :=
  [.call .get, .turn 0 (.reply .error), .turn 0 (.reply .error), .turn 0 .lock]

theorem redisClient_one_sample :
    redisTokens ((newRedisClient (.ok 0)).run sampleLoss).goroutines false = 1 :=
  (redisClient_one (.connected (.ok 0)) sampleLoss).2.1 rfl rfl

theorem redisClient_recovers_sample :
    ∃ early, early <+: [RedisMove.turn 1 .tick, .turn 1 (.reply (.ok 0)), .turn 1 .lock] ∧
      ((newRedisClient (.ok 0)).run (sampleLoss ++ early)).enabled = true := by
  have hclient : ((newRedisClient (.ok 0)).run sampleLoss).client = true := rfl
  obtain ⟨i, point, hi, hrest⟩ :=
    redisClient_recovers (.connected (.ok 0)) hclient rfl rfl
  obtain rfl : i = 1 := by
    match i, hi with
    | 0, hi => cases hi
    | 1, _ => rfl
    | i + 2, hi => cases hi
  exact hrest _ [] [] 0 (by decide) rfl

theorem switchedOff_of_failure_sample :
    ∃ i, RedisMove.turn 0 .lock = .turn i .lock ∧
      (newRedisClient (.ok 0)).Unanswered i
        [.call .get, .turn 0 (.reply .error), .turn 0 (.reply .error)] :=
  switchedOff_of_failure (.connected (.ok 0)) rfl rfl

end RedisClient

end VibesWaf

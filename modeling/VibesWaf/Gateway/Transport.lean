import VibesWaf.Gateway.App
import VibesWaf.Go.Decimal
import VibesWaf.Lib.Interleave
import VibesWaf.Lib.Separated

/-!
# Connections to the upstreams

All requests share one pool of transports, which `GetClient` looks through under a read lock and
extends under a write lock. The key of a transport tells the upstream, the server name and the
timeouts, and so a client always has those of its request (`client_settings`). It does not tell
whether certificates are verified: that is as the first request with the key had it
(`verification_of_first`), also for an application that wants it otherwise.
-/

namespace VibesWaf

/-- The fields of `AdvancedConfig` that a connection depends on; the timeouts are in seconds. -/
structure UpstreamSettings where
  allowInsecureSSL : Bool
  connectTimeout : ℤ
  readTimeout : ℤ
  sendTimeout : ℤ
  upstreamTLSSNI : GoString
  deriving DecidableEq

/-- `tls.Config`. -/
structure TLSClientConfig where
  insecureSkipVerify : Bool
  serverName : GoString
  deriving DecidableEq

/-- `http.Transport`, as far as the pool sets it by its arguments. -/
structure HTTPTransport where
  /-- Which one it is, in the order of their creation. -/
  serial : ℕ
  /-- `Timeout` of the dialer, and `TLSHandshakeTimeout`. -/
  connectTimeout : ℤ
  responseHeaderTimeout : ℤ
  tlsClientConfig : Option TLSClientConfig
  deriving DecidableEq

/-- The server name that a transport asks for; the empty one is the name in the URL. -/
def HTTPTransport.serverName (t : HTTPTransport) : GoString :=
  t.tlsClientConfig.elim [] TLSClientConfig.serverName

/-- The transport takes any certificate. -/
def HTTPTransport.insecure (t : HTTPTransport) : Bool :=
  t.tlsClientConfig.elim false TLSClientConfig.insecureSkipVerify

/-- `transportPool`, with the number of transports it has made. -/
structure TransportPool where
  transports : GoString → Option HTTPTransport
  made : ℕ

/-- The pool of a process that has just started. -/
def TransportPool.empty : TransportPool :=
  ⟨fun _ => none, 0⟩

/-- The arguments of `transportPool.Get`. -/
structure PoolRequest where
  key : GoString
  insecure : Bool
  sni : GoString
  connectTimeout : ℤ
  readTimeout : ℤ
  deriving DecidableEq

/-- The transport that is made for some arguments. -/
def PoolRequest.transport (req : PoolRequest) (serial : ℕ) : HTTPTransport where
  serial := serial
  connectTimeout := req.connectTimeout
  responseHeaderTimeout := req.readTimeout
  tlsClientConfig := if req.insecure ∨ req.sni ≠ [] then some ⟨req.insecure, req.sni⟩ else none

/-- What is done under one lock: a look under the read lock, or a second look under the write lock
and a new transport where there is none. -/
inductive PoolOp
  | lookup (key : GoString)
  | create (req : PoolRequest)

/-- What the pool answers. -/
abbrev PoolAns : PoolOp → Type
  | .lookup _ => Option HTTPTransport
  | .create _ => HTTPTransport

/-- What is done under one lock. -/
def TransportPool.respond (_ : Unit) : (op : PoolOp) → TransportPool → PoolAns op × TransportPool
  | .lookup key, p => (p.transports key, p)
  | .create req, p =>
    match p.transports req.key with
    | some t => (t, p)
    | none =>
      let t := req.transport p.made
      (t, ⟨Function.update p.transports req.key (some t), p.made + 1⟩)

namespace TransportPool

/-- The look under the read lock. -/
def lookup (key : GoString) : Program PoolAns (Option HTTPTransport) :=
  Program.perform (PoolOp.lookup key)

/-- The section under the write lock. -/
def create (req : PoolRequest) : Program PoolAns HTTPTransport :=
  Program.perform (PoolOp.create req)

/-- `transportPool.Get`. -/
def get (req : PoolRequest) : Program PoolAns HTTPTransport := do
  match ← lookup req.key with
  | some t => pure t
  | none => create req

end TransportPool

/-- `http.Client`: its transport, and the deadline of a request in seconds. -/
structure UpstreamClient where
  transport : HTTPTransport
  timeout : ℤ
  deriving DecidableEq

/-- What `GetClient` takes for a timeout. -/
def timeoutOr (default seconds : ℤ) : ℤ :=
  if seconds ≤ 0 then default else seconds

/-- The settings that `GetClient` goes by: the defaults stand in for what is not set. -/
def UpstreamSettings.effective (s : UpstreamSettings) : UpstreamSettings :=
  { s with
    connectTimeout := timeoutOr 5 s.connectTimeout
    readTimeout := timeoutOr 60 s.readTimeout
    sendTimeout := timeoutOr 60 s.sendTimeout }

/-- The key of the pool. -/
def UpstreamSettings.poolKey (s : UpstreamSettings) (key : GoString) : GoString :=
  key ++ (if s.upstreamTLSSNI ≠ [] then str "|sni=" ++ s.upstreamTLSSNI else []) ++
    (str "|" ++ itoa s.connectTimeout ++ (str "|" ++ itoa s.readTimeout ++
      (str "|" ++ itoa s.sendTimeout)))

/-- `GetClient`. -/
def getClient (key : GoString) (insecure : Bool) (s : UpstreamSettings) :
    Program PoolAns UpstreamClient := do
  let s := s.effective
  let t ← TransportPool.get
    ⟨s.poolKey key, insecure, s.upstreamTLSSNI, s.connectTimeout, s.readTimeout⟩
  pure ⟨t, s.connectTimeout + max s.readTimeout s.sendTimeout⟩

/-- The upstream key of `proxyToUpstream`. -/
def Upstream.key (u : Upstream) : GoString :=
  u.scheme ++ str "://" ++ u.host ++ str ":" ++ itoa u.port

/-- A request on its way: the upstream, and the settings of the application, if there is one. -/
structure ProxyCall where
  upstream : Upstream
  advanced : Option UpstreamSettings

/-- The settings of a request; without an application they are zero. -/
def ProxyCall.settings (call : ProxyCall) : UpstreamSettings :=
  call.advanced.getD ⟨false, 0, 0, 0, []⟩

/-- The application allows any certificate of its upstream. -/
def ProxyCall.insecure (call : ProxyCall) : Bool :=
  call.advanced.any UpstreamSettings.allowInsecureSSL && call.upstream.scheme = str "https"

/-- The client that `proxyToUpstream` sends a request with. -/
def ProxyCall.client (call : ProxyCall) : Program PoolAns UpstreamClient :=
  getClient call.upstream.key call.insecure call.settings

/-- The arguments with which a request asks the pool. -/
def ProxyCall.poolRequest (call : ProxyCall) : PoolRequest :=
  let s := call.settings.effective
  ⟨s.poolKey call.upstream.key, call.insecure, s.upstreamTLSSNI, s.connectTimeout, s.readTimeout⟩

/-- Requests side by side, from the start of the process. -/
def poolRun (calls : ℕ → ProxyCall) (moves : List (ℕ × Unit)) :
    Interleaving TransportPool Unit PoolAns UpstreamClient :=
  Interleaving.run TransportPool.respond .empty (fun i => (calls i).client) moves

/-! ### Keys -/

theorem bar_not_mem_itoa (n : ℤ) : 0x7C ∉ itoa n := fun h => by
  rcases mem_itoa h with h | h <;> exact absurd h (by decide)

/-- The timeouts at the end of a key are read off it. -/
theorem timeouts_inj {front front' : GoString} {c c' r r' s s' : ℤ} :
    front ++ (str "|" ++ itoa c ++ (str "|" ++ itoa r ++ (str "|" ++ itoa s))) =
        front' ++ (str "|" ++ itoa c' ++ (str "|" ++ itoa r' ++ (str "|" ++ itoa s'))) ↔
      front = front' ∧ c = c' ∧ r = r' ∧ s = s' := by
  constructor
  · intro h
    have hbar : ∀ n : ℤ, 0x7C ∉ (itoa n).reverse := fun n => by simpa using bar_not_mem_itoa n
    have hrev : (itoa s).reverse ++ 0x7C :: ((itoa r).reverse ++ 0x7C ::
        ((itoa c).reverse ++ 0x7C :: front.reverse)) =
        (itoa s').reverse ++ 0x7C :: ((itoa r').reverse ++ 0x7C ::
        ((itoa c').reverse ++ 0x7C :: front'.reverse)) := by
      have hstr : str "|" = [0x7C] := rfl
      simpa [hstr] using congrArg List.reverse h
    obtain ⟨hs, hrev⟩ := (append_sep_inj (hbar s) (hbar s')).mp hrev
    obtain ⟨hr, hrev⟩ := (append_sep_inj (hbar r) (hbar r')).mp hrev
    obtain ⟨hc, hrev⟩ := (append_sep_inj (hbar c) (hbar c')).mp hrev
    exact ⟨List.reverse_injective hrev, itoa_injective (List.reverse_injective hc),
      itoa_injective (List.reverse_injective hr), itoa_injective (List.reverse_injective hs)⟩
  · rintro ⟨rfl, rfl, rfl, rfl⟩
    rfl

/-- **The key tells** the upstream, the server name and the timeouts. -/
theorem poolKey_inj {key key' : GoString} (h : 0x7C ∉ key) (h' : 0x7C ∉ key')
    (s s' : UpstreamSettings) :
    s.poolKey key = s'.poolKey key' ↔
      key = key' ∧ s.upstreamTLSSNI = s'.upstreamTLSSNI ∧ s.connectTimeout = s'.connectTimeout ∧
        s.readTimeout = s'.readTimeout ∧ s.sendTimeout = s'.sendTimeout := by
  rw [UpstreamSettings.poolKey, UpstreamSettings.poolKey, timeouts_inj]
  refine Iff.trans (and_congr_left fun _ => ?_) and_assoc
  have hbar : ∀ sni, str "|sni=" ++ sni = 0x7C :: (str "sni=" ++ sni) := fun _ => rfl
  split_ifs with hsni hsni' hsni'
  · rw [hbar, hbar, append_sep_inj h h', List.append_cancel_left_eq]
  · rw [List.append_nil]
    refine iff_of_false (fun heq => h' ?_) fun heq => hsni (heq.2.trans (not_not.mp hsni'))
    rw [← heq, hbar]
    simp
  · rw [List.append_nil]
    refine iff_of_false (fun heq => h ?_) fun heq => hsni' (heq.2.symm.trans (not_not.mp hsni))
    rw [heq, hbar]
    simp
  · rw [List.append_nil, List.append_nil, not_not.mp hsni, not_not.mp hsni']
    simp

/-! ### The pool along a run -/

open Interleaving

variable {calls : ℕ → ProxyCall} {moves : List (ℕ × Unit)} {p : TransportPool}
  {log past rest : List (Call Unit PoolAns)} {c : Call Unit PoolAns} {key : GoString}
  {t t' : HTTPTransport}

/-- A call makes a transport for a key. -/
def Makes (key : GoString) (t : HTTPTransport) (past : List (Call Unit PoolAns))
    (c : Call Unit PoolAns) : Prop :=
  ∃ req, c.op = .create req ∧ req.key = key ∧
    (after TransportPool.respond .empty past).transports key = none ∧
    t = req.transport (after TransportPool.respond .empty past).made

/-- What one call does to the pool: nothing, or a transport more. -/
theorem respond_cases (op : PoolOp) (p : TransportPool) :
    (TransportPool.respond () op p).2 = p ∨ ∃ req, op = .create req ∧
      p.transports req.key = none ∧
      (TransportPool.respond () op p).2 =
        ⟨Function.update p.transports req.key (some (req.transport p.made)), p.made + 1⟩ := by
  cases op with
  | lookup key => exact .inl rfl
  | create req =>
    rw [TransportPool.respond]
    split
    · exact .inl rfl
    next hnone => exact .inr ⟨req, rfl, hnone, rfl⟩

/-- A transport of an extended pool is the new one or an old one. -/
theorem update_cases {transports : GoString → Option HTTPTransport} {new : HTTPTransport}
    {key' : GoString} (h : Function.update transports key' (some new) key = some t) :
    key = key' ∧ t = new ∨ transports key = some t := by
  by_cases hkey : key = key'
  · subst hkey
    rw [Function.update_self] at h
    exact .inl ⟨rfl, (Option.some.inj h).symm⟩
  · rw [Function.update_of_ne hkey] at h
    exact .inr h

/-- A transport stays in the pool. -/
theorem transports_respond (op : PoolOp) (h : p.transports key = some t) :
    (TransportPool.respond () op p).2.transports key = some t := by
  rcases respond_cases op p with heq | ⟨req, -, hnone, heq⟩
  · rw [heq]
    exact h
  · rw [heq]
    have hne : key ≠ req.key := by
      rintro rfl
      rw [hnone] at h
      cases h
    exact (Function.update_of_ne hne _ _).trans h

theorem transports_after (h : p.transports key = some t) (rest : List (Call Unit PoolAns)) :
    (after TransportPool.respond p rest).transports key = some t := by
  induction rest generalizing p with
  | nil => exact h
  | cons c rest ih => exact ih (transports_respond c.op h)

/-- **The transport of a key** is the one that the first call made for it. -/
theorem transports_eq_some_iff :
    (after TransportPool.respond .empty log).transports key = some t ↔
      ∃ before c rest, log = before ++ c :: rest ∧ Makes key t before c := by
  have hsince : (after TransportPool.respond .empty log).transports key = some t ↔
      ((after TransportPool.respond .empty []).transports key = some t ∧
          ∀ c ∈ log, ¬ (fun _ => False) c) ∨
        ∃ before c rest, log = before ++ c :: rest ∧ Makes key t before c ∧
          ∀ d ∈ rest, ¬ (fun _ => False) d :=
    since_iff (P := fun log => (after TransportPool.respond .empty log).transports key = some t)
      fun past c _ => ?_
  · simpa [after, TransportPool.empty] using hsince
  rw [not_false_iff, and_true, after_append]
  constructor
  · intro hsome
    rcases respond_cases c.op (after TransportPool.respond .empty past) with
      heq | ⟨req, hop, hnone, heq⟩
    · exact .inr (heq ▸ hsome)
    · rw [show c.input = () from rfl, heq] at hsome
      rcases update_cases hsome with ⟨rfl, rfl⟩ | hold
      · exact .inl ⟨req, hop, rfl, hnone, rfl⟩
      · exact .inr hold
  · rintro (⟨req, hop, rfl, hnone, rfl⟩ | hsome)
    · rw [hop, TransportPool.respond, hnone]
      exact Function.update_self _ _ _
    · exact transports_respond c.op hsome

/-- The transports of a pool are told apart by their numbers. -/
structure TransportPool.Numbered (p : TransportPool) : Prop where
  lt : ∀ {key t}, p.transports key = some t → t.serial < p.made
  inj : ∀ {key key' t}, p.transports key = some t → p.transports key' = some t → key = key'

theorem TransportPool.Numbered.respond (h : p.Numbered) (op : PoolOp) :
    (TransportPool.respond () op p).2.Numbered := by
  rcases respond_cases op p with heq | ⟨req, -, -, heq⟩
  · rwa [heq]
  rw [heq]
  constructor
  · intro key t hsome
    rcases update_cases hsome with ⟨-, rfl⟩ | hold
    · exact Nat.lt_succ_self _
    · exact Nat.lt_succ_of_lt (h.lt hold)
  · intro key key' t hsome hsome'
    rcases update_cases hsome with ⟨rfl, rfl⟩ | hold <;>
      rcases update_cases hsome' with ⟨rfl, ht⟩ | hold'
    · rfl
    · exact absurd (h.lt hold') (lt_irrefl _)
    · subst ht
      exact absurd (h.lt hold) (lt_irrefl _)
    · exact h.inj hold hold'

theorem numbered_after : (after TransportPool.respond .empty log).Numbered := by
  induction log using List.reverseRecOn with
  | nil => exact ⟨nofun, nofun⟩
  | append_singleton past c ih =>
    rw [after_append]
    exact ih.respond c.op

/-! ### What a request gets -/

/-- A request asks for its own transport only. -/
def PoolOp.Of (req : PoolRequest) : PoolOp → Prop
  | .lookup key => key = req.key
  | .create req' => req' = req

/-- What a request has heard when it has its client. -/
def Heard (req : PoolRequest) (t : HTTPTransport) (events : List (Event PoolAns)) : Prop :=
  ⟨.lookup req.key, some t⟩ ∈ events ∨ ⟨.create req, t⟩ ∈ events

theorem client_safe (call : ProxyCall) : call.client.Safe (fun _ op => op.Of call.poolRequest)
    (fun events client => Heard call.poolRequest client.transport events ∧
      client.timeout = call.settings.effective.connectTimeout +
        max call.settings.effective.readTimeout call.settings.effective.sendTimeout) [] := by
  simp only [ProxyCall.client, getClient, TransportPool.get, TransportPool.lookup,
    TransportPool.create, Program.safe_bind, Program.safe_perform, Program.safe_pure]
  refine ⟨rfl, fun found => ?_⟩
  cases found with
  | some t => exact ⟨.inl (by simp [ProxyCall.poolRequest]), trivial⟩
  | none => exact ⟨rfl, fun t => ⟨.inr (by simp [ProxyCall.poolRequest]), trivial⟩⟩

/-- What the pool answers it holds. -/
theorem transports_of_answer {req : PoolRequest} {op : PoolOp} {answer : PoolAns op}
    (hevent : (⟨op, answer⟩ : Event PoolAns) = ⟨.lookup req.key, some t⟩ ∨
      (⟨op, answer⟩ : Event PoolAns) = ⟨.create req, t⟩)
    (h : answer = (TransportPool.respond () op p).1) :
    (TransportPool.respond () op p).2.transports req.key = some t := by
  rcases hevent with hevent | hevent
  · obtain ⟨rfl, hanswer⟩ := Sigma.mk.inj hevent
    exact h.symm.trans (eq_of_heq hanswer)
  · obtain ⟨rfl, hanswer⟩ := Sigma.mk.inj hevent
    obtain rfl := eq_of_heq hanswer
    rw [TransportPool.respond] at h ⊢
    split at h
    next found hfound => exact hfound.trans (congrArg some h.symm)
    next hnone => exact (Function.update_self _ _ _).trans (congrArg some h.symm)

/-- What a request has heard is in the pool from then on. -/
theorem Heard.transports {req : PoolRequest} {i : ℕ}
    (h : Heard req t (callsOf i (poolRun calls moves).log)) :
    (poolRun calls moves).shared.transports req.key = some t := by
  obtain ⟨hhistory, hshared, -⟩ :=
    run_isHistory TransportPool.respond .empty (fun i => (calls i).client) moves
  have hcall : ∃ past c rest, (poolRun calls moves).log = past ++ c :: rest ∧
      (c.event = ⟨.lookup req.key, some t⟩ ∨ c.event = ⟨.create req, t⟩) := by
    rcases h with h | h
    · obtain ⟨past, c, rest, hlog, -, hevent⟩ := exists_call_of_mem h
      exact ⟨past, c, rest, hlog, .inl hevent⟩
    · obtain ⟨past, c, rest, hlog, -, hevent⟩ := exists_call_of_mem h
      exact ⟨past, c, rest, hlog, .inr hevent⟩
  obtain ⟨past, c, rest, hlog, hevent⟩ := hcall
  have hanswer := hhistory.answers past c ⟨rest, by rw [← List.append_cons]; exact hlog.symm⟩
  rw [poolRun] at hlog ⊢
  rw [hshared, hlog, List.append_cons, after_append_list, after_append]
  exact transports_after (transports_of_answer hevent hanswer) rest

/-! ### The results -/

/-- The keys of the upstreams have no bar in them. -/
def KeysPlain (calls : ℕ → ProxyCall) : Prop :=
  ∀ i, 0x7C ∉ (calls i).upstream.key

/-- The upstream, the server name and the timeouts of two requests agree. -/
def ProxyCall.SameConnection (call call' : ProxyCall) : Prop :=
  let s := call.settings.effective
  let s' := call'.settings.effective
  call.upstream.key = call'.upstream.key ∧ s.upstreamTLSSNI = s'.upstreamTLSSNI ∧
    s.connectTimeout = s'.connectTimeout ∧ s.readTimeout = s'.readTimeout ∧
    s.sendTimeout = s'.sendTimeout

theorem poolRequest_key_inj (h : KeysPlain calls) (i j : ℕ) :
    (calls i).poolRequest.key = (calls j).poolRequest.key ↔ (calls i).SameConnection (calls j) :=
  poolKey_inj (h i) (h j) _ _

variable {i j : ℕ} {client client' : UpstreamClient}

/-- A request has the transport that is in the pool for its key. -/
theorem transports_of_client (h : (poolRun calls moves).threads i = .pure client) :
    (poolRun calls moves).shared.transports (calls i).poolRequest.key = some client.transport :=
  (run_returns (client_safe (calls i)) h).1.transports

/-- A request makes a transport in a run. -/
def MakesTransport (c : Call Unit PoolAns) : Prop :=
  ∃ req, c.op = .create req

/-- The transport of a request was made for the first request with its key that asked for one. -/
theorem made_of_client (h : KeysPlain calls)
    (hi : (poolRun calls moves).threads i = .pure client) :
    ∃ before c rest serial, (poolRun calls moves).log = before ++ c :: rest ∧ MakesTransport c ∧
      (calls c.thread).SameConnection (calls i) ∧
      (∀ d ∈ before, MakesTransport d → ¬ (calls d.thread).SameConnection (calls i)) ∧
      client.transport = (calls c.thread).poolRequest.transport serial := by
  obtain ⟨hhistory, hshared, -⟩ :=
    run_isHistory TransportPool.respond .empty (fun i => (calls i).client) moves
  have hof : ∀ {past c rest req}, (poolRun calls moves).log = past ++ c :: rest →
      c.op = .create req → req = (calls c.thread).poolRequest := by
    intro past c rest req hlog hop
    have hguard := hhistory.guarded (fun i => client_safe (calls i))
      (⟨rest, by rw [← List.append_cons]; exact hlog.symm⟩ : past ++ [c] <+: _)
    rwa [hop] at hguard
  have hpool := transports_of_client hi
  rw [poolRun, hshared] at hpool
  obtain ⟨before, c, rest, hlog, req, hop, hkey, hnone, hmade⟩ := transports_eq_some_iff.mp hpool
  obtain rfl := hof hlog hop
  refine ⟨before, c, rest, _, hlog, ⟨_, hop⟩, (poolRequest_key_inj h _ _).mp hkey,
    fun d hd ⟨req', hop'⟩ hsame => ?_, hmade⟩
  -- An earlier section under the write lock would have left a transport.
  obtain ⟨early, late, rfl⟩ := List.append_of_mem hd
  obtain rfl := hof (hlog.trans (List.append_assoc _ _ _)) hop'
  have hearly : (after TransportPool.respond .empty (early ++ [d])).transports
      (calls d.thread).poolRequest.key ≠ none := by
    rw [after_append, hop', TransportPool.respond]
    split
    next found hfound => simp [hfound]
    next => simp
  obtain ⟨found, hfound⟩ := Option.ne_none_iff_exists'.mp hearly
  have hlate := transports_after hfound late
  rw [← after_append_list, ← List.append_cons, (poolRequest_key_inj h _ _).mpr hsame,
    hnone] at hlate
  cases hlate

/-- The first request allows any certificate, and the others do not. -/
def sampleCalls (i : ℕ) : ProxyCall :=
  ⟨⟨str "https", str "backend", 8443, true, true⟩, some ⟨i = 0, 0, 30, 0, str "internal"⟩⟩

theorem keysPlain_sampleCalls : KeysPlain sampleCalls := fun _ => by
  rw [show (sampleCalls _).upstream.key = str "https://backend:8443" from rfl]
  decide

/-- The first request looks and makes a transport, and then the second one looks. -/
def sampleTurns : List (ℕ × Unit) :=
  [(0, ()), (0, ()), (1, ())]

/-- The client of both requests. -/
def sampleClient : UpstreamClient :=
  ⟨⟨0, 5, 30, some ⟨true, str "internal"⟩⟩, 65⟩

theorem threads_sampleCalls : (poolRun sampleCalls sampleTurns).threads 0 = .pure sampleClient ∧
    (poolRun sampleCalls sampleTurns).threads 1 = .pure sampleClient :=
  ⟨rfl, rfl⟩

/-- **A client has the settings of its request**, however the requests come: its transport has the
server name and the timeouts of the request, and two requests share a transport exactly when they
go to one upstream with one server name and the same timeouts. -/
theorem client_settings (h : KeysPlain calls)
    (hi : (poolRun calls moves).threads i = .pure client) :
    let s := (calls i).settings.effective
    client.transport.serverName = s.upstreamTLSSNI ∧
      client.transport.connectTimeout = s.connectTimeout ∧
      client.transport.responseHeaderTimeout = s.readTimeout ∧
      client.timeout = s.connectTimeout + max s.readTimeout s.sendTimeout ∧
      ∀ j client', (poolRun calls moves).threads j = .pure client' →
        (client.transport = client'.transport ↔ (calls i).SameConnection (calls j)) := by
  obtain ⟨-, c, -, serial, -, -, hsame, -, hmade⟩ := made_of_client h hi
  obtain ⟨-, hsni, hconnect, hread, -⟩ := hsame
  have hname : ∀ req : PoolRequest, (req.transport serial).serverName = req.sni := by
    intro req
    by_cases hset : req.insecure = true ∨ req.sni ≠ []
    · simp [PoolRequest.transport, HTTPTransport.serverName, hset]
    · rw [not_or, not_not] at hset
      simp [PoolRequest.transport, HTTPTransport.serverName, hset.1, hset.2]
  refine ⟨by rw [hmade, hname]; exact hsni, by rw [hmade]; exact hconnect,
    by rw [hmade]; exact hread, (run_returns (client_safe (calls i)) hi).2,
    fun j client' hj => ?_⟩
  have hpool := transports_of_client hi
  have hpool' := transports_of_client hj
  rw [← poolRequest_key_inj h]
  constructor
  · intro heq
    rw [heq] at hpool
    have hnumbered : (poolRun calls moves).shared.Numbered := by
      have hshared := (run_isHistory TransportPool.respond .empty
        (fun i => (calls i).client) moves).2.1
      rw [poolRun, hshared]
      exact numbered_after
    exact hnumbered.inj hpool hpool'
  · intro hkey
    rw [hkey, hpool'] at hpool
    exact (Option.some.inj hpool).symm

/-- Both requests share the transport. -/
theorem client_settings_sample : sampleClient.transport.serverName = str "internal" ∧
    (sampleCalls 0).SameConnection (sampleCalls 1) := by
  obtain ⟨hname, -, -, -, hshared⟩ :=
    client_settings keysPlain_sampleCalls threads_sampleCalls.1
  exact ⟨hname, (hshared 1 sampleClient threads_sampleCalls.2).mp rfl⟩

/-- **The first request decides** whether certificates are verified: the transport of a request
takes any certificate exactly if the request did for which it was made, and that was the first to
come for one with the same upstream, server name and timeouts. -/
theorem verification_of_first (h : KeysPlain calls)
    (hi : (poolRun calls moves).threads i = .pure client) :
    ∃ before c rest, (poolRun calls moves).log = before ++ c :: rest ∧ MakesTransport c ∧
      (calls c.thread).SameConnection (calls i) ∧
      (∀ d ∈ before, MakesTransport d → ¬ (calls d.thread).SameConnection (calls i)) ∧
      client.transport.insecure = (calls c.thread).insecure := by
  obtain ⟨before, c, rest, serial, hlog, hmakes, hsame, hfirst, hmade⟩ := made_of_client h hi
  refine ⟨before, c, rest, hlog, hmakes, hsame, hfirst, ?_⟩
  rw [hmade, PoolRequest.transport, HTTPTransport.insecure]
  by_cases hset : (calls c.thread).insecure = true
  · simp [ProxyCall.poolRequest, hset]
  · rw [Bool.not_eq_true] at hset
    split <;> simp [ProxyCall.poolRequest, hset]

/-- The second request would have certificates verified, and the first has decided. -/
theorem verification_of_first_other : (sampleCalls 1).insecure = false ∧
    ∃ c ∈ (poolRun sampleCalls sampleTurns).log, c.thread = 0 ∧ MakesTransport c ∧
      sampleClient.transport.insecure = (sampleCalls c.thread).insecure := by
  obtain ⟨before, c, rest, hlog, hmakes, -, -, hinsecure⟩ :=
    verification_of_first keysPlain_sampleCalls threads_sampleCalls.2
  refine ⟨rfl, c, by simp [hlog], ?_, hmakes, hinsecure⟩
  have hzero : (sampleCalls c.thread).insecure = decide (c.thread = 0) := by
    simp [ProxyCall.insecure, sampleCalls]
  rw [hzero] at hinsecure
  exact of_decide_eq_true hinsecure.symm

end VibesWaf

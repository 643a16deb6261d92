import VibesWaf.Gateway.App
import VibesWaf.Go.Decimal
import VibesWaf.Go.Http
import VibesWaf.Go.NetIP
import VibesWaf.Pipeline.Phase1
import VibesWaf.Stream.ProxyHeader

/-!
# The TCP proxy

`handleTCPConn` finds out whose connection it has, from the header of the PROXY protocol or from the
address of the connection, and copies what the client sends to an upstream unless access is refused
or there is no upstream.

What arrives there should be what the client has sent, without the header if there is one.
`handleTCPConn_iff` says when it is: a stream without a header always loses its first bytes, which
have been peeked at, and a header of the unknown form keeps what follows it only if it names
something or an arrival ends with it.
-/

namespace VibesWaf

/-! ### The handler -/

/-- What becomes of a connection: it is refused for a reason, or bytes of it go to an upstream. -/
inductive StreamOutcome
  | blocked (clientIP reason : GoString)
  | copied (upstream : Upstream) (bytes : GoString)
  deriving DecidableEq

/-- `stream.Proxy`: the access list, and the upstreams that can be dialled; the round-robin counter
of the application is the one after its increment. -/
structure StreamProxy where
  ipChecker : Option (GoString → GoString → Except GoString (Option IPAccessRule))
  roundRobin : UInt64
  dial : Upstream → Bool

/-- `extractIP`. -/
def extractIP (addr : GoString) : GoString :=
  match splitHostPort addr with
  | none => addr
  | some (host, _) => host

namespace StreamProxy

/-- `checkAccess`. -/
def checkAccess (p : StreamProxy) (a : App) (clientIP : GoString) : Bool :=
  if a.underAttackMode then false
  else
    match p.ipChecker with
    | none => true
    | some checkIP =>
      match checkIP a.id clientIP with
      | .ok (some rule) => rule.action ≠ .block
      | _ => true

/-- `handleTCPConn` when it knows the client and what to read from; `none` when the fuel runs
out. The copy has a buffer of 32 KiB. -/
def forward {σ : Type} (p : StreamProxy) (a : App) (fuel : ℕ) (clientIP : GoString)
    (read : Reader σ UInt8 BufioError) (readConn : σ) : Option StreamOutcome :=
  if !p.checkAccess a clientIP then some (.blocked clientIP (str "ip_access"))
  else
    match a.pickUpstream p.roundRobin clientIP with
    | none => some (.blocked clientIP (str "no_upstream"))
    | some upstream =>
      if !p.dial upstream then some (.blocked clientIP (str "upstream_unreachable"))
      else (readAll read (fun _ => 32 * 1024 - 1) fuel [] readConn).map fun r =>
        .copied upstream r.1

/-- `handleTCPConn`, with the address of the connection. -/
def handleTCPConn (p : StreamProxy) (a : App) (fuel : ℕ) (remoteAddr : GoString) (conn : TCPConn) :
    Option StreamOutcome :=
  match readProxyProtocolHeader fuel conn with
  | none => none
  | some (.proxied ip reader) => p.forward a fuel ip (bufRead TCPConn.read) reader
  | some (.raw conn) => p.forward a fuel (extractIP remoteAddr) TCPConn.read conn

end StreamProxy

/-! ### Headers of the PROXY protocol -/

/-- The text of an IPv4 address. -/
def IsIPv4Text (s : GoString) : Prop :=
  ∃ b, parseAddr s = some (.v4 b)

/-- The text of an IPv6 address. -/
def IsIPv6Text (s : GoString) : Prop :=
  ∃ b, parseAddr s = some (.v6 b [])

/-- The text of a port. -/
def IsPortText (s : GoString) : Prop :=
  ∃ n ≤ 65535, s = natText n

/-- A header with addresses and ports. -/
def IsTCPHeader (body : GoString) : Prop :=
  ∃ family source target sourcePort targetPort,
    (family = str "TCP4" ∧ IsIPv4Text source ∧ IsIPv4Text target ∨
      family = str "TCP6" ∧ IsIPv6Text source ∧ IsIPv6Text target) ∧
    IsPortText sourcePort ∧ IsPortText targetPort ∧
    body = str "PROXY" ++ 0x20 :: (family ++ 0x20 :: (source ++ 0x20 :: (target ++ 0x20 ::
      (sourcePort ++ 0x20 :: targetPort))))

/-- A header of the unknown form: what follows the word is ignored. -/
def IsUnknownHeader (body : GoString) : Prop :=
  body = str "PROXY UNKNOWN" ∨ ∃ rest, body = str "PROXY UNKNOWN " ++ rest

/-- A well-formed header, without the end of its line, with which it has 107 bytes at most. -/
structure IsProxyHeader (body : GoString) : Prop where
  form : IsTCPHeader body ∨ IsUnknownHeader body
  line : 0x0A ∉ body
  short : body.length + 2 ≤ 107

/-- What should arrive: what has been sent, without a well-formed header in front. -/
def Forwarded (stream bytes : GoString) : Prop :=
  (∃ body, IsProxyHeader body ∧ stream = body ++ str "\r\n" ++ bytes) ∨
    (¬ ∃ body, IsProxyHeader body ∧ body ++ str "\r\n" <+: stream) ∧ bytes = stream

/-- Nothing is sent; or there is a well-formed header, and if it is one of the unknown form, it has
three fields or ends with an arrival. -/
def HeaderKept (conn : TCPConn) : Prop :=
  conn.stream = [] ∨
    ∃ body, IsProxyHeader body ∧ body ++ str "\r\n" <+: conn.stream ∧
      (IsUnknownHeader body → 3 ≤ (fields (trimRight (body ++ str "\r\n") (str "\r\n"))).length ∨
        ∃ k, (conn.arrivals.take k).flatten = body ++ str "\r\n")

section Headers

variable {body line ys bytes stream : GoString}

theorem IsProxyHeader.begins (h : IsProxyHeader body) : str "PROXY " <+: body := by
  rcases h.form with ⟨family, source, target, sourcePort, targetPort, -, -, -, rfl⟩ | h
  · exact ⟨family ++ 0x20 ::
      (source ++ 0x20 :: (target ++ 0x20 :: (sourcePort ++ 0x20 :: targetPort))), rfl⟩
  · rcases h with rfl | ⟨rest, rfl⟩
    · exact ⟨str "UNKNOWN", rfl⟩
    · exact ⟨str "UNKNOWN " ++ rest, rfl⟩

/-- A header ends with the line. -/
theorem IsProxyHeader.eq_line (h : IsProxyHeader body) (hline : 0x0A ∉ line)
    (hpre : body ++ str "\r\n" <+: line ++ 0x0A :: ys) : line = body ++ [0x0D] := by
  obtain ⟨t, ht⟩ := hpre
  have hbody : 0x0A ∉ body ++ [0x0D] := by
    simpa using h.line
  have hsplit : (body ++ [0x0D]) ++ 0x0A :: t = line ++ 0x0A :: ys := by
    rw [← ht, List.append_assoc, List.append_assoc]
    rfl
  exact (cut_unique hbody hline hsplit).1.symm

/-- Behind a header just what follows it should arrive. -/
theorem forwarded_iff_of_header (h : IsProxyHeader body)
    (hstream : stream = body ++ str "\r\n" ++ ys) : Forwarded stream bytes ↔ bytes = ys := by
  constructor
  · rintro (⟨body', h', hstream'⟩ | ⟨hnone, -⟩)
    · have hsplit : ∀ (b t : GoString), b ++ str "\r\n" ++ t = (b ++ [0x0D]) ++ 0x0A :: t := by
        intro b t
        rw [List.append_assoc, List.append_assoc]
        rfl
      rw [hstream', hsplit, hsplit] at hstream
      exact (cut_unique (by simpa using h'.line) (by simpa using h.line) hstream).2
    · exact absurd ⟨body, h, ys, hstream.symm⟩ hnone
  · rintro rfl
    exact .inl ⟨body, h, hstream⟩

/-- Without a header everything should arrive. -/
theorem forwarded_iff_of_no_header
    (hnone : ¬ ∃ body, IsProxyHeader body ∧ body ++ str "\r\n" <+: stream) :
    Forwarded stream bytes ↔ bytes = stream := by
  constructor
  · rintro (⟨body, h, hstream⟩ | ⟨-, heq⟩)
    · exact absurd ⟨body, h, bytes, hstream.symm⟩ hnone
    · exact heq
  · intro heq
    exact .inr ⟨hnone, heq⟩

/-- Without a header only an empty stream arrives. -/
theorem headerKept_iff_of_no_header {conn : TCPConn}
    (hnone : ¬ ∃ body, IsProxyHeader body ∧ body ++ str "\r\n" <+: conn.stream) :
    HeaderKept conn ↔ conn.stream = [] := by
  constructor
  · rintro (hnil | ⟨body, h, hpre, -⟩)
    · exact hnil
    · exact absurd ⟨body, h, hpre⟩ hnone
  · exact .inl

/-- A header with addresses has three fields. -/
theorem IsTCPHeader.three_fields (h : IsTCPHeader body) :
    3 ≤ (fields (trimRight (body ++ str "\r\n") (str "\r\n"))).length := by
  obtain ⟨family, source, target, sourcePort, targetPort, hfamily, -, ⟨n, -, rfl⟩, rfl⟩ := h
  have hword : family ≠ [] ∧ ∀ c ∈ family, isPlain c = true := by
    rcases hfamily with ⟨rfl, -⟩ | ⟨rfl, -⟩ <;> decide +kernel
  have hdigit : ∀ c : UInt8, isDigit c = true → isPlain c = true ∧ c ∉ str "\r\n" := by
    decide +kernel
  obtain ⟨front, last, hport⟩ := (List.eq_nil_or_concat (natText n)).resolve_left (natText_ne_nil n)
  have hlast := hdigit last (natText_isDigit n last (by rw [hport]; simp))
  have htrim : trimRight (str "PROXY" ++ 0x20 :: (family ++ 0x20 :: (source ++ 0x20 :: (target ++
      0x20 :: (sourcePort ++ 0x20 :: natText n)))) ++ str "\r\n") (str "\r\n") =
        str "PROXY" ++ 0x20 :: (family ++ 0x20 :: (source ++ 0x20 :: (target ++
          0x20 :: (sourcePort ++ 0x20 :: natText n)))) := by
    refine trimRight_append (fun c hc => hc) fun c hc => ?_
    obtain rfl : last = c := by
      simpa [hport, List.getLast?_append, List.getLast?_cons] using hc
    exact hlast.2
  rw [htrim, fields_word (by decide) (by decide +kernel), fields_word hword.1 hword.2,
    List.length_cons, List.length_cons]
  have hne := List.length_pos_iff.mpr (fields_ne_nil
    (s := source ++ 0x20 :: (target ++ 0x20 :: (sourcePort ++ 0x20 :: natText n)))
    ⟨last, by rw [hport]; simp, hlast.1⟩)
  omega

end Headers

/-! ### What arrives -/

section Handler

variable (p : StreamProxy) (a : App)

/-- What is copied is what the reader delivers. -/
theorem forward_spec {σ : Type} {read : Reader σ UInt8 BufioError} {readConn : σ} {xs : GoString}
    (h : Delivers read .eof xs readConn) (clientIP : GoString) :
    ∃ enough, ∀ fuel, enough ≤ fuel → ∃ outcome,
      p.forward a fuel clientIP read readConn = some outcome ∧
        ∀ upstream bytes, outcome = .copied upstream bytes → bytes = xs := by
  obtain ⟨enough, henough⟩ := h.readAll (fun _ => 32 * 1024 - 1) []
  refine ⟨enough, fun fuel hfuel => ?_⟩
  obtain ⟨t, hread, -⟩ := henough fuel hfuel
  rw [StreamProxy.forward, hread]
  split
  · exact ⟨_, rfl, fun _ _ h => by cases h⟩
  split
  · exact ⟨_, rfl, fun _ _ h => by cases h⟩
  split
  · exact ⟨_, rfl, fun _ _ h => by cases h⟩
  · refine ⟨_, rfl, fun upstream bytes h => ?_⟩
    injection h with _ hbytes
    exact hbytes.symm

/-- What there is to read from what is handed on. -/
def HeaderResult.Leaves (xs : GoString) : HeaderResult → Prop
  | .proxied _ reader => Delivers (bufRead TCPConn.read) .eof xs reader
  | .raw conn => Delivers TCPConn.read .eof xs conn

/-- What the header hands on is copied. -/
private theorem handleTCPConn_of_header {conn : TCPConn} {result : HeaderResult} {enough : ℕ}
    {xs : GoString}
    (hheader : ∀ fuel, enough ≤ fuel → readProxyProtocolHeader fuel conn = some result)
    (hresult : result.Leaves xs) (remoteAddr : GoString) :
    ∃ enough, ∀ fuel, enough ≤ fuel → ∃ outcome,
      p.handleTCPConn a fuel remoteAddr conn = some outcome ∧
        ∀ upstream bytes, outcome = .copied upstream bytes → bytes = xs := by
  cases result with
  | proxied ip reader =>
    obtain ⟨enough', hforward⟩ := forward_spec p a hresult ip
    refine ⟨max enough enough', fun fuel hfuel => ?_⟩
    rw [StreamProxy.handleTCPConn, hheader fuel (le_of_max_le_left hfuel)]
    exact hforward fuel (le_of_max_le_right hfuel)
  | raw c =>
    obtain ⟨enough', hforward⟩ := forward_spec p a hresult (extractIP remoteAddr)
    refine ⟨max enough enough', fun fuel hfuel => ?_⟩
    rw [StreamProxy.handleTCPConn, hheader fuel (le_of_max_le_left hfuel)]
    exact hforward fuel (le_of_max_le_right hfuel)

/-- What is handed on behind a well-formed header. -/
private theorem header_spec_of_header {conn : TCPConn} {body ys : GoString} (h : IsProxyHeader body)
    (hstream : conn.stream = body ++ str "\r\n" ++ ys) : ∃ result xs enough,
    (∀ fuel, enough ≤ fuel → readProxyProtocolHeader fuel conn = some result) ∧
      result.Leaves xs ∧ (Forwarded conn.stream xs ↔ HeaderKept conn) := by
  have hline : body ++ str "\r\n" = (body ++ [0x0D]) ++ [0x0A] := by
    rw [List.append_assoc]
    rfl
  have hsplit : conn.stream = (body ++ [0x0D]) ++ 0x0A :: ys := by
    rw [hstream, hline, List.append_assoc]
    rfl
  have hkept : HeaderKept conn ↔ (IsUnknownHeader body →
      3 ≤ (fields (trimRight (body ++ str "\r\n") (str "\r\n"))).length ∨
        ∃ k, (conn.arrivals.take k).flatten = body ++ str "\r\n") := by
    constructor
    · rintro (hnil | ⟨body', h', hpre, hkept⟩)
      · simp [hsplit] at hnil
      · have hsame := h'.eq_line (by simpa using h.line) (hsplit ▸ hpre)
        rwa [← List.append_cancel_right hsame] at hkept
    · intro hkept
      exact .inr ⟨body, h, ⟨ys, hstream.symm⟩, hkept⟩
  have hbegin : str "PROXY " <+: conn.stream :=
    (h.begins.trans (List.prefix_append body _)).trans ⟨ys, hstream.symm⟩
  rcases readProxyProtocolHeader_line conn hbegin hsplit (by simpa using h.line) with
    ⟨ip, reader, enough, hheader, hthree, hholds, hsize⟩ |
      ⟨c, taken, left, enough, hheader, hfew, rfl, hleft, hboundary⟩
  · refine ⟨_, ys, enough, hheader, hholds.delivers hsize, ?_⟩
    rw [forwarded_iff_of_header h hstream, hkept, hline]
    exact iff_of_true rfl fun _ => .inl hthree
  · refine ⟨_, left, enough, hheader, hleft, ?_⟩
    have hunknown : IsUnknownHeader body := h.form.resolve_left fun htcp => by
      have hthree := htcp.three_fields
      rw [hline] at hthree
      omega
    have hshort := h.short
    rw [forwarded_iff_of_header h hstream, hkept, hline, List.self_eq_append_left,
      hboundary (by rw [List.length_append, List.length_singleton]; omega)]
    constructor
    · intro hends _
      exact .inr hends
    · intro hkept
      exact (hkept hunknown).resolve_left (not_le.mpr hfew)

/-- What is copied of a stream, and whether it is what should arrive. -/
private theorem header_spec (conn : TCPConn) : ∃ result xs enough,
    (∀ fuel, enough ≤ fuel → readProxyProtocolHeader fuel conn = some result) ∧
      result.Leaves xs ∧ (Forwarded conn.stream xs ↔ HeaderKept conn) := by
  by_cases hsome : ∃ body, IsProxyHeader body ∧ body ++ str "\r\n" <+: conn.stream
  · obtain ⟨body, h, ys, hstream⟩ := hsome
    exact header_spec_of_header h hstream.symm
  rw [headerKept_iff_of_no_header hsome]
  by_cases hpre : str "PROXY " <+: conn.stream
  · have hne : conn.stream ≠ [] := fun hnil => by
      have hle : 6 ≤ conn.stream.length := hpre.length_le
      rw [hnil] at hle
      cases hle
    by_cases hend : 0x0A ∈ conn.stream
    · -- a line that is no well-formed header is taken off or lost
      obtain ⟨line, ys, hstream, hline⟩ := List.eq_append_cons_of_mem hend
      have hmore : ∀ taken left, ys = taken ++ left → left ≠ conn.stream := by
        rintro taken left rfl heq
        have hlen := congrArg List.length (heq.trans hstream)
        simp only [List.length_append, List.length_cons] at hlen
        omega
      rcases readProxyProtocolHeader_line conn hpre hstream hline with
        ⟨ip, reader, enough, hheader, -, hholds, hsize⟩ |
          ⟨c, taken, left, enough, hheader, -, hys, hleft, -⟩
      · refine ⟨_, ys, enough, hheader, hholds.delivers hsize, ?_⟩
        rw [forwarded_iff_of_no_header hsome]
        exact iff_of_false (hmore [] ys rfl) hne
      · refine ⟨_, left, enough, hheader, hleft, ?_⟩
        rw [forwarded_iff_of_no_header hsome]
        exact iff_of_false (hmore taken left hys) hne
    · -- a header that does not end takes everything
      obtain ⟨c, enough, hheader, hleft⟩ := readProxyProtocolHeader_unended conn hpre hend
      refine ⟨.raw c, [], enough, hheader, hleft, ?_⟩
      rw [forwarded_iff_of_no_header hsome]
      exact iff_of_false (fun heq => hne heq.symm) hne
  · -- no header begins: what is peeked at is lost
    obtain ⟨c, used, left, hheader, hstream, hleft, hused⟩ :=
      readProxyProtocolHeader_absent conn hpre
    refine ⟨.raw c, left, 0, fun fuel _ => hheader fuel, hleft, ?_⟩
    rw [forwarded_iff_of_no_header hsome]
    constructor
    · intro heq
      refine by_contra fun hne => hused hne ?_
      exact List.append_left_eq_self.mp (hstream.symm.trans heq.symm)
    · intro hnil
      rw [hnil] at hstream ⊢
      exact (List.append_eq_nil_iff.mp hstream.symm).2

/-- **The bytes of a stream.** Whatever a client sends, in whatever pieces, what is copied to the
upstream is what should arrive there exactly when nothing is sent, or there is a well-formed header
that has three fields, as one with addresses has, or is one of the unknown form that an arrival
ends with. -/
theorem handleTCPConn_iff (remoteAddr : GoString) (conn : TCPConn) :
    ∃ enough, ∀ fuel, enough ≤ fuel → ∃ outcome,
      p.handleTCPConn a fuel remoteAddr conn = some outcome ∧
        ∀ upstream bytes, outcome = .copied upstream bytes →
          (Forwarded conn.stream bytes ↔ HeaderKept conn) := by
  obtain ⟨result, xs, enough, hheader, hresult, hiff⟩ := header_spec conn
  obtain ⟨enough', hhandle⟩ := handleTCPConn_of_header p a hheader hresult remoteAddr
  refine ⟨enough', fun fuel hfuel => ?_⟩
  obtain ⟨outcome, houtcome, hcopied⟩ := hhandle fuel hfuel
  refine ⟨outcome, houtcome, fun upstream bytes hbytes => ?_⟩
  rw [hcopied upstream bytes hbytes]
  exact hiff

end Handler

/-- An application with one upstream. -/
def sshApp : App where
  id := str "ssh"
  underAttackMode := false
  upstreams := [⟨str "tcp", str "10.0.0.5", 22, true, true⟩]
  lbMethod := str "round-robin"
  redirectHTTPS := false
  rootRedirect := []
  healthCheck := false
  advanced :=
    { allowWebSocket := false
      modifyHostHeader := false
      hostHeaderValue := []
      passXForwardedHost := false
      passXForwardedProto := false
      trustedProxies := []
      upstreamPath := []
      cors := ⟨false, [], [], [], false, 0⟩ }

/-- A client that greets and says no more. -/
def sshClient : TCPConn :=
  ⟨[str "SSH-2.0-client\r\n"], by decide +kernel⟩

/-- The greeting of a client is peeked at, and does not arrive. -/
theorem handleTCPConn_loses_greeting :
    (⟨none, 1, fun _ => true⟩ : StreamProxy).handleTCPConn sshApp 1 (str "192.0.2.7:50000")
        sshClient = some (.copied ⟨str "tcp", str "10.0.0.5", 22, true, true⟩ []) ∧
      ¬ Forwarded sshClient.stream [] := by
  refine ⟨by decide, ?_⟩
  have hhead : (sshClient.stream).head? ≠ some 0x50 := by decide
  rintro (⟨body, h, hstream⟩ | ⟨-, hnil⟩)
  · obtain ⟨rest, rfl⟩ := h.begins
    rw [hstream] at hhead
    exact hhead rfl
  · exact absurd hnil (by decide)

end VibesWaf

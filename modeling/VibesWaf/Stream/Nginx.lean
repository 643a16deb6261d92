import VibesWaf.Apps.Types
import VibesWaf.Go.Decimal
import VibesWaf.Go.Lines
import VibesWaf.Lib.FirstMatch
import VibesWaf.Nginx.Directives

/-!
# Configurations of nginx for streams

`buildConf` writes the configuration with which nginx takes the connections of a stream. What an
administrator has supplied for it is rewritten in four passes over its lines: the port, the
certificate, the address to which `proxy_pass` sends the connections, and the PROXY protocol.

Every `proxy_pass` should send them to the firewall, and the pass rewrites the first line that
begins with the name. `buildConf_routes_iff` says when that is enough: if and only if the other
directives of the text send them there already.
-/

namespace VibesWaf

/-! ### The manager -/

/-- What `NginxManager` finds where it runs: the value of `CERT_DIR`, and the paths at which
`os.Stat` finds no file. -/
structure NginxEnv where
  certDirVar : GoString
  isNotExist : GoString → Bool

/-- `getEnv`, of the value of the variable. -/
def getEnv (val fallback : GoString) : GoString :=
  if val ≠ [] then val else fallback

/-- `sanitizeID`. -/
def sanitizeID (id : GoString) : GoString :=
  id.map fun c => if c = 0x2D then 0x5F else c

namespace NginxEnv

/-- `certDir`. -/
def certDir (env : NginxEnv) : GoString :=
  getEnv env.certDirVar (str "/opt/certs")

/-- The directory of a certificate: that of its domain, or the default. -/
def certHome (env : NginxEnv) (certDir domain : GoString) : GoString :=
  if env.isNotExist (certDir ++ str "/" ++ domain ++ str "/fullchain.pem") then
    certDir ++ str "/default"
  else certDir ++ str "/" ++ domain

/-- `certPath`. -/
def certPath (env : NginxEnv) (certDir domain : GoString) : GoString :=
  env.certHome certDir domain ++ str "/fullchain.pem"

/-- `keyPath`. -/
def keyPath (env : NginxEnv) (certDir domain : GoString) : GoString :=
  env.certHome certDir domain ++ str "/key.pem"

/-- `certLine`. -/
def certLine (env : NginxEnv) (certDir domain : GoString) : GoString :=
  str "ssl_certificate     " ++ env.certPath certDir domain ++ str ";"

/-- `keyLine`. -/
def keyLine (env : NginxEnv) (certDir domain : GoString) : GoString :=
  str "ssl_certificate_key " ++ env.keyPath certDir domain ++ str ";"

end NginxEnv

/-- What a line begins with, behind its white space. -/
def beginsWith (p line : GoString) : Bool :=
  hasPrefix (trimSpace line) p

/-- `indent`. -/
def indent (line : GoString) : GoString :=
  line.take (line.length - (trimLeft line (str " \t")).length)

/-- `replaceLine`. -/
def replaceLine (conf p replacement : GoString) : GoString :=
  match changeFirst (beginsWith p) (fun line => indent line ++ replacement) (splitLines conf) with
  | some lines => joinLines lines
  | none => conf

/-- `listenLine`. -/
def listenLine (listenPort : ℤ) : GoString :=
  str "listen " ++ itoa listenPort ++ str " ssl;"

/-- `injectListen`. -/
def injectListen (conf : GoString) (listenPort : ℤ) : GoString :=
  replaceLine conf (str "listen ") (listenLine listenPort)

/-- `injectSSL`. -/
def injectSSL (env : NginxEnv) (conf certDir domain : GoString) : GoString :=
  let certLine := env.certLine certDir domain
  let keyLine := env.keyLine certDir domain
  if contains conf (str "ssl_certificate") then
    replaceLine (replaceLine conf (str "ssl_certificate     ") certLine)
      (str "ssl_certificate_key ") keyLine
  else
    match index conf (str "server \x7b") with
    | none => conf
    | some idx =>
      let insertAt := idx + (str "server \x7b").length
      match indexByte (conf.drop insertAt) 0x0A with
      | none => conf ++ str "\n    " ++ certLine ++ str "\n    " ++ keyLine
      | some newlineIdx =>
        let insertAt := insertAt + (newlineIdx + 1)
        conf.take insertAt ++ str "\n    " ++ certLine ++ str "\n    " ++ keyLine ++
          conf.drop insertAt

/-- `injectProxyPass`. -/
def injectProxyPass (conf target : GoString) : GoString :=
  match changeFirst (beginsWith (str "proxy_pass "))
    (fun _ => str "    proxy_pass " ++ target ++ str ";") (splitLines conf) with
  | some lines => joinLines lines
  | none => conf

/-- `injectProxyProtocol`. -/
def injectProxyProtocol (conf : GoString) : GoString :=
  match changeFirst (beginsWith (str "proxy_pass "))
    (fun line => line ++ str "\n    proxy_protocol on;") (splitLines conf) with
  | some lines => joinLines lines
  | none => conf ++ str "\n    proxy_protocol on;\n"

/-- `defaultConf`. -/
def defaultConf (env : NginxEnv) (a : StoredApp) (certDir : GoString)
    (listenPort backendPort : ℤ) : GoString :=
  let scheme := a.streamScheme
  let upstreamName := sanitizeID a.domain
  let lbMethod := a.config.lbMethod
  str "# app: " ++ a.id ++ str " (" ++ a.domain ++ str ")\n" ++
    str "upstream " ++ upstreamName ++ str " \x7b\n" ++
    (if lbMethod = str "least-conn" ∨ lbMethod = str "least_conn" then str "    least_conn;\n"
      else []) ++
    (if lbMethod = str "ip-hash" ∨ lbMethod = str "ip_hash" then
      str "    hash $remote_addr consistent;\n" else []) ++
    str "    server 127.0.0.1:" ++ itoa backendPort ++ str ";\n" ++
    str "\x7d\n\n" ++
    str "server \x7b\n" ++
    (if scheme = str "udp" then str "    listen " ++ itoa listenPort ++ str " udp ssl;\n"
      else str "    listen " ++ itoa listenPort ++ str " ssl;\n") ++
    str "    ssl_certificate     " ++ env.certPath certDir a.domain ++ str ";\n" ++
    str "    ssl_certificate_key " ++ env.keyPath certDir a.domain ++ str ";\n" ++
    str "    proxy_pass " ++ upstreamName ++ str ";\n" ++
    str "    proxy_protocol on;\n" ++
    str "    proxy_connect_timeout 10s;\n" ++
    str "    proxy_timeout 10s;\n" ++
    (if scheme = str "tcp" then str "    proxy_socket_keepalive on;\n" else []) ++
    str "\x7d\n"

/-- The address of the firewall for an application. -/
def backendAddress (a : StoredApp) : GoString :=
  str "127.0.0.1:" ++ itoa a.config.backendPort

/-- `buildConf`. -/
def buildConf (env : NginxEnv) (a : StoredApp) : GoString :=
  let certDir := env.certDir
  let listenPort := a.config.listenPort
  if a.config.streamConfig ≠ [] then
    let conf := a.config.streamConfig
    let conf := injectListen conf listenPort
    let conf := injectSSL env conf certDir a.domain
    let conf := injectProxyPass conf (backendAddress a)
    injectProxyProtocol conf
  else defaultConf env a certDir listenPort a.config.backendPort

/-! ### The lines that are set -/

/-- The first line that begins with a name is set to a text, behind its indentation. -/
def setLine (p replacement : GoString) : List GoString → List GoString :=
  editFirst (beginsWith p) fun line => splitLines (indent line ++ replacement)

/-- Lines are put in front of others. They do not end with a line break, and the line that is there
goes on with the last of them. -/
def insertLines (added : GoString) : List GoString → List GoString
  | [] => splitLines added
  | next :: rest => [] :: (splitLines (added ++ next) ++ rest)

/-- Lines are put below the first one that opens a server. -/
def insertBelow (added : GoString) : List GoString → List GoString
  | [] => []
  | line :: lines =>
    if contains line (str "server \x7b") then line :: insertLines added lines
    else line :: insertBelow added lines

/-- Lines with those of the certificate. -/
def certifiedLines (env : NginxEnv) (certDir domain : GoString) (lines : List GoString) :
    List GoString :=
  let certLine := env.certLine certDir domain
  let keyLine := env.keyLine certDir domain
  if lines.any (contains · (str "ssl_certificate")) then
    setLine (str "ssl_certificate_key ") keyLine
      (setLine (str "ssl_certificate     ") certLine lines)
  else insertBelow (str "    " ++ certLine ++ str "\n    " ++ keyLine) lines

/-- What an administrator has supplied, with the lines of the port and the certificate. -/
def settledLines (env : NginxEnv) (a : StoredApp) : List GoString :=
  certifiedLines env env.certDir a.domain
    (setLine (str "listen ") (listenLine a.config.listenPort) (splitLines a.config.streamConfig))

/-- The lines without the first that begins with `proxy_pass`: a semicolon ends its statement, or
the last one if there is no such line. -/
def otherLines (lines : List GoString) : List GoString :=
  if lines.any (beginsWith (str "proxy_pass ")) then
    editFirst (beginsWith (str "proxy_pass ")) (fun _ => [[0x3B]]) lines
  else lines ++ [[0x3B], []]

theorem splitLines_replaceLine (conf p replacement : GoString) :
    splitLines (replaceLine conf p replacement) = setLine p replacement (splitLines conf) := by
  rcases exists_first (beginsWith p) (splitLines conf) with
    hnone | ⟨front, line, back, hlines, hfront, hline⟩
  · rw [replaceLine, changeFirst_of_none hnone, setLine, editFirst_of_none hnone]
  · rw [replaceLine, setLine, hlines, changeFirst_append hfront hline,
      editFirst_append hfront hline]
    obtain ⟨hbefore, -, hbehind⟩ := not_mem_of_splitLines_eq hlines
    exact splitLines_joinLines_append hbefore hbehind _

/-- A text is found where its lines say. -/
theorem contains_eq_any {sub : GoString} (h : 0x0A ∉ sub) (conf : GoString) :
    contains conf sub = (splitLines conf).any (contains · sub) := by
  rw [← contains_joinLines h (splitLines_ne_nil conf), joinLines_splitLines]

section InsertBelow

variable {added : GoString} {front back lines : List GoString} {line : GoString}

theorem insertBelow_of_none (h : ∀ m ∈ lines, contains m (str "server \x7b") = false) :
    insertBelow added lines = lines := by
  induction lines with
  | nil => rfl
  | cons m lines ih =>
    obtain ⟨hm, hlines⟩ := List.forall_mem_cons.mp h
    rw [insertBelow, if_neg (ne_true_of_eq_false hm), ih hlines]

theorem insertBelow_append (h : ∀ m ∈ front, contains m (str "server \x7b") = false)
    (hline : contains line (str "server \x7b") = true) (back : List GoString) :
    insertBelow added (front ++ line :: back) = front ++ line :: insertLines added back := by
  induction front with
  | nil => exact if_pos hline
  | cons m front ih =>
    obtain ⟨hm, hfront⟩ := List.forall_mem_cons.mp h
    rw [List.cons_append, insertBelow, if_neg (ne_true_of_eq_false hm), ih hfront]
    rfl

end InsertBelow

/-- Where `injectSSL` takes a text apart: behind the first opening of a server, and then behind the
line that has it. -/
theorem exists_opening {conf line : GoString} {front back : List GoString}
    (hlines : splitLines conf = front ++ line :: back)
    (hfront : ∀ m ∈ front, contains m (str "server \x7b") = false)
    (hline : contains line (str "server \x7b") = true) :
    ∃ idx above behind, index conf (str "server \x7b") = some idx ∧
      idx + (str "server \x7b").length = above.length ∧ 0x0A ∉ behind ∧
      splitLines (above ++ behind) = front ++ [line] ∧
      conf = above ++ (behind ++ back.flatMap (0x0A :: ·)) := by
  obtain ⟨k, hk⟩ := Option.isSome_iff_exists.mp ((isSome_index line _).trans hline)
  obtain ⟨before, behind, hsplit, rfl⟩ := exists_of_index_eq_some hk
  obtain ⟨hfrontLines, hnot, -⟩ := not_mem_of_splitLines_eq hlines
  have hindex := index_joinLines_append (by decide) hfront hk back
  rw [← hlines, joinLines_splitLines] at hindex
  refine ⟨_, front.flatMap (· ++ [0x0A]) ++ before ++ str "server \x7b", behind, hindex, ?_,
    fun hmem => hnot (hsplit ▸ List.mem_append_right _ hmem), ?_, ?_⟩
  · rw [List.length_append, List.length_append]
  · calc splitLines (front.flatMap (· ++ [0x0A]) ++ before ++ str "server \x7b" ++ behind)
        = splitLines (joinLines (front ++ [line])) := by
          rw [joinLines_append front (List.cons_ne_nil line []), joinLines_cons, hsplit]
          simp only [List.flatMap_nil, List.append_assoc, List.append_nil]
      _ = front ++ [line] := by
          rw [splitLines_joinLines_append hfrontLines fun _ h => absurd h List.not_mem_nil,
            splitLines_line hnot, List.append_nil]
  · rw [← joinLines_splitLines conf, hlines, joinLines_append front (List.cons_ne_nil line back),
      joinLines_cons, hsplit]
    simp only [List.append_assoc]

/-- The lines behind `injectSSL`. -/
theorem splitLines_injectSSL (env : NginxEnv) (conf certDir domain : GoString) :
    splitLines (injectSSL env conf certDir domain) =
      certifiedLines env certDir domain (splitLines conf) := by
  rw [injectSSL, certifiedLines, contains_eq_any (by decide)]
  dsimp only
  split
  · rw [splitLines_replaceLine, splitLines_replaceLine]
  rcases exists_first (contains · (str "server \x7b")) (splitLines conf) with
    hnone | ⟨front, line, back, hlines, hfront, hline⟩
  · have hindex : index conf (str "server \x7b") = none := by
      rw [index_eq_none_iff, contains_eq_any (by decide)]
      simpa using hnone
    rw [hindex, insertBelow_of_none hnone]
  obtain ⟨idx, above, behind, hindex, hlength, hbehind, habove, hconf⟩ :=
    exists_opening hlines hfront hline
  rw [hindex, hlines, insertBelow_append hfront hline, List.append_cons, ← habove]
  dsimp only
  rw [hlength, hconf, List.drop_left]
  generalize env.certLine certDir domain = certLine
  generalize env.keyLine certDir domain = keyLine
  -- the text may end with the line of the opening, and otherwise the line below it is joined
  cases back with
  | nil =>
    rw [List.flatMap_nil, List.append_nil, indexByte_of_not_mem hbehind, insertLines,
      ← splitLines_append_cons]
    simp only [List.append_assoc]
    rfl
  | cons next rest =>
    obtain ⟨-, -, hbackLines⟩ := not_mem_of_splitLines_eq hlines
    obtain ⟨-, hrest⟩ := List.forall_mem_cons.mp hbackLines
    obtain ⟨htake, hdrop⟩ :=
      take_drop_append_cons above behind 0x0A (next ++ rest.flatMap (0x0A :: ·))
    rw [List.flatMap_cons, List.cons_append, indexByte_append_cons hbehind]
    dsimp only
    rw [htake, hdrop, insertLines, ← splitLines_append_flatMap _ hrest, ← splitLines_lineBreak,
      ← splitLines_append_cons]
    simp only [List.append_assoc]
    rfl

theorem splitLines_settled (env : NginxEnv) (a : StoredApp) :
    splitLines (injectSSL env (injectListen a.config.streamConfig a.config.listenPort) env.certDir
      a.domain) = settledLines env a := by
  rw [splitLines_injectSSL, injectListen, splitLines_replaceLine, settledLines]

/-! ### The line that is routed -/

/-- The line of `injectProxyPass`. -/
def routedLine (target : GoString) : GoString :=
  str "    proxy_pass " ++ target ++ str ";"

/-- A number is written with bytes of a word. -/
theorem isConfByte_itoa (n : ℤ) : ∀ c ∈ itoa n, isConfByte c = true := by
  have hdigit : ∀ c : UInt8, isDigit c = true → isConfByte c = true := by
    intro c hc
    grind [isDigit, isConfByte, isLiteral, isConfBlank]
  have hnat : ∀ c ∈ natText n.natAbs, isConfByte c = true :=
    fun c hc => hdigit c (natText_isDigit _ c hc)
  rw [itoa]
  split
  · exact List.forall_mem_cons.mpr ⟨rfl, hnat⟩
  · exact hnat

theorem isConfByte_backendAddress (a : StoredApp) :
    ∀ c ∈ backendAddress a, isConfByte c = true :=
  List.forall_mem_append.mpr ⟨List.all_eq_true.mp rfl, isConfByte_itoa _⟩

/-- The address begins with a digit. -/
theorem ne_backendAddress {a : StoredApp} {w : GoString} (h : w.head? ≠ some 0x31) :
    w ≠ backendAddress a := by
  rintro rfl
  exact h rfl

/-- The routed line begins with the name of its directive. -/
theorem beginsWith_routedLine (target : GoString) :
    beginsWith (str "proxy_pass ") (routedLine target) = true := by
  have hleft : dropRunes spaceRunes (routedLine target).length (routedLine target) =
      str "proxy_pass " ++ target ++ str ";" := rfl
  have hright : ∀ (n : ℕ) (s : GoString),
      dropRunes (spaceRunes.map List.reverse) n (0x3B :: s) = 0x3B :: s := by
    intro n s
    cases n with
    | zero => rfl
    | succ n => rfl
  have hreverse : (str "proxy_pass " ++ target ++ str ";").reverse =
      0x3B :: (str "proxy_pass " ++ target).reverse := List.reverse_append
  rw [beginsWith, trimSpace, hleft, hreverse, hright, ← hreverse, List.reverse_reverse,
    List.append_assoc]
  exact hasPrefix_append _ _

section Routed

variable {conf target : GoString} {front back : List GoString} {line : GoString}

/-- The passes for `proxy_pass` and for the protocol behind it, where there is such a line. -/
theorem injectProxyProtocol_of_found (htarget : 0x0A ∉ target)
    (hlines : splitLines conf = front ++ line :: back)
    (hfront : ∀ m ∈ front, beginsWith (str "proxy_pass ") m = false)
    (hline : beginsWith (str "proxy_pass ") line = true) :
    injectProxyProtocol (injectProxyPass conf target) =
      joinLines (front ++ (routedLine target ++ str "\n    proxy_protocol on;") :: back) := by
  obtain ⟨hbefore, -, hbehind⟩ := not_mem_of_splitLines_eq hlines
  have hrouted : 0x0A ∉ routedLine target := by
    simp only [routedLine, List.mem_append, not_or]
    exact ⟨⟨by decide, htarget⟩, by decide⟩
  have hpass : splitLines (injectProxyPass conf target) = front ++ routedLine target :: back := by
    rw [injectProxyPass, hlines, changeFirst_append hfront hline]
    dsimp only
    rw [← routedLine, splitLines_joinLines_append hbefore hbehind, splitLines_line hrouted,
      List.append_assoc]
    rfl
  rw [injectProxyProtocol, hpass, changeFirst_append hfront (beginsWith_routedLine target)]

theorem injectProxyProtocol_of_none (target : GoString)
    (hnone : ∀ m ∈ splitLines conf, beginsWith (str "proxy_pass ") m = false) :
    injectProxyProtocol (injectProxyPass conf target) =
      conf ++ str "\n    proxy_protocol on;\n" := by
  have hpass : injectProxyPass conf target = conf := by
    rw [injectProxyPass, changeFirst_of_none hnone]
  rw [hpass, injectProxyProtocol, changeFirst_of_none hnone]

end Routed

/-- The line of the protocol sets no target. -/
theorem sets_protocol (target : GoString) :
    Sets (str "proxy_pass") target [[str "proxy_protocol", str "on"]] := by
  intro words hwords hhead
  obtain rfl := List.mem_singleton.mp hwords
  exact absurd hhead (by decide)

/-- Blanks between two words are passed over. -/
private theorem scan_spaces (words : List GoString) (t : GoString) :
    ConfReader.scan ⟨words, .blank⟩ (str "    " ++ t) = ConfReader.scan ⟨words, .blank⟩ t :=
  rfl

private theorem scan_lineBreak (t : GoString) :
    ConfReader.scan .start (0x0A :: t) = ConfReader.scan .start t :=
  rfl

/-- The line of the protocol goes on with a statement and ends it. -/
theorem scan_protocol (words : List GoString) :
    ConfReader.scan ⟨words, .blank⟩ (str "    proxy_protocol on;") =
      (.start, [words ++ [str "proxy_protocol", str "on"]]) := by
  have hline : str "    proxy_protocol on;" =
      str "    " ++ (str "proxy_protocol" ++ 0x20 :: (str "on" ++ 0x3B :: [])) := rfl
  have hon := ConfReader.scan_word_semicolon (w := str "on") (words ++ [str "proxy_protocol"])
    (by decide) (List.all_eq_true.mp rfl) []
  rw [hline, scan_spaces, ConfReader.scan_word_blank words (by decide) (List.all_eq_true.mp rfl),
    hon, ConfReader.scan, List.append_assoc]
  rfl

/-- So do the lines of a target and of the protocol. -/
theorem scan_routed {target : GoString} (hne : target ≠ [])
    (htarget : ∀ c ∈ target, isConfByte c = true) (words : List GoString) :
    ConfReader.scan ⟨words, .blank⟩ (routedLine target ++ str "\n    proxy_protocol on;") =
      (.start, [words ++ [str "proxy_pass", target]] ++ [[str "proxy_protocol", str "on"]]) := by
  have hline : routedLine target ++ str "\n    proxy_protocol on;" =
      str "    " ++ (str "proxy_pass" ++ 0x20 ::
        (target ++ 0x3B :: 0x0A :: str "    proxy_protocol on;")) := by
    rw [routedLine, List.append_assoc, List.append_assoc]
    rfl
  have hprotocol : ConfReader.scan .start (str "    proxy_protocol on;") =
      (.start, [[str "proxy_protocol", str "on"]]) := scan_protocol []
  rw [hline, scan_spaces, ConfReader.scan_word_blank words (by decide) (List.all_eq_true.mp rfl),
    ConfReader.scan_word_semicolon _ hne htarget, scan_lineBreak, hprotocol, List.append_assoc]
  rfl

/-- Where a line begins, the lines of a target and of the protocol set the target. -/
theorem closes_routed {target : GoString} (hne : target ≠ []) (hproxy : str "proxy_pass" ≠ target)
    (htarget : ∀ c ∈ target, isConfByte c = true) :
    Closes (str "proxy_pass") target (routedLine target ++ str "\n    proxy_protocol on;") where
  blank := ⟨_, rfl⟩
  literal := by
    have hliteral : ∀ c ∈ target, isLiteral c = true :=
      fun c hc => (of_decide_eq_true (htarget c hc)).1
    rw [routedLine, List.append_assoc, List.append_assoc]
    exact List.forall_mem_append.mpr ⟨List.all_eq_true.mp rfl,
      List.forall_mem_append.mpr ⟨hliteral, List.all_eq_true.mp rfl⟩⟩
  semicolon :=
    List.mem_append_left _ (List.mem_append_right _ (List.mem_singleton_self _))
  reader words := by rw [scan_routed hne htarget]
  sets words := by
    rw [scan_routed hne htarget, sets_append, and_iff_left (sets_protocol target)]
    refine sets_append_words (fun more hmore _ => ?_) (fun heq => hproxy ?_) words
    · rw [List.mem_singleton.mp hmore]
      rfl
    · exact Option.some.inj heq

/-- The line of the protocol alone sets nothing. -/
theorem closes_protocol {target : GoString} (hprotocol : str "proxy_protocol" ≠ target) :
    Closes (str "proxy_pass") target (str "    proxy_protocol on;") where
  blank := ⟨_, rfl⟩
  literal := List.all_eq_true.mp rfl
  semicolon := by decide
  reader words := by rw [scan_protocol]
  sets words := by
    rw [scan_protocol]
    refine sets_append_words (sets_protocol target) (fun heq => hprotocol ?_) words
    exact Option.some.inj heq

/-- **Custom configurations are routed** if and only if the other directives are: every
`proxy_pass` sends the connections to the firewall exactly if every one does that does not stand in
the first line that begins with the name. -/
theorem buildConf_routes_iff (env : NginxEnv) (a : StoredApp) (h : a.config.streamConfig ≠ []) :
    Sets (str "proxy_pass") (backendAddress a) (directives (buildConf env a)) ↔
      Sets (str "proxy_pass") (backendAddress a)
        (directives (joinLines (otherLines (settledLines env a)))) := by
  have hbytes := isConfByte_backendAddress a
  have hplain : ∀ c, isConfByte c = false → c ∉ backendAddress a := by
    intro c hc hmem
    rw [hbytes c hmem] at hc
    cases hc
  have hname : 0x3B ∉ str "proxy_pass" := by decide
  have hvalue : 0x3B ∉ backendAddress a := hplain _ rfl
  have hbuild : buildConf env a = injectProxyProtocol (injectProxyPass
      (injectSSL env (injectListen a.config.streamConfig a.config.listenPort) env.certDir
        a.domain) (backendAddress a)) := if_pos h
  have hsettled := splitLines_settled env a
  rw [hbuild]
  generalize injectSSL env (injectListen a.config.streamConfig a.config.listenPort) env.certDir
    a.domain = conf at hsettled ⊢
  rcases exists_first (beginsWith (str "proxy_pass ")) (settledLines env a) with
    hnone | ⟨front, line, back, hlines, hfront, hline⟩
  · have hother : otherLines (settledLines env a) = settledLines env a ++ [[0x3B], []] :=
      if_neg (by simpa using hnone)
    have htext : conf ++ str "\n    proxy_protocol on;\n" =
        joinLines (settledLines env a ++ str "    proxy_protocol on;" :: [[]]) := by
      rw [← hsettled, joinLines_append_flatMap (splitLines_ne_nil conf), joinLines_splitLines]
      rfl
    rw [← hsettled] at hnone
    rw [injectProxyProtocol_of_none _ hnone, htext, hother]
    exact (closes_protocol (ne_backendAddress (by decide))).directives_iff hname hvalue _ _
  · have hother : otherLines (settledLines env a) = front ++ [0x3B] :: back := by
      rw [otherLines, hlines, if_pos (by simp [hline]), editFirst_append hfront hline,
        List.append_assoc]
      rfl
    rw [injectProxyProtocol_of_found (hplain _ rfl) (hsettled.trans hlines) hfront hline, hother]
    exact (closes_routed (ne_backendAddress (by decide)).symm (ne_backendAddress (by decide))
      hbytes).directives_iff hname hvalue _ _

/-- A stream with a configuration of its own. -/
def sampleStream (streamConfig : GoString) : StoredApp :=
  let a := sampleApp (str "mail") (str "mail.test") (str "tcp")
  { a with
    config :=
      { a.config with listenPort := 10000, backendPort := 20000, streamConfig := streamConfig } }

/-- The only `proxy_pass` has a line, and another one stands between it and the opening. -/
theorem buildConf_routes_iff_one_server :
    let a := sampleStream (str "server \x7b\nlisten 25;\nproxy_pass 10.0.0.5:25;\n\x7d\n")
    Sets (str "proxy_pass") (str "127.0.0.1:20000")
      (directives (buildConf ⟨[], fun _ => false⟩ a)) := by
  intro a
  exact (buildConf_routes_iff ⟨[], fun _ => false⟩ a (by decide)).mpr (by decide)

/-- A second server is not routed, nor is a server that begins with its `proxy_pass`: that line is
joined to the one of the key. -/
theorem buildConf_misses_others :
    let routed := fun conf => Sets (str "proxy_pass") (str "127.0.0.1:20000")
      (directives (buildConf ⟨[], fun _ => false⟩ (sampleStream conf)))
    ¬ routed (str "server \x7b\nlisten 25;\nproxy_pass 10.0.0.5:25;\n\x7d\n" ++
        str "server \x7b\nlisten 26;\nproxy_pass 10.0.0.6:25;\n\x7d\n") ∧
      ¬ routed (str "server \x7b\nproxy_pass 10.0.0.5:25;\n\x7d\n") := by
  decide

end VibesWaf

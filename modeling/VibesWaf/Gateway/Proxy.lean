import VibesWaf.Gateway.App
import VibesWaf.Go.Decimal
import VibesWaf.Go.Http
import VibesWaf.Go.Url

/-!
# The request for the upstream

`proxyRequest` is the request `proxyToUpstream` sends when it opens no tunnel: it puts a URL
together as a text, from the origin of the upstream, a path prefix, the path of the client's request
and its query, and has the text parsed. The path in the text is the encoded one when `net/url` kept
it, and otherwise the decoded one; so an encoded character can come out as a separator, or be
decoded a second time.

`RebuiltKept` lists what has to hold for such a request to have the client's path and query, and
`proxyRequest_kept_iff` is the result: that, and nothing less. What is sent through a tunnel is in
`Gateway/Target`.
-/

namespace VibesWaf

/-! ### Building the request -/

/-- An `http.Request` for an upstream: the method, the URL, the `Host`, and the headers that are set
on top of the client's. -/
structure ProxyRequest where
  method : GoString
  url : URL
  host : GoString
  setHeaders : List (GoString × GoString)
  deriving DecidableEq

/-- The part of a URL between the scheme and the path: the port is left out when it is 80 or
443. -/
def Upstream.authority (u : Upstream) : GoString :=
  u.host ++ if u.port ≠ 80 ∧ u.port ≠ 443 then str ":" ++ itoa u.port else []

/-- The start of the target URL. -/
def Upstream.origin (u : Upstream) : GoString :=
  u.scheme ++ str "://" ++ u.authority

/-- `UpstreamPath` of an application, when it is set, without a slash at its end. -/
def pathPrefix (application : Option App) : Option GoString :=
  match application with
  | none => none
  | some app =>
    if app.advanced.upstreamPath = [] then none
    else some (trimSuffix app.advanced.upstreamPath (str "/"))

/-- A path behind a prefix: the front page is the prefix alone. -/
def underPrefix (path : GoString) : Option GoString → GoString
  | none => path
  | some pathPrefix => if path = str "/" then pathPrefix else pathPrefix ++ path

/-- The path text of a request: encoded when `net/url` kept it, and otherwise decoded. -/
def Request.pathText (r : Request) : GoString :=
  if r.rawPath = [] then r.path else r.rawPath

/-- The path in the target URL. -/
def forwardedPath (r : Request) (application : Option App) : GoString :=
  underPrefix r.pathText (pathPrefix application)

/-- The query in the target URL. -/
def forwardedQuery (r : Request) : GoString :=
  if r.rawQuery = [] then [] else str "?" ++ r.rawQuery

/-- The target URL. -/
def targetURL (r : Request) (application : Option App) (upstream : Upstream) : GoString :=
  upstream.origin ++ forwardedPath r application ++ forwardedQuery r

/-- `validMethod`: a nonempty token. -/
def validMethod (method : GoString) : Bool :=
  method ≠ [] && method.all fun c => isAlphanum c || c ∈ str "!#$%&'*+-.^_|~" || c == 0x60

/-- `removeEmptyPort`. -/
def removeEmptyPort (host : GoString) : GoString :=
  match lastIndexByte host 0x3A with
  | none => host
  | some colon =>
    if (lastIndexByte host 0x5D).all (· < colon) then trimSuffix host (str ":") else host

/-- The `Host` for the upstream of an application. -/
def upstreamHost (r : Request) (app : App) : GoString :=
  let advanced := app.advanced
  if advanced.modifyHostHeader ∧ advanced.hostHeaderValue ≠ [] then
    if advanced.hostHeaderValue = str "$http_host" then r.host else advanced.hostHeaderValue
  else r.host

/-- The headers that an application passes on. -/
def passedHeaders (r : Request) (app : App) : List (GoString × GoString) :=
  let advanced := app.advanced
  (if advanced.passXForwardedHost then [(str "X-Forwarded-Host", r.host)] else []) ++
    if advanced.passXForwardedProto then
      [(str "X-Forwarded-Proto", if r.tls then str "https" else str "http")]
    else []

/-- The headers `proxyToUpstream` sets for an application, with the `Host`. -/
def upstreamHeaders (r : Request) (app : App) (clientIP : GoString) :
    GoString × List (GoString × GoString) :=
  (upstreamHost r app,
    [(str "Host", upstreamHost r app), (str "X-Forwarded-For", clientIP),
      (str "X-Real-IP", clientIP)] ++ passedHeaders r app)

section Proxy

variable [GoLib]

/-- `http.NewRequest`; `none` is an error. -/
def newRequest (method url : GoString) : Option ProxyRequest :=
  let method := if method = [] then str "GET" else method
  if validMethod method = false then none
  else
    (parseURL url).map fun u =>
      let u := { u with host := removeEmptyPort u.host }
      ⟨method, u, u.host, []⟩

/-- The request that `proxyToUpstream` puts together when it opens no tunnel. -/
def proxyRequest (r : Request) (application : Option App) (upstream : Upstream)
    (clientIP : GoString) : Option ProxyRequest :=
  (newRequest r.method (targetURL r application upstream)).map fun req =>
    match application with
    | none => req
    | some app =>
      let (host, headers) := upstreamHeaders r app clientIP
      { req with host := host, setHeaders := headers }

/-! ### What the upstream should see -/

/-- The request is one `net/http` accepts: its method is a token, and its URL is what the request
line says. -/
structure Request.Received (r : Request) : Prop where
  method : validMethod r.method = true
  url : ∃ url, requestURL r.method r.requestURI = some url ∧
    r.path = url.path ∧ r.rawPath = url.rawPath ∧ r.rawQuery = url.rawQuery

/-- The upstream is an origin: a scheme of the web, and an authority without separators that
`net/url` accepts. -/
structure Upstream.IsOrigin (u : Upstream) : Prop where
  scheme : u.scheme = str "http" ∨ u.scheme = str "https"
  plain : plainAuthority u.authority = true
  authority : (GoLib.parseAuthority u.authority).isSome = true

end Proxy

/-- `URL.EscapedPath` of the client's request. -/
def Request.escapedPath (r : Request) : GoString :=
  URL.escapedPath { URL.zero with path := r.path, rawPath := r.rawPath }

/-- The part of the target path that comes from the client. -/
def clientPart (path : GoString) (pathPrefix : Option GoString) : GoString :=
  if pathPrefix ≠ none ∧ path = str "/" then [] else path

theorem clientPart_of_ne {path : GoString} (h : path ≠ str "/") (pathPrefix : Option GoString) :
    clientPart path pathPrefix = path :=
  if_neg fun hall => h hall.2

theorem underPrefix_eq (path : GoString) (pathPrefix : Option GoString) :
    underPrefix path pathPrefix = pathPrefix.getD [] ++ clientPart path pathPrefix := by
  unfold underPrefix clientPart
  cases pathPrefix with
  | none => simp
  | some pathPrefix =>
    by_cases hroot : path = str "/"
    · simp [hroot]
    · simp [hroot]

/-! ### Parsing the target URL -/

/-- The text begins where a path may begin. -/
def Rooted (s : GoString) : Prop :=
  s = [] ∨ s.head? = some 0x2F

/-- What a received request has for a path: the text `sent` that is put into the target URL, the
text `due` of the client's escaped path, and the path `v` itself. The first is the path, or encodes
it. -/
structure ClientPath (sent due v : GoString) : Prop where
  due_decodes : unescape .path due = some v
  due_of_invalid : validEncoded sent = false → due = escape .path v
  due_rooted : Rooted due ∨ due = str "*"
  sent_cases : sent = v ∨ unescape .path sent = some v
  sent_rooted : Rooted sent ∨ sent = str "*" ∧ due = str "*"

/-- When a target URL with a prefix, a path and a query is taken apart as it was put together. -/
structure Kept (pathPrefix sent due v query : GoString) : Prop where
  /-- The prefix is the text of a path. -/
  prefix_valid : validEncoded pathPrefix = true
  prefix_decodes : ∃ p, unescape .path pathPrefix = some p
  /-- The path begins with a slash, so that the authority ends before it. -/
  rooted : Rooted pathPrefix ∧ (pathPrefix = [] → Rooted sent)
  /-- The path has no separator, and neither of the two has a byte that ends them. -/
  sent_plain : containsCTLByte sent = false ∧ 0x3F ∉ sent ∧ 0x23 ∉ sent
  query_plain : 0x23 ∉ query
  /-- The path is decoded once. -/
  once : unescape .path sent = some v
  /-- It is sent as the client encoded it, or has a byte that is encoded once more, and then the
  prefix has the default encoding. -/
  encoded : if validEncoded sent then sent = due
    else (unescape .path pathPrefix).map (escape .path) = some pathPrefix

theorem validEncoded_plain {s : GoString} (h : validEncoded s = true) :
    containsCTLByte s = false ∧ 0x3F ∉ s ∧ 0x23 ∉ s := by
  have hbyte : ∀ c : UInt8, (c < 0x20 || c == 0x7F) = true ∨ c = 0x3F ∨ c = 0x23 →
      validPathByte c = false := by
    decide +kernel
  have hall := List.all_eq_true.mp h
  refine ⟨List.any_eq_false.mpr fun c hc hctl => ?_, fun hmem => ?_, fun hmem => ?_⟩
  · exact Bool.false_ne_true ((hbyte c (.inl hctl)).symm.trans (hall c hc))
  · exact Bool.false_ne_true ((hbyte _ (.inr (.inl rfl))).symm.trans (hall _ hmem))
  · exact Bool.false_ne_true ((hbyte _ (.inr (.inr rfl))).symm.trans (hall _ hmem))

/-- A text is rooted where its front is, and what follows an empty front. -/
private theorem Rooted.append {s t : GoString} (hs : Rooted s) (ht : s = [] → Rooted t) :
    Rooted (s ++ t) := by
  cases s with
  | nil => exact ht rfl
  | cons c s => exact .inr (hs.resolve_left (by simp))

private theorem Rooted.of_append {s t : GoString} (h : Rooted (s ++ t)) : Rooted s := by
  cases s with
  | nil => exact .inl rfl
  | cons c s => exact .inr (h.resolve_left (by simp))

/-- A rooted text has no part before its first slash. -/
theorem Rooted.takeWhile {s : GoString} (h : Rooted s) :
    s.takeWhile (· ≠ 0x2F) = [] ∧ s.dropWhile (· ≠ 0x2F) = s := by
  rcases h with rfl | hhead
  · exact ⟨rfl, rfl⟩
  · obtain ⟨t, rfl⟩ := List.head?_eq_some_iff.mp hhead
    simp

/-- What a stored path reads back as: a rooted text of a path, which decodes to the path. -/
private theorem readBack_facts {p path back : GoString} (hpath : unescape .path p = some path)
    (hrooted : Rooted p) (hback : back = if validEncoded p then p else escape .path path) :
    validEncoded back = true ∧ unescape .path back = some path ∧ Rooted back := by
  by_cases hvalid : validEncoded p = true
  · rw [if_pos hvalid] at hback
    rw [hback]
    exact ⟨hvalid, hpath, hrooted⟩
  · rw [if_neg hvalid] at hback
    rw [hback]
    refine ⟨validEncoded_escape path, unescape_escape path, ?_⟩
    rcases hrooted with rfl | hhead
    · exact absurd rfl hvalid
    · obtain ⟨t, rfl⟩ := List.head?_eq_some_iff.mp hhead
      rw [unescape_cons (by decide)] at hpath
      obtain ⟨path, -, rfl⟩ := Option.map_eq_some_iff.mp hpath
      exact .inr rfl

/-- Cutting a target at its separators leaves all of the path, or a part of it that ends at a
separator. -/
private theorem cut_path_cases (sent query : GoString) :
    let part := (cut (cut (sent ++ if query = [] then [] else str "?" ++ query) 0x23).1 0x3F).1
    (part = sent ∧ 0x3F ∉ sent ∧ 0x23 ∉ sent) ∨
      ∃ x t, x ≠ 0x25 ∧ sent = part ++ x :: t := by
  intro part
  by_cases hhash : 0x23 ∈ sent
  · obtain ⟨a, b, rfl, ha, -⟩ := exists_cut_of_mem hhash
    have hpart : part = (cut a 0x3F).1 := by
      simp only [part]
      rw [List.append_assoc, List.cons_append, cut_append_cons ha]
    refine .inr ?_
    by_cases hmark : 0x3F ∈ a
    · obtain ⟨c, d, rfl, -, hcut⟩ := exists_cut_of_mem hmark
      rw [hpart, hcut]
      exact ⟨0x3F, d ++ 0x23 :: b, by decide, by simp⟩
    · rw [hpart, cut_of_not_mem hmark]
      exact ⟨0x23, b, by decide, rfl⟩
  · have hpart : part =
        (cut (sent ++ (cut (if query = [] then [] else str "?" ++ query) 0x23).1) 0x3F).1 := by
      simp only [part]
      rw [cut_append hhash]
    by_cases hmark : 0x3F ∈ sent
    · obtain ⟨a, b, rfl, ha, -⟩ := exists_cut_of_mem hmark
      refine .inr ⟨0x3F, b, by decide, ?_⟩
      rw [hpart, List.append_assoc, List.cons_append, cut_append_cons ha]
    · refine .inl ⟨?_, hmark, hhash⟩
      rw [hpart, cut_append hmark, str_question]
      by_cases hempty : query = []
      · rw [if_pos hempty]
        simp [cut]
      · rw [if_neg hempty, cut_append (by decide)]
        simp [cut]

section Target

variable [GoLib] {upstream : Upstream} {pathPrefix sent due v query : GoString}

/-- The target URL is parsed part by part. -/
private theorem parseURL_origin (hup : upstream.IsOrigin) (tail : GoString) (url : URL) :
    parseURL (upstream.origin ++ tail) = some url ↔
      (unescape .fragment ((cut tail 0x23).2.getD [])).isSome = true ∧
      containsCTLByte (cut tail 0x23).1 = false ∧
      ∃ host, GoLib.parseAuthority (upstream.authority ++
          (cut (cut tail 0x23).1 0x3F).1.takeWhile (· ≠ 0x2F)) = some host ∧
        { URL.zero with
          scheme := upstream.scheme
          host := host
          rawQuery := (cut (cut tail 0x23).1 0x3F).2.getD [] }.setPath
            ((cut (cut tail 0x23).1 0x3F).1.dropWhile (· ≠ 0x2F)) = some url := by
  have hplain := hup.plain
  rw [plainAuthority, Bool.and_eq_true, Bool.not_eq_true', Bool.not_eq_true'] at hplain
  have hhash : 0x23 ∉ upstream.origin := by
    rw [Upstream.origin, List.mem_append, List.mem_append]
    rintro ((hmem | hmem) | hmem)
    · rcases hup.scheme with heq | heq <;> rw [heq] at hmem <;> revert hmem <;> decide
    · exact absurd hmem (by decide)
    · exact List.any_eq_false.mp hplain.2 _ hmem (by decide)
  rw [parseURL, cut_append hhash]
  dsimp only
  rw [Upstream.origin, URL.parse_absolute hup.scheme hup.plain]
  generalize (cut tail 0x23).1 = t
  cases containsCTLByte t with
  | true => simp
  | false =>
    rw [if_neg Bool.false_ne_true]
    cases GoLib.parseAuthority
        (upstream.authority ++ (cut t 0x3F).1.takeWhile (· ≠ 0x2F)) with
    | none => simp
    | some host =>
      simp only [Option.some.injEq, exists_eq_left', true_and]
      cases URL.setPath _ _ with
      | none => simp
      | some url' =>
        dsimp only
        rw [Option.ite_none_right_eq_some]

omit [GoLib] in
/-- A prefix that decodes together with the path due decodes by itself: what follows it does not go
on with a digit. -/
private theorem prefix_decodes (hclient : ClientPath sent due v) {path : GoString}
    (hdecode : unescape .path (pathPrefix ++ due) = some path) :
    ∃ p, unescape .path pathPrefix = some p ∧ path = p ++ v := by
  have hdueHead : ∀ c ∈ due.head?, ishex c = false := by
    intro c hc
    rcases hclient.due_rooted with (rfl | hhead) | rfl
    · exact absurd hc (by simp)
    · obtain rfl := Option.some.inj (hhead.symm.trans hc)
      decide
    · have hstar : (str "*").head? = some 0x2A := by decide
      obtain rfl := Option.some.inj (hstar.symm.trans hc)
      decide
  obtain ⟨p, hp⟩ := unescape_append_left hdueHead hdecode
  rw [unescape_append hp, hclient.due_decodes] at hdecode
  exact ⟨p, hp, (Option.some.inj hdecode).symm⟩

omit [GoLib] in
/-- A part of the path sent that decodes to all of the path is all of it: one that ends at a
separator is too short, decoded or not. -/
private theorem part_eq_sent (hclient : ClientPath sent due v) {part : GoString}
    (hdecode : unescape .path part = some v)
    (hpart : (part = sent ∧ 0x3F ∉ sent ∧ 0x23 ∉ sent) ∨ ∃ x t, x ≠ 0x25 ∧ sent = part ++ x :: t) :
    part = sent ∧ 0x3F ∉ sent ∧ 0x23 ∉ sent := by
  refine hpart.resolve_right ?_
  rintro ⟨x, t, hx, hsplit⟩
  rcases hclient.sent_cases with hsame | hsent
  · have hlength := (length_unescape hdecode).1
    rw [← hsame, hsplit, List.length_append, List.length_cons] at hlength
    omega
  · rw [hsplit, unescape_append hdecode, unescape_cons hx, Option.map_map] at hsent
    obtain ⟨t', -, heq⟩ := Option.map_eq_some_iff.mp hsent
    have hlength := congrArg List.length heq
    simp at hlength

/-- What was read back from a target URL tells how it was put together. -/
private theorem kept_of_parsed (hup : upstream.IsOrigin) (hclient : ClientPath sent due v)
    {url : URL}
    (hparse : parseURL (upstream.origin ++
      (pathPrefix ++ (sent ++ if query = [] then [] else str "?" ++ query))) = some url)
    (hpath : url.escapedPath = pathPrefix ++ due) (hquery : url.rawQuery = query) :
    Kept pathPrefix sent due v query := by
  obtain ⟨-, hctl, host, -, hset⟩ := (parseURL_origin hup _ url).mp hparse
  have hrootedText := rooted_dropWhile (cut (cut (pathPrefix ++
    (sent ++ if query = [] then [] else str "?" ++ query)) 0x23).1 0x3F).1
  obtain ⟨hdecode, hback⟩ := URL.escapedPath_setPath hset hrootedText
  obtain ⟨hvalid, hbackDecode, hbackRooted⟩ := readBack_facts hdecode hrootedText hback
  rw [hpath] at hvalid hbackDecode hbackRooted hback
  rw [validEncoded_append, Bool.and_eq_true] at hvalid
  obtain ⟨hpvalid, -⟩ := hvalid
  obtain ⟨hpctl, hpmark, hphash⟩ := validEncoded_plain hpvalid
  obtain ⟨p, hp, hpv⟩ := prefix_decodes hclient hbackDecode
  have hprefixRooted : Rooted pathPrefix := hbackRooted.of_append
  have hsentRooted : pathPrefix = [] → Rooted sent := by
    rintro rfl
    refine hclient.sent_rooted.resolve_right fun hstar => ?_
    rw [List.nil_append, hstar.2] at hbackRooted
    exact absurd hbackRooted (by unfold Rooted; decide)
  -- the text that was parsed as the path
  have hcutHash := cut_append hphash (sent ++ if query = [] then [] else str "?" ++ query)
  have hpart := cut_path_cases sent query
  rw [hcutHash] at hset hctl hdecode hback
  dsimp only at hset hctl hdecode hback
  rw [cut_append hpmark] at hset hdecode hback
  dsimp only at hset hdecode hback
  dsimp only at hpart
  generalize (cut (cut (sent ++ if query = [] then [] else str "?" ++ query) 0x23).1 0x3F).1 = part
    at hset hdecode hback hpart
  have hpartRooted : Rooted (pathPrefix ++ part) := by
    refine hprefixRooted.append fun hnil => ?_
    rcases hpart with ⟨rfl, -⟩ | ⟨x, t, -, rfl⟩
    · exact hsentRooted hnil
    · exact (hsentRooted hnil).of_append
  rw [hpartRooted.takeWhile.2] at hset hdecode hback
  rw [unescape_append hp, hpv] at hdecode
  have hpartDecode : unescape .path part = some v := by
    obtain ⟨v', hv', heq⟩ := Option.map_eq_some_iff.mp hdecode
    rw [hv', List.append_cancel_left heq]
  obtain ⟨rfl, hmark, hhash⟩ := part_eq_sent hclient hpartDecode hpart
  rw [cut_append hhash] at hctl
  rw [containsCTLByte_append, containsCTLByte_append, Bool.or_eq_false_iff,
    Bool.or_eq_false_iff] at hctl
  refine ⟨hpvalid, ⟨p, hp⟩, ⟨hprefixRooted, hsentRooted⟩, ⟨hctl.2.1, hmark, hhash⟩, ?_,
    hpartDecode, ?_⟩
  · -- the query was cut at its first fragment sign
    intro hfragment
    obtain ⟨a, b, rfl, -, hcut⟩ := exists_cut_of_mem hfragment
    have hrawQuery := rawQuery_setPath hset
    have hsign : 0x23 ∉ ([0x3F] : GoString) := by decide
    rw [hquery, cut_append hhash, cut_append hmark, if_neg (by simp), str_question,
      cut_append hsign, hcut] at hrawQuery
    have hlength := congrArg List.length hrawQuery
    simp [cut] at hlength
  · rw [validEncoded_append, hpvalid, Bool.true_and, hpv] at hback
    by_cases hsent : validEncoded part = true
    · rw [if_pos hsent] at hback ⊢
      exact (List.append_cancel_left hback).symm
    · rw [if_neg hsent, escape_append,
        hclient.due_of_invalid (Bool.eq_false_iff.mpr hsent)] at hback
      rw [if_neg hsent, hp]
      exact congrArg some (List.append_cancel_right hback).symm

/-- A target URL that was put together so is read back so. -/
private theorem parsed_of_kept (hup : upstream.IsOrigin) (hclient : ClientPath sent due v)
    (hquery : containsCTLByte query = false) (hkept : Kept pathPrefix sent due v query) :
    ∃ url, parseURL (upstream.origin ++
        (pathPrefix ++ (sent ++ if query = [] then [] else str "?" ++ query))) = some url ∧
      url.escapedPath = pathPrefix ++ due ∧ url.rawQuery = query := by
  obtain ⟨hvalid, ⟨p, hp⟩, ⟨hrooted, hrooted'⟩, ⟨hctl, hmark, hhash⟩, hqhash, honce, hencoded⟩ :=
    hkept
  obtain ⟨hpctl, hpmark, hphash⟩ := validEncoded_plain hvalid
  -- there is no fragment, and the first question mark is the one before the query
  have hfragment : cut (pathPrefix ++ (sent ++ if query = [] then [] else str "?" ++ query)) 0x23 =
      (pathPrefix ++ (sent ++ if query = [] then [] else str "?" ++ query), none) := by
    refine cut_of_not_mem ?_
    simp only [List.mem_append, not_or]
    refine ⟨hphash, hhash, ?_⟩
    rw [str_question]
    split <;> simp [hqhash]
  have hcut : cut (pathPrefix ++ (sent ++ if query = [] then [] else str "?" ++ query)) 0x3F =
      (pathPrefix ++ sent, if query = [] then none else some query) := by
    rw [cut_append hpmark, cut_append hmark, str_question]
    split <;> simp [cut]
  have hplain : containsCTLByte
      (pathPrefix ++ (sent ++ if query = [] then [] else str "?" ++ query)) = false := by
    rw [containsCTLByte_append, containsCTLByte_append, hpctl, hctl, str_question]
    split
    · rfl
    · rw [containsCTLByte_append, hquery]
      rfl
  have hroot : Rooted (pathPrefix ++ sent) := hrooted.append hrooted'
  obtain ⟨host, hhost⟩ := Option.isSome_iff_exists.mp hup.authority
  have hdecode : unescape .path (pathPrefix ++ sent) = some (p ++ v) := by
    rw [unescape_append hp, honce]
    rfl
  obtain ⟨url, hurl⟩ : ∃ url, { URL.zero with
      scheme := upstream.scheme
      host := host
      rawQuery := query }.setPath (pathPrefix ++ sent) = some url := by
    rw [URL.setPath, hdecode]
    exact ⟨_, rfl⟩
  have hrawQuery : (if query = [] then none else some query).getD [] = query := by
    split
    · rename_i hempty
      exact hempty.symm
    · rfl
  refine ⟨url, ?_, ?_, rawQuery_setPath hurl⟩
  · rw [parseURL_origin hup, hfragment]
    dsimp only
    rw [hcut, hroot.takeWhile.1, hroot.takeWhile.2, List.append_nil]
    dsimp only
    rw [hrawQuery]
    exact ⟨rfl, hplain, host, hhost, hurl⟩
  · obtain ⟨hurlPath, hback⟩ := URL.escapedPath_setPath hurl hroot
    rw [hdecode] at hurlPath
    rw [hback, validEncoded_append, hvalid, Bool.true_and, ← Option.some.inj hurlPath]
    by_cases hsent : validEncoded sent = true
    · rw [if_pos hsent] at hencoded ⊢
      rw [hencoded]
    · rw [if_neg hsent, hp] at hencoded
      rw [if_neg hsent, escape_append, Option.some.inj hencoded,
        hclient.due_of_invalid (Bool.eq_false_iff.mpr hsent)]

end Target

/-! ### What a received request has for a path -/

private theorem rooted_of_unescape {p path : GoString} (hrooted : Rooted p)
    (hpath : unescape .path p = some path) : Rooted path := by
  rcases hrooted with rfl | hhead
  · obtain rfl := Option.some.inj hpath
    exact .inl rfl
  · obtain ⟨t, rfl⟩ := List.head?_eq_some_iff.mp hhead
    rw [unescape_cons (by decide)] at hpath
    obtain ⟨path, -, rfl⟩ := Option.map_eq_some_iff.mp hpath
    exact .inr rfl

/-- A rooted text that decodes to a lone slash is one. -/
private theorem eq_slash_of_unescape {p : GoString} (hrooted : Rooted p)
    (hpath : unescape .path p = some (str "/")) : p = str "/" := by
  rw [str_slash] at hpath ⊢
  rcases hrooted with rfl | hhead
  · exact absurd (Option.some.inj hpath) (by simp)
  · obtain ⟨t, rfl⟩ := List.head?_eq_some_iff.mp hhead
    rw [unescape_cons (by decide)] at hpath
    obtain ⟨t', ht', heq⟩ := Option.map_eq_some_iff.mp hpath
    obtain rfl : t' = [] := (List.cons.inj heq).2
    rw [eq_nil_of_unescape ht']

section Received

variable [GoLib] {r : Request}

/-- The path of a received request, case by case. -/
private theorem received_path (hr : r.Received) :
    (r.pathText = str "*" ∧ r.escapedPath = str "*" ∧ r.path = str "*" ∧ r.rawPath = []) ∨
      ∃ p, Rooted p ∧ unescape .path p = some r.path ∧
        r.escapedPath = (if validEncoded p then p else escape .path r.path) ∧
        (r.rawPath = [] ∧ r.pathText = r.path ∧ p = escape .path r.path ∨
          r.rawPath ≠ [] ∧ r.pathText = p) := by
  obtain ⟨url, hurl, hpath, hraw, -⟩ := hr.url
  rcases (requestURL_target hurl).1 with ⟨hstar, hnil⟩ | ⟨hrooted, hdecode, htext⟩
  · rw [hstar] at hpath
    rw [hnil] at hraw
    refine .inl ⟨?_, ?_, hpath, hraw⟩
    · rw [Request.pathText, if_pos hraw, hpath]
    · rw [Request.escapedPath, hpath, hraw]
      decide
  · rename_i p
    rw [← hpath] at hdecode htext
    rw [← hraw] at htext
    refine .inr ⟨p, hrooted, hdecode, ?_, ?_⟩
    · have hset : URL.zero.setPath p =
          some { URL.zero with path := r.path, rawPath := r.rawPath } := by
        rw [URL.setPath, hdecode, htext]
        rfl
      exact (URL.escapedPath_setPath hset hrooted).2
    · rw [Request.pathText]
      by_cases hdefault : p = escape .path r.path
      · rw [if_pos hdefault] at htext
        exact .inl ⟨htext, if_pos htext, hdefault⟩
      · rw [if_neg hdefault] at htext
        have hne : r.rawPath ≠ [] := by
          intro hnil
          rw [htext] at hnil
          rw [hnil] at hdecode hdefault
          exact hdefault (by rw [← Option.some.inj hdecode]; rfl)
        exact .inr ⟨hne, (if_neg hne).trans htext⟩

omit [GoLib] in
/-- The front page, which a prefix leaves out. -/
private theorem clientPath_slash (pathPrefix : Option GoString) :
    ClientPath (clientPart (str "/") pathPrefix) (clientPart (str "/") pathPrefix)
        (clientPart (str "/") pathPrefix) ∧
      unescape .path (clientPart (str "/") pathPrefix) =
        some (clientPart (str "/") pathPrefix) := by
  have hpart : clientPart (str "/") pathPrefix = [] ∨
      clientPart (str "/") pathPrefix = str "/" := by
    rw [clientPart]
    split
    · exact .inl rfl
    · exact .inr rfl
  have hself : unescape .path (clientPart (str "/") pathPrefix) =
      some (clientPart (str "/") pathPrefix) := by
    rcases hpart with heq | heq <;> rw [heq]
    · exact unescape_nil _
    · exact unescape_of_plain (by decide)
  have hroot : Rooted (clientPart (str "/") pathPrefix) := by
    rcases hpart with heq | heq <;> rw [heq]
    · exact .inl rfl
    · exact .inr (by decide)
  refine ⟨⟨hself, fun hinvalid => ?_, .inl hroot, .inl rfl, .inl hroot⟩, hself⟩
  rcases hpart with heq | heq <;> rw [heq] at hinvalid
  · exact absurd hinvalid (by decide)
  · exact absurd hinvalid (by decide)

/-- **What a received request has for a path**, behind any prefix. The path is decoded once exactly
when it does not come decoded with a percent sign in it. -/
private theorem received_clientPath (hr : r.Received) (pathPrefix : Option GoString) :
    ∃ v, ClientPath (clientPart r.pathText pathPrefix) (clientPart r.escapedPath pathPrefix) v ∧
      (unescape .path (clientPart r.pathText pathPrefix) = some v ↔
        (r.rawPath = [] → 0x25 ∉ r.path)) := by
  have hslashPlain : 0x25 ∉ str "/" := by decide
  rcases received_path hr with ⟨htext, hescaped, hpath, -⟩ | ⟨p, hrooted, hdecode, hescaped, hcases⟩
  · have hstar : str "*" ≠ str "/" := by decide
    have hplain : 0x25 ∉ str "*" := by decide
    rw [htext, hescaped, hpath, clientPart_of_ne hstar]
    refine ⟨str "*", ⟨unescape_of_plain hplain, fun hinvalid => ?_, .inr rfl, .inl rfl,
      .inr ⟨rfl, rfl⟩⟩, iff_of_true (unescape_of_plain hplain) fun _ => hplain⟩
    exact absurd hinvalid (by decide)
  by_cases hslash : p = str "/"
  · -- the front page
    have hpath : r.path = str "/" := by
      rw [hslash, unescape_of_plain hslashPlain] at hdecode
      exact (Option.some.inj hdecode).symm
    have htext : r.pathText = str "/" := by
      rcases hcases with ⟨-, heq, -⟩ | ⟨-, heq⟩
      · rw [heq, hpath]
      · rw [heq, hslash]
    have hvalid : validEncoded (str "/") = true := by decide
    rw [hslash, if_pos hvalid] at hescaped
    rw [htext, hescaped, hpath]
    obtain ⟨hclient, hself⟩ := clientPath_slash pathPrefix
    exact ⟨_, hclient, iff_of_true hself fun _ => hslashPlain⟩
  · obtain ⟨hback, hdueDecode, hdueRooted⟩ := readBack_facts hdecode hrooted hescaped
    have hdue : r.escapedPath ≠ str "/" := by
      intro heq
      rw [heq, unescape_of_plain hslashPlain] at hdueDecode
      rw [← Option.some.inj hdueDecode] at hdecode
      exact hslash (eq_slash_of_unescape hrooted hdecode)
    have hpathSlash : r.path ≠ str "/" := by
      intro heq
      rw [heq] at hdecode
      exact hslash (eq_slash_of_unescape hrooted hdecode)
    rcases hcases with ⟨hraw, htext, hdefault⟩ | ⟨hraw, htext⟩
    -- the decoded path is sent, so a percent sign in it is decoded once more
    · rw [htext, clientPart_of_ne hpathSlash, clientPart_of_ne hdue]
      have hvalid : validEncoded p = true := by
        rw [hdefault]
        exact validEncoded_escape _
      rw [if_pos hvalid, hdefault] at hescaped
      refine ⟨r.path, ⟨hdueDecode, fun _ => hescaped, .inl hdueRooted, .inl rfl,
        .inl (rooted_of_unescape hrooted hdecode)⟩, fun honce _ hmem => ?_, fun hplain =>
          unescape_of_plain (hplain hraw)⟩
      exact absurd ((length_unescape honce).2 hmem) (lt_irrefl _)
    -- the raw path is sent as it was received
    · rw [htext, clientPart_of_ne hslash, clientPart_of_ne hdue]
      refine ⟨r.path, ⟨hdueDecode, fun hinvalid => ?_, .inl hdueRooted, .inr hdecode,
        .inl hrooted⟩, iff_of_true hdecode fun hnil => absurd hnil hraw⟩
      rw [hescaped, if_neg (ne_true_of_eq_false hinvalid)]

/-! ### What the upstream sees -/

/-- A request for the upstream has the client's escaped path behind the prefix, and the client's
query. -/
def ProxyRequest.KeepsTarget (req : ProxyRequest) (r : Request) (application : Option App) : Prop :=
  req.url.escapedPath = underPrefix r.escapedPath (pathPrefix application) ∧
    req.url.rawQuery = r.rawQuery

/-- When a target that is put together again is kept. -/
structure RebuiltKept (r : Request) (application : Option App) : Prop where
  /-- The prefix is empty or the text of a rooted path. -/
  prefix_valid : validEncoded ((pathPrefix application).getD []) = true
  prefix_decodes : ∃ p, unescape .path ((pathPrefix application).getD []) = some p
  prefix_rooted : Rooted ((pathPrefix application).getD [])
  /-- Without a prefix the path itself is rooted. -/
  sent_rooted : (pathPrefix application).getD [] = [] →
    Rooted (clientPart r.pathText (pathPrefix application))
  /-- The path in the target URL has no control byte, no question mark and no fragment sign. -/
  sent_plain : containsCTLByte (clientPart r.pathText (pathPrefix application)) = false ∧
    0x3F ∉ clientPart r.pathText (pathPrefix application) ∧
    0x23 ∉ clientPart r.pathText (pathPrefix application)
  /-- The query has no fragment sign. -/
  query_plain : 0x23 ∉ r.rawQuery
  /-- A path that comes decoded has no percent sign left. -/
  once : r.rawPath = [] → 0x25 ∉ r.path
  /-- The path in the target URL is the client's escaped path, or it has a byte that is encoded once
  more, and then the prefix has the default encoding. -/
  encoded : if validEncoded (clientPart r.pathText (pathPrefix application)) then
      clientPart r.pathText (pathPrefix application) =
        clientPart r.escapedPath (pathPrefix application)
    else (unescape .path ((pathPrefix application).getD [])).map (escape .path) =
      some ((pathPrefix application).getD [])

/-- The parts of a request for the upstream that come from the target URL. -/
private theorem proxyRequest_eq_some (hr : r.Received) {application : Option App}
    {upstream : Upstream} {clientIP path query : GoString} :
    (∃ req, proxyRequest r application upstream clientIP = some req ∧
        req.url.escapedPath = path ∧ req.url.rawQuery = query) ↔
      ∃ url, parseURL (targetURL r application upstream) = some url ∧
        url.escapedPath = path ∧ url.rawQuery = query := by
  have hmethod : r.method ≠ [] := by
    intro hnil
    have hvalid := hr.method
    rw [hnil] at hvalid
    exact absurd hvalid (by decide)
  rw [proxyRequest, newRequest, if_neg hmethod]
  dsimp only
  rw [if_neg (by simp [hr.method])]
  cases parseURL (targetURL r application upstream) with
  | none => simp
  | some url =>
    -- neither the `Host` nor the headers have a part in the target
    cases application with
    | none => simp [URL.escapedPath]
    | some app => simp [URL.escapedPath]

/-- **A target that is put together is kept under these conditions and no others.** Where the path
comes decoded, with a question mark or a percent sign in it, the upstream sees another target than
the client sent. -/
theorem proxyRequest_kept_iff {application : Option App} {upstream : Upstream}
    {clientIP : GoString} (hr : r.Received) (hup : upstream.IsOrigin) :
    (∃ req, proxyRequest r application upstream clientIP = some req ∧
      req.KeepsTarget r application) ↔ RebuiltKept r application := by
  obtain ⟨url, hurl, -, -, hquery⟩ := hr.url
  have hqueryPlain : containsCTLByte r.rawQuery = false := by
    rw [hquery]
    exact (requestURL_target hurl).2
  obtain ⟨v, hclient, honce⟩ := received_clientPath hr (pathPrefix application)
  simp only [ProxyRequest.KeepsTarget]
  rw [proxyRequest_eq_some hr, targetURL, forwardedPath, forwardedQuery,
    underPrefix_eq, underPrefix_eq, List.append_assoc, List.append_assoc]
  constructor
  · rintro ⟨url, hparse, hpath, hrawQuery⟩
    have hkept := kept_of_parsed hup hclient hparse hpath hrawQuery
    exact ⟨hkept.prefix_valid, hkept.prefix_decodes, hkept.rooted.1, hkept.rooted.2,
      hkept.sent_plain, hkept.query_plain, honce.mp hkept.once, hkept.encoded⟩
  · intro hkept
    exact parsed_of_kept hup hclient hqueryPlain
      ⟨hkept.prefix_valid, hkept.prefix_decodes, ⟨hkept.prefix_rooted, hkept.sent_rooted⟩,
        hkept.sent_plain, hkept.query_plain, honce.mpr hkept.once, hkept.encoded⟩

end Received

/-- An upstream in the local network. -/
def plainUpstream : Upstream where
  scheme := str "http"
  host := str "10.0.0.5"
  port := 8080
  enabled := true
  healthy := true

end VibesWaf

import VibesWaf.Go.NetUrl

/-!
# URLs of `net/url`

`parseURL` is `url.Parse` and `parseRequestURI` is `url.ParseRequestURI`, and `URL.escapedPath` is
the path as a request line has it. A `URL` keeps the parts the firewall reads or sends; whether a
lone `?` ended the text, and what a fragment says, is not kept.

A path is stored decoded, with its text beside it unless the text is the default encoding.
`escapedPath_setPath` says what becomes of a text that is stored and read back: it stays when each
of its bytes may stand in a path, and is encoded again when one may not. `parseURL_absolute` takes
the parser through a text that starts with a scheme and an authority.
-/

namespace VibesWaf

/-- A `url.URL`. -/
structure URL where
  scheme : GoString
  /-- `Opaque`. -/
  opaqueData : GoString
  host : GoString
  /-- `Path`, decoded. -/
  path : GoString
  /-- `RawPath`: the text of the path when it is not the default encoding of `path`. -/
  rawPath : GoString
  rawQuery : GoString
  deriving DecidableEq

/-- The zero value of `url.URL`. -/
def URL.zero : URL :=
  ⟨[], [], [], [], [], []⟩

/-- `stringContainsCTLByte`. -/
def containsCTLByte (s : GoString) : Bool :=
  s.any fun b => b < 0x20 || b == 0x7F

/-- The loop of `getScheme`, with the bytes seen so far; `none` is an error, and no scheme is the
empty one, before the whole text. -/
def getSchemeLoop (rawURL : GoString) : GoString → GoString → Option (GoString × GoString)
  | _, [] => some ([], rawURL)
  | seen, c :: s =>
    if (0x61 ≤ c ∧ c ≤ 0x7A) ∨ (0x41 ≤ c ∧ c ≤ 0x5A) then getSchemeLoop rawURL (seen ++ [c]) s
    else if (0x30 ≤ c ∧ c ≤ 0x39) ∨ c ∈ str "+-." then
      if seen = [] then some ([], rawURL) else getSchemeLoop rawURL (seen ++ [c]) s
    else if c = 0x3A then if seen = [] then none else some (seen, s)
    else some ([], rawURL)

/-- `getScheme`. -/
def getScheme (rawURL : GoString) : Option (GoString × GoString) :=
  getSchemeLoop rawURL [] rawURL

/-- `setPath`; `none` is an error. -/
def URL.setPath (u : URL) (p : GoString) : Option URL :=
  (unescape .path p).map fun path =>
    { u with path := path, rawPath := if p = escape .path path then [] else p }

/-- `EscapedPath`. -/
def URL.escapedPath (u : URL) : GoString :=
  if u.rawPath ≠ [] ∧ validEncoded u.rawPath = true ∧ unescape .path u.rawPath = some u.path then
    u.rawPath
  else if u.path = str "*" then str "*"
  else escape .path u.path

section Parse

variable [GoLib]

/-- The end of `parse`: the authority, if there is one, and the path. -/
def URL.parseHierarchy (viaRequest : Bool) (u : URL) (rest : GoString) : Option URL :=
  if (u.scheme ≠ [] ∨ viaRequest = false ∧ hasPrefix rest (str "///") = false) ∧
      hasPrefix rest (str "//") = true then
    match GoLib.parseAuthority ((rest.drop 2).takeWhile (· ≠ 0x2F)) with
    | none => none
    | some host => { u with host := host }.setPath ((rest.drop 2).dropWhile (· ≠ 0x2F))
  else u.setPath rest

/-- `parse`; `none` is an error. -/
def URL.parse (viaRequest : Bool) (rawURL : GoString) : Option URL :=
  if containsCTLByte rawURL = true then none
  else if rawURL = [] ∧ viaRequest = true then none
  else if rawURL = str "*" then some { URL.zero with path := str "*" }
  else
    match getScheme rawURL with
    | none => none
    | some (scheme, rest) =>
      -- a lone question mark at the end is cut off here as well
      let u := { URL.zero with
        scheme := toLower scheme
        rawQuery := (cut rest 0x3F).2.getD [] }
      let rest := (cut rest 0x3F).1
      if hasPrefix rest (str "/") = false then
        if u.scheme ≠ [] then some { u with opaqueData := rest }
        else if viaRequest = true then none
        else if 0x3A ∈ (cut rest 0x2F).1 then none
        else URL.parseHierarchy viaRequest u rest
      else URL.parseHierarchy viaRequest u rest

/-- `url.Parse`: the text after the first `#` is a fragment, which has to decode. -/
def parseURL (rawURL : GoString) : Option URL :=
  match URL.parse false (cut rawURL 0x23).1 with
  | none => none
  | some url =>
    if (unescape .fragment ((cut rawURL 0x23).2.getD [])).isSome then some url else none

/-- `url.ParseRequestURI`: there is no fragment to cut off. -/
def parseRequestURI (rawURL : GoString) : Option URL :=
  URL.parse true rawURL

end Parse

/-! ### Paths that are stored and read back -/

/-- **A path text that is stored and read back** stays as it is when each of its bytes may stand in
a path, and is encoded again otherwise. -/
theorem URL.escapedPath_setPath {u url : URL} {p : GoString} (h : u.setPath p = some url)
    (hrooted : p = [] ∨ p.head? = some 0x2F) :
    unescape .path p = some url.path ∧
      url.escapedPath = if validEncoded p then p else escape .path url.path := by
  obtain ⟨path, hpath, rfl⟩ := Option.map_eq_some_iff.mp h
  refine ⟨hpath, ?_⟩
  -- the path a lone `*` decodes to is not rooted
  have hstar : path ≠ str "*" := by
    rintro rfl
    rcases hrooted with rfl | hhead
    · exact absurd (Option.some.inj hpath) (by decide)
    · obtain ⟨rest, rfl⟩ := List.head?_eq_some_iff.mp hhead
      rw [unescape_cons (by decide)] at hpath
      obtain ⟨path, -, heq⟩ := Option.map_eq_some_iff.mp hpath
      have hslash : some (0x2F : UInt8) ≠ (str "*").head? := by decide
      exact hslash (congrArg List.head? heq)
  rw [URL.escapedPath]
  dsimp only
  rw [if_neg hstar]
  by_cases hdefault : p = escape .path path
  · rw [if_pos hdefault, if_neg (by simp), hdefault, validEncoded_escape, if_pos rfl]
  · rw [if_neg hdefault]
    have hne : p ≠ [] := by
      rintro rfl
      obtain rfl := Option.some.inj hpath
      exact hdefault rfl
    by_cases hvalid : validEncoded p = true
    · rw [if_pos ⟨hne, hvalid, hpath⟩, if_pos hvalid]
    · rw [if_neg fun hall => hvalid hall.2.1, if_neg hvalid]

/-! ### What a request target leaves -/

/-- What parsing a request target leaves: a lone `*`, or a rooted path that was stored. -/
inductive URL.Target (url : URL) : Prop
  | star (hpath : url.path = str "*") (hraw : url.rawPath = [])
  | stored {p : GoString} (hrooted : p = [] ∨ p.head? = some 0x2F)
      (hpath : unescape .path p = some url.path)
      (hraw : url.rawPath = if p = escape .path url.path then [] else p)

private theorem target_setPath {u url : URL} {p : GoString} (h : u.setPath p = some url)
    (hrooted : p = [] ∨ p.head? = some 0x2F) : url.Target := by
  obtain ⟨path, hpath, rfl⟩ := Option.map_eq_some_iff.mp h
  exact .stored hrooted hpath rfl

theorem rooted_dropWhile (s : GoString) :
    s.dropWhile (· ≠ 0x2F) = [] ∨ (s.dropWhile (· ≠ 0x2F)).head? = some 0x2F := by
  cases hdrop : s.dropWhile (· ≠ 0x2F) with
  | nil => exact .inl rfl
  | cons c t =>
    have hhead := List.head_dropWhile_not (fun c : UInt8 => decide (c ≠ 0x2F))
      (by rw [hdrop]; exact List.cons_ne_nil c t)
    simp only [hdrop, List.head_cons, decide_eq_false_iff_not, not_not] at hhead
    exact .inr (by rw [hhead]; rfl)

theorem hasPrefix_slash_iff {s : GoString} :
    hasPrefix s (str "/") = true ↔ s.head? = some 0x2F := by
  rw [str_slash]
  cases s with
  | nil => simp [hasPrefix]
  | cons c s =>
    rw [hasPrefix, List.isPrefixOf_cons_cons, List.isPrefixOf_nil_left, Bool.and_true, beq_iff_eq,
      List.head?_cons, Option.some.injEq]
    exact eq_comm

/-- The scheme is cut off the front. -/
private theorem getSchemeLoop_subset {rawURL seen s scheme rest : GoString}
    (hs : ∀ c ∈ s, c ∈ rawURL) (h : getSchemeLoop rawURL seen s = some (scheme, rest)) :
    ∀ c ∈ rest, c ∈ rawURL := by
  induction s generalizing seen with
  | nil =>
    obtain ⟨-, rfl⟩ := Prod.mk.inj (Option.some.inj h)
    exact fun c hc => hc
  | cons d s ih =>
    have hs' : ∀ c ∈ s, c ∈ rawURL := fun c hc => hs c (List.mem_cons_of_mem _ hc)
    have hall {sch : GoString} (h' : some (sch, rawURL) = some (scheme, rest)) :
        ∀ c ∈ rest, c ∈ rawURL := by
      obtain ⟨-, rfl⟩ := Prod.mk.inj (Option.some.inj h')
      exact fun c hc => hc
    rw [getSchemeLoop] at h
    split at h
    · exact ih hs' h
    split at h
    · split at h
      · exact hall h
      · exact ih hs' h
    split at h
    · split at h
      · exact absurd h (by simp)
      · obtain ⟨-, rfl⟩ := Prod.mk.inj (Option.some.inj h)
        exact hs'
    · exact hall h

/-- What is cut off after a separator is part of the text. -/
private theorem cut_snd_subset (s : GoString) (sep : UInt8) :
    ∀ c ∈ (cut s sep).2.getD [], c ∈ s := by
  intro c hc
  rw [cut] at hc
  cases hdrop : s.dropWhile (· ≠ sep) with
  | nil =>
    rw [hdrop] at hc
    exact absurd hc (by simp)
  | cons d t =>
    rw [hdrop] at hc
    exact (List.dropWhile_suffix _).subset (hdrop ▸ List.mem_cons_of_mem _ hc)

theorem rawQuery_setPath {u url : URL} {p : GoString} (h : u.setPath p = some url) :
    url.rawQuery = u.rawQuery := by
  obtain ⟨path, -, rfl⟩ := Option.map_eq_some_iff.mp h
  rfl

/-! ### Parsing a URL with a scheme and an authority -/

theorem containsCTLByte_append (s t : GoString) :
    containsCTLByte (s ++ t) = (containsCTLByte s || containsCTLByte t) :=
  List.any_append

/-- The bytes of an authority. -/
def plainAuthority (s : GoString) : Bool :=
  !containsCTLByte s && !(s.any fun c => c ∈ str "/?#")

variable [GoLib]

omit [GoLib] in
/-- The two schemes end at the first colon. -/
private theorem getScheme_http {scheme : GoString}
    (hscheme : scheme = str "http" ∨ scheme = str "https") (rest : GoString) :
    getScheme (scheme ++ 0x3A :: rest) = some (scheme, rest) := by
  have hhttp : str "http" = [0x68, 0x74, 0x74, 0x70] := by decide
  have hhttps : str "https" = [0x68, 0x74, 0x74, 0x70, 0x73] := by decide
  have hsigns : (0x3A : UInt8) ∉ str "+-." := by decide
  rw [getScheme]
  rcases hscheme with rfl | rfl
  · rw [hhttp]
    simp [getSchemeLoop, hsigns]
  · rw [hhttps]
    simp [getSchemeLoop, hsigns]

omit [GoLib] in
/-- The scheme and a plain authority hold no control byte. -/
private theorem containsCTLByte_absolute {scheme authority : GoString}
    (hscheme : scheme = str "http" ∨ scheme = str "https")
    (hctl : containsCTLByte authority = false) (tail : GoString) :
    containsCTLByte (scheme ++ str "://" ++ authority ++ tail) = containsCTLByte tail := by
  have hfront : containsCTLByte (scheme ++ str "://") = false := by
    rcases hscheme with rfl | rfl <;> decide
  rw [containsCTLByte_append, containsCTLByte_append, hfront, hctl, Bool.false_or, Bool.false_or]

omit [GoLib] in
private theorem absolute_ne_star {scheme : GoString}
    (hscheme : scheme = str "http" ∨ scheme = str "https") (rest : GoString) :
    scheme ++ rest ≠ str "*" := by
  intro heq
  have hlength := congrArg List.length heq
  have hscheme₄ : 4 ≤ scheme.length := by
    rcases hscheme with rfl | rfl <;> decide
  have hone : (str "*").length = 1 := by decide
  rw [List.length_append] at hlength
  omega

omit [GoLib] in
/-- The scheme ends before the two slashes of the authority. -/
private theorem getScheme_absolute {scheme : GoString}
    (hscheme : scheme = str "http" ∨ scheme = str "https") (authority tail : GoString) :
    getScheme (scheme ++ str "://" ++ authority ++ tail) =
      some (scheme, str "//" ++ authority ++ tail) := by
  have hcolon : str "://" = 0x3A :: str "//" := by decide
  have hrest : scheme ++ str "://" ++ authority ++ tail =
      scheme ++ 0x3A :: (str "//" ++ authority ++ tail) := by
    rw [hcolon]
    simp
  rw [hrest, getScheme_http hscheme]

/-- **Parsing an absolute URL**, part by part. What stands between the authority and the first
slash becomes part of the authority. -/
theorem URL.parse_absolute {scheme authority : GoString}
    (hscheme : scheme = str "http" ∨ scheme = str "https") (hauthority : plainAuthority authority)
    (tail : GoString) :
    URL.parse false (scheme ++ str "://" ++ authority ++ tail) =
      if containsCTLByte tail then none
      else
        match GoLib.parseAuthority
            (authority ++ (cut tail 0x3F).1.takeWhile (· ≠ 0x2F)) with
        | none => none
        | some host =>
          { URL.zero with
            scheme := scheme
            host := host
            rawQuery := (cut tail 0x3F).2.getD [] }.setPath
              ((cut tail 0x3F).1.dropWhile (· ≠ 0x2F)) := by
  rw [plainAuthority, Bool.and_eq_true, Bool.not_eq_true', Bool.not_eq_true'] at hauthority
  obtain ⟨hctl, hplain⟩ := hauthority
  have hbytes : ∀ c ∈ authority, c ≠ 0x2F ∧ c ≠ 0x3F := by
    intro c hc
    have hnot := List.any_eq_false.mp hplain c hc
    refine ⟨?_, ?_⟩ <;> rintro rfl <;> exact hnot (by decide)
  have hstar : scheme ++ str "://" ++ authority ++ tail ≠ str "*" := by
    rw [List.append_assoc, List.append_assoc]
    exact absolute_ne_star hscheme _
  have hcut : cut (str "//" ++ authority ++ tail) 0x3F =
      (str "//" ++ authority ++ (cut tail 0x3F).1, (cut tail 0x3F).2) := by
    refine cut_append ?_ tail
    rw [List.mem_append]
    rintro (hmem | hmem)
    · exact absurd hmem (by decide)
    · exact (hbytes _ hmem).2 rfl
  have hlower : toLower scheme = scheme := by
    rcases hscheme with rfl | rfl <;> rfl
  have hne : scheme ≠ [] := by
    rcases hscheme with rfl | rfl <;> decide
  rw [URL.parse]
  rw [containsCTLByte_absolute hscheme hctl, getScheme_absolute hscheme,
    if_neg (fun h : _ ∧ false = true => Bool.false_ne_true h.2), if_neg hstar]
  split
  · rfl
  dsimp only
  rw [hcut, hlower]
  dsimp only
  -- the rest starts with two slashes
  have hone (t : GoString) : hasPrefix (str "//" ++ authority ++ t) (str "/") = true := by
    rw [str_slashes, str_slash]
    rfl
  have htwo (t : GoString) : hasPrefix (str "//" ++ authority ++ t) (str "//") = true := by
    rw [str_slashes]
    rfl
  have hdrop (t : GoString) : (str "//" ++ authority ++ t).drop 2 = authority ++ t := by
    rw [str_slashes]
    rfl
  have hname : ∀ c ∈ authority, decide (c ≠ 0x2F) = true :=
    fun c hc => decide_eq_true (hbytes c hc).1
  rw [hone, if_neg (by simp), URL.parseHierarchy, if_pos ⟨.inl hne, htwo _⟩, hdrop,
    List.takeWhile_append_of_pos hname, List.dropWhile_append_of_pos hname]

/-- What comes after the scheme and the query leaves the query as it is, and sets a path that starts
with a slash or is empty. -/
private theorem setPath_of_parseHierarchy {viaRequest : Bool} {u url : URL} {rest : GoString}
    (h : URL.parseHierarchy viaRequest u rest = some url) :
    ∃ (u' : URL) (path : GoString), u'.rawQuery = u.rawQuery ∧ u'.setPath path = some url ∧
      (hasPrefix rest (str "/") = true → path = [] ∨ path.head? = some 0x2F) := by
  rw [URL.parseHierarchy] at h
  split at h
  · split at h
    · exact absurd h (by simp)
    · rename_i host _
      exact ⟨{ u with host := host }, _, rfl, h, fun _ => rooted_dropWhile _⟩
  · exact ⟨_, _, rfl, h, fun hslash => .inr (hasPrefix_slash_iff.mp hslash)⟩

/-- The path of a parsed request target. -/
theorem parseRequestURI_target {target : GoString} {url : URL}
    (h : parseRequestURI target = some url) : url.Target := by
  unfold parseRequestURI URL.parse at h
  split at h
  · exact absurd h (by simp)
  split at h
  · exact absurd h (by simp)
  split at h
  · obtain rfl := Option.some.inj h
    exact .star rfl rfl
  split at h
  · exact absurd h (by simp)
  dsimp only at h
  split at h
  · split at h
    · obtain rfl := Option.some.inj h
      exact .stored (.inl rfl) rfl rfl
    · rw [if_pos rfl] at h
      exact absurd h (by simp)
  · rename_i hslash
    obtain ⟨u, path, -, hset, hrooted⟩ := setPath_of_parseHierarchy h
    exact target_setPath hset (hrooted (by simpa using hslash))

/-- The query of a parsed request target has no control byte. -/
theorem parseRequestURI_rawQuery {target : GoString} {url : URL}
    (h : parseRequestURI target = some url) : containsCTLByte url.rawQuery = false := by
  unfold parseRequestURI URL.parse at h
  split at h
  · exact absurd h (by simp)
  rename_i hctl
  have hpart {rest scheme : GoString} (hget : getScheme target = some (scheme, rest)) :
      containsCTLByte ((cut rest 0x3F).2.getD []) = false := by
    refine List.any_eq_false.mpr fun c hc hbad => hctl ?_
    have hmem := getSchemeLoop_subset (fun _ h => h) hget c (cut_snd_subset _ _ c hc)
    exact List.any_eq_true.mpr ⟨c, hmem, hbad⟩
  split at h
  · exact absurd h (by simp)
  split at h
  · obtain rfl := Option.some.inj h
    rfl
  split at h
  · exact absurd h (by simp)
  rename_i hget
  dsimp only at h
  split at h
  · split at h
    · obtain rfl := Option.some.inj h
      exact hpart hget
    · rw [if_pos rfl] at h
      exact absurd h (by simp)
  · obtain ⟨u, path, hquery, hset, -⟩ := setPath_of_parseHierarchy h
    rw [rawQuery_setPath hset, hquery]
    exact hpart hget

/-- The URL `net/http` makes of a request line. -/
def requestURL (method target : GoString) : Option URL :=
  if method = str "CONNECT" ∧ hasPrefix target (str "/") = false then
    (parseRequestURI (str "http://" ++ target)).map fun url => { url with scheme := [] }
  else parseRequestURI target

omit [GoLib] in
private theorem getScheme_of_slash {s : GoString} (h : s.head? = some 0x2F) :
    getScheme s = some ([], s) := by
  obtain ⟨rest, rfl⟩ := List.head?_eq_some_iff.mp h
  have hsigns : (0x2F : UInt8) ∉ str "+-." := by decide
  simp [getScheme, getSchemeLoop, hsigns]

/-- **A plain request target** is its own path: there is nothing in it to decode or to cut off. -/
theorem requestURL_of_plain {target : GoString} (hslash : target.head? = some 0x2F)
    (hctl : containsCTLByte target = false) (hquery : 0x3F ∉ target) (hpercent : 0x25 ∉ target)
    (method : GoString) : ∃ url, requestURL method target = some url ∧ url.path = target := by
  have hslashed : hasPrefix target (str "/") = true := hasPrefix_slash_iff.mpr hslash
  have hne : target ≠ [] := by
    rintro rfl
    cases hslash
  have hstar : target ≠ str "*" := by
    rintro rfl
    exact absurd hslash (by decide)
  have hcut : cut target 0x3F = (target, none) := cut_of_not_mem hquery
  rw [requestURL, if_neg (fun h => Bool.false_ne_true (h.2.symm.trans hslashed)), parseRequestURI,
    URL.parse, if_neg (by rw [hctl]; exact Bool.false_ne_true), if_neg (fun h => hne h.1),
    if_neg hstar, getScheme_of_slash hslash]
  dsimp only
  rw [hcut]
  dsimp only
  -- the text has no scheme, so it is no authority that follows the first slash
  have hscheme : toLower ([] : GoString) = [] := rfl
  rw [if_neg (by rw [hslashed]; simp), URL.parseHierarchy,
    if_neg (fun h => h.1.elim (fun hs => hs hscheme) fun hv => absurd hv.1 (by simp)),
    URL.setPath, unescape_of_plain hpercent]
  exact ⟨_, rfl, rfl⟩

/-- **Request targets.** -/
theorem requestURL_target {method target : GoString} {url : URL}
    (h : requestURL method target = some url) :
    url.Target ∧ containsCTLByte url.rawQuery = false := by
  rw [requestURL] at h
  split at h
  · obtain ⟨url, hurl, rfl⟩ := Option.map_eq_some_iff.mp h
    have hquery := parseRequestURI_rawQuery hurl
    refine ⟨?_, hquery⟩
    rcases parseRequestURI_target hurl with ⟨hpath, hraw⟩ | ⟨hrooted, hpath, hraw⟩
    · exact .star hpath hraw
    · exact .stored hrooted hpath hraw
  · exact ⟨parseRequestURI_target h, parseRequestURI_rawQuery h⟩

end VibesWaf

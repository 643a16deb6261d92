import VibesWaf.Go.Strings

/-!
# Requests of `net/http`

A `Request` is what the firewall reads of an `http.Request`: the parts of its URL, its header and
its connection. The header maps a canonical name to its values; the cookies are the ones
`net/http` parses from it, in order.
-/

namespace VibesWaf

/-- An `http.Request`. -/
structure Request where
  method : GoString
  /-- `URL.Path`, decoded. -/
  path : GoString
  /-- `URL.RawPath`: the text of the path when it is not the default encoding of `path`. -/
  rawPath : GoString
  /-- `URL.RawQuery`. -/
  rawQuery : GoString
  requestURI : GoString
  host : GoString
  proto : GoString
  header : GoString → List GoString
  cookies : List (GoString × GoString)
  remoteAddr : GoString
  /-- `TLS != nil`. -/
  tls : Bool

namespace Request

/-- `Header.Get`. -/
def get (r : Request) (key : GoString) : GoString :=
  (r.header key).headD []

/-- `Request.UserAgent`. -/
def userAgent (r : Request) : GoString :=
  r.get (str "User-Agent")

/-- `Request.Cookie`: the value of the first cookie of a name. -/
def cookie (r : Request) (name : GoString) : Option GoString :=
  (r.cookies.find? fun c => c.1 = name).map Prod.snd

end Request

/-- The position of the last occurrence of a byte. -/
def lastIndexByte (s : GoString) (c : UInt8) : Option ℕ :=
  (s.reverse.findIdx? (· = c)).map fun i => s.length - 1 - i

/-- `net.SplitHostPort`; `none` is an error. -/
def splitHostPort (hostport : GoString) : Option (GoString × GoString) :=
  match lastIndexByte hostport 0x3A with
  | none => none
  | some i =>
    let port := hostport.drop (i + 1)
    if hostport.head? = some 0x5B then
      match hostport.findIdx? (· = 0x5D) with
      | none => none
      | some close =>
        if close + 1 ≠ i then none
        else if 0x5B ∈ hostport.drop 1 ∨ 0x5D ∈ hostport.drop (close + 1) then none
        else some ((hostport.take close).drop 1, port)
    else if 0x3A ∈ hostport.take i then none
    else if 0x5B ∈ hostport ∨ 0x5D ∈ hostport then none
    else some (hostport.take i, port)

end VibesWaf

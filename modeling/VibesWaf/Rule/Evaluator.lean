import VibesWaf.Rule.Types

/-!
# The evaluator of compiled rules

`evaluate` is `Evaluator.Evaluate`: a compiled tree against the values of one request. A
`RequestContext` is the interface the evaluator reads through, with the metadata map given by
the three keys it looks up. Field and rule values are compared as text, or as integers of 64
bits for the ordering operators; `toInt` reads the digits of a text and skips everything else.

The source caches compiled patterns by their text, which does not show in any result and is left
out. Where the source returns a boolean next to an error, every caller looks at the error first,
so an error stands alone here.
-/

namespace VibesWaf

/-- What a rule can read of a request. -/
structure RequestContext where
  clientIP : GoString
  host : GoString
  path : GoString
  query : GoString
  method : GoString
  userAgent : GoString
  scheme : GoString
  proto : GoString
  header : GoString → GoString
  /-- The metadata map's entry `asn`. -/
  asn : Option UInt64
  /-- The metadata map's entry `country`. -/
  country : Option GoString
  /-- The metadata map's entry `is_datacenter`. -/
  isDatacenter : Option Bool

/-- The value extracted for a field. -/
inductive FieldValue
  | string (s : GoString)
  | int (n : Int64)
  | bool (b : Bool)

/-! ### Conversions -/

/-- `toString` of a field value. -/
def FieldValue.toString : FieldValue → GoString
  | .string s => s
  | .int n => itoa n.toInt
  | .bool b => if b then str "true" else str "false"

/-- `toString` of a rule value: a list has no text. -/
def Value.toString : Value → GoString
  | .string s => s
  | .none => []
  | .list _ => []

/-- The number the digits of a text spell, wrapping at 64 bits; other characters are skipped. -/
def digitsToInt (s : GoString) : Int64 :=
  s.foldl (fun num c => if isDigit c then num * 10 + Int64.ofNat (c.toNat - 0x30) else num) 0

/-- `toInt` of a field value. -/
def FieldValue.toInt : FieldValue → Int64
  | .int n => n
  | .string s => digitsToInt s
  | .bool _ => 0

/-- `toInt` of a rule value. -/
def Value.toInt : Value → Int64
  | .string s => digitsToInt s
  | .none => 0
  | .list _ => 0

section Evaluate

variable [GoLib]

/-! ### Field extraction -/

/-- `isMobileUA`. -/
def isMobileUA (ua : GoString) : Bool :=
  let ua := toLower ua
  [str "mobile", str "android", str "iphone", str "ipod", str "blackberry", str "windows phone",
    str "opera mini"].any fun kw =>
      contains ua kw && !contains ua (str "ipad") && !contains ua (str "tablet")

/-- `isTabletUA`. -/
def isTabletUA (ua : GoString) : Bool :=
  let ua := toLower ua
  [str "ipad", str "tablet", str "kindle"].any (contains ua)

/-- `extractField`. -/
def extractField (field : GoString) (ctx : RequestContext) : FieldValue :=
  if field = str "ip.src" then .string ctx.clientIP
  else if field = str "ip.is_datacenter" then .bool (ctx.isDatacenter.getD false)
  else if field = str "asn" then .int ((ctx.asn.map UInt64.toInt64).getD 0)
  else if field = str "country" then .string ((ctx.country.map toUpper).getD [])
  else if field = str "http.host" then .string ctx.host
  else if field = str "http.path" then .string ctx.path
  else if field = str "http.query" then .string ctx.query
  else if field = str "http.method" then .string ctx.method
  else if field = str "http.ua" then .string ctx.userAgent
  else if field = str "http.scheme" then .string ctx.scheme
  else if field = str "http.version" then .string ctx.proto
  else if field = str "http.cookie" then .string (ctx.header (str "Cookie"))
  else if field = str "http.referer" then .string (ctx.header (str "Referer"))
  else if field = str "http.accept" then .string (ctx.header (str "Accept"))
  else if field = str "client.is_mobile" ∨ field = str "device.is_mobile" then
    .bool (isMobileUA ctx.userAgent)
  else if field = str "client.is_desktop" ∨ field = str "device.is_desktop" then
    .bool (!isMobileUA ctx.userAgent && !isTabletUA ctx.userAgent)
  else if field = str "client.is_tablet" ∨ field = str "device.is_tablet" then
    .bool (isTabletUA ctx.userAgent)
  else .string []

/-! ### Operators -/

/-- `evalEquals`. -/
def evalEquals (fieldValue : FieldValue) (ruleValue : Value) : Bool :=
  fieldValue.toString == ruleValue.toString

/-- `evalIn`: membership in a list, or in the comma-separated parts of a text. -/
def evalIn (fieldValue : FieldValue) : Value → Bool
  | .list values => values.any (fieldValue.toString == ·)
  | v => (split v.toString 0x2C).any fun part => fieldValue.toString == trimSpace part

/-- `evalContains`. -/
def evalContains (fieldValue : FieldValue) (ruleValue : Value) : Bool :=
  contains (toLower fieldValue.toString) (toLower ruleValue.toString)

/-- `evalRegex`. -/
def evalRegex (fieldValue : FieldValue) (ruleValue : Value) : Except RuleError Bool :=
  match GoLib.regexpCompile ruleValue.toString with
  | .error e => .error (.invalidRegex e)
  | .ok re => .ok (re fieldValue.toString)

/-- `evalExists`. -/
def evalExists (fieldValue : FieldValue) : Bool :=
  fieldValue.toString != []

/-- `evaluateComparison`. -/
def evaluateComparison (field operator : GoString) (value : Value) (ctx : RequestContext) :
    Except RuleError Bool :=
  let fieldValue := extractField field ctx
  if operator = str "eq" then .ok (evalEquals fieldValue value)
  else if operator = str "neq" then .ok (!evalEquals fieldValue value)
  else if operator = str "in" then .ok (evalIn fieldValue value)
  else if operator = str "not_in" then .ok (!evalIn fieldValue value)
  else if operator = str "contains" then .ok (evalContains fieldValue value)
  else if operator = str "not_contains" then .ok (!evalContains fieldValue value)
  else if operator = str "prefix" then .ok (hasPrefix fieldValue.toString value.toString)
  else if operator = str "suffix" then .ok (hasSuffix fieldValue.toString value.toString)
  else if operator = str "regex" then evalRegex fieldValue value
  else if operator = str "not_regex" then (evalRegex fieldValue value).map (!·)
  else if operator = str "gt" then .ok (decide (value.toInt < fieldValue.toInt))
  else if operator = str "lt" then .ok (decide (fieldValue.toInt < value.toInt))
  else if operator = str "gte" then .ok (decide (value.toInt ≤ fieldValue.toInt))
  else if operator = str "lte" then .ok (decide (fieldValue.toInt ≤ value.toInt))
  else if operator = str "exists" then .ok (evalExists fieldValue)
  else if operator = str "not_exists" then .ok (!evalExists fieldValue)
  else .error (.unknownOperator operator)

/-- `Evaluator.Evaluate`. -/
def evaluate : Node → RequestContext → Except RuleError Bool
  | .nil, _ => .error .nodeIsNil
  | .comparison field operator value, ctx => evaluateComparison field operator value ctx
  | .logical operator left right, ctx =>
    if toUpper operator = str "AND" then
      match evaluate left ctx with
      | .error e => .error e
      | .ok false => .ok false
      | .ok true => evaluate right ctx
    else if toUpper operator = str "OR" then
      match evaluate left ctx with
      | .error e => .error e
      | .ok true => .ok true
      | .ok false => evaluate right ctx
    else if toUpper operator = str "NOT" then
      match evaluate left ctx with
      | .error e => .error e
      | .ok result => .ok !result
    else .error (.unknownLogicalOperator operator)

end Evaluate

end VibesWaf

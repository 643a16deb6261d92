import VibesWaf.Pipeline.Execute
import VibesWaf.Rule.Fields

/-!
# The extractors of the field registry

Every row of the field registry carries an extractor, a function of the pipeline context. The
evaluator does not use them: it has a table of its own, `extractField`, over the context's
adapter. Here the extractors are written down beside the adapter's metadata map, and the two
tables are compared on every context.

They agree but for two registered fields that the evaluator does not know, `ip.version` and
`req.rate`, and for free-form extras under a key of the metadata map.
-/

namespace VibesWaf

/-! ### The metadata map -/

/-- A value of the metadata map, by the dynamic types the evaluator asks for. -/
inductive MetadataValue
  | uint32 (n : UInt32)
  | uint (n : UInt64)
  | string (s : GoString)
  | bool (b : Bool)
  | other
  deriving DecidableEq

/-- A map with one more entry. -/
def withEntry (m : GoString → Option MetadataValue) (key : GoString) (value : MetadataValue) :
    GoString → Option MetadataValue :=
  fun k => if k = key then some value else m k

namespace Context

/-- `GetMetadata`, of a context with the given `Extra`: the typed signals come last and replace
an extra of the same key. -/
def getMetadata (ctx : Context) (extra : GoString → Option MetadataValue) :
    GoString → Option MetadataValue :=
  let m := extra
  let m := if ctx.country ≠ [] then withEntry m (str "country") (.string ctx.country) else m
  let m := if ctx.asn ≠ 0 then withEntry m (str "asn") (.uint ctx.asn) else m
  let m := if ctx.asnOrg ≠ [] then withEntry m (str "asn_org") (.string ctx.asnOrg) else m
  let m := withEntry m (str "is_datacenter") (.bool ctx.isDatacenter)
  if ctx.appID ≠ [] then withEntry m (str "app_id") (.string ctx.appID) else m

end Context

/-- The type assertions `.(uint32)` and `.(uint)` on a metadata value. -/
def MetadataValue.asn? : MetadataValue → Option UInt64
  | .uint32 n => some n.toUInt64
  | .uint n => some n
  | _ => none

/-- The type assertion `.(string)`. -/
def MetadataValue.string? : MetadataValue → Option GoString
  | .string s => some s
  | _ => none

/-- The type assertion `.(bool)`. -/
def MetadataValue.bool? : MetadataValue → Option Bool
  | .bool b => some b
  | _ => none

namespace Context

/-- `pipelineContextAdapter` over a context with the given `Extra`. -/
def adapter (ctx : Context) (extra : GoString → Option MetadataValue) : RequestContext :=
  { ctx.ruleContext with
    asn := (ctx.getMetadata extra (str "asn")).bind MetadataValue.asn?
    country := (ctx.getMetadata extra (str "country")).bind MetadataValue.string?
    isDatacenter := (ctx.getMetadata extra (str "is_datacenter")).bind MetadataValue.bool? }

theorem getMetadata_asn (ctx : Context) (extra : GoString → Option MetadataValue) :
    ctx.getMetadata extra (str "asn") =
      if ctx.asn = 0 then extra (str "asn") else some (.uint ctx.asn) := by
  have h₁ : str "asn" ≠ str "country" := by decide
  have h₂ : str "asn" ≠ str "asn_org" := by decide
  have h₃ : str "asn" ≠ str "is_datacenter" := by decide
  have h₄ : str "asn" ≠ str "app_id" := by decide
  simp only [getMetadata, apply_ite (fun m : GoString → Option MetadataValue => m (str "asn")),
    withEntry, if_neg h₁, if_neg h₂, if_neg h₃, if_neg h₄, ite_self, ite_not, if_true]

theorem getMetadata_country (ctx : Context) (extra : GoString → Option MetadataValue) :
    ctx.getMetadata extra (str "country") =
      if ctx.country = [] then extra (str "country") else some (.string ctx.country) := by
  have h₁ : str "country" ≠ str "asn" := by decide
  have h₂ : str "country" ≠ str "asn_org" := by decide
  have h₃ : str "country" ≠ str "is_datacenter" := by decide
  have h₄ : str "country" ≠ str "app_id" := by decide
  simp only [getMetadata,
    apply_ite (fun m : GoString → Option MetadataValue => m (str "country")),
    withEntry, if_neg h₁, if_neg h₂, if_neg h₃, if_neg h₄, ite_self, ite_not, if_true]

theorem getMetadata_isDatacenter (ctx : Context) (extra : GoString → Option MetadataValue) :
    ctx.getMetadata extra (str "is_datacenter") = some (.bool ctx.isDatacenter) := by
  have h : str "is_datacenter" ≠ str "app_id" := by decide
  simp only [getMetadata,
    apply_ite (fun m : GoString → Option MetadataValue => m (str "is_datacenter")),
    withEntry, if_neg h, ite_self, if_true]

/-- Without extras of its own keys the adapter is the one the pipeline's rules read. -/
theorem adapter_of_no_keys {ctx : Context} {extra : GoString → Option MetadataValue}
    (hasn : extra (str "asn") = none) (hcountry : extra (str "country") = none) :
    ctx.adapter extra = ctx.ruleContext := by
  simp only [adapter, getMetadata_asn, getMetadata_country, getMetadata_isDatacenter, hasn,
    hcountry]
  by_cases ha : ctx.asn = 0 <;> by_cases hc : ctx.country = [] <;>
    simp [ruleContext, ha, hc, MetadataValue.asn?, MetadataValue.string?, MetadataValue.bool?]

end Context

/-! ### The extractors -/

section Extract

variable [GoLib]

/-- `extractIPSrc`. -/
def extractIPSrc (ctx : Context) : FieldValue :=
  .string ctx.clientIP

/-- `extractIPVersion`. -/
def extractIPVersion (ctx : Context) : FieldValue :=
  if contains ctx.clientIP (str ":") then .int 6 else .int 4

/-- `extractIsDatacenter`. -/
def extractIsDatacenter (ctx : Context) : FieldValue :=
  .bool ctx.isDatacenter

/-- `extractASN`. -/
def extractASN (ctx : Context) : FieldValue :=
  .int ctx.asn.toInt64

/-- `extractCountry`. -/
def extractCountry (ctx : Context) : FieldValue :=
  .string (toUpper ctx.country)

/-- `extractHTTPHost`. -/
def extractHTTPHost (ctx : Context) : FieldValue :=
  .string ctx.normalized.host

/-- `extractHTTPPath`. -/
def extractHTTPPath (ctx : Context) : FieldValue :=
  .string ctx.normalized.path

/-- `extractHTTPQuery`. -/
def extractHTTPQuery (ctx : Context) : FieldValue :=
  .string ctx.normalized.query

/-- `extractHTTPScheme`. -/
def extractHTTPScheme (ctx : Context) : FieldValue :=
  if ctx.request.tls then .string (str "https") else .string (str "http")

/-- `extractHTTPVersion`. -/
def extractHTTPVersion (ctx : Context) : FieldValue :=
  .string ctx.request.proto

/-- `extractHTTPMethod`. -/
def extractHTTPMethod (ctx : Context) : FieldValue :=
  .string ctx.normalized.method

/-- `extractHTTPUA`. -/
def extractHTTPUA (ctx : Context) : FieldValue :=
  .string ctx.normalized.ua

/-- `extractHTTPCookie`, `extractHTTPReferer` and `extractHTTPAccept`: a header of the request. -/
def extractHeader (name : GoString) (ctx : Context) : FieldValue :=
  .string (ctx.request.get name)

/-- `extractHTTPCookie`. -/
def extractHTTPCookie : Context → FieldValue :=
  extractHeader (str "Cookie")

/-- `extractHTTPReferer`. -/
def extractHTTPReferer : Context → FieldValue :=
  extractHeader (str "Referer")

/-- `extractHTTPAccept`. -/
def extractHTTPAccept : Context → FieldValue :=
  extractHeader (str "Accept")

/-- `extractClientOS`. -/
def extractClientOS (_ : Context) : FieldValue :=
  .string []

/-- `extractClientBrowser`. -/
def extractClientBrowser (_ : Context) : FieldValue :=
  .string []

/-- The type assertion `.(bool)` with its zero value. -/
def FieldValue.asBool : FieldValue → Bool
  | .bool b => b
  | _ => false

/-- `extractClientIsMobile`. -/
def extractClientIsMobile (ctx : Context) : FieldValue :=
  let ua := toLower ctx.normalized.ua
  .bool <| [str "mobile", str "android", str "iphone", str "ipod", str "blackberry",
    str "windows phone", str "opera mini"].any fun kw =>
      contains ua kw && !contains ua (str "ipad") && !contains ua (str "tablet")

/-- `extractClientIsTablet`. -/
def extractClientIsTablet (ctx : Context) : FieldValue :=
  let ua := toLower ctx.normalized.ua
  .bool ([str "ipad", str "tablet", str "kindle"].any (contains ua))

/-- `extractClientIsDesktop`. -/
def extractClientIsDesktop (ctx : Context) : FieldValue :=
  .bool (!(extractClientIsMobile ctx).asBool && !(extractClientIsTablet ctx).asBool)

/-- `extractReqRate`. -/
def extractReqRate (_ : Context) : FieldValue :=
  .int 0

/-- The `Extractor` column of `rules.FieldRegistry`, in the order of `fieldRegistry`. -/
def fieldExtractors : List (GoString × (Context → FieldValue)) := [
  (str "ip.src", extractIPSrc),
  (str "ip.version", extractIPVersion),
  (str "ip.is_datacenter", extractIsDatacenter),
  (str "asn", extractASN),
  (str "country", extractCountry),
  (str "http.host", extractHTTPHost),
  (str "http.path", extractHTTPPath),
  (str "http.query", extractHTTPQuery),
  (str "http.scheme", extractHTTPScheme),
  (str "http.version", extractHTTPVersion),
  (str "http.method", extractHTTPMethod),
  (str "http.ua", extractHTTPUA),
  (str "http.cookie", extractHTTPCookie),
  (str "http.referer", extractHTTPReferer),
  (str "http.accept", extractHTTPAccept),
  (str "client.os", extractClientOS),
  (str "client.browser", extractClientBrowser),
  (str "client.is_mobile", extractClientIsMobile),
  (str "client.is_desktop", extractClientIsDesktop),
  (str "client.is_tablet", extractClientIsTablet),
  (str "device.is_mobile", extractClientIsMobile),
  (str "device.is_desktop", extractClientIsDesktop),
  (str "device.is_tablet", extractClientIsTablet),
  (str "req.rate", extractReqRate)]

/-- What the registry's extractor gives for a field, when the field is registered. -/
def registryValue (field : GoString) (ctx : Context) : Option FieldValue :=
  (fieldExtractors.find? (·.1 = field)).map fun e => e.2 ctx

/-- The extractors are those of the registered fields. -/
theorem fieldExtractors_names :
    fieldExtractors.map Prod.fst = fieldRegistry.map FieldDef.name :=
  rfl

/-! ### The two tables -/

/-- A field whose value the evaluator knows: no extra of the context stands in for an origin that
the context itself does not have. -/
def Agrees (ctx : Context) (extra : GoString → Option MetadataValue) (field : GoString) : Prop :=
  field ≠ str "ip.version" ∧ field ≠ str "req.rate" ∧
    (field = str "asn" → ctx.asn = 0 →
      ((extra (str "asn")).bind MetadataValue.asn?).getD 0 = 0) ∧
    (field = str "country" → ctx.country = [] →
      toUpper (((extra (str "country")).bind MetadataValue.string?).getD []) = [])

private theorem extractField_asn (ctx : Context) (extra : GoString → Option MetadataValue) :
    extractField (str "asn") (ctx.adapter extra) = extractASN ctx ↔
      (ctx.asn = 0 → ((extra (str "asn")).bind MetadataValue.asn?).getD 0 = 0) := by
  have hext : extractField (str "asn") (ctx.adapter extra) =
      .int (((ctx.adapter extra).asn.map UInt64.toInt64).getD 0) := rfl
  have hasn : (ctx.adapter extra).asn =
      (ctx.getMetadata extra (str "asn")).bind MetadataValue.asn? := rfl
  have hzero (n : UInt64) : n.toInt64 = 0 ↔ n = 0 := by
    constructor
    · intro h
      have hback : n.toInt64.toUInt64 = (0 : Int64).toUInt64 := by rw [h]
      exact hback
    · rintro rfl
      rfl
  rw [hext, hasn, ctx.getMetadata_asn, extractASN, FieldValue.int.injEq]
  by_cases h : ctx.asn = 0
  · rw [if_pos h, h]
    cases (extra (str "asn")).bind MetadataValue.asn? with
    | none => simp
    | some n => simpa using hzero n
  · simp [h, MetadataValue.asn?]

private theorem extractField_country (ctx : Context) (extra : GoString → Option MetadataValue) :
    extractField (str "country") (ctx.adapter extra) = extractCountry ctx ↔
      (ctx.country = [] →
        toUpper (((extra (str "country")).bind MetadataValue.string?).getD []) = []) := by
  have hext : extractField (str "country") (ctx.adapter extra) =
      .string (((ctx.adapter extra).country.map toUpper).getD []) := rfl
  have hcountry : (ctx.adapter extra).country =
      (ctx.getMetadata extra (str "country")).bind MetadataValue.string? := rfl
  have hnil : toUpper [] = [] := rfl
  rw [hext, hcountry, ctx.getMetadata_country, extractCountry, FieldValue.string.injEq]
  by_cases h : ctx.country = []
  · rw [if_pos h, h, hnil]
    cases (extra (str "country")).bind MetadataValue.string? with
    | none => simp [hnil]
    | some s => simp
  · simp [h, MetadataValue.string?]

private theorem extractField_isDatacenter (ctx : Context)
    (extra : GoString → Option MetadataValue) :
    extractField (str "ip.is_datacenter") (ctx.adapter extra) = extractIsDatacenter ctx := by
  have hext : extractField (str "ip.is_datacenter") (ctx.adapter extra) =
      .bool (((ctx.getMetadata extra (str "is_datacenter")).bind MetadataValue.bool?).getD false) :=
    rfl
  rw [hext, ctx.getMetadata_isDatacenter]
  rfl

/-- Row by row, the two tables give the same value exactly when they agree. -/
private theorem extractField_row_iff (ctx : Context) (extra : GoString → Option MetadataValue) :
    ∀ e ∈ fieldExtractors,
      (extractField e.1 (ctx.adapter extra) = e.2 ctx ↔ Agrees ctx extra e.1) := by
  have hplain {field : GoString} {extract : Context → FieldValue}
      (hval : extractField field (ctx.adapter extra) = extract ctx)
      (hne : field ≠ str "ip.version" ∧ field ≠ str "req.rate" ∧ field ≠ str "asn" ∧
        field ≠ str "country") :
      extractField field (ctx.adapter extra) = extract ctx ↔ Agrees ctx extra field :=
    iff_of_true hval ⟨hne.1, hne.2.1, fun h => absurd h hne.2.2.1, fun h => absurd h hne.2.2.2⟩
  have hscheme : extractField (str "http.scheme") (ctx.adapter extra) = extractHTTPScheme ctx := by
    have hext : extractField (str "http.scheme") (ctx.adapter extra) =
        .string (if ctx.request.tls then str "https" else str "http") := rfl
    rw [hext, extractHTTPScheme]
    split <;> rfl
  simp only [fieldExtractors, List.forall_mem_cons]
  refine ⟨hplain rfl (by decide), ?_, hplain (extractField_isDatacenter ctx extra) (by decide),
    ?_, ?_, hplain rfl (by decide), hplain rfl (by decide), hplain rfl (by decide),
    hplain hscheme (by decide), hplain rfl (by decide), hplain rfl (by decide),
    hplain rfl (by decide), hplain rfl (by decide), hplain rfl (by decide),
    hplain rfl (by decide), hplain rfl (by decide), hplain rfl (by decide),
    hplain rfl (by decide), hplain rfl (by decide), hplain rfl (by decide),
    hplain rfl (by decide), hplain rfl (by decide), hplain rfl (by decide), ?_,
    fun _ h => absurd h List.not_mem_nil⟩
  · -- `ip.version` is a field of the registry alone
    refine iff_of_false (fun h => ?_) fun h => h.1 rfl
    have hext : extractField (str "ip.version") (ctx.adapter extra) = .string [] := rfl
    rw [hext, extractIPVersion] at h
    split at h <;> cases h
  · rw [extractField_asn]
    have hne : str "asn" ≠ str "ip.version" ∧ str "asn" ≠ str "req.rate" ∧
        str "asn" ≠ str "country" := by decide
    simp only [Agrees, ne_eq, hne.1, hne.2.1, hne.2.2, not_false_eq_true, true_and, true_imp_iff,
      false_imp_iff, and_true]
  · rw [extractField_country]
    have hne : str "country" ≠ str "ip.version" ∧ str "country" ≠ str "req.rate" ∧
        str "country" ≠ str "asn" := by decide
    simp only [Agrees, ne_eq, hne.1, hne.2.1, hne.2.2, not_false_eq_true, true_and, true_imp_iff,
      false_imp_iff]
  · -- so is `req.rate`
    refine iff_of_false (fun h => ?_) fun h => h.2.1 rfl
    have hext : extractField (str "req.rate") (ctx.adapter extra) = .string [] := rfl
    rw [hext, extractReqRate] at h
    cases h

/-- A registered field has an extractor, in the row of its name. -/
private theorem registryValue_of_valid {field : GoString} (hfield : (fieldDef? field).isSome = true)
    (ctx : Context) :
    ∃ e ∈ fieldExtractors, e.1 = field ∧ registryValue field ctx = some (e.2 ctx) := by
  obtain ⟨d, hd⟩ := Option.isSome_iff_exists.mp hfield
  rw [fieldDef?] at hd
  have hmatch := List.find?_some hd
  have hname : d.name = field := of_decide_eq_true hmatch
  have hmem : field ∈ fieldExtractors.map Prod.fst := by
    rw [fieldExtractors_names, ← hname]
    exact List.mem_map_of_mem (List.mem_of_find?_eq_some hd)
  obtain ⟨e', he', hfst⟩ := List.mem_map.mp hmem
  have hsome : (fieldExtractors.find? (·.1 = field)).isSome = true :=
    List.find?_isSome.mpr ⟨e', he', decide_eq_true hfst⟩
  obtain ⟨e, he⟩ := Option.isSome_iff_exists.mp hsome
  have hfound := List.find?_some he
  refine ⟨e, List.mem_of_find?_eq_some he, of_decide_eq_true hfound, ?_⟩
  rw [registryValue, he, Option.map_some]

/-- **The registry and the evaluator.** For a field the validator accepts and every context, the
evaluator's value is the one of the registry's extractor exactly when the field is neither
`ip.version` nor `req.rate`, and no extra stands in for an absent number or country. -/
theorem extractField_eq_registryValue_iff {field : GoString}
    (hfield : (fieldDef? field).isSome = true) (ctx : Context)
    (extra : GoString → Option MetadataValue) :
    some (extractField field (ctx.adapter extra)) = registryValue field ctx ↔
      Agrees ctx extra field := by
  obtain ⟨e, hmem, rfl, hvalue⟩ := registryValue_of_valid hfield ctx
  rw [hvalue, Option.some_inj]
  exact extractField_row_iff ctx extra e hmem

end Extract

section Evaluated

attribute [local instance] asciiLib

/-- The tables agree on the host of a plain request. -/
theorem extractField_eq_registryValue_host :
    some (extractField (str "http.host") (plainVisit.context.adapter fun _ => none)) =
        registryValue (str "http.host") plainVisit.context ↔
      Agrees plainVisit.context (fun _ => none) (str "http.host") :=
  extractField_eq_registryValue_iff (by decide) plainVisit.context fun _ => none

/-- The evaluator has no version for the address of a plain request: the text is empty where the
registry has the number four. -/
theorem extractField_ip_version :
    ¬ ∀ (field : GoString) (ctx : Context) (extra : GoString → Option MetadataValue),
      (fieldDef? field).isSome = true →
        some (extractField field (ctx.adapter extra)) = registryValue field ctx := by
  intro h
  have hversion := h (str "ip.version") plainVisit.context (fun _ => none) (by decide)
  have hext : extractField (str "ip.version") (plainVisit.context.adapter fun _ => none) =
      .string [] := rfl
  have hreg : registryValue (str "ip.version") plainVisit.context =
      some (extractIPVersion plainVisit.context) := rfl
  rw [hext, hreg, extractIPVersion, Option.some_inj] at hversion
  split at hversion <;> cases hversion

end Evaluated

end VibesWaf

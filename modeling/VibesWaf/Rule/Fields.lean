import VibesWaf.Rule.Types

/-!
# The field registry

`fieldRegistry` is the table behind `rules.FieldRegistry`: every field a rule may name, its
type, and the operators the rule builder offers for it. The registry's own extractor functions
are a table of their own beside the context they read; the descriptions are left out. The
validator only asks whether a field is registered, and the evaluator extracts fields by its own
code.
-/

namespace VibesWaf

/-- The types of a field. -/
inductive FieldType
  | string | int | bool | ip
  deriving DecidableEq, Repr

/-- A row of the registry. -/
structure FieldDef where
  name : GoString
  type : FieldType
  allowedOps : List GoString
  deriving DecidableEq, Repr

/-- `rules.FieldRegistry`. -/
def fieldRegistry : List FieldDef := [
  ⟨str "ip.src", .ip, [str "eq", str "neq", str "in", str "not_in"]⟩,
  ⟨str "ip.version", .int, [str "eq", str "neq"]⟩,
  ⟨str "ip.is_datacenter", .bool, [str "eq", str "neq"]⟩,
  ⟨str "asn", .int, [str "eq", str "neq", str "in", str "not_in"]⟩,
  ⟨str "country", .string, [str "eq", str "neq", str "in", str "not_in"]⟩,
  ⟨str "http.host", .string, [str "eq", str "neq", str "in", str "not_in", str "contains",
      str "not_contains", str "prefix", str "suffix", str "regex", str "not_regex"]⟩,
  ⟨str "http.path", .string, [str "eq", str "neq", str "in", str "not_in", str "contains",
      str "not_contains", str "prefix", str "suffix", str "regex", str "not_regex"]⟩,
  ⟨str "http.query", .string, [str "eq", str "neq", str "contains", str "not_contains",
      str "regex", str "not_regex", str "exists", str "not_exists"]⟩,
  ⟨str "http.scheme", .string, [str "eq", str "neq"]⟩,
  ⟨str "http.version", .string, [str "eq", str "neq"]⟩,
  ⟨str "http.method", .string, [str "eq", str "neq", str "in", str "not_in"]⟩,
  ⟨str "http.ua", .string, [str "eq", str "neq", str "in", str "not_in", str "contains",
      str "not_contains", str "regex", str "not_regex", str "exists", str "not_exists"]⟩,
  ⟨str "http.cookie", .string, [str "eq", str "neq", str "contains", str "not_contains",
      str "exists", str "not_exists"]⟩,
  ⟨str "http.referer", .string, [str "contains", str "not_contains", str "prefix", str "exists",
      str "not_exists"]⟩,
  ⟨str "http.accept", .string, [str "contains", str "not_contains", str "exists",
      str "not_exists"]⟩,
  ⟨str "client.os", .string, [str "eq", str "neq", str "in", str "not_in"]⟩,
  ⟨str "client.browser", .string, [str "eq", str "neq", str "in", str "not_in"]⟩,
  ⟨str "client.is_mobile", .bool, [str "eq", str "neq"]⟩,
  ⟨str "client.is_desktop", .bool, [str "eq", str "neq"]⟩,
  ⟨str "client.is_tablet", .bool, [str "eq", str "neq"]⟩,
  ⟨str "device.is_mobile", .bool, [str "eq", str "neq"]⟩,
  ⟨str "device.is_desktop", .bool, [str "eq", str "neq"]⟩,
  ⟨str "device.is_tablet", .bool, [str "eq", str "neq"]⟩,
  ⟨str "req.rate", .int, [str "eq", str "neq", str "gt", str "lt", str "gte", str "lte"]⟩]

/-- The registry's row for a field name. -/
def fieldDef? (field : GoString) : Option FieldDef :=
  fieldRegistry.find? (·.name = field)

/-- Every operator the registry offers is an operator of the language. -/
theorem allowedOps_subset_operators : ∀ d ∈ fieldRegistry, ∀ op ∈ d.allowedOps, op ∈ operators := by
  decide

/-- The names of the registry are its keys: no two rows share one. -/
theorem fieldRegistry_nodup : (fieldRegistry.map FieldDef.name).Nodup := by
  decide

end VibesWaf

import VibesWaf.Challenge.Binding
import VibesWaf.Lib.LengthPrefixed
import VibesWaf.Pipeline.Execute

/-!
# The keys of the decision cache

The key of a cached decision is a digest of six fields of the request, most of them chosen by the
client. Each is written behind its length in four bytes, so no choice of one field moves the
boundary to the next: `generateKey_eq_iff`.
-/

namespace VibesWaf

/-- The four bytes of a length. -/
def bigEndianCode : LengthCode UInt8 where
  code := bigEndian32
  size := 4
  bound := 2 ^ 32
  length_code _ := rfl
  code_inj := by
    intro n m hn hm h
    simp only [bigEndian32, List.cons.injEq, and_true, ← UInt8.toNat_inj, UInt8.toNat_ofNat'] at h
    omega

/-- What `generateKey` writes to the hash. -/
def keyMessage (ctx : Context) : GoString :=
  bigEndianCode.lengthPrefixed ctx.keyFields

/-- The hash tells two messages apart. -/
def Separates (sha256 : GoString → Bytes 32) (message message' : GoString) : Prop :=
  sha256 message = sha256 message' → message = message'

/-- **Two keys are equal** exactly if the six fields are, for a hash without a collision at the two
messages. -/
theorem generateKey_eq_iff (svc : HardRuleServices) {ctx ctx' : Context}
    (hlength : ∀ field ∈ ctx.keyFields ++ ctx'.keyFields, field.length < 2 ^ 32)
    (hhash : Separates svc.sha256 (keyMessage ctx) (keyMessage ctx')) :
    generateKey svc ctx = generateKey svc ctx' ↔
      ctx.appID = ctx'.appID ∧ ctx.clientIP = ctx'.clientIP ∧
        ctx.normalized.ua = ctx'.normalized.ua ∧ ctx.normalized.method = ctx'.normalized.method ∧
        ctx.normalized.path = ctx'.normalized.path ∧
        ctx.normalized.query = ctx'.normalized.query := by
  have hkey : ∀ ctx : Context, generateKey svc ctx =
      str "waf:decision:v2:" ++ hexEncode (svc.sha256 (keyMessage ctx)).1 := fun _ => rfl
  rw [List.forall_mem_append] at hlength
  calc generateKey svc ctx = generateKey svc ctx'
      ↔ svc.sha256 (keyMessage ctx) = svc.sha256 (keyMessage ctx') := by
        rw [hkey, hkey, List.append_right_inj, hexEncode_injective.eq_iff, Subtype.ext_iff]
    _ ↔ keyMessage ctx = keyMessage ctx' := ⟨hhash, congrArg svc.sha256⟩
    _ ↔ ctx.keyFields = ctx'.keyFields :=
        bigEndianCode.lengthPrefixed_inj (by decide) hlength.1 hlength.2
    _ ↔ _ := by simp only [Context.keyFields, List.cons.injEq, and_true]

/-- A request for `/path?x=1`. -/
def keyContext (ua method : GoString) : Context :=
  { plainVisit.context with
    clientIP := str "1.2.3.4"
    normalized :=
      { path := str "/path"
        query := str "x=1"
        host := str "example.com"
        ua
        method } }

/-- SHA-256 of the fields of `keyContext (str "ab") (str "c")`. -/
def digestFirst : Bytes 32 :=
  ⟨[0xF5, 0x3D, 0x93, 0x59, 0x5F, 0x0C, 0xBC, 0x9F, 0x45, 0xB3, 0x0E, 0xD1, 0x76, 0x8A, 0x07, 0x8B,
    0xF3, 0x03, 0x79, 0x4E, 0xE8, 0xCB, 0x89, 0x07, 0xF6, 0xE2, 0x4A, 0xD2, 0x2A, 0xDB, 0x7C, 0x7D],
    rfl⟩

/-- SHA-256 of the fields of `keyContext (str "a") (str "bc")`. -/
def digestSecond : Bytes 32 :=
  ⟨[0x65, 0x4F, 0x48, 0xE7, 0x76, 0xD7, 0x68, 0x69, 0x52, 0x98, 0x82, 0x76, 0xC1, 0x0E, 0xDB, 0x9B,
    0x1A, 0x65, 0xB3, 0x79, 0x6C, 0xBB, 0xC2, 0x1A, 0x45, 0xA8, 0xEC, 0x98, 0xD1, 0x39, 0x3E, 0x12],
    rfl⟩

/-- A boundary between the user agent and the method that has moved by one byte. -/
theorem generateKey_boundary :
    let first := keyContext (str "ab") (str "c")
    let second := keyContext (str "a") (str "bc")
    let sha256 := fun message => if message = keyMessage first then digestFirst else digestSecond
    let svc := { quietServices.toHardRuleServices with sha256 }
    generateKey svc first ≠ generateKey svc second := by
  intro first second sha256 svc heq
  have hlength : ∀ field ∈ first.keyFields ++ second.keyFields, field.length < 2 ^ 32 := by
    decide
  have hhash : Separates sha256 (keyMessage first) (keyMessage second) := by
    intro hdigest
    exact absurd hdigest (by decide)
  have hua := ((generateKey_eq_iff svc hlength hhash).mp heq).2.2.1
  exact absurd hua (by decide)

end VibesWaf

import VibesWaf.Challenge.Cookie

/-!
# What a clearance is bound to

The MAC of a clearance is over `ip:ua:timestamp:level`. The last two fields are numbers, so they can
be told from the right, but an IPv6 address and a user agent may contain colons themselves, and
nothing says where the one ends and the other begins: the MAC is the same for the address
`2001:db8::1` with the user agent `2:x` and for the address `2001:db8::1:2` with the user agent `x`.

`clearanceBound_iff` is what is left of the binding, for a MAC without a collision at the signed
payload: it holds exactly when no other address text shifts the boundary. For an IPv4 address none
does (`clearanceBound_ipv4`).
-/

namespace VibesWaf

/-! ### Hexadecimal digests -/

private theorem hexByte_value : ∀ n < 256,
    ((hexValue (hexDigit (UInt8.ofNat n >>> 4))).bind fun high =>
      (hexValue (hexDigit (UInt8.ofNat n &&& 0x0F))).map (high * 16 + ·)) = some n := by
  decide +kernel

private theorem hexByte_injective {a b : UInt8} (hhigh : hexDigit (a >>> 4) = hexDigit (b >>> 4))
    (hlow : hexDigit (a &&& 0x0F) = hexDigit (b &&& 0x0F)) : a = b := by
  have ha := hexByte_value a.toNat a.toNat_lt
  have hb := hexByte_value b.toNat b.toNat_lt
  rw [UInt8.ofNat_toNat] at ha hb
  rw [hhigh, hlow, hb] at ha
  exact UInt8.toNat_inj.mp (Option.some.inj ha).symm

theorem hexEncode_injective : Function.Injective hexEncode := by
  intro a b h
  induction a generalizing b with
  | nil =>
    cases b with
    | nil => rfl
    | cons d b => exact absurd h (by simp [hexEncode])
  | cons c a ih =>
    cases b with
    | nil => exact absurd h (by simp [hexEncode])
    | cons d b =>
      change hexDigit _ :: hexDigit _ :: hexEncode a = hexDigit _ :: hexDigit _ :: hexEncode b at h
      obtain ⟨hhigh, hlow, htail⟩ := by simpa only [List.cons.injEq] using h
      rw [hexByte_injective hhigh hlow, ih htail]

/-! ### Where the address ends -/

/-- Another address text moves the boundary between an address and a user agent: it ends at an
earlier colon of the address, or takes in the user agent up to one of its colons. -/
def Shifts (ip ua other : GoString) : Prop :=
  ∃ tail, ip = other ++ str ":" ++ tail ∨
    ∃ rest, other = ip ++ str ":" ++ tail ∧ ua = tail ++ str ":" ++ rest

/-- **The boundary**: an address and a user agent joined by a colon are told apart unless the
address shifts it. -/
theorem joined_eq_iff {ip ua ip' : GoString} :
    (∃ ua', ip' ++ str ":" ++ ua' = ip ++ str ":" ++ ua ∧ ¬ (ip' = ip ∧ ua' = ua)) ↔
      Shifts ip ua ip' := by
  simp only [Shifts, str_colon, List.append_assoc, List.singleton_append]
  constructor
  · rintro ⟨ua', hjoined, hne⟩
    rcases List.append_eq_append_iff.mp hjoined with ⟨cut, hip, hua⟩ | ⟨cut, hip', hua'⟩
    · rcases cut with _ | ⟨c, tail⟩
      · rw [List.append_nil] at hip
        exact absurd ⟨hip.symm, (List.cons.inj hua).2⟩ hne
      · obtain ⟨rfl, -⟩ := List.cons.inj hua
        exact ⟨tail, .inl hip⟩
    · rcases cut with _ | ⟨c, tail⟩
      · rw [List.append_nil] at hip'
        exact absurd ⟨hip', (List.cons.inj hua').2.symm⟩ hne
      · obtain ⟨rfl, hua⟩ := List.cons.inj hua'
        exact ⟨tail, .inr ⟨ua', hip', hua⟩⟩
  · have hlonger : ∀ s t : GoString, s ≠ s ++ 0x3A :: t := fun s t h => by
      have := congrArg List.length h
      simp at this
    rintro ⟨tail, rfl | ⟨rest, rfl, rfl⟩⟩
    · exact ⟨tail ++ 0x3A :: ua, by simp, fun hand => hlonger _ _ hand.1⟩
    · exact ⟨rest, by simp, fun hand => hlonger _ _ hand.1.symm⟩

/-- The timestamp and the level do not move the boundary. -/
theorem clearancePayload_inj {ip ua ip' ua' : GoString} {t level : Int64} :
    clearancePayload ip' ua' t level = clearancePayload ip ua t level ↔
      ip' ++ str ":" ++ ua' = ip ++ str ":" ++ ua := by
  simp only [clearancePayload, List.append_left_inj]

/-! ### The binding -/

/-- No other message has the MAC of a message. -/
def CollisionFreeAt (mac : GoString → GoString → Bytes 32) (secret message : GoString) : Prop :=
  ∀ message', mac secret message' = mac secret message → message' = message

/-- The clearance a request was issued is bound to its address and its user agent: whenever it is
checked, it is accepted for no other valid address and no other user agent, and with its own level
only. -/
def ClearanceBound (mac : GoString → GoString → Bytes 32) (secret : GoString) (r : Request)
    (t level : Int64) : Prop :=
  ∀ (now duration : Int64) (clientIP ua : GoString) (level' : Int64),
    (parseIP clientIP).isSome = true →
    (ChallengeValidator.mk mac secret duration now).verifyCookie (issueToken mac secret r t level)
      clientIP ua = some level' →
    clientIP = verifyClientIP r ∧ ua = r.userAgent ∧ level' = level

/-- A clearance is bound where no valid address shifts the boundary. -/
theorem clearanceBound_of_not_shifts {mac : GoString → GoString → Bytes 32} {secret : GoString}
    {r : Request} {t level : Int64}
    (hmac : CollisionFreeAt mac (wafSecret secret)
      (clearancePayload (verifyClientIP r) r.userAgent t level))
    (hshifts : 0 ≤ level ∧ level ≤ 3 → ∀ other, (parseIP other).isSome = true →
      ¬ Shifts (verifyClientIP r) r.userAgent other) :
    ClearanceBound mac secret r t level := by
  intro now duration clientIP ua level' hvalid haccepted
  rw [verifyCookie_issueToken] at haccepted
  obtain ⟨hrange, haccepted⟩ := Option.ite_none_left_eq_some.mp haccepted
  obtain ⟨-, haccepted⟩ := Option.ite_none_left_eq_some.mp haccepted
  obtain ⟨-, haccepted⟩ := Option.ite_none_left_eq_some.mp haccepted
  obtain ⟨hsign, hlevel'⟩ := Option.ite_none_right_eq_some.mp haccepted
  rw [not_or, Int64.not_lt, Int64.not_lt] at hrange
  have hpayload := hmac _ (Subtype.ext (hexEncode_injective hsign.symm))
  have hsame : clientIP = verifyClientIP r ∧ ua = r.userAgent := by
    by_contra hne
    exact hshifts hrange clientIP hvalid
      (joined_eq_iff.mp ⟨ua, clearancePayload_inj.mp hpayload, hne⟩)
  exact ⟨hsame.1, hsame.2, (Option.some.inj hlevel').symm⟩

/-! ### IPv4 -/

/-- Dotted decimal text contains no colon. -/
private theorem colon_not_mem_fields {val digLen : ℕ} {fields octets : List UInt8} {s : GoString}
    (h : parseIPv4Fields val digLen fields s = some octets) : 0x3A ∉ s := by
  induction s generalizing val digLen fields with
  | nil => exact List.not_mem_nil
  | cons c rest ih =>
    rw [parseIPv4Fields] at h
    rw [List.mem_cons, not_or]
    by_cases hdigit : isDigit c = true
    · rw [if_pos hdigit] at h
      obtain ⟨-, h⟩ := Option.ite_none_left_eq_some.mp h
      obtain ⟨-, h⟩ := Option.ite_none_left_eq_some.mp h
      refine ⟨?_, ih h⟩
      rintro rfl
      exact absurd hdigit (by decide)
    · rw [if_neg hdigit] at h
      obtain ⟨rfl, h⟩ := Option.ite_none_right_eq_some.mp h
      obtain ⟨-, h⟩ := Option.ite_none_left_eq_some.mp h
      exact ⟨by decide, ih h⟩

/-- An address without a colon does not go on after one. -/
private theorem parseIP_append_colon {ip : GoString} (hvalid : (parseIP ip).isSome = true)
    (hcolon : 0x3A ∉ ip) (tail : GoString) : parseIP (ip ++ str ":" ++ tail) = none := by
  have hdot : ip.find? (fun c => c == 0x2E || c == 0x3A || c == 0x25) = some 0x2E := by
    unfold parseIP parseAddr at hvalid
    split at hvalid
    · rename_i a haddr
      split at haddr
      · assumption
      · rename_i hfind
        exact absurd (List.mem_of_find?_eq_some hfind) hcolon
      · exact absurd haddr (by simp)
    · exact absurd hvalid (by simp)
  have hfields : parseIPv4Fields 0 0 [] (ip ++ str ":" ++ tail) = none := by
    rw [Option.eq_none_iff_forall_ne_some]
    intro octets h
    exact colon_not_mem_fields h (by simp [show str ":" = [0x3A] from rfl])
  rw [parseIP, parseAddr, List.append_assoc, List.find?_append, hdot, Option.some_or,
    ← List.append_assoc, hfields]
  rfl

/-- A clearance for an IPv4 address is bound to it. -/
theorem clearanceBound_ipv4 {mac : GoString → GoString → Bytes 32} {secret : GoString}
    {r : Request} {t level : Int64}
    (hmac : CollisionFreeAt mac (wafSecret secret)
      (clearancePayload (verifyClientIP r) r.userAgent t level))
    (hvalid : (parseIP (verifyClientIP r)).isSome = true) (hcolon : 0x3A ∉ verifyClientIP r) :
    ClearanceBound mac secret r t level := by
  refine clearanceBound_of_not_shifts hmac ?_
  rintro - other hother ⟨tail, hip | ⟨rest, rfl, -⟩⟩
  · exact hcolon (by rw [hip]; simp [show str ":" = [0x3A] from rfl])
  · rw [parseIP_append_colon hvalid hcolon] at hother
    exact absurd hother (by simp)

/-! ### The boundary decides -/

/-- **When a clearance is bound** to its address and its user agent: if and only if no valid address
text moves the boundary between them (or its level is none the validator accepts). -/
theorem clearanceBound_iff {mac : GoString → GoString → Bytes 32} {secret : GoString} {r : Request}
    {t level : Int64}
    (hmac : CollisionFreeAt mac (wafSecret secret)
      (clearancePayload (verifyClientIP r) r.userAgent t level)) :
    ClearanceBound mac secret r t level ↔
      (0 ≤ level ∧ level ≤ 3 → ∀ other, (parseIP other).isSome = true →
        ¬ Shifts (verifyClientIP r) r.userAgent other) := by
  constructor
  · intro hbound hlevel other hvalid hshifts
    obtain ⟨ua, hjoined, hne⟩ := joined_eq_iff.mpr hshifts
    have hrange : ¬ (level < 0 ∨ 3 < level) := by
      rw [not_or, Int64.not_lt, Int64.not_lt]
      exact hlevel
    -- Both time checks pass at the time of issue.
    have haccepted := hbound t 0 other ua level hvalid (by
      rw [verifyCookie_issueToken, if_neg hrange, Int64.sub_self, if_neg (by decide),
        if_neg (by decide), clearancePayload_inj.mpr hjoined, if_pos rfl])
    exact hne ⟨haccepted.1, haccepted.2.1⟩
  · exact clearanceBound_of_not_shifts hmac

/-- A MAC that is known for one message and differs from it on all others. -/
def knownMac (message : GoString) (digest : Bytes 32) : GoString → GoString → Bytes 32 :=
  fun _ m => if m = message then digest else ⟨List.replicate 32 0, List.length_replicate⟩

theorem collisionFreeAt_knownMac {message : GoString} {digest : Bytes 32}
    (hdigest : digest.1 ≠ List.replicate 32 0) (secret : GoString) :
    CollisionFreeAt (knownMac message digest) secret message := by
  intro message' h
  by_contra hne
  rw [knownMac, knownMac, if_neg hne, if_pos rfl] at h
  exact hdigest (congrArg Subtype.val h).symm

/-- A request to be issued a clearance. -/
def verifyRequestFrom (ip ua : GoString) : Request where
  method := str "POST"
  path := str "/__waf_verify"
  rawPath := []
  rawQuery := []
  requestURI := str "/__waf_verify"
  host := str "example.com"
  proto := str "HTTP/1.1"
  header key :=
    if key = str "CF-Connecting-IP" then [ip] else if key = str "User-Agent" then [ua] else []
  cookies := []
  remoteAddr := str "10.0.0.1:4711"
  tls := false

/-- HMAC-SHA256 of `203.0.113.7:Mozilla/5.0:1700000000:1` with the fallback secret. -/
def digestIPv4 : Bytes 32 :=
  ⟨[0x99, 0xD8, 0xF1, 0x13, 0x11, 0x59, 0x3F, 0x30, 0xA0, 0x21, 0xC9, 0x23, 0xDE, 0x9C, 0x3A, 0x67,
    0xC2, 0x41, 0xD3, 0x18, 0x3A, 0x31, 0xAE, 0x72, 0x32, 0x7F, 0x77, 0xEF, 0x5B, 0x7D, 0x37, 0xA1],
    rfl⟩

/-- A clearance for an IPv4 address. -/
theorem clearanceBound_iff_ipv4 :
    ClearanceBound (knownMac (str "203.0.113.7:Mozilla/5.0:1700000000:1") digestIPv4) []
        (verifyRequestFrom (str "203.0.113.7") (str "Mozilla/5.0")) 1700000000 1 ↔
      ((0 : Int64) ≤ 1 ∧ (1 : Int64) ≤ 3 → ∀ other, (parseIP other).isSome = true →
        ¬ Shifts (str "203.0.113.7") (str "Mozilla/5.0") other) :=
  clearanceBound_iff (r := verifyRequestFrom (str "203.0.113.7") (str "Mozilla/5.0"))
    (show CollisionFreeAt _ _ (str "203.0.113.7:Mozilla/5.0:1700000000:1") from
      collisionFreeAt_knownMac (by decide) _)

/-- HMAC-SHA256 of `2001:db8::1:2:Mozilla/5.0:1700000000:1` with the fallback secret. -/
def digestIPv6 : Bytes 32 :=
  ⟨[0x12, 0x3F, 0xF2, 0x05, 0x3E, 0x66, 0x79, 0xC5, 0x76, 0x0D, 0x31, 0x76, 0x0A, 0x1A, 0x71, 0x4D,
    0xE8, 0xA4, 0x2E, 0x3E, 0x16, 0x7A, 0xE0, 0x68, 0x0F, 0x7C, 0x43, 0xE1, 0xC3, 0x18, 0x61, 0x5B],
    rfl⟩

/-- The clearance issued to `2001:db8::1` with the user agent `2:Mozilla/5.0` is accepted for
`2001:db8::1:2` with the user agent `Mozilla/5.0`. -/
theorem clearance_shifted :
    ¬ ∀ (mac : GoString → GoString → Bytes 32) (secret : GoString) (r : Request) (t level : Int64),
      CollisionFreeAt mac (wafSecret secret)
        (clearancePayload (verifyClientIP r) r.userAgent t level) →
      (parseIP (verifyClientIP r)).isSome = true → ClearanceBound mac secret r t level := by
  intro h
  let payload := str "2001:db8::1:2:Mozilla/5.0:1700000000:1"
  have hbound := h (knownMac payload digestIPv6) []
    (verifyRequestFrom (str "2001:db8::1") (str "2:Mozilla/5.0")) 1700000000 1
    (show CollisionFreeAt _ _ payload from collisionFreeAt_knownMac (by decide) _)
    (by decide)
  have haccepted := hbound 1700000000 3600 (str "2001:db8::1:2") (str "Mozilla/5.0") 1
    (by decide) (by decide)
  exact absurd haccepted.1 (by decide)

end VibesWaf

import VibesWaf.Challenge.ClientIP
import VibesWaf.Go.Decimal

/-!
# The clearance cookie

A visitor who solves the challenge gets a cookie `signature.timestamp.level`, where the signature
is a MAC of the visitor's address and user agent, the time and the trust level, in hexadecimal.
`issueToken` is the end of `handleWAFVerify`, `verifyCookie` the validator. The MAC is an
argument: HMAC-SHA256 is a function of the key and the message with 32 bytes of output.

`verifyCookie_token` is the round trip: for as long as the challenge lasts, a token is accepted
whenever the MAC of the checked payload is the one it carries. The two ends take the address from
different functions, and `clearanceAccepted_iff` is what this leaves of the round trip over a
request.
-/

namespace VibesWaf

/-- `challengeSignatureHexLen`. -/
def challengeSignatureHexLen : ℕ := 64

/-- `challengeClockSkew`. -/
def challengeClockSkew : Int64 := 60

/-- The secret both ends use: `WAF_SECRET`, or a fixed one when it is empty. -/
def wafSecret (env : GoString) : GoString :=
  if env = [] then str "fallback_secret" else env

/-- What both ends sign. -/
def clearancePayload (ip ua : GoString) (timestamp : Int64) (level : Int64) : GoString :=
  ip ++ str ":" ++ ua ++ str ":" ++ itoa timestamp.toInt ++ str ":" ++ itoa level.toInt

/-- The hexadecimal MAC of a payload. -/
def sign (mac : GoString → GoString → Bytes 32) (secret payload : GoString) : GoString :=
  hexEncode (mac secret payload).1

/-- The token `handleWAFVerify` puts into the cookie, at a time and with a trust level. -/
def issueToken (mac : GoString → GoString → Bytes 32) (secret : GoString) (r : Request)
    (timestamp : Int64) (level : Int64) : GoString :=
  sign mac (wafSecret secret)
      (clearancePayload (verifyClientIP r) r.userAgent timestamp level) ++
    str "." ++ itoa timestamp.toInt ++ str "." ++ itoa level.toInt

/-- `ChallengeValidator`, with the duration its configuration gives and the present time. -/
structure ChallengeValidator where
  mac : GoString → GoString → Bytes 32
  /-- The environment's `WAF_SECRET`. -/
  secret : GoString
  challengeDuration : Int64
  now : Int64

/-- `verifyCookie`: the trust level of an accepted cookie. -/
def ChallengeValidator.verifyCookie (h : ChallengeValidator) (cookieValue clientIP ua : GoString) :
    Option Int64 :=
  match split cookieValue 0x2E with
  | [signature, timestampStr, levelStr] =>
    if signature.length ≠ challengeSignatureHexLen then none
    else
      match parseInt64 timestampStr, parseInt64 levelStr with
      | some timestamp, some level =>
        if level < 0 ∨ 3 < level then none
        else if h.challengeDuration < h.now - timestamp then none
        else if challengeClockSkew < timestamp - h.now then none
        else if signature =
            sign h.mac (wafSecret h.secret) (clearancePayload clientIP ua timestamp level) then
          some level
        else none
      | _, _ => none
  | _ => none

/-! ### The parts of a token -/

theorem length_hexEncode (b : List UInt8) : (hexEncode b).length = 2 * b.length := by
  simp [hexEncode, Nat.mul_comm]

theorem length_sign (mac : GoString → GoString → Bytes 32) (secret payload : GoString) :
    (sign mac secret payload).length = challengeSignatureHexLen := by
  rw [sign, length_hexEncode, (mac secret payload).2]
  rfl

private theorem hexDigit_ne_dot {d : UInt8} (h : d.toNat < 16) : hexDigit d ≠ 0x2E := by
  have hall : ∀ n < 16, hexDigit (UInt8.ofNat n) ≠ 0x2E := by decide
  have := hall d.toNat h
  rwa [UInt8.ofNat_toNat] at this

theorem dot_not_mem_sign (mac : GoString → GoString → Bytes 32)
    (secret payload : GoString) : 0x2E ∉ sign mac secret payload := by
  intro hmem
  obtain ⟨c, -, hc⟩ := List.mem_flatMap.mp hmem
  have hhigh : (c >>> 4).toNat < 16 := by
    have := c.toNat_lt
    rw [UInt8.toNat_shiftRight, Nat.shiftRight_eq_div_pow]
    change c.toNat / 2 ^ 4 < 16
    omega
  have hlow : (c &&& 0x0F).toNat < 16 := by
    rw [UInt8.toNat_and]
    exact Nat.lt_succ_of_le Nat.and_le_right
  rcases List.mem_cons.mp hc with h | h
  · exact hexDigit_ne_dot hhigh h.symm
  · exact hexDigit_ne_dot hlow (List.mem_singleton.mp h).symm

private theorem dot_not_mem_itoa (i : ℤ) : 0x2E ∉ itoa i := by
  have hdigits : 0x2E ∉ natText i.natAbs := by
    intro hmem
    exact absurd (natText_isDigit _ _ hmem) (by decide)
  rw [itoa]
  split
  · rw [List.mem_cons, not_or]
    exact ⟨by decide, hdigits⟩
  · exact hdigits

/-- A token is cut at its dots into what it was made of. -/
theorem split_token {signature : GoString} (h : 0x2E ∉ signature) (t level : ℤ) :
    split (signature ++ str "." ++ itoa t ++ str "." ++ itoa level) 0x2E =
      [signature, itoa t, itoa level] := by
  have hdots : signature ++ str "." ++ itoa t ++ str "." ++ itoa level =
      signature ++ 0x2E :: (itoa t ++ 0x2E :: itoa level) := by
    have hdot : str "." = [0x2E] := rfl
    simp [hdot]
  rw [split, hdots, List.splitOn_append_cons_self_of_not_mem h,
    List.splitOn_append_cons_self_of_not_mem (dot_not_mem_itoa t),
    List.splitOn_eq_singleton (dot_not_mem_itoa level)]

/-! ### The round trip -/

/-- Within the duration of the challenge neither check of the time fails. -/
private theorem clock_checks {t now duration : Int64} (h : t.toInt ≤ now.toInt)
    (hd : now.toInt ≤ t.toInt + duration.toInt) :
    ¬ duration < now - t ∧ ¬ challengeClockSkew < t - now := by
  have hmax : duration.toInt < 2 ^ 63 := duration.toInt_lt
  have hage : (now - t).toInt = now.toInt - t.toInt := by
    rw [Int64.toInt_sub]
    exact Int.bmod_eq_of_le (by omega) (by omega)
  have hahead : (t - now).toInt = t.toInt - now.toInt := by
    rw [Int64.toInt_sub]
    exact Int.bmod_eq_of_le (by omega) (by omega)
  have hskew : challengeClockSkew.toInt = 60 := by decide
  rw [Int64.lt_iff_toInt_lt, Int64.lt_iff_toInt_lt, hage, hahead, hskew]
  omega

/-- What a token is accepted on. -/
theorem verifyCookie_issueToken (mac : GoString → GoString → Bytes 32) (secret : GoString)
    (r : Request) (t now duration level : Int64) (clientIP ua : GoString) :
    (ChallengeValidator.mk mac secret duration now).verifyCookie (issueToken mac secret r t level)
        clientIP ua =
      if level < 0 ∨ 3 < level then none
      else if duration < now - t then none
      else if challengeClockSkew < t - now then none
      else if sign mac (wafSecret secret) (clearancePayload (verifyClientIP r) r.userAgent t level) =
          sign mac (wafSecret secret) (clearancePayload clientIP ua t level) then some level
      else none := by
  rw [ChallengeValidator.verifyCookie, issueToken, split_token (dot_not_mem_sign _ _ _)]
  dsimp only
  rw [if_neg (not_not.mpr (length_sign _ _ _)), parseInt64_itoa, parseInt64_itoa]

/-- Within the duration of the challenge a token is accepted on the MAC alone. -/
private theorem verifyCookie_token {mac : GoString → GoString → Bytes 32} {secret : GoString}
    {r : Request} {t now duration level : Int64} (clientIP ua : GoString)
    (hlevel : 0 ≤ level ∧ level ≤ 3) (h : t.toInt ≤ now.toInt)
    (hd : now.toInt ≤ t.toInt + duration.toInt) :
    (ChallengeValidator.mk mac secret duration now).verifyCookie (issueToken mac secret r t level)
        clientIP ua =
      if sign mac (wafSecret secret) (clearancePayload (verifyClientIP r) r.userAgent t level) =
          sign mac (wafSecret secret) (clearancePayload clientIP ua t level) then some level
      else none := by
  obtain ⟨hage, hahead⟩ := clock_checks h hd
  have hrange : ¬ (level < 0 ∨ 3 < level) := by
    rw [not_or, Int64.not_lt, Int64.not_lt]
    exact hlevel
  rw [verifyCookie_issueToken, if_neg hrange, if_neg hage, if_neg hahead]

/-- A MAC that tells one message from all others. -/
private def separatingMac (payload : GoString) : GoString → GoString → Bytes 32 :=
  fun _ p => ⟨List.replicate 32 (if p = payload then 0 else 1), List.length_replicate⟩

private theorem separatingMac_inj {payload p secret : GoString}
    (h : sign (separatingMac payload) secret payload = sign (separatingMac payload) secret p) :
    p = payload := by
  by_contra hne
  have hzero : sign (separatingMac payload) secret payload = hexEncode (List.replicate 32 0) := by
    simp [sign, separatingMac]
  have hone : sign (separatingMac payload) secret p = hexEncode (List.replicate 32 1) := by
    simp [sign, separatingMac, hne]
  rw [hzero, hone] at h
  exact absurd h (by decide)

/-- The clearance works for a request behind an application's trusted proxies: whatever the MAC,
the secret, the times and the level, the token it is issued is accepted with its level on every
later request with the same address, headers and user agent, for the duration of the challenge. -/
def ClearanceAccepted (r : Request) (trustedProxies : List GoString) : Prop :=
  ∀ (mac : GoString → GoString → Bytes 32) (secret : GoString)
    (t now duration level : Int64) (later : Request),
    0 ≤ level ∧ level ≤ 3 → t.toInt ≤ now.toInt → now.toInt ≤ t.toInt + duration.toInt →
    later.remoteAddr = r.remoteAddr → later.cfIP = r.cfIP → later.xff = r.xff →
    later.userAgent = r.userAgent →
    (ChallengeValidator.mk mac secret duration now).verifyCookie
      (issueToken mac secret r t level) (getClientIP later trustedProxies) later.userAgent =
        some level

/-- **When a clearance is accepted**: if and only if the handler's walk over the trusted proxies
ends at the address the issuer signed. -/
theorem clearanceAccepted_iff (r : Request) (trustedProxies : List GoString) :
    ClearanceAccepted r trustedProxies ↔
      trustedProxies = [] ∨ r.xff = [] ∨
        let hops := (split r.xff 0x2C).map trimSpace
        (hops.reverse.find? fun ip => !isTrusted trustedProxies ip).getD
            (trimSpace ((split r.xff 0x2C).headD [])) =
          if r.cfIP ≠ [] then trimSpace r.cfIP
          else trimSpace ((split r.xff 0x2C).headD []) := by
  rw [← clientIP_agree_iff]
  constructor
  · -- a MAC that tells the signed payload from the others makes the two addresses equal
    intro h
    have haccept := h
      (separatingMac (clearancePayload (verifyClientIP r) r.userAgent 0 0)) [] 0 0 0 0 r
      (by decide) le_rfl (by decide) rfl rfl rfl rfl
    rw [verifyCookie_token _ _ (by decide) le_rfl (by decide)] at haccept
    have hsign := (Option.ite_none_right_eq_some.mp haccept).1
    have hpayload := separatingMac_inj hsign
    unfold clearancePayload at hpayload
    simpa using hpayload
  · intro hip mac secret t now duration level later hlevel hnow hage haddr hcf hxff hua
    have hlater : getClientIP later trustedProxies = getClientIP r trustedProxies := by
      simp only [getClientIP, extractClientIPStatic, Request.remoteHost, haddr, hcf, hxff]
    rw [verifyCookie_token _ _ hlevel hnow hage, hlater, hip, hua, if_pos rfl]

/-- A request through a trusted proxy whose first entry in `X-Forwarded-For` the client made up:
the clearance it is issued is for another address than the one it is checked for. -/
def forwardedRequest : Request where
  method := str "POST"
  path := str "/__waf_verify"
  rawPath := []
  rawQuery := []
  requestURI := str "/__waf_verify"
  host := str "example.com"
  proto := str "HTTP/1.1"
  header key := if key = str "X-Forwarded-For" then [str "1.1.1.1, 203.0.113.7"] else []
  cookies := []
  remoteAddr := str "10.0.0.1:4711"
  tls := false

/-- Behind one trusted proxy, a visitor whose request already had an `X-Forwarded-For` header is
refused the clearance it was just issued. -/
theorem clearance_refused_behind_proxy :
    ¬ ∀ (r : Request) (trustedProxies : List GoString), ClearanceAccepted r trustedProxies := by
  intro h
  have haccept := h forwardedRequest [str "10.0.0.0/8"]
    (separatingMac (clearancePayload (str "1.1.1.1") [] 0 0)) [] 0 0 0 0 forwardedRequest
    (by decide) le_rfl (by decide) rfl rfl rfl rfl
  revert haccept
  decide

end VibesWaf

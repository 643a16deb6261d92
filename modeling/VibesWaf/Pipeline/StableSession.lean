import Mathlib.Logic.Function.Basic
import VibesWaf.Lib.Separated
import VibesWaf.Pipeline.Execute
import VibesWaf.RateLimit.Service

/-!
# Stable sessions

The scorer keeps, for each address, a record of its last request in Redis: its JA4, a part of its
JA4H, its HTTP fingerprint and a hash of its user agent, with a `|` between them. A request gets a
discount when the record that is read back has its JA4 and its fingerprint. The first two strings
come from headers of the client, and may contain the separator.

`readStored_buildStoredValue_iff` says which records are read back as they were written.
`stableSession_iff` is about runs of requests of any addresses, with the record of one lost at any
time: the discounts of a run are deserved exactly if no request meets a record that is mistaken for
its own.
-/

namespace VibesWaf

/-! ### Records -/

structure SessionRecord where
  ja4 : GoString
  ja4hHeaderHash : GoString
  fingerprint : GoString
  uaHash : GoString
  deriving DecidableEq

/-- `buildStoredValue`. -/
def buildStoredValue (r : SessionRecord) : GoString :=
  r.ja4 ++ str "|" ++ r.ja4hHeaderHash ++ str "|" ++ r.fingerprint ++ str "|" ++ r.uaHash

/-- What `Handle` reads of a stored value. -/
def readStored (stored : GoString) : SessionRecord :=
  match split stored 0x7C with
  | ja4 :: ja4h :: fp :: ua :: _ => ⟨ja4, ja4h, fp, ua⟩
  | _ => ⟨[], [], stored, []⟩

/-- What is written is the record with a separator between its fields. -/
theorem buildStoredValue_eq (r : SessionRecord) :
    buildStoredValue r =
      [(0x7C : UInt8)].intercalate [r.ja4, r.ja4hHeaderHash, r.fingerprint, r.uaHash] := by
  have hpipe : str "|" = [0x7C] := by decide
  simp [buildStoredValue, hpipe]

/-- The pieces that are read are those of the fields. -/
theorem split_buildStoredValue (r : SessionRecord) :
    split (buildStoredValue r) 0x7C =
      split r.ja4 0x7C ++ (split r.ja4hHeaderHash 0x7C ++
        (split r.fingerprint 0x7C ++ split r.uaHash 0x7C)) := by
  rw [split, buildStoredValue_eq, splitOn_intercalate_eq_flatMap (List.cons_ne_nil _ _)]
  simp [split]

/-- There are always four pieces. -/
theorem exists_pieces (r : SessionRecord) : ∃ ja4 ja4h fp ua rest,
    split (buildStoredValue r) 0x7C = ja4 :: ja4h :: fp :: ua :: rest := by
  have hpiece : ∀ s : GoString, ∃ head rest, split s 0x7C = head :: rest :=
    fun s => List.exists_cons_of_ne_nil (List.splitOn_ne_nil 0x7C s)
  obtain ⟨ja4, more, hja4⟩ := hpiece r.ja4
  obtain ⟨ja4h, moreh, hja4h⟩ := hpiece r.ja4hHeaderHash
  obtain ⟨fp, morefp, hfp⟩ := hpiece r.fingerprint
  obtain ⟨ua, moreua, hua⟩ := hpiece r.uaHash
  have hlength : 4 ≤ (split (buildStoredValue r) 0x7C).length := by
    rw [split_buildStoredValue, hja4, hja4h, hfp, hua]
    simp only [List.length_append, List.length_cons]
    omega
  match hsplit : split (buildStoredValue r) 0x7C with
  | p :: q :: t :: u :: rest => exact ⟨p, q, t, u, rest, rfl⟩
  | [] | [_] | [_, _] | [_, _, _] =>
    rw [hsplit] at hlength
    exact absurd hlength (by simp)

/-- **A record is read back** as it was written exactly if none of its strings contains the
separator. -/
theorem readStored_buildStoredValue_iff (r : SessionRecord) :
    readStored (buildStoredValue r) = r ↔
      0x7C ∉ r.ja4 ∧ 0x7C ∉ r.ja4hHeaderHash ∧ 0x7C ∉ r.fingerprint ∧ 0x7C ∉ r.uaHash := by
  constructor
  · intro hread
    obtain ⟨ja4, ja4h, fp, ua, rest, hsplit⟩ := exists_pieces r
    have hnot : ∀ piece ∈ [ja4, ja4h, fp, ua], 0x7C ∉ piece := by
      intro piece hpiece
      refine not_mem_of_mem_splitOn (l := buildStoredValue r) ?_
      rw [split] at hsplit
      rw [hsplit]
      change piece ∈ [ja4, ja4h, fp, ua] ++ rest
      exact List.mem_append_left rest hpiece
    rw [readStored, hsplit] at hread
    rw [← hread]
    simpa using hnot
  · rintro ⟨hja4, hja4h, hfp, hua⟩
    rw [readStored, split_buildStoredValue]
    simp only [split, List.splitOn_eq_singleton hja4, List.splitOn_eq_singleton hja4h,
      List.splitOn_eq_singleton hfp, List.splitOn_eq_singleton hua, List.singleton_append]

/-- The JA4 is read from the first piece. -/
theorem readStored_ja4_eq_iff (r : SessionRecord) (ja4 : GoString) :
    (readStored (buildStoredValue r)).ja4 = ja4 ↔
      (split (buildStoredValue r) 0x7C)[0]? = some ja4 := by
  obtain ⟨p, q, t, u, rest, hsplit⟩ := exists_pieces r
  rw [readStored, hsplit]
  exact Option.some_inj.symm

/-- The fingerprint is read from the third piece. -/
theorem readStored_fingerprint_eq_iff (r : SessionRecord) (fp : GoString) :
    (readStored (buildStoredValue r)).fingerprint = fp ↔
      (split (buildStoredValue r) 0x7C)[2]? = some fp := by
  obtain ⟨p, q, t, u, rest, hsplit⟩ := exists_pieces r
  rw [readStored, hsplit]
  exact Option.some_inj.symm

/-- The record of `r` is taken for one of `q`, though the two differ in the JA4 or the fingerprint.
The piece that is compared with the fingerprint comes from the JA4 if that has two separators, and
else from the part of the JA4H. -/
def MistakenFor (r q : SessionRecord) : Prop :=
  match split r.ja4 0x7C with
  | [] => False
  | [ja4] =>
    ja4 = q.ja4 ∧ (split r.ja4hHeaderHash 0x7C)[1]? = some q.fingerprint ∧
      r.fingerprint ≠ q.fingerprint
  | [ja4, _] => ja4 = q.ja4 ∧ (split r.ja4hHeaderHash 0x7C)[0]? = some q.fingerprint
  | ja4 :: _ :: third :: _ => ja4 = q.ja4 ∧ third = q.fingerprint

instance (r q : SessionRecord) : Decidable (MistakenFor r q) := by
  unfold MistakenFor
  split <;> infer_instance

/-- A record whose strings from the client's headers have no separator is never mistaken. -/
theorem not_mistakenFor {r : SessionRecord} (hja4 : 0x7C ∉ r.ja4) (hja4h : 0x7C ∉ r.ja4hHeaderHash)
    (q : SessionRecord) : ¬ MistakenFor r q := by
  rw [MistakenFor, split, split, List.splitOn_eq_singleton hja4, List.splitOn_eq_singleton hja4h]
  rintro ⟨-, hsecond, -⟩
  exact absurd hsecond (by simp)

/-- **A record is mistaken** exactly if what is read of it has the JA4 and the fingerprint of
another. -/
theorem mistakenFor_iff {r : SessionRecord} (hfp : 0x7C ∉ r.fingerprint) (q : SessionRecord) :
    MistakenFor r q ↔
      ((readStored (buildStoredValue r)).ja4 = q.ja4 ∧
        (readStored (buildStoredValue r)).fingerprint = q.fingerprint) ∧
      ¬ (r.ja4 = q.ja4 ∧ r.fingerprint = q.fingerprint) := by
  have hfp' : split r.fingerprint 0x7C = [r.fingerprint] := List.splitOn_eq_singleton hfp
  obtain ⟨ja4h, moreh, hja4h⟩ : ∃ ja4h moreh, split r.ja4hHeaderHash 0x7C = ja4h :: moreh :=
    List.exists_cons_of_ne_nil (List.splitOn_ne_nil 0x7C r.ja4hHeaderHash)
  rw [MistakenFor, readStored_ja4_eq_iff, readStored_fingerprint_eq_iff, split_buildStoredValue,
    hfp', hja4h]
  match hja4 : split r.ja4 0x7C with
  | [] => exact absurd hja4 (List.splitOn_ne_nil 0x7C r.ja4)
  | [ja4] =>
    obtain rfl : r.ja4 = ja4 := eq_of_splitOn_singleton hja4
    -- the fingerprint is the third piece only if the part of the JA4H is one piece
    rcases moreh with _ | ⟨second, moreh⟩
    · simp
    · simp
      tauto
  | [ja4, second] =>
    have hne : r.ja4 ≠ ja4 := ne_of_splitOn_cons_cons hja4
    simp only [List.cons_append, List.nil_append, List.getElem?_cons_zero, List.getElem?_cons_succ,
      Option.some_inj]
    exact ⟨fun h => ⟨h, fun hsame => hne (hsame.1.trans h.1.symm)⟩, And.left⟩
  | ja4 :: second :: third :: rest =>
    have hne : r.ja4 ≠ ja4 := ne_of_splitOn_cons_cons hja4
    simp only [List.cons_append, List.getElem?_cons_zero, List.getElem?_cons_succ, Option.some_inj]
    exact ⟨fun h => ⟨h, fun hsame => hne (hsame.1.trans h.1.symm)⟩, And.left⟩

/-! ### The handler -/

/-- `extractHeaderHashFromJA4H`. -/
def extractHeaderHashFromJA4H (ja4h : GoString) : GoString :=
  if hasPrefix ja4h (str "ja4h_") = false then []
  else ((split ja4h 0x5F)[2]?).getD []

/-- The extras `ja4` and `ja4h_header_hash`, which `checkJA4Anomaly` sets unless its handler is
skipped. -/
def fingerprintExtras (ctx : Context) : GoString × GoString :=
  if ctx.hardDecision || ctx.challengePassed || ctx.shouldSkipModule (str "protocol_anomaly") ||
      ctx.isPhaseSkipped (str "protocol_anomaly") then ([], [])
  else
    (ctx.request.get (str "X-JA4"),
      extractHeaderHashFromJA4H (ctx.request.get (str "X-JA4H")))

/-- The headers of `GenerateFingerprint`. -/
def sortedHeaders : List GoString :=
  [str "Accept", str "Accept-Encoding", str "Accept-Language", str "Sec-Fetch-Dest",
    str "Sec-Fetch-Mode", str "Sec-Fetch-Site", str "User-Agent"]

/-- A named value, unless it is empty. -/
def fingerprintPart (name value : GoString) : GoString :=
  if value = [] then [] else name ++ str ":" ++ value ++ str "|"

/-- What a request tells of its connection: `ProtoMajor`, `ProtoMinor` and, of a TLS connection,
the version and the negotiated protocol. -/
structure Connection where
  protoMajor : ℤ
  protoMinor : ℤ
  tlsVersion : UInt16
  negotiatedProtocol : GoString

/-- `GenerateFingerprint`. -/
def generateFingerprint (r : Request) (c : Connection) : GoString :=
  RateLimitService.hex16 (RateLimitService.fnv64a
    (sortedHeaders.flatMap (fun name => fingerprintPart name (r.get name)) ++
      fingerprintPart (str "ja4") (r.get (str "X-JA4")) ++
      fingerprintPart (str "ja4h") (r.get (str "X-JA4H")) ++
      (str "http_version:" ++ itoa c.protoMajor ++ str "." ++ itoa c.protoMinor ++ str "|") ++
      if r.tls then
        str "tls_version:" ++ natText c.tlsVersion.toNat ++ str "|" ++
          fingerprintPart (str "alpn") c.negotiatedProtocol
      else []))

/-- The stored value is one of the request. -/
def sessionMatches (current : SessionRecord) : Option GoString → Bool
  | none => false
  | some stored =>
    let previous := readStored stored
    stored ≠ [] ∧ (previous.ja4 = current.ja4 ∧ current.ja4 ≠ []) ∧
      previous.fingerprint = current.fingerprint

theorem sessionMatches_buildStoredValue_iff (current r : SessionRecord) :
    sessionMatches current (some (buildStoredValue r)) = true ↔
      current.ja4 ≠ [] ∧ (readStored (buildStoredValue r)).ja4 = current.ja4 ∧
        (readStored (buildStoredValue r)).fingerprint = current.fingerprint := by
  have hne : buildStoredValue r ≠ [] := by
    intro hnil
    have hpieces := exists_pieces r
    rw [hnil] at hpieces
    simp [split] at hpieces
  simp only [sessionMatches, decide_eq_true_eq]
  tauto

section Handler

variable [GoLib] (sha256 : GoString → Bytes 32)

/-- `computeUAHash`. -/
def computeUAHash (ua : GoString) : GoString :=
  if ua = [] then [] else (hexEncode (sha256 (toLower ua)).1).take 12

/-- The record of a request. -/
def sessionRecord (ctx : Context) : SessionRecord where
  ja4 := (fingerprintExtras ctx).1
  ja4hHeaderHash := (fingerprintExtras ctx).2
  fingerprint := ctx.httpFingerprint
  uaHash := computeUAHash sha256 ctx.normalized.ua

/-- `StableSessionScorer.Handle`, with the entry of the address before and after it. The first two
outcomes that it traces, a new record and a changed one, differ in nothing else. -/
def handleStableSession (svc : ScoringServices) (getFails setFails : Bool) (ctx : Context)
    (entry : Option GoString) : Context × Option GoString :=
  if ctx.hardDecision then (ctx, entry)
  else
    match svc.config with
    | none => (ctx, entry)
    | some cfg =>
      if cfg.stableSession = 0 ∨ svc.redisEnabled = false ∨ ctx.httpFingerprint = [] then
        (ctx, entry)
      else
        let current := sessionRecord sha256 ctx
        let entry' := if setFails then entry else some (buildStoredValue current)
        if sessionMatches current (if getFails then none else entry) then
          (ctx.addScore .trust cfg.stableSession, entry')
        else (ctx, entry')

/-- The handler of phase 2 is this one, with the entry seen as an answer of the services. -/
theorem handleStableSession_fst (svc : ScoringServices) (getFails setFails : Bool) (ctx : Context)
    (entry : Option GoString) :
    (handleStableSession sha256 svc getFails setFails ctx entry).1 =
      stableSessionScorer
        { svc with
          sessionMatches :=
            sessionMatches (sessionRecord sha256 ctx) (if getFails then none else entry) }
        ctx := by
  rw [handleStableSession, stableSessionScorer]
  split
  · rfl
  · cases svc.config with
    | none => rfl
    | some cfg =>
      dsimp only
      split
      · rfl
      · exact apply_ite Prod.fst _ _ _

end Handler

/-! ### Runs -/

/-- One request: the context with which it reaches the scorer, its connection, and what the
services answer. -/
structure SessionVisit where
  ctx : Context
  connection : Connection
  svc : ScoringServices
  getFails : Bool
  setFails : Bool

inductive SessionEvent
  | visit (v : SessionVisit)
  /-- Redis drops an entry. -/
  | drop (key : GoString)

namespace SessionVisit

/-- The context with the fingerprint of the request. -/
def context (v : SessionVisit) : Context :=
  { v.ctx with httpFingerprint := generateFingerprint v.ctx.request v.connection }

/-- The key of the address. -/
def key (v : SessionVisit) : GoString :=
  str "ss:" ++ v.ctx.clientIP

/-- The scorer comes to look at the entry. -/
def looks (v : SessionVisit) : Bool :=
  !v.ctx.hardDecision && v.svc.redisEnabled && v.svc.config.any (·.stableSession ≠ 0)

section

variable [GoLib] (sha256 : GoString → Bytes 32)

/-- The record of the request. -/
def record (v : SessionVisit) : SessionRecord :=
  sessionRecord sha256 v.context

/-- The scorer, on the entry of the address. -/
def handle (v : SessionVisit) (entry : Option GoString) : Context × Option GoString :=
  handleStableSession sha256 v.svc v.getFails v.setFails v.context entry

/-- The record that the request leaves. -/
def recorded (v : SessionVisit) : Option SessionRecord :=
  if v.looks && !v.setFails then some (v.record sha256) else none

/-- The scorer changes the score of the request. -/
def Rewarded (v : SessionVisit) (entry : Option GoString) : Prop :=
  (v.handle sha256 entry).1.riskScore ≠ v.context.riskScore

end

end SessionVisit

abbrev SessionStore := GoString → Option GoString

section Runs

variable [GoLib] (sha256 : GoString → Bytes 32)

/-- The store after an event. -/
def SessionStore.step (store : SessionStore) : SessionEvent → SessionStore
  | .visit v => Function.update store v.key (v.handle sha256 (store v.key)).2
  | .drop key => Function.update store key none

/-- The store after the events. -/
def sessionStore (events : List SessionEvent) : SessionStore :=
  events.foldl (SessionStore.step sha256) fun _ => none

/-- The record an event leaves for an address. -/
def SessionEvent.recordedFor (ip : GoString) : SessionEvent → Option SessionRecord
  | .visit v => if v.ctx.clientIP = ip then v.recorded sha256 else none
  | .drop _ => none

/-- The last record of an address. -/
def lastRecorded (ip : GoString) (events : List SessionEvent) : Option SessionRecord :=
  (events.filterMap (SessionEvent.recordedFor sha256 ip)).getLast?

/-- The request meets a record of its address that is mistaken for its own. -/
def SessionVisit.Deceived (v : SessionVisit) (past : List SessionEvent) : Prop :=
  v.looks = true ∧ v.getFails = false ∧ sessionStore sha256 past v.key ≠ none ∧
    (v.record sha256).ja4 ≠ [] ∧
    ∃ r ∈ lastRecorded sha256 v.ctx.clientIP past, MistakenFor r (v.record sha256)

/-! ### What a visit does -/

omit [GoLib] in
theorem not_mem_hex16 (n : UInt64) : (0x7C : UInt8) ∉ RateLimitService.hex16 n := by
  have hdigit : ∀ d < 16, RateLimitService.hexDigit d ≠ 0x7C := by decide
  rw [RateLimitService.hex16, List.mem_map]
  rintro ⟨i, -, hi⟩
  exact hdigit _ (Nat.mod_lt _ (by decide)) hi

namespace SessionVisit

omit [GoLib] in
/-- The fingerprint of a request is never empty. -/
private theorem context_fingerprint_ne_nil (v : SessionVisit) : v.context.httpFingerprint ≠ [] := by
  intro hnil
  have hlength := congrArg List.length hnil
  simp [context, generateFingerprint, RateLimitService.hex16] at hlength

/-- A visit that looks at the entry. -/
theorem handle_of_looks {v : SessionVisit} (h : v.looks = true) (entry : Option GoString) :
    ∃ cfg : ScoringConfig, cfg.stableSession ≠ 0 ∧
      v.handle sha256 entry =
        (if sessionMatches (v.record sha256) (if v.getFails then none else entry) then
          v.context.addScore .trust cfg.stableSession else v.context,
        if v.setFails then entry else some (buildStoredValue (v.record sha256))) := by
  simp only [looks, Bool.and_eq_true, Bool.not_eq_true', Option.any_eq_true,
    decide_eq_true_eq] at h
  obtain ⟨⟨hhard, hredis⟩, cfg, hcfg, hreduction⟩ := h
  have hhard' : v.context.hardDecision = false := hhard
  refine ⟨cfg, hreduction, ?_⟩
  rw [handle, handleStableSession, hhard', if_neg Bool.false_ne_true, hcfg]
  dsimp only
  rw [if_neg (by simp [hreduction, hredis, v.context_fingerprint_ne_nil])]
  exact (apply_ite (fun ctx' => (ctx', if v.setFails then entry else some _)) _ _ _).symm

/-- A visit that does not changes nothing. -/
theorem handle_of_not_looks {v : SessionVisit} (h : v.looks = false) (entry : Option GoString) :
    v.handle sha256 entry = (v.context, entry) := by
  have hhard : v.context.hardDecision = v.ctx.hardDecision := rfl
  rw [handle, handleStableSession, hhard]
  rw [looks] at h
  cases hard : v.ctx.hardDecision with
  | true => rfl
  | false =>
    rw [if_neg Bool.false_ne_true]
    cases hcfg : v.svc.config with
    | none => rfl
    | some cfg =>
      refine if_pos ?_
      rw [hard, hcfg] at h
      by_contra hlooks
      simp only [not_or] at hlooks
      simp [hlooks.1, hlooks.2.1] at h

theorem rewarded_iff (v : SessionVisit) (entry : Option GoString) :
    v.Rewarded sha256 entry ↔
      v.looks = true ∧
        sessionMatches (v.record sha256) (if v.getFails then none else entry) = true := by
  cases hlooks : v.looks with
  | false => simp [Rewarded, handle_of_not_looks sha256 hlooks]
  | true =>
    obtain ⟨cfg, hreduction, hhandle⟩ := handle_of_looks sha256 hlooks entry
    rw [Rewarded, hhandle, and_iff_right rfl]
    by_cases hmatch : sessionMatches (v.record sha256) (if v.getFails then none else entry) = true
    · rw [if_pos hmatch]
      refine iff_of_true (fun heq => hreduction ?_) hmatch
      have htrust := congrArg RiskScore.trust heq
      have hadd : (v.context.addScore .trust cfg.stableSession).riskScore.trust =
          v.context.riskScore.trust + cfg.stableSession := rfl
      rw [hadd] at htrust
      omega
    · rw [if_neg hmatch]
      exact iff_of_false (fun hne => hne rfl) hmatch

end SessionVisit

/-! ### Runs of the scorer -/

omit [GoLib] in
private theorem key_inj {v : SessionVisit} {ip : GoString} :
    str "ss:" ++ ip = v.key ↔ ip = v.ctx.clientIP :=
  List.append_right_inj _

theorem sessionStore_append (past : List SessionEvent) (e : SessionEvent) :
    sessionStore sha256 (past ++ [e]) = (sessionStore sha256 past).step sha256 e :=
  List.foldl_concat _ _ _ _

theorem lastRecorded_append (ip : GoString) (past : List SessionEvent) (e : SessionEvent) :
    lastRecorded sha256 ip (past ++ [e]) =
      (e.recordedFor sha256 ip).or (lastRecorded sha256 ip past) := by
  rw [lastRecorded, List.filterMap_append, lastRecorded]
  cases hrecorded : e.recordedFor sha256 ip with
  | none => simp [hrecorded]
  | some r => simp [hrecorded]

/-- One event keeps the entry of an address the last record of it. -/
theorem entry_step {past : List SessionEvent} {ip : GoString}
    (h : ∀ text ∈ sessionStore sha256 past (str "ss:" ++ ip),
      (lastRecorded sha256 ip past).map buildStoredValue = some text) (e : SessionEvent) :
    ∀ text ∈ sessionStore sha256 (past ++ [e]) (str "ss:" ++ ip),
      (lastRecorded sha256 ip (past ++ [e])).map buildStoredValue = some text := by
  rw [sessionStore_append, lastRecorded_append]
  cases e with
  | drop key =>
    intro text htext
    by_cases hkey : str "ss:" ++ ip = key
    · rw [SessionStore.step, hkey, Function.update_self] at htext
      exact absurd htext (by simp)
    · rw [SessionStore.step, Function.update_of_ne hkey] at htext
      exact h text htext
  | visit v =>
    intro text htext
    by_cases hip : ip = v.ctx.clientIP
    · rw [SessionStore.step, key_inj.mpr hip, Function.update_self, ← key_inj.mpr hip] at htext
      rw [SessionEvent.recordedFor, if_pos hip.symm]
      cases hlooks : v.looks with
      | false =>
        rw [SessionVisit.handle_of_not_looks sha256 hlooks] at htext
        rw [SessionVisit.recorded, hlooks]
        exact h text htext
      | true =>
        obtain ⟨cfg, -, hhandle⟩ := SessionVisit.handle_of_looks sha256 hlooks
          (sessionStore sha256 past (str "ss:" ++ ip))
        rw [hhandle] at htext
        rw [SessionVisit.recorded, hlooks]
        cases hset : v.setFails with
        | true =>
          rw [hset] at htext
          exact h text htext
        | false =>
          rw [hset] at htext
          exact htext
    · rw [SessionStore.step, Function.update_of_ne fun hkey => hip (key_inj.mp hkey)] at htext
      rw [SessionEvent.recordedFor, if_neg fun heq => hip heq.symm]
      exact h text htext

/-- **The entry of an address** is its last record. -/
theorem entry_eq (past : List SessionEvent) (ip : GoString) :
    ∀ text ∈ sessionStore sha256 past (str "ss:" ++ ip),
      (lastRecorded sha256 ip past).map buildStoredValue = some text := by
  induction past using List.reverseRecOn with
  | nil => exact fun text htext => absurd htext (by simp [sessionStore])
  | append_singleton past e ih => exact entry_step sha256 ih e

/-- The fingerprint of a record is hexadecimal. -/
theorem lastRecorded_fingerprint {past : List SessionEvent} {ip : GoString} {r : SessionRecord}
    (h : r ∈ lastRecorded sha256 ip past) : 0x7C ∉ r.fingerprint := by
  have hmem := List.mem_of_getLast? h
  obtain ⟨e, -, hrecorded⟩ := List.mem_filterMap.mp hmem
  cases e with
  | drop key => exact absurd hrecorded (by simp [SessionEvent.recordedFor])
  | visit v =>
    rw [SessionEvent.recordedFor, SessionVisit.recorded] at hrecorded
    split at hrecorded
    · split at hrecorded
      · obtain rfl := Option.some_inj.mp hrecorded
        exact not_mem_hex16 _
      · exact absurd hrecorded (by simp)
    · exact absurd hrecorded (by simp)

/-- **A discount is undeserved** exactly if the request meets a record that is mistaken for its
own. -/
theorem undeserved_iff (v : SessionVisit) (past : List SessionEvent) :
    (v.Rewarded sha256 (sessionStore sha256 past v.key) ∧
      ¬ ∃ r ∈ lastRecorded sha256 v.ctx.clientIP past,
        r.ja4 = (v.record sha256).ja4 ∧ r.fingerprint = (v.record sha256).fingerprint) ↔
      v.Deceived sha256 past := by
  rw [SessionVisit.rewarded_iff, SessionVisit.Deceived]
  have hentry := entry_eq sha256 past v.ctx.clientIP
  change ∀ text ∈ sessionStore sha256 past v.key, _ at hentry
  cases hstored : sessionStore sha256 past v.key with
  | none => simp [sessionMatches]
  | some text =>
    rw [hstored] at hentry
    obtain ⟨r, hlast, htext⟩ := Option.map_eq_some_iff.mp (hentry text rfl)
    have hmistaken := mistakenFor_iff (lastRecorded_fingerprint sha256 hlast) (v.record sha256)
    cases hget : v.getFails with
    | true => simp [sessionMatches]
    | false =>
      have hmatch := sessionMatches_buildStoredValue_iff (v.record sha256) r
      simp only [hlast, ← htext, Bool.false_eq_true, if_false, hmatch, Option.mem_def,
        Option.some_inj, exists_eq_left', hmistaken, ne_eq, reduceCtorEq, not_false_eq_true,
        true_and, and_assoc]

/-- **Discounts of a run** are deserved, each by the last record of the address, exactly if no
request meets a record that is mistaken for its own; and a record is read back as it was written
exactly if none of its strings contains the separator. -/
theorem stableSession_iff (events : List SessionEvent) :
    ((∀ (past : List SessionEvent) (v : SessionVisit) (rest : List SessionEvent),
        events = past ++ .visit v :: rest → v.Rewarded sha256 (sessionStore sha256 past v.key) →
        ∃ r ∈ lastRecorded sha256 v.ctx.clientIP past,
          r.ja4 = (v.record sha256).ja4 ∧ r.fingerprint = (v.record sha256).fingerprint) ↔
      ∀ (past : List SessionEvent) (v : SessionVisit) (rest : List SessionEvent),
        events = past ++ .visit v :: rest → ¬ v.Deceived sha256 past) ∧
      ∀ r : SessionRecord, readStored (buildStoredValue r) = r ↔
        0x7C ∉ r.ja4 ∧ 0x7C ∉ r.ja4hHeaderHash ∧ 0x7C ∉ r.fingerprint ∧ 0x7C ∉ r.uaHash := by
  refine ⟨?_, readStored_buildStoredValue_iff⟩
  constructor
  · intro hdeserved past v rest hevents hdeceived
    obtain ⟨hrewarded, hundeserved⟩ := (undeserved_iff sha256 v past).mpr hdeceived
    exact hundeserved (hdeserved past v rest hevents hrewarded)
  · intro hnever past v rest hevents hrewarded
    by_contra hundeserved
    exact hnever past v rest hevents ((undeserved_iff sha256 v past).mp ⟨hrewarded, hundeserved⟩)

end Runs

section Evaluated

attribute [local instance] asciiLib

/-- A client with a JA4 of its own. -/
def sessionVisit (ja4 : GoString) : SessionVisit where
  ctx :=
    { plainVisit.context with
      request :=
        { plainRequest with header := fun key => if key = str "X-JA4" then [ja4] else [] } }
  connection := ⟨1, 1, 0, []⟩
  svc :=
    { quietServices.toScoringServices with
      config := quietServices.config.map fun cfg => { cfg with stableSession := -2 } }
  getFails := false
  setFails := false

/-- The first client sends the JA4 and the fingerprint of the second as parts of its own JA4: the
second gets the discount, though neither is its own. -/
theorem stableSession_deceived :
    let sha256 : GoString → Bytes 32 := fun _ => ⟨List.replicate 32 0, rfl⟩
    let second := sessionVisit (str "x")
    let first := sessionVisit (str "x||" ++ (second.record sha256).fingerprint)
    let past := [SessionEvent.visit first]
    second.Rewarded sha256 (sessionStore sha256 past second.key) ∧
      lastRecorded sha256 second.ctx.clientIP past = some (first.record sha256) ∧
      (first.record sha256).ja4 ≠ (second.record sha256).ja4 ∧
      (first.record sha256).fingerprint ≠ (second.record sha256).fingerprint := by
  intro sha256 second first past
  refine ⟨(SessionVisit.rewarded_iff sha256 second _).mpr ?_, ?_, ?_, ?_⟩
  · decide
  · decide
  · decide
  · decide

end Evaluated

end VibesWaf

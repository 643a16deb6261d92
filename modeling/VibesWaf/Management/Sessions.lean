import VibesWaf.Management.Access
import VibesWaf.Management.Tables

/-!
# Sessions

Whatever the requests, the clean-up and an operator do, and in whatever order their calls come,
a handler behind the session check is called only for who has logged in: `endpoint_of_login` finds
the login in the log, with no call after it that ends the session before the check.
-/

namespace VibesWaf

open Interleaving Management

variable {cfg : ApiConfig} {m : Management} {activities : ℕ → Activity}
  {log past rest : List (Call Outside AuthAns)} {c : Call Outside AuthAns} {token : GoString}

/-- The log of a run is a history of the tables and of the threads. -/
abbrev ApiHistory (cfg : ApiConfig) (m : Management) (activities : ℕ → Activity)
    (log : List (Call Outside AuthAns)) : Prop :=
  IsHistory (respond cfg.bcrypt) m (fun i => (activities i).program cfg) log

/-- The tables after some calls. -/
abbrev tablesAfter (cfg : ApiConfig) (m : Management) (log : List (Call Outside AuthAns)) :
    Management :=
  after (respond cfg.bcrypt) m log

theorem apiRun_isHistory (cfg : ApiConfig) (m : Management) (activities : ℕ → Activity)
    (moves : List (ℕ × Outside)) :
    ApiHistory cfg m activities (apiRun cfg m activities moves).log :=
  (run_isHistory _ m _ moves).1

/-- Every call of a history is one that its thread is entitled to. -/
theorem ApiHistory.entitled (h : ApiHistory cfg m activities log) (hlog : log = past ++ c :: rest) :
    (activities c.thread).Entitled cfg (callsOf c.thread past) c.op :=
  h.guarded (fun i => program_safe cfg (activities i)) ⟨rest, by simp [hlog]⟩

/-- Its call is one of a request that is entitled to it. -/
theorem ApiHistory.request_entitled (h : ApiHistory cfg m activities log)
    (hlog : log = past ++ c :: rest) {op : AuthOp} (hop : c.op = op)
    (hrequest : op.OfRequest = true) :
    ∃ r, activities c.thread = .request r ∧ r.Entitled cfg (callsOf c.thread past) op := by
  have hentitled := h.entitled hlog
  rw [hop] at hentitled
  exact hentitled.of_request hrequest

/-! ### What the tables say -/

/-- A query that is answered is answered with what is there. -/
theorem query_ok {α : Type} {o : Outside} {answer found : α} {m : Management}
    (h : Except.ok found = (m.query o answer).1) : found = answer := by
  rw [query] at h
  split at h
  · exact Except.ok.inj h
  · cases h

/-- A session that is found is in the table. -/
theorem mem_of_findByToken (h : ApiHistory cfg m activities log) (hlog : log = past ++ c :: rest)
    {row : SessionRow} (hevent : c.event = ⟨.findByToken token, .ok (some row)⟩) :
    row ∈ (tablesAfter cfg m past).sessions ∧ row.token = token := by
  have hfound := (query_ok (h.answer_eq hlog hevent).2).symm
  exact ⟨List.mem_of_find?_eq_some hfound, by simpa using List.find?_some hfound⟩

/-- A user that is found by its id is in the table, and switched on. -/
theorem mem_of_findByID (h : ApiHistory cfg m activities log) (hlog : log = past ++ c :: rest)
    {id : ℤ} {user : User} (hevent : c.event = ⟨.findByID id, .ok (some user)⟩) :
    user ∈ (tablesAfter cfg m past).users ∧ user.id = id ∧ user.enabled = true := by
  have hfound := (query_ok (h.answer_eq hlog hevent).2).symm
  exact ⟨List.mem_of_find?_eq_some hfound, by simpa using List.find?_some hfound⟩

/-- A user that is found by a name is in the table, has that name or address, and is switched
on. -/
theorem mem_of_findByUsernameOrEmail (h : ApiHistory cfg m activities log)
    (hlog : log = past ++ c :: rest) {text : GoString} {user : User}
    (hevent : c.event = ⟨.findByUsernameOrEmail text, .ok (some user)⟩) :
    user ∈ (tablesAfter cfg m past).users ∧ (user.username = text ∨ user.email = text) ∧
      user.enabled = true := by
  have hfound := (query_ok (h.answer_eq hlog hevent).2).symm
  have hmem := List.mem_of_getElem? hfound
  rw [List.mem_filter] at hmem
  simpa using hmem

/-- The clock says the time. -/
theorem now_eq (h : ApiHistory cfg m activities log) (hlog : log = past ++ c :: rest) {now : ℤ}
    (hevent : c.event = ⟨.now, now⟩) : c.op = .now ∧ now = c.input.now :=
  h.answer_eq hlog hevent

/-- Two users of one id at different times are one user, by name. -/
theorem name_eq (hwf : m.WellFormed) {before later : List (Call Outside AuthAns)} {u v : User}
    (hu : u ∈ (tablesAfter cfg m before).users)
    (hv : v ∈ (tablesAfter cfg m (before ++ later)).users) (hid : v.id = u.id) :
    v.username = u.username := by
  rw [tablesAfter, after_append_list] at hv
  exact name_of_id (hwf.after cfg.bcrypt before) cfg.bcrypt later hu hv hid

/-! ### Who gets in -/

/-- The call creates the session of a user, in a request that has shown the password. -/
structure OpenedBy (cfg : ApiConfig) (m : Management) (activities : ℕ → Activity)
    (before : List (Call Outside AuthAns)) (create : Call Outside AuthAns) (row : SessionRow)
    (user : User) : Prop where
  op : create.op = .createSession row.token user.id row.expiresAt
  /-- The row is in the table after it, and was not there before. -/
  opens : (tablesAfter cfg m before).Opens create row
  /-- The user that the request names is in the table, switched on, with a hash of the password. -/
  credentials : ∃ r req early late, activities create.thread = .request r ∧
    r.loginBody = some req ∧ before = early ++ late ∧ user ∈ (tablesAfter cfg m early).users ∧
    (user.username = req.username ∨ user.email = req.username) ∧ user.enabled = true ∧
    cfg.bcrypt.compareHashAndPassword user.passwordHash req.password = true
  /-- The session ends seven days after the time that the request has read. -/
  expires : ∃ c ∈ before, c.thread = create.thread ∧ c.op = .now ∧
    row.expiresAt = c.input.now + sessionTTL

theorem OpenedBy.draws {before : List (Call Outside AuthAns)} {create : Call Outside AuthAns}
    {row : SessionRow} {user : User} (h : OpenedBy cfg m activities before create row user) :
    create.op.Draws row.token := by
  rw [h.op]
  exact (rfl : row.token = row.token)

/-- **Every session** has been opened by a request that has logged in, and nothing since has ended
it. -/
theorem session_opened (h : ApiHistory cfg m activities log) (hnone : m.sessions = [])
    (hlog : log = past ++ rest) {row : SessionRow}
    (hrow : row ∈ (tablesAfter cfg m past).sessions) :
    ∃ before create between user, past = before ++ create :: between ∧ user.id = row.userID ∧
      OpenedBy cfg m activities before create row user ∧
        ∀ d ∈ between, ¬ Management.Closes row d := by
  rcases (mem_sessions_after cfg.bcrypt m past row).mp hrow with ⟨hinit, -⟩ |
    ⟨before, create, between, rfl, hopens, hbetween⟩
  · rw [hnone] at hinit
    exact absurd hinit List.not_mem_nil
  have hcreate : log = before ++ create :: (between ++ rest) := by simp [hlog]
  obtain ⟨r, hr, ⟨user, ⟨req, hreq, huser, hpassword⟩, hid⟩, now, hnow, hexpires⟩ :=
    h.request_entitled hcreate hopens.1 rfl
  obtain ⟨early, find, late, rfl, hfind, hfound⟩ := exists_call_of_mem huser
  have hlookup : log = early ++ find :: (late ++ create :: (between ++ rest)) := by simp [hlog]
  obtain ⟨huser, hname, henabled⟩ := mem_of_findByUsernameOrEmail h hlookup hfound
  obtain ⟨first, clock, second, hsplit, hclock, hread⟩ := exists_call_of_mem hnow
  have hreading : log = first ++ clock :: (second ++ create :: (between ++ rest)) := by
    rw [hcreate, hsplit]
    simp
  obtain ⟨hop, rfl⟩ := now_eq h hreading hread
  refine ⟨_, create, between, user, rfl, hid, ⟨?_, hopens, ?_, ?_⟩, hbetween⟩
  · rw [hopens.1, hid]
  · exact ⟨r, req, early, find :: late, hr, hreq, rfl, huser, hname, henabled, hpassword⟩
  · exact ⟨clock, by rw [hsplit]; simp, hclock, hop, hexpires⟩

/-- A session check that succeeded, in the log. -/
theorem exists_check (h : ApiHistory cfg m activities log) {i : ℕ} {session : Session}
    (hvalid : Validated token session (callsOf i log)) :
    ∃ row past check between clock between' lookup rest user,
      log = past ++ check :: (between ++ clock :: (between' ++ lookup :: rest)) ∧
      (check.thread = i ∧ check.op = .findByToken token ∧
        row ∈ (tablesAfter cfg m past).sessions ∧ row.token = token) ∧
      (clock.thread = i ∧ clock.op = .now ∧ clock.input.now ≤ row.expiresAt) ∧
      (lookup.thread = i ∧ lookup.op = .findByID row.userID ∧
        user ∈ (tablesAfter cfg m (past ++ check :: (between ++ clock :: between'))).users ∧
        user.id = row.userID ∧ user.enabled = true) ∧
      session = ⟨row.token, row.userID, user.username, row.expiresAt⟩ := by
  obtain ⟨row, user, now, ⟨a, b, hcalls⟩, hexpires, rfl⟩ := hvalid
  have hfirst : callsOf i log = a ++ ⟨.findByToken token, .ok (some row)⟩ ::
      (⟨.now, now⟩ :: ⟨.findByID row.userID, .ok (some user)⟩ :: b) := by
    rw [← hcalls]
    simp
  obtain ⟨past, check, rest, rfl, hthread, hcheck, -, hrest⟩ := split_callsOf hfirst
  obtain ⟨between, clock, rest, rfl, hthread', hclock, -, hrest⟩ := split_callsOf (a := []) hrest
  obtain ⟨between', lookup, rest, rfl, hthread'', hlookup, -, -⟩ := split_callsOf (a := []) hrest
  obtain ⟨hrow, htoken⟩ := mem_of_findByToken h rfl hcheck
  have hreading : past ++ check :: (between ++ clock :: (between' ++ lookup :: rest)) =
      (past ++ check :: between) ++ clock :: (between' ++ lookup :: rest) := by simp
  obtain ⟨hop', rfl⟩ := now_eq h hreading hclock
  have hlast : past ++ check :: (between ++ clock :: (between' ++ lookup :: rest)) =
      (past ++ check :: (between ++ clock :: between')) ++ lookup :: rest := by simp
  obtain ⟨huser, hid, henabled⟩ := mem_of_findByID h hlast hlookup
  refine ⟨row, past, check, between, clock, between', lookup, rest, user, rfl,
    ⟨hthread, (h.answer_eq rfl hcheck).1, hrow, htoken⟩, ⟨hthread', hop', hexpires⟩,
    ⟨hthread'', (h.answer_eq hlast hlookup).1, huser, hid, henabled⟩, rfl⟩

/-- **No way in but the login.** In every run that begins without sessions, a handler behind the
session check is called only for a request with the token of a session that a login has opened,
which no call has ended since then and before the check, at a time before it expires, and for a
user who is still switched on; the two headers name the user who has logged in. The method is the
handler's own, so no `GET` that another site makes the browser send with its cookie reaches a
handler of another method. -/
theorem endpoint_of_login (hwf : m.WellFormed) (hnone : m.sessions = [])
    {moves : List (ℕ × Outside)} {i : ℕ} {handler : Endpoint} {userID username : GoString}
    (hanswer : (apiRun cfg m activities moves).threads i =
      .pure (some (.endpoint handler userID username))) :
    ∃ r row user before create between check after clock after' lookup rest,
      (apiRun cfg m activities moves).log = before ++ create :: between ++
        check :: (after ++ clock :: (after' ++ lookup :: rest)) ∧
      activities i = .request r ∧
      apiFamily r.path r.method = .behindSession (some handler) ∧
      r.method = handler.method.text ∧
      r.session = some row.token ∧ userID = itoa user.id ∧ username = user.username ∧
      (OpenedBy cfg m activities before create row user ∧
        ∀ d ∈ between, ¬ Management.Closes row d) ∧
      (check.thread = i ∧ check.op = .findByToken row.token) ∧
      (clock.thread = i ∧ clock.op = .now ∧ clock.input.now ≤ row.expiresAt) ∧
      lookup.thread = i ∧ lookup.op = .findByID user.id ∧
        ∃ v ∈ (tablesAfter cfg m (before ++ create :: between ++
          check :: (after ++ clock :: after'))).users, v.id = user.id ∧ v.enabled = true := by
  have h := apiRun_isHistory cfg m activities moves
  obtain ⟨r, hr, hfamily, token, session, htoken, hvalid, rfl, rfl⟩ :=
    run_returns (program_safe cfg (activities i)) hanswer
  obtain ⟨row, past, check, after, clock, after', lookup, rest, v, hlog, ⟨hthread, hcheck, hrow,
    rfl⟩, hclock, ⟨hthread', hlookup, hv, hid, henabled⟩, rfl⟩ := exists_check h hvalid
  obtain ⟨before, create, between, user, rfl, huser, hopened, hbetween⟩ :=
    session_opened h hnone hlog hrow
  obtain ⟨-, -, early, late, -, -, hearly, hmem, -⟩ := hopened.credentials
  have hv' : v ∈ (tablesAfter cfg m (early ++ (late ++ create :: (between ++
      check :: (after ++ clock :: after'))))).users := by
    rw [hearly] at hv
    simpa using hv
  have hname : v.username = user.username := name_eq hwf hmem hv' (hid.trans huser.symm)
  refine ⟨r, row, user, before, create, between, check, after, clock, after', lookup, rest, hlog,
    hr, hfamily, method_of_apiFamily hfamily, htoken, ?_, hname, ⟨hopened, hbetween⟩,
    ⟨hthread, hcheck⟩, hclock, hthread', ?_, v, hv, hid.trans huser.symm, henabled⟩
  · rw [huser]
  · rw [hlookup, huser]

/-! ### A login and what follows -/

/-- Two passwords and a hash of each. -/
def sampleHashes : List (GoString × GoString) :=
  [(str "abc123xyz", str "$2a$12$R9h/cIPz0gi.URNNX3kh2OPST9/PgBkqquzi.Ss7KIUgO2t0jWMUW"),
    (str "abcdefghijklmnopqrstuvwxyz",
      str "$2a$06$.rCVZVOThsIa97pEDOxvGuRRgzG64bvtJ0938xuqzv18d3ZpQhstC")]

/-- `bcrypt`, of these. -/
def sampleBcrypt : Bcrypt where
  compareHashAndPassword hash password := (password, hash) ∈ sampleHashes
  generateFromPassword _ password := sampleHashes.lookup password

/-- A dashboard without trusted proxies of its own. -/
def sampleConfig : ApiConfig where
  dashboardHost := str "waf.test"
  trustedProxiesEnv := []
  bcrypt := sampleBcrypt

/-- A user with that password. -/
def sampleAdmin : User where
  id := 1
  username := str "admin"
  passwordHash := str "$2a$12$R9h/cIPz0gi.URNNX3kh2OPST9/PgBkqquzi.Ss7KIUgO2t0jWMUW"
  email := str "admin@shop.test"
  role := str "admin"
  enabled := true
  lastLogin := none
  createdAt := 0
  updatedAt := 0

/-- The tables before anybody has logged in, and the limits of the source. -/
def sampleTables : Management where
  users := [sampleAdmin]
  sessions := []
  nextID := 2
  limiters
    | .api => .new 60 60000000
    | .auth => .new 120 60000000
    | .login => .new 5 60000000

/-- A request by way of the proxy in front; its body has the fields that any handler reads. -/
def apiCall (method path : String) (cookies : List (GoString × GoString)) : ApiRequest where
  method := str method
  path := str path
  rawPath := []
  rawQuery := []
  requestURI := str path
  host := str "waf.test"
  proto := str "HTTP/1.1"
  header key := if key = str "X-Forwarded-For" then [str "203.0.113.9"] else []
  cookies := cookies
  remoteAddr := str "127.0.0.1:40000"
  tls := false
  loginBody := some ⟨str "admin", str "abc123xyz"⟩
  setupBody := some ⟨str "admin", str "abc123xyz", str "admin@shop.test"⟩
  changePasswordBody := some ⟨str "abc123xyz", str "abcdefghijklmnopqrstuvwxyz"⟩

/-- The session that the login opens. -/
def sampleSession : SessionRow :=
  ⟨base64Encode (List.replicate 32 7), 1, 4 + sessionTTL, 5⟩

/-- A login, the removal of a rule, and clean-ups. -/
def sampleActivities : ℕ → Activity
  | 0 => .request (apiCall "POST" "/api/v1/auth/login" [])
  | 1 => .request (apiCall "DELETE" "/api/v1/rules/4" [(str "session", sampleSession.token)])
  | _ => .cleanupLoop

/-- The login, with a clean-up in it, and the removal after it. -/
def sampleMoves : List (ℕ × Outside) :=
  ([0, 0, 0, 0, 0, 0, 2, 0, 1, 1, 1, 1, 1, 1, 1].mapIdx fun n i =>
    (i, ⟨n, .none, 0, List.replicate 32 7⟩))

theorem wellFormed_sampleTables : sampleTables.WellFormed :=
  ⟨by decide, by decide, by decide⟩

/-- Who has logged in removes a rule. -/
theorem endpoint_of_login_delete :
    ∃ r row user before create between check after clock after' lookup rest,
      (apiRun sampleConfig sampleTables sampleActivities sampleMoves).log =
        before ++ create :: between ++ check :: (after ++ clock :: (after' ++ lookup :: rest)) ∧
      sampleActivities 1 = .request r ∧
      apiFamily r.path r.method = .behindSession (some .deleteRule) ∧
      r.method = str "DELETE" ∧
      r.session = some row.token ∧ str "1" = itoa user.id ∧ str "admin" = user.username ∧
      (OpenedBy sampleConfig sampleTables sampleActivities before create row user ∧
        ∀ d ∈ between, ¬ Management.Closes row d) ∧
      (check.thread = 1 ∧ check.op = .findByToken row.token) ∧
      (clock.thread = 1 ∧ clock.op = .now ∧ clock.input.now ≤ row.expiresAt) ∧
      lookup.thread = 1 ∧ lookup.op = .findByID user.id ∧
        ∃ v ∈ (tablesAfter sampleConfig sampleTables (before ++ create :: between ++
          check :: (after ++ clock :: after'))).users, v.id = user.id ∧ v.enabled = true :=
  endpoint_of_login wellFormed_sampleTables rfl
    (Program.eq_pure_of_result? (by decide +kernel))

/-! ### Who stays in -/

/-- The call is answered as for a session that is open: its row is found, it has not expired, and
its user is there. -/
def AnsweredOpen (row : SessionRow) (name : GoString) : Event AuthAns → Prop
  | ⟨.findByToken token, found⟩ => token = row.token → found = .ok (some row)
  | ⟨.now, now⟩ => now ≤ row.expiresAt
  | ⟨.findByID id, found⟩ =>
    id = row.userID → ∃ user, found = .ok (some user) ∧ user.username = name
  | _ => True

section Served

open Program

variable {row : SessionRow} {name : GoString} {r : ApiRequest} {handler : Endpoint}
  {events : List (Event AuthAns)}

/-- An open session is found valid. -/
theorem validateSession_open (row : SessionRow) (name : GoString) (events : List (Event AuthAns)) :
    Safe (fun _ _ => True) (AuthService.validateSession row.token)
      (fun events result => (∀ e ∈ events, AnsweredOpen row name e) →
        result = some ⟨row.token, row.userID, name, row.expiresAt⟩) events := by
  simp only [AuthService.validateSession, safe_bind, safe_perform, true_and]
  intro found
  rcases found with error | _ | found
  · refine safe_pure.mpr fun h => ?_
    cases h ⟨.findByToken row.token, .error error⟩ (by simp) rfl
  · refine safe_pure.mpr fun h => ?_
    cases h ⟨.findByToken row.token, .ok none⟩ (by simp) rfl
  simp only [safe_bind, safe_perform, true_and]
  intro now
  split
  next hexpired =>
    simp only [safe_bind, safe_perform, true_and, safe_pure]
    intro _ h
    have hrow : Except.ok (some found) = Except.ok (some row) :=
      h ⟨.findByToken row.token, .ok (some found)⟩ (by simp) rfl
    have hnow : now ≤ row.expiresAt := h ⟨.now, now⟩ (by simp)
    cases hrow
    exact absurd hexpired (not_lt.mpr hnow)
  next =>
    simp only [safe_bind, safe_perform, true_and]
    intro answer
    have hid : ∀ (h : ∀ e ∈ events ++ [⟨.findByToken row.token, .ok (some found)⟩] ++
        [⟨.now, now⟩] ++ [⟨.findByID found.userID, answer⟩], AnsweredOpen row name e),
        found = row ∧ ∃ user, answer = .ok (some user) ∧ user.username = name := by
      intro h
      have hrow : Except.ok (some found) = Except.ok (some row) :=
        h ⟨.findByToken row.token, .ok (some found)⟩ (by simp) rfl
      cases hrow
      exact ⟨rfl, h ⟨.findByID row.userID, answer⟩ (by simp) rfl⟩
    rcases answer with error | _ | user
    · exact safe_pure.mpr fun h => by simpa using (hid h).2
    · exact safe_pure.mpr fun h => by simpa using (hid h).2
    · refine safe_pure.mpr fun h => ?_
      obtain ⟨rfl, user', huser, rfl⟩ := hid h
      cases huser
      rfl

/-- **A request with an open session** reaches its handler, or the limiter refuses it. -/
theorem serve_open (cfg : ApiConfig) (r : ApiRequest) (row : SessionRow) (name : GoString)
    (handler : Endpoint) (hdest : Router.serveHTTP cfg.dashboardHost r.toRequest = .api)
    (hfamily : apiFamily r.path r.method = .behindSession (some handler))
    (htoken : r.session = some row.token) :
    Safe (fun _ _ => True) (Router.serve cfg r)
      (fun events response => (∀ e ∈ events, AnsweredOpen row name e) →
        response = .endpoint handler (itoa row.userID) name ∨
        response = .error 429 (str "Too many requests, try again later")) [] := by
  have hlogin : RateLimitMiddleware.isLogin r.toRequest = false := by
    by_contra hlogin
    rw [Bool.not_eq_false, RateLimitMiddleware.isLogin, Bool.and_eq_true,
      decide_eq_true_eq] at hlogin
    rw [apiFamily, hlogin.1, if_pos (by decide)] at hfamily
    cases hfamily
  rw [Router.serve, hdest]
  dsimp only
  rw [RateLimitMiddleware.limit, hlogin, if_neg Bool.false_ne_true,
    RateLimitMiddleware.limitRequests]
  refine (safe_of_true _ []).bind fun events authenticated _ => ?_
  simp only [safe_bind, safe_perform, true_and]
  intro allowed
  split
  next =>
    rw [Router.handleAPIRoutes, hfamily]
    dsimp only
    rw [AuthMiddleware.authenticate, htoken]
    refine (validateSession_open row name _).bind fun events result hresult => ?_
    rcases result with _ | session
    · refine safe_pure.mpr fun h => ?_
      cases hresult h
    · refine safe_pure.mpr fun h => ?_
      cases hresult h
      exact .inl rfl
  next => exact safe_pure.mpr fun _ => .inr rfl

end Served

/-- A session that a login has opened and that nobody has reason to end: its token is drawn once,
no request with it logs out, no clock since then reads a time after its end, and its user is
switched on and stays so. -/
structure StaysOpen (cfg : ApiConfig) (m : Management) (activities : ℕ → Activity)
    (before : List (Call Outside AuthAns)) (create : Call Outside AuthAns)
    (rest : List (Call Outside AuthAns)) (row : SessionRow) : Prop where
  created : create.event = ⟨.createSession row.token row.userID row.expiresAt, .ok ()⟩
  createdAt : row.createdAt = create.input.now
  drawnOnce : ∀ c ∈ before ++ rest, ¬ c.op.Draws row.token
  noLogout : ∀ c ∈ rest, c.op = .deleteSession row.token → ∀ r,
    activities c.thread = .request r → ¬ r.LogsOut row.token
  inTime : ∀ c ∈ rest, c.op = .now ∨ c.op = .deleteExpired → c.input.now ≤ row.expiresAt
  enabled : ∃ u ∈ (tablesAfter cfg m before).users, u.id = row.userID ∧ u.enabled = true
  switchedOn : ∀ c ∈ rest, c.op ≠ .setEnabled row.userID false

section Stays

variable {before between : List (Call Outside AuthAns)} {create : Call Outside AuthAns}
  {row : SessionRow}

/-- An insertion that is acknowledged has put the row there. -/
theorem opens_of_created (h : ApiHistory cfg m activities log)
    (hlog : log = before ++ create :: rest)
    (hopen : StaysOpen cfg m activities before create rest row) :
    (tablesAfter cfg m before).Opens create row := by
  obtain ⟨hop, hanswer⟩ := h.answer_eq hlog hopen.created
  refine ⟨hop, hopen.createdAt, ?_⟩
  cases hfault : create.input.fault with
  | refused => simp [respond, exec, hfault] at hanswer
  | unacknowledged => simp [respond, exec, hfault] at hanswer
  | none =>
    simp only [respond, exec, hfault, insertSession] at hanswer
    split at hanswer
    next => cases hanswer
    next hfree =>
      simp only [Bool.or_eq_true, List.any_eq_true, not_or, not_exists, not_and, decide_eq_true_eq,
        Bool.not_eq_true', List.any_eq_false, not_forall, not_not, exists_prop] at hfree
      exact ⟨by simp, hfree.1, by simpa using hfree.2⟩

/-- No other call draws the token. -/
private theorem eq_of_draws (hopen : StaysOpen cfg m activities before create rest row)
    {first second : List (Call Outside AuthAns)} {opener : Call Outside AuthAns}
    (hsplit : before ++ create :: rest = first ++ opener :: second)
    (hdraws : opener.op.Draws row.token) : before = first ∧ create = opener ∧ rest = second := by
  rcases List.append_eq_append_iff.mp hsplit with ⟨middle, hfirst, htail⟩ | ⟨middle, hbefore, htail⟩
  · rcases middle with _ | ⟨c, middle⟩
    · obtain ⟨hcreate, hrest⟩ := List.cons.inj htail
      exact ⟨(hfirst.trans (List.append_nil _)).symm, hcreate, hrest⟩
    · obtain ⟨-, hrest⟩ := List.cons.inj htail
      exact absurd hdraws (hopen.drawnOnce opener (by simp [hrest]))
  · rcases middle with _ | ⟨c, middle⟩
    · obtain ⟨hcreate, hrest⟩ := List.cons.inj htail
      exact ⟨hbefore.trans (List.append_nil _), hcreate.symm, hrest.symm⟩
    · obtain ⟨rfl, -⟩ := List.cons.inj htail
      exact absurd hdraws (hopen.drawnOnce opener (by simp [hbefore]))

/-- A session that is found by the token is the one that was created, and is found after that. -/
private theorem created_of_found (h : ApiHistory cfg m activities log) (hnone : m.sessions = [])
    (hlog : log = before ++ create :: rest)
    (hopen : StaysOpen cfg m activities before create rest row)
    {early late : List (Call Outside AuthAns)} {find : Call Outside AuthAns} {found : SessionRow}
    (hfinding : log = early ++ find :: late)
    (hfound : find.event = ⟨.findByToken row.token, .ok (some found)⟩) :
    found.expiresAt = row.expiresAt ∧
      ∃ between, early = before ++ create :: between ∧ rest = between ++ find :: late := by
  obtain ⟨hmem, htoken⟩ := mem_of_findByToken h hfinding hfound
  obtain ⟨first, opener, second, user, rfl, -, hopened, -⟩ :=
    session_opened h hnone hfinding hmem
  have hsplit : before ++ create :: rest = first ++ opener :: (second ++ find :: late) := by
    rw [← hlog, hfinding]
    simp
  obtain ⟨rfl, rfl, rfl⟩ := eq_of_draws hopen hsplit (htoken ▸ hopened.draws)
  have heq := hopened.op.symm.trans (h.answer_eq hlog hopen.created).1
  simp only [AuthOp.createSession.injEq] at heq
  exact ⟨heq.2.2, second, rfl, rfl⟩

/-- **Nothing ends the session**: a call that deletes it is a logout, or has found it expired. -/
theorem not_closes (h : ApiHistory cfg m activities log) (hnone : m.sessions = [])
    (hlog : log = before ++ create :: rest)
    (hopen : StaysOpen cfg m activities before create rest row)
    {d : Call Outside AuthAns} (hd : d ∈ rest) : ¬ Management.Closes row d := by
  rintro ⟨-, hop | ⟨hop, hexpired⟩⟩
  · obtain ⟨front, back, rfl⟩ := List.append_of_mem hd
    have hcall : log = (before ++ create :: front) ++ d :: back := by simp [hlog]
    obtain ⟨r, hr, hlogout | ⟨found, now, ⟨a, b, hfind⟩, hexpired⟩⟩ :=
      h.request_entitled hcall hop rfl
    · exact hopen.noLogout d hd hop r hr hlogout
    -- the row was found, and the clock was read after that
    have hfirst : callsOf d.thread (before ++ create :: front) =
        a ++ ⟨.findByToken row.token, .ok (some found)⟩ :: (⟨.now, now⟩ :: b) := by
      rw [← hfind]
      simp
    obtain ⟨early, find, late, hsplit, -, hfound, -, hlate⟩ := split_callsOf hfirst
    obtain ⟨middle, clock, late, rfl, -, hread, -, -⟩ := split_callsOf (a := []) hlate
    have hfinding : log = early ++ find :: (middle ++ clock :: late ++ d :: back) := by
      rw [hcall, hsplit]
      simp
    obtain ⟨hexpires, between, rfl, hrest⟩ := created_of_found h hnone hlog hopen hfinding hfound
    have hreading : log = (before ++ create :: between ++ find :: middle) ++
        clock :: (late ++ d :: back) := by
      rw [hfinding]
      simp
    obtain ⟨hclock, rfl⟩ := now_eq h hreading hread
    have htime := hopen.inTime clock (by rw [hrest]; simp) (.inl hclock)
    rw [hexpires] at hexpired
    exact absurd hexpired (not_lt.mpr htime)
  · have htime := hopen.inTime d hd (.inr hop)
    omega

/-- **The session is there** after each later call. -/
theorem mem_sessions_of_open (h : ApiHistory cfg m activities log) (hnone : m.sessions = [])
    (hlog : log = before ++ create :: rest)
    (hopen : StaysOpen cfg m activities before create rest row)
    {front back : List (Call Outside AuthAns)} (hrest : rest = front ++ back) :
    row ∈ (tablesAfter cfg m (before ++ create :: front)).sessions := by
  refine (mem_sessions_after cfg.bcrypt m _ row).mpr (.inr ⟨before, create, front, rfl,
    opens_of_created h hlog hopen, fun d hd => ?_⟩)
  exact not_closes h hnone hlog hopen (by rw [hrest]; exact List.mem_append_left _ hd)

/-- The user of the session has logged in before it was created, and is switched on since. -/
theorem exists_user_of_open (hwf : m.WellFormed) (h : ApiHistory cfg m activities log)
    (hnone : m.sessions = []) (hlog : log = before ++ create :: rest)
    (hopen : StaysOpen cfg m activities before create rest row) :
    ∃ user, user.id = row.userID ∧ OpenedBy cfg m activities before create row user ∧
      ∀ front back, rest = front ++ back →
        ∃ w ∈ (tablesAfter cfg m (before ++ create :: front)).users,
          w.id = row.userID ∧ w.username = user.username ∧ w.enabled = true := by
  have hmem := mem_sessions_of_open h hnone hlog hopen (List.nil_append rest).symm
  obtain ⟨before', create', between, user, hsplit, hid, hopened, -⟩ :=
    session_opened h hnone (by simpa using hlog) hmem
  -- the token is drawn once, so this is the call that created it
  have hwhole : before ++ create :: rest = before' ++ create' :: (between ++ rest) := by
    have hrest := congrArg (· ++ rest) hsplit
    simpa using hrest
  obtain ⟨rfl, rfl, -⟩ := eq_of_draws hopen hwhole hopened.draws
  refine ⟨user, hid, hopened, ?_⟩
  rintro front back rfl
  obtain ⟨-, -, early, late, -, -, hearly, huser, -⟩ := hopened.credentials
  obtain ⟨u, hu, huid, hon⟩ := hopen.enabled
  have hname : u.username = user.username :=
    name_eq hwf huser (hearly ▸ hu) (huid.trans hid.symm)
  obtain ⟨w, hw, hwid, hwname, hwon⟩ := row_of_id cfg.bcrypt (create :: front) hu
  rw [← after_append_list] at hw
  refine ⟨w, hw, hwid.trans huid, hwname.trans hname, hwon hon fun c hc => ?_⟩
  rw [huid]
  rcases List.mem_cons.mp hc with rfl | hc
  · rw [hopened.op]
    simp
  · exact hopen.switchedOn c (by simp [hc])

/-- A call is answered as for an open session when the tables have its rows. -/
theorem answeredOpen_call (hwf : m.WellFormed) (h : ApiHistory cfg m activities log)
    (hlog : log = past ++ c :: rest) (hnow : c.op = .now → c.input.now ≤ row.expiresAt)
    (hfault : c.input.fault = .none) (hrow : row ∈ (tablesAfter cfg m past).sessions) {w : User}
    (hw : w ∈ (tablesAfter cfg m past).users) (hid : w.id = row.userID)
    (hon : w.enabled = true) : AnsweredOpen row w.username c.event := by
  have hanswer := h.answers past c ⟨rest, by simp [hlog]⟩
  obtain ⟨i, o, op, answer⟩ := c
  dsimp only at hnow hfault hanswer
  cases op with
  | findByToken token =>
    rintro rfl
    refine hanswer.trans ?_
    simp only [respond, query, hfault, if_true]
    rw [(hwf.after cfg.bcrypt past).find_session hrow]
  | now => exact hanswer.trans_le (hnow rfl)
  | findByID id =>
    rintro rfl
    have hsome : ((tablesAfter cfg m past).users.find? fun u =>
        u.id = row.userID && u.enabled).isSome = true :=
      List.find?_isSome.mpr ⟨w, hw, by simp [hid, hon]⟩
    obtain ⟨v, hv⟩ := Option.isSome_iff_exists.mp hsome
    have hvid : v.id = row.userID ∧ v.enabled = true := by simpa using List.find?_some hv
    have hvw : v = w := List.inj_on_of_nodup_map (hwf.after cfg.bcrypt past).ids
      (List.mem_of_find?_eq_some hv) hw (hvid.1.trans hid.symm)
    refine ⟨v, hanswer.trans ?_, by rw [hvw]⟩
    simp only [respond, query, hfault, if_true]
    exact congrArg Except.ok hv
  | _ => trivial

/-- **The calls of a later request** are answered as for an open session. -/
theorem answeredOpen_of_open (hwf : m.WellFormed) (h : ApiHistory cfg m activities log)
    (hnone : m.sessions = []) (hlog : log = before ++ create :: rest)
    (hopen : StaysOpen cfg m activities before create rest row) {i : ℕ}
    (hafter : ∀ c ∈ before, c.thread ≠ i)
    (hfault : ∀ c ∈ rest, c.thread = i → c.input.fault = .none) :
    ∃ user, user.id = row.userID ∧ OpenedBy cfg m activities before create row user ∧
      ∀ e ∈ callsOf i log, AnsweredOpen row user.username e := by
  obtain ⟨user, hid, hopened, hstays⟩ := exists_user_of_open hwf h hnone hlog hopen
  refine ⟨user, hid, hopened, fun e he => ?_⟩
  obtain ⟨past, c, later, hsplit, hthread, rfl⟩ := exists_call_of_mem he
  rcases List.append_eq_append_iff.mp (hlog.symm.trans hsplit) with
    ⟨front, rfl, hrest⟩ | ⟨front, rfl, hrest⟩
  · rcases front with _ | ⟨first, front⟩
    · obtain ⟨rfl, rfl⟩ := List.cons.inj hrest
      rw [hopen.created]
      trivial
    · obtain ⟨rfl, htail⟩ := List.cons.inj hrest
      obtain ⟨w, hw, hwid, hname, hon⟩ := hstays front (c :: later) htail
      rw [← hname]
      refine answeredOpen_call hwf h hsplit ?_ ?_ ?_ hw hwid hon
      · exact fun hop => hopen.inTime c (by simp [htail]) (.inl hop)
      · exact hfault c (by simp [htail]) hthread
      · exact mem_sessions_of_open h hnone hlog hopen htail
  · rcases front with _ | ⟨first, front⟩
    · obtain ⟨rfl, rfl⟩ := List.cons.inj hrest
      rw [hopen.created]
      trivial
    · obtain ⟨rfl, -⟩ := List.cons.inj hrest
      exact absurd hthread (hafter c (by simp))

/-- **A session lasts.** Once a login has created a session, every later request with its token
whose own statements do not fail reaches its handler, unless the limiter refuses it, whatever the
other threads do: changes of the password, other logins and logouts, clean-ups and failing
statements of other requests. What can end the session is a logout with its token, the end of the
seven days, an operator who switches the user off, or a token that is drawn twice. -/
theorem request_in_session (hwf : m.WellFormed) (hnone : m.sessions = [])
    {moves : List (ℕ × Outside)}
    (hlog : (apiRun cfg m activities moves).log = before ++ create :: rest)
    (hopen : StaysOpen cfg m activities before create rest row) {i : ℕ} {r : ApiRequest}
    {handler : Endpoint} {response : ApiResponse} (hr : activities i = .request r)
    (hdest : Router.serveHTTP cfg.dashboardHost r.toRequest = .api)
    (hfamily : apiFamily r.path r.method = .behindSession (some handler))
    (htoken : r.session = some row.token) (hafter : ∀ c ∈ before, c.thread ≠ i)
    (hfault : ∀ c ∈ rest, c.thread = i → c.input.fault = .none)
    (hanswer : (apiRun cfg m activities moves).threads i = .pure (some response)) :
    ∃ user, user.id = row.userID ∧ OpenedBy cfg m activities before create row user ∧
      (response = .endpoint handler (itoa row.userID) user.username ∨
        response = .error 429 (str "Too many requests, try again later")) := by
  have h := apiRun_isHistory cfg m activities moves
  obtain ⟨user, hid, hopened, hcalls⟩ :=
    answeredOpen_of_open hwf h hnone hlog hopen hafter hfault
  refine ⟨user, hid, hopened, ?_⟩
  have hsafe : Program.Safe (fun _ _ => True) ((activities i).program cfg)
      (fun events result => (∀ e ∈ events, AnsweredOpen row user.username e) →
        result = some (.endpoint handler (itoa row.userID) user.username) ∨
        result = some (.error 429 (str "Too many requests, try again later"))) [] := by
    rw [hr]
    refine (serve_open cfg r row user.username handler hdest hfamily htoken).bind
      fun events response hresponse => ?_
    refine Program.safe_pure.mpr fun hevents => ?_
    exact (hresponse hevents).imp (congrArg some) (congrArg some)
  simpa using run_returns hsafe hanswer hcalls

end Stays

/-- The calls of the login and of the removal. -/
def sampleLog : List (Call Outside AuthAns) :=
  (apiRun sampleConfig sampleTables sampleActivities sampleMoves).log

theorem sampleLog_length : 5 < sampleLog.length := by
  decide +kernel

/-- The session is created by the sixth call and stays open. -/
theorem staysOpen_sample : StaysOpen sampleConfig sampleTables sampleActivities (sampleLog.take 5)
    (sampleLog.get ⟨5, sampleLog_length⟩) (sampleLog.drop 6) sampleSession where
  created := by decide +kernel
  createdAt := by decide +kernel
  drawnOnce := by decide +kernel
  noLogout := by
    have hdelete : ∀ c ∈ sampleLog.drop 6, c.op ≠ .deleteSession sampleSession.token := by
      decide +kernel
    exact fun c hc hop => absurd hop (hdelete c hc)
  inTime := by decide +kernel
  enabled := by decide +kernel
  switchedOn := by decide +kernel

/-- The removal of the rule comes after a clean-up, and the session is still open. -/
theorem request_in_session_delete :
    ∃ user, user.id = sampleSession.userID ∧
      OpenedBy sampleConfig sampleTables sampleActivities (sampleLog.take 5)
        (sampleLog.get ⟨5, sampleLog_length⟩) sampleSession user ∧
      let response : ApiResponse := .endpoint .deleteRule (str "1") (str "admin")
      (response = .endpoint .deleteRule (itoa sampleSession.userID) user.username ∨
        response = .error 429 (str "Too many requests, try again later")) := by
  have hlog : sampleLog = sampleLog.take 5 ++
      sampleLog.get ⟨5, sampleLog_length⟩ :: sampleLog.drop 6 := by
    rw [List.get_eq_getElem, List.cons_getElem_drop_succ, List.take_append_drop]
  exact request_in_session (i := 1) wellFormed_sampleTables rfl hlog staysOpen_sample rfl
    (by decide +kernel) (by decide +kernel) rfl (by decide +kernel) (by decide +kernel)
    (Program.eq_pure_of_result? (by decide +kernel))

end VibesWaf

import VibesWaf.Management.Api

/-!
# What a request has shown

What each thread of the management API may do follows from the calls it has made before:
`Activity.Entitled` says when each statement that writes may be sent, and `Activity.Answers` what
stands behind each answer. `program_safe` proves both of every thread, function by function.
-/

namespace VibesWaf

open Program

/-- The calls of a session check that succeeds. -/
def Validated (token : GoString) (session : Session) (events : List (Event AuthAns)) : Prop :=
  ∃ row user now,
    [⟨.findByToken token, .ok (some row)⟩, ⟨.now, now⟩,
      ⟨.findByID row.userID, .ok (some user)⟩] <:+: events ∧ now ≤ row.expiresAt ∧
      session = ⟨row.token, row.userID, user.username, row.expiresAt⟩

/-- The operation looks for the user of a login, whose password is then checked. -/
def AuthOp.IsLookup : AuthOp → Bool
  | .findByUsernameOrEmail _ => true
  | _ => false

/-- No password has been checked. -/
def NoLookup (events : List (Event AuthAns)) : Prop :=
  ∀ e ∈ events, e.1.IsLookup = false

/-- The request has logged in as a user: it has shown the password of the one it names. -/
def ApiRequest.LogsIn (cfg : ApiConfig) (r : ApiRequest) (events : List (Event AuthAns))
    (user : User) : Prop :=
  ∃ req, r.loginBody = some req ∧
    ⟨.findByUsernameOrEmail req.username, .ok (some user)⟩ ∈ events ∧
    cfg.bcrypt.compareHashAndPassword user.passwordHash req.password = true

/-- The request may change a password: it has the session of the user and has shown the old one. -/
def ApiRequest.ChangesPassword (cfg : ApiConfig) (r : ApiRequest) (events : List (Event AuthAns))
    (id : ℤ) (hash : GoString) : Prop :=
  ∃ req token session holder user, r.changePasswordBody = some req ∧ r.session = some token ∧
    Validated token session events ∧ ⟨.findByID session.userID, .ok (some holder)⟩ ∈ events ∧
    holder.id = id ∧ ⟨.findByID id, .ok (some user)⟩ ∈ events ∧
    cfg.bcrypt.compareHashAndPassword user.passwordHash req.oldPassword = true ∧
    ⟨.generateFromPassword req.newPassword, some hash⟩ ∈ events

/-- The request is one to log out. -/
def ApiRequest.LogsOut (r : ApiRequest) (token : GoString) : Prop :=
  r.path = str "/api/v1/auth/logout" ∧ r.method = str "POST" ∧ r.session = some token

/-- What a request must have done before a call, and what it must not have done. -/
def ApiRequest.Entitled (cfg : ApiConfig) (r : ApiRequest) (past : List (Event AuthAns)) :
    AuthOp → Prop
  | .findByUsernameOrEmail _ =>
    ⟨.allow .login (RateLimitMiddleware.extractIP cfg.trustedProxiesEnv r.toRequest), true⟩ ∈
      past ∧ NoLookup past
  | .createSession _ userID expiresAt =>
    (∃ user, r.LogsIn cfg past user ∧ user.id = userID) ∧
      ∃ now, ⟨.now, now⟩ ∈ past ∧ expiresAt = now + sessionTTL
  | .deleteSession token =>
    r.LogsOut token ∨ ∃ row now,
      [⟨.findByToken token, .ok (some row)⟩, ⟨.now, now⟩] <:+: past ∧ row.expiresAt < now
  | .updatePassword id hash => r.ChangesPassword cfg past id hash
  | .createUser _ => ⟨.countUsers, .ok 0⟩ ∈ past
  | .deleteExpired => False
  | .setEnabled _ _ => False
  | .cleanup _ => False
  | _ => True

/-- What stands behind an answer. -/
def ApiRequest.Answers (r : ApiRequest) (events : List (Event AuthAns)) : ApiResponse → Prop
  | .endpoint handler userID username =>
    apiFamily r.path r.method = .behindSession (some handler) ∧
      ∃ token session, r.session = some token ∧ Validated token session events ∧
        userID = itoa session.userID ∧ username = session.username
  | .user user => ∃ token session, r.session = some token ∧ Validated token session events ∧
      ⟨.findByID session.userID, .ok (some user)⟩ ∈ events
  | .loggedIn token expires user => ⟨.createSession token user.id expires, .ok ()⟩ ∈ events
  | .setUp user => ∃ row, ⟨.createUser row, .ok user⟩ ∈ events
  | _ => True

section Spec

variable {cfg : ApiConfig} {r : ApiRequest} {G : List (Event AuthAns) → AuthOp → Prop}
  {past events : List (Event AuthAns)} {token : GoString} {session : Session}

/-- A check that succeeded stays one. -/
theorem Validated.append (h : Validated token session past) (events : List (Event AuthAns)) :
    Validated token session (past ++ events) := by
  obtain ⟨row, user, now, hcalls, hrest⟩ := h
  exact ⟨row, user, now, hcalls.trans (List.prefix_append _ _).isInfix, hrest⟩

theorem NoLookup.append (h : NoLookup past) (hevents : ∀ e ∈ events, e.1.IsLookup = false) :
    NoLookup (past ++ events) :=
  List.forall_mem_append.mpr ⟨h, hevents⟩

/-- **The session check**: what it finds it has found valid, a session that it deletes has expired,
and it checks no password. -/
theorem validateSession_safe (hfind : ∀ past, G past (.findByToken token))
    (hnow : ∀ past, G past .now) (hid : ∀ past id, G past (.findByID id))
    (hdelete : ∀ past row now, [⟨.findByToken token, .ok (some row)⟩, ⟨.now, now⟩] <:+: past →
      row.expiresAt < now → G past (.deleteSession token)) :
    Safe G (AuthService.validateSession token)
      (fun events result => (∀ session ∈ result, Validated token session events) ∧
        (NoLookup past → NoLookup events)) past := by
  simp only [AuthService.validateSession, safe_bind, safe_perform]
  refine ⟨hfind _, fun found => ?_⟩
  rcases found with _ | _ | row
  · exact safe_pure.mpr ⟨by simp, fun h => h.append (by simp [AuthOp.IsLookup])⟩
  · exact safe_pure.mpr ⟨by simp, fun h => h.append (by simp [AuthOp.IsLookup])⟩
  simp only [safe_bind, safe_perform]
  refine ⟨hnow _, fun now => ?_⟩
  split
  next hexpired =>
    simp only [safe_bind, safe_perform, safe_pure, List.append_assoc]
    refine ⟨hdelete _ row now ⟨past, [], by simp⟩ hexpired, fun _ => ⟨by simp, fun h => ?_⟩⟩
    exact h.append (by simp [AuthOp.IsLookup])
  next hvalid =>
    simp only [safe_bind, safe_perform, List.append_assoc]
    refine ⟨hid _ _, fun answer => ?_⟩
    have hnone : NoLookup past → NoLookup (past ++ ([⟨.findByToken token, .ok (some row)⟩] ++
        ([⟨.now, now⟩] ++ [⟨.findByID row.userID, answer⟩]))) :=
      fun h => h.append (by simp [AuthOp.IsLookup])
    rcases answer with _ | _ | user
    · exact safe_pure.mpr ⟨by simp, hnone⟩
    · exact safe_pure.mpr ⟨by simp, hnone⟩
    refine safe_pure.mpr ⟨?_, hnone⟩
    rintro session ⟨⟩
    exact ⟨row, user, now, ⟨past, [], by simp⟩, not_lt.mp hvalid, rfl⟩

/-- The session check, of a request. -/
theorem validateSession_entitled (cfg : ApiConfig) (r : ApiRequest) (token : GoString)
    (past : List (Event AuthAns)) :
    Safe (r.Entitled cfg) (AuthService.validateSession token)
      (fun events result => (∀ session ∈ result, Validated token session events) ∧
        (NoLookup past → NoLookup events)) past :=
  validateSession_safe (fun _ => trivial) (fun _ => trivial) (fun _ _ => trivial)
    fun _ row now hfind hexpired => .inr ⟨row, now, hfind, hexpired⟩

/-- The user of a session. -/
theorem getUserBySession_entitled (cfg : ApiConfig) (r : ApiRequest) (token : GoString)
    (past : List (Event AuthAns)) :
    Safe (r.Entitled cfg) (AuthService.getUserBySession token)
      (fun events result => ∀ user, result = .ok user → ∃ session,
        Validated token session events ∧ ⟨.findByID session.userID, .ok (some user)⟩ ∈ events)
      past := by
  refine (validateSession_entitled cfg r token past).bind fun events result hresult => ?_
  rcases result with _ | session
  · simp
  simp only [safe_bind, safe_perform]
  refine ⟨trivial, fun answer => ?_⟩
  rcases answer with _ | _ | user
  · simp
  · simp
  rw [safe_pure]
  rintro user ⟨⟩
  exact ⟨session, (hresult.1 session rfl).append _, by simp⟩

/-- **Logging in** creates a session for the user whose password was shown. -/
theorem login_entitled {req : LoginRequest} (hreq : r.loginBody = some req)
    (hallowed : ⟨.allow .login (RateLimitMiddleware.extractIP cfg.trustedProxiesEnv r.toRequest),
      true⟩ ∈ past ∧ NoLookup past) :
    Safe (r.Entitled cfg) (AuthService.login cfg.bcrypt req.username req.password)
      (fun events result => ∀ session user, result = .ok (session, user) →
        ⟨.createSession session.token user.id session.expiresAt, .ok ()⟩ ∈ events) past := by
  simp only [AuthService.login, AuthService.generateSessionToken, safe_bind, safe_perform]
  refine ⟨hallowed, fun found => ?_⟩
  rcases found with _ | _ | user
  · simp
  · simp
  dsimp only
  split
  next hpassword =>
    simp only [safe_bind, safe_perform, safe_pure]
    refine ⟨trivial, fun bytes => ⟨trivial, fun now => ⟨?_, fun created => ?_⟩⟩⟩
    · exact ⟨⟨user, ⟨req, hreq, by simp, hpassword⟩, rfl⟩, now, by simp, rfl⟩
    rcases created with _ | ⟨⟨⟩⟩
    · simp
    simp only [safe_bind, safe_perform, safe_pure]
    refine ⟨trivial, fun _ => ?_⟩
    rintro session user' ⟨⟩
    simp
  next => simp

/-- **Changing a password** is for the user of the session who knows the old one. -/
theorem changePassword_entitled {req : ChangePasswordRequest} {holder : User}
    (hreq : r.changePasswordBody = some req) (htoken : r.session = some token)
    (hsession : Validated token session past)
    (hholder : ⟨.findByID session.userID, .ok (some holder)⟩ ∈ past) :
    Safe (r.Entitled cfg) (AuthService.changePassword cfg.bcrypt holder.id req.oldPassword
      req.newPassword) (fun _ _ => True) past := by
  simp only [AuthService.changePassword, safe_bind, safe_perform]
  refine ⟨trivial, fun found => ?_⟩
  rcases found with _ | _ | row
  · simp
  · simp
  dsimp only
  split
  next hpassword =>
    simp only [safe_bind, safe_perform]
    refine ⟨trivial, fun hashed => ?_⟩
    rcases hashed with _ | hash
    · simp
    simp only [safe_bind, safe_perform]
    refine ⟨⟨req, token, session, holder, row, hreq, htoken, ?_, by simp [hholder], rfl, by simp,
      hpassword, by simp⟩, fun written => ?_⟩
    · exact (hsession.append _).append _
    · rcases written with _ | ⟨⟨⟩⟩ <;> simp
  next => simp

/-! ### The handlers -/

theorem loginHandler_entitled
    (hallowed : ⟨.allow .login (RateLimitMiddleware.extractIP cfg.trustedProxiesEnv r.toRequest),
      true⟩ ∈ past ∧ NoLookup past) :
    Safe (r.Entitled cfg) (AuthHandler.login cfg r) r.Answers past := by
  rw [AuthHandler.login]
  cases hreq : r.loginBody with
  | none => exact safe_pure.mpr trivial
  | some req =>
    dsimp only
    split
    next => exact safe_pure.mpr trivial
    next =>
      refine (login_entitled hreq hallowed).bind fun events result hresult => ?_
      rcases result with error | ⟨session, user⟩
      · cases error <;> exact safe_pure.mpr trivial
      · exact safe_pure.mpr (hresult session user rfl)

theorem logoutHandler_entitled (hpath : r.path = str "/api/v1/auth/logout")
    (hmethod : r.method = str "POST") :
    Safe (r.Entitled cfg) (AuthHandler.logout r) r.Answers past := by
  rw [AuthHandler.logout]
  cases htoken : r.session with
  | none => exact safe_pure.mpr trivial
  | some token => exact ⟨.inl ⟨hpath, hmethod, htoken⟩, fun _ => trivial⟩

theorem meHandler_entitled : Safe (r.Entitled cfg) (AuthHandler.me r) r.Answers past := by
  rw [AuthHandler.me]
  cases htoken : r.session with
  | none => exact safe_pure.mpr trivial
  | some token =>
    refine (getUserBySession_entitled cfg r token past).bind fun events result hresult => ?_
    rcases result with error | user
    · exact safe_pure.mpr trivial
    · obtain ⟨session, hsession, huser⟩ := hresult user rfl
      exact safe_pure.mpr ⟨token, session, htoken, hsession, huser⟩

theorem needsSetup_entitled :
    Safe (r.Entitled cfg) AuthService.needsSetup
      (fun events result => result = .ok true → ⟨.countUsers, .ok 0⟩ ∈ events) past := by
  simp only [AuthService.needsSetup, safe_bind, safe_perform]
  refine ⟨trivial, fun count => ?_⟩
  rcases count with _ | count
  · simp
  rw [safe_pure]
  intro hcount
  obtain rfl : count = 0 := of_decide_eq_true (Except.ok.inj hcount)
  simp

theorem needsSetupHandler_entitled :
    Safe (r.Entitled cfg) AuthHandler.needsSetup r.Answers past := by
  refine needsSetup_entitled.bind fun events result _ => ?_
  rcases result with error | needed <;> exact safe_pure.mpr trivial

theorem setupHandler_entitled : Safe (r.Entitled cfg) (AuthHandler.setup r) r.Answers past := by
  refine needsSetup_entitled.bind fun events result hresult => ?_
  rcases result with error | needed
  · exact safe_pure.mpr trivial
  cases needed with
  | false => exact safe_pure.mpr trivial
  | true =>
    cases r.setupBody with
    | none => exact safe_pure.mpr trivial
    | some req =>
      dsimp only
      split
      next => exact safe_pure.mpr trivial
      split
      next => exact safe_pure.mpr trivial
      next =>
        simp only [AuthService.createUser, safe_bind, safe_perform]
        refine ⟨trivial, fun hashed => ?_⟩
        rcases hashed with _ | hash
        · exact safe_pure.mpr trivial
        simp only [safe_bind, safe_perform]
        refine ⟨?_, fun created => ?_⟩
        · exact List.mem_append_left _ (hresult rfl)
        rcases created with _ | user
        · exact safe_pure.mpr trivial
        · exact safe_pure.mpr ⟨_, List.mem_append_right _ (List.mem_singleton_self _)⟩

theorem changePasswordHandler_entitled :
    Safe (r.Entitled cfg) (AuthHandler.changePassword cfg r) r.Answers past := by
  rw [AuthHandler.changePassword]
  cases htoken : r.session with
  | none => exact safe_pure.mpr trivial
  | some token =>
    refine (getUserBySession_entitled cfg r token past).bind fun events result hresult => ?_
    rcases result with error | user
    · exact safe_pure.mpr trivial
    obtain ⟨session, hsession, huser⟩ := hresult user rfl
    cases hreq : r.changePasswordBody with
    | none => exact safe_pure.mpr trivial
    | some req =>
      dsimp only
      split
      next => exact safe_pure.mpr trivial
      split
      next => exact safe_pure.mpr trivial
      next =>
        refine (changePassword_entitled hreq htoken hsession huser).bind fun _ result _ => ?_
        rcases result with error | ⟨⟨⟩⟩
        · cases error <;> exact safe_pure.mpr trivial
        · exact safe_pure.mpr trivial

/-! ### The layers -/

/-- A request to log in that has come this far was allowed to try, and has not tried yet. -/
def ApiRequest.Allowed (cfg : ApiConfig) (r : ApiRequest) (past : List (Event AuthAns)) : Prop :=
  (RateLimitMiddleware.isLogin r.toRequest = true →
    ⟨.allow .login (RateLimitMiddleware.extractIP cfg.trustedProxiesEnv r.toRequest), true⟩ ∈
      past) ∧ NoLookup past

theorem ApiRequest.Allowed.append (h : r.Allowed cfg past) (hevents : NoLookup (past ++ events)) :
    r.Allowed cfg (past ++ events) :=
  ⟨fun hlogin => List.mem_append_left _ (h.1 hlogin), hevents⟩

theorem handleAuthRoutes_entitled (hallowed : r.Allowed cfg past) :
    Safe (r.Entitled cfg) (Router.handleAuthRoutes cfg r) r.Answers past := by
  rw [Router.handleAuthRoutes]
  split
  next => exact needsSetupHandler_entitled
  split
  next => exact setupHandler_entitled
  split
  next hlogin =>
    refine loginHandler_entitled ⟨hallowed.1 ?_, hallowed.2⟩
    simp [RateLimitMiddleware.isLogin, hlogin]
  split
  next hlogout => exact logoutHandler_entitled hlogout.1 hlogout.2
  split
  next => exact meHandler_entitled
  split
  next => exact changePasswordHandler_entitled
  next => exact safe_pure.mpr trivial

theorem handleAPIRoutes_entitled (hallowed : r.Allowed cfg past) :
    Safe (r.Entitled cfg) (Router.handleAPIRoutes cfg r) r.Answers past := by
  rw [Router.handleAPIRoutes]
  cases hfamily : apiFamily r.path r.method with
  | auth => exact handleAuthRoutes_entitled hallowed
  | notFound => exact safe_pure.mpr trivial
  | behindSession handler =>
    dsimp only
    rw [AuthMiddleware.authenticate]
    cases htoken : r.session with
    | none => exact safe_pure.mpr trivial
    | some token =>
      refine (validateSession_entitled cfg r token past).bind fun events result hresult => ?_
      rcases result with _ | session
      · exact safe_pure.mpr trivial
      cases handler with
      | none => exact safe_pure.mpr trivial
      | some endpoint =>
        exact safe_pure.mpr ⟨hfamily, token, session, htoken, hresult.1 session rfl, rfl, rfl⟩

theorem limitRequests_entitled {ip : GoString} {next : Program AuthAns ApiResponse}
    (hallowed : r.Allowed cfg past)
    (hnext : ∀ past, r.Allowed cfg past → Safe (r.Entitled cfg) next r.Answers past) :
    Safe (r.Entitled cfg) (RateLimitMiddleware.limitRequests ip r next) r.Answers past := by
  have hauthenticated : Safe (r.Entitled cfg) (RateLimitMiddleware.isAuthenticated r)
      (fun events _ => r.Allowed cfg events) past := by
    rw [RateLimitMiddleware.isAuthenticated]
    cases r.session with
    | none => exact safe_pure.mpr hallowed
    | some token =>
      refine (validateSession_entitled cfg r token past).bind fun events result hresult => ?_
      cases result <;> exact safe_pure.mpr (hallowed.append (hresult.2 hallowed.2))
  refine hauthenticated.bind fun events authenticated hallowed => ?_
  simp only [safe_bind, safe_perform]
  refine ⟨trivial, fun allowed => ?_⟩
  split
  next => exact hnext _ (hallowed.append (hallowed.2.append (by simp [AuthOp.IsLookup])))
  next => exact safe_pure.mpr trivial

theorem limit_entitled {next : Program AuthAns ApiResponse}
    (hnext : ∀ past, r.Allowed cfg past → Safe (r.Entitled cfg) next r.Answers past) :
    Safe (r.Entitled cfg) (RateLimitMiddleware.limit cfg r next) r.Answers [] := by
  rw [RateLimitMiddleware.limit]
  split
  next =>
    simp only [safe_bind, safe_perform]
    refine ⟨trivial, fun allowed => ?_⟩
    cases allowed with
    | false => exact safe_pure.mpr trivial
    | true =>
      exact limitRequests_entitled ⟨fun _ => by simp, by simp [NoLookup, AuthOp.IsLookup]⟩ hnext
  next hlogin =>
    exact limitRequests_entitled ⟨fun h => absurd h hlogin, by simp [NoLookup]⟩ hnext

/-- **Every request** does what it is entitled to, and answers with what it has shown. -/
theorem serve_entitled (cfg : ApiConfig) (r : ApiRequest) :
    Safe (r.Entitled cfg) (Router.serve cfg r) r.Answers [] := by
  rw [Router.serve]
  split
  next => exact limit_entitled fun _ => handleAPIRoutes_entitled
  next => exact safe_pure.mpr trivial
  next => exact safe_pure.mpr trivial

end Spec

/-- What a thread must have done before a call. -/
def Activity.Entitled (cfg : ApiConfig) (a : Activity) (past : List (Event AuthAns))
    (op : AuthOp) : Prop :=
  match a with
  | .request r => r.Entitled cfg past op
  | .cleanupLoop => op = .deleteExpired
  | .limiterCleanup limiter => op = .cleanup limiter
  | .operator id enabled => op = .setEnabled id enabled

/-- What stands behind the answer of a thread. -/
def Activity.Answers (a : Activity) (events : List (Event AuthAns)) :
    Option ApiResponse → Prop
  | none => True
  | some response => ∃ r, a = .request r ∧ r.Answers events response

/-- The operations of requests. -/
def AuthOp.OfRequest : AuthOp → Bool
  | .deleteExpired | .setEnabled _ _ | .cleanup _ => false
  | _ => true

/-- Such an operation is of a request that is entitled to it. -/
theorem Activity.Entitled.of_request {cfg : ApiConfig} {a : Activity}
    {past : List (Event AuthAns)} {op : AuthOp} (h : a.Entitled cfg past op)
    (hop : op.OfRequest = true) : ∃ r, a = .request r ∧ r.Entitled cfg past op := by
  cases a with
  | request r => exact ⟨r, rfl, h⟩
  | cleanupLoop => subst h; cases hop
  | limiterCleanup limiter => subst h; cases hop
  | operator id enabled => subst h; cases hop

/-- **Every thread** does what it is entitled to, and answers with what it has shown. -/
theorem program_safe (cfg : ApiConfig) (a : Activity) :
    (a.program cfg).Safe (a.Entitled cfg) a.Answers [] := by
  cases a with
  | request r =>
    refine (serve_entitled cfg r).bind fun events response hresponse => ?_
    exact safe_pure.mpr ⟨r, rfl, hresponse⟩
  | cleanupLoop => exact ⟨rfl, fun _ => trivial⟩
  | limiterCleanup limiter => exact ⟨rfl, fun _ => trivial⟩
  | operator id enabled => exact ⟨rfl, fun _ => trivial⟩

end VibesWaf

import VibesWaf.Challenge.ClientIP
import VibesWaf.Management.AuthService
import VibesWaf.Management.Routes

/-!
# Requests to the management API

The dashboard host serves the API behind two layers: `RateLimitMiddleware` counts the requests of
an address, and the attempts to log in once more, and `AuthMiddleware` hands a request on only with
the user of its session, whom it names in two headers. The routes of `/api/v1/auth` stand outside
the second layer and look at the session themselves, where they need one.

A request is a program over the calls of `Management.AuthService`. What else the handlers behind
the session check do is not followed here: the answer `endpoint` says which of them is called, and
with which headers.
-/

namespace VibesWaf

/-- `LoginRequest`. -/
structure LoginRequest where
  username : GoString
  password : GoString
  deriving DecidableEq

/-- `SetupRequest`. -/
structure SetupRequest where
  username : GoString
  password : GoString
  email : GoString
  deriving DecidableEq

/-- `ChangePasswordRequest`. -/
structure ChangePasswordRequest where
  oldPassword : GoString
  newPassword : GoString
  deriving DecidableEq

/-- A request to the router, with what the JSON decoder makes of its body for each of the handlers
that read it here; `none` is an error. -/
structure ApiRequest extends Request where
  loginBody : Option LoginRequest
  setupBody : Option SetupRequest
  changePasswordBody : Option ChangePasswordRequest

/-- What the router answers. -/
inductive ApiResponse
  /-- An error as JSON. -/
  | error (status : ℕ) (message : GoString)
  /-- `http.Error` with a plain text. -/
  | plain (status : ℕ) (message : GoString)
  | noContent
  | notFound
  /-- `AuthResponse` with the session cookie: its value and when it expires. -/
  | loggedIn (token : GoString) (expires : ℤ) (user : User)
  /-- `AuthResponse`. -/
  | setUp (user : User)
  | user (user : User)
  | needsSetup (needed : Bool)
  /-- A message, with or without a session cookie that is to be forgotten. -/
  | message (text : GoString) (forget : Bool)
  /-- A handler behind the session check, with the headers `X-User-ID` and `X-Username`. -/
  | endpoint (handler : Endpoint) (userID username : GoString)
  /-- The other destinations of the router. -/
  | elsewhere (destination : Destination)
  deriving DecidableEq

/-- The settings of the router. -/
structure ApiConfig where
  dashboardHost : GoString
  /-- `TRUSTED_PROXIES`. -/
  trustedProxiesEnv : GoString
  bcrypt : Bcrypt

/-- The session cookie. -/
def Request.session (r : Request) : Option GoString :=
  r.cookie (str "session")

namespace AuthHandler

/-- `Login`. -/
def login (cfg : ApiConfig) (r : ApiRequest) : Program AuthAns ApiResponse := do
  match r.loginBody with
  | none => pure (.error 400 (str "Invalid request body"))
  | some req =>
    if req.username = [] ∨ req.password = [] then
      pure (.error 400 (str "Username and password are required"))
    else
      match ← AuthService.login cfg.bcrypt req.username req.password with
      | .error .invalidCredentials => pure (.error 401 (str "Invalid username or password"))
      | .error _ => pure (.error 500 (str "Internal server error"))
      | .ok (session, user) => pure (.loggedIn session.token session.expiresAt user)

/-- `Logout`. -/
def logout (r : ApiRequest) : Program AuthAns ApiResponse := do
  match r.session with
  | none => pure (.message (str "Logout successful") true)
  | some token => do
    AuthService.logout token
    pure (.message (str "Logout successful") true)

/-- `Me`. -/
def me (r : ApiRequest) : Program AuthAns ApiResponse := do
  match r.session with
  | none => pure (.error 401 (str "Unauthorized"))
  | some token =>
    match ← AuthService.getUserBySession token with
    | .error _ => pure (.error 401 (str "Unauthorized"))
    | .ok user => pure (.user user)

/-- `NeedsSetup`. -/
def needsSetup : Program AuthAns ApiResponse := do
  match ← AuthService.needsSetup with
  | .error _ => pure (.error 500 (str "Internal server error"))
  | .ok needed => pure (.needsSetup needed)

/-- `Setup`. -/
def setup (r : ApiRequest) : Program AuthAns ApiResponse := do
  match ← AuthService.needsSetup with
  | .error _ => pure (.error 500 (str "Internal server error"))
  | .ok false => pure (.error 403 (str "Setup already completed"))
  | .ok true =>
    match r.setupBody with
    | none => pure (.error 400 (str "Invalid request body"))
    | some req =>
      if req.username = [] ∨ req.password = [] ∨ req.email = [] then
        pure (.error 400 (str "Username, password, and email are required"))
      else if req.password.length < 8 then
        pure (.error 400 (str "Password must be at least 8 characters"))
      else
        match ← AuthService.createUser req.username req.password req.email (str "admin") with
        | .error _ => pure (.error 500 (str "Failed to create admin user"))
        | .ok user => pure (.setUp user)

/-- `ChangePassword`. -/
def changePassword (cfg : ApiConfig) (r : ApiRequest) : Program AuthAns ApiResponse := do
  match r.session with
  | none => pure (.error 401 (str "Unauthorized"))
  | some token =>
    match ← AuthService.getUserBySession token with
    | .error _ => pure (.error 401 (str "Unauthorized"))
    | .ok user =>
      match r.changePasswordBody with
      | none => pure (.error 400 (str "Invalid request body"))
      | some req =>
        if req.oldPassword = [] ∨ req.newPassword = [] then
          pure (.error 400 (str "Old password and new password are required"))
        else if req.newPassword.length < 8 then
          pure (.error 400 (str "New password must be at least 8 characters"))
        else
          match ← AuthService.changePassword cfg.bcrypt user.id req.oldPassword
            req.newPassword with
          | .error .invalidCredentials => pure (.error 401 (str "Invalid old password"))
          | .error _ => pure (.error 500 (str "Internal server error"))
          | .ok () => pure (.message (str "Password changed successfully") false)

end AuthHandler

/-! ### The layers -/

/-- `Authenticate`, of a handler that is given the two headers. -/
def AuthMiddleware.authenticate (r : ApiRequest)
    (next : GoString → GoString → Program AuthAns ApiResponse) : Program AuthAns ApiResponse := do
  match r.session with
  | none => pure (.error 401 (str "Unauthorized - No session cookie"))
  | some token =>
    match ← AuthService.validateSession token with
    | none => pure (.error 401 (str "Unauthorized - Invalid or expired session"))
    | some session => next (itoa session.userID) session.username

namespace RateLimitMiddleware

/-- The networks of `TRUSTED_PROXIES`. -/
def trusted (env : GoString) : List GoString :=
  let trustedStr := if env = [] then str "127.0.0.1/32,::1/128" else env
  ((split trustedStr 0x2C).map trimSpace).filter fun cidr => cidr ≠ []

/-- `extractIP`, which is the walk of `ExtractClientIPStatic` again. -/
def extractIP (env : GoString) (r : Request) : GoString :=
  extractClientIPStatic r (trusted env)

/-- The path and the method of an attempt to log in. -/
def isLogin (r : Request) : Bool :=
  r.path = str "/api/v1/auth/login" && r.method = str "POST"

/-- `isAuthenticated`. -/
def isAuthenticated (r : ApiRequest) : Program AuthAns Bool := do
  match r.session with
  | none => pure false
  | some token =>
    match ← AuthService.validateSession token with
    | none => pure false
    | some _ => pure true

/-- `Limit` after the limiter of the attempts to log in. -/
def limitRequests (ip : GoString) (r : ApiRequest) (next : Program AuthAns ApiResponse) :
    Program AuthAns ApiResponse := do
  let authenticated ← isAuthenticated r
  let allowed ← allow (if authenticated then .auth else .api) ip
  if allowed then next else pure (.error 429 (str "Too many requests, try again later"))

/-- `Limit`. -/
def limit (cfg : ApiConfig) (r : ApiRequest) (next : Program AuthAns ApiResponse) :
    Program AuthAns ApiResponse := do
  let ip := extractIP cfg.trustedProxiesEnv r.toRequest
  if isLogin r.toRequest then do
    let allowed ← allow .login ip
    if allowed then limitRequests ip r next
    else pure (.error 429 (str "Too many login attempts, try again later"))
  else limitRequests ip r next

end RateLimitMiddleware

namespace Router

/-- `handleAuthRoutes`. -/
def handleAuthRoutes (cfg : ApiConfig) (r : ApiRequest) : Program AuthAns ApiResponse :=
  if r.path = str "/api/v1/auth/setup" ∧ r.method = str "GET" then AuthHandler.needsSetup
  else if r.path = str "/api/v1/auth/setup" ∧ r.method = str "POST" then AuthHandler.setup r
  else if r.path = str "/api/v1/auth/login" ∧ r.method = str "POST" then AuthHandler.login cfg r
  else if r.path = str "/api/v1/auth/logout" ∧ r.method = str "POST" then AuthHandler.logout r
  else if r.path = str "/api/v1/auth/me" ∧ r.method = str "GET" then AuthHandler.me r
  else if r.path = str "/api/v1/auth/change-password" ∧ r.method = str "PUT" then
    AuthHandler.changePassword cfg r
  else pure (.plain 405 (str "Method not allowed"))

/-- `handleAPIRoutes`. -/
def handleAPIRoutes (cfg : ApiConfig) (r : ApiRequest) : Program AuthAns ApiResponse :=
  match apiFamily r.path r.method with
  | .auth => handleAuthRoutes cfg r
  | .notFound => pure .notFound
  | .behindSession handler =>
    AuthMiddleware.authenticate r fun userID username =>
      match handler with
      | none => pure (.plain 405 (str "Method not allowed"))
      | some endpoint => pure (.endpoint endpoint userID username)

/-- `ServeHTTP`, as far as the management API goes. -/
def serve (cfg : ApiConfig) (r : ApiRequest) : Program AuthAns ApiResponse :=
  match Router.serveHTTP cfg.dashboardHost r.toRequest with
  | .api => RateLimitMiddleware.limit cfg r (handleAPIRoutes cfg r)
  | .noContent => pure .noContent
  | destination => pure (.elsewhere destination)

end Router

/-! ### Everything that runs -/

/-- A thread: a request, one tick of a clean-up, or an operator who switches a user on or off in the
database. -/
inductive Activity
  | request (r : ApiRequest)
  | cleanupLoop
  | limiterCleanup (limiter : LimiterName)
  | operator (id : ℤ) (enabled : Bool)

/-- What a thread does; only a request has an answer. -/
def Activity.program (cfg : ApiConfig) : Activity → Program AuthAns (Option ApiResponse)
  | .request r => do
    let response ← Router.serve cfg r
    pure (some response)
  | .cleanupLoop => do
    let _ ← SessionRepository.deleteExpired
    pure none
  | .limiterCleanup limiter => do
    let _ ← ask (.cleanup limiter)
    pure none
  | .operator id enabled => do
    let _ ← ask (.setEnabled id enabled)
    pure none

/-- Threads of the management API after some moves, from a state of the tables. -/
def apiRun (cfg : ApiConfig) (m : Management) (activities : ℕ → Activity)
    (moves : List (ℕ × Outside)) : Interleaving Management Outside AuthAns (Option ApiResponse) :=
  Interleaving.run (Management.respond cfg.bcrypt) m (fun i => (activities i).program cfg) moves

end VibesWaf

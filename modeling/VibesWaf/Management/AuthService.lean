import VibesWaf.Lib.Interleave
import VibesWaf.RateLimit.Memory

/-!
# Users and sessions

The management API keeps its users and their sessions in two tables of the database. `AuthService`
reads and writes them with one statement at a time, so its functions are programs over the
statements, and those of other requests, of the clean-up and of an operator at the database console
may come between any two of them. A statement can fail, before or after it has had its effect.

Times are in microseconds, as the database keeps them. The hash of a password is `bcrypt`'s, which
is a parameter.
-/

namespace VibesWaf

/-! ### The tables -/

/-- `User`. -/
structure User where
  id : ℤ
  username : GoString
  passwordHash : GoString
  email : GoString
  role : GoString
  enabled : Bool
  lastLogin : Option ℤ
  createdAt : ℤ
  updatedAt : ℤ
  deriving DecidableEq

/-- `SessionRow`. -/
structure SessionRow where
  token : GoString
  userID : ℤ
  expiresAt : ℤ
  createdAt : ℤ
  deriving DecidableEq

/-- The limiters of `RateLimitMiddleware`. -/
inductive LimiterName
  | api
  | auth
  | login
  deriving DecidableEq

/-- What the requests share: the tables `users` and `sessions`, and the three limiters. -/
structure Management where
  users : List User
  sessions : List SessionRow
  /-- The next value of the sequence of `users.id`. -/
  nextID : ℤ
  limiters : LimiterName → MemoryLimiter

/-- What becomes of a statement. -/
inductive Fault
  | none
  /-- It fails and has had no effect. -/
  | refused
  /-- It has its effect, and the answer is lost. -/
  | unacknowledged
  deriving DecidableEq

/-- What the outside says to a call: the clock, the fate of a statement, which of several rows comes
first, and random bytes. -/
structure Outside where
  now : ℤ
  fault : Fault
  first : ℕ
  random : GoString
  deriving DecidableEq

/-- The error of a statement. -/
inductive DBError
  | failed
  deriving DecidableEq

/-- The statements, the other calls that the outside answers, and the limiters. -/
inductive AuthOp
  | findByID (id : ℤ)
  | findByUsernameOrEmail (text : GoString)
  | countUsers
  | createUser (user : User)
  | updatePassword (id : ℤ) (hash : GoString)
  | updateLastLogin (id : ℤ)
  | createSession (token : GoString) (userID expiresAt : ℤ)
  | findByToken (token : GoString)
  | deleteSession (token : GoString)
  | deleteExpired
  /-- An operator switches a user on or off. -/
  | setEnabled (id : ℤ) (enabled : Bool)
  | now
  | randRead
  | generateFromPassword (password : GoString)
  | allow (limiter : LimiterName) (ip : GoString)
  | cleanup (limiter : LimiterName)
  deriving DecidableEq

/-- The type of an answer. -/
abbrev AuthAns : AuthOp → Type
  | .findByID _ => Except DBError (Option User)
  | .findByUsernameOrEmail _ => Except DBError (Option User)
  | .countUsers => Except DBError ℕ
  | .createUser _ => Except DBError User
  | .updatePassword _ _ => Except DBError Unit
  | .updateLastLogin _ => Except DBError Unit
  | .createSession _ _ _ => Except DBError Unit
  | .findByToken _ => Except DBError (Option SessionRow)
  | .deleteSession _ => Except DBError Unit
  | .deleteExpired => Except DBError ℕ
  | .setEnabled _ _ => Except DBError Unit
  | .now => ℤ
  | .randRead => GoString
  | .generateFromPassword _ => Option GoString
  | .allow _ _ => Bool
  | .cleanup _ => Unit

instance : (op : AuthOp) → DecidableEq (AuthAns op)
  | .findByID _ => inferInstance
  | .findByUsernameOrEmail _ => inferInstance
  | .countUsers => inferInstance
  | .createUser _ => inferInstance
  | .updatePassword _ _ => inferInstance
  | .updateLastLogin _ => inferInstance
  | .createSession _ _ _ => inferInstance
  | .findByToken _ => inferInstance
  | .deleteSession _ => inferInstance
  | .deleteExpired => inferInstance
  | .setEnabled _ _ => inferInstance
  | .now => inferInstanceAs (DecidableEq ℤ)
  | .randRead => inferInstance
  | .generateFromPassword _ => inferInstance
  | .allow _ _ => inferInstance
  | .cleanup _ => inferInstance

/-- The operation creates a session with a token. -/
def AuthOp.Draws (token : GoString) : AuthOp → Prop
  | .createSession drawn _ _ => drawn = token
  | _ => False

instance (token : GoString) : DecidablePred (AuthOp.Draws token)
  | .createSession drawn _ _ => inferInstanceAs (Decidable (drawn = token))
  | .findByID _ | .findByUsernameOrEmail _ | .countUsers | .createUser _ | .updatePassword _ _
  | .updateLastLogin _ | .findByToken _ | .deleteSession _ | .deleteExpired | .setEnabled _ _
  | .now | .randRead | .generateFromPassword _ | .allow _ _ | .cleanup _ => instDecidableFalse

/-- `bcrypt`: whether a hash is one of a password, and a hash of a password for some random bytes;
`none` is an error. -/
structure Bcrypt where
  compareHashAndPassword : GoString → GoString → Bool
  generateFromPassword : GoString → GoString → Option GoString

namespace Management

/-- A query. -/
def query {α : Type} (o : Outside) (answer : α) (m : Management) : Except DBError α × Management :=
  (if o.fault = .none then .ok answer else .error .failed, m)

/-- A statement that writes, with its answer and the tables after it. -/
def exec {α : Type} (o : Outside) (done : Except DBError α × Management) (m : Management) :
    Except DBError α × Management :=
  match o.fault with
  | .none => done
  | .refused => (.error .failed, m)
  | .unacknowledged => (.error .failed, done.2)

/-- The first of the rows, in the order in which the database happens to find them. -/
def firstRow (o : Outside) (rows : List User) : Option User :=
  rows[o.first % rows.length]?

/-- `INSERT INTO users`: the names and the email addresses are unique. A failed insertion has taken
a value from the sequence. -/
def insertUser (o : Outside) (user : User) (m : Management) : Except DBError User × Management :=
  let row : User :=
    { user with id := m.nextID, lastLogin := .none, createdAt := o.now, updatedAt := o.now }
  if m.users.any fun u => u.username = user.username || u.email = user.email then
    (.error .failed, { m with nextID := m.nextID + 1 })
  else (.ok row, { m with users := m.users ++ [row], nextID := m.nextID + 1 })

/-- `UPDATE users ... WHERE id`. -/
def updateUser (id : ℤ) (f : User → User) (m : Management) : Except DBError Unit × Management :=
  (.ok (), { m with users := m.users.map fun u => if u.id = id then f u else u })

/-- `INSERT INTO sessions`: the token is the key, and the user must exist. -/
def insertSession (o : Outside) (token : GoString) (userID expiresAt : ℤ) (m : Management) :
    Except DBError Unit × Management :=
  if (m.sessions.any fun s => s.token = token) || !m.users.any fun u => u.id = userID then
    (.error .failed, m)
  else (.ok (), { m with sessions := m.sessions ++ [⟨token, userID, expiresAt, o.now⟩] })

/-- The tables and the limiters answer a call. -/
def respond (bcrypt : Bcrypt) : Resource Management Outside AuthAns
  | o, .findByID id, m => m.query o (m.users.find? fun u => u.id = id && u.enabled)
  | o, .findByUsernameOrEmail text, m =>
    m.query o <| firstRow o <|
      m.users.filter fun u => (u.username = text || u.email = text) && u.enabled
  | o, .countUsers, m => m.query o m.users.length
  | o, .createUser user, m => m.exec o (m.insertUser o user)
  | o, .updatePassword id hash, m =>
    m.exec o (m.updateUser id fun u => { u with passwordHash := hash, updatedAt := o.now })
  | o, .updateLastLogin id, m =>
    m.exec o (m.updateUser id fun u => { u with lastLogin := some o.now })
  | o, .createSession token userID expiresAt, m =>
    m.exec o (m.insertSession o token userID expiresAt)
  | o, .findByToken token, m => m.query o (m.sessions.find? fun s => s.token = token)
  | o, .deleteSession token, m =>
    m.exec o (.ok (), { m with sessions := m.sessions.filter fun s => s.token ≠ token })
  | o, .deleteExpired, m =>
    m.exec o (.ok (m.sessions.filter fun s => s.expiresAt < o.now).length,
      { m with sessions := m.sessions.filter fun s => ¬ s.expiresAt < o.now })
  | o, .setEnabled id enabled, m => m.exec o (m.updateUser id fun u => { u with enabled })
  | o, .now, m => (o.now, m)
  | o, .randRead, m => (o.random, m)
  | o, .generateFromPassword password, m => (bcrypt.generateFromPassword o.random password, m)
  | o, .allow name ip, m =>
    let (allowed, limiter) := (m.limiters name).allow o.now ip
    (allowed, { m with limiters := Function.update m.limiters name limiter })
  | o, .cleanup name, m =>
    ((), { m with limiters := Function.update m.limiters name ((m.limiters name).cleanup o.now) })

end Management

/-! ### One call -/

/-- The program of one call. -/
abbrev ask (op : AuthOp) : Program AuthAns (AuthAns op) :=
  .perform op

namespace UserRepository

/-- `FindByID`, of the users that are switched on. -/
abbrev findByID (id : ℤ) : Program AuthAns (Except DBError (Option User)) :=
  ask (.findByID id)

/-- `FindByUsernameOrEmail`, of the users that are switched on. -/
abbrev findByUsernameOrEmail (text : GoString) : Program AuthAns (Except DBError (Option User)) :=
  ask (.findByUsernameOrEmail text)

/-- `Create`. -/
abbrev create (user : User) : Program AuthAns (Except DBError User) :=
  ask (.createUser user)

/-- `UpdatePassword`. -/
abbrev updatePassword (id : ℤ) (hash : GoString) : Program AuthAns (Except DBError Unit) :=
  ask (.updatePassword id hash)

/-- `UpdateLastLogin`. -/
abbrev updateLastLogin (id : ℤ) : Program AuthAns (Except DBError Unit) :=
  ask (.updateLastLogin id)

/-- `Count`. -/
abbrev count : Program AuthAns (Except DBError ℕ) :=
  ask .countUsers

end UserRepository

namespace SessionRepository

/-- `Create`. -/
abbrev create (token : GoString) (userID expiresAt : ℤ) : Program AuthAns (Except DBError Unit) :=
  ask (.createSession token userID expiresAt)

/-- `FindByToken`. -/
abbrev findByToken (token : GoString) : Program AuthAns (Except DBError (Option SessionRow)) :=
  ask (.findByToken token)

/-- `Delete`. -/
abbrev delete (token : GoString) : Program AuthAns (Except DBError Unit) :=
  ask (.deleteSession token)

/-- `DeleteExpired`. -/
abbrev deleteExpired : Program AuthAns (Except DBError ℕ) :=
  ask .deleteExpired

end SessionRepository

/-- `time.Now`. -/
abbrev timeNow : Program AuthAns ℤ :=
  ask .now

/-- `rand.Read`. -/
abbrev randRead : Program AuthAns GoString :=
  ask .randRead

/-- `bcrypt.GenerateFromPassword`. -/
abbrev generateFromPassword (password : GoString) : Program AuthAns (Option GoString) :=
  ask (.generateFromPassword password)

/-- `MemoryLimiter.Allow`. -/
abbrev allow (limiter : LimiterName) (ip : GoString) : Program AuthAns Bool :=
  ask (.allow limiter ip)

/-! ### The service -/

/-- `Session`. -/
structure Session where
  token : GoString
  userID : ℤ
  username : GoString
  expiresAt : ℤ
  deriving DecidableEq

/-- The errors of the service: its own three, that of a statement, and that of `bcrypt`. -/
inductive AuthError
  | invalidCredentials
  | userNotFound
  | invalidSession
  | database
  | hash
  deriving DecidableEq

/-- `sessionTTL`: seven days. -/
def sessionTTL : ℤ :=
  7 * 24 * 3600 * 1000000

/-- A digit of `base64.URLEncoding`. -/
def base64Digit (n : ℕ) : UInt8 :=
  (str "ABCDEFGHIJKLMNOPQRSTUVWXYZabcdefghijklmnopqrstuvwxyz0123456789-_").getD n 0

/-- `base64.URLEncoding.EncodeToString`. -/
def base64Encode : List UInt8 → GoString
  | [] => []
  | [a] => [base64Digit (a.toNat / 4), base64Digit (a.toNat % 4 * 16), 0x3D, 0x3D]
  | [a, b] =>
    [base64Digit (a.toNat / 4), base64Digit (a.toNat % 4 * 16 + b.toNat / 16),
      base64Digit (b.toNat % 16 * 4), 0x3D]
  | a :: b :: c :: rest =>
    [base64Digit (a.toNat / 4), base64Digit (a.toNat % 4 * 16 + b.toNat / 16),
      base64Digit (b.toNat % 16 * 4 + c.toNat / 64), base64Digit (c.toNat % 64)] ++
      base64Encode rest

namespace AuthService

/-- `generateSessionToken`. -/
def generateSessionToken : Program AuthAns GoString := do
  let b ← randRead
  pure (base64Encode b)

/-- `Login`. -/
def login (bcrypt : Bcrypt) (username password : GoString) :
    Program AuthAns (Except AuthError (Session × User)) := do
  match ← UserRepository.findByUsernameOrEmail username with
  | .error _ => pure (.error .database)
  | .ok none => pure (.error .invalidCredentials)
  | .ok (some user) =>
    if bcrypt.compareHashAndPassword user.passwordHash password then do
      let token ← generateSessionToken
      let now ← timeNow
      match ← SessionRepository.create token user.id (now + sessionTTL) with
      | .error _ => pure (.error .database)
      | .ok () => do
        let _ ← UserRepository.updateLastLogin user.id
        pure (.ok (⟨token, user.id, user.username, now + sessionTTL⟩, user))
    else pure (.error .invalidCredentials)

/-- `Logout`. -/
def logout (token : GoString) : Program AuthAns Unit := do
  let _ ← SessionRepository.delete token
  pure ()

/-- `ValidateSession`; `none` is `ErrInvalidSession`. -/
def validateSession (token : GoString) : Program AuthAns (Option Session) := do
  match ← SessionRepository.findByToken token with
  | .error _ => pure none
  | .ok none => pure none
  | .ok (some row) => do
    let now ← timeNow
    if row.expiresAt < now then do
      let _ ← SessionRepository.delete token
      pure none
    else
      match ← UserRepository.findByID row.userID with
      | .ok (some user) => pure (some ⟨row.token, row.userID, user.username, row.expiresAt⟩)
      | .ok none => pure none
      | .error _ => pure none

/-- `GetUserBySession`. -/
def getUserBySession (token : GoString) : Program AuthAns (Except AuthError User) := do
  match ← validateSession token with
  | none => pure (.error .invalidSession)
  | some session =>
    match ← UserRepository.findByID session.userID with
    | .error _ => pure (.error .database)
    | .ok none => pure (.error .userNotFound)
    | .ok (some user) => pure (.ok user)

/-- `ChangePassword`. -/
def changePassword (bcrypt : Bcrypt) (userID : ℤ) (oldPassword newPassword : GoString) :
    Program AuthAns (Except AuthError Unit) := do
  match ← UserRepository.findByID userID with
  | .error _ => pure (.error .database)
  | .ok none => pure (.error .userNotFound)
  | .ok (some user) =>
    if bcrypt.compareHashAndPassword user.passwordHash oldPassword then do
      match ← generateFromPassword newPassword with
      | none => pure (.error .hash)
      | some hashedPassword =>
        match ← UserRepository.updatePassword userID hashedPassword with
        | .error _ => pure (.error .database)
        | .ok () => pure (.ok ())
    else pure (.error .invalidCredentials)

/-- `CreateUser`; the database fills in what `user` leaves open. -/
def createUser (username password email role : GoString) :
    Program AuthAns (Except AuthError User) := do
  match ← generateFromPassword password with
  | none => pure (.error .hash)
  | some hashedPassword =>
    match ← UserRepository.create ⟨0, username, hashedPassword, email, role, true, none, 0, 0⟩ with
    | .error _ => pure (.error .database)
    | .ok user => pure (.ok user)

/-- `NeedsSetup`. -/
def needsSetup : Program AuthAns (Except AuthError Bool) := do
  match ← UserRepository.count with
  | .error _ => pure (.error .database)
  | .ok count => pure (.ok (count = 0))

end AuthService

end VibesWaf

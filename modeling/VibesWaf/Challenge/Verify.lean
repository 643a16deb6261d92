import VibesWaf.Challenge.Store

/-!
# Solving challenges concurrently

`handleWAFVerify` is a sequence of store operations with tests in between: it looks the challenge
up, asks whether the address has solved too many, has the answer evaluated, and then counts a wrong
answer or deletes the challenge, records the solve and issues a token. Each operation is atomic, the
sequence is not. A `VerifyWorld` is the store with all requests that have arrived, each at its place
in the sequence, and a run advances one request by one operation, in any order.

What a request has read may no longer hold when it acts on it. `single_use`, `attempts_bounded` and
`solves_bounded` say what each of the three bounds needs at the step that could break it: that the
challenge to be deleted is still there, that the answers under evaluation are within the attempts
that are left, and that the address is not rate limited by the time its solve is recorded.
-/

namespace VibesWaf

/-! ### Requests -/

/-- What the handler decodes of the body. -/
structure VerifyBody where
  challengeID : GoString
  answer : Int64
  /-- In milliseconds. -/
  duration : Int64

/-- A request for `/__waf_verify`; a body that is not valid JSON has no decoding. -/
structure VerifyRequest where
  http : Request
  body : Option VerifyBody

/-- How the handler answers. -/
inductive VerifyResponse
  | methodNotAllowed
  | forbidden
  | badRequest
  | expired
  | internalError
  | rateLimited
  | invalid (remaining : ℤ)
  | token
  deriving DecidableEq

/-- The place of a request in the handler, with what it has read. -/
inductive Stage
  | arrived
  /-- `Get` has found the challenge. -/
  | found (body : VerifyBody) (ct : ChallengeType) (data : ChallengeData)
  /-- The address is not rate limited. -/
  | admitted (body : VerifyBody) (ct : ChallengeType) (data : ChallengeData)
  /-- The answer is wrong. -/
  | refused (id : GoString)
  /-- No attempts are left. -/
  | exhausted (id : GoString)
  /-- The answer is right. -/
  | accepted (id : GoString)
  /-- The challenge has been deleted after a right answer. -/
  | solved (id : GoString)
  | answered (response : VerifyResponse)

/-- What `Validate` is told about the request. -/
def VerifyRequest.info (r : VerifyRequest) (body : VerifyBody) : ValidateMeta :=
  ⟨verifyClientIP r.http, r.http.userAgent, body.duration * 1000000⟩

/-- `handleWAFVerify`, from one store operation to the next. -/
def VerifyRequest.advance (r : VerifyRequest) (types : List ChallengeType) (maxRetries : ℕ)
    (now : ℤ) (s : ChallengeStore) : Stage → ChallengeStore × Stage
  | .arrived =>
    if r.http.method ≠ str "POST" then (s, .answered .methodNotAllowed)
    else if r.http.get (str "X-Requested-With") ≠ str "XMLHttpRequest" then
      (s, .answered .forbidden)
    else
      match r.body with
      | none => (s, .answered .badRequest)
      | some body =>
        match s.get now body.challengeID with
        | none => (s, .answered .expired)
        | some data =>
          match getByType types data.typeName with
          | none => (s, .answered .internalError)
          | some ct => (s, .found body ct data)
  | .found body ct data =>
    let (s, limited) := s.isSolveRateLimited now (verifyClientIP r.http)
    (s, if limited then .answered .rateLimited else .admitted body ct data)
  | .admitted body ct data =>
    -- the challenge that `Get` returned, whether or not it is still stored
    (s, if ct.validate data body.answer (r.info body) then .accepted body.challengeID
      else .refused body.challengeID)
  | .refused id =>
    -- a challenge that is gone has -1 attempts, which is below every maximum
    let (s, attempts) := s.incrementAttempts id
    (s, if maxRetries ≤ attempts then .exhausted id
      else .answered (.invalid (max 0 (maxRetries - attempts))))
  | .exhausted id => (s.delete id, .answered (.invalid 0))
  -- `Delete` does not say whether the challenge was there
  | .accepted id => (s.delete id, .solved id)
  -- `RecordSolve` does not ask whether the address is rate limited
  | .solved _ => (s.recordSolve now (verifyClientIP r.http), .answered .token)
  | .answered response => (s, .answered response)

/-! ### Worlds -/

/-- A request that is under way. -/
structure Flight where
  request : VerifyRequest
  stage : Stage

/-- A token: for which challenge, to which address, and in which window of solves. -/
structure SolveToken where
  challengeID : GoString
  ip : GoString
  window : ℤ
  deriving DecidableEq

/-- The store, the requests, and what has come of them: the challenge of each answer that was
evaluated, and the tokens. -/
structure VerifyWorld where
  store : ChallengeStore
  flights : List Flight
  evaluated : List GoString
  tokens : List SolveToken

/-- What happens next. -/
inductive VerifyEvent
  | arrive (r : VerifyRequest)
  | advance (i : ℕ)
  | create (id typeName : GoString) (answer : Int64) (expiresAt : ℤ) (evicted : GoString → Bool)
  | cleanup

/-- An event, with the time it reads. -/
structure VerifyStep where
  now : ℤ
  event : VerifyEvent

/-- The answer evaluated at a stage. -/
def Stage.evaluates : Stage → List GoString
  | .admitted body _ _ => [body.challengeID]
  | _ => []

/-- The token issued at a stage, in the window its solve has been recorded in. -/
def Stage.issues (ip : GoString) (s : ChallengeStore) : Stage → List SolveToken
  | .solved id => (s.solveTracker ip).toList.map fun solves => ⟨id, ip, solves.windowStart⟩
  | _ => []

namespace VerifyWorld

/-- Nothing has happened. -/
def init : VerifyWorld :=
  ⟨.new, [], [], []⟩

/-- One step. -/
def step (types : List ChallengeType) (maxRetries : ℕ) (w : VerifyWorld) (st : VerifyStep) :
    VerifyWorld :=
  match st.event with
  | .arrive r => { w with flights := w.flights ++ [⟨r, .arrived⟩] }
  | .create id typeName answer expiresAt evicted =>
    { w with store := w.store.create id typeName answer expiresAt evicted }
  | .cleanup => { w with store := w.store.cleanup st.now }
  | .advance i =>
    match w.flights[i]? with
    | none => w
    | some flight =>
      let next := flight.request.advance types maxRetries st.now w.store flight.stage
      { store := next.1
        flights := w.flights.set i ⟨flight.request, next.2⟩
        evaluated := w.evaluated ++ flight.stage.evaluates
        tokens := w.tokens ++ flight.stage.issues (verifyClientIP flight.request.http) next.1 }

/-- The world after some steps. -/
def run (types : List ChallengeType) (maxRetries : ℕ) (steps : List VerifyStep) : VerifyWorld :=
  steps.foldl (step types maxRetries) init

theorem run_append (types : List ChallengeType) (maxRetries : ℕ) (steps : List VerifyStep)
    (st : VerifyStep) :
    run types maxRetries (steps ++ [st]) = (run types maxRetries steps).step types maxRetries st := by
  rw [run, List.foldl_append]
  rfl

end VerifyWorld

end VibesWaf

import Mathlib.Logic.Function.Basic
import VibesWaf.Challenge.ClientIP

/-!
# The challenge store

The store holds the challenges that were handed out and not yet solved, and counts the solves of
each address in a window of one hour. Each operation takes one of its two locks for its whole
length, so it is a function of the store and of the time it reads. A challenge type is what
`Validate` makes of an answer; `sliderChallenge` is the one that is registered.
-/

namespace VibesWaf

/-! ### Challenges -/

/-- What the store and `Validate` read of a `ChallengeData`. -/
structure ChallengeData where
  typeName : GoString
  answer : Int64
  expiresAt : ℤ
  attempts : ℤ
  deriving DecidableEq

/-- `ValidateMeta`. -/
structure ValidateMeta where
  ip : GoString
  ua : GoString
  duration : Int64

/-- `ChallengeType`, without `Generate`. -/
structure ChallengeType where
  typeName : GoString
  validate : ChallengeData → Int64 → ValidateMeta → Bool

/-- `SliderChallenge`: the answer is near enough to the target, and was not given too fast. -/
def sliderChallenge : ChallengeType where
  typeName := str "slider"
  validate data answer info :=
    if info.duration / 1000000 < 1500 then false
    else
      let diff := answer - data.answer
      let diff := if diff < 0 then -diff else diff
      diff ≤ 4

/-- `GetByType`. -/
def getByType (types : List ChallengeType) (typeName : GoString) : Option ChallengeType :=
  types.find? fun ct => ct.typeName = typeName

/-! ### The store -/

/-- `solveRecord`. -/
structure SolveRecord where
  count : ℤ
  windowStart : ℤ
  deriving DecidableEq

/-- `solveMax`. -/
def solveMax : ℤ := 5

/-- `solveWindow`, an hour. -/
def solveWindow : ℤ := 3600000000000

/-- A record, unless its window is over. -/
def SolveRecord.current (now : ℤ) (record : Option SolveRecord) : Option SolveRecord :=
  record.filter fun solves => ¬ solveWindow < now - solves.windowStart

/-- `Store`: the challenges by their ids, and the solves by address. -/
structure ChallengeStore where
  challenges : GoString → Option ChallengeData
  solveTracker : GoString → Option SolveRecord

namespace ChallengeStore

/-- `NewStore`. -/
def new : ChallengeStore :=
  ⟨fun _ => none, fun _ => none⟩

/-- The store with another entry for an id. -/
def put (s : ChallengeStore) (id : GoString) (entry : Option ChallengeData) : ChallengeStore :=
  { s with challenges := Function.update s.challenges id entry }

/-- `Create`, of a challenge that expires at a time; `evictLocked` has dropped some others to make
room for it. -/
def create (s : ChallengeStore) (id typeName : GoString) (answer : Int64) (expiresAt : ℤ)
    (evicted : GoString → Bool) : ChallengeStore :=
  let kept := { s with challenges := fun k => if evicted k then none else s.challenges k }
  kept.put id (some ⟨typeName, answer, expiresAt, 0⟩)

/-- `Get`. -/
def get (s : ChallengeStore) (now : ℤ) (id : GoString) : Option ChallengeData :=
  (s.challenges id).filter fun data => ¬ data.expiresAt < now

/-- `IncrementAttempts`. -/
def incrementAttempts (s : ChallengeStore) (id : GoString) : ChallengeStore × ℤ :=
  match s.challenges id with
  | none => (s, -1)
  | some data =>
    (s.put id (some { data with attempts := data.attempts + 1 }), data.attempts + 1)

/-- `Delete`. -/
def delete (s : ChallengeStore) (id : GoString) : ChallengeStore :=
  s.put id none

/-- The record of an address, unless its window is over. -/
def currentSolves (s : ChallengeStore) (now : ℤ) (ip : GoString) : Option SolveRecord :=
  SolveRecord.current now (s.solveTracker ip)

/-- The store with another record for an address. -/
def track (s : ChallengeStore) (ip : GoString) (solves : Option SolveRecord) : ChallengeStore :=
  { s with solveTracker := Function.update s.solveTracker ip solves }

theorem track_solveTracker (s : ChallengeStore) (ip k : GoString) (solves : Option SolveRecord) :
    (s.track ip solves).solveTracker k = if k = ip then solves else s.solveTracker k :=
  Function.update_apply ..

/-- `IsSolveRateLimited`; a record whose window is over is removed. -/
def isSolveRateLimited (s : ChallengeStore) (now : ℤ) (ip : GoString) : ChallengeStore × Bool :=
  (s.track ip (s.currentSolves now ip),
    (s.currentSolves now ip).any fun solves => solveMax ≤ solves.count)

/-- `RecordSolve`. -/
def recordSolve (s : ChallengeStore) (now : ℤ) (ip : GoString) : ChallengeStore :=
  match s.currentSolves now ip with
  | none => s.track ip (some ⟨1, now⟩)
  | some solves => s.track ip (some { solves with count := solves.count + 1 })

/-- One tick of `cleanup`. -/
def cleanup (s : ChallengeStore) (now : ℤ) : ChallengeStore :=
  ⟨s.get now, s.currentSolves now⟩

end ChallengeStore

end VibesWaf

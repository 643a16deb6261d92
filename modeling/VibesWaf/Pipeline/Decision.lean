import VibesWaf.Go.Strings

/-!
# Decisions and their ranks

A handler of the pipeline proposes a `Decision`. Actions have a rank, and `resolveDecision` keeps
the current decision unless the new one has a strictly higher rank, so among proposals of equal
rank the first one stays. `resolve_eq_iff` is when a proposal changes nothing.
-/

namespace VibesWaf

/-- The action of a decision: the empty text, the texts the source compares with, or any other. -/
inductive Action
  | none
  | allow
  | block
  | challenge
  | log
  | skip
  | other (text : GoString)
  deriving DecidableEq

/-- `GetActionRank`. -/
def getActionRank : Action → ℕ
  | .block => 4
  | .challenge => 3
  | .allow => 2
  | .log => 1
  | _ => 0

/-- `Decision`. -/
structure Decision where
  action : Action
  source : GoString
  reason : GoString
  skipPhases : List GoString
  /-- `Metadata["skip_modules"]`. -/
  skipModules : Option (List GoString)
  deriving DecidableEq

/-- The zero value of `Decision`. -/
def Decision.zero : Decision :=
  ⟨.none, [], [], [], none⟩

/-- `NewDecision`. -/
def newDecision (action : Action) (source reason : GoString) : Decision :=
  ⟨action, source, reason, [], none⟩

/-- `NewSkipDecision`. -/
def newSkipDecision (source : GoString) (skipPhases : List GoString) : Decision :=
  ⟨.skip, source, [], skipPhases, none⟩

/-- The rank of a decision's action. -/
def Decision.rank (d : Decision) : ℕ :=
  getActionRank d.action

/-- `ResolveDecision`. -/
def resolveDecision (current new : Decision) : Decision :=
  if new.action = .skip then current
  else if current.rank < new.rank then new
  else current

theorem rank_skip {d : Decision} (h : d.action = .skip) : d.rank = 0 := by
  rw [Decision.rank, h]
  rfl

/-- Resolution looks at the ranks alone: a skip has the lowest. -/
theorem resolveDecision_eq (current new : Decision) :
    resolveDecision current new = if current.rank < new.rank then new else current := by
  rw [resolveDecision]
  split
  · rename_i hskip
    rw [rank_skip hskip, if_neg (Nat.not_lt_zero _)]
  · rfl

theorem resolveDecision_of_le {current new : Decision} (h : new.rank ≤ current.rank) :
    resolveDecision current new = current := by
  rw [resolveDecision_eq, if_neg (not_lt.mpr h)]

theorem resolveDecision_of_lt {current new : Decision} (h : current.rank < new.rank) :
    resolveDecision current new = new := by
  rw [resolveDecision_eq, if_pos h]

/-- The resolved decision has the higher of the two ranks. -/
theorem rank_resolveDecision (current new : Decision) :
    (resolveDecision current new).rank = max current.rank new.rank := by
  rcases le_or_gt new.rank current.rank with hle | hlt
  · rw [resolveDecision_of_le hle, max_eq_left hle]
  · rw [resolveDecision_of_lt hlt, max_eq_right hlt.le]

theorem rank_congr {d d' : Decision} (h : d.action = d'.action) : d.rank = d'.rank := by
  rw [Decision.rank, Decision.rank, h]

/-- **A proposal changes nothing**, as far as action and reason go, exactly when it does not
outrank the current decision. -/
theorem resolve_eq_iff (current new : Decision) :
    (resolveDecision current new).action = current.action ∧
        (resolveDecision current new).reason = current.reason ↔
      new.rank ≤ current.rank := by
  constructor
  · rintro ⟨haction, -⟩
    by_contra hlt
    rw [resolveDecision_of_lt (not_le.mp hlt)] at haction
    apply hlt
    rw [Decision.rank, haction]
    rfl
  · intro h
    rw [resolveDecision_of_le h]
    exact ⟨rfl, rfl⟩

/-- A last proposal, when there is one. -/
def settle (current : Decision) : Option Decision → Decision
  | none => current
  | some last => resolveDecision current last

/-- **A proposal in between changes nothing**, as far as action and reason go, exactly when it does
not outrank the current decision, or the last proposal outranks it or says the same. -/
theorem settle_eq_iff (current d : Decision) (last : Option Decision) :
    (settle (resolveDecision current d) last).action = (settle current last).action ∧
        (settle (resolveDecision current d) last).reason = (settle current last).reason ↔
      d.rank ≤ current.rank ∨ ∃ r, last = some r ∧
        (d.rank < r.rank ∨ r.action = d.action ∧ r.reason = d.reason) := by
  rcases le_or_gt d.rank current.rank with hle | hlt
  · rw [resolveDecision_of_le hle]
    exact iff_of_true ⟨rfl, rfl⟩ (.inl hle)
  rw [resolveDecision_of_lt hlt, or_iff_right (not_le.mpr hlt)]
  cases last with
  | none =>
    refine iff_of_false (fun h => ?_) (by simp)
    exact hlt.ne (rank_congr h.1).symm
  | some r =>
    simp only [settle, Option.some.injEq, exists_eq_left']
    rcases lt_or_ge d.rank r.rank with hlast | hlast
    · rw [resolveDecision_of_lt hlast, resolveDecision_of_lt (hlt.trans hlast)]
      exact iff_of_true ⟨rfl, rfl⟩ (.inl hlast)
    rw [resolveDecision_of_le hlast, or_iff_right (not_lt.mpr hlast)]
    rcases lt_or_ge current.rank r.rank with hr | hr
    · rw [resolveDecision_of_lt hr]
      exact and_congr eq_comm eq_comm
    · -- the rule does not outrank the current decision, so it cannot say what `d` says
      rw [resolveDecision_of_le hr]
      refine iff_of_false (fun h => hlt.ne (rank_congr h.1).symm) fun h => ?_
      exact absurd (rank_congr h.1) (hr.trans_lt hlt).ne

end VibesWaf

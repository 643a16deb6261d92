import VibesWaf.Challenge.Verify
import Mathlib.Analysis.Real.Sqrt
import Mathlib.Data.List.TakeWhile

/-!
# The trust level of a solver

With its answer a client sends the trajectory of its pointer and a few counters. `AnalyzeTrajectory`
starts at one and takes something off for each feature of the trajectory that looks like a bot's,
`AnalyzeSignals` does the same for the counters, and `ComputeTrustLevel` compares a weighted sum of
the two with three limits. Coordinates and times are integers of 64 bits with a sign; the scores are
elements of an ordered field with a square root.

The features are looked at only when there are two points. A trajectory of fewer points pays for
being short and for nothing else: `omission_harmless_iff` says when a client that sends its
trajectory is not worse off than one that does not.
-/

namespace VibesWaf

/-! ### What the client sends -/

/-- `TrajectoryPoint`. -/
structure TrajectoryPoint where
  x : Int64
  y : Int64
  /-- In milliseconds. -/
  t : Int64
  deriving DecidableEq

/-- `ChallengeSignals`. -/
structure ChallengeSignals where
  focusCount : Int64
  blurCount : Int64
  scrollCount : Int64
  mouseBeforeDrag : Int64
  /-- In milliseconds. -/
  firstInteraction : Int64
  deriving DecidableEq

/-- The limits of the levels in the settings. -/
structure ChallengeTrustLevel (K : Type*) where
  level0Max : K
  level1Max : K
  level2Max : K

/-- `TrustLevelConfig`. -/
structure TrustLevelConfig (K : Type*) extends ChallengeTrustLevel K where
  minPoints : ℕ
  speedVarianceMin : K
  straightnessMax : K
  jitterMin : K
  timingVarianceMin : K
  firstInteractMin : Int64
  accelVarianceMin : K
  pauseRequired : Bool
  pauseMinMs : Int64

section Features

variable {K : Type*} [Field K] [LinearOrder K] (sqrt : K → K)

/-- `float64` of an integer. -/
def float (n : Int64) : K :=
  n.toInt

/-- The mean of the squared distances from the mean. -/
def variance (values : List K) : K :=
  let mean := values.sum / values.length
  (values.map fun v => (v - mean) * (v - mean)).sum / values.length

/-- Each point with the one before it. -/
def consecutive {α : Type*} (points : List α) : List (α × α) :=
  points.zip points.tail

/-- The length of a movement. -/
def distance (p q : TrajectoryPoint) : K :=
  sqrt (float (q.x - p.x) * float (q.x - p.x) + float (q.y - p.y) * float (q.y - p.y))

/-- The speeds of the movements that take time. -/
def speeds (points : List TrajectoryPoint) : List K :=
  (consecutive points).filterMap fun (p, q) =>
    let dt : K := float (q.t - p.t)
    if dt ≤ 0 then none else some (distance sqrt p q / dt)

/-- `calcSpeedVariance`. -/
def calcSpeedVariance (points : List TrajectoryPoint) : K :=
  if points.length < 3 then 0
  else if (speeds sqrt points).length < 2 then 0
  else variance (speeds sqrt points)

/-- `calcStraightness`. -/
def calcStraightness (points : List TrajectoryPoint) : K :=
  match points.head?, points.getLast? with
  | some first, some last =>
    if points.length < 2 then 1
    else
      let directDist := distance sqrt first last
      if directDist = 0 then 1
      else
        let totalDist := ((consecutive points).map fun (p, q) => distance sqrt p q).sum
        if totalDist = 0 then 1 else directDist / totalDist
  | _, _ => 1

/-- `calcYJitter`. -/
def calcYJitter (points : List TrajectoryPoint) : K :=
  if points.length < 2 then 0
  else
    ((consecutive points).map fun (p, q) => |(float (q.y - p.y) : K)|).sum /
      ((points.length - 1 : ℕ) : K)

/-- `calcDirectionChanges`. -/
def calcDirectionChanges (points : List TrajectoryPoint) : ℕ :=
  if points.length < 3 then 0
  else
    let moves : List Int64 := (consecutive points).map fun (p, q) => q.x - p.x
    (consecutive moves).countP fun (prevDx, currDx) =>
      (0 < prevDx ∧ currDx < 0) ∨ (prevDx < 0 ∧ 0 < currDx)

/-- `calcTimingVariance`. -/
def calcTimingVariance (points : List TrajectoryPoint) : K :=
  if points.length < 3 then 0
  else
    let intervals : List K := (consecutive points).filterMap fun (p, q) =>
      let dt : K := float (q.t - p.t)
      if 0 ≤ dt then some dt else none
    if intervals.length < 2 then 0
    else if intervals.sum / intervals.length = 0 then 0
    else variance intervals

/-- `calcAccelVariance`. -/
def calcAccelVariance (points : List TrajectoryPoint) : K :=
  if points.length < 4 then 0
  else if (speeds sqrt points).length < 3 then 0
  else
    let accels := (consecutive (speeds sqrt points)).map fun (s, s') => s' - s
    if accels.length < 2 then 0 else variance accels

/-- A pause is a gap of `pauseMinMs` or more between two points less than three pixels apart. -/
def detectPause (points : List TrajectoryPoint) (pauseMinMs : Int64) : Bool :=
  (consecutive points).any fun (p, q) =>
    pauseMinMs ≤ q.t - p.t ∧ |(q.x - p.x).toInt| < 3 ∧ |(q.y - p.y).toInt| < 3

/-! ### Scores and levels -/

/-- A deduction for what looks suspicious. -/
def penalty (suspicious : Bool) (amount : K) : K :=
  if suspicious then amount else 0

/-- `AnalyzeTrajectory`. -/
def analyzeTrajectory (points : List TrajectoryPoint) (cfg : TrustLevelConfig K) : K :=
  let score := 1 - penalty (points.length < cfg.minPoints) 0.4
  let score :=
    if 2 ≤ points.length then
      let score := score - penalty (calcSpeedVariance sqrt points < cfg.speedVarianceMin) 0.3
      let score := score - penalty (cfg.straightnessMax < calcStraightness sqrt points) 0.2
      let score := score - penalty (calcYJitter points < cfg.jitterMin) 0.2
      let score := score - penalty (calcDirectionChanges points = 0) 0.15
      let score := score - penalty (calcTimingVariance points < cfg.timingVarianceMin) 0.2
      let score := score - penalty (calcAccelVariance sqrt points < cfg.accelVarianceMin) 0.2
      if cfg.pauseRequired then score - penalty (!detectPause points cfg.pauseMinMs) 0.15
      else score
    else score
  if score < 0 then 0 else score

/-- `AnalyzeSignals`. -/
def analyzeSignals (s : ChallengeSignals) (cfg : TrustLevelConfig K) : K :=
  let score := 1 - penalty (s.mouseBeforeDrag = 0) 0.2
  let score := score - penalty (s.firstInteraction < cfg.firstInteractMin) 0.3
  let score := score - penalty (s.focusCount = 0 ∧ s.blurCount = 0 ∧ s.scrollCount = 0 ∧
    s.mouseBeforeDrag = 0) 0.1
  if score < 0 then 0 else score

/-- `ComputeTrustLevel`. -/
def computeTrustLevel (trajectoryScore signalsScore : K) (cfg : TrustLevelConfig K) : ℕ :=
  let confidence := trajectoryScore * 0.7 + signalsScore * 0.3
  if confidence < cfg.level0Max then 0
  else if confidence < cfg.level1Max then 1
  else if confidence < cfg.level2Max then 2
  else 3

/-- The configuration of `handleWAFVerify`. -/
def verifyTrustLevelConfig (levels : ChallengeTrustLevel K) : TrustLevelConfig K where
  level0Max := levels.level0Max
  level1Max := levels.level1Max
  level2Max := levels.level2Max
  minPoints := 10
  speedVarianceMin := 0.5
  straightnessMax := 0.99
  jitterMin := 0.5
  timingVarianceMin := 2
  firstInteractMin := 200
  accelVarianceMin := 0.3
  pauseRequired := true
  pauseMinMs := 40

/-- The trust level `handleWAFVerify` puts into the token. -/
def verifyTrustLevel (levels : ChallengeTrustLevel K) (trajectory : List TrajectoryPoint)
    (signals : ChallengeSignals) : ℕ :=
  let tlCfg := verifyTrustLevelConfig levels
  computeTrustLevel (analyzeTrajectory sqrt trajectory tlCfg) (analyzeSignals signals tlCfg) tlCfg

/-! ### What is taken off -/

/-- The deductions for the features of a trajectory. -/
def featurePenalty (points : List TrajectoryPoint) (cfg : TrustLevelConfig K) : K :=
  penalty (calcSpeedVariance sqrt points < cfg.speedVarianceMin) 0.3 +
    penalty (cfg.straightnessMax < calcStraightness sqrt points) 0.2 +
    penalty (calcYJitter points < cfg.jitterMin) 0.2 +
    penalty (calcDirectionChanges points = 0) 0.15 +
    penalty (calcTimingVariance points < cfg.timingVarianceMin) 0.2 +
    penalty (calcAccelVariance sqrt points < cfg.accelVarianceMin) 0.2 +
    penalty (cfg.pauseRequired && !detectPause points cfg.pauseMinMs) 0.15

/-- All deductions for a trajectory. Those for the features need two points. -/
def trajectoryPenalty (points : List TrajectoryPoint) (cfg : TrustLevelConfig K) : K :=
  penalty (points.length < cfg.minPoints) 0.4 +
    if 2 ≤ points.length then featurePenalty sqrt points cfg else 0

/-- All deductions for the signals. -/
def signalsPenalty (s : ChallengeSignals) (cfg : TrustLevelConfig K) : K :=
  penalty (s.mouseBeforeDrag = 0) 0.2 + penalty (s.firstInteraction < cfg.firstInteractMin) 0.3 +
    penalty (s.focusCount = 0 ∧ s.blurCount = 0 ∧ s.scrollCount = 0 ∧ s.mouseBeforeDrag = 0) 0.1

/-- The limits in the order of the comparisons. -/
def ChallengeTrustLevel.limits (levels : ChallengeTrustLevel K) : List K :=
  [levels.level0Max, levels.level1Max, levels.level2Max]

/-- Without a trajectory the confidence is 0.72 less three tenths of the signals' deductions. With
one it is lower by seven tenths of what its deductions, up to one, exceed 0.4. None of the limits
reached without it is above that. -/
def OmissionHarmless (levels : ChallengeTrustLevel K) (trajectoryLoss signalsLoss : K) : Prop :=
  ∀ limit ∈ levels.limits.takeWhile (· ≤ 0.72 - signalsLoss * 0.3),
    limit ≤ 0.72 - signalsLoss * 0.3 - (min trajectoryLoss 1 - 0.4) * 0.7

instance (levels : ChallengeTrustLevel K) (trajectoryLoss signalsLoss : K) :
    Decidable (OmissionHarmless levels trajectoryLoss signalsLoss) :=
  inferInstanceAs (Decidable (∀ limit ∈ _, _))

omit [LinearOrder K] in
theorem penalty_of {P : Prop} [Decidable P] (h : P) (amount : K) :
    penalty (decide P) amount = amount :=
  if_pos (decide_eq_true h)

theorem penalty_nonneg (suspicious : Bool) {amount : K} (h : 0 ≤ amount) :
    0 ≤ penalty suspicious amount := by
  rw [penalty]
  split_ifs
  · exact h
  · exact le_rfl

theorem penalty_le (suspicious : Bool) {amount : K} (h : 0 ≤ amount) :
    penalty suspicious amount ≤ amount := by
  rw [penalty]
  split_ifs
  · exact le_rfl
  · exact h

/-- What is before the first element without `p` is no longer than what is before the first without
`q` exactly if all of it has `q`. -/
theorem length_takeWhile_le_iff {α : Type*} (p q : α → Bool) (l : List α) :
    (l.takeWhile p).length ≤ (l.takeWhile q).length ↔ ∀ x ∈ l.takeWhile p, q x = true := by
  induction l with
  | nil => simp
  | cons x l ih =>
    by_cases hp : p x = true
    · by_cases hq : q x = true
      · simp [hp, hq, ih]
      · simp [hp, hq]
    · simp [hp]

/-- **The level** is the number of limits before the first that the confidence does not reach. -/
theorem computeTrustLevel_eq (trajectoryScore signalsScore : K) (cfg : TrustLevelConfig K) :
    computeTrustLevel trajectoryScore signalsScore cfg =
      (cfg.limits.takeWhile (· ≤ trajectoryScore * 0.7 + signalsScore * 0.3)).length := by
  rw [computeTrustLevel, ChallengeTrustLevel.limits]
  split_ifs with h0 h1 h2
  · simp [h0]
  · simp [not_lt.mp h0, h1]
  · simp [not_lt.mp h0, not_lt.mp h1, h2]
  · simp [not_lt.mp h0, not_lt.mp h1, not_lt.mp h2]

/-- A trajectory of one point, or of none, pays for being short only. -/
theorem trajectoryPenalty_short {points : List TrajectoryPoint} (h : points.length ≤ 1)
    (levels : ChallengeTrustLevel K) :
    trajectoryPenalty sqrt points (verifyTrustLevelConfig levels) = 0.4 := by
  have hfew : points.length < (verifyTrustLevelConfig levels).minPoints :=
    Nat.lt_of_le_of_lt h (show 1 < 10 by decide)
  rw [trajectoryPenalty, penalty_of hfew, if_neg (by omega), add_zero]

variable [IsStrictOrderedRing K]

theorem featurePenalty_nonneg (points : List TrajectoryPoint) (cfg : TrustLevelConfig K) :
    0 ≤ featurePenalty sqrt points cfg := by
  rw [featurePenalty]
  have hamounts : (0 : K) ≤ 0.3 ∧ (0 : K) ≤ 0.2 ∧ (0 : K) ≤ 0.15 := by norm_num
  obtain ⟨h3, h2, h1⟩ := hamounts
  refine add_nonneg (add_nonneg (add_nonneg (add_nonneg (add_nonneg (add_nonneg ?_ ?_) ?_) ?_) ?_)
    ?_) ?_
  · exact penalty_nonneg _ h3
  · exact penalty_nonneg _ h2
  · exact penalty_nonneg _ h2
  · exact penalty_nonneg _ h1
  · exact penalty_nonneg _ h2
  · exact penalty_nonneg _ h2
  · exact penalty_nonneg _ h1

/-- **The score of a trajectory** is what the deductions leave of one. -/
theorem analyzeTrajectory_eq (points : List TrajectoryPoint) (cfg : TrustLevelConfig K) :
    analyzeTrajectory sqrt points cfg = 1 - min (trajectoryPenalty sqrt points cfg) 1 := by
  have hclamp : ∀ score : K, (if score < 0 then 0 else score) = 1 - min (1 - score) 1 := by
    intro score
    split_ifs with hneg
    · rw [min_eq_right (by linarith), sub_self]
    · rw [min_eq_left (by linarith [not_lt.mp hneg])]
      ring
  have hpause : ∀ score : K,
      (if cfg.pauseRequired = true then score - penalty (!detectPause points cfg.pauseMinMs) 0.15
        else score) =
        score - penalty (cfg.pauseRequired && !detectPause points cfg.pauseMinMs) 0.15 := by
    intro score
    cases cfg.pauseRequired with
    | true => rfl
    | false => exact (sub_zero score).symm
  rw [analyzeTrajectory]
  simp only [hpause, hclamp]
  rw [trajectoryPenalty]
  by_cases htwo : 2 ≤ points.length
  · rw [if_pos htwo, if_pos htwo, featurePenalty]
    congr 2
    ring
  · rw [if_neg htwo, if_neg htwo]
    congr 2
    ring

/-- The score of the signals is never cut off at zero. -/
theorem analyzeSignals_eq (s : ChallengeSignals) (cfg : TrustLevelConfig K) :
    analyzeSignals s cfg = 1 - signalsPenalty s cfg := by
  have hsum : 1 - signalsPenalty s cfg = 1 - penalty (s.mouseBeforeDrag = 0) 0.2 -
      penalty (s.firstInteraction < cfg.firstInteractMin) 0.3 -
      penalty (s.focusCount = 0 ∧ s.blurCount = 0 ∧ s.scrollCount = 0 ∧ s.mouseBeforeDrag = 0)
        0.1 := by
    rw [signalsPenalty]
    ring
  have hleft : (0 : K) ≤ 1 - signalsPenalty s cfg := by
    have hmouse : penalty (s.mouseBeforeDrag = 0) (0.2 : K) ≤ 0.2 := penalty_le _ (by norm_num)
    have hfirst : penalty (s.firstInteraction < cfg.firstInteractMin) (0.3 : K) ≤ 0.3 :=
      penalty_le _ (by norm_num)
    have hnone : penalty (s.focusCount = 0 ∧ s.blurCount = 0 ∧ s.scrollCount = 0 ∧
        s.mouseBeforeDrag = 0) (0.1 : K) ≤ 0.1 := penalty_le _ (by norm_num)
    rw [hsum]
    linarith
  rw [analyzeSignals, ← hsum, if_neg (not_lt.mpr hleft)]

/-- **Leaving the trajectory out** does not help exactly if no limit is lost with it. -/
theorem verifyTrustLevel_le_iff {short : List TrajectoryPoint} (hshort : short.length ≤ 1)
    (levels : ChallengeTrustLevel K) (points : List TrajectoryPoint) (signals : ChallengeSignals) :
    verifyTrustLevel sqrt levels short signals ≤ verifyTrustLevel sqrt levels points signals ↔
      OmissionHarmless levels (trajectoryPenalty sqrt points (verifyTrustLevelConfig levels))
        (signalsPenalty signals (verifyTrustLevelConfig levels)) := by
  have hwithout : ∀ loss : K,
      (1 - min (0.4 : K) 1) * 0.7 + (1 - loss) * 0.3 = 0.72 - loss * 0.3 := by
    intro loss
    rw [min_eq_left (by norm_num)]
    ring
  have hwith : ∀ loss loss' : K,
      (1 - min loss 1) * 0.7 + (1 - loss') * 0.3 =
        0.72 - loss' * 0.3 - (min loss 1 - 0.4) * 0.7 := by
    intro loss loss'
    ring
  rw [verifyTrustLevel, verifyTrustLevel, computeTrustLevel_eq, computeTrustLevel_eq,
    analyzeTrajectory_eq, analyzeTrajectory_eq, analyzeSignals_eq,
    trajectoryPenalty_short sqrt hshort, hwithout, hwith, length_takeWhile_le_iff, OmissionHarmless]
  simp only [decide_eq_true_eq]
  rfl

/-- A limit that is reached without the trajectory is reached with it if the deductions are within
0.4. -/
theorem omissionHarmless_of_le {loss : K} (h : loss ≤ 0.4) (levels : ChallengeTrustLevel K)
    (signalsLoss : K) : OmissionHarmless levels loss signalsLoss := by
  intro limit hlimit
  have hreached := List.mem_takeWhile_imp hlimit
  rw [decide_eq_true_eq] at hreached
  have hmin : min loss 1 ≤ 0.4 := (min_le_left _ _).trans h
  linarith

/-- **Ten points or more** whose features take off at most 0.4 are worth no less than none. -/
theorem verifyTrustLevel_le_of_many {points short : List TrajectoryPoint}
    (hpoints : 10 ≤ points.length) (hshort : short.length ≤ 1) {levels : ChallengeTrustLevel K}
    (hfeatures : featurePenalty sqrt points (verifyTrustLevelConfig levels) ≤ 0.4)
    (signals : ChallengeSignals) :
    verifyTrustLevel sqrt levels short signals ≤ verifyTrustLevel sqrt levels points signals := by
  have hmany : ¬ points.length < (verifyTrustLevelConfig levels).minPoints := not_lt.mpr hpoints
  have hloss : trajectoryPenalty sqrt points (verifyTrustLevelConfig levels) =
      featurePenalty sqrt points (verifyTrustLevelConfig levels) := by
    rw [trajectoryPenalty, if_pos (by omega), penalty, decide_eq_false hmany,
      if_neg Bool.false_ne_true, zero_add]
  rw [verifyTrustLevel_le_iff sqrt hshort, hloss]
  exact omissionHarmless_of_le hfeatures levels _

/-- A trajectory of two to nine points is never worth more than none at all. -/
theorem verifyTrustLevel_le_of_few {points short : List TrajectoryPoint}
    (hpoints : points.length < 10) (hshort : short.length ≤ 1)
    (levels : ChallengeTrustLevel K) (signals : ChallengeSignals) :
    verifyTrustLevel sqrt levels points signals ≤ verifyTrustLevel sqrt levels short signals := by
  have hfew : points.length < (verifyTrustLevelConfig levels).minPoints := hpoints
  have hloss : (0.4 : K) ≤ trajectoryPenalty sqrt points (verifyTrustLevelConfig levels) := by
    rw [trajectoryPenalty, penalty_of hfew]
    refine le_add_of_nonneg_right ?_
    split_ifs
    · exact featurePenalty_nonneg sqrt points _
    · exact le_rfl
  have hmin : (0.4 : K) ≤
      min (trajectoryPenalty sqrt points (verifyTrustLevelConfig levels)) 1 :=
    le_min hloss (by norm_num)
  rw [verifyTrustLevel, verifyTrustLevel, computeTrustLevel_eq, computeTrustLevel_eq,
    analyzeTrajectory_eq, analyzeTrajectory_eq, trajectoryPenalty_short sqrt hshort,
    length_takeWhile_le_iff]
  intro limit hlimit
  have hreached := List.mem_takeWhile_imp hlimit
  rw [decide_eq_true_eq] at hreached ⊢
  rw [min_eq_left (by norm_num)]
  linarith

/-- Two points look like a bot's in every way that is measured, whatever they are. -/
theorem analyzeTrajectory_pair (p q : TrajectoryPoint) (levels : ChallengeTrustLevel K) :
    analyzeTrajectory sqrt [p, q] (verifyTrustLevelConfig levels) = 0 := by
  have hstraight : calcStraightness sqrt [p, q] = 1 := by
    simp only [calcStraightness, List.head?_cons, List.getLast?_cons_cons, List.getLast?_singleton,
      List.length_cons, List.length_nil, consecutive, List.tail_cons, List.zip_cons_cons,
      List.zip_nil_right, List.map_cons, List.map_nil, List.sum_cons, List.sum_nil, add_zero]
    split_ifs with hfew hzero
    · rfl
    · rfl
    · exact div_self hzero
  have hjitter : 0 ≤ penalty (calcYJitter [p, q] <
      (verifyTrustLevelConfig levels).jitterMin) (0.2 : K) := penalty_nonneg _ (by norm_num)
  have hpause : 0 ≤ penalty ((verifyTrustLevelConfig levels).pauseRequired &&
      !detectPause [p, q] (verifyTrustLevelConfig levels).pauseMinMs) (0.15 : K) :=
    penalty_nonneg _ (by norm_num)
  have hfew : [p, q].length < (verifyTrustLevelConfig levels).minPoints := show 2 < 10 by decide
  have hspeed : calcSpeedVariance sqrt [p, q] < (verifyTrustLevelConfig levels).speedVarianceMin :=
    show (0 : K) < 0.5 by norm_num
  have hline : (verifyTrustLevelConfig levels).straightnessMax < calcStraightness sqrt [p, q] := by
    rw [hstraight]
    exact show (0.99 : K) < 1 by norm_num
  have hturns : calcDirectionChanges [p, q] = 0 := rfl
  have htiming : calcTimingVariance [p, q] < (verifyTrustLevelConfig levels).timingVarianceMin :=
    show (0 : K) < 2 by norm_num
  have haccel : calcAccelVariance sqrt [p, q] < (verifyTrustLevelConfig levels).accelVarianceMin :=
    show (0 : K) < 0.3 by norm_num
  have hloss : 1 ≤ trajectoryPenalty sqrt [p, q] (verifyTrustLevelConfig levels) := by
    rw [trajectoryPenalty, if_pos (by simp), featurePenalty, penalty_of hfew, penalty_of hspeed,
      penalty_of hline, penalty_of hturns, penalty_of htiming, penalty_of haccel]
    linarith
  rw [analyzeTrajectory_eq, min_eq_right hloss, sub_self]

end Features

/-! ### Trust levels over the reals -/

/-- **Leaving the trajectory out** does not help exactly if none of the limits reached without it
is lost to the deductions. -/
theorem omission_harmless_iff (levels : ChallengeTrustLevel ℝ)
    (points : List TrajectoryPoint) (signals : ChallengeSignals) (short : List TrajectoryPoint)
    (hshort : short.length ≤ 1) :
    verifyTrustLevel Real.sqrt levels short signals ≤
        verifyTrustLevel Real.sqrt levels points signals ↔
      OmissionHarmless levels
        (trajectoryPenalty Real.sqrt points (verifyTrustLevelConfig levels))
        (signalsPenalty signals (verifyTrustLevelConfig levels)) :=
  verifyTrustLevel_le_iff Real.sqrt hshort levels points signals

/-- With limits that signals alone do not reach, two points are worth what none are. -/
theorem omission_harmless_pair :
    let levels : ChallengeTrustLevel ℝ := ⟨0.8, 0.9, 0.95⟩
    verifyTrustLevel Real.sqrt levels [] ⟨1, 0, 0, 5, 500⟩ ≤
      verifyTrustLevel Real.sqrt levels [⟨0, 0, 0⟩, ⟨90, 0, 400⟩] ⟨1, 0, 0, 5, 500⟩ := by
  intro levels
  refine (omission_harmless_iff levels _ _ [] (by decide)).mpr ?_
  have hnone : levels.limits.takeWhile
      (· ≤ 0.72 - signalsPenalty ⟨1, 0, 0, 5, 500⟩ (verifyTrustLevelConfig levels) * 0.3) = [] := by
    have hsignals : 0 ≤ signalsPenalty ⟨1, 0, 0, 5, 500⟩ (verifyTrustLevelConfig levels) :=
      add_nonneg (add_nonneg (penalty_nonneg _ (by norm_num)) (penalty_nonneg _ (by norm_num)))
        (penalty_nonneg _ (by norm_num))
    rw [ChallengeTrustLevel.limits, List.takeWhile_cons_of_neg]
    rw [decide_eq_true_eq, not_le]
    have hfirst : levels.level0Max = 0.8 := rfl
    linarith
  rw [OmissionHarmless, hnone]
  exact List.forall_mem_nil _

/-- Under the default limits, with good signals, a client that sends two points gets level 0, and
one that sends none gets level 2. -/
theorem omission_helps :
    let levels : ChallengeTrustLevel ℝ := ⟨0.4, 0.6, 0.8⟩
    verifyTrustLevel Real.sqrt levels [] ⟨1, 0, 0, 5, 500⟩ = 2 ∧
      verifyTrustLevel Real.sqrt levels [⟨0, 0, 0⟩, ⟨90, 0, 400⟩] ⟨1, 0, 0, 5, 500⟩ = 0 := by
  intro levels
  have hsignals : analyzeSignals ⟨1, 0, 0, 5, 500⟩ (verifyTrustLevelConfig levels) = 1 := by
    rw [analyzeSignals_eq]
    simp [signalsPenalty, penalty, verifyTrustLevelConfig]
  constructor
  · rw [verifyTrustLevel, hsignals, analyzeTrajectory_eq, trajectoryPenalty_short _ (by simp)]
    norm_num [computeTrustLevel, verifyTrustLevelConfig, levels]
  · rw [verifyTrustLevel, hsignals, analyzeTrajectory_pair]
    norm_num [computeTrustLevel, verifyTrustLevelConfig, levels]

end VibesWaf

import VibesWaf.Challenge.Verify

/-!
# The slider's answers

An answer to the slider is two integers of 64 bits, the position and the duration in milliseconds,
and the client can send any. The handler multiplies the duration by a million, and `Validate`
divides it again; the position is compared with the target by a subtraction and a change of sign.
All of them wrap around.

`slider_exact_iff` says for which integers that makes no difference.
-/

namespace VibesWaf

/-! ### What the machine integers make of an answer -/

/-- The duration in nanoseconds, reduced to 64 bits with a sign, is that of 1500 milliseconds or
more. -/
def InTime (duration : ℤ) : Prop :=
  1500000000 ≤ duration * 1000000 % 2 ^ 64 ∧ duration * 1000000 % 2 ^ 64 < 2 ^ 63

instance (duration : ℤ) : Decidable (InTime duration) :=
  inferInstanceAs (Decidable (_ ∧ _))

/-- A distance beyond the tolerance that is taken for one within it: the one whose sign cannot be
changed, and those that wrap around to a small one. -/
def FoldsBack (distance : ℤ) : Prop :=
  |distance| = 2 ^ 63 ∨ 2 ^ 64 - 4 ≤ |distance|

instance (distance : ℤ) : Decidable (FoldsBack distance) :=
  inferInstanceAs (Decidable (_ ∨ _))

/-- The two integers are judged as the integers they are. -/
def SliderExact (duration distance : ℤ) : Prop :=
  if |distance| ≤ 4 then InTime duration ↔ 1500 ≤ duration
  else ¬ (InTime duration ∧ FoldsBack distance)

instance (duration distance : ℤ) : Decidable (SliderExact duration distance) := by
  unfold SliderExact
  infer_instance

private theorem bmod_64 (x : ℤ) :
    x.bmod (2 ^ 64) = if x % 2 ^ 64 < 2 ^ 63 then x % 2 ^ 64 else x % 2 ^ 64 - 2 ^ 64 := by
  rw [Int.bmod_def]
  norm_num

/-- **The duration**, there and back. -/
theorem tooFast_iff (duration : Int64) :
    duration * 1000000 / 1000000 < 1500 ↔ ¬ InTime duration.toInt := by
  have hmillion : (1000000 : Int64).toInt = 1000000 := by decide
  have hleast : (1500 : Int64).toInt = 1500 := by decide
  have hsize := duration.le_toInt
  have hsize' := duration.toInt_lt
  rw [Int64.lt_iff_toInt_lt, Int64.toInt_div_of_ne_right _ _ (by decide), Int64.toInt_mul, hmillion,
    hleast, bmod_64, InTime]
  have hdiv : ∀ x : ℤ, x.tdiv 1000000 < 1500 ↔ x < 1500000000 := by
    intro x
    rcases Int.le_total 0 x with hx | hx
    · rw [Int.tdiv_eq_ediv_of_nonneg hx]
      omega
    · rw [← Int.neg_neg x, Int.neg_tdiv, Int.tdiv_eq_ediv_of_nonneg (by omega)]
      omega
  rw [hdiv]
  have hpos : 0 ≤ duration.toInt * 1000000 % 2 ^ 64 := Int.emod_nonneg _ (by decide)
  have hlt : duration.toInt * 1000000 % 2 ^ 64 < 2 ^ 64 := Int.emod_lt_of_pos _ (by decide)
  split <;> omega

/-- The distance as `Validate` computes it. -/
def machineDistance (answer target : Int64) : Int64 :=
  let diff := answer - target
  if diff < 0 then -diff else diff

/-- **The distance**, with its sign taken off. -/
theorem machineDistance_le_iff (answer target : Int64) :
    machineDistance answer target ≤ 4 ↔
      |answer.toInt - target.toInt| ≤ 4 ∨ FoldsBack (answer.toInt - target.toInt) := by
  have hzero : (0 : Int64).toInt = 0 := by decide
  have hfour : (4 : Int64).toInt = 4 := by decide
  have hanswer := answer.le_toInt
  have hanswer' := answer.toInt_lt
  have htarget := target.le_toInt
  have htarget' := target.toInt_lt
  have hdiff : (answer - target).toInt = (answer.toInt - target.toInt).bmod (2 ^ 64) :=
    Int64.toInt_sub answer target
  rw [bmod_64] at hdiff
  rw [machineDistance, FoldsBack]
  by_cases hneg : answer - target < 0
  · rw [if_pos hneg, Int64.le_iff_toInt_le, Int64.toInt_neg, bmod_64, hfour]
    rw [Int64.lt_iff_toInt_lt, hzero] at hneg
    rcases abs_cases (answer.toInt - target.toInt) with ⟨habs, hsign⟩ | ⟨habs, hsign⟩ <;>
      rw [habs] <;>
      split at hdiff <;> split <;> omega
  · rw [if_neg hneg, Int64.le_iff_toInt_le, hfour]
    rw [Int64.lt_iff_toInt_lt, hzero] at hneg
    rcases abs_cases (answer.toInt - target.toInt) with ⟨habs, hsign⟩ | ⟨habs, hsign⟩ <;>
      rw [habs] <;>
      split at hdiff <;> omega

/-! ### The validation step -/

/-- The validation step of `handleWAFVerify`. -/
theorem accepted_iff (r : VerifyRequest) (body : VerifyBody) (data : ChallengeData)
    (types : List ChallengeType) (maxRetries : ℕ) (now : ℤ) (s : ChallengeStore) :
    (r.advance types maxRetries now s (.admitted body sliderChallenge data)).2 =
        .accepted body.challengeID ↔
      InTime body.duration.toInt ∧ (|body.answer.toInt - data.answer.toInt| ≤ 4 ∨
        FoldsBack (body.answer.toInt - data.answer.toInt)) := by
  have hvalidate : sliderChallenge.validate data body.answer (r.info body) = true ↔
      InTime body.duration.toInt ∧ (|body.answer.toInt - data.answer.toInt| ≤ 4 ∨
        FoldsBack (body.answer.toInt - data.answer.toInt)) := by
    have hbody : sliderChallenge.validate data body.answer (r.info body) =
        if body.duration * 1000000 / 1000000 < 1500 then false
        else decide (machineDistance body.answer data.answer ≤ 4) :=
      rfl
    rw [hbody, ← machineDistance_le_iff]
    by_cases htime : InTime body.duration.toInt
    · rw [if_neg fun hfast => (tooFast_iff _).mp hfast htime, decide_eq_true_eq]
      exact (and_iff_right htime).symm
    · rw [if_pos ((tooFast_iff _).mpr htime)]
      exact iff_of_false Bool.false_ne_true fun h => htime h.1
  rw [← hvalidate, VerifyRequest.advance]
  cases sliderChallenge.validate data body.answer (r.info body) with
  | true => simp
  | false => simp

/-- **Slider answers** are judged as integers exactly where nothing wraps around to the other
side. -/
theorem slider_exact_iff (r : VerifyRequest) (body : VerifyBody) (data : ChallengeData)
    (types : List ChallengeType) (maxRetries : ℕ) (now : ℤ) (s : ChallengeStore) :
    ((r.advance types maxRetries now s (.admitted body sliderChallenge data)).2 =
        .accepted body.challengeID ↔
      1500 ≤ body.duration.toInt ∧ |body.answer.toInt - data.answer.toInt| ≤ 4) ↔
      SliderExact body.duration.toInt (body.answer.toInt - data.answer.toInt) := by
  rw [accepted_iff, SliderExact]
  split
  · rename_i hclose
    simp only [hclose, true_or, and_true]
  · rename_i hfar
    simp only [hfar, false_or, and_false, iff_false]

/-- Durations of less than 292 years and distances of less than half the range are judged
exactly. -/
theorem sliderExact_of_small {duration distance : ℤ} (hduration : |duration| ≤ 9223372036854)
    (hdistance : |distance| < 2 ^ 63) : SliderExact duration distance := by
  obtain ⟨hlow, hhigh⟩ := abs_le.mp hduration
  rw [SliderExact]
  split
  · rw [InTime]
    rcases lt_or_ge duration 0 with hneg | hpos
    · have hwrapped : duration * 1000000 % 2 ^ 64 = duration * 1000000 + 2 ^ 64 := by
        rw [← Int.add_emod_right, Int.emod_eq_of_lt] <;> omega
      omega
    · have hplain : duration * 1000000 % 2 ^ 64 = duration * 1000000 :=
        Int.emod_eq_of_lt (by omega) (by omega)
      omega
  · rintro ⟨-, hfold⟩
    rw [FoldsBack] at hfold
    omega

/-- A solver's request. -/
def sliderRequest : VerifyRequest where
  http :=
    { method := str "POST"
      path := str "/__waf_verify"
      rawPath := []
      rawQuery := []
      requestURI := str "/__waf_verify"
      host := str "shop.test"
      proto := str "HTTP/1.1"
      header := fun key =>
        if key = str "X-Requested-With" then [str "XMLHttpRequest"] else []
      cookies := []
      remoteAddr := str "203.0.113.7:40000"
      tls := true }
  body := none

/-- The target is 50. An answer at the other end of the integers is accepted, and the right answer
after 9223372036855 milliseconds is refused. -/
theorem slider_wraps :
    let data : ChallengeData := ⟨str "slider", 50, 0, 0⟩
    let far : VerifyBody := ⟨str "c1", -9223372036854775758, 1500⟩
    let late : VerifyBody := ⟨str "c1", 50, 9223372036855⟩
    let passes (body : VerifyBody) : Prop :=
      (sliderRequest.advance [sliderChallenge] 3 0 .new (.admitted body sliderChallenge data)).2 =
        .accepted body.challengeID
    (passes far ∧ ¬ |far.answer.toInt - data.answer.toInt| ≤ 4) ∧
      ¬ passes late ∧ 1500 ≤ late.duration.toInt ∧ |late.answer.toInt - data.answer.toInt| ≤ 4 := by
  intro data far late passes
  refine ⟨⟨(accepted_iff ..).mpr (by decide), by decide⟩, fun hpass => ?_, by decide, by decide⟩
  exact absurd ((accepted_iff ..).mp hpass) (by decide)

end VibesWaf

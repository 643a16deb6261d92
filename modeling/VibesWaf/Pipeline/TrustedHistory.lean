import VibesWaf.Lib.Run
import VibesWaf.Lib.Spacing

/-!
# The history of clean requests

For each address Redis holds a counter of clean requests and a cooldown. `RecordCleanRequest` is one
script: it counts when there is no cooldown, and starts one. `ResetHistory` deletes the counter and
then, in a second command, the cooldown. The calls of many workers send these commands in any order;
each command is atomic, and the server's clock, in milliseconds, does not go back.

The credit is meant to grow by one a second at most. `increments_spaced` is that bound for every
run, as long as no reset deletes the cooldown of a request that was counted after that reset, or
another, had deleted the counter. `delCooldown_harmful` is what happens otherwise.
-/

namespace VibesWaf.TrustedHistory

open Spacing

/-! ### The keys of an address -/

/-- `trustedHistoryTTL`, in milliseconds. -/
def trustedHistoryTTL : ℤ := 24 * 60 * 60 * 1000

/-- `trustedHistoryCooldown`, in milliseconds. -/
def trustedHistoryCooldown : ℤ := 1000

/-- The keys `th:` and `th:cooldown:` of an address. A key is gone from its deadline on. -/
structure Keys where
  /-- The counter's value and deadline. -/
  counter : Option (ℕ × ℤ)
  /-- The cooldown's deadline. -/
  cooldown : Option ℤ
  deriving DecidableEq

/-- `GetInt` of the counter: what the trusted-history scorer reads. -/
def Keys.getInt (keys : Keys) (now : ℤ) : Option ℕ :=
  (keys.counter.filter fun c => now < c.2).map Prod.fst

/-- `SET … PX … NX` finds a cooldown. -/
def Keys.cooling (keys : Keys) (now : ℤ) : Bool :=
  keys.cooldown.any fun deadline => now < deadline

/-- `INCR`, with the expiry of a fresh counter. -/
def Keys.incr (keys : Keys) (now : ℤ) : Option (ℕ × ℤ) :=
  match keys.counter.filter fun c => now < c.2 with
  | some (value, deadline) => some (value + 1, deadline)
  | none => some (1, now + trustedHistoryTTL)

/-- `incrWithCooldownScript`: whether it counted, and the keys after it. -/
def Keys.incrWithCooldown (keys : Keys) (now : ℤ) : Bool × Keys :=
  if keys.cooling now then (false, keys)
  else (true, ⟨keys.incr now, some (now + trustedHistoryCooldown)⟩)

/-! ### Runs -/

/-- The commands of the calls for one address. A deletion that fails leaves the key, and the call
goes on. -/
inductive Command
  /-- The script of `RecordCleanRequest`. -/
  | incrWithCooldown
  /-- The first command of `ResetHistory`. -/
  | delCounter (done : Bool)
  /-- The second command of `ResetHistory`. -/
  | delCooldown (done : Bool)
  deriving DecidableEq

/-- What the log keeps: the counted requests and the deletions of the counter. -/
inductive Mark
  | increment
  | deletion
  deriving DecidableEq

/-- The server, the calls of `ResetHistory` that have sent their first command only, and the log. -/
structure State where
  keys : Keys
  waiting : ℕ
  now : ℤ
  log : List (ℤ × Mark)

/-- Before the first request of an address. -/
def State.start : State :=
  ⟨⟨none, none⟩, 0, 0, []⟩

/-- A command can come now: time does not go back, and a second command has its first before it. -/
def State.Enabled (s : State) (e : ℤ × Command) : Prop :=
  s.now ≤ e.1 ∧ ((∃ done, e.2 = .delCooldown done) → 0 < s.waiting)

instance enabledDecidable (s : State) (e : ℤ × Command) : Decidable (s.Enabled e) :=
  inferInstanceAs (Decidable (_ ∧ _))

/-- The effect of a command at a time. -/
def State.exec (s : State) (now : ℤ) : Command → State
  | .incrWithCooldown =>
    let r := s.keys.incrWithCooldown now
    { s with keys := r.2, now, log := if r.1 then s.log ++ [(now, .increment)] else s.log }
  | .delCounter true =>
    { keys := { s.keys with counter := none }, waiting := s.waiting + 1, now,
      log := s.log ++ [(now, .deletion)] }
  | .delCounter false => { s with waiting := s.waiting + 1, now }
  | .delCooldown true =>
    { s with keys := { s.keys with cooldown := none }, waiting := s.waiting - 1, now }
  | .delCooldown false => { s with waiting := s.waiting - 1, now }

/-- The state after some commands. -/
def run (events : List (ℤ × Command)) : State :=
  events.foldl (fun s e => s.exec e.1 e.2) .start

theorem run_snoc (events : List (ℤ × Command)) (e : ℤ × Command) :
    run (events ++ [e]) = (run events).exec e.1 e.2 := by
  rw [run, List.foldl_append]
  rfl

/-- Each command of a run can come when it does. -/
def Legal (events : List (ℤ × Command)) : Prop :=
  ∀ past e, past ++ [e] <+: events → (run past).Enabled e

/-! ### Spacing -/

/-- The counted requests since the counter was last deleted. -/
def State.Counted (s : State) (time : ℤ) : Prop :=
  Since (·.2 = .increment) (·.2 = .deletion) s.log (time, Mark.increment)

/-- **The credit is not earned in bursts**: between two increments without a deletion of the counter
the cooldown passes. -/
def State.Spaced (s : State) : Prop :=
  Spacing.Spaced (·.2 = .increment) (·.2 = .deletion) Prod.fst trustedHistoryCooldown s.log

/-- Deleting the cooldown is harmless when the cooldown of every request counted since the counter
was last deleted is over. -/
def State.Harmless (s : State) (e : ℤ × Command) : Prop :=
  e.2 = .delCooldown true → ∀ time, s.Counted time → time + trustedHistoryCooldown ≤ e.1

/-- Every counted request is over its cooldown, or the key keeps it. -/
structure State.Guarded (s : State) : Prop where
  spaced : s.Spaced
  cooled : ∀ time, s.Counted time → time + trustedHistoryCooldown ≤ s.now ∨
    ∃ deadline, s.keys.cooldown = some deadline ∧ time + trustedHistoryCooldown ≤ deadline

private theorem guarded_start : State.start.Guarded :=
  ⟨spaced_nil, fun _ h => absurd h not_since_nil⟩

/-- A deletion of the counter starts anew. -/
private theorem not_counted_deletion {s : State} {now time : ℤ} {keys : Keys} {waiting : ℕ} :
    ¬ State.Counted ⟨keys, waiting, now, s.log ++ [(now, .deletion)]⟩ time := by
  rw [State.Counted, since_snoc_iff]
  simp

/-- A script that counts finds no cooldown, and so every counted request is over its own. -/
private theorem State.Guarded.cooled_of_counts {s : State} (h : s.Guarded) {now : ℤ}
    (hnow : s.now ≤ now) (hcool : s.keys.cooling now = false) {time : ℤ} (ht : s.Counted time) :
    time + trustedHistoryCooldown ≤ now := by
  obtain hle | ⟨deadline, hkey, hle⟩ := h.cooled time ht
  · exact hle.trans hnow
  · rw [Keys.cooling, hkey] at hcool
    have hover : ¬ now < deadline := by simpa using hcool
    omega

/-- **One command.** A command that can come and is harmless keeps the guard. -/
private theorem State.Guarded.exec {s : State} (h : s.Guarded) {e : ℤ × Command}
    (he : s.Enabled e) (hharmless : s.Harmless e) : (s.exec e.1 e.2).Guarded := by
  obtain ⟨now, command⟩ := e
  have hnow : s.now ≤ now := he.1
  -- a command that leaves the log alone and keeps the cooldown keeps everything
  have hkeep : ∀ (keys : Keys) (waiting : ℕ), keys.cooldown = s.keys.cooldown →
      State.Guarded ⟨keys, waiting, now, s.log⟩ := fun keys waiting hkeys =>
    ⟨h.spaced, fun time ht => (h.cooled time ht).imp (fun hle => hle.trans hnow) fun hkey => by
      rwa [hkeys]⟩
  cases command with
  | incrWithCooldown =>
    rw [State.exec, Keys.incrWithCooldown]
    by_cases hcool : s.keys.cooling now = true
    · rw [if_pos hcool]
      exact hkeep s.keys s.waiting rfl
    · rw [if_neg hcool]
      rw [Bool.not_eq_true] at hcool
      refine ⟨spaced_snoc_iff.mpr ⟨h.spaced, fun _ a ha => ?_⟩, fun time ht => .inr ?_⟩
      · obtain ⟨time, mark⟩ := a
        obtain rfl : mark = .increment := ha.1
        exact h.cooled_of_counts hnow hcool ha
      · refine ⟨now + trustedHistoryCooldown, rfl, ?_⟩
        rw [State.Counted] at ht
        dsimp only at ht
        rw [if_pos rfl, since_snoc_iff] at ht
        obtain ⟨heq, -⟩ | ⟨-, hbefore⟩ := ht
        · obtain rfl : time = now := congrArg Prod.fst heq
          exact le_rfl
        · have hover := h.cooled_of_counts hnow hcool hbefore
          rw [trustedHistoryCooldown] at hover ⊢
          omega
  | delCounter done =>
    cases done with
    | true =>
      refine ⟨spaced_snoc_iff.mpr ⟨h.spaced, fun hmark => ?_⟩, fun time ht => ?_⟩
      · cases hmark
      · exact absurd ht not_counted_deletion
    | false => exact hkeep s.keys (s.waiting + 1) rfl
  | delCooldown done =>
    cases done with
    | true => exact ⟨h.spaced, fun time ht => .inl (hharmless rfl time ht)⟩
    | false => exact hkeep s.keys (s.waiting - 1) rfl

/-- **Clean-request credit is not earned in bursts**, in every run in which no reset deletes the
cooldown of a request that is still counted. -/
theorem increments_spaced {events : List (ℤ × Command)} (hlegal : Legal events)
    (hharmless : ∀ past e, past ++ [e] <+: events → (run past).Harmless e) :
    (run events).Spaced := by
  have hguarded : (run events).Guarded := by
    refine run_induction (P := fun past => (run past).Guarded) guarded_start ?_
    intro past e hpast ih
    rw [run_snoc]
    exact ih.exec (hlegal past e hpast) (hharmless past e hpast)
  exact hguarded.spaced

/-- **A harmful deletion** breaks the bound with the next request, at the same instant. -/
theorem delCooldown_harmful {events : List (ℤ × Command)} {now : ℤ}
    (h : ¬ (run events).Harmless (now, .delCooldown true)) :
    ¬ (run (events ++ [(now, .delCooldown true), (now, .incrWithCooldown)])).Spaced := by
  rw [State.Harmless] at h
  push Not at h
  obtain ⟨-, time, ht, hlt⟩ := h
  have hsplit : events ++ [(now, .delCooldown true), (now, .incrWithCooldown)] =
      (events ++ [(now, .delCooldown true)]) ++ [(now, .incrWithCooldown)] := by simp
  have hlog : (run (events ++ [(now, .delCooldown true), (now, .incrWithCooldown)])).log =
      (run events).log ++ [(now, .increment)] := by
    rw [hsplit, run_snoc, run_snoc]
    rfl
  rw [State.Spaced, hlog, spaced_snoc_iff]
  rintro ⟨-, hlast⟩
  exact absurd (hlast rfl _ ht) (not_le.mpr hlt)

/-- A reset whose two commands come together, and two clean requests a second apart. -/
theorem increments_spaced_reset :
    (run [(0, .delCounter true), (0, .delCooldown true), (0, .incrWithCooldown),
      (1000, .incrWithCooldown)]).Spaced := by
  refine increments_spaced (forall_snoc (by decide)) (forall_snoc fun i hi => ?_)
  have hfour : i < 4 := hi
  rcases i with _ | _ | _ | _ | i
  · intro h
    simp at h
  · -- nothing is counted yet when the cooldown is deleted
    exact fun _ time ht => absurd ht (not_counted_deletion (s := State.start))
  · intro h
    simp at h
  · intro h
    simp at h
  · omega

/-- A clean request between the two commands of a reset, and one right after it: both count, and
the counter was not deleted between them. -/
theorem increments_burst :
    let events := [(0, .delCounter true), (0, .incrWithCooldown), (0, .delCooldown true),
      (0, .incrWithCooldown)]
    Legal events ∧ ¬ (run events).Spaced := by
  refine ⟨forall_snoc (by decide), fun h => ?_⟩
  have hspaced := h [(0, .deletion)] (0, .increment) [] (0, .increment) [] (by decide) rfl rfl
    fun e he => absurd he List.not_mem_nil
  exact absurd hspaced (by decide)

end VibesWaf.TrustedHistory

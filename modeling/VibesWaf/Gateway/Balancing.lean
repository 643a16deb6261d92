import Mathlib.Logic.Function.Basic
import VibesWaf.Gateway.App
import VibesWaf.Lib.RoundRobin

/-!
# Balancing

The round-robin counters of all applications are kept together, by the ids of the applications, and
a pick that takes turns increments the counter of its application. Picks of different applications
come in any order.

`pick_right` is about one pick, `picks_fair` about a run: the picks of one application go through
its upstreams in turns, whatever other applications do in between.
-/

namespace VibesWaf

/-! ### Picking -/

/-- `rrCounters`; a counter that is not there yet is 0. -/
abbrev RoundRobinCounters := GoString → UInt64

/-- The method is neither of the two that do not take turns. -/
def App.TakesTurns (a : App) : Prop :=
  a.lbMethod ≠ str "least-conn" ∧ a.lbMethod ≠ str "ip-hash"

instance (a : App) : Decidable a.TakesTurns :=
  inferInstanceAs (Decidable (_ ∧ _))

/-- `PickUpstream`, with the counters after it. Only a choice among several upstreams takes a
turn. -/
def App.pick (a : App) (counters : RoundRobinCounters) (clientIP : GoString) :
    RoundRobinCounters × Option Upstream :=
  if 2 ≤ a.activeUpstreams.length ∧ a.TakesTurns then
    let counter := counters a.id + 1
    (Function.update counters a.id counter, a.pickUpstream counter clientIP)
  else (counters, a.pickUpstream (counters a.id) clientIP)

/-- What a pick has to be. -/
structure App.PickRight (a : App) (picked : Option Upstream) : Prop where
  enabled : ∀ u ∈ picked, u ∈ a.upstreams ∧ u.enabled = true
  healthy : a.healthCheck = true → (∃ u ∈ a.upstreams, u.enabled = true ∧ u.healthy = true) →
    ∀ u ∈ picked, u.healthy = true
  none_iff : picked = none ↔ ∀ u ∈ a.upstreams, u.enabled = false

/-! ### One pick -/

theorem mem_activeUpstreams {a : App} {u : Upstream} (h : u ∈ a.activeUpstreams) :
    u ∈ a.upstreams ∧ u.enabled = true := by
  rw [App.activeUpstreams] at h
  split at h
  · exact List.mem_filter.mp h
  · obtain ⟨hmem, hactive⟩ := List.mem_filter.mp h
    exact ⟨hmem, (Bool.and_eq_true_iff.mp hactive).1⟩

/-- The fallback is for the case that nothing is healthy. -/
theorem healthy_of_mem_activeUpstreams {a : App} (hcheck : a.healthCheck = true)
    (hsome : ∃ u ∈ a.upstreams, u.enabled = true ∧ u.healthy = true) {u : Upstream}
    (h : u ∈ a.activeUpstreams) : u.healthy = true := by
  obtain ⟨v, hv, henabled, hhealthy⟩ := hsome
  rw [App.activeUpstreams] at h
  split at h
  · rename_i hnone
    exact absurd (List.filter_eq_nil_iff.mp hnone v hv) (by simp [henabled, hhealthy])
  · have hactive := (List.mem_filter.mp h).2
    rw [hcheck] at hactive
    simp only [Bool.true_and, Bool.not_not, Bool.and_eq_true] at hactive
    exact hactive.2

/-- What is picked is one of the upstreams to choose from. -/
theorem mem_of_pickUpstream {a : App} {counter : UInt64} {clientIP : GoString} {u : Upstream}
    (h : a.pickUpstream counter clientIP = some u) : u ∈ a.activeUpstreams := by
  rw [App.pickUpstream] at h
  cases hactive : a.activeUpstreams with
  | nil =>
    rw [hactive] at h
    cases h
  | cons v vs =>
    rw [hactive] at h
    cases vs with
    | nil =>
      obtain rfl := Option.some.inj h
      exact List.mem_cons_self
    | cons w ws =>
      dsimp only at h
      split at h
      · obtain rfl := Option.some.inj h
        exact List.mem_cons_self
      · split at h
        · exact List.mem_of_getElem? h
        · exact List.mem_of_getElem? h

/-- A pick is `PickUpstream` at some value of the counter. -/
theorem pick_eq (a : App) (counters : RoundRobinCounters) (clientIP : GoString) :
    ∃ counter, (a.pick counters clientIP).2 = a.pickUpstream counter clientIP := by
  rw [App.pick]
  split
  · exact ⟨_, rfl⟩
  · exact ⟨_, rfl⟩

/-- **One pick.** -/
theorem pick_right (a : App) (counters : RoundRobinCounters) (clientIP : GoString) :
    a.PickRight (a.pick counters clientIP).2 := by
  obtain ⟨counter, hpick⟩ := pick_eq a counters clientIP
  rw [hpick]
  refine ⟨fun u hu => ?_, fun hcheck hsome u hu => ?_, pickUpstream_eq_none_iff a counter clientIP⟩
  · exact mem_activeUpstreams (mem_of_pickUpstream hu)
  · exact healthy_of_mem_activeUpstreams hcheck hsome (mem_of_pickUpstream hu)

/-! ### Many picks -/

/-- A call of `PickUpstream`, for an application as it is configured then. -/
structure Pick where
  app : App
  clientIP : GoString

/-- The outcomes of some picks, one after the other. -/
def pickAll (counters : RoundRobinCounters) : List Pick → List (GoString × Option Upstream)
  | [] => []
  | p :: picks =>
    let next := p.app.pick counters p.clientIP
    (p.app.id, next.2) :: pickAll next.1 picks

/-- The outcomes for one application. -/
def pickedFor (id : GoString) (outcomes : List (GoString × Option Upstream)) :
    List (Option Upstream) :=
  (outcomes.filter (·.1 = id)).map Prod.snd

/-- The picks of one application. -/
def picksOf (id : GoString) (picks : List Pick) : List Pick :=
  picks.filter (·.app.id = id)

/-- The picks of an application all choose among these upstreams and take turns. -/
def ChooseAmong (id : GoString) (l : List Upstream) (picks : List Pick) : Prop :=
  ∀ p ∈ picks, p.app.id = id → p.app.activeUpstreams = l ∧ p.app.TakesTurns

variable {id : GoString} {l : List Upstream}

/-- A turn among several upstreams. -/
theorem pickUpstream_turn {a : App} (hactive : a.activeUpstreams = l) (hlength : 2 ≤ l.length)
    (hturns : a.TakesTurns) (counter : UInt64) (clientIP : GoString) :
    a.pickUpstream counter clientIP = l[counter.toNat % l.length]? := by
  rw [App.pickUpstream, hactive]
  rcases l with _ | ⟨u, _ | ⟨v, us⟩⟩
  · exact absurd hlength (by simp)
  · exact absurd hlength (by simp)
  · dsimp only
    rw [if_neg hturns.1, if_neg hturns.2]

/-- **Turn after turn.** The picks of an application read its counter at consecutive values. -/
theorem pickedFor_eq_turns (hlength : 2 ≤ l.length) (picks : List Pick)
    (counters : RoundRobinCounters) (hsame : ChooseAmong id l picks)
    (hcounter : (counters id).toNat + (picksOf id picks).length < 2 ^ 64) :
    pickedFor id (pickAll counters picks) =
      turns l ((counters id).toNat + 1) (picksOf id picks).length := by
  induction picks generalizing counters with
  | nil => rfl
  | cons p picks ih =>
    have hrest : ChooseAmong id l picks := fun q hq => hsame q (List.mem_cons_of_mem _ hq)
    by_cases hid : p.app.id = id
    · obtain ⟨hactive, hturns⟩ := hsame p List.mem_cons_self hid
      have hcons : picksOf id (p :: picks) = p :: picksOf id picks :=
        List.filter_cons_of_pos (by simpa using hid)
      rw [hcons, List.length_cons] at hcounter
      have hnext : (counters id + 1).toNat = (counters id).toNat + 1 := by
        rw [UInt64.toNat_add, UInt64.toNat_one]
        exact Nat.mod_eq_of_lt (by omega)
      have hpick : p.app.pick counters p.clientIP =
          (Function.update counters id (counters id + 1),
            l[((counters id).toNat + 1) % l.length]?) := by
        rw [App.pick, if_pos ⟨by rw [hactive]; exact hlength, hturns⟩, hid, ← hnext]
        dsimp only
        rw [pickUpstream_turn hactive hlength hturns]
      rw [pickAll, hpick, pickedFor, List.filter_cons_of_pos (by simpa using hid), List.map_cons,
        hcons, List.length_cons, turns_succ]
      congr 1
      have hih := ih (Function.update counters id (counters id + 1)) hrest (by
        rw [Function.update_self, hnext]
        omega)
      rw [Function.update_self, hnext] at hih
      exact hih
    · have hcons : picksOf id (p :: picks) = picksOf id picks :=
        List.filter_cons_of_neg (by simpa using hid)
      have hkept : (p.app.pick counters p.clientIP).1 id = counters id := by
        rw [App.pick]
        split
        · exact Function.update_of_ne (Ne.symm hid) _ _
        · rfl
      rw [hcons] at hcounter ⊢
      rw [pickAll, pickedFor, List.filter_cons_of_neg (by simpa using hid)]
      have hih := ih (p.app.pick counters p.clientIP).1 hrest (by rw [hkept]; exact hcounter)
      rw [hkept] at hih
      exact hih

/-- Without a choice every pick is the same. -/
theorem pickedFor_eq_replicate (hlength : l.length ≤ 1) (picks : List Pick)
    (counters : RoundRobinCounters) (hsame : ChooseAmong id l picks) :
    pickedFor id (pickAll counters picks) =
      List.replicate (picksOf id picks).length l.head? := by
  induction picks generalizing counters with
  | nil => rfl
  | cons p picks ih =>
    have hih := ih (p.app.pick counters p.clientIP).1 fun q hq =>
      hsame q (List.mem_cons_of_mem _ hq)
    by_cases hid : p.app.id = id
    · have hpick : (p.app.pick counters p.clientIP).2 = l.head? := by
        obtain ⟨counter, hpick⟩ := pick_eq p.app counters p.clientIP
        have hactive := (hsame p List.mem_cons_self hid).1
        rw [hpick, App.pickUpstream, hactive]
        rcases l with _ | ⟨u, _ | ⟨v, us⟩⟩
        · rfl
        · rfl
        · exact absurd hlength (by simp)
      rw [pickAll, pickedFor, List.filter_cons_of_pos (by simpa using hid), List.map_cons, hpick,
        picksOf, List.filter_cons_of_pos (by simpa using hid), List.length_cons,
        List.replicate_succ]
      exact congrArg (l.head? :: ·) hih
    · rw [pickAll, pickedFor, List.filter_cons_of_neg (by simpa using hid), picksOf,
        List.filter_cons_of_neg (by simpa using hid)]
      exact hih

/-- **Fair picks.** As many picks of an application as `k` rounds have are every upstream in each of
the rounds. -/
theorem picks_fair (picks : List Pick) (counters : RoundRobinCounters) {k : ℕ}
    (hsame : ChooseAmong id l picks) (hcount : (picksOf id picks).length = k * l.length)
    (hcounter : (counters id).toNat + k * l.length < 2 ^ 64) :
    (pickedFor id (pickAll counters picks)).Perm ((List.replicate k l).flatten.map some) := by
  by_cases hlength : 2 ≤ l.length
  · rw [pickedFor_eq_turns hlength picks counters hsame (by rw [hcount]; exact hcounter), hcount]
    exact turns_perm l _ k
  · rw [pickedFor_eq_replicate (by omega) picks counters hsame, hcount]
    refine List.Perm.of_eq ?_
    match l with
    | [] => simp
    | [u] => simp
    | u :: v :: us => simp at hlength

/-- **Upstream selection.** Every pick is right, and the picks that take turns are fair. -/
theorem upstream_selection :
    (∀ (a : App) (counters : RoundRobinCounters) (clientIP : GoString),
      a.PickRight (a.pick counters clientIP).2) ∧
    ∀ (id : GoString) (l : List Upstream) (picks : List Pick) (counters : RoundRobinCounters)
      (k : ℕ), ChooseAmong id l picks → (picksOf id picks).length = k * l.length →
      (counters id).toNat + k * l.length < 2 ^ 64 →
      (pickedFor id (pickAll counters picks)).Perm ((List.replicate k l).flatten.map some) :=
  ⟨pick_right, fun _ _ picks counters _ hsame hcount hcounter =>
    picks_fair picks counters hsame hcount hcounter⟩

/-- An application with two healthy upstreams and one that is disabled. -/
def balancedApp : App where
  id := str "shop"
  underAttackMode := false
  upstreams := [⟨str "http", str "10.0.0.5", 8080, true, true⟩,
    ⟨str "http", str "10.0.0.6", 8080, false, true⟩,
    ⟨str "http", str "10.0.0.7", 8080, true, true⟩]
  lbMethod := str "round-robin"
  redirectHTTPS := false
  rootRedirect := []
  healthCheck := true
  advanced :=
    { allowWebSocket := false
      modifyHostHeader := false
      hostHeaderValue := []
      passXForwardedHost := false
      passXForwardedProto := false
      trustedProxies := []
      upstreamPath := []
      cors := ⟨false, [], [], [], false, 0⟩ }

/-- Four picks of it, two for each of its upstreams, with one of another application between. -/
theorem upstream_selection_four :
    (pickedFor (str "shop") (pickAll (fun _ => 7)
      [⟨balancedApp, str "203.0.113.7"⟩, ⟨balancedApp, str "203.0.113.8"⟩,
        ⟨{ balancedApp with id := str "blog" }, str "203.0.113.7"⟩,
        ⟨balancedApp, str "203.0.113.7"⟩, ⟨balancedApp, str "203.0.113.9"⟩])).Perm
      ((List.replicate 2 balancedApp.activeUpstreams).flatten.map some) := by
  refine upstream_selection.2 (str "shop") _ _ _ 2 ?_ (by decide) (by decide)
  intro p hp hid
  simp only [List.mem_cons, List.not_mem_nil, or_false] at hp
  rcases hp with rfl | rfl | rfl | rfl | rfl
  · exact ⟨rfl, by decide⟩
  · exact ⟨rfl, by decide⟩
  · exact absurd hid (by decide)
  · exact ⟨rfl, by decide⟩
  · exact ⟨rfl, by decide⟩

end VibesWaf

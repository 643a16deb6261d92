import VibesWaf.RuleService.AppEndpoints

/-!
# Reordering rules

`ReorderRules` goes through a list of rules and writes a new priority into each: it reads the
rule, writes the whole row back, and goes on. A rule that cannot be read is passed over; a write
that fails ends the call with an error, and what was written before it stays.

A reordering should be all or nothing. `reorderRules_right_iff` says when it is, for every table
and every calls of the repository that fail.
-/

namespace VibesWaf

/-! ### The repository's failures -/

/-- How a call of `Update` ends. An update whose result does not arrive has been made all the same,
and is an error to the caller. -/
inductive UpdateOutcome
  | updated
  | failed
  | unconfirmed
  deriving DecidableEq

/-- What becomes of the calls of the repository, by the position in the list of rules. -/
structure RuleFaults where
  /-- `GetByID` fails. -/
  unread : ℕ → Bool
  update : ℕ → UpdateOutcome

/-- Nothing fails. -/
def RuleFaults.none : RuleFaults :=
  ⟨fun _ => false, fun _ => .updated⟩

/-! ### The operation -/

/-- What a reordering leaves: the table, the applications whose cache was invalidated, and whether
it has returned without an error. -/
structure Reordering where
  table : RuleTable
  invalidated : List GoString
  ok : Bool

/-- The loop of `ReorderRules` from a position on. -/
def reorderLoop (faults : RuleFaults) (i : ℕ) (t : RuleTable) (invalidated : List GoString) :
    List Int → Reordering
  | [] => ⟨t, invalidated, true⟩
  | id :: ids =>
    match if faults.unread i then none else t.getByID id with
    | none => reorderLoop faults (i + 1) t invalidated ids
    | some r =>
      let r := { r with priority := ((i : Int) + 1) * 10 }
      match faults.update i, t.update r with
      | .updated, some t => reorderLoop faults (i + 1) t (invalidated ++ [r.appID]) ids
      | .unconfirmed, some t => ⟨t, invalidated, false⟩
      | _, _ => ⟨t, invalidated, false⟩

/-- `ReorderRules`. -/
def reorderRules (faults : RuleFaults) (t : RuleTable) (ruleIDs : List Int) : Reordering :=
  reorderLoop faults 0 t [] ruleIDs

/-- Where nothing fails the operation is that of the rule endpoints. -/
theorem reorderRules_none (t : RuleTable) (ids : List Int) :
    (reorderRules .none t ids).table = (t.reorderFrom 0 ids).1 ∧
      ((reorderRules .none t ids).ok = true ↔ (t.reorderFrom 0 ids).2 = none) := by
  rw [reorderRules]
  generalize 0 = i
  generalize ([] : List GoString) = invalidated
  induction ids generalizing t i invalidated with
  | nil => exact ⟨rfl, by simp [reorderLoop, RuleTable.reorderFrom]⟩
  | cons id ids ih =>
    rw [reorderLoop, RuleTable.reorderFrom]
    cases t.getByID id with
    | none => exact ih t (i + 1) invalidated
    | some r =>
      cases hupdate : t.update { r with priority := ((i : Int) + 1) * 10 } with
      | none => simp [RuleFaults.none, hupdate]
      | some t' =>
        simp only [RuleFaults.none, Bool.false_eq_true, if_false, hupdate]
        exact ih t' (i + 1) _

/-- The priority of a rule. -/
def RuleTable.priorityOf (t : RuleTable) (id : Int) : Option Int :=
  (t.getByID id).map StoredRule.priority

/-! ### What a reordering should be -/

/-- The rules have strictly increasing priorities. -/
def Increasing (t : RuleTable) (ids : List Int) : Prop :=
  ids.Pairwise fun id id' =>
    ∃ p ∈ t.priorityOf id, ∃ q ∈ t.priorityOf id', p < q

/-- Every application evaluates those of the rules that concern it in the order of the list. -/
def EvaluatedInOrder (t : RuleTable) (ids : List Int) : Prop :=
  ∀ app l, t.IsMerged app l → ((l.map StoredRule.id).filter (· ∈ ids)).Sublist ids

/-- All or nothing. -/
structure ReorderRight (t : RuleTable) (ids : List Int) (result : Reordering) : Prop where
  ordered : result.ok = true → Increasing result.table ids ∧ EvaluatedInOrder result.table ids
  unchanged : result.ok = false → ∀ id, result.table.priorityOf id = t.priorityOf id

namespace RuleFaults

/-- The call ends with an error at a position, if it gets there. -/
def Stops (faults : RuleFaults) (i : ℕ) : Prop :=
  faults.unread i = false ∧ faults.update i ≠ .updated

/-- The call gets to a position, counted from another, and writes there. -/
def Writes (faults : RuleFaults) (i k : ℕ) : Prop :=
  faults.unread (i + k) = false ∧ faults.update (i + k) ≠ .failed ∧
    ∀ m < k, ¬ faults.Stops (i + m)

/-- The priority of a rule after the call, if nothing stops it: that of its position, or its old one
where it could not be read. -/
def planned (faults : RuleFaults) (t : RuleTable) (i : ℕ) (id : Int) : Option Int :=
  if faults.unread i then t.priorityOf id else some (((i : Int) + 1) * 10)

end RuleFaults

/-- When a reordering is all or nothing. If nothing stops it, the priorities of the rules that could
not be read fit in between the new ones; and if something does, every rule written until then had
its new priority before. -/
structure ReorderFits (faults : RuleFaults) (t : RuleTable) (ids : List Int) : Prop where
  ordered : (∀ k < ids.length, ¬ faults.Stops k) →
    ∀ j k id id', j < k → ids[j]? = some id → ids[k]? = some id' →
      ∃ p ∈ faults.planned t j id, ∃ q ∈ faults.planned t k id', p < q
  unchanged : (∃ k < ids.length, faults.Stops k) →
    ∀ k id, ids[k]? = some id → faults.Writes 0 k → t.priorityOf id = some (((k : Int) + 1) * 10)

/-! ### One position -/

variable {faults : RuleFaults} {t t' : RuleTable} {ids : List Int}

namespace RuleFaults

theorem forall_stops_succ {i n : ℕ} :
    (∀ k < n + 1, ¬ faults.Stops (i + k)) ↔
      ¬ faults.Stops i ∧ ∀ k < n, ¬ faults.Stops (i + 1 + k) := by
  constructor
  · intro h
    refine ⟨h 0 (by omega), fun k hk => ?_⟩
    rw [Nat.add_assoc, Nat.add_comm 1 k]
    exact h (k + 1) (by omega)
  · rintro ⟨hfirst, hrest⟩ k hk
    cases k with
    | zero => exact hfirst
    | succ k =>
      have hk := hrest k (by omega)
      rwa [Nat.add_assoc, Nat.add_comm 1 k] at hk

theorem writes_succ {i k : ℕ} :
    faults.Writes i (k + 1) ↔ ¬ faults.Stops i ∧ faults.Writes (i + 1) k := by
  have hposition : i + (k + 1) = i + 1 + k := by omega
  rw [Writes, Writes, hposition, forall_stops_succ]
  tauto

end RuleFaults

/-- A rule that is read and written back has the new priority, and the others keep theirs. -/
theorem RuleTable.priorityOf_update {id p : Int} {r : StoredRule} (hr : t.getByID id = some r)
    (h : t.update { r with priority := p } = some t') (key : Int) :
    t'.priorityOf key = if key = id then some p else t.priorityOf key := by
  have hid : r.id = id := (getByID_eq_some_iff.mp hr).2
  rw [priorityOf, getByID_update h]
  change Option.map _ (if key = r.id then _ else _) = _
  rw [hid]
  split
  · subst key
    rw [hr]
    rfl
  · rfl

/-- A rule that was read can be written back. -/
theorem RuleTable.exists_update_priority {id : Int} {r : StoredRule} (hr : t.getByID id = some r)
    (p : Int) : ∃ t', t.update { r with priority := p } = some t' := by
  obtain ⟨hmem, hid⟩ := getByID_eq_some_iff.mp hr
  have hold : t.getByID r.id = some r := hid.symm ▸ hr
  exact exists_update hold (t.arrays r hmem)

/-! ### The loop -/

/-- What the loop does from a position on. -/
private structure LoopSpec (faults : RuleFaults) (i : ℕ) (t : RuleTable) (ids : List Int)
    (result : Reordering) : Prop where
  ok_iff : result.ok = true ↔ ∀ k < ids.length, ¬ faults.Stops (i + k)
  written : ∀ k id, ids[k]? = some id → faults.Writes i k →
    result.table.priorityOf id = some (((i + k : ℕ) : Int) * 10 + 10)
  kept : ∀ id, (∀ k, ids[k]? = some id → ¬ faults.Writes i k) →
    result.table.priorityOf id = t.priorityOf id

/-- A position that does not stop the call, and what it leaves in the table. -/
private theorem LoopSpec.cons {i : ℕ} {id : Int} {result : Reordering}
    (hgoes : ¬ faults.Stops i) (hmem : id ∉ ids)
    (hhere : faults.Writes i 0 → t'.priorityOf id = some ((i : Int) * 10 + 10))
    (hrest : ∀ key, (key = id → ¬ faults.Writes i 0) → t'.priorityOf key = t.priorityOf key)
    (h : LoopSpec faults (i + 1) t' ids result) : LoopSpec faults i t (id :: ids) result := by
  refine ⟨?_, fun k key hkey hwrites => ?_, fun key hkey => ?_⟩
  · rw [List.length_cons, RuleFaults.forall_stops_succ, h.ok_iff]
    simp [hgoes]
  · cases k with
    | zero =>
      obtain rfl : id = key := by simpa using hkey
      rw [h.kept id fun k hk _ => hmem (List.mem_of_getElem? hk)]
      exact hhere hwrites
    | succ k =>
      have hposition : i + (k + 1) = i + 1 + k := by omega
      rw [hposition]
      exact h.written k key hkey (RuleFaults.writes_succ.mp hwrites).2
  · rw [h.kept key fun k hk hwrites =>
      hkey (k + 1) hk (RuleFaults.writes_succ.mpr ⟨hgoes, hwrites⟩)]
    refine hrest key fun heq => hkey 0 ?_
    rw [heq]
    rfl

/-- A position that stops the call. -/
private theorem LoopSpec.stop {i : ℕ} {id : Int} {invalidated : List GoString}
    (hstops : faults.Stops i)
    (hhere : faults.Writes i 0 → t'.priorityOf id = some ((i : Int) * 10 + 10))
    (hrest : ∀ key, (key = id → ¬ faults.Writes i 0) → t'.priorityOf key = t.priorityOf key) :
    LoopSpec faults i t (id :: ids) ⟨t', invalidated, false⟩ := by
  refine ⟨?_, fun k key hkey hwrites => ?_, fun key hkey => ?_⟩
  · refine iff_of_false Bool.false_ne_true fun hall => ?_
    exact hall 0 (by simp) hstops
  · cases k with
    | zero =>
      obtain rfl : id = key := by simpa using hkey
      exact hhere hwrites
    | succ k => exact absurd hstops (RuleFaults.writes_succ.mp hwrites).1
  · refine hrest key fun heq => hkey 0 ?_
    rw [heq]
    rfl

/-- **The loop**, position by position. -/
private theorem reorderLoop_spec (hdistinct : ids.Nodup)
    (hexist : ∀ id ∈ ids, t.getByID id ≠ none) (i : ℕ) (invalidated : List GoString) :
    LoopSpec faults i t ids (reorderLoop faults i t invalidated ids) := by
  induction ids generalizing t i invalidated with
  | nil =>
    refine ⟨?_, fun k id hid => ?_, fun id _ => rfl⟩
    · simp [reorderLoop]
    · simp at hid
  | cons id ids ih =>
    obtain ⟨hmem, hdistinct⟩ := List.nodup_cons.mp hdistinct
    have hexist' : ∀ key ∈ ids, t.getByID key ≠ none :=
      fun key hkey => hexist key (List.mem_cons_of_mem _ hkey)
    rw [reorderLoop]
    cases hunread : faults.unread i with
    | true =>
      -- the rule cannot be read, and is passed over
      rw [if_pos rfl]
      refine LoopSpec.cons (fun h => ?_) hmem (fun h => ?_) (fun _ _ => rfl)
        (ih hdistinct hexist' (i + 1) invalidated)
      · exact absurd h.1 (by simp [hunread])
      · exact absurd h.1 (by simp [hunread])
    | false =>
      obtain ⟨r, hr⟩ := Option.ne_none_iff_exists'.mp (hexist id List.mem_cons_self)
      obtain ⟨t', hwritten⟩ := RuleTable.exists_update_priority hr (((i : Int) + 1) * 10)
      have hpriority := RuleTable.priorityOf_update hr hwritten
      have hhere : t'.priorityOf id = some ((i : Int) * 10 + 10) := by
        rw [hpriority, if_pos rfl]
        congr 1
        ring
      rw [if_neg Bool.false_ne_true, hr]
      dsimp only
      rw [hwritten]
      cases hupdate : faults.update i with
      | updated =>
        refine LoopSpec.cons (fun h => h.2 hupdate) hmem (fun _ => hhere) (fun key hkey => ?_)
          (ih hdistinct (fun key hkey => ?_) (i + 1) _)
        · rw [hpriority, if_neg]
          refine fun heq => hkey heq ⟨hunread, ?_, fun m hm => absurd hm (Nat.not_lt_zero m)⟩
          rw [Nat.add_zero, hupdate]
          decide
        · rw [RuleTable.getByID_update hwritten]
          split
          · rw [Ne, Option.map_eq_none_iff]
            exact hexist' key hkey
          · exact hexist' key hkey
      | unconfirmed =>
        refine LoopSpec.stop ⟨hunread, by simp [hupdate]⟩ (fun _ => hhere) fun key hkey => ?_
        rw [hpriority, if_neg]
        refine fun heq => hkey heq ⟨hunread, ?_, fun m hm => absurd hm (Nat.not_lt_zero m)⟩
        rw [Nat.add_zero, hupdate]
        decide
      | failed =>
        refine LoopSpec.stop ⟨hunread, by simp [hupdate]⟩ (fun h => ?_) fun _ _ => rfl
        exact absurd hupdate h.2.1

/-- A rule that the call writes has the priority of its position. -/
private theorem LoopSpec.priorityOf_written {result : Reordering} {k : ℕ} {id : Int}
    (h : LoopSpec faults 0 t ids result) (hk : ids[k]? = some id) (hwrites : faults.Writes 0 k) :
    result.table.priorityOf id = some (((k : Int) + 1) * 10) := by
  rw [h.written k id hk hwrites, Nat.zero_add]
  congr 1
  ring

/-- If nothing stops the call, the priorities are the planned ones. -/
private theorem LoopSpec.priorityOf_planned {result : Reordering} (hdistinct : ids.Nodup)
    (h : LoopSpec faults 0 t ids result) (hgoes : ∀ k < ids.length, ¬ faults.Stops k)
    (k : ℕ) (id : Int) (hk : ids[k]? = some id) :
    result.table.priorityOf id = faults.planned t k id := by
  have hlt := (List.getElem?_eq_some_iff.mp hk).1
  rw [RuleFaults.planned]
  split
  · rename_i hunread
    -- no other position of the rule could write it
    refine h.kept id fun j hj hwrites => ?_
    obtain rfl : j = k := (List.getElem?_inj (List.getElem?_eq_some_iff.mp hj).1 hdistinct).mp
      (hj.trans hk.symm)
    have hread := hwrites.1
    rw [Nat.zero_add, hunread] at hread
    cases hread
  · rename_i hread
    rw [Bool.not_eq_true] at hread
    refine h.priorityOf_written hk ⟨by rwa [Nat.zero_add], fun hfailed => ?_, fun m hm => ?_⟩
    · refine hgoes k hlt ⟨hread, ?_⟩
      rw [Nat.zero_add] at hfailed
      rw [hfailed]
      decide
    · rw [Nat.zero_add]
      exact hgoes m (hm.trans hlt)

/-! ### The order of evaluation -/

/-- **Increasing priorities** are the order of evaluation. -/
theorem Increasing.evaluatedInOrder (h : Increasing t ids) : EvaluatedInOrder t ids := by
  rintro app l ⟨hperm, hsorted⟩
  let below (id id' : Int) : Prop := ∃ p ∈ t.priorityOf id, ∃ q ∈ t.priorityOf id', p < q
  have hasymm : ∀ id id', below id id' → ¬ below id' id := by
    rintro id id' ⟨p, hp, q, hq, hlt⟩ ⟨q', hq', p', hp', hlt'⟩
    obtain rfl := Option.mem_unique hp hp'
    obtain rfl := Option.mem_unique hq hq'
    omega
  have : Std.Antisymm below := ⟨fun id id' hlt hlt' => absurd hlt' (hasymm id id' hlt)⟩
  have hpriority : ∀ r ∈ l, t.priorityOf r.id = some r.priority :=
    fun r hr => RuleTable.priority_of_mem_merged (hperm.subset hr)
  have hnodup : (l.map StoredRule.id).Nodup :=
    (hperm.map StoredRule.id).nodup_iff.mpr RuleTable.nodup_merged_ids
  -- two of the rules are in one order or the other
  have htotal : ∀ id ∈ ids, ∀ id' ∈ ids, id ≠ id' → below id id' ∨ below id' id := by
    have : Std.Symm fun id id' => below id id' ∨ below id' id := ⟨fun _ _ => Or.symm⟩
    have hpairs : ids.Pairwise fun id id' => below id id' ∨ below id' id := h.imp .inl
    exact fun id hid id' hid' hne => hpairs.forall hid hid' hne
  refine List.sublist_of_subperm_of_pairwise (r := below)
    (List.subperm_of_subset (hnodup.filter _) fun id hid => ?_) ?_ h
  · simpa using (List.mem_filter.mp hid).2
  · rw [List.pairwise_filter, List.pairwise_map]
    refine (hsorted.and (List.pairwise_map.mp hnodup)).imp_of_mem ?_
    rintro r s hr hs ⟨hle, hne⟩ hrmem hsmem
    refine (htotal _ (by simpa using hrmem) _ (by simpa using hsmem) hne).resolve_right ?_
    rintro ⟨q, hq, p, hp, hlt⟩
    rw [hpriority s hs] at hq
    rw [hpriority r hr] at hp
    obtain rfl := Option.some.inj hq
    obtain rfl := Option.some.inj hp
    omega

/-! ### The result -/

private theorem increasing_iff {table : RuleTable} {planned : ℕ → Int → Option Int}
    (h : ∀ k id, ids[k]? = some id → table.priorityOf id = planned k id) :
    Increasing table ids ↔ ∀ j k id id', j < k → ids[j]? = some id → ids[k]? = some id' →
      ∃ p ∈ planned j id, ∃ q ∈ planned k id', p < q := by
  rw [Increasing, List.pairwise_iff_getElem]
  constructor
  · intro hpairs j k id id' hlt hj hk
    obtain ⟨hjlt, rfl⟩ := List.getElem?_eq_some_iff.mp hj
    obtain ⟨hklt, rfl⟩ := List.getElem?_eq_some_iff.mp hk
    rw [← h j _ hj, ← h k _ hk]
    exact hpairs j k hjlt hklt hlt
  · intro hplanned j k hj hk hlt
    have hj' := List.getElem?_eq_getElem hj
    have hk' := List.getElem?_eq_getElem hk
    rw [h j _ hj', h k _ hk']
    exact hplanned j k _ _ hlt hj' hk'

/-- **Reordering is all or nothing** exactly when it fits. -/
theorem reorderRules_right_iff (hdistinct : ids.Nodup)
    (hexist : ∀ id ∈ ids, t.getByID id ≠ none) :
    ReorderRight t ids (reorderRules faults t ids) ↔ ReorderFits faults t ids := by
  have hspec : LoopSpec faults 0 t ids (reorderLoop faults 0 t [] ids) :=
    reorderLoop_spec hdistinct hexist 0 []
  have hok := hspec.ok_iff
  simp only [Nat.zero_add] at hok
  rw [reorderRules]
  generalize reorderLoop faults 0 t [] ids = result at hspec hok ⊢
  cases hresult : result.ok with
  | true =>
    have hgoes := hok.mp hresult
    have hplanned := hspec.priorityOf_planned hdistinct hgoes
    constructor
    · intro h
      refine ⟨fun _ => (increasing_iff hplanned).mp (h.ordered hresult).1, ?_⟩
      rintro ⟨k, hk, hstops⟩
      exact absurd hstops (hgoes k hk)
    · intro h
      have hincreasing := (increasing_iff hplanned).mpr (h.ordered hgoes)
      refine ⟨fun _ => ⟨hincreasing, hincreasing.evaluatedInOrder⟩, fun hfalse => ?_⟩
      rw [hresult] at hfalse
      cases hfalse
  | false =>
    have hstops : ∃ k < ids.length, faults.Stops k := by
      by_contra hnone
      push Not at hnone
      rw [hok.mpr hnone] at hresult
      cases hresult
    constructor
    · intro h
      refine ⟨fun hgoes => ?_, fun _ k id hk hwrites => ?_⟩
      · obtain ⟨k, hk, hstop⟩ := hstops
        exact absurd hstop (hgoes k hk)
      · rw [← h.unchanged hresult id, hspec.priorityOf_written hk hwrites]
    · intro h
      refine ⟨fun htrue => ?_, fun _ id => ?_⟩
      · rw [hresult] at htrue
        cases htrue
      · by_cases hwritten : ∃ k, ids[k]? = some id ∧ faults.Writes 0 k
        · obtain ⟨k, hk, hwrites⟩ := hwritten
          rw [h.unchanged hstops k id hk hwrites, hspec.priorityOf_written hk hwrites]
        · push Not at hwritten
          exact hspec.kept id hwritten

/-! ### Two reorderings -/

/-- The second rule cannot be read. -/
def secondUnread : RuleFaults :=
  ⟨fun i => i = 1, fun _ => .updated⟩

/-- The second rule cannot be written. -/
def secondUnwritten : RuleFaults :=
  ⟨fun _ => false, fun i => if i = 1 then .failed else .updated⟩

/-- The rules 1 and 2 are put in their order again, and nothing fails. -/
theorem reorderRules_right_sample :
    ReorderRight sampleRules [1, 2] (reorderRules .none sampleRules [1, 2]) := by
  refine (reorderRules_right_iff (by decide) (by decide)).mpr ⟨fun _ => ?_, ?_⟩
  · intro j k id id' hlt hj hk
    refine ⟨((j : Int) + 1) * 10, rfl, ((k : Int) + 1) * 10, rfl, ?_⟩
    omega
  · rintro ⟨k, -, -, hstops⟩
    exact absurd rfl hstops

/-- The rules 1 and 2 are to change places. Where the second cannot be read, no error is returned
and both have the same priority; where it cannot be written, the first has a new one already. -/
theorem reorderRules_half_done :
    ¬ ReorderRight sampleRules [2, 1] (reorderRules secondUnread sampleRules [2, 1]) ∧
      ¬ ReorderRight sampleRules [2, 1] (reorderRules secondUnwritten sampleRules [2, 1]) := by
  constructor
  · intro h
    obtain ⟨hpairs, -⟩ := h.ordered (by decide)
    obtain ⟨p, hp, q, hq, hlt⟩ := (List.pairwise_cons.mp hpairs).1 1 (by simp)
    have hfirst : (reorderRules secondUnread sampleRules [2, 1]).table.priorityOf 2 = some 10 := by
      decide
    have hsecond : (reorderRules secondUnread sampleRules [2, 1]).table.priorityOf 1 = some 10 := by
      decide
    rw [hfirst] at hp
    rw [hsecond] at hq
    obtain rfl := Option.some.inj hp
    obtain rfl := Option.some.inj hq
    omega
  · intro h
    exact absurd (h.unchanged (by decide) 2) (by decide)

end VibesWaf

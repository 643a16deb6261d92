import Mathlib.Data.List.GetD
import VibesWaf.Go.NetBits
import VibesWaf.Pipeline.Phase1

/-!
# Reloading the IP access list

`IPAccessService` answers from a snapshot of the enabled rules, which it loads when it is made and
reloads every 30 seconds. `loadSnapshot` is given what the repository answered, and turns an error
into a snapshot without rules; the service puts whatever it gets in the place of the snapshot it
had.

A failed reload should keep the last good state. `checkIPInMemory_lastLoaded_iff` says when it
does, for every history of reloads and every call: exactly when the last reload succeeded, or no
rule of the last list that was loaded applies to the address.
-/

namespace VibesWaf

/-! ### Rules and snapshots -/

/-- `ip_access.IPAccessRule`, without its times. -/
structure StoredIPRule extends IPAccessRule where
  id : Int
  appID : GoString
  ipRange : GoString
  deriving DecidableEq

/-- What a rule compiles to: a network, or else a single address. -/
inductive IPMatcher
  | network (n : IPNet)
  | singleIP (ip : Bytes 16)

/-- `compiledRule`. -/
structure CompiledIPRule where
  rule : StoredIPRule
  matcher : IPMatcher

/-- The test of `CheckIPInMemory` on one rule. -/
def CompiledIPRule.covers (cr : CompiledIPRule) (clientIP : Bytes 16) : Bool :=
  match cr.matcher with
  | .network n => n.contains clientIP.1
  | .singleIP ip => ip = clientIP

/-- A turn of the loop of `loadSnapshot`; `none` is a range that is skipped. -/
def compileIPRule (rule : StoredIPRule) : Option CompiledIPRule :=
  match parseCIDR rule.ipRange with
  | some network => some ⟨rule, .network network⟩
  | none => (parseIP rule.ipRange).map fun ip => ⟨rule, .singleIP ip⟩

/-- `ipAccessSnapshot`: the compiled rules by application. -/
abbrev IPAccessSnapshot := GoString → List CompiledIPRule

/-- A snapshot without rules. -/
def emptySnapshot : IPAccessSnapshot :=
  fun _ => []

/-- A compiled rule at the end of its application's list. -/
def IPAccessSnapshot.add (snap : IPAccessSnapshot) (cr : CompiledIPRule) : IPAccessSnapshot :=
  fun appID => if appID = cr.rule.appID then snap appID ++ [cr] else snap appID

/-- `loadSnapshot`, given the answer of `ListAll`. -/
def loadSnapshot : Except GoString (List StoredIPRule) → IPAccessSnapshot
  | .error _ => emptySnapshot
  | .ok rules => (rules.filterMap compileIPRule).foldl IPAccessSnapshot.add emptySnapshot

/-! ### The service -/

/-- The snapshot of the service after its loads: the first one when it is made, the others by
`autoReload`. -/
def IPAccessService.state (loads : List (Except GoString (List StoredIPRule))) :
    Option IPAccessSnapshot :=
  loads.foldl (fun _ answer => some (loadSnapshot answer)) none

/-- `CheckIPInMemory`. -/
def checkIPInMemory (snap : Option IPAccessSnapshot) (appID ip : GoString) :
    Except GoString (Option StoredIPRule) :=
  match snap with
  | none => .ok none
  | some snap =>
    match parseIP ip with
    | none => .error (str "invalid IP: " ++ ip)
    | some clientIP =>
      match (snap appID).find? (·.covers clientIP) with
      | some cr => .ok (some cr.rule)
      | none =>
        if appID ≠ str "default" then
          .ok (((snap (str "default")).find? (·.covers clientIP)).map (·.rule))
        else .ok none

/-- The rules of the last load that did not fail. -/
def lastLoaded (loads : List (Except GoString (List StoredIPRule))) : Option (List StoredIPRule) :=
  (loads.filterMap Except.toOption).getLast?

/-- The range of the rule contains the address. -/
def StoredIPRule.Contains (rule : StoredIPRule) (clientIP : Bytes 16) : Prop :=
  match parseCIDR rule.ipRange with
  | some network => network.contains clientIP.1 = true
  | none => parseIP rule.ipRange = some clientIP

/-- The rule is one for the address, of the application or of all. -/
def StoredIPRule.AppliesTo (rule : StoredIPRule) (appID ip : GoString) : Prop :=
  (rule.appID = appID ∨ rule.appID = str "default") ∧
    ∃ clientIP, parseIP ip = some clientIP ∧ rule.Contains clientIP

/-! ### What a load and a call do -/

/-- The last load decides the snapshot. -/
theorem IPAccessService.state_append (loads : List (Except GoString (List StoredIPRule)))
    (answer : Except GoString (List StoredIPRule)) :
    IPAccessService.state (loads ++ [answer]) = some (loadSnapshot answer) := by
  simp [IPAccessService.state]

theorem lastLoaded_append (loads : List (Except GoString (List StoredIPRule)))
    (answer : Except GoString (List StoredIPRule)) :
    lastLoaded (loads ++ [answer]) =
      match answer with
      | .ok rules => some rules
      | .error _ => lastLoaded loads := by
  cases answer <;> simp [lastLoaded, Except.toOption]

/-- The rules of an application, in the order of the list. -/
private theorem foldl_add (rules : List CompiledIPRule) (snap : IPAccessSnapshot)
    (appID : GoString) : rules.foldl IPAccessSnapshot.add snap appID =
      snap appID ++ rules.filter (appID = ·.rule.appID) := by
  induction rules generalizing snap with
  | nil => simp
  | cons cr rules ih =>
    rw [List.foldl_cons, ih, IPAccessSnapshot.add]
    by_cases happ : appID = cr.rule.appID <;> simp [happ]

theorem loadSnapshot_ok (rules : List StoredIPRule) (appID : GoString) :
    loadSnapshot (.ok rules) appID =
      (rules.filterMap compileIPRule).filter (appID = ·.rule.appID) := by
  rw [loadSnapshot, foldl_add, emptySnapshot, List.nil_append]

/-- A compiled rule covers what the range of its rule contains. -/
theorem compileIPRule_covers {rule : StoredIPRule} {clientIP : Bytes 16} :
    (∃ cr, compileIPRule rule = some cr ∧ cr.covers clientIP = true) ↔
      rule.Contains clientIP := by
  rw [compileIPRule, StoredIPRule.Contains]
  cases parseCIDR rule.ipRange with
  | some network => simp [CompiledIPRule.covers]
  | none => cases parseIP rule.ipRange <;> simp [CompiledIPRule.covers]

theorem compileIPRule_rule {rule : StoredIPRule} {cr : CompiledIPRule}
    (h : compileIPRule rule = some cr) : cr.rule = rule := by
  rw [compileIPRule] at h
  cases hcidr : parseCIDR rule.ipRange with
  | some network =>
    obtain rfl : (⟨rule, .network network⟩ : CompiledIPRule) = cr := by simpa [hcidr] using h
    rfl
  | none =>
    rw [hcidr] at h
    obtain ⟨ip, -, rfl⟩ := Option.map_eq_some_iff.mp h
    rfl

/-- No rule is found in the list of an application exactly when none of its rules contains the
address. -/
private theorem find?_loadSnapshot_eq_none {rules : List StoredIPRule} {appID : GoString}
    {clientIP : Bytes 16} :
    (loadSnapshot (.ok rules) appID).find? (·.covers clientIP) = none ↔
      ∀ rule ∈ rules, rule.appID = appID → ¬ rule.Contains clientIP := by
  rw [loadSnapshot_ok, List.find?_eq_none]
  constructor
  · intro h rule hrule happ hcontains
    obtain ⟨cr, hcr, hcovers⟩ := compileIPRule_covers.mpr hcontains
    refine h cr (List.mem_filter.mpr ⟨List.mem_filterMap.mpr ⟨rule, hrule, hcr⟩, ?_⟩) hcovers
    rw [compileIPRule_rule hcr, happ]
    exact decide_eq_true rfl
  · intro h cr hcr hcovers
    obtain ⟨hmem, happ⟩ := List.mem_filter.mp hcr
    obtain ⟨rule, hrule, hcompile⟩ := List.mem_filterMap.mp hmem
    have heq := compileIPRule_rule hcompile
    refine h rule hrule ?_ (compileIPRule_covers.mp ⟨cr, hcompile, hcovers⟩)
    rw [← heq]
    exact (of_decide_eq_true happ).symm

/-- A snapshot without rules finds none. -/
private theorem checkIPInMemory_empty (appID ip : GoString) :
    checkIPInMemory (some emptySnapshot) appID ip =
      match parseIP ip with
      | none => .error (str "invalid IP: " ++ ip)
      | some _ => .ok none := by
  rw [checkIPInMemory]
  cases parseIP ip with
  | none => rfl
  | some clientIP => simp [emptySnapshot]

/-- The loaded rules answer as if there were none exactly when none applies. -/
private theorem checkIPInMemory_eq_empty_iff {rules : List StoredIPRule} {appID ip : GoString} :
    checkIPInMemory (some emptySnapshot) appID ip =
        checkIPInMemory (some (loadSnapshot (.ok rules))) appID ip ↔
      ∀ rule ∈ rules, ¬ rule.AppliesTo appID ip := by
  rw [checkIPInMemory_empty, checkIPInMemory]
  cases hip : parseIP ip with
  | none => simp [StoredIPRule.AppliesTo, hip]
  | some clientIP =>
    have happly : ∀ rule : StoredIPRule, rule.AppliesTo appID ip ↔
        (rule.appID = appID ∨ rule.appID = str "default") ∧ rule.Contains clientIP := fun rule => by
      simp [StoredIPRule.AppliesTo, hip]
    simp only [happly, not_and]
    have hnone := @find?_loadSnapshot_eq_none rules appID clientIP
    have hdefault := @find?_loadSnapshot_eq_none rules (str "default") clientIP
    cases hfind : (loadSnapshot (.ok rules) appID).find? (·.covers clientIP) with
    | some cr =>
      rw [hfind] at hnone
      refine iff_of_false (by simp) fun h => ?_
      cases hnone.mpr fun rule hrule happ => h rule hrule (.inl happ)
    | none =>
      have hown := hnone.mp hfind
      by_cases happ : appID = str "default"
      · refine iff_of_true (by simp [happ]) fun rule hrule h => hown rule hrule ?_
        rcases h with h | h
        · exact h
        · exact h.trans happ.symm
      · rw [if_pos happ]
        constructor
        · intro h rule hrule hor
          have hnot : (loadSnapshot (.ok rules) (str "default")).find? (·.covers clientIP) = none := by
            simpa using h.symm
          rcases hor with hor | hor
          · exact hown rule hrule hor
          · exact hdefault.mp hnot rule hrule hor
        · intro h
          rw [hdefault.mpr fun rule hrule hd => h rule hrule (.inr hd)]
          rfl

/-- **A failed reload.** After any history of loads, a call answers from the rules of the last
load that did not fail exactly when no load has failed since, or none of these rules applies to
the address. -/
theorem checkIPInMemory_lastLoaded_iff (loads : List (Except GoString (List StoredIPRule)))
    (appID ip : GoString) :
    (∀ rules, lastLoaded loads = some rules →
        checkIPInMemory (IPAccessService.state loads) appID ip =
          checkIPInMemory (some (loadSnapshot (.ok rules))) appID ip) ↔
      ∀ e, loads.getLast? = some (.error e) →
        ∀ rules, lastLoaded loads = some rules → ∀ rule ∈ rules, ¬ rule.AppliesTo appID ip := by
  cases loads using List.reverseRecOn with
  | nil => simp [lastLoaded]
  | append_singleton loads answer _ =>
    rw [IPAccessService.state_append, lastLoaded_append, List.getLast?_append]
    cases answer with
    | ok rules => simp
    | error e =>
      have hload : loadSnapshot (.error e) = emptySnapshot := rfl
      simp [hload, checkIPInMemory_eq_empty_iff]

/-- A failed reload opens a block list: the address was blocked, and after the error it is not. -/
theorem checkIPInMemory_failed_reload :
    let rule : StoredIPRule := ⟨⟨.block, [], true⟩, 1, str "default", str "203.0.113.0/24"⟩
    let loads := [.ok [rule], .error (str "connection refused")]
    lastLoaded loads = some [rule] ∧
      checkIPInMemory (some (loadSnapshot (.ok [rule]))) (str "shop") (str "203.0.113.7") =
        .ok (some rule) ∧
      checkIPInMemory (IPAccessService.state loads) (str "shop") (str "203.0.113.7") =
        .ok none := by
  decide

end VibesWaf

import VibesWaf.Go.Decimal
import VibesWaf.Go.Url
import VibesWaf.Lib.Separated
import VibesWaf.Management.Routes

/-!
# The dashboard's calls for an application

The client of the dashboard puts the id of an application into the URL of a request as it is, and
the router looks for the words of the API anywhere in the path it gets. The client does not encode
the id, so `a?b` or `..` ends up in another path than the one that was meant; `CarriedID` are the
ids that a URL carries as they are. `arrives_iff` says for which of these each call comes to its
handler: the application of an id that begins with `rules` can neither be changed nor removed, and
one that begins with `ip-access-rules` has no rules either.
-/

namespace VibesWaf

/-- The calls of `ApiClient.apps` for one application. -/
inductive DashboardCall
  | get
  | update
  | delete
  | toggleUnderAttackMode
  | listIPAccessRules
  | createIPAccessRule
  | updateIPAccessRule (id : ℕ)
  | deleteIPAccessRule (id : ℕ)
  | listRules
  | createRule
  | updateRule (id : ℕ)
  | deleteRule (id : ℕ)
  | reorderRules

namespace DashboardCall

/-- What follows the id in the path. -/
def suffix : DashboardCall → GoString
  | .get | .update | .delete => []
  | .toggleUnderAttackMode => str "/under-attack"
  | .listIPAccessRules | .createIPAccessRule => str "/ip-access-rules"
  | .updateIPAccessRule id | .deleteIPAccessRule id => str "/ip-access-rules/" ++ natText id
  | .listRules | .createRule => str "/rules"
  | .updateRule id | .deleteRule id => str "/rules/" ++ natText id
  | .reorderRules => str "/rules/reorder"

/-- The path of a call. -/
def path (app : GoString) (call : DashboardCall) : GoString :=
  str "/api/v1/apps/" ++ app ++ call.suffix

/-- The method of a call. -/
def method : DashboardCall → Method
  | .get | .listIPAccessRules | .listRules => .get
  | .createIPAccessRule | .createRule | .reorderRules => .post
  | .update | .toggleUnderAttackMode | .updateIPAccessRule _ | .updateRule _ => .put
  | .delete | .deleteIPAccessRule _ | .deleteRule _ => .delete

/-- The handler that a call is for. -/
def endpoint : DashboardCall → Endpoint
  | .get => .getApp
  | .update => .updateApp
  | .delete => .deleteApp
  | .toggleUnderAttackMode => .toggleUnderAttackMode
  | .listIPAccessRules => .listIPAccess
  | .createIPAccessRule => .createIPAccess
  | .updateIPAccessRule _ => .updateIPAccess
  | .deleteIPAccessRule _ => .deleteIPAccess
  | .listRules => .listByApp
  | .createRule => .createForApp
  | .updateRule _ => .updateForApp
  | .deleteRule _ => .deleteForApp
  | .reorderRules => .reorderForApp

/-- The id stands in no other call's way. -/
def Clear (app : GoString) : DashboardCall → Prop
  | .get | .toggleUnderAttackMode | .listIPAccessRules | .createIPAccessRule
  | .updateIPAccessRule _ | .deleteIPAccessRule _ => True
  | .update => app ≠ str "under-attack" ∧ hasPrefix app (str "ip-access-rules") = false ∧
      hasPrefix app (str "rules") = false
  | .delete => hasPrefix app (str "ip-access-rules") = false ∧ hasPrefix app (str "rules") = false
  | .listRules | .createRule | .updateRule _ | .deleteRule _ | .reorderRules =>
      hasPrefix app (str "ip-access-rules") = false

end DashboardCall

/-! ### Words of the API in a path -/

variable {a w t app : GoString}

/-- A word with a slash in front does not begin in a text without slashes. -/
theorem contains_append_of_not_mem (ha : 0x2F ∉ a) (t w : GoString) :
    contains (a ++ t) (0x2F :: w) = contains t (0x2F :: w) := by
  induction a with
  | nil => rfl
  | cons c a ih =>
    rw [List.mem_cons, not_or] at ha
    have hhead : hasPrefix (c :: (a ++ t)) (0x2F :: w) = false := by
      simp [hasPrefix, List.isPrefixOf, ha.1]
    rw [List.cons_append, contains, hhead, Bool.false_or]
    exact ih ha.2

theorem contains_of_not_mem (ha : 0x2F ∉ a) (w : GoString) : contains a (0x2F :: w) = false := by
  have happend := contains_append_of_not_mem ha [] w
  rwa [List.append_nil] at happend

/-- A word with a slash in front is found at a slash, or behind it. -/
theorem contains_slash (s w : GoString) :
    contains (0x2F :: s) (0x2F :: w) = (hasPrefix s w || contains s (0x2F :: w)) := by
  rw [contains]
  congr 1

/-- A word without slashes that begins a text ends before the first slash of the text. -/
theorem hasPrefix_append_slash (hw : 0x2F ∉ w) (ht : t = [] ∨ t.head? = some 0x2F) :
    hasPrefix (a ++ t) w = hasPrefix a w := by
  induction a generalizing w with
  | nil =>
    cases w with
    | nil => rfl
    | cons d w =>
      rw [List.mem_cons, not_or] at hw
      rcases ht with rfl | ht
      · rfl
      · obtain ⟨t', rfl⟩ := List.head?_eq_some_iff.mp ht
        simp [hasPrefix, List.isPrefixOf, Ne.symm hw.1]
  | cons c a ih =>
    cases w with
    | nil => simp [hasPrefix]
    | cons d w =>
      rw [List.mem_cons, not_or] at hw
      simp only [hasPrefix, List.cons_append, List.isPrefixOf] at ih ⊢
      rw [ih hw.2]

/-- What stands behind the last slash is what a text ends with. -/
theorem hasSuffix_slash (ha : 0x2F ∉ a) (hw : 0x2F ∉ w) (t : GoString) :
    hasSuffix (t ++ 0x2F :: a) (0x2F :: w) = decide (a = w) := by
  rw [Bool.eq_iff_iff, decide_eq_true_eq, hasSuffix, List.isSuffixOf_iff_suffix]
  constructor
  · rintro ⟨front, hfront⟩
    have hrev : w.reverse ++ 0x2F :: front.reverse = a.reverse ++ 0x2F :: t.reverse := by
      simpa using congrArg List.reverse hfront
    have hcut := (append_sep_inj (by simpa using hw) (by simpa using ha)).mp hrev
    exact (List.reverse_injective hcut.1).symm
  · rintro rfl
    exact List.suffix_append t _

/-! ### The tests of the router -/

/-- A text holds what its end holds. -/
theorem contains_append (s : GoString) (h : contains t w = true) : contains (s ++ t) w = true := by
  induction s with
  | nil => exact h
  | cons c s ih => rw [List.cons_append, contains, ih, Bool.or_true]

/-- The words that the router looks for in a path. -/
def appWords : List GoString :=
  [str "ip-access-rules", str "rules"]

theorem slash_not_mem_appWords : ∀ w ∈ appWords, 0x2F ∉ w := by
  decide

namespace DashboardCall

variable {call : DashboardCall}

/-- The last part of the path. -/
def last (app : GoString) : DashboardCall → GoString
  | .get | .update | .delete => app
  | .toggleUnderAttackMode => str "under-attack"
  | .listIPAccessRules | .createIPAccessRule => str "ip-access-rules"
  | .updateIPAccessRule id | .deleteIPAccessRule id | .updateRule id | .deleteRule id => natText id
  | .listRules | .createRule => str "rules"
  | .reorderRules => str "reorder"

theorem slash_not_mem_natText (n : ℕ) : 0x2F ∉ natText n := fun h =>
  absurd (natText_isDigit n _ h) (by decide)

theorem hasPrefix_natText (n : ℕ) {c : UInt8} (hc : isDigit c = false)
    (h : w.head? = some c) : hasPrefix (natText n) w = false := by
  obtain ⟨rest, rfl⟩ := List.head?_eq_some_iff.mp h
  rw [← Bool.not_eq_true]
  intro hprefix
  obtain ⟨t, ht⟩ := exists_append_of_hasPrefix hprefix
  have hdigit := natText_isDigit n c (by rw [ht]; exact List.mem_cons_self)
  rw [hc] at hdigit
  cases hdigit

theorem slash_not_mem_last (ha : 0x2F ∉ app) : 0x2F ∉ call.last app := by
  cases call with
  | get | update | delete => exact ha
  | updateIPAccessRule id | deleteIPAccessRule id | updateRule id | deleteRule id =>
    exact slash_not_mem_natText id
  | _ => exact of_decide_eq_true rfl

theorem suffix_head : call.suffix = [] ∨ call.suffix.head? = some 0x2F := by
  cases call with
  | get | update | delete => exact Or.inl rfl
  | _ => exact Or.inr rfl

theorem path_eq_last (app : GoString) (call : DashboardCall) :
    ∃ front, call.path app = front ++ 0x2F :: call.last app := by
  cases call with
  | get | update | delete => exact ⟨str "/api/v1/apps", by simp [path, suffix, last]; rfl⟩
  | toggleUnderAttackMode | listIPAccessRules | createIPAccessRule | listRules | createRule =>
    exact ⟨str "/api/v1/apps/" ++ app, rfl⟩
  | updateIPAccessRule id | deleteIPAccessRule id =>
    exact ⟨str "/api/v1/apps/" ++ app ++ str "/ip-access-rules", by simp [path, suffix, last]; rfl⟩
  | updateRule id | deleteRule id | reorderRules =>
    exact ⟨str "/api/v1/apps/" ++ app ++ str "/rules", by simp [path, suffix, last]; rfl⟩

theorem exactly_path : exactly "/api/v1/apps" (call.path app) = false := by
  rw [exactly, decide_eq_false_iff_not]
  intro h
  have hlength := congrArg List.length h
  have hfront : (str "/api/v1/apps/").length = 13 := rfl
  have happs : (str "/api/v1/apps").length = 12 := rfl
  rw [path, List.length_append, List.length_append] at hlength
  omega

theorem under_path : under "/api/v1/apps/" (call.path app) = true := by
  rw [under, path, List.append_assoc]
  exact hasPrefix_append _ _

theorem namesApp_path (ha : 0x2F ∉ app) :
    namesApp (call.path app) = decide (call.suffix = []) := by
  rw [namesApp, under_path, Bool.true_and, path, List.append_assoc, List.drop_left, str_slash,
    contains_append_of_not_mem ha]
  rcases suffix_head with hnil | hslash
  · rw [hnil]
    rfl
  · obtain ⟨rest, hrest⟩ := List.head?_eq_some_iff.mp hslash
    rw [hrest, contains_slash]
    simp [hasPrefix, List.isPrefixOf]

theorem ending_path (ha : 0x2F ∉ app) (hw : 0x2F ∉ w) {word : String} (h : str word = 0x2F :: w) :
    ending word (call.path app) = decide (call.last app = w) := by
  obtain ⟨front, hfront⟩ := path_eq_last app call
  rw [ending, h, hfront, hasSuffix_slash (slash_not_mem_last ha) hw]

theorem holding_path (ha : 0x2F ∉ app) (hw : w ∈ appWords) {word : String}
    (h : str word = 0x2F :: w) :
    holding word (call.path app) = (hasPrefix app w || contains call.suffix (0x2F :: w)) := by
  have hfront : ∀ rest, contains (str "/api/v1/apps/" ++ rest) (0x2F :: w) =
      (hasPrefix rest w || contains rest (0x2F :: w)) := by
    intro rest
    simp only [appWords, List.mem_cons, List.not_mem_nil, or_false] at hw
    rcases hw with rfl | rfl <;> rfl
  rw [holding, h, path, List.append_assoc, hfront, contains_append_of_not_mem ha,
    hasPrefix_append_slash (slash_not_mem_appWords w hw) suffix_head]

theorem underAttack_path (ha : 0x2F ∉ app) : ending "/under-attack" (call.path app) =
    decide (call.last app = str "under-attack") :=
  ending_path ha (by decide) rfl

theorem accessRules_path (ha : 0x2F ∉ app) : holding "/ip-access-rules" (call.path app) =
    (hasPrefix app (str "ip-access-rules") || contains call.suffix (str "/ip-access-rules")) :=
  holding_path ha (by simp [appWords]) rfl

theorem rules_path (ha : 0x2F ∉ app) : holding "/rules" (call.path app) =
    (hasPrefix app (str "rules") || contains call.suffix (str "/rules")) :=
  holding_path ha (by simp [appWords]) rfl

end DashboardCall

theorem Route.matches_text (route : Route) (path : GoString) (method : Method) :
    route.matches path method.text = (route.path path && decide (method = route.method)) := by
  rw [Route.matches]
  congr 2
  cases method <;> cases route.method <;> decide

theorem mem_of_dispatch {routes : List Route} {path method : GoString} {endpoint : Endpoint}
    (h : dispatch routes path method = some endpoint) : endpoint ∈ routes.map Route.endpoint := by
  rw [dispatch, Option.map_eq_some_iff] at h
  obtain ⟨route, hfind, rfl⟩ := h
  exact List.mem_map_of_mem (List.mem_of_find?_eq_some hfind)

namespace DashboardCall

variable {call : DashboardCall}

/-- The call is for the access rules of the application. -/
def forAccessRules : DashboardCall → Bool
  | .listIPAccessRules | .createIPAccessRule | .updateIPAccessRule _ | .deleteIPAccessRule _ => true
  | _ => false

/-- The call is for the rules of the application. -/
def forRules : DashboardCall → Bool
  | .listRules | .createRule | .updateRule _ | .deleteRule _ | .reorderRules => true
  | _ => false

/-- What decides before a family of the application is looked for. -/
theorem dispatch_before (ha : 0x2F ∉ app) :
    dispatch appRoutesBefore (call.path app) call.method.text =
      if call.method = .get ∧ call.suffix = [] then some .getApp
      else if call.method = .put ∧ call.last app = str "under-attack" then
        some .toggleUnderAttackMode
      else none := by
  simp only [dispatch, appRoutesBefore, List.find?, Route.matches_text, exactly_path,
    namesApp_path ha, underAttack_path ha, Bool.false_and, ← Bool.decide_and]
  by_cases hsuffix : call.suffix = [] <;> by_cases hlast : call.last app = str "under-attack" <;>
    cases call.method <;> simp [hsuffix, hlast]

theorem contains_suffix_accessRules :
    contains call.suffix (str "/ip-access-rules") = call.forAccessRules := by
  cases call with
  | updateRule id | deleteRule id =>
    have hrules : ∀ rest, contains (str "/rules/" ++ rest) (str "/ip-access-rules") =
        (hasPrefix rest (str "ip-access-rules") || contains rest (str "/ip-access-rules")) :=
      fun _ => rfl
    have hdigits : contains (natText id) (str "/ip-access-rules") = false :=
      contains_of_not_mem (slash_not_mem_natText id) _
    rw [suffix, hrules, hasPrefix_natText id (by decide) rfl, hdigits]
    rfl
  | _ => rfl

theorem contains_suffix_rules (h : call.forAccessRules = false) :
    contains call.suffix (str "/rules") = call.forRules := by
  cases call with
  | updateIPAccessRule id | deleteIPAccessRule id => cases h
  | _ => rfl

/-- The routes of the access rules serve the calls for them, and no others. -/
theorem dispatch_accessRules (ha : 0x2F ∉ app) :
    dispatch appIPAccessRoutes (call.path app) call.method.text = some call.endpoint ↔
      call.forAccessRules = true := by
  constructor
  · intro h
    have hmem := mem_of_dispatch h
    revert hmem
    cases call <;> simp [appIPAccessRoutes, endpoint, forAccessRules]
  · intro h
    have hlast : ending "/ip-access-rules" (call.path app) =
        decide (call.last app = str "ip-access-rules") :=
      ending_path ha (slash_not_mem_appWords (str "ip-access-rules") (by simp [appWords])) rfl
    have hholding : ∀ {id}, call = updateIPAccessRule id ∨ call = deleteIPAccessRule id →
        holding "/ip-access-rules/" (call.path app) = true := by
      rintro id (rfl | rfl) <;> exact contains_append _ rfl
    cases call <;> simp [forAccessRules] at h <;>
      simp [dispatch, appIPAccessRoutes, Route.matches_text, hlast, hholding, method, endpoint,
        last]

/-- A path with `/rules/reorder` at its end has `reorder` as its last part. -/
theorem last_of_ending_reorder (ha : 0x2F ∉ app)
    (h : ending "/rules/reorder" (call.path app) = true) : call.last app = str "reorder" := by
  have hreorder : ending "/reorder" (call.path app) = decide (call.last app = str "reorder") :=
    ending_path ha (by decide) rfl
  refine of_decide_eq_true (hreorder ▸ ?_)
  rw [ending, hasSuffix, List.isSuffixOf_iff_suffix] at h ⊢
  exact List.IsSuffix.trans ⟨str "/rules", rfl⟩ h

/-- The routes of the rules serve the calls for them, and no others. -/
theorem dispatch_rules (ha : 0x2F ∉ app) :
    dispatch appRuleRoutes (call.path app) call.method.text = some call.endpoint ↔
      call.forRules = true := by
  constructor
  · intro h
    have hmem := mem_of_dispatch h
    revert hmem
    cases call <;> simp [appRuleRoutes, endpoint, forRules]
  · intro h
    have hlast : ending "/rules" (call.path app) = decide (call.last app = str "rules") :=
      ending_path ha (slash_not_mem_appWords (str "rules") (by simp [appWords])) rfl
    have hholding : ∀ {id}, call = updateRule id ∨ call = deleteRule id →
        holding "/rules/" (call.path app) = true := by
      rintro id (rfl | rfl) <;> exact contains_append _ rfl
    cases call with
    | listRules | updateRule | deleteRule =>
      simp [dispatch, appRuleRoutes, Route.matches_text, hlast, hholding, method, endpoint, last]
    | createRule =>
      have hreorder : ending "/rules/reorder" (createRule.path app) = false := by
        rw [← Bool.not_eq_true]
        intro hending
        have hlast : str "rules" = str "reorder" := last_of_ending_reorder ha hending
        exact absurd hlast (by decide)
      simp [dispatch, appRuleRoutes, Route.matches_text, hlast, hreorder, method, endpoint, last]
    | reorderRules =>
      have hreorder : ending "/rules/reorder" (reorderRules.path app) = true := by
        rw [ending, hasSuffix, List.isSuffixOf_iff_suffix]
        exact List.suffix_append _ _
      simp [dispatch, appRuleRoutes, Route.matches_text, hreorder, method, endpoint]
    | _ => cases h

/-- The routes of the application serve the other calls. -/
theorem dispatch_after :
    dispatch appRoutesAfter (call.path app) call.method.text = some call.endpoint ↔
      call = .get ∨ call = .update ∨ call = .delete := by
  cases call <;>
    simp [dispatch, appRoutesAfter, Route.matches_text, under_path, method, endpoint]

theorem handleAppRoutes_of_before {path method : GoString} {e : Endpoint}
    (h : dispatch appRoutesBefore path method = some e) :
    handleAppRoutes path method = some e := by
  rw [handleAppRoutes, h]

/-- A call that is not decided before goes by the first family whose word stands in the path. -/
theorem handleAppRoutes_iff (ha : 0x2F ∉ app)
    (h : dispatch appRoutesBefore (call.path app) call.method.text = none) :
    handleAppRoutes (call.path app) call.method.text = some call.endpoint ↔
      call.forAccessRules = true ∨ hasPrefix app (str "ip-access-rules") = false ∧
        (call.forRules = true ∨ hasPrefix app (str "rules") = false ∧
          (call = .get ∨ call = .update ∨ call = .delete)) := by
  have hafter : dispatch appRoutesAfter (call.path app) call.method.text = some call.endpoint ↔
      call = .get ∨ call = .update ∨ call = .delete := dispatch_after
  simp only [handleAppRoutes, h, ← dispatch_accessRules ha, ← dispatch_rules ha, ← hafter,
    accessRules_path ha, contains_suffix_accessRules]
  split
  next haccess =>
    rw [Bool.or_eq_true, ← dispatch_accessRules ha] at haccess
    rcases haccess with hname | hcall
    · simp [hname]
    · simp [hcall]
  next haccess =>
    rw [Bool.not_eq_true, Bool.or_eq_false_iff] at haccess
    have hother := haccess.2
    rw [← Bool.not_eq_true, ← dispatch_accessRules ha] at hother
    rw [rules_path ha, contains_suffix_rules haccess.2]
    split
    next hrules =>
      rw [Bool.or_eq_true, ← dispatch_rules ha] at hrules
      rcases hrules with hname | hcall
      · simp [hother, haccess.1, hname]
      · simp [haccess.1, hcall]
    next hrules =>
      rw [Bool.not_eq_true, Bool.or_eq_false_iff] at hrules
      have hothers := hrules.2
      rw [← Bool.not_eq_true, ← dispatch_rules ha] at hothers
      simp [hother, hothers, haccess.1, hrules.1]

end DashboardCall

open DashboardCall in
/-- The router takes the path of a call to its handler exactly when the id of the application stands
in no other's way. -/
theorem handleAppRoutes_path_iff (ha : 0x2F ∉ app) (call : DashboardCall) :
    handleAppRoutes (call.path app) call.method.text = some call.endpoint ↔ call.Clear app := by
  have hbefore : dispatch appRoutesBefore (call.path app) call.method.text = _ :=
    dispatch_before ha
  have hdigits : ∀ n, natText n ≠ str "under-attack" := by
    intro n hn
    have hhead := hasPrefix_natText n (w := str "under-attack") (c := 0x75) (by decide) rfl
    rw [hn] at hhead
    cases hhead
  cases call with
  | get =>
    rw [handleAppRoutes_of_before (e := .getApp) (hbefore.trans (by simp [method, suffix]))]
    simp [endpoint, Clear]
  | toggleUnderAttackMode =>
    rw [handleAppRoutes_of_before (e := .toggleUnderAttackMode)
      (hbefore.trans (by simp [method, last]))]
    simp [endpoint, Clear]
  | update =>
    by_cases happ : app = str "under-attack"
    · rw [handleAppRoutes_of_before (e := .toggleUnderAttackMode)
        (hbefore.trans (by simp [method, last, happ]))]
      simp [endpoint, Clear, happ]
    · rw [handleAppRoutes_iff ha (hbefore.trans (by simp [method, last, happ]))]
      simp [forAccessRules, forRules, Clear, happ]
  | listIPAccessRules | listRules =>
    rw [handleAppRoutes_iff ha (hbefore.trans rfl)]
    simp [forAccessRules, forRules, Clear]
  | createIPAccessRule | createRule | delete | deleteIPAccessRule | deleteRule | reorderRules =>
    rw [handleAppRoutes_iff ha (hbefore.trans (by simp [method]))]
    simp [forAccessRules, forRules, Clear]
  | updateIPAccessRule id | updateRule id =>
    rw [handleAppRoutes_iff ha (hbefore.trans (by simp [method, last, hdigits id]))]
    simp [forAccessRules, forRules, Clear]

/-! ### From the browser to the router -/

/-- A byte that stands for itself in one part of a path: neither `fetch` nor `net/url` reads
anything else in it. -/
def isSegmentByte (c : UInt8) : Bool :=
  isAlphanum c || c ∈ str "-._~!$&'()*+,;=:@"

/-- An id that a URL carries as it is: no slash or backslash, no question mark or fragment sign,
nothing that is encoded or decoded on the way, and no dot segment. -/
structure CarriedID (app : GoString) : Prop where
  bytes : ∀ c ∈ app, isSegmentByte c = true
  not_dots : app ≠ str "." ∧ app ≠ str ".."

/-- The parts of a path without its dot segments, behind the parts that were kept, the last one
first. A dot segment at the end leaves an empty part. -/
def withoutDots : List GoString → List GoString → List GoString
  | kept, [] => kept.reverse
  | kept, part :: parts =>
    if part = str ".." then withoutDots (if parts = [] then [] :: kept.tail else kept.tail) parts
    else if part = str "." then withoutDots (if parts = [] then [] :: kept else kept) parts
    else withoutDots (part :: kept) parts

/-- The path that `fetch` sends for a path of slashes and bytes that stand for themselves: all that
the URL Standard has a browser do with it is to resolve the dot segments. -/
def fetchPath (path : GoString) : GoString :=
  0x2F :: [0x2F].intercalate (withoutDots [] ((path.drop 1).splitOn 0x2F))

theorem withoutDots_of_plain {kept parts : List GoString}
    (h : ∀ part ∈ parts, part ≠ str "." ∧ part ≠ str "..") :
    withoutDots kept parts = kept.reverse ++ parts := by
  induction parts generalizing kept with
  | nil => rw [withoutDots, List.append_nil]
  | cons part parts ih =>
    obtain ⟨hdot, hdots⟩ := h part List.mem_cons_self
    rw [withoutDots, if_neg hdots, if_neg hdot, ih fun p hp => h p (List.mem_cons_of_mem _ hp),
      List.reverse_cons, List.append_assoc]
    rfl

theorem fetchPath_of_plain {path rest : GoString} (hpath : path = 0x2F :: rest)
    (h : ∀ part ∈ rest.splitOn 0x2F, part ≠ str "." ∧ part ≠ str "..") :
    fetchPath path = path := by
  rw [fetchPath, hpath, List.drop_one, List.tail_cons, withoutDots_of_plain h, List.reverse_nil,
    List.nil_append, List.intercalate_splitOn]

/-- The rules of an application called `..` would be all rules. -/
example : fetchPath (DashboardCall.listRules.path (str "..")) = str "/api/v1/rules" := by
  decide

theorem isSegmentByte_spec : ∀ c : UInt8, isSegmentByte c = true →
    c ≠ 0x2F ∧ c ≠ 0x3F ∧ c ≠ 0x25 ∧ 0x20 ≤ c ∧ c ≠ 0x7F := by
  decide +kernel

/-- The slash parts a path, and the other bytes stand for themselves. -/
def isPlainPath (path : GoString) : Bool :=
  path.all fun c => c == 0x2F || isSegmentByte c

/-- A plain path is read by `net/url` as it is. -/
theorem requestURL_of_plainPath [GoLib] {path : GoString} (hslash : path.head? = some 0x2F)
    (hplain : isPlainPath path = true) (method : GoString) :
    ∃ url, requestURL method path = some url ∧ url.path = path := by
  have hbyte : ∀ c ∈ path, c ≠ 0x3F ∧ c ≠ 0x25 ∧ 0x20 ≤ c ∧ c ≠ 0x7F := by
    intro c hc
    have hc' := List.all_eq_true.mp hplain c hc
    rw [Bool.or_eq_true, beq_iff_eq] at hc'
    rcases hc' with rfl | hsegment
    · decide
    · exact (isSegmentByte_spec c hsegment).2
  refine requestURL_of_plain hslash ?_ (fun h => (hbyte _ h).1 rfl) (fun h => (hbyte _ h).2.1 rfl) _
  refine List.any_eq_false.mpr fun c hc => ?_
  obtain ⟨-, -, hlow, hdel⟩ := hbyte c hc
  simpa [hdel] using hlow

theorem isPlainPath_append (s t : GoString) :
    isPlainPath (s ++ t) = (isPlainPath s && isPlainPath t) :=
  List.all_append

theorem isPlainPath_natText (n : ℕ) : isPlainPath (natText n) = true := by
  refine List.all_eq_true.mpr fun c hc => ?_
  have hdigit := natText_isDigit n c hc
  rw [isDigit] at hdigit
  rw [isSegmentByte, isAlphanum, hdigit, Bool.or_true, Bool.true_or, Bool.or_true]

theorem natText_ne_dots (n : ℕ) : natText n ≠ str "." ∧ natText n ≠ str ".." := by
  have hdot : 0x2E ∉ natText n := fun h => absurd (natText_isDigit n _ h) (by decide)
  refine ⟨fun h => hdot (by rw [h]; decide), fun h => hdot (by rw [h]; decide)⟩

namespace CarriedID

theorem slash_not_mem (h : CarriedID app) : 0x2F ∉ app := fun hmem =>
  (isSegmentByte_spec _ (h.bytes _ hmem)).1 rfl

theorem isPlainPath (h : CarriedID app) : isPlainPath app = true :=
  List.all_eq_true.mpr fun c hc => by rw [h.bytes c hc, Bool.or_true]

end CarriedID

namespace DashboardCall

variable {call : DashboardCall}

theorem isPlainPath_path (h : CarriedID app) : isPlainPath (call.path app) = true := by
  have hfront : isPlainPath (str "/api/v1/apps/") = true := by decide
  rw [path, isPlainPath_append, isPlainPath_append, hfront, h.isPlainPath, Bool.true_and,
    Bool.true_and]
  cases call with
  | updateIPAccessRule id | deleteIPAccessRule id | updateRule id | deleteRule id =>
    rw [suffix, isPlainPath_append, isPlainPath_natText, Bool.and_true]
    decide
  | _ => decide

/-- What follows the id holds no dot segment. -/
theorem suffix_parts (call : DashboardCall) :
    call.suffix = [] ∨ ∃ rest, call.suffix = 0x2F :: rest ∧
      ∀ part ∈ rest.splitOn 0x2F, part ≠ str "." ∧ part ≠ str ".." := by
  have hid (word : GoString) (n : ℕ) (hword : 0x2F ∉ word)
      (hdots : word ≠ str "." ∧ word ≠ str "..") :
      ∀ part ∈ (word ++ 0x2F :: natText n).splitOn 0x2F, part ≠ str "." ∧ part ≠ str ".." := by
    rw [List.splitOn_append_cons_self, List.splitOn_eq_singleton hword,
      List.splitOn_eq_singleton (slash_not_mem_natText n)]
    intro part hpart
    rcases List.mem_pair.mp hpart with rfl | rfl
    · exact hdots
    · exact natText_ne_dots n
  cases call with
  | get | update | delete => exact .inl rfl
  | updateIPAccessRule id | deleteIPAccessRule id =>
    exact .inr ⟨str "ip-access-rules" ++ 0x2F :: natText id, rfl,
      hid _ id (by decide) (by decide)⟩
  | updateRule id | deleteRule id =>
    exact .inr ⟨str "rules" ++ 0x2F :: natText id, rfl, hid _ id (by decide) (by decide)⟩
  | _ => exact .inr ⟨_, rfl, by decide⟩

/-- The browser sends the path of a call as it is. -/
theorem fetchPath_path (h : CarriedID app) : fetchPath (call.path app) = call.path app := by
  have hpath : call.path app =
      0x2F :: (str "api" ++ 0x2F :: (str "v1" ++ 0x2F :: (str "apps" ++ 0x2F ::
        (app ++ call.suffix)))) := by
    rw [path, List.append_assoc]
    rfl
  refine fetchPath_of_plain hpath ?_
  rw [List.splitOn_append_cons_self, List.splitOn_append_cons_self, List.splitOn_append_cons_self,
    List.splitOn_eq_singleton (by decide), List.splitOn_eq_singleton (by decide),
    List.splitOn_eq_singleton (by decide)]
  have hid : ∀ part ∈ (app ++ call.suffix).splitOn 0x2F, part ≠ str "." ∧ part ≠ str ".." := by
    rcases suffix_parts call with hnil | ⟨rest, hrest, hparts⟩
    · rw [hnil, List.append_nil, List.splitOn_eq_singleton h.slash_not_mem]
      intro part hpart
      rw [List.mem_singleton.mp hpart]
      exact h.not_dots
    · rw [hrest, List.splitOn_append_cons_self, List.splitOn_eq_singleton h.slash_not_mem]
      intro part hpart
      rcases List.mem_cons.mp hpart with rfl | hpart
      · exact h.not_dots
      · exact hparts part hpart
  intro part hpart
  simp only [List.singleton_append, List.mem_cons] at hpart
  rcases hpart with rfl | rfl | rfl | hpart
  · decide
  · decide
  · decide
  · exact hid part hpart

/-- The calls for an application go to the family of the applications. -/
theorem apiFamily_path (app method : GoString) :
    apiFamily (call.path app) method = .behindSession (handleAppRoutes (call.path app) method) := by
  have hauth : under "/api/v1/auth" (call.path app) = false := by
    rw [path, List.append_assoc]
    rfl
  have hrules : under "/api/v1/rules" (call.path app) = false := by
    rw [path, List.append_assoc]
    rfl
  have happs : under "/api/v1/apps" (call.path app) = true := by
    rw [path, List.append_assoc]
    rfl
  rw [apiFamily, hauth, if_neg Bool.false_ne_true, hrules, if_neg Bool.false_ne_true, happs,
    if_pos rfl]

variable [GoLib]

/-- The request of a call comes to the handler it is for. -/
def Arrives (app : GoString) (call : DashboardCall) : Prop :=
  ∃ url, requestURL call.method.text (fetchPath (call.path app)) = some url ∧
    apiFamily url.path call.method.text = .behindSession (some call.endpoint)

/-- **Which calls arrive.** For an id that a URL carries as it is, a call of the client comes to its
handler exactly when the id stands in no other's way. -/
theorem arrives_iff (h : CarriedID app) (call : DashboardCall) :
    call.Arrives app ↔ call.Clear app := by
  have hslash : (call.path app).head? = some 0x2F := by
    rw [path, List.append_assoc]
    rfl
  obtain ⟨url, hurl, hpath⟩ := requestURL_of_plainPath hslash (isPlainPath_path h) call.method.text
  rw [Arrives, fetchPath_path h, hurl]
  simp only [Option.some.injEq, exists_eq_left']
  rw [hpath, apiFamily_path, ApiFamily.behindSession.injEq]
  exact handleAppRoutes_path_iff h.slash_not_mem call

end DashboardCall

section Evaluated

attribute [local instance] asciiLib

/-- The application of the rules' own name stays, and its rules can be read. -/
theorem arrives_iff_rules :
    ¬ DashboardCall.delete.Arrives (str "rules") ∧
      DashboardCall.listRules.Arrives (str "rules") := by
  have hcarried : CarriedID (str "rules") := ⟨by decide +kernel, by decide⟩
  refine ⟨fun h => absurd ((DashboardCall.arrives_iff hcarried .delete).mp h).2 (by decide), ?_⟩
  exact (DashboardCall.arrives_iff hcarried .listRules).mpr
    (by rw [DashboardCall.Clear]; decide)

end Evaluated

end VibesWaf

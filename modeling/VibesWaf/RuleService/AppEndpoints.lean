import VibesWaf.Rule.Engine
import VibesWaf.RuleService.Repository

/-!
# The rule endpoints of an application

`CreateForApp`, `UpdateForApp`, `DeleteForApp` and `ReorderForApp` take the application from the
path of the request. The first makes the rule one of that application, the next two check that the
rule belongs to it, and the last hands the ids of the body to the service as they are. The body of
an update may carry any scope.

`handle_isolated_iff` says when a request to the endpoints of one application leaves the merged
rules of every other one as they are.
-/

namespace VibesWaf

section Endpoints

variable [GoLib]

/-! ### Requests -/

/-- `RuleCreateRequest` and `RuleUpdateRequest`, which have the same fields. -/
structure RuleBody where
  name : GoString
  scope : GoString
  appID : GoString
  ruleGroup : GoString
  expressionRaw : GoString
  action : GoString
  skipModules : Option (List GoString)
  priority : Int
  enabled : Bool
  description : GoString
  deriving DecidableEq

/-- A request to one of the endpoints; a body is `none` if it cannot be decoded. -/
inductive AppRulesRequest
  | createForApp (path : GoString) (body : Option RuleBody)
  | updateForApp (path : GoString) (body : Option RuleBody)
  | deleteForApp (path : GoString)
  | reorderForApp (path : GoString) (body : Option (List Int))

/-- What a handler answers. -/
inductive RuleResponse
  | error (status : ℕ) (message : GoString)
  | rule (status : ℕ) (r : StoredRule)
  | success (message : GoString)

/-- What follows the first occurrence of a separator. -/
def afterFirst (sep : GoString) : GoString → Option GoString
  | [] => if sep = [] then some [] else none
  | c :: s => if hasPrefix (c :: s) sep then some ((c :: s).drop sep.length) else afterFirst sep s

/-- `extractAppIDFromRulePath`. -/
def extractAppIDFromRulePath (path : GoString) : GoString :=
  (split (trimPrefix path (str "/api/v1/apps/")) 0x2F).headD []

/-- `extractIDFromRuleAppPath`: the id ends at the next slash, which also begins a second
`/rules/`. -/
def extractIDFromRuleAppPath (path : GoString) : Option Int :=
  match afterFirst (str "/rules/") path with
  | none => none
  | some rest => (parseInt64 (cut rest 0x2F).1).map Int64.toInt

namespace AppRulesRequest

/-- The path of a request. -/
def path : AppRulesRequest → GoString
  | .createForApp path _ => path
  | .updateForApp path _ => path
  | .deleteForApp path => path
  | .reorderForApp path _ => path

/-- The application of a request. -/
def app (req : AppRulesRequest) : GoString :=
  extractAppIDFromRulePath req.path

end AppRulesRequest

/-! ### The service -/

/-- The record of a rule with its compiled expression. -/
def RuleBody.rule (b : RuleBody) (id : Int) (ast : Node) : StoredRule where
  id := id
  appID := b.appID
  name := b.name
  scope := b.scope
  ruleGroup := b.ruleGroup
  expressionRaw := b.expressionRaw
  ast := ast
  action := b.action
  skipModules := b.skipModules
  priority := b.priority
  enabled := b.enabled
  description := b.description

namespace RuleTable

/-- `CreateRule`, on the table. -/
def createRule (t : RuleTable) (b : RuleBody) : Except GoString (RuleTable × StoredRule) :=
  match compileExpression b.expressionRaw with
  | .error e => .error (str "invalid expression: " ++ e.text)
  | .ok ast =>
    match t.create (b.rule 0 ast) with
    | some created => .ok created
    | none =>
      .error (str "failed to create rule: " ++
        if b.scope = str "global" then str "scope 'global' is not allowed"
        else str "failed to create rule")

/-- `UpdateRule`, on the table; it returns the record it was asked to write. -/
def updateRule (t : RuleTable) (id : Int) (b : RuleBody) :
    Except GoString (RuleTable × StoredRule) :=
  match compileExpression b.expressionRaw with
  | .error e => .error (str "invalid expression: " ++ e.text)
  | .ok ast =>
    match t.update (b.rule id ast) with
    | some t => .ok (t, b.rule id ast)
    | none =>
      .error (str "failed to update rule: " ++
        if t.getByID id = none then str "rule not found" else str "failed to update rule")

/-- `DeleteRule`, on the table. -/
def deleteRule (t : RuleTable) (id : Int) : Except GoString RuleTable :=
  match t.getByID id with
  | none => .error (str "failed to get rule: rule not found")
  | some _ =>
    match t.delete id with
    | some t => .ok t
    | none => .error (str "failed to delete rule: rule not found")

/-- The loop of `ReorderRules` from a position on: a rule that is not found is skipped. -/
def reorderFrom (t : RuleTable) : ℕ → List Int → RuleTable × Option GoString
  | _, [] => (t, none)
  | i, id :: ids =>
    match t.getByID id with
    | none => t.reorderFrom (i + 1) ids
    | some r =>
      match t.update { r with priority := ((i : Int) + 1) * 10 } with
      | none => (t, some (str "failed to update rule"))
      | some t => t.reorderFrom (i + 1) ids

/-! ### The handlers -/

/-- `CreateForApp`. -/
def createForApp (t : RuleTable) (path : GoString) (body : Option RuleBody) :
    RuleTable × RuleResponse :=
  let appID := extractAppIDFromRulePath path
  if appID = [] then (t, .error 400 (str "app_id is required"))
  else
    match body with
    | none => (t, .error 400 (str "Invalid request body"))
    | some req =>
      if req.name = [] ∨ req.expressionRaw = [] ∨ req.action = [] then
        (t, .error 400 (str "Missing required fields"))
      else
        match t.createRule { req with scope := str "app", appID := appID } with
        | .error e => (t, .error 400 e)
        | .ok (t, r) => (t, .rule 201 r)

/-- The rule of the path, if it belongs to the application of the path. -/
def ownedRule (t : RuleTable) (path : GoString) : Except RuleResponse StoredRule :=
  let appID := extractAppIDFromRulePath path
  if appID = [] then .error (.error 400 (str "app_id is required"))
  else
    match extractIDFromRuleAppPath path with
    | none => .error (.error 400 (str "Invalid rule ID"))
    | some id =>
      match t.getByID id with
      | none => .error (.error 404 (str "security rule not found"))
      | some existing =>
        if existing.appID ≠ appID then .error (.error 404 (str "security rule not found"))
        else .ok existing

/-- `UpdateForApp`: the scope, and the application to invalidate, are those of the body. -/
def updateForApp (t : RuleTable) (path : GoString) (body : Option RuleBody) :
    RuleTable × RuleResponse :=
  match t.ownedRule path with
  | .error e => (t, e)
  | .ok existing =>
    match body with
    | none => (t, .error 400 (str "Invalid request body"))
    | some req =>
      match t.updateRule existing.id req with
      | .error e => (t, .error 400 e)
      | .ok (t, r) => (t, .rule 200 r)

/-- `DeleteForApp`. -/
def deleteForApp (t : RuleTable) (path : GoString) : RuleTable × RuleResponse :=
  match t.ownedRule path with
  | .error e => (t, e)
  | .ok existing =>
    match t.deleteRule existing.id with
    | .error e => (t, .error 500 e)
    | .ok t => (t, .success (str "Rule deleted successfully"))

/-- `ReorderForApp`. -/
def reorderForApp (t : RuleTable) (path : GoString) (body : Option (List Int)) :
    RuleTable × RuleResponse :=
  if extractAppIDFromRulePath path = [] then (t, .error 400 (str "app_id is required"))
  else
    match body with
    | none => (t, .error 400 (str "Invalid request body"))
    | some ruleIDs =>
      match t.reorderFrom 0 ruleIDs with
      | (t, some e) => (t, .error 500 e)
      | (t, none) => (t, .success (str "Rules reordered successfully"))

/-- The handler of a request. -/
def handle (t : RuleTable) : AppRulesRequest → RuleTable × RuleResponse
  | .createForApp path body => t.createForApp path body
  | .updateForApp path body => t.updateForApp path body
  | .deleteForApp path => t.deleteForApp path
  | .reorderForApp path body => t.reorderForApp path body

end RuleTable

/-- The priority that a list of ids gives to an id: that of its last position. -/
def lastPriority : ℕ → List Int → Int → Option Int
  | _, [], _ => none
  | i, k :: ks, id =>
    (lastPriority (i + 1) ks id).or (if k = id then some (((i : Int) + 1) * 10) else none)

/-- The request leaves alone what applications other than its own see: an update neither touches
nor makes an enabled managed rule unless it leaves it as it is, a deletion is not of an enabled
managed rule, and a reordering gives every rule that another application sees the priority it
has. -/
def AppRulesRequest.Contained (t : RuleTable) : AppRulesRequest → Prop
  | .createForApp _ _ => True
  | .updateForApp path body =>
    ∀ old req ast, t.ownedRule path = .ok old → body = some req →
      compileExpression req.expressionRaw = .ok ast → req.skipModules ≠ none →
      (old.managed ∨ (RuleTable.written (req.rule old.id ast) old).managed) →
      RuleTable.written (req.rule old.id ast) old = old
  | .deleteForApp path => ∀ old, t.ownedRule path = .ok old → old.managed = false
  | .reorderForApp path body =>
    ∀ ids, extractAppIDFromRulePath path ≠ [] → body = some ids →
      ∀ r ∈ t.rows, (∃ app, app ≠ extractAppIDFromRulePath path ∧ (r.seenBy app).isSome) →
        ∀ p, lastPriority 0 ids r.id = some p → p = r.priority

/-! ### What other applications see -/

namespace RuleTable

variable {t t' : RuleTable} {app other : GoString}

omit [GoLib] in
/-- Of a rule with another application only a managed one is seen. -/
private theorem seenBy_of_ne {r : StoredRule} (h : r.appID ≠ other) :
    r.seenBy other = if r.managed then some r.withoutApp else none := by
  have happ : ¬ r.ofApp other = true := by simp [StoredRule.ofApp, h]
  rw [StoredRule.seenBy, if_neg happ]

omit [GoLib] in
private theorem exists_ne (app : GoString) : ∃ other, other ≠ app :=
  ⟨0x2F :: app, List.cons_ne_self _ _⟩

omit [GoLib] in
/-- Two versions of a rule of an application look the same to every other one exactly when neither
is managed or they are the same. -/
private theorem seenBy_eq_iff {old new : StoredRule} (happ : new.appID = old.appID) :
    (∀ other, other ≠ old.appID → old.seenBy other = new.seenBy other) ↔
      (old.managed ∨ new.managed → new = old) := by
  have hseen : ∀ other, other ≠ old.appID → (old.seenBy other = new.seenBy other ↔
      (if old.managed then some old.withoutApp else none) =
        if new.managed then some new.withoutApp else none) := fun other hother => by
    rw [seenBy_of_ne hother.symm, seenBy_of_ne (happ ▸ hother.symm)]
  constructor
  · intro h hmanaged
    obtain ⟨other, hother⟩ := exists_ne old.appID
    have heq := (hseen other hother).mp (h other hother)
    have hboth : old.withoutApp = new.withoutApp := by
      cases hold : old.managed <;> cases hnew : new.managed <;> simp_all
    calc new = { new.withoutApp with appID := new.appID } := rfl
      _ = { old.withoutApp with appID := old.appID } := by rw [hboth, happ]
      _ = old := rfl
  · intro h other hother
    rw [hseen other hother]
    by_cases hmanaged : old.managed ∨ new.managed
    · rw [h hmanaged]
    · rw [if_neg fun hold => hmanaged (.inl hold), if_neg fun hnew => hmanaged (.inr hnew)]

omit [GoLib] in
/-- What other applications see of an update. -/
private theorem update_isolated_iff {r old : StoredRule} (hupdate : t.update r = some t')
    (hold : t.getByID r.id = some old) :
    (∀ other, other ≠ old.appID → t.SameMerged t' other) ↔
      (old.managed ∨ (written r old).managed → written r old = old) := by
  have hrow : ∀ id, t'.getByID id = if id = r.id then some (written r old) else t.getByID id := by
    intro id
    rw [getByID_update hupdate]
    split
    · rename_i hid
      rw [hid, hold, Option.map_some]
    · rfl
  refine Iff.trans (forall₂_congr fun other _ => ?_) (seenBy_eq_iff rfl)
  rw [sameMerged_change hrow, hold, Option.bind_some, Option.bind_some]

omit [GoLib] in
/-- What other applications see of a deletion. -/
private theorem delete_isolated_iff {k : Int} {old : StoredRule} (hdelete : t.delete k = some t')
    (hold : t.getByID k = some old) :
    (∀ other, other ≠ old.appID → t.SameMerged t' other) ↔ old.managed = false := by
  have hseen : ∀ other, other ≠ old.appID →
      (t.SameMerged t' other ↔ old.managed = false) := fun other hother => by
    rw [sameMerged_change (getByID_delete hdelete), hold, Option.bind_some, Option.bind_none,
      seenBy_of_ne hother.symm]
    cases old.managed <;> simp
  obtain ⟨other, hother⟩ := exists_ne old.appID
  exact ⟨fun h => (hseen other hother).mp (h other hother),
    fun h other hother => (hseen other hother).mpr h⟩

omit [GoLib] in
/-- A rule that is made for one application is not seen by another. -/
private theorem create_isolated {r new : StoredRule} (hcreate : t.create r = some (t', new))
    (hscope : r.scope = str "app") (hother : other ≠ r.appID) : t.SameMerged t' other := by
  obtain ⟨hnew, hrow⟩ := getByID_create hcreate
  have hmanaged : new.managed = false := by
    rw [hnew, StoredRule.managed]
    have hne : str "app" ≠ str "managed" := by decide
    simp [hscope, hne]
  have happ : new.appID ≠ other := by
    rw [hnew]
    exact hother.symm
  rw [sameMerged_change hrow, show t.getByID t.next = none from t.getByID_next, Option.bind_none,
    Option.bind_some, seenBy_of_ne happ, if_neg (by simp [hmanaged])]

/-! ### Reordering -/

omit [GoLib] in
/-- What is seen of a rule with another priority. -/
private theorem seenBy_priority (r : StoredRule) (p : Int) :
    ({ r with priority := p } : StoredRule).seenBy other =
      (r.seenBy other).map fun s => { s with priority := p } := by
  have hmanaged : ({ r with priority := p } : StoredRule).managed = r.managed := rfl
  have happ : ({ r with priority := p } : StoredRule).ofApp other = r.ofApp other := rfl
  rw [StoredRule.seenBy, StoredRule.seenBy, hmanaged, happ]
  split
  · rfl
  · split <;> rfl

omit [GoLib] in
private theorem priority_of_seenBy {r s : StoredRule} (h : r.seenBy other = some s) :
    s.priority = r.priority := by
  rw [StoredRule.seenBy] at h
  split at h
  · rw [← Option.some.inj h]
    rfl
  · split at h
    · rw [← Option.some.inj h]
    · cases h

omit [GoLib] in
/-- A rule that is seen looks the same exactly when its priority does. -/
private theorem seenBy_priority_iff {r : StoredRule} (hseen : (r.seenBy other).isSome) (p : Int) :
    r.seenBy other = ({ r with priority := p } : StoredRule).seenBy other ↔ p = r.priority := by
  obtain ⟨s, hs⟩ := Option.isSome_iff_exists.mp hseen
  rw [seenBy_priority r p, hs, Option.map_some, Option.some.injEq, ← priority_of_seenBy hs]
  constructor
  · intro heq
    exact (congrArg StoredRule.priority heq).symm
  · rintro rfl
    rfl

omit [GoLib] in
/-- **Reordering** gives every rule the priority of its last position. -/
private theorem getByID_reorderFrom (i : ℕ) (ids : List Int) (t : RuleTable) (id : Int) :
    (t.reorderFrom i ids).1.getByID id = (t.getByID id).map fun r =>
      { r with priority := (lastPriority i ids id).getD r.priority } := by
  induction ids generalizing i t with
  | nil => simp [reorderFrom, lastPriority]
  | cons k ks ih =>
    rw [reorderFrom]
    cases hk : t.getByID k with
    | none =>
      rw [ih]
      by_cases hid : k = id
      · rw [← hid, hk]
        rfl
      · rw [lastPriority, if_neg hid, Option.or_none]
    | some r =>
      have hrid := (getByID_eq_some_iff.mp hk).2
      obtain ⟨t', ht'⟩ : ∃ t', t.update { r with priority := ((i : Int) + 1) * 10 } = some t' :=
        exists_update (hrid ▸ hk) (t.arrays r (getByID_eq_some_iff.mp hk).1)
      simp only [ht']
      rw [ih, getByID_update ht', lastPriority]
      by_cases hid : k = id
      · subst hid
        rw [if_pos hrid.symm, if_pos rfl, hk]
        cases hlast : lastPriority (i + 1) ks k <;> rfl
      · rw [if_neg fun heq => hid (hrid.symm.trans heq.symm), if_neg hid, Option.or_none]

omit [GoLib] in
/-- What other applications see of a reordering. -/
private theorem reorder_isolated_iff (t : RuleTable) (ids : List Int) :
    (∀ other, other ≠ app → t.SameMerged (t.reorderFrom 0 ids).1 other) ↔
      ∀ r ∈ t.rows, (∃ other, other ≠ app ∧ (r.seenBy other).isSome) →
        ∀ p, lastPriority 0 ids r.id = some p → p = r.priority := by
  simp only [sameMerged_iff, view, getByID_reorderFrom]
  constructor
  · rintro h r hr ⟨other, hother, hsome⟩ p hp
    have hview := h other hother r.id
    rw [getByID_eq_some_iff.mpr ⟨hr, rfl⟩, Option.map_some, Option.bind_some, Option.bind_some, hp,
      Option.getD_some] at hview
    exact (seenBy_priority_iff hsome p).mp hview
  · intro h other hother id
    cases hid : t.getByID id with
    | none => rfl
    | some r =>
      obtain ⟨hr, rfl⟩ := getByID_eq_some_iff.mp hid
      rw [Option.map_some, Option.bind_some, Option.bind_some]
      cases hlast : lastPriority 0 ids r.id with
      | none => rfl
      | some p =>
        rw [Option.getD_some]
        by_cases hsome : (r.seenBy other).isSome
        · exact (seenBy_priority_iff hsome p).mpr (h r hr ⟨other, hother, hsome⟩ p hlast)
        · rw [seenBy_priority r p, Option.not_isSome_iff_eq_none.mp hsome]
          rfl

/-! ### The handlers -/

omit [GoLib] in
/-- The rule of a request belongs to the application of the path. -/
private theorem ownedRule_ok {path : GoString} {old : StoredRule} (h : t.ownedRule path = .ok old) :
    t.getByID old.id = some old ∧ old.appID = extractAppIDFromRulePath path := by
  rw [ownedRule] at h
  split at h
  · cases h
  · split at h
    · cases h
    · split at h
      · cases h
      · rename_i id _ existing hfind
        split at h
        · cases h
        · rename_i happ
          obtain rfl := Except.ok.inj h
          obtain ⟨hmem, -⟩ := getByID_eq_some_iff.mp hfind
          exact ⟨getByID_eq_some_iff.mpr ⟨hmem, rfl⟩, not_not.mp happ⟩

private theorem createForApp_isolated (t : RuleTable) (path : GoString) (body : Option RuleBody)
    (hother : other ≠ extractAppIDFromRulePath path) :
    t.SameMerged (t.createForApp path body).1 other := by
  have hsame : t.SameMerged t other := fun _ => Iff.rfl
  simp only [createForApp]
  split
  · exact hsame
  cases body with
  | none => exact hsame
  | some req =>
    dsimp only
    split
    · exact hsame
    rw [createRule]
    cases compileExpression req.expressionRaw with
    | error e => exact hsame
    | ok ast =>
      dsimp only
      cases hcreate : t.create (RuleBody.rule
          { req with scope := str "app", appID := extractAppIDFromRulePath path } 0 ast) with
      | none => exact hsame
      | some created => exact create_isolated hcreate rfl hother

private theorem updateForApp_isolated_iff (t : RuleTable) (path : GoString)
    (body : Option RuleBody) :
    (∀ other, other ≠ extractAppIDFromRulePath path →
        t.SameMerged (t.updateForApp path body).1 other) ↔
      (AppRulesRequest.updateForApp path body).Contained t := by
  have hsame : ∀ other, t.SameMerged t other := fun _ _ => Iff.rfl
  rw [AppRulesRequest.Contained, updateForApp]
  cases howned : t.ownedRule path with
  | error e => simp [hsame]
  | ok old =>
    obtain ⟨hold, happ⟩ := ownedRule_ok howned
    cases body with
    | none => simp [hsame]
    | some req =>
      dsimp only
      rw [updateRule]
      cases hcompile : compileExpression req.expressionRaw with
      | error e =>
        refine iff_of_true (fun other _ => hsame other) ?_
        rintro old' req' ast - hreq hast
        obtain rfl := Option.some.inj hreq
        cases hcompile.symm.trans hast
      | ok ast =>
        dsimp only
        cases hupdate : t.update (req.rule old.id ast) with
        | none =>
          -- only a null array is refused
          have harray : req.skipModules = none := by
            by_contra hne
            obtain ⟨t', ht'⟩ := exists_update (r := req.rule old.id ast) hold hne
            rw [ht'] at hupdate
            cases hupdate
          refine iff_of_true (fun other _ => hsame other) ?_
          rintro old' req' ast' - hreq - hne
          obtain rfl := Option.some.inj hreq
          exact absurd harray hne
        | some t' =>
          rw [← happ]
          dsimp only
          rw [update_isolated_iff hupdate hold]
          have harray := arrays_of_update hupdate
          constructor
          · rintro h old' req' ast' hold' hreq hast - hmanaged
            obtain rfl := Except.ok.inj hold'
            obtain rfl := Option.some.inj hreq
            obtain rfl := Except.ok.inj (hcompile.symm.trans hast)
            exact h hmanaged
          · exact fun h hmanaged => h old req ast rfl rfl hcompile harray hmanaged

private theorem deleteForApp_isolated_iff (t : RuleTable) (path : GoString) :
    (∀ other, other ≠ extractAppIDFromRulePath path →
        t.SameMerged (t.deleteForApp path).1 other) ↔
      (AppRulesRequest.deleteForApp path).Contained t := by
  have hsame : ∀ other, t.SameMerged t other := fun _ _ => Iff.rfl
  rw [AppRulesRequest.Contained, deleteForApp]
  cases howned : t.ownedRule path with
  | error e => simp [hsame]
  | ok old =>
    obtain ⟨hold, happ⟩ := ownedRule_ok howned
    obtain ⟨t', hdelete⟩ : ∃ t', t.delete old.id = some t' := by
      rw [delete, if_neg (by rw [show t.find old.id = some old from hold]; simp)]
      exact ⟨_, rfl⟩
    have hrule : t.deleteRule old.id = .ok t' := by simp [deleteRule, hold, hdelete]
    simp only [hrule]
    rw [← happ, delete_isolated_iff hdelete hold]
    exact ⟨fun h old' hold' => Except.ok.inj hold' ▸ h, fun h => h old rfl⟩

omit [GoLib] in
private theorem reorderForApp_table (t : RuleTable) {path : GoString} (ids : List Int)
    (happ : extractAppIDFromRulePath path ≠ []) :
    (t.reorderForApp path (some ids)).1 = (t.reorderFrom 0 ids).1 := by
  simp only [reorderForApp, if_neg happ]
  cases hreorder : t.reorderFrom 0 ids with
  | mk t' e => cases e <;> rfl

private theorem reorderForApp_isolated_iff (t : RuleTable) (path : GoString)
    (body : Option (List Int)) :
    (∀ other, other ≠ extractAppIDFromRulePath path →
        t.SameMerged (t.reorderForApp path body).1 other) ↔
      (AppRulesRequest.reorderForApp path body).Contained t := by
  have hsame : ∀ other, t.SameMerged t other := fun _ _ => Iff.rfl
  rw [AppRulesRequest.Contained]
  by_cases happ : extractAppIDFromRulePath path = []
  · simp [reorderForApp, happ, hsame]
  · cases body with
    | none => simp [reorderForApp, happ, hsame]
    | some ids =>
      rw [reorderForApp_table t ids happ, reorder_isolated_iff]
      exact ⟨fun h ids' _ hids => Option.some.inj hids ▸ h, fun h => h ids happ rfl⟩

end RuleTable

/-- **Isolation of the rule endpoints.** A request to the endpoints of an application leaves the
merged rules of every other application as they are exactly when it is contained. -/
theorem handle_isolated_iff (t : RuleTable) (req : AppRulesRequest) :
    (∀ app, app ≠ req.app → t.SameMerged (t.handle req).1 app) ↔ req.Contained t := by
  cases req with
  | createForApp path body =>
    exact iff_of_true (fun app happ => RuleTable.createForApp_isolated t path body happ) trivial
  | updateForApp path body => exact RuleTable.updateForApp_isolated_iff t path body
  | deleteForApp path => exact RuleTable.deleteForApp_isolated_iff t path
  | reorderForApp path body => exact RuleTable.reorderForApp_isolated_iff t path body

end Endpoints

/-! ### Two requests that reach another application -/

section Sample

attribute [local instance] asciiLib

/-- A rule of an application that blocks a path. -/
def sampleRule (id : Int) (app : GoString) (priority : Int) : StoredRule where
  id := id
  appID := app
  name := str "rule"
  scope := str "app"
  ruleGroup := str "custom"
  expressionRaw := str "http.path eq \"/admin\""
  ast := .comparison (str "http.path") (str "eq") (.string (str "/admin"))
  action := str "block"
  skipModules := some []
  priority := priority
  enabled := true
  description := []

/-- Two rules of one application and one of another. -/
def sampleRules : RuleTable where
  rows := [sampleRule 1 (str "blog") 10, sampleRule 2 (str "blog") 20,
    sampleRule 3 (str "shop") 10]
  keys := by decide
  next := 4
  unused := by decide
  arrays := by decide
  apps := [str "blog", str "shop"]

/-- The endpoints of one application turn the order of the rules of another, and make a rule of its
own a managed one, which every application applies. -/
theorem handle_not_isolated :
    let path := str "/api/v1/apps/shop/rules/"
    let reorder := AppRulesRequest.reorderForApp (path ++ str "reorder") (some [2, 1])
    let update := AppRulesRequest.updateForApp (path ++ str "3") (some
      { name := str "rule", scope := str "managed", appID := str "shop", ruleGroup := str "custom"
        expressionRaw := str "http.path eq \"/\"", action := str "allow", skipModules := some []
        priority := 1, enabled := true, description := [] })
    (reorder.app = str "shop" ∧
        ¬ sampleRules.SameMerged (sampleRules.handle reorder).1 (str "blog")) ∧
      update.app = str "shop" ∧
        ¬ sampleRules.SameMerged (sampleRules.handle update).1 (str "blog") := by
  intro path reorder update
  have hviews : (reorder.app = str "shop" ∧ (sampleRules.view (str "blog") 1 ≠
        (sampleRules.handle reorder).1.view (str "blog") 1)) ∧ update.app = str "shop" ∧
      (sampleRules.view (str "blog") 3 ≠ (sampleRules.handle update).1.view (str "blog") 3) := by
    decide
  obtain ⟨⟨happ, hreorder⟩, happ', hupdate⟩ := hviews
  exact ⟨⟨happ, fun h => hreorder (RuleTable.sameMerged_iff.mp h 1)⟩, happ',
    fun h => hupdate (RuleTable.sameMerged_iff.mp h 3)⟩

end Sample

end VibesWaf

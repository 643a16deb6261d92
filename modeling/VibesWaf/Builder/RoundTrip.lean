import VibesWaf.Builder.AstConverter
import VibesWaf.Rule.Semantics

/-!
# Reopening a rule in the builder

Opening a saved rule in the visual builder and saving it unchanged prints
`astToConditionGroup` of its tree and compiles the text again. Every comparison comes back, in
order, but the connectors are those of the tree's nodes and not those the user wrote:
`parseASTNode` gives the last comparison of a left operand its own node's connector, so a
connector between two groups is lost. For a list the builder printed, the first connector is
kept and every later one comes back as AND.

`generateExpression_reopen_iff` says on which requests this changes the rule's answer.
-/

namespace VibesWaf

open Connectives

section RoundTrip

variable [GoLib]

/-! ### Trees the builder prints back -/

/-- Every comparison of the tree is printed by the builder as it stands. -/
def PrintsBack : Node → Prop
  | .nil => True
  | .comparison field operator value =>
    (comparisonCondition field operator value (str "AND")).comparison? =
      some (.comparison field operator value)
  | .logical _ left right => PrintsBack left ∧ PrintsBack right

/-- What the converter pushes for a derived tree: plain conditions of validated comparisons. -/
private theorem Derives.parseASTNode_plain {l : Level} {ts : List Token} {n : Node}
    (h : Derives l ts n) (hv : validateChild n = .ok ()) (hp : PrintsBack n) (la : GoString)
    (hla : la ∈ [str "AND", str "OR", str "NOT"]) :
    parseASTNode n la ≠ [] ∧
      ∀ c ∈ parseASTNode n la, c.Plain ∧ validateChild c.leaf = .ok () := by
  induction h generalizing la with
  | comparison h =>
    obtain ⟨f, o, v, rfl⟩ := h.eq_comparison
    refine ⟨by simp [parseASTNode], fun c hc => ?_⟩
    obtain rfl : c = comparisonCondition f o v la := by simpa [parseASTNode] using hc
    have hcmp : (comparisonCondition f o v la).comparison? = some (.comparison f o v) := hp
    refine ⟨⟨by simp [hcmp], ?_⟩, by simpa [Condition.leaf, hcmp] using hv⟩
    simpa [comparisonCondition] using hla
  | @not t ts n _ _ ih =>
    have := ih (validateChild_logical hv).1 hp.1 (str "NOT") (by simp)
    rwa [parseASTNode_logical, toUpper_not, parseASTNode, List.append_nil]
  | paren _ _ _ ih => exact ih hv hp la hla
  | factor _ ih => exact ih hv hp la hla
  | @and ts us t a b _ _ _ iha ihb =>
    obtain ⟨hva, hvb⟩ := validateChild_logical hv
    obtain ⟨hnea, ha⟩ := iha hva hp.1 (str "AND") (by simp)
    obtain ⟨-, hb⟩ := ihb hvb hp.2 (str "AND") (by simp)
    rw [parseASTNode_logical, toUpper_and]
    exact ⟨by simp [hnea], List.forall_mem_append.mpr ⟨ha, hb⟩⟩
  | term _ ih => exact ih hv hp la hla
  | @or ts us t a b _ _ _ iha ihb =>
    obtain ⟨hva, hvb⟩ := validateChild_logical hv
    obtain ⟨hnea, ha⟩ := iha hva hp.1 (str "OR") (by simp)
    obtain ⟨-, hb⟩ := ihb hvb hp.2 (str "AND") (by simp)
    rw [parseASTNode_logical, toUpper_or]
    exact ⟨by simp [hnea], List.forall_mem_append.mpr ⟨ha, hb⟩⟩

/-! ### The truth value of a list of conditions -/

/-- The truth value of a list of conditions on a request: its connectives read with AND binding
tighter than OR, up to the first connector that is neither. -/
def listHolds (ctx : RequestContext) : List Condition → Bool
  | [] => false
  | c :: cs =>
    chainValue (holds ctx c.leaf)
      ((follow c.logicAfter cs).map fun p => (p.1, holds ctx p.2.leaf))

/-- The comparisons of a tree in order, each with the operator of the node whose left child it is,
and with AND where it is no left child. -/
def joinedComparisons : Node → GoString → List (Node × GoString)
  | .logical operator left right, _ =>
    joinedComparisons left (toUpper operator) ++ joinedComparisons right (str "AND")
  | .comparison field operator value, joined => [(.comparison field operator value, joined)]
  | .nil, _ => []

/-- The truth values of comparisons on a request, each with the connective before it, up to the
first that is neither AND nor OR. -/
def joinedTruths (ctx : RequestContext) (joined : GoString) :
    List (Node × GoString) → List (Conn × Bool)
  | [] => []
  | (n, joined') :: rest =>
    match connective? (some joined) with
    | none => []
    | some conn => (conn, holds ctx n) :: joinedTruths ctx joined' rest

/-- The truth value of a tree's comparisons read in order, with AND binding tighter than OR. -/
def treeReadFlat (ctx : RequestContext) (n : Node) : Bool :=
  match joinedComparisons n (str "AND") with
  | [] => false
  | (first, joined) :: rest => chainValue (holds ctx first) (joinedTruths ctx joined rest)

/-- The converter makes a condition of each comparison, with what it is joined by. -/
private theorem parseASTNode_joined {n : Node} (hp : PrintsBack n) (la : GoString) :
    (parseASTNode n la).map (fun c => (c.leaf, c.logicAfter)) =
      (joinedComparisons n la).map fun p => (p.1, some p.2) := by
  induction n generalizing la with
  | nil => rfl
  | comparison field operator value =>
    have hcmp : (comparisonCondition field operator value la).comparison? =
        some (.comparison field operator value) := hp
    have hleaf : (comparisonCondition field operator value la).leaf =
        .comparison field operator value := by simp [Condition.leaf, hcmp]
    exact congrArg (fun n => [(n, some la)]) hleaf
  | logical operator left right ihl ihr =>
    rw [parseASTNode_logical, joinedComparisons, List.map_append, List.map_append, ihl hp.1,
      ihr hp.2]

/-- Lists of conditions with the same comparisons and connectives are read alike. -/
private theorem follow_joined (ctx : RequestContext) {cs : List Condition}
    {ps : List (Node × GoString)} (joined : GoString)
    (h : cs.map (fun c => (c.leaf, c.logicAfter)) = ps.map fun p => (p.1, some p.2)) :
    ((follow (some joined) cs).map fun p => (p.1, holds ctx p.2.leaf)) =
      joinedTruths ctx joined ps := by
  induction ps generalizing cs joined with
  | nil =>
    obtain rfl := List.map_eq_nil_iff.mp h
    rfl
  | cons p ps ih =>
    obtain ⟨c, cs, rfl, hc, hrest⟩ := List.map_eq_cons_iff.mp h
    obtain ⟨hleaf, hafter⟩ := Prod.mk.inj hc
    rw [follow, joinedTruths]
    cases connective? (some joined) with
    | none => rfl
    | some conn =>
      rw [List.map_cons, hafter, hleaf]
      exact congrArg _ (ih p.2 hrest)

/-- **What the converter returns** has the truth value of the comparisons of the tree. -/
theorem listHolds_astToConditionGroup {n : Node} (hp : PrintsBack n) (ctx : RequestContext) :
    listHolds ctx (astToConditionGroup n) = treeReadFlat ctx n := by
  have h := parseASTNode_joined hp (str "AND")
  rw [astToConditionGroup, treeReadFlat]
  cases hjoined : joinedComparisons n (str "AND") with
  | nil =>
    rw [hjoined] at h
    rw [List.map_eq_nil_iff.mp h]
    rfl
  | cons p ps =>
    rw [hjoined] at h
    obtain ⟨c, cs, hcs, hc, hrest⟩ := List.map_eq_cons_iff.mp h
    obtain ⟨hleaf, hafter⟩ := Prod.mk.inj hc
    rw [hcs, listHolds, hafter, hleaf]
    exact congrArg _ (follow_joined ctx p.2 hrest)

/-- The tree of a list has the truth value of the list. -/
private theorem holds_conditionTree (ctx : RequestContext) (c : Condition) (cs : List Condition) :
    holds ctx (conditionTree c cs) = listHolds ctx (c :: cs) := by
  rw [conditionTree, map_chainTree (holds_and ctx) (holds_or ctx)]
  simp [listHolds, Function.comp_def]

omit [GoLib] in
private theorem Condition.Plain.leaf_ne_nil [GoLib] {c : Condition} (h : c.Plain) :
    c.leaf ≠ .nil := by
  obtain ⟨n, hn⟩ := Option.isSome_iff_exists.mp h.1
  obtain ⟨_, _, _, -, -, -, hcmp, -⟩ := Condition.lexes hn
  obtain ⟨f, o, v, rfl⟩ := hcmp.eq_comparison
  simp [Condition.leaf, hn]

/-- The round trip of a compiled rule gives it the same answer on the request. -/
def Reopens (ctx : RequestContext) (n : Node) : Prop :=
  ∃ n', compileExpression (generateExpression (astToConditionGroup n)) = .ok n' ∧
    evaluate n' ctx = evaluate n ctx

/-- A rule whose comparisons print back comes back as the list of its comparisons. -/
private theorem reopens_iff_listHolds {s : GoString} {n : Node} (h : compileExpression s = .ok n)
    (hp : PrintsBack n) (ctx : RequestContext) :
    Reopens ctx n ↔ listHolds ctx (astToConditionGroup n) = holds ctx n := by
  obtain ⟨tokens, -, hparse, hv⟩ := compileExpression_eq_ok h
  obtain ⟨ts, us, -, hd, -, -⟩ := parse_eq_ok hparse
  obtain ⟨hne, hall⟩ := hd.parseASTNode_plain (validate_eq_ok hv).2 hp (str "AND") (by simp)
  obtain ⟨c, cs, hcs⟩ := List.exists_cons_of_ne_nil hne
  rw [hcs] at hall
  obtain ⟨tokens', htok', hparse'⟩ := parse_generateExpression fun x hx => (hall x hx).1
  have hv' := validate_conditionTree fun x hx => ⟨(hall x hx).1.leaf_ne_nil, (hall x hx).2⟩
  have hcompile : compileExpression (generateExpression (astToConditionGroup n)) =
      .ok (conditionTree c cs) := by
    rw [astToConditionGroup, hcs]
    exact compileExpression_of htok' hparse' hv'
  have heval : evaluate (conditionTree c cs) ctx = .ok (listHolds ctx (astToConditionGroup n)) := by
    rw [compileExpression_evaluate hcompile, holds_conditionTree, astToConditionGroup, hcs]
  rw [Reopens, compileExpression_evaluate h, hcompile]
  constructor
  · rintro ⟨n', hn', heq⟩
    obtain rfl : conditionTree c cs = n' := by simpa using hn'
    simpa [heval] using heq
  · intro heq
    exact ⟨_, rfl, by rw [heval, heq]⟩

/-! ### The connectors of a printed list -/

/-- The condition the converter makes of a comparison. -/
private def leafCondition (n : Node) (la : GoString) : Condition :=
  match n with
  | .comparison f o v => comparisonCondition f o v la
  | _ => comparisonCondition [] [] .none la

/-- The connector the converter writes after the first comparison of a tree. -/
private def firstConnector : Node → GoString → GoString
  | .logical operator left _, _ => firstConnector left (toUpper operator)
  | _, la => la

/-- A tree whose comparisons all get the connector AND, but for the first. -/
private def TailAnd (n : Node) : Prop :=
  ∃ x xs, leaves n = x :: xs ∧ ∀ la, parseASTNode n la =
    leafCondition x (firstConnector n la) :: xs.map fun y => leafCondition y (str "AND")

/-- A tree whose first comparison, too, gets AND when it stands on the right. -/
private def AllAnd (n : Node) : Prop :=
  TailAnd n ∧ firstConnector n (str "AND") = str "AND"

private theorem TailAnd.logical {a b : Node} (ha : TailAnd a) (hb : AllAnd b) (op : GoString) :
    TailAnd (.logical op a b) := by
  obtain ⟨x, xs, hx, hax⟩ := ha
  obtain ⟨⟨y, ys, hy, hby⟩, hfirst⟩ := hb
  refine ⟨x, xs ++ y :: ys, by simp [leaves, hx, hy], fun la => ?_⟩
  rw [parseASTNode_logical, hax, hby, hfirst]
  simp [firstConnector]

private theorem allAnd_comparison (f o : GoString) (v : Value) : AllAnd (.comparison f o v) :=
  ⟨⟨.comparison f o v, [], rfl, fun _ => rfl⟩, rfl⟩

private theorem AllAnd.and {a b : Node} (ha : AllAnd a) (hb : AllAnd b) : AllAnd (andNode a b) :=
  ⟨ha.1.logical hb _, ha.2⟩

/-- The tree of a chain of comparisons keeps at most its first connector. -/
private theorem tailAnd_chainTree {t : Node} (ht : AllAnd t) (items : List (Conn × Node))
    (hitems : ∀ p ∈ items, AllAnd p.2) : TailAnd (chainTree andNode orNode none t items) :=
  chainTree_induction (P := AllAnd) (Q := TailAnd) (e := none) .and And.left
    (fun ha hb => ha.logical hb _) hitems (by simp) ht

/-- The leftmost disjunct decides the first connector of a disjunction. -/
private theorem firstConnector_or (items : List (Conn × Node)) (e t : Node) (la : GoString) :
    firstConnector (chainTree andNode orNode (some e) t items) la =
      firstConnector e (str "OR") := by
  induction items generalizing e t with
  | nil => rfl
  | cons p rest ih =>
    obtain ⟨conn, u⟩ := p
    cases conn with
    | and => exact ih e (andNode t u)
    | or => exact ih (orNode e t) u

/-- A chain that starts with a conjunction of two has AND as its first connector. -/
private theorem firstConnector_and (items : List (Conn × Node)) {t u : Node}
    (ht : firstConnector t (str "AND") = str "AND") (la : GoString) :
    firstConnector (chainTree andNode orNode none (andNode t u) items) la = str "AND" := by
  induction items generalizing t u with
  | nil => exact ht
  | cons p rest ih =>
    obtain ⟨conn, w⟩ := p
    cases conn with
    | and => exact ih (t := andNode t u) ht
    | or => exact (firstConnector_or rest _ _ _).trans ht

omit [GoLib] in
/-- A literal as the lexer made it prints back as itself. -/
private theorem literalValue?_idem {type : BuilderType} {v v' : GoString}
    (h : literalValue? type v = some v') :
    literalValue? type v' = some v' ∧ (v ≠ [] → v' ≠ []) := by
  by_cases htype : type = .string
  · obtain ⟨hv, rfl⟩ : QuoteSafe v ∧ v = v' := by simpa [literalValue?, htype] using h
    exact ⟨h, id⟩
  have hbool : ∀ w ∈ [str "true", str "false"], bareLiteral? w = some w ∧ w ≠ [] := by decide
  simp only [literalValue?, htype, if_false] at h ⊢
  by_cases hnum : isNumber v = true
  · obtain rfl : (numberToken v).value = v' := by simpa [bareLiteral?, hnum] using h
    rw [numberToken]
    split_ifs with h1 h0
    · exact ⟨(hbool _ (by simp)).1, fun _ => (hbool _ (by simp)).2⟩
    · exact ⟨(hbool _ (by simp)).1, fun _ => (hbool _ (by simp)).2⟩
    · exact ⟨by simp [bareLiteral?, hnum, numberToken, h1, h0], id⟩
  · obtain ⟨hv, rfl⟩ : (v = str "true" ∨ v = str "false") ∧ v = v' := by
      simpa [bareLiteral?, hnum] using h
    exact ⟨h, id⟩

omit [GoLib] in
private theorem mapM_literalValue?_idem {type : BuilderType} {vs ws : List GoString}
    (hvs : ∀ v ∈ vs, v ≠ []) (h : vs.mapM (literalValue? type) = some ws) :
    ws.mapM (literalValue? type) = some ws ∧ ws.filter (· ≠ []) = ws := by
  induction vs generalizing ws with
  | nil =>
    obtain rfl : [] = ws := by simpa using h
    exact ⟨rfl, rfl⟩
  | cons v vs ih =>
    obtain ⟨w, hw, ws', hws', rfl⟩ : ∃ w, literalValue? type v = some w ∧
        ∃ ws', vs.mapM (literalValue? type) = some ws' ∧ w :: ws' = ws := by
      rw [List.mapM_cons] at h
      simpa [Option.bind_eq_some_iff] using h
    obtain ⟨hidem, hne⟩ := literalValue?_idem hw
    obtain ⟨hmap, hfilter⟩ := ih (fun x hx => hvs x (by simp [hx])) hws'
    refine ⟨by simp [List.mapM_cons, hidem, hmap], ?_⟩
    rw [List.filter_cons_of_pos (by simpa using hne (hvs v (by simp))), hfilter]

omit [GoLib] in
/-- An operator of the language has its own name in the builder. -/
private theorem mapOperator_eq {op : GoString} (h : op ∈ operators) : mapOperator op = op := by
  have key : ∀ op ∈ operators, mapOperator op = op := by decide
  exact key op h

omit [GoLib] in
/-- The comparison of a plain condition prints back. -/
private theorem printsBack_of_comparison? {c : Condition} {n : Node}
    (h : c.comparison? = some n) : PrintsBack n := by
  obtain ⟨fd, hfd, hallowed, hstands⟩ := Condition.comparison?_eq_some h
  obtain ⟨d, hd, -, hdef⟩ := builderField?_eq_some hfd
  have hop : mapOperator c.operator = c.operator :=
    mapOperator_eq (allowedOps_subset_operators d hd _ (by simpa [hdef] using hallowed))
  have hback : ∀ v, (comparisonCondition c.field c.operator v (str "AND")).Stands fd
      (.comparison c.field c.operator v) → PrintsBack (.comparison c.field c.operator v) :=
    fun v hv => Condition.Stands.comparison?_eq hfd (by simpa [comparisonCondition, hop]) hv
  have hsame : ∀ v, (comparisonCondition c.field c.operator v (str "AND")).field = c.field ∧
      (comparisonCondition c.field c.operator v (str "AND")).operator = c.operator :=
    fun v => ⟨rfl, hop⟩
  cases hstands with
  | exist hex =>
    refine hback _ ?_
    have : (comparisonCondition c.field c.operator .none (str "AND")).Stands fd _ :=
      .exist (by rwa [(hsame _).2])
    rwa [(hsame _).1, (hsame _).2] at this
  | boolean hex hbool heq =>
    refine hback _ ?_
    have := Condition.Stands.boolean
      (c := comparisonCondition c.field c.operator (.string (str "true")) (str "AND"))
      (by rwa [(hsame _).2]) hbool (by rwa [(hsame _).2])
    rwa [(hsame _).1, (hsame _).2] at this
  | @list w v ws vs hex hbool hin hws hvs =>
    have hne : ∀ x ∈ w :: ws, x ≠ [] := by
      rw [← hws]
      exact fun x hx => by simpa using (List.mem_filter.mp hx).2
    obtain ⟨hmap, hfilter⟩ := mapM_literalValue?_idem hne hvs
    refine hback _ ?_
    have := Condition.Stands.list
      (c := comparisonCondition c.field c.operator (.list (v :: vs)) (str "AND"))
      (by rwa [(hsame _).2]) hbool (by rwa [(hsame _).2]) hfilter hmap
    rwa [(hsame _).1, (hsame _).2] at this
  | @literal v hex hbool hin hv =>
    refine hback _ ?_
    have := Condition.Stands.literal
      (c := comparisonCondition c.field c.operator (.string v) (str "AND"))
      (by rwa [(hsame _).2]) hbool (by rwa [(hsame _).2]) (literalValue?_idem hv).1
    rwa [(hsame _).1, (hsame _).2] at this

/-! ### The round trip of a printed list -/

omit [GoLib] in
/-- A comparison that prints back is the comparison of its condition. -/
private theorem leaf_leafCondition {f o : GoString} {v : Value}
    (h : PrintsBack (.comparison f o v)) (la : GoString) :
    (leafCondition (.comparison f o v) la).leaf = .comparison f o v := by
  have hcmp : (comparisonCondition f o v la).comparison? = some (.comparison f o v) := h
  simp [leafCondition, Condition.leaf, hcmp]

/-- The text of a connective. -/
private def connectorText : Conn → GoString
  | .and => str "AND"
  | .or => str "OR"

omit [GoLib] in
private theorem logicAfter_leafCondition (n : Node) (la : GoString) :
    (leafCondition n la).logicAfter = some la := by
  cases n <;> rfl

omit [GoLib] in
/-- The conditions the converter pushes after the first are joined by AND. -/
private theorem follow_leafConditions (conn : Conn) (x : Node) (xs : List Node) :
    follow (some (connectorText conn)) ((x :: xs).map fun y => leafCondition y (str "AND")) =
      (conn, leafCondition x (str "AND")) :: xs.map fun y => (.and, leafCondition y (str "AND")) := by
  have hconn : connective? (some (connectorText conn)) = some conn := by cases conn <;> decide
  induction xs generalizing conn x with
  | nil => simp only [List.map_cons, List.map_nil, follow, hconn]
  | cons y ys ih =>
    have hrest := ih .and y (by decide)
    rw [List.map_cons] at hrest
    rw [List.map_cons, List.map_cons, follow, hconn, logicAfter_leafCondition]
    exact congrArg _ hrest

private theorem firstConnector_chainTree {t : Node} (ht : ∀ la, firstConnector t la = la)
    {conn : Conn} {u : Node} (rest : List (Conn × Node)) (la : GoString) :
    firstConnector (chainTree andNode orNode none t ((conn, u) :: rest)) la =
      connectorText conn := by
  cases conn with
  | and => exact firstConnector_and rest (ht _) la
  | or => exact (firstConnector_or rest t u la).trans (ht _)

/-- The leaf of a plain condition is one comparison, which is printed and read back as it is. -/
private theorem Condition.Plain.leaf_facts {x : Condition} (h : x.Plain) :
    AllAnd x.leaf ∧ leaves x.leaf = [x.leaf] ∧
      (∀ la, (leafCondition x.leaf la).leaf = x.leaf) ∧ ∀ la, firstConnector x.leaf la = la := by
  obtain ⟨n, hn⟩ := Option.isSome_iff_exists.mp h.1
  obtain ⟨_, _, _, -, -, -, hcmp, -⟩ := Condition.lexes hn
  obtain ⟨f, o, v, rfl⟩ := hcmp.eq_comparison
  have hleaf : x.leaf = .comparison f o v := by simp [Condition.leaf, hn]
  rw [hleaf]
  refine ⟨allAnd_comparison f o v, by rw [leaves],
    fun la => leaf_leafCondition (printsBack_of_comparison? hn) la, fun la => ?_⟩
  rw [firstConnector]
  simp

/-- A list of plain conditions comes back with its first connective and ANDs. -/
private theorem listHolds_reopened {ctx : RequestContext} {c : Condition} {cs : List Condition}
    (h : ∀ x ∈ c :: cs, x.Plain) :
    listHolds ctx (astToConditionGroup (conditionTree c cs)) =
      chainValue (holds ctx c.leaf)
        (keepFirst ((follow c.logicAfter cs).map fun p => (p.1, holds ctx p.2.leaf))) := by
  have hleaf : ∀ x ∈ c :: cs, AllAnd x.leaf ∧ leaves x.leaf = [x.leaf] ∧
      (∀ la, (leafCondition x.leaf la).leaf = x.leaf) ∧ ∀ la, firstConnector x.leaf la = la :=
    fun x hx => (h x hx).leaf_facts
  obtain ⟨hall, hsingle, hself, hfirst⟩ := hleaf c (by simp)
  have hitem : ∀ p ∈ follow c.logicAfter cs, p.2 ∈ c :: cs :=
    fun p hp => List.mem_cons_of_mem _ (follow_subset p hp)
  obtain ⟨x, xs, hxs, hparse⟩ := tailAnd_chainTree hall
    ((follow c.logicAfter cs).map fun p => (p.1, p.2.leaf)) (by
      intro p hp
      obtain ⟨q, hq, rfl⟩ := List.mem_map.mp hp
      exact (hleaf q.2 (hitem q hq)).1)
  -- the leaves of the tree are those of the conditions, in their order
  have hleaves : leaves (conditionTree c cs) =
      c.leaf :: (follow c.logicAfter cs).map fun p => p.2.leaf := by
    rw [conditionTree, leaves_chainTree, hsingle, List.flatMap_map]
    have hone : ∀ p ∈ follow c.logicAfter cs, leaves p.2.leaf = [p.2.leaf] :=
      fun p hp => (hleaf p.2 (hitem p hp)).2.1
    rw [List.flatMap_congr hone, ← List.map_eq_flatMap]
    rfl
  obtain ⟨rfl, rfl⟩ : c.leaf = x ∧ ((follow c.logicAfter cs).map fun p => p.2.leaf) = xs := by
    simpa using hleaves.symm.trans hxs
  rw [astToConditionGroup, conditionTree, hparse, listHolds, hself]
  congr 1
  rw [logicAfter_leafCondition]
  have hholds : ∀ p ∈ follow c.logicAfter cs,
      holds ctx (leafCondition p.2.leaf (str "AND")).leaf = holds ctx p.2.leaf :=
    fun p hp => by rw [(hleaf p.2 (hitem p hp)).2.2.1]
  clear hparse hleaves hxs hitem
  cases hfol : follow c.logicAfter cs with
  | nil => rfl
  | cons p rest =>
    obtain ⟨conn, y⟩ := p
    rw [hfol] at hholds
    rw [List.map_cons, firstConnector_chainTree hfirst, List.map_cons, follow_leafConditions]
    rw [List.map_cons, List.map_cons, keepFirst, hholds (conn, y) (by simp)]
    congr 1
    simp only [List.map_map]
    exact List.map_congr_left fun q hq => by
      simp only [Function.comp_apply]
      rw [hholds q (by simp [hq])]

/-- The requests on which a printed list keeps its answer although every connective after the
first comes back as AND: if the list matches, then all its conditions do, or its first connective
is OR and its first condition matches, or all the others do. -/
def FirstDecides (ctx : RequestContext) : List Condition → Prop
  | [] => True
  | c :: cs =>
    listHolds ctx (c :: cs) = true →
      match follow c.logicAfter cs with
      | [] => True
      | (.and, _) :: _ => holds ctx c.leaf = true ∧
          ∀ p ∈ follow c.logicAfter cs, holds ctx p.2.leaf = true
      | (.or, _) :: _ => holds ctx c.leaf = true ∨
          ∀ p ∈ follow c.logicAfter cs, holds ctx p.2.leaf = true

/-- **Reopening a rule.** A compiled rule whose comparisons the builder prints back keeps its
answer on a request exactly when its comparisons read in order, each joined to the next by the
operator of the node whose left child it is, have the tree's truth value. For a printed list of
plain conditions this is so exactly when the first connective decides. -/
theorem generateExpression_reopen_iff {conditions : List Condition} {n : Node}
    (h : compileExpression (generateExpression conditions) = .ok n) (ctx : RequestContext) :
    (PrintsBack n → (Reopens ctx n ↔ treeReadFlat ctx n = holds ctx n)) ∧
    ((∀ c ∈ conditions, c.Plain) → (Reopens ctx n ↔ FirstDecides ctx conditions)) := by
  refine ⟨fun hp => ?_, fun hplain => ?_⟩
  · rw [reopens_iff_listHolds h hp, listHolds_astToConditionGroup hp]
  cases conditions with
  | nil =>
    have hempty : compileExpression (generateExpression []) =
        .error (.expected (str "field, got ") .eof) := rfl
    rw [hempty] at h
    cases h
  | cons c cs =>
    obtain ⟨tokens, htok, hparse⟩ := parse_generateExpression hplain
    obtain ⟨tokens', htok', hparse', -⟩ := compileExpression_eq_ok h
    obtain rfl : tokens = tokens' := by simpa [htok] using htok'
    obtain rfl : conditionTree c cs = n := by simpa [hparse] using hparse'
    have hprints : ∀ x ∈ c :: cs, PrintsBack x.leaf := fun x hx => by
      obtain ⟨n, hn⟩ := Option.isSome_iff_exists.mp (hplain x hx).1
      simpa [Condition.leaf, hn] using printsBack_of_comparison? hn
    have hp : PrintsBack (conditionTree c cs) := by
      refine chainTree_induction (P := PrintsBack) (e := none) And.intro id And.intro ?_ (by simp)
        (hprints c (by simp))
      intro p hp
      obtain ⟨q, hq, rfl⟩ := List.mem_map.mp hp
      exact hprints q.2 (List.mem_cons_of_mem _ (follow_subset q hq))
    rw [reopens_iff_listHolds h hp, listHolds_reopened hplain, holds_conditionTree, listHolds,
      chainValue_keepFirst_iff, FirstDecides, listHolds]
    cases follow c.logicAfter cs with
    | nil => rfl
    | cons p rest =>
      obtain ⟨conn, x⟩ := p
      cases conn <;> simp only [List.map_cons, List.forall_mem_cons, List.forall_mem_map]

end RoundTrip

section Evaluated

attribute [local instance] asciiLib

/-- A request for the path `/b`. -/
private def requestB : RequestContext where
  clientIP := str "192.0.2.1"
  host := str "example.org"
  path := str "/b"
  query := []
  method := str "GET"
  userAgent := str "curl"
  scheme := str "https"
  proto := str "HTTP/1.1"
  header _ := []
  asn := none
  country := none
  isDatacenter := none

/-- A condition on the path. -/
private def pathCondition (path : GoString) (logicAfter : GoString) : Condition :=
  ⟨str "http.path", str "eq", path, none, some logicAfter⟩

/-- A list of two conditions keeps its answer. -/
theorem generateExpression_reopen_two :
    let conditions := [pathCondition (str "/a") (str "OR"), pathCondition (str "/b") (str "AND")]
    let n := orNode (.comparison (str "http.path") (str "eq") (.string (str "/a")))
      (.comparison (str "http.path") (str "eq") (.string (str "/b")))
    (PrintsBack n → (Reopens requestB n ↔ treeReadFlat requestB n = holds requestB n)) ∧
    ((∀ c ∈ conditions, c.Plain) → (Reopens requestB n ↔ FirstDecides requestB conditions)) :=
  generateExpression_reopen_iff (by decide) requestB

/-- Three conditions joined by OR: the rule matches the path `/b`, and after reopening it and
saving it unchanged it does not. -/
theorem generateExpression_reopen_loses_or :
    let conditions := [pathCondition (str "/a") (str "OR"), pathCondition (str "/b") (str "OR"),
      pathCondition (str "/c") (str "AND")]
    ∃ n n', compileExpression (generateExpression conditions) = .ok n ∧
      compileExpression (generateExpression (astToConditionGroup n)) = .ok n' ∧
      evaluate n requestB = .ok true ∧ evaluate n' requestB = .ok false := by
  let leaf (path : String) : Node := .comparison (str "http.path") (str "eq") (.string (str path))
  refine ⟨orNode (orNode (leaf "/a") (leaf "/b")) (leaf "/c"),
    orNode (leaf "/a") (andNode (leaf "/b") (leaf "/c")), ?_, ?_, ?_, ?_⟩
  all_goals decide

end Evaluated

end VibesWaf

import VibesWaf.IPAccess.Reload
import VibesWaf.Lib.Run
import VibesWaf.Lib.Table

/-!
# Rules that do not overlap

`Create` and `Update` of `IPAccessService` refuse a range that overlaps that of another rule of the
application, so that no address should be matched by two of them. Ranges are stored as the CIDR
column of the table writes them; what it does with a text is a parameter.

`checkOverlap` compares networks by their addresses, which is enough: `contains_or_contains`. But it
takes a single IPv4-mapped address for a network of 32 bits. `ip_rules_disjoint` says that the rules
of an application are disjoint, and the answer of `CheckIPInMemory` does not depend on their order,
after every run in which no such address is stored while another rule contains it.
-/

namespace VibesWaf

/-! ### The repository -/

/-- `CreateRequest`. -/
structure CreateIPRuleRequest where
  appID : GoString
  ipRange : GoString
  description : GoString
  action : Action
  enabled : Bool

/-- `UpdateRequest`; what is empty stays as it is. -/
structure UpdateIPRuleRequest where
  ipRange : GoString
  description : GoString
  action : Action
  enabled : Option Bool

/-- The table `ip_access_rules`, with the next id of its sequence. -/
structure IPRuleTable extends Table StoredIPRule.id where
  next : Int
  positive : 0 < next
  ids : ∀ rule ∈ rows, 0 < rule.id ∧ rule.id < next

/-- What the CIDR column makes of a text: the canonical one, or an error. -/
abbrev CIDRColumn := GoString → Option GoString

namespace IPRuleTable

/-- A table without rules. -/
def empty : IPRuleTable :=
  ⟨Table.empty, 1, Int.one_pos, fun _ h => absurd h List.not_mem_nil⟩

/-- `ListAll`: the enabled rules. -/
def listAll (t : IPRuleTable) : List StoredIPRule :=
  (t.rows.filter (·.enabled)).insertionSort fun a b =>
    a.appID < b.appID ∨ a.appID = b.appID ∧ a.id ≤ b.id

/-- `ListByApp`. -/
def listByApp (t : IPRuleTable) (appID : GoString) : List StoredIPRule :=
  (t.rows.filter (·.appID = appID)).insertionSort fun a b => a.id ≤ b.id

/-- `GetByID`. -/
def getByID (t : IPRuleTable) (id : Int) : Option StoredIPRule :=
  t.find id

/-- The row that `Create` inserts. -/
def created (t : IPRuleTable) (req : CreateIPRuleRequest) (range : GoString) : StoredIPRule :=
  ⟨⟨req.action, req.description, req.enabled⟩, t.next, req.appID, range⟩

/-- `Create`. -/
def create (column : CIDRColumn) (t : IPRuleTable) (req : CreateIPRuleRequest) :
    Option (StoredIPRule × IPRuleTable) :=
  (column req.ipRange).map fun range =>
    (t.created req range,
      { toTable := t.insert (t.created req range)
          (t.find_eq_none_iff.mpr fun rule h => (t.ids rule h).2.ne)
        next := t.next + 1
        positive := by have hpositive := t.positive; omega
        ids := List.forall_mem_cons.mpr
          ⟨⟨t.positive, Int.lt_succ t.next⟩,
            fun rule h => ⟨(t.ids rule h).1, (t.ids rule h).2.trans (Int.lt_succ t.next)⟩⟩ })

/-- The row that `Update` writes. -/
def written (range : Option GoString) (req : UpdateIPRuleRequest) (rule : StoredIPRule) :
    StoredIPRule :=
  { rule with
    ipRange := range.getD rule.ipRange
    description := if req.description = [] then rule.description else req.description
    action := if req.action = .none then rule.action else req.action
    enabled := req.enabled.getD rule.enabled }

/-- A table with a row written. -/
def writeRow (t : IPRuleTable) (id : Int) (range : Option GoString) (req : UpdateIPRuleRequest) :
    IPRuleTable where
  toTable := t.modify id (written range req) fun _ => rfl
  next := t.next
  positive := t.positive
  ids := by
    intro rule h
    obtain ⟨old, hold, rfl⟩ := (t.mem_modify id (written range req) fun _ => rfl).mp h
    split <;> exact t.ids old hold

/-- `Update`. -/
def update (column : CIDRColumn) (t : IPRuleTable) (id : Int) (req : UpdateIPRuleRequest) :
    Option (StoredIPRule × IPRuleTable) :=
  let write (range : Option GoString) :=
    (t.find id).map fun rule => (written range req rule, t.writeRow id range req)
  if req.ipRange ≠ [] then (column req.ipRange).bind fun range => write (some range)
  else write none

/-- `Delete`. -/
def delete (t : IPRuleTable) (id : Int) : Option IPRuleTable :=
  if t.find id = none then none
  else some
    { toTable := t.erase id
      next := t.next
      positive := t.positive
      ids := fun rule h => t.ids rule ((t.mem_erase).mp h).1 }

end IPRuleTable

/-! ### The service -/

/-- `validateIPRange`. -/
def validateIPRange (ipRange : GoString) : Except GoString Unit :=
  match parseCIDR ipRange with
  | some _ => .ok ()
  | none =>
    match parseIP ipRange with
    | none => .error (str "invalid IP address or CIDR notation: " ++ ipRange)
    | some _ => .ok ()

/-- The network that `checkOverlap` takes a range for. -/
def overlapNet (ipRange : GoString) : Option IPNet :=
  match parseCIDR ipRange with
  | some network => some network
  | none =>
    match parseIP ipRange with
    | none => none
    | some ip => parseCIDR (ipRange ++ if (to4 ip.1).isSome then str "/32" else str "/128")

/-- The test of `checkOverlap` on one rule. -/
def StoredIPRule.overlaps (rule : StoredIPRule) (newNet : IPNet) : Bool :=
  (parseCIDR rule.ipRange).any fun existingNet =>
    newNet.contains existingNet.ip || existingNet.contains newNet.ip

/-- `checkOverlap`. -/
def checkOverlap (t : IPRuleTable) (appID ipRange : GoString) (excludeID : Int) :
    Except GoString Unit :=
  match overlapNet ipRange with
  | none => .error (str "invalid IP range")
  | some newNet =>
    match (t.listByApp appID).find? fun rule => rule.id ≠ excludeID && rule.overlaps newNet with
    | some rule =>
      .error (str "IP range overlaps with existing rule: " ++ rule.ipRange ++ str " (ID: " ++
        itoa rule.id ++ str ")")
    | none => .ok ()

/-- The actions of a rule. -/
def isIPRuleAction (action : Action) : Bool :=
  action = .allow || action = .block || action = .challenge

namespace IPAccessService

variable (column : CIDRColumn) (t : IPRuleTable)

/-- `Create`; what the database says is left out. -/
def create (req : CreateIPRuleRequest) : Except GoString (StoredIPRule × IPRuleTable) :=
  if req.appID = [] then .error (str "app_id is required")
  else
    match validateIPRange req.ipRange with
    | .error e => .error e
    | .ok () =>
      if !isIPRuleAction req.action then
        .error (str "invalid action: must be 'allow', 'block', or 'challenge'")
      else
        match checkOverlap t req.appID req.ipRange 0 with
        | .error e => .error e
        | .ok () =>
          match t.create column req with
          | none => .error (str "failed to create ip access rule")
          | some result => .ok result

/-- The checks of `Update` on the range. -/
def checkRange (appID : GoString) (id : Int) (ipRange : GoString) : Except GoString Unit :=
  if ipRange ≠ [] then
    match validateIPRange ipRange with
    | .error e => .error e
    | .ok () => checkOverlap t appID ipRange id
  else .ok ()

/-- `Update`. -/
def update (appID : GoString) (id : Int) (req : UpdateIPRuleRequest) :
    Except GoString (StoredIPRule × IPRuleTable) :=
  match t.getByID id with
  | none => .error (str "ip access rule not found")
  | some existing =>
    if existing.appID ≠ appID then .error (str "ip access rule not found")
    else
      match checkRange t appID id req.ipRange with
      | .error e => .error e
      | .ok () =>
        if req.action ≠ .none ∧ !isIPRuleAction req.action then
          .error (str "invalid action: must be 'allow', 'block', or 'challenge'")
        else
          match t.update column id req with
          | none => .error (str "failed to update ip access rule")
          | some result => .ok result

/-- `Delete`. -/
def delete (appID : GoString) (id : Int) : Except GoString IPRuleTable :=
  match t.getByID id with
  | none => .error (str "ip access rule not found")
  | some existing =>
    if existing.appID ≠ appID then .error (str "ip access rule not found")
    else
      match t.delete id with
      | none => .error (str "ip access rule not found")
      | some t => .ok t

end IPAccessService

/-- An operation. -/
inductive IPRuleStep
  | create (req : CreateIPRuleRequest)
  | update (appID : GoString) (id : Int) (req : UpdateIPRuleRequest)
  | delete (appID : GoString) (id : Int)

/-- The table after an operation. -/
def IPRuleTable.step (column : CIDRColumn) (t : IPRuleTable) : IPRuleStep → IPRuleTable
  | .create req => ((IPAccessService.create column t req).map Prod.snd).toOption.getD t
  | .update appID id req =>
    ((IPAccessService.update column t appID id req).map Prod.snd).toOption.getD t
  | .delete appID id => (IPAccessService.delete t appID id).toOption.getD t

/-- A run from an empty table. -/
def IPRuleTable.run (column : CIDRColumn) (steps : List IPRuleStep) : IPRuleTable :=
  steps.foldl (IPRuleTable.step column) IPRuleTable.empty

/-! ### Ranges -/

/-- The network of a range: that of a CIDR text, or a single address. -/
def rangeNet (ipRange : GoString) : Option IPNet :=
  match parseCIDR ipRange with
  | some network => some network
  | none =>
    match parseAddr ipRange with
    | some (.v4 b) => some ⟨b.1, 32, 32⟩
    | some (.v6 b []) => some ⟨b.1, 128, 128⟩
    | _ => none

/-- The column keeps the network of a range, and writes it as a CIDR text. -/
def CIDRColumn.Canonical (column : CIDRColumn) : Prop :=
  ∀ ipRange text, column ipRange = some text →
    ∀ network, rangeNet ipRange = some network → parseCIDR text = some network

/-- A single address that is IPv4-mapped. -/
def mappedAddress (ipRange : GoString) : Option (Bytes 16) :=
  match parseAddr ipRange with
  | some (.v6 b []) => if (to4 b.1).isSome then some b else none
  | _ => none

private theorem exists_parseAddr {s : GoString} {ip : Bytes 16} (h : parseIP s = some ip) :
    ∃ a, parseAddr s = some a ∧ a.zone = [] ∧ a.as16 = ip := by
  rw [parseIP] at h
  split at h
  · rename_i a ha
    split at h
    · rename_i hzone
      exact ⟨a, ha, hzone, Option.some.inj h⟩
    · cases h
  · cases h

/-- The network of a single address. -/
private theorem rangeNet_of_parseAddr {s : GoString} {a : Addr} (h : parseAddr s = some a)
    (hzone : a.zone = []) :
    rangeNet s = some ⟨maskIP a.as16 a.bitLen a.bitLen, a.bitLen, a.bitLen⟩ := by
  rw [rangeNet, parseCIDR_eq_none h hzone, maskIP_full]
  cases a with
  | v4 b => simp only [h, Addr.bitLen]
  | v6 b zone =>
    obtain rfl : zone = [] := hzone
    simp only [h, Addr.bitLen]

/-- A valid range has a network. -/
private theorem exists_rangeNet {s : GoString} (h : validateIPRange s = .ok ()) :
    ∃ network, rangeNet s = some network := by
  rw [validateIPRange] at h
  split at h
  · rename_i network hcidr
    exact ⟨network, by rw [rangeNet, hcidr]⟩
  · split at h
    · cases h
    · rename_i ip hip
      obtain ⟨a, ha, hzone, -⟩ := exists_parseAddr hip
      exact ⟨_, rangeNet_of_parseAddr ha hzone⟩

/-- **`checkOverlap` takes a range for its network**, unless it is an IPv4-mapped address. -/
theorem overlapNet_eq {s : GoString} (h : validateIPRange s = .ok ())
    (hmapped : mappedAddress s = none) : overlapNet s = rangeNet s := by
  rw [overlapNet]
  rw [validateIPRange] at h
  split
  · rename_i network hcidr
    rw [rangeNet, hcidr]
  · rename_i hcidr
    rw [hcidr] at h
    dsimp only at h
    split
    · rename_i hnone
      rw [hnone] at h
      cases h
    · rename_i ip hip
      obtain ⟨a, ha, hzone, rfl⟩ := exists_parseAddr hip
      rw [rangeNet_of_parseAddr ha hzone]
      cases a with
      | v4 b =>
        rw [to4_as16, Option.isSome_some, if_pos rfl]
        exact parseCIDR_append ha hzone (show dtoi (str "32") = some 32 by decide) le_rfl
      | v6 b zone =>
        obtain rfl : zone = [] := hzone
        have hto4 : (to4 (Addr.v6 b []).as16.1).isSome = false := by
          rw [mappedAddress, ha] at hmapped
          dsimp only at hmapped
          split at hmapped
          · cases hmapped
          · rename_i hno
            exact Bool.eq_false_iff.mpr hno
        rw [hto4, if_neg Bool.false_ne_true]
        exact parseCIDR_append ha rfl (show dtoi (str "128") = some 128 by decide) le_rfl

/-- The network of an IPv4-mapped address. -/
private theorem rangeNet_of_mappedAddress {s : GoString} {ip : Bytes 16}
    (h : mappedAddress s = some ip) :
    rangeNet s = some ⟨ip.1, 128, 128⟩ ∧ (to4 ip.1).isSome = true := by
  rw [mappedAddress] at h
  split at h
  · rename_i b ha
    split at h
    · rename_i hto4
      obtain rfl := Option.some.inj h
      refine ⟨?_, hto4⟩
      rw [rangeNet_of_parseAddr ha rfl, maskIP_full]
      rfl
    · cases h
  · cases h

/-! ### What the check rules out -/

/-- No two rules of an application contain the same address. -/
def IPRuleTable.Disjoint (t : IPRuleTable) : Prop :=
  ∀ rule ∈ t.rows, ∀ rule' ∈ t.rows, rule.appID = rule'.appID →
    ∀ ip, rule.Contains ip → rule'.Contains ip → rule = rule'

/-- What holds of a table: the ranges are networks, and disjoint. -/
structure IPRuleTable.Sound (t : IPRuleTable) : Prop where
  nets : ∀ rule ∈ t.rows, ∃ network, parseCIDR rule.ipRange = some network
  disjoint : t.Disjoint

section Check

variable {column : CIDRColumn} {t : IPRuleTable} {appID range text : GoString} {excludeID : Int}

private theorem contains_of_parseCIDR {rule : StoredIPRule} {network : IPNet}
    (h : parseCIDR rule.ipRange = some network) (ip : Bytes 16) :
    rule.Contains ip ↔ network.contains ip.1 = true := by
  rw [StoredIPRule.Contains, h]

/-- What `checkOverlap` lets through has no address in common with the other rules. -/
private theorem apart_of_checkOverlap (h : checkOverlap t appID range excludeID = .ok ())
    {network : IPNet} (hnet : overlapNet range = some network) {rule : StoredIPRule}
    (hrule : rule ∈ t.rows) (happ : rule.appID = appID) (hid : rule.id ≠ excludeID)
    {network' : IPNet} (hstored : parseCIDR rule.ipRange = some network') {ip : List UInt8}
    (hip : network.contains ip = true) : network'.contains ip = false := by
  obtain ⟨source, hsource⟩ : ∃ source, parseCIDR source = some network := by
    rw [overlapNet] at hnet
    split at hnet
    · rename_i network'' hcidr
      exact ⟨range, hcidr.trans hnet⟩
    · split at hnet
      · cases hnet
      · exact ⟨_, hnet⟩
  rw [checkOverlap, hnet] at h
  dsimp only at h
  split at h
  · cases h
  · rename_i hnone
    by_contra hboth
    rw [Bool.not_eq_false] at hboth
    have hmem : rule ∈ t.listByApp appID :=
      (List.mem_insertionSort _).mpr (List.mem_filter.mpr ⟨hrule, decide_eq_true happ⟩)
    refine List.find?_eq_none.mp hnone rule hmem ?_
    have hmeet := contains_or_contains hsource hstored hip hboth
    rw [Bool.and_eq_true, decide_eq_true_eq, StoredIPRule.overlaps, hstored, Option.any_some,
      Bool.or_eq_true]
    exact ⟨hid, hmeet⟩

/-- What has to be met by a range: an IPv4-mapped address is contained in no other rule. -/
def MappedFree (t : IPRuleTable) (appID range : GoString) (excludeID : Int) : Prop :=
  ∀ ip, mappedAddress range = some ip → ∀ rule ∈ t.rows, rule.appID = appID →
    rule.id ≠ excludeID → ¬ rule.Contains ip

/-- The compared bytes of an IPv4-mapped address are its whole network. -/
private theorem shortOnes_of_mapped {ip : Bytes 16} (h : (to4 ip.1).isSome = true) :
    IPNet.shortOnes ⟨ip.1, 128, 128⟩ = 8 * (shortBytes ip.1).length := by
  obtain ⟨ip4, hto4⟩ := Option.isSome_iff_exists.mp h
  have hmapped : IPNet.mapped ⟨ip.1, 128, 128⟩ = true := by
    rw [IPNet.mapped, hto4]
    rfl
  rw [IPNet.shortOnes, if_pos hmapped, shortBytes, hto4, Option.getD_some, length_of_to4 hto4]
  rfl

/-- **A stored range** is the text of a network, which has no address in common with the other
rules of the application. -/
theorem apart_of_stored (hcolumn : column.Canonical) (h : t.Sound)
    (hvalid : validateIPRange range = .ok ())
    (hcheck : checkOverlap t appID range excludeID = .ok ())
    (hfree : MappedFree t appID range excludeID) (htext : column range = some text) :
    ∃ network, parseCIDR text = some network ∧ ∀ rule ∈ t.rows, rule.appID = appID →
      rule.id ≠ excludeID → ∀ ip : Bytes 16, network.contains ip.1 = true → ¬ rule.Contains ip := by
  obtain ⟨network, hnet⟩ := exists_rangeNet hvalid
  have hparse := hcolumn range text htext network hnet
  refine ⟨network, hparse, fun rule hrule happ hid ip hip hcontains => ?_⟩
  obtain ⟨network', hstored⟩ := h.nets rule hrule
  have hcontains' := (contains_of_parseCIDR hstored ip).mp hcontains
  cases hmapped : mappedAddress range with
  | none =>
    have hoverlap := (overlapNet_eq hvalid hmapped).trans hnet
    rw [apart_of_checkOverlap hcheck hoverlap hrule happ hid hstored hip] at hcontains'
    cases hcontains'
  | some ip0 =>
    -- every address of the network is compared like the mapped one
    obtain ⟨hmappedNet, hto4⟩ := rangeNet_of_mappedAddress hmapped
    obtain rfl := Option.some.inj (hnet.symm.trans hmappedNet)
    have hshort := shortBytes_of_contains hparse (shortOnes_of_mapped hto4) hip
    refine hfree ip0 hmapped rule hrule happ hid ((contains_of_parseCIDR hstored ip0).mpr ?_)
    rw [← hcontains']
    exact contains_congr network' hshort.symm

end Check

/-! ### What the operations do -/

section Operations

variable {column : CIDRColumn} {t : IPRuleTable}

private theorem create_ok {req : CreateIPRuleRequest} {result : StoredIPRule × IPRuleTable}
    (h : IPAccessService.create column t req = .ok result) :
    validateIPRange req.ipRange = .ok () ∧ checkOverlap t req.appID req.ipRange 0 = .ok () ∧
      ∃ text, column req.ipRange = some text ∧
        ∀ rule, rule ∈ result.2.rows ↔ rule = t.created req text ∨ rule ∈ t.rows := by
  rw [IPAccessService.create] at h
  split at h
  · cases h
  split at h
  · cases h
  rename_i hvalid
  split at h
  · cases h
  split at h
  · cases h
  rename_i hcheck
  split at h
  · cases h
  rename_i result' hcreate
  obtain rfl := Except.ok.inj h
  obtain ⟨text, htext, rfl⟩ := Option.map_eq_some_iff.mp hcreate
  exact ⟨hvalid, hcheck, text, htext, fun rule => List.mem_cons⟩

/-- The row that an update writes, and the other ones. -/
private theorem mem_writeRow {id : Int} {range : Option GoString} {req : UpdateIPRuleRequest}
    {existing : StoredIPRule} (hmem : existing ∈ t.rows) (hid : existing.id = id)
    (rule : StoredIPRule) : rule ∈ (t.writeRow id range req).rows ↔
      rule = IPRuleTable.written range req existing ∨ rule ∈ t.rows ∧ rule.id ≠ id := by
  refine (t.mem_modify id (IPRuleTable.written range req) fun _ => rfl).trans ⟨?_, ?_⟩
  · rintro ⟨old, hold, rfl⟩
    by_cases holdid : old.id = id
    · rw [if_pos holdid, t.eq_of_key_eq hold hmem (holdid.trans hid.symm)]
      exact .inl rfl
    · rw [if_neg holdid]
      exact .inr ⟨hold, holdid⟩
  · rintro (rfl | ⟨hrule, hne⟩)
    · exact ⟨existing, hmem, if_pos hid⟩
    · exact ⟨rule, hrule, if_neg hne⟩

private theorem update_ok {appID : GoString} {id : Int} {req : UpdateIPRuleRequest}
    {result : StoredIPRule × IPRuleTable}
    (h : IPAccessService.update column t appID id req = .ok result) :
    ∃ existing ∈ t.rows, existing.id = id ∧ existing.appID = appID ∧ ∃ range : Option GoString,
      (req.ipRange = [] ∧ range = none ∨ validateIPRange req.ipRange = .ok () ∧
        checkOverlap t appID req.ipRange id = .ok () ∧ ∃ text, column req.ipRange = some text ∧
          range = some text) ∧
      ∀ rule, rule ∈ result.2.rows ↔
        rule = IPRuleTable.written range req existing ∨ rule ∈ t.rows ∧ rule.id ≠ id := by
  rw [IPAccessService.update] at h
  split at h
  · cases h
  rename_i existing hexisting
  obtain ⟨hmem, hid⟩ := t.find_eq_some_iff.mp hexisting
  split at h
  · cases h
  rename_i happ
  split at h
  · cases h
  rename_i hcheck
  split at h
  · cases h
  split at h
  · cases h
  rename_i result' hupdate
  obtain rfl := Except.ok.inj h
  refine ⟨existing, hmem, hid, not_not.mp happ, ?_⟩
  rw [IPRuleTable.update] at hupdate
  split at hupdate
  · rename_i hne
    rw [IPAccessService.checkRange, if_pos hne] at hcheck
    split at hcheck
    · cases hcheck
    rename_i hvalid
    obtain ⟨text, htext, hwrite⟩ := Option.bind_eq_some_iff.mp hupdate
    obtain ⟨_, -, rfl⟩ := Option.map_eq_some_iff.mp hwrite
    exact ⟨some text, .inr ⟨hvalid, hcheck, text, htext, rfl⟩, mem_writeRow hmem hid⟩
  · rename_i hempty
    obtain ⟨_, -, rfl⟩ := Option.map_eq_some_iff.mp hupdate
    exact ⟨none, .inl ⟨not_not.mp hempty, rfl⟩, mem_writeRow hmem hid⟩

private theorem delete_ok {appID : GoString} {id : Int} {t' : IPRuleTable}
    (h : IPAccessService.delete t appID id = .ok t') : ∀ rule ∈ t'.rows, rule ∈ t.rows := by
  rw [IPAccessService.delete] at h
  split at h
  · cases h
  split at h
  · cases h
  split at h
  · cases h
  rename_i t'' hdelete
  obtain rfl := Except.ok.inj h
  rw [IPRuleTable.delete] at hdelete
  split at hdelete
  · cases hdelete
  · obtain rfl := Option.some.inj hdelete
    exact fun rule hrule => (t.mem_erase.mp hrule).1

/-- A rule that is written is apart from the others: the table stays sound. -/
private theorem IPRuleTable.Sound.write {t' : IPRuleTable} (h : t.Sound) {new : StoredIPRule}
    (hrows : ∀ rule ∈ t'.rows, rule = new ∨ rule ∈ t.rows ∧ rule.id ≠ new.id)
    (hnet : ∃ network, parseCIDR new.ipRange = some network)
    (hapart : ∀ rule ∈ t.rows, rule.appID = new.appID → rule.id ≠ new.id →
      ∀ ip, new.Contains ip → ¬ rule.Contains ip) : t'.Sound := by
  refine ⟨fun rule hrule => ?_, fun rule hrule rule' hrule' happ ip hip hip' => ?_⟩
  · obtain rfl | ⟨hold, -⟩ := hrows rule hrule
    · exact hnet
    · exact h.nets rule hold
  · obtain rfl | ⟨hold, hne⟩ := hrows rule hrule
    · obtain rfl | ⟨hold', hne'⟩ := hrows rule' hrule'
      · rfl
      · exact absurd hip' (hapart rule' hold' happ.symm hne' ip hip)
    · obtain rfl | ⟨hold', -⟩ := hrows rule' hrule'
      · exact absurd hip (hapart rule hold happ hne ip hip')
      · exact h.disjoint rule hold rule' hold' happ ip hip hip'

end Operations

/-! ### Runs -/

/-- What has to be met by an operation that is carried out: an IPv4-mapped address is contained in
no other rule of the application. -/
def IPRuleTable.Meets (column : CIDRColumn) (t : IPRuleTable) : IPRuleStep → Prop
  | .create req => (IPAccessService.create column t req).isOk = true →
      MappedFree t req.appID req.ipRange 0
  | .update appID id req => (IPAccessService.update column t appID id req).isOk = true →
      MappedFree t appID req.ipRange id
  | .delete _ _ => True

section Runs

variable {column : CIDRColumn} {t : IPRuleTable}

/-- The ids of stored rules are not excluded when a rule is created. -/
private theorem id_ne_zero {rule : StoredIPRule} (h : rule ∈ t.rows) : rule.id ≠ 0 :=
  (t.ids rule h).1.ne'

/-- **An operation that meets its condition keeps the rules disjoint.** -/
theorem IPRuleTable.Sound.step (hcolumn : column.Canonical) (h : t.Sound) {o : IPRuleStep}
    (hmeets : t.Meets column o) : (t.step column o).Sound := by
  cases o with
  | create req =>
    rw [IPRuleTable.step]
    cases hcreate : IPAccessService.create column t req with
    | error e => exact h
    | ok result =>
      obtain ⟨hvalid, hcheck, text, htext, hrows⟩ := create_ok hcreate
      have hfree : MappedFree t req.appID req.ipRange 0 := hmeets (by rw [hcreate]; rfl)
      obtain ⟨network, hparse, hapart⟩ := apart_of_stored hcolumn h hvalid hcheck hfree htext
      have hnew : ∀ rule ∈ t.rows, rule.id ≠ (t.created req text).id :=
        fun rule hrule => (t.ids rule hrule).2.ne
      refine h.write (fun rule hrule => ((hrows rule).mp hrule).imp_right fun hold =>
        ⟨hold, hnew rule hold⟩) ⟨network, hparse⟩ fun rule hrule happ _ ip hip => ?_
      exact hapart rule hrule happ (id_ne_zero hrule) ip ((contains_of_parseCIDR hparse ip).mp hip)
  | update appID id req =>
    rw [IPRuleTable.step]
    cases hupdate : IPAccessService.update column t appID id req with
    | error e => exact h
    | ok result =>
      have hfree : MappedFree t appID req.ipRange id := hmeets (by rw [hupdate]; rfl)
      obtain ⟨existing, hmem, rfl, rfl, range, hrange, hrows⟩ := update_ok hupdate
      have hwrite := fun rule hrule => (hrows rule).mp hrule
      obtain ⟨-, rfl⟩ | ⟨hvalid, hcheck, text, htext, rfl⟩ := hrange
      · -- the range stays what it was
        refine h.write hwrite (h.nets existing hmem) fun rule hrule happ hne ip hip hcontains => ?_
        have hid : rule.id = existing.id :=
          congrArg _ (h.disjoint rule hrule existing hmem happ ip hcontains hip)
        exact hne hid
      · obtain ⟨network, hparse, hapart⟩ := apart_of_stored hcolumn h hvalid hcheck hfree htext
        refine h.write hwrite ⟨network, hparse⟩ fun rule hrule happ hne ip hip => ?_
        exact hapart rule hrule happ hne ip ((contains_of_parseCIDR hparse ip).mp hip)
  | delete appID id =>
    rw [IPRuleTable.step]
    cases hdelete : IPAccessService.delete t appID id with
    | error e => exact h
    | ok t' =>
      have hsub := delete_ok hdelete
      exact ⟨fun rule hrule => h.nets rule (hsub rule hrule), fun rule hrule rule' hrule' =>
        h.disjoint rule (hsub rule hrule) rule' (hsub rule' hrule')⟩

/-- An IPv4-mapped address is contained in the rule that is stored for it. -/
private theorem contains_mappedAddress (hcolumn : column.Canonical) {range text : GoString}
    {ip : Bytes 16} (hmapped : mappedAddress range = some ip) (htext : column range = some text)
    {rule : StoredIPRule} (hrule : rule.ipRange = text) : rule.Contains ip := by
  have hparse := hcolumn range text htext _ (rangeNet_of_mappedAddress hmapped).1
  rw [contains_of_parseCIDR (hrule ▸ hparse)]
  exact contains_self hparse

/-- An operation after which the rules are disjoint meets its condition. -/
private theorem meets_of_disjoint (hcolumn : column.Canonical) {o : IPRuleStep}
    (hdisjoint : (t.step column o).Disjoint) : t.Meets column o := by
  cases o with
  | create req =>
    intro hok ip hmapped rule hrule happ _ hcontains
    rw [IPRuleTable.step] at hdisjoint
    cases hcreate : IPAccessService.create column t req with
    | error e =>
      rw [hcreate] at hok
      cases hok
    | ok result =>
      rw [hcreate] at hdisjoint
      obtain ⟨-, -, text, htext, hrows⟩ := create_ok hcreate
      have hnew : (t.created req text).Contains ip :=
        contains_mappedAddress hcolumn hmapped htext rfl
      have hsame := hdisjoint rule ((hrows rule).mpr (.inr hrule)) _ ((hrows _).mpr (.inl rfl)) happ
        ip hcontains hnew
      exact (t.ids rule hrule).2.ne (congrArg StoredIPRule.id hsame)
  | update appID id req =>
    intro hok ip hmapped rule hrule happ hne hcontains
    rw [IPRuleTable.step] at hdisjoint
    cases hupdate : IPAccessService.update column t appID id req with
    | error e =>
      rw [hupdate] at hok
      cases hok
    | ok result =>
      rw [hupdate] at hdisjoint
      obtain ⟨existing, -, rfl, rfl, range, hrange, hrows⟩ := update_ok hupdate
      obtain ⟨hempty, rfl⟩ | ⟨-, -, text, htext, rfl⟩ := hrange
      · rw [hempty] at hmapped
        cases hmapped
      · have hnew : (IPRuleTable.written (some text) req existing).Contains ip :=
          contains_mappedAddress hcolumn hmapped htext rfl
        have hsame : rule = IPRuleTable.written (some text) req existing :=
          hdisjoint rule ((hrows rule).mpr (.inr ⟨hrule, hne⟩)) _ ((hrows _).mpr (.inl rfl)) happ
            ip hcontains hnew
        exact hne (hsame ▸ rfl)
  | delete appID id => trivial

end Runs

/-- **Stored rules.** Along a run no two rules of an application contain the same address, exactly
when no IPv4-mapped address is stored while another rule of the application contains it. -/
theorem stored_rules_disjoint_iff {column : CIDRColumn} (hcolumn : column.Canonical)
    (steps : List IPRuleStep) :
    (∀ past, past <+: steps → (IPRuleTable.run column past).Disjoint) ↔
      ∀ past o, past ++ [o] <+: steps → (IPRuleTable.run column past).Meets column o := by
  have hstart : IPRuleTable.empty.Sound :=
    ⟨fun _ h => absurd h List.not_mem_nil, fun _ h => absurd h List.not_mem_nil⟩
  exact forall_prefix_iff hstart (fun _ h => h.disjoint) (fun _ _ h => h.step hcolumn)
    (fun _ _ _ => meets_of_disjoint hcolumn) steps

/-! ### The snapshot -/

/-- The rules of an application that a lookup goes through and that match an address. -/
def IPAccessSnapshot.matching (snap : IPAccessSnapshot) (appID : GoString)
    (clientIP : Bytes 16) : List CompiledIPRule :=
  (snap appID).filter (·.covers clientIP)

private theorem length_le_one_of_nodup {α : Type*} {l : List α} (hnodup : l.Nodup)
    (hsame : ∀ x ∈ l, ∀ y ∈ l, x = y) : l.length ≤ 1 := by
  match l with
  | [] => exact Nat.zero_le _
  | [_] => exact le_rfl
  | x :: y :: l =>
    have hxy : x = y := hsame x List.mem_cons_self y (List.mem_cons_of_mem x List.mem_cons_self)
    exact absurd (hxy ▸ List.mem_cons_self) (List.nodup_cons.mp hnodup).1

private theorem eq_of_perm_of_length_le_one {α : Type*} {l l' : List α} (h : l.Perm l')
    (hlen : l.length ≤ 1) : l = l' := by
  match l with
  | [] => exact h.nil_eq
  | [x] => exact List.singleton_perm.mp h
  | _ :: _ :: _ => exact absurd hlen (by simp)

private theorem of_mem_matching {rules : List StoredIPRule} {appID : GoString}
    {clientIP : Bytes 16} {cr : CompiledIPRule}
    (h : cr ∈ (loadSnapshot (.ok rules)).matching appID clientIP) :
    ∃ rule ∈ rules, compileIPRule rule = some cr ∧ rule.appID = appID ∧
      rule.Contains clientIP := by
  obtain ⟨hmem, hcovers⟩ := List.mem_filter.mp h
  rw [loadSnapshot_ok] at hmem
  obtain ⟨hcompiled, happ⟩ := List.mem_filter.mp hmem
  obtain ⟨rule, hrule, hcr⟩ := List.mem_filterMap.mp hcompiled
  refine ⟨rule, hrule, hcr, ?_, compileIPRule_covers.mp ⟨cr, hcr, hcovers⟩⟩
  rw [← compileIPRule_rule hcr]
  exact (of_decide_eq_true happ).symm

/-- **No address is matched by two rules of an application** in the snapshot, if the stored rules
are disjoint. -/
theorem length_matching_le_one {t : IPRuleTable} (h : t.Disjoint) {rules : List StoredIPRule}
    (hrules : rules.Perm t.listAll) (appID : GoString) (clientIP : Bytes 16) :
    ((loadSnapshot (.ok rules)).matching appID clientIP).length ≤ 1 := by
  have hmem : ∀ rule ∈ rules, rule ∈ t.rows := fun rule hrule =>
    List.mem_of_mem_filter ((List.mem_insertionSort _).mp (hrules.mem_iff.mp hrule))
  have hnodup : rules.Nodup := by
    refine hrules.nodup_iff.mpr ((List.perm_insertionSort _ _).nodup_iff.mpr ?_)
    exact (List.Nodup.of_map _ t.keys).filter _
  have hcompiled : (rules.filterMap compileIPRule).Nodup := by
    refine hnodup.filterMap fun rule rule' cr hcr hcr' => ?_
    exact (compileIPRule_rule hcr).symm.trans (compileIPRule_rule hcr')
  refine length_le_one_of_nodup ?_ fun cr hcr cr' hcr' => ?_
  · rw [IPAccessSnapshot.matching, loadSnapshot_ok]
    exact (hcompiled.filter _).filter _
  · obtain ⟨rule, hrule, hcompile, happ, hcontains⟩ := of_mem_matching hcr
    obtain ⟨rule', hrule', hcompile', happ', hcontains'⟩ := of_mem_matching hcr'
    have hsame := h rule (hmem rule hrule) rule' (hmem rule' hrule') (happ.trans happ'.symm)
      clientIP hcontains hcontains'
    rw [hsame, hcompile'] at hcompile
    exact (Option.some.inj hcompile).symm

/-- The answer does not depend on the order of the rules, if no address is matched by two. -/
private theorem checkIPInMemory_perm {rules rules' : List StoredIPRule} (h : rules.Perm rules')
    (hlen : ∀ appID clientIP,
      ((loadSnapshot (.ok rules)).matching appID clientIP).length ≤ 1) (appID ip : GoString) :
    checkIPInMemory (some (loadSnapshot (.ok rules))) appID ip =
      checkIPInMemory (some (loadSnapshot (.ok rules'))) appID ip := by
  have hfind : ∀ appID clientIP,
      (loadSnapshot (.ok rules) appID).find? (·.covers clientIP) =
        (loadSnapshot (.ok rules') appID).find? (·.covers clientIP) := by
    intro appID clientIP
    have hperm : ((loadSnapshot (.ok rules)).matching appID clientIP).Perm
        ((loadSnapshot (.ok rules')).matching appID clientIP) := by
      rw [IPAccessSnapshot.matching, IPAccessSnapshot.matching, loadSnapshot_ok, loadSnapshot_ok]
      exact ((h.filterMap _).filter _).filter _
    rw [← List.head?_filter, ← List.head?_filter]
    exact congrArg List.head? (eq_of_perm_of_length_le_one hperm (hlen appID clientIP))
  rw [checkIPInMemory, checkIPInMemory]
  simp only [hfind]

/-- **Disjoint rules.** After a run in which no IPv4-mapped address is stored while another rule of
the application contains it, no address is matched by two rules of an application, and the answer
of `CheckIPInMemory` does not depend on the order in which the rules are listed. -/
theorem ip_rules_disjoint {column : CIDRColumn} (hcolumn : column.Canonical)
    {steps : List IPRuleStep}
    (hmeets : ∀ past o, past ++ [o] <+: steps → (IPRuleTable.run column past).Meets column o) :
    ∀ rules, rules.Perm (IPRuleTable.run column steps).listAll →
      (∀ appID clientIP, ((loadSnapshot (.ok rules)).matching appID clientIP).length ≤ 1) ∧
        ∀ appID ip, checkIPInMemory (some (loadSnapshot (.ok rules))) appID ip =
          checkIPInMemory
            (some (loadSnapshot (.ok (IPRuleTable.run column steps).listAll))) appID ip := by
  intro rules hrules
  have hdisjoint := (stored_rules_disjoint_iff hcolumn steps).mpr hmeets steps
    (List.prefix_refl steps)
  have hlen := length_matching_le_one hdisjoint hrules
  exact ⟨hlen, checkIPInMemory_perm hrules hlen⟩

/-- What the column makes of three texts. -/
def sampleColumn : CIDRColumn := fun text =>
  if text = str "192.0.2.0/24" then some text
  else if text = str "198.51.100.7" then some (str "198.51.100.7/32")
  else if text = str "::ffff:192.0.2.7" then some (str "::ffff:192.0.2.7/128")
  else none

theorem canonical_sampleColumn : sampleColumn.Canonical := by
  intro range text h network hnet
  rw [← hnet]
  rw [sampleColumn] at h
  split at h
  · rename_i hrange
    obtain rfl := Option.some.inj h
    rw [hrange]
    decide
  split at h
  · rename_i hrange
    rw [← Option.some.inj h, hrange]
    decide
  split at h
  · rename_i hrange
    rw [← Option.some.inj h, hrange]
    decide
  · cases h

/-- A rule of an application, as it is asked for. -/
def sampleIPRule (range : GoString) (action : Action) : IPRuleStep :=
  .create ⟨str "shop", range, [], action, true⟩

/-- A network and an address outside of it. -/
theorem ip_rules_disjoint_sample :
    let t := IPRuleTable.run sampleColumn
      [sampleIPRule (str "192.0.2.0/24") .block, sampleIPRule (str "198.51.100.7") .allow]
    t.rows.length = 2 ∧ ∀ rules, rules.Perm t.listAll →
      (∀ appID clientIP, ((loadSnapshot (.ok rules)).matching appID clientIP).length ≤ 1) ∧
        ∀ appID ip, checkIPInMemory (some (loadSnapshot (.ok rules))) appID ip =
          checkIPInMemory (some (loadSnapshot (.ok t.listAll))) appID ip := by
  refine ⟨by decide, ip_rules_disjoint canonical_sampleColumn fun past o ho => ?_⟩
  have hnone : mappedAddress (str "192.0.2.0/24") = none ∧
      mappedAddress (str "198.51.100.7") = none := by decide
  obtain rfl | ho := List.mem_cons.mp (mem_of_snoc ho)
  · intro _ ip hip
    rw [hnone.1] at hip
    cases hip
  · obtain rfl := List.mem_singleton.mp ho
    intro _ ip hip
    rw [hnone.2] at hip
    cases hip

/-- A blocked network and an allowed address in it, written as an IPv4-mapped one: the answer
depends on the order of the rules. -/
theorem mapped_address_overlaps :
    let t := IPRuleTable.run sampleColumn
      [sampleIPRule (str "192.0.2.0/24") .block, sampleIPRule (str "::ffff:192.0.2.7") .allow]
    let action (rules : List StoredIPRule) :=
      (checkIPInMemory (some (loadSnapshot (.ok rules))) (str "shop") (str "192.0.2.7")).map
        fun rule => rule.map (·.action)
    sampleColumn.Canonical ∧ t.listAll.reverse.Perm t.listAll ∧
      action t.listAll = .ok (some .block) ∧ action t.listAll.reverse = .ok (some .allow) :=
  ⟨canonical_sampleColumn, List.reverse_perm _, by decide, by decide⟩

end VibesWaf

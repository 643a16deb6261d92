import Mathlib.Logic.Function.Basic
import VibesWaf.IPReputation.Trie

/-!
# The reputation service

`IPReputationService` keeps the enabled rows of a database table in three tables in memory: single
addresses, autonomous systems, and the trie of networks. `Tables.load` is one turn of the loop of
`Reload`, and `loadTables` the loop; `none` is a panic. The map of single addresses is keyed in the
source by the address's text, which is different for different addresses, and here by the address.

`create`, `bulkCreate` and `update` validate what they store. What the database answers is an
argument (`DBAnswers`): it may refuse any write and any read, and may break off while it lists the
rows, which the repository does not notice. `call` is one call on the service, a restart of the
process included.

`load_network` is where a network meets the trie: a network that `ParseCIDR` returns is inserted,
or its insertion panics, and it panics exactly for an IPv4-mapped network.
-/

namespace VibesWaf

open PrefixTrie

/-! ### Entries and tables -/

/-- `model.IPReputationEntry`. -/
structure IPReputationEntry where
  id : Int
  entryType : GoString
  value : GoString
  score : Int
  enabled : Bool
  deriving DecidableEq

/-- The tables of `IPReputationService`. -/
structure Tables where
  ipMap : Bytes 16 → Option Int
  asnMap : ℕ → Option Int
  cidrTrie : IPTrie

/-- Tables without an entry. -/
def Tables.empty : Tables :=
  ⟨fun _ => none, fun _ => none, newIPTrie⟩

/-- One turn of the loop of `Reload`; `none` is a panic. -/
def Tables.load (t : Tables) (e : IPReputationEntry) : Option Tables :=
  if e.entryType = str "ip" then
    match parseCIDR e.value with
    | some ipNet => (t.cidrTrie.insert ipNet e.score).map fun trie => { t with cidrTrie := trie }
    | none =>
      match parseIP e.value with
      | some ip => some { t with ipMap := Function.update t.ipMap ip (some e.score) }
      | none => some t
  else if e.entryType = str "asn" then
    match parseUint32 e.value with
    | some asn => some { t with asnMap := Function.update t.asnMap asn (some e.score) }
    | none => some t
  else some t

/-- The loop of `Reload` over the rows that were listed. -/
def loadTables (entries : List IPReputationEntry) : Option Tables :=
  entries.foldlM Tables.load Tables.empty

/-- `LookupIP`: the score that was found, if any; the outer `none` is a panic. -/
def Tables.lookupIP (t : Tables) (ipStr : GoString) : Option (Option Int) :=
  match parseIP ipStr with
  | none => some none
  | some ip =>
    match t.ipMap ip with
    | some score => some (some score)
    | none => t.cidrTrie.lookup ip.1

/-- `LookupASN`. -/
def Tables.lookupASN (t : Tables) (asn : ℕ) : Option Int :=
  t.asnMap asn

/-! ### Validation -/

/-- `validateIPOrCIDR`: the text of its error, if any. -/
def validateIPOrCIDR (value : GoString) : Option GoString :=
  if (parseCIDR value).isSome then none
  else if (parseIP value).isSome then none
  else some (str "invalid IP address or CIDR: " ++ value)

/-- The checks of `Create` and of `Update`: the text of the first error. -/
def validateEntry (e : IPReputationEntry) : Option GoString :=
  if e.entryType ≠ str "ip" ∧ e.entryType ≠ str "asn" then
    some (str "invalid entry_type: must be 'ip' or 'asn'")
  else if e.value = [] then some (str "value is required")
  else if e.score < 1 ∨ 100 < e.score then some (str "score must be between 1 and 100")
  else if e.entryType = str "ip" then validateIPOrCIDR e.value
  else if (parseUint32 e.value).isSome then none
  else some (str "invalid ASN number: " ++ e.value)

/-- The checks of `BulkCreate`: the same ones, with other texts. -/
def validateBulkEntry (e : IPReputationEntry) : Option GoString :=
  if e.entryType ≠ str "ip" ∧ e.entryType ≠ str "asn" then
    some (e.value ++ str ": invalid entry_type")
  else if e.value = [] then some (str "empty value")
  else if e.score < 1 ∨ 100 < e.score then
    some (e.value ++ str ": score must be between 1 and 100")
  else if e.entryType = str "ip" then
    (validateIPOrCIDR e.value).map fun err => e.value ++ str ": " ++ err
  else if (parseUint32 e.value).isSome then none
  else some (e.value ++ str ": invalid ASN number")

/-! ### The table in the database -/

/-- The rows of `ip_reputation_entries` in the order of their keys, which a sequence gives out. -/
structure EntryTable where
  rows : List IPReputationEntry
  nextID : Int
  sorted : rows.Pairwise fun r r' => r.id < r'.id
  fresh : ∀ r ∈ rows, r.id < nextID

/-- A table without rows. -/
def EntryTable.empty : EntryTable :=
  ⟨[], 1, List.Pairwise.nil, by simp⟩

/-- The `INSERT` of `Create` and `Upsert`. -/
def EntryTable.insert (db : EntryTable) (e : IPReputationEntry) : EntryTable where
  rows := db.rows ++ [{ e with id := db.nextID }]
  nextID := db.nextID + 1
  sorted := List.pairwise_append.mpr
    ⟨db.sorted, List.pairwise_singleton _ _, by simpa using db.fresh⟩
  fresh := by
    intro r hr
    rcases List.mem_append.mp hr with hr | hr
    · have := db.fresh r hr
      omega
    · obtain rfl := List.mem_singleton.mp hr
      exact Int.lt_succ db.nextID

/-- An `UPDATE` that leaves the keys alone. -/
def EntryTable.mapRows (db : EntryTable) (f : IPReputationEntry → IPReputationEntry)
    (hf : ∀ r, (f r).id = r.id) : EntryTable where
  rows := db.rows.map f
  nextID := db.nextID
  sorted := List.pairwise_map.mpr (db.sorted.imp fun h => by rwa [hf, hf])
  fresh := by
    intro r hr
    obtain ⟨r, hmem, rfl⟩ := List.mem_map.mp hr
    rw [hf]
    exact db.fresh r hmem

/-- The `UPDATE` of `Update`. -/
def EntryTable.update (db : EntryTable) (e : IPReputationEntry) : EntryTable :=
  db.mapRows (fun r => if r.id = e.id then e else r) fun r => by split <;> simp_all

/-- The `UPDATE` of `BulkUpdateScore`. -/
def EntryTable.updateScore (db : EntryTable) (ids : List Int) (score : Int) : EntryTable :=
  db.mapRows (fun r => if r.id ∈ ids then { r with score } else r) fun r => by split <;> rfl

/-- The `DELETE` of `Delete` and `BulkDelete`. -/
def EntryTable.delete (db : EntryTable) (ids : List Int) : EntryTable where
  rows := db.rows.filter fun r => r.id ∉ ids
  nextID := db.nextID
  sorted := db.sorted.filter _
  fresh r hr := db.fresh r (List.mem_of_mem_filter hr)

/-- The rows that `ListEnabled` asks for. -/
def EntryTable.listEnabled (db : EntryTable) : List IPReputationEntry :=
  db.rows.filter (·.enabled)

/-! ### The service -/

/-- The service: its database and its tables in memory. -/
structure IPReputationService where
  db : EntryTable
  tables : Tables

/-- What the database answers during one call: the error of each of the call's writes, if any,
and how many of the enabled rows `ListEnabled` reads, or none when its query fails. -/
structure DBAnswers where
  writeError : ℕ → Option GoString
  listed : Option ℕ

/-- What a call returns; `panic` when it does not. -/
inductive Reply
  | ok
  | err (msg : GoString)
  | bulk (created : List IPReputationEntry) (errors : List GoString)
  | count (n : ℕ)
  | panic
  deriving DecidableEq

namespace IPReputationService

/-- `Reload`; `none` is a panic. -/
def reload (s : IPReputationService) (ans : DBAnswers) : Option IPReputationService :=
  match ans.listed with
  | none => some s
  | some n => (loadTables (s.db.listEnabled.take n)).map fun tables => { s with tables }

/-- The end of a call: `Reload`, and the reply when it returns. A panic leaves the tables as they
were. -/
def reloadThen (s : IPReputationService) (ans : DBAnswers) (reply : Reply) :
    IPReputationService × Reply :=
  match s.reload ans with
  | some s' => (s', reply)
  | none => (s, .panic)

/-- `NewIPReputationService`, at a start of the process. -/
def startUp (s : IPReputationService) (ans : DBAnswers) : IPReputationService × Reply :=
  reloadThen { s with tables := Tables.empty } ans .ok

/-- `Create`. -/
def create (s : IPReputationService) (ans : DBAnswers) (e : IPReputationEntry) :
    IPReputationService × Reply :=
  match validateEntry e with
  | some msg => (s, .err msg)
  | none =>
    match ans.writeError 0 with
    | some msg => (s, .err (str "failed to create ip reputation entry: " ++ msg))
    | none => reloadThen { s with db := s.db.insert e } ans .ok

/-- The loop of `BulkCreate`, with the number of writes so far. `Upsert` reports a write that
fails, or a row that is there already, as not inserted. -/
def bulkLoop (ans : DBAnswers) : ℕ → List IPReputationEntry → EntryTable →
    List IPReputationEntry → List GoString → EntryTable × List IPReputationEntry × List GoString
  | _, [], db, created, errors => (db, created, errors)
  | i, e :: es, db, created, errors =>
    match validateBulkEntry e with
    | some msg => bulkLoop ans i es db created (errors ++ [msg])
    | none =>
      match ans.writeError i with
      | some _ => bulkLoop ans (i + 1) es db created errors
      | none =>
        bulkLoop ans (i + 1) es (db.insert e) (created ++ [{ e with id := db.nextID }]) errors

/-- `BulkCreate`. -/
def bulkCreate (s : IPReputationService) (ans : DBAnswers) (entries : List IPReputationEntry) :
    IPReputationService × Reply :=
  let (db, created, errors) := bulkLoop ans 0 entries s.db [] []
  if created = [] then ({ s with db }, .bulk created errors)
  else reloadThen { s with db } ans (.bulk created errors)

/-- `Update`. -/
def update (s : IPReputationService) (ans : DBAnswers) (e : IPReputationEntry) :
    IPReputationService × Reply :=
  match validateEntry e with
  | some msg => (s, .err msg)
  | none =>
    match ans.writeError 0 with
    | some msg => (s, .err (str "failed to update ip reputation entry: " ++ msg))
    | none =>
      if s.db.rows.all (·.id ≠ e.id) then (s, .err (str "ip reputation entry not found"))
      else reloadThen { s with db := s.db.update e } ans .ok

/-- `Delete`. -/
def delete (s : IPReputationService) (ans : DBAnswers) (id : Int) : IPReputationService × Reply :=
  match ans.writeError 0 with
  | some msg => (s, .err (str "failed to delete ip reputation entry: " ++ msg))
  | none =>
    if s.db.rows.all (·.id ≠ id) then (s, .err (str "ip reputation entry not found"))
    else reloadThen { s with db := s.db.delete [id] } ans .ok

/-- `BulkDelete`. -/
def bulkDelete (s : IPReputationService) (ans : DBAnswers) (ids : List Int) :
    IPReputationService × Reply :=
  if ids = [] then reloadThen s ans (.count 0)
  else
    match ans.writeError 0 with
    | some msg => (s, .err (str "failed to bulk delete ip reputation entries: " ++ msg))
    | none => reloadThen { s with db := s.db.delete ids } ans
        (.count (s.db.rows.countP fun r => r.id ∈ ids))

/-- `BulkUpdateScore`. -/
def bulkUpdateScore (s : IPReputationService) (ans : DBAnswers) (ids : List Int) (score : Int) :
    IPReputationService × Reply :=
  if ids = [] then reloadThen s ans (.count 0)
  else
    match ans.writeError 0 with
    | some msg => (s, .err (str "failed to bulk update ip reputation scores: " ++ msg))
    | none => reloadThen { s with db := s.db.updateScore ids score } ans
        (.count (s.db.rows.countP fun r => r.id ∈ ids))

end IPReputationService

/-- The calls on the service, and a restart of the process. -/
inductive ServiceCall
  | startUp
  | create (e : IPReputationEntry)
  | bulkCreate (entries : List IPReputationEntry)
  | update (e : IPReputationEntry)
  | delete (id : Int)
  | bulkDelete (ids : List Int)
  | bulkUpdateScore (ids : List Int) (score : Int)
  deriving DecidableEq

/-- One call. -/
def IPReputationService.call (s : IPReputationService) (ans : DBAnswers) :
    ServiceCall → IPReputationService × Reply
  | .startUp => s.startUp ans
  | .create e => s.create ans e
  | .bulkCreate entries => s.bulkCreate ans entries
  | .update e => s.update ans e
  | .delete id => s.delete ans id
  | .bulkDelete ids => s.bulkDelete ans ids
  | .bulkUpdateScore ids score => s.bulkUpdateScore ans ids score

/-! ### Networks and the trie -/

/-- **A parsed network meets the trie.** Inserting it writes its score at the end of its leading
bits; it panics for an IPv4-mapped network, and for no other. -/
theorem insert_network {s : GoString} {net : IPNet} (h : parseCIDR s = some net) (t : IPTrie)
    (score : Int) :
    t.insert net score =
      if net.mapped then none else some (Trie.insert t net.path score) := by
  cases hm : net.mapped with
  | false =>
    obtain ⟨-, hones, hip⟩ := parseCIDR_plain h hm
    rw [insert_eq score hip, if_pos hones]
    rfl
  | true =>
    rcases parseCIDR_cases h with ⟨hbits, -, -⟩ | ⟨-, -, h4, -⟩ | ⟨-, hlen, h4, hones, -⟩
    · simp [IPNet.mapped, hbits] at hm
    · simp [IPNet.mapped, h4] at hm
    · have hip : (to4 net.ip).or (to16 net.ip) = some (net.ip.drop 12) := by
        rw [h4, Option.some_or]
      rw [insert_eq score hip, List.length_drop, hlen, if_neg (by omega), if_pos rfl]

/-- The network of an entry: it is one the trie gets. -/
def IPReputationEntry.network (e : IPReputationEntry) : Option IPNet :=
  if e.entryType = str "ip" then parseCIDR e.value else none

/-- The address of an entry: it is one the map of single addresses gets. -/
def IPReputationEntry.address (e : IPReputationEntry) : Option (Bytes 16) :=
  if e.entryType = str "ip" ∧ parseCIDR e.value = none then parseIP e.value else none

/-- The entry is an IPv4-mapped network. -/
def IPReputationEntry.mapped (e : IPReputationEntry) : Bool :=
  e.network.any IPNet.mapped

theorem network_eq_some {e : IPReputationEntry} {net : IPNet} (h : e.network = some net) :
    e.entryType = str "ip" ∧ parseCIDR e.value = some net := by
  rw [IPReputationEntry.network] at h
  split at h
  · exact ⟨‹_›, h⟩
  · cases h

/-- **One turn of the loop of `Reload`**: the three tables after it, when it does not panic. -/
theorem load_eq (t : Tables) (e : IPReputationEntry) :
    (e.mapped = true ∧ t.load e = none) ∨
      (e.mapped = false ∧ ∃ t', t.load e = some t' ∧
        (∀ a, t'.ipMap a = if e.address = some a then some e.score else t.ipMap a) ∧
        t'.cidrTrie = e.network.elim t.cidrTrie fun net =>
          Trie.insert t.cidrTrie net.path e.score) := by
  by_cases hip : e.entryType = str "ip"
  -- an entry of type `ip` that reads as a network goes into the trie
  · cases hcidr : parseCIDR e.value with
    | some net =>
      have hnet : e.network = some net := (if_pos hip).trans hcidr
      have haddr : e.address = none := if_neg (by simp [hcidr])
      have hmap : e.mapped = net.mapped := by rw [IPReputationEntry.mapped, hnet]; rfl
      have hload : t.load e =
          (t.cidrTrie.insert net e.score).map fun trie => { t with cidrTrie := trie } := by
        rw [Tables.load, if_pos hip, hcidr]
      rw [insert_network hcidr] at hload
      rw [hmap, haddr, hnet, hload]
      cases net.mapped with
      | true => exact .inl ⟨rfl, rfl⟩
      | false => exact .inr ⟨rfl, _, rfl, fun a => rfl, rfl⟩
    | none =>
      have hnet : e.network = none := (if_pos hip).trans hcidr
      have haddr : e.address = parseIP e.value := if_pos ⟨hip, hcidr⟩
      have hmap : e.mapped = false := by rw [IPReputationEntry.mapped, hnet]; rfl
      rw [Tables.load, if_pos hip, hcidr, haddr, hnet]
      refine .inr ⟨hmap, ?_⟩
      cases hparse : parseIP e.value with
      | none => exact ⟨t, rfl, fun a => by simp, rfl⟩
      | some ip =>
        refine ⟨_, rfl, fun a => ?_, rfl⟩
        by_cases ha : ip = a
        · subst ha
          simp
        · simp [Function.update_of_ne (Ne.symm ha), ha]
  · have hnet : e.network = none := if_neg hip
    have haddr : e.address = none := if_neg fun h => hip h.1
    have hmap : e.mapped = false := by rw [IPReputationEntry.mapped, hnet]; rfl
    rw [Tables.load, if_neg hip, haddr, hnet]
    refine .inr ⟨hmap, ?_⟩
    by_cases hasn : e.entryType = str "asn"
    · rw [if_pos hasn]
      cases parseUint32 e.value with
      | none => exact ⟨t, rfl, fun a => by simp, rfl⟩
      | some asn => exact ⟨_, rfl, fun a => by simp, rfl⟩
    · rw [if_neg hasn]
      exact ⟨t, rfl, fun a => by simp, rfl⟩

end VibesWaf

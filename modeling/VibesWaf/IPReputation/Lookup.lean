import VibesWaf.IPReputation.Service

/-!
# What a reputation lookup finds

The specification of a lookup is a list: the score of the last single-address entry equal to the
address, and else of the last of the longest networks that contain it, `IPNet.Contains` being the
one of Go. `loadTables_cases` and `lookupIP_eq` say what the code finds instead: the last of the
longest networks of nonzero length whose bits the address starts with, whatever its family.

`lookupIP_spec_iff` is the distance between the two. A network of length zero is never found, an
address of one family is found in a network of the other whose leading bits are the same, and an
IPv4-mapped network stops the load; in all other cases the lookup is longest-prefix match.
-/

namespace VibesWaf

open PrefixTrie

/-! ### The specification -/

/-- The networks of a list of entries, with their scores. -/
def networks (entries : List IPReputationEntry) : List (IPNet × Int) :=
  entries.filterMap fun e => e.network.map fun net => (net, e.score)

/-- The score of the last single-address entry for an address. -/
def lastSingle (entries : List IPReputationEntry) (a : Bytes 16) : Option Int :=
  (entries.filter fun e => e.address = some a).getLast?.map (·.score)

/-- The last of the longest networks that contain an address. -/
def longestMatch (entries : List IPReputationEntry) (a : Bytes 16) : Option (IPNet × Int) :=
  lastLongest (fun n => n.1.contains a.1) (fun n => n.1.ones) (networks entries)

/-- What `LookupIP` is for: the score of the address itself, and else longest-prefix match. -/
def lookupSpec (entries : List IPReputationEntry) (ipStr : GoString) : Option Int :=
  match parseIP ipStr with
  | none => none
  | some a => (lastSingle entries a).or ((longestMatch entries a).map Prod.snd)

/-! ### What the tables hold -/

/-- The last of the longest networks of nonzero length, of either family, whose leading bits the
looked-up bytes start with. -/
def longestOnPath (entries : List IPReputationEntry) (a : Bytes 16) : Option (IPNet × Int) :=
  lastLongest (fun n => decide (n.1.path ≠ [] ∧ n.1.path <+: addrBits (shortIP a)))
    (fun n => n.1.path.length) (networks entries)

theorem mem_networks {entries : List IPReputationEntry} {n : IPNet × Int} :
    n ∈ networks entries ↔ ∃ e ∈ entries, e.network = some n.1 ∧ e.score = n.2 := by
  rw [networks, List.mem_filterMap]
  refine exists_congr fun e => and_congr_right fun _ => ?_
  rw [Option.map_eq_some_iff]
  constructor
  · rintro ⟨net, hnet, rfl⟩
    exact ⟨hnet, rfl⟩
  · rintro ⟨hnet, hscore⟩
    exact ⟨n.1, hnet, by rw [hscore]⟩

private theorem lastSingle_append_singleton (entries : List IPReputationEntry)
    (e : IPReputationEntry) (a : Bytes 16) :
    lastSingle (entries ++ [e]) a =
      if e.address = some a then some e.score else lastSingle entries a := by
  rw [lastSingle, List.filter_append]
  by_cases ha : e.address = some a
  · simp [ha]
  · simp [ha, lastSingle]

/-- **The load.** It panics exactly when some entry is an IPv4-mapped network; the tables it makes
hold the single addresses, the last entry for each, and the trie of the networks in order. -/
theorem loadTables_cases (entries : List IPReputationEntry) :
    ((∃ e ∈ entries, e.mapped = true) ∧ loadTables entries = none) ∨
      ((∀ e ∈ entries, e.mapped = false) ∧ ∃ t, loadTables entries = some t ∧
        (∀ a, t.ipMap a = lastSingle entries a) ∧
        t.cidrTrie = (networks entries).foldl (fun t n => Trie.insert t n.1.path n.2) .nil) := by
  induction entries using List.reverseRecOn with
  | nil => exact .inr ⟨by simp, _, rfl, fun a => rfl, rfl⟩
  | append_singleton entries e ih =>
    have hstep : loadTables (entries ++ [e]) = (loadTables entries).bind fun t => t.load e := by
      simp [loadTables, List.foldlM_append]
    rw [hstep]
    obtain ⟨⟨x, hx, hmapped⟩, hnone⟩ | ⟨hplain, t, ht, hip, htrie⟩ := ih
    · refine .inl ⟨⟨x, List.mem_append_left _ hx, hmapped⟩, ?_⟩
      rw [hnone]
      rfl
    rw [ht]
    obtain ⟨hmapped, hload⟩ | ⟨hmapped, t', hload, hip', htrie'⟩ := load_eq t e
    · exact .inl ⟨⟨e, by simp, hmapped⟩, hload⟩
    refine .inr ⟨?_, t', hload, fun a => ?_, ?_⟩
    · intro x hx
      rcases List.mem_append.mp hx with hx | hx
      · exact hplain x hx
      · rwa [List.mem_singleton.mp hx]
    · rw [hip', hip, lastSingle_append_singleton]
    · rw [htrie', htrie, networks, networks, List.filterMap_append, List.foldl_append]
      cases hnet : e.network <;> simp [hnet]

theorem loadTables_eq_none_iff (entries : List IPReputationEntry) :
    loadTables entries = none ↔ ∃ e ∈ entries, e.mapped = true := by
  obtain ⟨hex, hnone⟩ | ⟨hplain, t, ht, -, -⟩ := loadTables_cases entries
  · exact iff_of_true hnone hex
  · refine iff_of_false (by simp [ht]) ?_
    rintro ⟨e, he, hmapped⟩
    simp [hplain e he] at hmapped

/-- **The code's answer**: the score of the address itself, and else of the last of the longest
nonempty paths the looked-up bytes start with. -/
theorem lookupIP_eq {entries : List IPReputationEntry} {t : Tables}
    (ht : loadTables entries = some t) {ipStr : GoString} {a : Bytes 16}
    (ha : parseIP ipStr = some a) :
    t.lookupIP ipStr =
      some ((lastSingle entries a).or ((longestOnPath entries a).map Prod.snd)) := by
  obtain ⟨-, hnone⟩ | ⟨-, t', ht', hip, htrie⟩ := loadTables_cases entries
  · simp [hnone] at ht
  obtain rfl : t = t' := Option.some.inj (ht.symm.trans ht')
  have htrie : t.cidrTrie.lookup a.1 = some ((longestOnPath entries a).map Prod.snd) := by
    rw [lookup_eq, htrie, deepestBelow_foldl_insert, Option.map_map]
    rfl
  rw [Tables.lookupIP, ha]
  dsimp only
  rw [hip]
  cases lastSingle entries a with
  | some score => rfl
  | none => exact htrie

/-! ### Longest-prefix match -/

/-- The facts about the networks of entries that are not IPv4-mapped. -/
private theorem network_facts {entries : List IPReputationEntry}
    (hplain : ∀ e ∈ entries, e.mapped = false) {n : IPNet × Int} (hn : n ∈ networks entries)
    (a : Bytes 16) :
    n.1.path.length = n.1.ones ∧ (n.1.contains a.1 = true ↔
      n.1.bits = 8 * (shortIP a).length ∧ n.1.path <+: addrBits (shortIP a)) := by
  obtain ⟨e, he, hnet, -⟩ := mem_networks.mp hn
  have hmapped : n.1.mapped = false := by
    have := hplain e he
    rwa [IPReputationEntry.mapped, hnet] at this
  obtain ⟨-, hcidr⟩ := network_eq_some hnet
  exact ⟨length_path hcidr hmapped, contains_iff hcidr hmapped a⟩

/-- When the network on the path contains the address, it is the longest match. -/
private theorem longestMatch_of_onPath {entries : List IPReputationEntry}
    (hplain : ∀ e ∈ entries, e.mapped = false) {a : Bytes 16} {w : IPNet × Int}
    (hw : longestOnPath entries a = some w) (hcontains : w.1.contains a.1 = true) :
    longestMatch entries a = some w := by
  obtain ⟨before, after, heq, hmatch, hbefore, hafter⟩ := lastLongest_eq_some_iff.mp hw
  have hmem : ∀ n ∈ before ++ w :: after, n ∈ networks entries := by rw [heq]; exact fun n h => h
  have hwlen := (network_facts hplain (hmem w (by simp)) a).1
  have hwpos : w.1.path.length ≠ 0 := by
    rw [Ne, List.length_eq_zero_iff]
    exact (of_decide_eq_true hmatch).1
  -- a network that contains the address has length zero or lies on the path
  have hcases : ∀ n ∈ networks entries, n.1.contains a.1 = true → n.1.ones = 0 ∨
      decide (n.1.path ≠ [] ∧ n.1.path <+: addrBits (shortIP a)) = true := by
    intro n hn hc
    obtain ⟨hlen, hiff⟩ := network_facts hplain hn a
    rcases eq_or_ne n.1.path [] with hnil | hnil
    · exact .inl (by rw [← hlen, hnil]; rfl)
    · exact .inr (decide_eq_true ⟨hnil, (hiff.mp hc).2⟩)
  refine lastLongest_eq_some_iff.mpr ⟨before, after, heq, hcontains, fun n hn hc => ?_,
    fun n hn hc => ?_⟩
  · have hn' := hmem n (by simp [hn])
    obtain hzero | hpath := hcases n hn' hc
    · omega
    · have := hbefore n hn hpath
      rwa [(network_facts hplain hn' a).1, hwlen] at this
  · have hn' := hmem n (by simp [hn])
    obtain hzero | hpath := hcases n hn' hc
    · omega
    · have := hafter n hn hpath
      rwa [(network_facts hplain hn' a).1, hwlen] at this

/-- When nothing is on the path, only a network of length zero can contain the address. -/
private theorem longestMatch_of_not_onPath {entries : List IPReputationEntry}
    (hplain : ∀ e ∈ entries, e.mapped = false) {a : Bytes 16}
    (hnone : longestOnPath entries a = none) :
    longestMatch entries a = none ↔
      ∀ n ∈ networks entries, n.1.ones = 0 → n.1.contains a.1 = false := by
  rw [longestMatch, lastLongest_eq_none_iff]
  refine forall₂_congr fun n hn => ⟨fun h _ => h, fun h => ?_⟩
  by_cases hzero : n.1.ones = 0
  · exact h hzero
  obtain ⟨hlen, hiff⟩ := network_facts hplain hn a
  have hmiss := lastLongest_eq_none_iff.mp hnone n hn
  rw [decide_eq_false_iff_not] at hmiss
  rw [Bool.eq_false_iff, Ne, hiff]
  rintro ⟨-, hpath⟩
  refine hmiss ⟨fun hnil => hzero ?_, hpath⟩
  rw [← hlen, hnil]
  rfl

/-- **When a lookup is longest-prefix match.** The load must meet no IPv4-mapped network; and for
an address without an entry of its own, the network that is found on its path must contain it
(or have the score of the longest that does), and when none is found there must be no network of
length zero of its family. -/
theorem lookupIP_spec_iff (entries : List IPReputationEntry) (ipStr : GoString) :
    ((loadTables entries).bind fun t => t.lookupIP ipStr) = some (lookupSpec entries ipStr) ↔
      (∀ e ∈ entries, e.mapped = false) ∧
        ∀ a, parseIP ipStr = some a → lastSingle entries a = none →
          (longestOnPath entries a = none →
            ∀ n ∈ networks entries, n.1.ones = 0 → n.1.contains a.1 = false) ∧
          ∀ w, longestOnPath entries a = some w →
            w.1.contains a.1 = true ∨ ∃ m, longestMatch entries a = some m ∧ m.2 = w.2 := by
  obtain ⟨⟨e, he, hmapped⟩, hnone⟩ | ⟨hplain, t, ht, -, -⟩ := loadTables_cases entries
  · rw [hnone]
    refine iff_of_false (by simp) fun h => ?_
    simp [h.1 e he] at hmapped
  rw [ht, Option.bind_some, and_iff_right hplain]
  cases hparse : parseIP ipStr with
  | none => simp [Tables.lookupIP, lookupSpec, hparse]
  | some a =>
    rw [lookupIP_eq ht hparse, lookupSpec, hparse]
    simp only [Option.some.injEq, forall_eq']
    cases lastSingle entries a with
    | some score => simp
    | none =>
      simp only [Option.none_or, forall_const]
      cases hw : longestOnPath entries a with
      | none =>
        simp only [Option.map_none, forall_const, reduceCtorEq, false_implies, implies_true,
          and_true]
        rw [← longestMatch_of_not_onPath hplain hw, eq_comm, Option.map_eq_none_iff]
      | some w =>
        simp only [Option.map_some, reduceCtorEq, false_implies, true_and, Option.some.injEq,
          forall_eq']
        constructor
        · intro h
          obtain ⟨m, hm, hscore⟩ := Option.map_eq_some_iff.mp h.symm
          exact .inr ⟨m, hm, hscore⟩
        · rintro (hcontains | ⟨m, hm, hscore⟩)
          · rw [longestMatch_of_onPath hplain hw hcontains]
            rfl
          · rw [hm, Option.map_some, hscore]

/-- A network of IPv6 is found for an IPv4 address that no entry matches. -/
theorem lookupIP_crosses_families :
    ¬ ∀ (entries : List IPReputationEntry) (ipStr : GoString),
      ((loadTables entries).bind fun t => t.lookupIP ipStr) = some (lookupSpec entries ipStr) := by
  intro h
  have := h [⟨1, str "ip", str "2001:db8::/32", 60, true⟩] (str "32.1.13.184")
  revert this
  decide

end VibesWaf

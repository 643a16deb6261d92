import VibesWaf.IPReputation.Lookup

/-!
# Runs of the reputation service

A run is any sequence of calls on the service and of restarts of its process, each with its own
answers of the database. A row is never changed into a network that panics except by a call that
submits one: `call_invariant` is the step, and `run_invariant` the run.

`run_no_panic` is the result for the load: as long as no call submits, past validation and
enabled, an IPv4-mapped network, no call of the run and no restart after it panics.
-/

namespace VibesWaf

/-- A run of calls, each with the answers of the database during it: the last state and the
replies. -/
def runCalls : List (ServiceCall × DBAnswers) → IPReputationService →
    IPReputationService × List Reply
  | [], s => (s, [])
  | (c, ans) :: calls, s =>
    let (s', reply) := s.call ans c
    let (s'', replies) := runCalls calls s'
    (s'', reply :: replies)

/-- The entries a call submits for storage. -/
def ServiceCall.submitted : ServiceCall → List IPReputationEntry
  | .create e => [e]
  | .bulkCreate entries => entries
  | .update e => [e]
  | _ => []

/-- An entry that panics the load once it is stored: enabled, and an IPv4-mapped network. -/
def IPReputationEntry.panics (e : IPReputationEntry) : Bool :=
  e.enabled && e.mapped

/-! ### Validation -/

/-- The two validations accept the same entries. -/
theorem validateBulkEntry_eq_none_iff (e : IPReputationEntry) :
    validateBulkEntry e = none ↔ validateEntry e = none := by
  unfold validateBulkEntry validateEntry
  split_ifs <;> simp

/-! ### The invariant -/

/-- No row of the table would panic the load. -/
def EntryTable.Safe (db : EntryTable) : Prop :=
  ∀ r ∈ db.rows, r.panics = false

theorem EntryTable.Safe.insert {db : EntryTable} (h : db.Safe) {e : IPReputationEntry}
    (he : e.panics = false) : (db.insert e).Safe := by
  intro r hr
  rcases List.mem_append.mp hr with hr | hr
  · exact h r hr
  · rw [List.mem_singleton.mp hr]
    exact he

theorem EntryTable.Safe.update {db : EntryTable} (h : db.Safe) {e : IPReputationEntry}
    (he : e.panics = false) : (db.update e).Safe := by
  intro r hr
  obtain ⟨r, hmem, rfl⟩ := List.mem_map.mp hr
  by_cases hid : r.id = e.id
  · rwa [if_pos hid]
  · rw [if_neg hid]
    exact h r hmem

theorem EntryTable.Safe.updateScore {db : EntryTable} (h : db.Safe) (ids : List Int)
    (score : Int) : (db.updateScore ids score).Safe := by
  intro r hr
  obtain ⟨r, hmem, rfl⟩ := List.mem_map.mp hr
  by_cases hid : r.id ∈ ids
  · rw [if_pos hid]
    exact h r hmem
  · rw [if_neg hid]
    exact h r hmem

theorem EntryTable.Safe.delete {db : EntryTable} (h : db.Safe) (ids : List Int) :
    (db.delete ids).Safe :=
  fun r hr => h r (List.mem_of_mem_filter hr)

/-- Over a safe table the load does not panic, however many rows are listed. -/
theorem EntryTable.Safe.loadTables {db : EntryTable} (h : db.Safe) (n : ℕ) :
    loadTables (db.listEnabled.take n) ≠ none := by
  rw [Ne, loadTables_eq_none_iff]
  rintro ⟨e, he, hmapped⟩
  obtain ⟨hrow, henabled⟩ := List.mem_filter.mp (List.mem_of_mem_take he)
  have := h e hrow
  simp [IPReputationEntry.panics, henabled, hmapped] at this

open IPReputationService

/-- What a call leaves: a safe table, and no panic. -/
private def Fine (r : IPReputationService × Reply) : Prop :=
  r.1.db.Safe ∧ r.2 ≠ .panic

private theorem reloadThen_fine {s : IPReputationService} (h : s.db.Safe) (ans : DBAnswers)
    {reply : Reply} (hreply : reply ≠ .panic) : Fine (reloadThen s ans reply) := by
  unfold reloadThen reload
  cases ans.listed with
  | none => exact ⟨h, hreply⟩
  | some n =>
    obtain ⟨t, ht⟩ := Option.ne_none_iff_exists'.mp (h.loadTables n)
    dsimp only
    rw [ht]
    exact ⟨h, hreply⟩

private theorem bulkLoop_safe (ans : DBAnswers) {entries : List IPReputationEntry}
    (hes : ∀ e ∈ entries, validateEntry e = none → e.panics = false) (i : ℕ) {db : EntryTable}
    (hdb : db.Safe) (created : List IPReputationEntry) (errors : List GoString) :
    (bulkLoop ans i entries db created errors).1.Safe := by
  induction entries generalizing i db created errors with
  | nil => exact hdb
  | cons e entries ih =>
    have hrest : ∀ x ∈ entries, validateEntry x = none → x.panics = false :=
      fun x hx => hes x (List.mem_cons_of_mem _ hx)
    rw [bulkLoop]
    cases hv : validateBulkEntry e with
    | some msg => exact ih hrest i hdb created _
    | none =>
      cases ans.writeError i with
      | some msg => exact ih hrest _ hdb created errors
      | none =>
        have hsafe := hes e List.mem_cons_self ((validateBulkEntry_eq_none_iff e).mp hv)
        exact ih hrest _ (hdb.insert hsafe) _ errors

private theorem fine_of_ne {s : IPReputationService} (h : s.db.Safe) {reply : Reply}
    (hreply : reply ≠ .panic) : Fine (s, reply) :=
  ⟨h, hreply⟩

/-- **The step.** A call whose accepted entries do not panic the load leaves a safe table safe, and
returns. -/
theorem call_invariant {s : IPReputationService} (ans : DBAnswers) {c : ServiceCall}
    (hs : s.db.Safe)
    (hc : ∀ e ∈ c.submitted, validateEntry e = none → e.panics = false) :
    (s.call ans c).1.db.Safe ∧ (s.call ans c).2 ≠ .panic := by
  change Fine (s.call ans c)
  -- what fails before it writes leaves the table alone; what writes keeps it safe, then reloads
  cases c with
  | startUp =>
    have hempty : ({ s with tables := Tables.empty } : IPReputationService).db.Safe := hs
    exact reloadThen_fine hempty ans Reply.noConfusion
  | create e =>
    change Fine (s.create ans e)
    rw [create]
    cases hv : validateEntry e with
    | some msg => exact fine_of_ne hs Reply.noConfusion
    | none =>
      cases ans.writeError 0 with
      | some msg => exact fine_of_ne hs Reply.noConfusion
      | none =>
        have hdb : (s.db.insert e).Safe := hs.insert (hc e (List.mem_singleton_self e) hv)
        change Fine (reloadThen { s with db := s.db.insert e } ans .ok)
        exact reloadThen_fine hdb ans Reply.noConfusion
  | bulkCreate entries =>
    have hdb := bulkLoop_safe ans hc 0 hs [] []
    change Fine (if (bulkLoop ans 0 entries s.db [] []).2.1 = [] then _ else _)
    split
    · exact fine_of_ne hdb Reply.noConfusion
    · exact reloadThen_fine hdb ans Reply.noConfusion
  | update e =>
    change Fine (s.update ans e)
    rw [update]
    cases hv : validateEntry e with
    | some msg => exact fine_of_ne hs Reply.noConfusion
    | none =>
      cases ans.writeError 0 with
      | some msg => exact fine_of_ne hs Reply.noConfusion
      | none =>
        have hdb : (s.db.update e).Safe := hs.update (hc e (List.mem_singleton_self e) hv)
        change Fine (if _ then _ else reloadThen { s with db := s.db.update e } ans .ok)
        split
        · exact fine_of_ne hs Reply.noConfusion
        · exact reloadThen_fine hdb ans Reply.noConfusion
  | delete id =>
    change Fine (s.delete ans id)
    rw [delete]
    cases ans.writeError 0 with
    | some msg => exact fine_of_ne hs Reply.noConfusion
    | none =>
      change Fine (if _ then _ else reloadThen { s with db := s.db.delete [id] } ans .ok)
      split
      · exact fine_of_ne hs Reply.noConfusion
      · exact reloadThen_fine (hs.delete [id]) ans Reply.noConfusion
  | bulkDelete ids =>
    change Fine (s.bulkDelete ans ids)
    rw [bulkDelete]
    split
    · exact reloadThen_fine hs ans Reply.noConfusion
    cases ans.writeError 0 with
    | some msg => exact fine_of_ne hs Reply.noConfusion
    | none => exact reloadThen_fine (hs.delete ids) ans Reply.noConfusion
  | bulkUpdateScore ids score =>
    change Fine (s.bulkUpdateScore ans ids score)
    rw [bulkUpdateScore]
    split
    · exact reloadThen_fine hs ans Reply.noConfusion
    cases ans.writeError 0 with
    | some msg => exact fine_of_ne hs Reply.noConfusion
    | none => exact reloadThen_fine (hs.updateScore ids score) ans Reply.noConfusion

/-- The run: the table stays safe and every call returns. -/
theorem run_invariant {calls : List (ServiceCall × DBAnswers)} {s : IPReputationService}
    (hs : s.db.Safe)
    (hcalls : ∀ c ∈ calls, ∀ e ∈ c.1.submitted, validateEntry e = none → e.panics = false) :
    (runCalls calls s).1.db.Safe ∧ .panic ∉ (runCalls calls s).2 := by
  induction calls generalizing s with
  | nil => exact ⟨hs, by simp [runCalls]⟩
  | cons c calls ih =>
    obtain ⟨hdb, hreply⟩ := call_invariant c.2 hs (hcalls c List.mem_cons_self)
    obtain ⟨hsafe, hreplies⟩ := ih hdb fun x hx => hcalls x (List.mem_cons_of_mem _ hx)
    refine ⟨hsafe, ?_⟩
    rw [runCalls, List.mem_cons, not_or]
    exact ⟨hreply.symm, hreplies⟩

/-! ### Panics -/

/-- A restart that lists every enabled row panics exactly when one of them is an IPv4-mapped
network. -/
theorem startUp_panics_iff (s : IPReputationService) (ans : DBAnswers) {n : ℕ}
    (hlisted : ans.listed = some n) (hall : s.db.rows.length ≤ n) :
    (s.startUp ans).2 = .panic ↔ ¬ s.db.Safe := by
  have htake : s.db.listEnabled.take n = s.db.listEnabled :=
    List.take_of_length_le ((List.length_filter_le _ _).trans hall)
  have hload : (s.startUp ans).2 = .panic ↔ loadTables s.db.listEnabled = none := by
    rw [startUp, reloadThen, reload, hlisted]
    dsimp only
    rw [htake]
    cases loadTables s.db.listEnabled <;> simp
  rw [hload, loadTables_eq_none_iff, EntryTable.Safe]
  push Not
  refine exists_congr fun e => ?_
  rw [EntryTable.listEnabled, List.mem_filter, IPReputationEntry.panics]
  simp [and_assoc]

/-- **No panic.** In every run from a table without an enabled IPv4-mapped network in which no
accepted entry is one, every call returns, a restart after it returns, and every enabled network
is inserted into any trie. -/
theorem run_no_panic {calls : List (ServiceCall × DBAnswers)} {s : IPReputationService}
    (hs : s.db.Safe)
    (hcalls : ∀ c ∈ calls, ∀ e ∈ c.1.submitted, validateEntry e = none → e.panics = false) :
    .panic ∉ (runCalls calls s).2 ∧
      (∀ ans, ((runCalls calls s).1.startUp ans).2 ≠ .panic) ∧
      ∀ e ∈ (runCalls calls s).1.db.rows, e.enabled = true → ∀ net, e.network = some net →
        ∀ t : IPTrie, t.insert net e.score ≠ none := by
  obtain ⟨hsafe, hreplies⟩ := run_invariant hs hcalls
  refine ⟨hreplies, fun ans => ?_, fun e he henabled net hnet t => ?_⟩
  · have hnew : ∀ e ∈ ServiceCall.startUp.submitted, validateEntry e = none → e.panics = false :=
      fun e he => absurd he List.not_mem_nil
    exact (call_invariant ans hsafe hnew).2
  have hmapped : net.mapped = false := by
    have := hsafe e he
    rw [IPReputationEntry.panics, henabled, Bool.true_and, IPReputationEntry.mapped, hnet] at this
    exact this
  rw [insert_network (network_eq_some hnet).2, hmapped]
  simp

/-- The database answers every write and every read. -/
def allAnswered : DBAnswers :=
  ⟨fun _ => none, some 10⟩

/-- A run that stores a network of each family, and restarts. -/
theorem run_no_panic_two :
    let calls := [(.create ⟨0, str "ip", str "10.0.0.0/8", 60, true⟩, allAnswered),
      (.bulkCreate [⟨0, str "ip", str "2001:db8::/32", 50, true⟩], allAnswered),
      (ServiceCall.startUp, allAnswered)]
    .panic ∉ (runCalls calls ⟨EntryTable.empty, Tables.empty⟩).2 :=
  (run_no_panic (by simp [EntryTable.Safe, EntryTable.empty]) (by decide)).1

/-- Storing an IPv4-mapped network panics, and so does every restart after it. -/
theorem run_panics_mapped :
    ¬ ∀ calls : List (ServiceCall × DBAnswers),
      .panic ∉ (runCalls calls ⟨EntryTable.empty, Tables.empty⟩).2 ∧
        ∀ ans, ((runCalls calls ⟨EntryTable.empty, Tables.empty⟩).1.startUp ans).2 ≠ .panic := by
  intro h
  have := (h [(.create ⟨0, str "ip", str "::ffff:1.2.3.0/120", 50, true⟩, allAnswered)]).2
    allAnswered
  revert this
  decide

end VibesWaf

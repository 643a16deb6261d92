import Mathlib.Data.List.Induction

/-!
# Caches that replay earlier results

Requests arrive one after the other, and each stores some entries under keys. What a cache holds
when a request arrives is any part of what was stored before it: entries may have been dropped,
delayed or have expired. `CacheRun` is such a run, over any requests, keys and values.

When what a request stores does not depend on what it finds, the entries of a run are known from
the requests alone, and a property of every request that finds an entry under its key is a property
of pairs: `replay_iff_pairwise`.
-/

namespace VibesWaf.ReplayCache

variable {α κ δ : Type*}

/-- What a cache holds. -/
abbrev Contents (κ δ : Type*) := κ → Option δ

/-- A cache with nothing in it. -/
def empty : Contents κ δ :=
  fun _ => none

/-- A cache with one entry. -/
def single [DecidableEq κ] (key : κ) (d : δ) : Contents κ δ :=
  fun k => if k = key then some d else none

theorem single_eq_some [DecidableEq κ] {key k : κ} {d v : δ} (h : single key d k = some v) :
    (k, v) = (key, d) := by
  rw [single] at h
  split at h
  · rename_i hkey
    rw [hkey, Option.some.inj h]
  · exact absurd h (by simp)

/-- A run: the requests, each with what the cache held when it arrived, and all entries stored. -/
inductive CacheRun (stored : α → Contents κ δ → List (κ × δ)) :
    List (α × Contents κ δ) → List (κ × δ) → Prop
  | nil : CacheRun stored [] []
  | step {run : List (α × Contents κ δ)} {entries : List (κ × δ)} (a : α) (c : Contents κ δ) :
      CacheRun stored run entries → (∀ key d, c key = some d → (key, d) ∈ entries) →
      CacheRun stored (run ++ [(a, c)]) (entries ++ stored a c)

variable {stored : α → Contents κ δ → List (κ × δ)}

/-- Every entry was stored by a request of the run. -/
theorem CacheRun.exists_of_mem {run : List (α × Contents κ δ)} {entries : List (κ × δ)}
    (h : CacheRun stored run entries) {e : κ × δ} (he : e ∈ entries) :
    ∃ p ∈ run, e ∈ stored p.1 p.2 := by
  induction h with
  | nil => exact absurd he List.not_mem_nil
  | @step run entries a c hrun hheld ih =>
    rcases List.mem_append.mp he with hold | hnew
    · obtain ⟨p, hp, hstored⟩ := ih hold
      exact ⟨p, List.mem_append_left _ hp, hstored⟩
    · exact ⟨(a, c), List.mem_append_right _ List.mem_cons_self, hnew⟩

/-- Every sequence of requests has the run in which the cache loses everything. -/
theorem CacheRun.forgetful (stored : α → Contents κ δ → List (κ × δ)) (as : List α) :
    CacheRun stored (as.map fun a => (a, empty)) (as.flatMap fun a => stored a empty) := by
  induction as using List.reverseRecOn with
  | nil => exact .nil
  | append_singleton as a ih =>
    rw [List.map_append, List.flatMap_append, List.flatMap_singleton]
    exact .step a empty ih fun key d h => absurd h (by simp [empty])

/-- **What every request accepts.** In every run over a sequence of requests each accepts the entry
it finds under its key, exactly when each accepts what any earlier one stores under that key. -/
theorem replay_iff_pairwise [DecidableEq κ] (hstored : ∀ a c c', stored a c = stored a c')
    (key : α → κ) (accepts : α → δ → Prop) (as : List α) :
    (∀ run entries, CacheRun stored run entries → run.map Prod.fst = as →
        ∀ p ∈ run, ∀ d, p.2 (key p.1) = some d → accepts p.1 d) ↔
      as.Pairwise fun a b => ∀ d, (key b, d) ∈ stored a empty → accepts b d := by
  induction as using List.reverseRecOn with
  | nil =>
    refine iff_of_true (fun run entries _ hmap p hp => ?_) List.Pairwise.nil
    rw [List.map_eq_nil_iff] at hmap
    rw [hmap] at hp
    exact absurd hp List.not_mem_nil
  | append_singleton as b ih =>
    rw [List.pairwise_append, ← ih]
    constructor
    · intro h
      refine ⟨fun run entries hrun hmap p hp => ?_, List.pairwise_singleton _ _, ?_⟩
      · -- a run over the earlier requests goes on with an empty cache
        have hnext := hrun.step b empty fun key d h => absurd h (by simp [empty])
        exact h _ _ hnext (by simp [hmap]) p (List.mem_append_left _ hp)
      · intro a ha b' hb' d hd
        obtain rfl := List.mem_singleton.mp hb'
        -- the cache kept one entry and hands it to the last request
        have hheld : ∀ k v, single (key b') d k = some v →
            (k, v) ∈ as.flatMap fun a => stored a empty := by
          intro k v hk
          rw [single_eq_some hk]
          exact List.mem_flatMap.mpr ⟨a, ha, hd⟩
        have hrun := (CacheRun.forgetful stored as).step b' (single (key b') d) hheld
        refine h _ _ hrun ?_ _ (List.mem_append_right _ List.mem_cons_self) d (if_pos rfl)
        simp [Function.comp_def]
    · rintro ⟨hearlier, -, hlast⟩ run entries hrun hmap p hp d hd
      cases hrun with
      | nil => exact absurd hp List.not_mem_nil
      | @step run entries a c hrun hheld =>
        rw [List.map_append, List.map_singleton] at hmap
        obtain ⟨hruns, hsingle⟩ := List.append_inj' hmap rfl
        obtain rfl : a = b := (List.cons.inj hsingle).1
        rcases List.mem_append.mp hp with hold | hnew
        · exact hearlier run entries hrun hruns p hold d hd
        · obtain rfl := List.mem_singleton.mp hnew
          obtain ⟨q, hq, hentry⟩ := hrun.exists_of_mem (hheld _ d hd)
          have hmem : q.1 ∈ as := by
            rw [← hruns]
            exact List.mem_map_of_mem hq
          rw [hstored q.1 q.2 empty] at hentry
          exact hlast q.1 hmem a List.mem_cons_self d hentry

end VibesWaf.ReplayCache

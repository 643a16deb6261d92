import Mathlib.Data.Finset.Sort
import Mathlib.Data.List.Lex
import VibesWaf.Challenge.Cookie
import VibesWaf.Challenge.Store
import VibesWaf.Lib.FiniteMap
import VibesWaf.Lib.LeastFirst
import VibesWaf.Lib.Run

/-!
# Room for another challenge

A store holds a bounded number of challenges. `Create` makes room for one more when the store is
full: the expired challenges go first, and if that is not enough, those that expire first, a tenth
of the store at a time. Each of them is found by a pass over the map, in whatever order the
language comes to its keys.

`SizedStore` is the store with the number of its challenges, and its operations are those of
`ChallengeStore` (`toStore_create` and its siblings), which leaves open what is evicted.
`create_evicts_when_full` says of every run what may go.
-/

namespace VibesWaf

/-! ### The store -/

/-- The order in which a pass over a map comes to its keys. The language leaves it open, and each
pass may have another. -/
structure RangeOrder (κ : Type*) where
  range : ℕ → Finset κ → List κ
  nodup : ∀ i s, (range i s).Nodup
  mem_range : ∀ i s k, k ∈ range i s ↔ k ∈ s

/-- Texts in the order of a dictionary. -/
@[reducible] def dictionaryOrder : LinearOrder GoString :=
  LinearOrder.lift' (List.map UInt8.toNat)
    (List.map_injective_iff.mpr fun _ _ => UInt8.toNat_inj.mp)

/-- Passes that come to the keys in the order of a dictionary. -/
def RangeOrder.dictionary : RangeOrder GoString :=
  letI := dictionaryOrder
  ⟨fun _ s => s.sort dictionaryOrder.le, fun _ s => s.sort_nodup _,
    fun _ _ _ => Finset.mem_sort _⟩

/-- How many challenges a store may hold, and how long each of them lives. -/
structure StoreLimits where
  maxSize : ℕ
  ttl : ℤ
  maxSize_pos : 0 < maxSize
  ttl_pos : 0 < ttl

/-- `MaxChallenges`. -/
def maxChallenges : ℕ := 100000

/-- The limits of `NewStore`. -/
def StoreLimits.new (ttl : ℤ) (h : 0 < ttl) : StoreLimits :=
  ⟨maxChallenges, ttl, by decide, h⟩

/-- `generateID`, of the bytes it reads. -/
def generateID (b : Bytes 16) : GoString :=
  hexEncode b.1

/-- `Store`, with the number of its challenges. -/
structure SizedStore where
  challenges : FiniteMap GoString ChallengeData
  solveTracker : GoString → Option SolveRecord

/-- One call of `Create`: what `Generate` answers, the bytes of the id, the time the challenge is
given, and for `evictLocked` the time and the order of its passes. -/
structure Creation where
  generated : Option (GoString × Int64)
  random : Bytes 16
  now : ℤ
  lockedAt : ℤ
  order : RangeOrder GoString

/-- When a challenge expires. -/
def expiry (challenges : FiniteMap GoString ChallengeData) (id : GoString) : ℤ :=
  ((challenges.lookup id).map ChallengeData.expiresAt).getD 0

/-- The pass over a map that drops what has expired. -/
def dropExpired (now : ℤ) (challenges : FiniteMap GoString ChallengeData) :
    FiniteMap GoString ChallengeData :=
  challenges.filterMap fun _ data => if data.expiresAt < now then none else some data

/-- The pass over a map that drops what expires first. -/
def dropOldest (range : Finset GoString → List GoString)
    (challenges : FiniteMap GoString ChallengeData) : FiniteMap GoString ChallengeData :=
  match firstLeast (expiry challenges) none (range challenges.keys) with
  | none => challenges
  | some oldestID => if oldestID ≠ [] then challenges.erase oldestID else challenges

/-- The passes of `evictLocked` from the one with a number on. -/
def dropOldestFrom (order : RangeOrder GoString) :
    ℕ → ℕ → FiniteMap GoString ChallengeData → FiniteMap GoString ChallengeData
  | _, 0, challenges => challenges
  | i, count + 1, challenges =>
    dropOldestFrom order (i + 1) count (dropOldest (order.range i) challenges)

/-- `evictCount`. -/
def evictCount (limits : StoreLimits) : ℕ :=
  if limits.maxSize / 10 < 1 then 1 else limits.maxSize / 10

/-- `evictLocked`. -/
def evictLocked (limits : StoreLimits) (order : RangeOrder GoString) (now : ℤ)
    (challenges : FiniteMap GoString ChallengeData) : FiniteMap GoString ChallengeData :=
  let kept := dropExpired now challenges
  if limits.maxSize ≤ kept.size then dropOldestFrom order 0 (evictCount limits) kept else kept

namespace SizedStore

/-- `NewStore`. -/
def new : SizedStore :=
  ⟨.empty, fun _ => none⟩

/-- The store without the number of its challenges. -/
def toStore (s : SizedStore) : ChallengeStore :=
  ⟨s.challenges.lookup, s.solveTracker⟩

/-- The challenges that stay when another one is to be stored. -/
def makeRoom (limits : StoreLimits) (c : Creation)
    (challenges : FiniteMap GoString ChallengeData) : FiniteMap GoString ChallengeData :=
  if limits.maxSize ≤ challenges.size then evictLocked limits c.order c.lockedAt challenges
  else challenges

/-- `Create`, with the challenge it returns and its id. -/
def create (limits : StoreLimits) (c : Creation) (s : SizedStore) :
    SizedStore × Option (GoString × ChallengeData) :=
  match c.generated with
  | none => (s, none)
  | some (typeName, answer) =>
    let id := generateID c.random
    let data : ChallengeData := ⟨typeName, answer, c.now + limits.ttl, 0⟩
    ({ s with challenges := (makeRoom limits c s.challenges).insert id data }, some (id, data))

/-- `Get`. -/
def get (s : SizedStore) (now : ℤ) (id : GoString) : Option ChallengeData :=
  (s.challenges.lookup id).filter fun data => ¬ data.expiresAt < now

/-- `IncrementAttempts`. -/
def incrementAttempts (s : SizedStore) (id : GoString) : SizedStore × ℤ :=
  match s.challenges.lookup id with
  | none => (s, -1)
  | some data =>
    let attempts := data.attempts + 1
    ({ s with challenges := s.challenges.insert id { data with attempts := attempts } }, attempts)

/-- `Delete`. -/
def delete (s : SizedStore) (id : GoString) : SizedStore :=
  { s with challenges := s.challenges.erase id }

/-- One tick of `cleanup`. -/
def cleanup (s : SizedStore) (now : ℤ) : SizedStore :=
  ⟨dropExpired now s.challenges, fun ip => SolveRecord.current now (s.solveTracker ip)⟩

end SizedStore

/-! ### Runs -/

/-- What happens to a store. -/
inductive StoreEvent
  | create (c : Creation)
  | get (now : ℤ) (id : GoString)
  | incrementAttempts (id : GoString)
  | delete (id : GoString)
  | cleanup (now : ℤ)

/-- The id an event gives to a challenge. -/
def StoreEvent.createdID : StoreEvent → Option GoString
  | .create c => c.generated.map fun _ => generateID c.random
  | _ => none

namespace SizedStore

/-- The store after an event. -/
def step (limits : StoreLimits) (s : SizedStore) : StoreEvent → SizedStore
  | .create c => (s.create limits c).1
  | .get _ _ => s
  | .incrementAttempts id => (s.incrementAttempts id).1
  | .delete id => s.delete id
  | .cleanup now => s.cleanup now

/-- The store after the events. -/
def run (limits : StoreLimits) (events : List StoreEvent) : SizedStore :=
  events.foldl (step limits) new

/-! ### What the store should do -/

/-- The challenges that have not expired. -/
def unexpired (s : SizedStore) (now : ℤ) : Finset GoString :=
  s.challenges.keys.filter fun id => (s.get now id).isSome = true

/-- The challenges that have not expired and are not what they were after a call of `Create`. -/
def evicted (s : SizedStore) (limits : StoreLimits) (c : Creation) : Finset GoString :=
  (s.unexpired c.lockedAt).filter fun id =>
    (s.create limits c).1.challenges.lookup id ≠ s.challenges.lookup id

/-- A call of `Create` for which something is generated stores it and returns it, and any other call
leaves the store alone. What is returned is there until it expires, and a call evicts when it must,
a tenth of the challenges: those that expire first. -/
structure CreateRight (limits : StoreLimits) (c : Creation) (s : SizedStore) : Prop where
  created : ∀ typeName answer, c.generated = some (typeName, answer) → ∃ data : ChallengeData,
    (data.typeName = typeName ∧ data.answer = answer ∧ data.attempts = 0) ∧
      (s.create limits c).2 = some (generateID c.random, data) ∧
      (s.create limits c).1.challenges.lookup (generateID c.random) = some data
  refused : c.generated = none → s.create limits c = (s, none)
  retrievable : ∀ id data, (s.create limits c).2 = some (id, data) →
    c.now < data.expiresAt ∧
      ∀ now ≤ data.expiresAt, (s.create limits c).1.get now id = some data
  full : (s.evicted limits c).Nonempty → (s.unexpired c.lockedAt).card = limits.maxSize
  count : (s.evicted limits c).Nonempty → (s.evicted limits c).card = max 1 (limits.maxSize / 10)
  first : Survives (expiry s.challenges) (s.unexpired c.lockedAt)
    (s.unexpired c.lockedAt \ s.evicted limits c)
  makes_room : c.generated ≠ none → (s.unexpired c.lockedAt).card = limits.maxSize →
    (s.evicted limits c).Nonempty

end SizedStore

/-! ### Eviction -/

section Eviction

variable {m m' m'' : FiniteMap GoString ChallengeData} {limits : StoreLimits} {c : Creation}

/-- Challenges have gone, and those that stay are what they were. -/
def Thins (m m' : FiniteMap GoString ChallengeData) : Prop :=
  ∀ id, m'.lookup id = none ∨ m'.lookup id = m.lookup id

namespace Thins

theorem refl (m : FiniteMap GoString ChallengeData) : Thins m m :=
  fun _ => .inr rfl

theorem trans (h : Thins m m') (h' : Thins m' m'') : Thins m m'' := by
  intro id
  rcases h' id with hnone | hsame
  · exact .inl hnone
  · rw [hsame]
    exact h id

theorem lookup_of_mem (h : Thins m m') {id : GoString} (hmem : id ∈ m'.keys) :
    m'.lookup id = m.lookup id := by
  refine (h id).resolve_left fun hnone => ?_
  rw [m'.mem_keys, hnone] at hmem
  cases hmem

theorem subset (h : Thins m m') : m'.keys ⊆ m.keys := by
  intro id hmem
  have hsame := h.lookup_of_mem hmem
  rw [m'.mem_keys] at hmem
  rw [m.mem_keys, ← hsame]
  exact hmem

theorem lookup_eq (h : Thins m m') (id : GoString) :
    (if (m'.lookup id).isNone then none else m.lookup id) = m'.lookup id := by
  rcases h id with hnone | hsame
  · rw [hnone]
    rfl
  · rw [hsame]
    cases m.lookup id with
    | none => rfl
    | some data => rfl

theorem expiry_eq (h : Thins m m') {id : GoString} (hmem : id ∈ m'.keys) :
    expiry m id = expiry m' id := by
  rw [expiry, expiry, h.lookup_of_mem hmem]

theorem erase (m : FiniteMap GoString ChallengeData) (id : GoString) : Thins m (m.erase id) := by
  intro k
  rw [FiniteMap.lookup_erase]
  split
  · exact .inl rfl
  · exact .inr rfl

end Thins

/-- What the first pass leaves of a challenge. -/
theorem lookup_dropExpired (now : ℤ) (m : FiniteMap GoString ChallengeData) (id : GoString) :
    (dropExpired now m).lookup id =
      (m.lookup id).filter fun data => ¬ data.expiresAt < now := by
  rw [dropExpired, FiniteMap.lookup_filterMap]
  cases m.lookup id with
  | none => rfl
  | some data =>
    rw [Option.bind_some, Option.filter_some]
    by_cases hexpired : data.expiresAt < now
    · simp [hexpired]
    · simp [hexpired]

theorem dropExpired_thins (now : ℤ) (m : FiniteMap GoString ChallengeData) :
    Thins m (dropExpired now m) := by
  intro id
  rw [lookup_dropExpired]
  cases m.lookup id with
  | none => exact .inl rfl
  | some data =>
    rw [Option.filter_some]
    split
    · exact .inr rfl
    · exact .inl rfl

theorem dropOldest_thins (range : Finset GoString → List GoString)
    (m : FiniteMap GoString ChallengeData) : Thins m (dropOldest range m) := by
  rw [dropOldest]
  split
  · exact .refl m
  · split
    · exact .erase m _
    · exact .refl m

theorem dropOldestFrom_thins (order : RangeOrder GoString) (i count : ℕ)
    (m : FiniteMap GoString ChallengeData) : Thins m (dropOldestFrom order i count m) := by
  induction count generalizing i m with
  | zero => exact .refl m
  | succ count ih => exact (dropOldest_thins _ m).trans (ih (i + 1) _)

theorem evictLocked_thins (limits : StoreLimits) (order : RangeOrder GoString) (now : ℤ)
    (m : FiniteMap GoString ChallengeData) : Thins m (evictLocked limits order now m) := by
  rw [evictLocked]
  split
  · exact (dropExpired_thins now m).trans (dropOldestFrom_thins order 0 _ _)
  · exact dropExpired_thins now m

theorem makeRoom_thins (limits : StoreLimits) (c : Creation)
    (m : FiniteMap GoString ChallengeData) : Thins m (SizedStore.makeRoom limits c m) := by
  rw [SizedStore.makeRoom]
  split
  · exact evictLocked_thins limits c.order c.lockedAt m
  · exact .refl m

/-- One pass finds a challenge that expires first. -/
theorem exists_dropOldest (order : RangeOrder GoString) (hid : [] ∉ m.keys)
    (hne : m.keys.Nonempty) (i : ℕ) :
    ∃ id ∈ m.keys, dropOldest (order.range i) m = m.erase id ∧
      ∀ k ∈ m.keys, expiry m id ≤ expiry m k := by
  obtain ⟨k, hk⟩ := hne
  have hrange : order.range i m.keys ≠ [] :=
    List.ne_nil_of_mem ((order.mem_range i m.keys k).mpr hk)
  obtain ⟨id, hmem, hleast, hle⟩ := exists_firstLeast (expiry m) hrange
  have hmem' := (order.mem_range i m.keys id).mp hmem
  refine ⟨id, hmem', ?_, fun k hk => hle k ((order.mem_range i m.keys k).mpr hk)⟩
  have hnonempty : id ≠ [] := by
    rintro rfl
    exact hid hmem'
  rw [dropOldest, hleast]
  exact if_pos hnonempty

/-- **The passes of an eviction** drop as many challenges as there are passes, and those that stay
expire no earlier. -/
theorem dropOldestFrom_spec (order : RangeOrder GoString) (hid : [] ∉ m.keys) (i : ℕ) {count : ℕ}
    (hcount : count ≤ m.size) :
    (dropOldestFrom order i count m).size + count = m.size ∧
      Survives (expiry m) m.keys (dropOldestFrom order i count m).keys := by
  induction count generalizing i m with
  | zero => exact ⟨rfl, .refl _ _⟩
  | succ count ih =>
    have hne : m.keys.Nonempty := Finset.card_pos.mp (by rw [FiniteMap.size] at hcount; omega)
    obtain ⟨id, hmem, hdrop, hleast⟩ := exists_dropOldest order hid hne i
    have hsize : (m.erase id).size + 1 = m.size := Finset.card_erase_add_one hmem
    obtain ⟨hrest, hsurvives⟩ := ih (m := m.erase id)
      (fun hnil => hid (Finset.mem_of_mem_erase hnil)) (i + 1) (by omega)
    rw [dropOldestFrom, hdrop]
    refine ⟨by omega, (Survives.erase hleast).trans (hsurvives.congr fun k hk => ?_)⟩
    exact (Thins.erase m id).expiry_eq hk

theorem evictCount_eq (limits : StoreLimits) :
    evictCount limits = max 1 (limits.maxSize / 10) := by
  rw [evictCount]
  split <;> omega

theorem evictCount_le (limits : StoreLimits) : evictCount limits ≤ limits.maxSize := by
  have hpos := limits.maxSize_pos
  rw [evictCount_eq]
  omega

/-- There is room for another challenge. -/
theorem size_makeRoom_lt (hid : [] ∉ m.keys) (hsize : m.size ≤ limits.maxSize) :
    (SizedStore.makeRoom limits c m).size < limits.maxSize := by
  rw [SizedStore.makeRoom]
  split
  · rw [evictLocked]
    split
    · have hkept : (dropExpired c.lockedAt m).size ≤ m.size := FiniteMap.size_filterMap_le m _
      have hid' : [] ∉ (dropExpired c.lockedAt m).keys :=
        fun hnil => hid ((dropExpired_thins c.lockedAt m).subset hnil)
      obtain ⟨hrest, -⟩ := dropOldestFrom_spec c.order hid' 0
        ((evictCount_le limits).trans ‹_›)
      have hcount := evictCount_eq limits
      omega
    · omega
  · omega

end Eviction

/-! ### One call of `Create` -/

namespace SizedStore

variable {limits : StoreLimits} {c : Creation} {s : SizedStore}

theorem create_of_none (h : c.generated = none) : s.create limits c = (s, none) := by
  rw [create, h]

theorem create_of_some {typeName : GoString} {answer : Int64}
    (h : c.generated = some (typeName, answer)) :
    s.create limits c =
      ({ s with
          challenges := (makeRoom limits c s.challenges).insert (generateID c.random)
            ⟨typeName, answer, c.now + limits.ttl, 0⟩ },
        some (generateID c.random, ⟨typeName, answer, c.now + limits.ttl, 0⟩)) := by
  rw [create, h]

/-- What has not expired is what the first pass keeps. -/
theorem unexpired_eq (s : SizedStore) (now : ℤ) :
    s.unexpired now = (dropExpired now s.challenges).keys := by
  ext id
  have hmem : id ∈ (dropExpired now s.challenges).keys → id ∈ s.challenges.keys :=
    fun h => (dropExpired_thins now _).subset h
  rw [unexpired, Finset.mem_filter, get, ← lookup_dropExpired, ← FiniteMap.mem_keys]
  exact and_iff_right_of_imp hmem

/-- A challenge that goes is one that was not kept. -/
theorem evicted_eq (limits : StoreLimits) (hgenerated : c.generated ≠ none)
    (hfresh : generateID c.random ∉ s.challenges.keys) :
    s.evicted limits c = s.unexpired c.lockedAt \ (makeRoom limits c s.challenges).keys := by
  obtain ⟨⟨typeName, answer⟩, hsome⟩ := Option.ne_none_iff_exists'.mp hgenerated
  have hthins := makeRoom_thins limits c s.challenges
  rw [evicted, Finset.sdiff_eq_filter]
  refine Finset.filter_congr fun id hid => ?_
  have hmem : id ∈ s.challenges.keys := (Finset.mem_filter.mp hid).1
  have hne : id ≠ generateID c.random := fun heq => hfresh (heq ▸ hmem)
  rw [create_of_some hsome, FiniteMap.lookup_insert, if_neg hne]
  constructor
  · exact fun hchanged hkept => hchanged (hthins.lookup_of_mem hkept)
  · intro hgone hsame
    rw [s.challenges.mem_keys, ← hsame, ← FiniteMap.mem_keys] at hmem
    exact hgone hmem

/-- While there is room no challenge goes, and when there is none the passes decide. -/
theorem makeRoom_cases (hsize : s.challenges.size ≤ limits.maxSize) :
    ((s.unexpired c.lockedAt).card < limits.maxSize ∧
        s.unexpired c.lockedAt ⊆ (makeRoom limits c s.challenges).keys) ∨
      ((s.unexpired c.lockedAt).card = limits.maxSize ∧
        makeRoom limits c s.challenges =
          dropOldestFrom c.order 0 (evictCount limits) (dropExpired c.lockedAt s.challenges)) := by
  have hkept : (dropExpired c.lockedAt s.challenges).size ≤ s.challenges.size :=
    FiniteMap.size_filterMap_le _ _
  have hcard : (s.unexpired c.lockedAt).card = (dropExpired c.lockedAt s.challenges).size := by
    rw [unexpired_eq, FiniteMap.size]
  rw [hcard, makeRoom]
  split
  · rw [evictLocked]
    split
    · exact .inr ⟨by omega, rfl⟩
    · refine .inl ⟨by omega, ?_⟩
      rw [unexpired_eq]
  · exact .inl ⟨by omega, Finset.filter_subset _ _⟩

/-- What is generated is stored and returned. -/
theorem exists_create {typeName : GoString} {answer : Int64}
    (h : c.generated = some (typeName, answer)) : ∃ data : ChallengeData,
      (data.typeName = typeName ∧ data.answer = answer ∧ data.attempts = 0) ∧
        (s.create limits c).2 = some (generateID c.random, data) ∧
        (s.create limits c).1.challenges.lookup (generateID c.random) = some data := by
  rw [create_of_some h]
  refine ⟨⟨typeName, answer, c.now + limits.ttl, 0⟩, ⟨rfl, rfl, rfl⟩, rfl, ?_⟩
  rw [FiniteMap.lookup_insert, if_pos rfl]

/-- The challenge that a call returns can be had until it expires. -/
theorem get_create {id : GoString} {data : ChallengeData}
    (h : (s.create limits c).2 = some (id, data)) :
    c.now < data.expiresAt ∧
      ∀ now ≤ data.expiresAt, (s.create limits c).1.get now id = some data := by
  by_cases hgenerated : c.generated = none
  · rw [create_of_none hgenerated] at h
    cases h
  obtain ⟨⟨typeName, answer⟩, hsome⟩ := Option.ne_none_iff_exists'.mp hgenerated
  rw [create_of_some hsome] at h ⊢
  obtain ⟨rfl, rfl⟩ := Prod.mk.inj (Option.some.inj h)
  refine ⟨lt_add_of_pos_right _ limits.ttl_pos, fun now hnow => ?_⟩
  rw [get, FiniteMap.lookup_insert, if_pos rfl]
  exact Option.filter_eq_some_iff.mpr ⟨rfl, by simpa using hnow⟩

/-- A call that evicts nothing is right if there is room. -/
theorem createRight_of_none (hnone : s.evicted limits c = ∅)
    (hroom : c.generated ≠ none → (s.unexpired c.lockedAt).card ≠ limits.maxSize) :
    CreateRight limits c s where
  created _ _ := exists_create
  refused := create_of_none
  retrievable _ _ := get_create
  full hsome := absurd hnone hsome.ne_empty
  count hsome := absurd hnone hsome.ne_empty
  first := by
    rw [hnone, Finset.sdiff_empty]
    exact .refl _ _
  makes_room hgenerated hfull := absurd hfull (hroom hgenerated)

/-- A call that makes its passes is right in a full store. -/
theorem createRight_of_passes (hid : [] ∉ s.challenges.keys) (hgenerated : c.generated ≠ none)
    (hfresh : generateID c.random ∉ s.challenges.keys)
    (hfull : (s.unexpired c.lockedAt).card = limits.maxSize)
    (hpasses : makeRoom limits c s.challenges =
      dropOldestFrom c.order 0 (evictCount limits) (dropExpired c.lockedAt s.challenges)) :
    CreateRight limits c s := by
  have hevicted := evicted_eq limits hgenerated hfresh
  have hid' : [] ∉ (dropExpired c.lockedAt s.challenges).keys :=
    fun hnil => hid ((dropExpired_thins _ _).subset hnil)
  have hle : evictCount limits ≤ (dropExpired c.lockedAt s.challenges).size := by
    rw [unexpired_eq] at hfull
    rw [FiniteMap.size, hfull]
    exact evictCount_le limits
  obtain ⟨hrest, hsurvives⟩ := dropOldestFrom_spec c.order hid' 0 hle
  rw [hpasses] at hevicted
  have hstay : s.unexpired c.lockedAt \ s.evicted limits c =
      (dropOldestFrom c.order 0 (evictCount limits)
        (dropExpired c.lockedAt s.challenges)).keys := by
    rw [hevicted, Finset.sdiff_sdiff_eq_self]
    rw [unexpired_eq]
    exact hsurvives.subset
  have hcount : (s.evicted limits c).card = max 1 (limits.maxSize / 10) := by
    rw [hevicted, unexpired_eq, Finset.card_sdiff_of_subset hsurvives.subset, ← evictCount_eq]
    rw [FiniteMap.size, FiniteMap.size] at hrest
    omega
  refine ⟨fun _ _ => exists_create, create_of_none, fun _ _ => get_create, fun _ => hfull,
    fun _ => hcount, ?_, fun _ _ => ?_⟩
  · rw [hstay, unexpired_eq]
    exact hsurvives.congr fun id hmem => (dropExpired_thins _ _).expiry_eq hmem
  · rw [← Finset.card_pos, hcount]
    omega

/-- **A call of `Create` is right** in a store that respects its bound. -/
theorem create_right (hid : [] ∉ s.challenges.keys) (hsize : s.challenges.size ≤ limits.maxSize)
    (hfresh : c.generated ≠ none → generateID c.random ∉ s.challenges.keys) :
    CreateRight limits c s := by
  by_cases hgenerated : c.generated = none
  · refine createRight_of_none ?_ fun hsome => absurd hgenerated hsome
    rw [evicted, create_of_none hgenerated, Finset.filter_eq_empty_iff]
    exact fun _ _ => not_not_intro rfl
  rcases makeRoom_cases (c := c) hsize with ⟨hroom, hkept⟩ | ⟨hfull, hpasses⟩
  · -- nothing that has not expired is in the way
    refine createRight_of_none ?_ fun _ => hroom.ne
    rw [evicted_eq limits hgenerated (hfresh hgenerated)]
    exact Finset.sdiff_eq_empty_iff_subset.mpr hkept
  · exact createRight_of_passes hid hgenerated (hfresh hgenerated) hfull hpasses

/-! ### Runs of the store -/

theorem generateID_ne_nil (b : Bytes 16) : generateID b ≠ [] := by
  intro hnil
  have hlength := length_hexEncode b.1
  rw [generateID] at hnil
  rw [hnil, b.2] at hlength
  cases hlength

/-- What the events leave respects its bound, and holds what they created. -/
structure Bounded (limits : StoreLimits) (past : List StoreEvent) (s : SizedStore) : Prop where
  size_le : s.challenges.size ≤ limits.maxSize
  created : ∀ id ∈ s.challenges.keys, id ∈ past.filterMap StoreEvent.createdID

theorem Bounded.nil_not_mem {past : List StoreEvent} (h : Bounded limits past s) :
    [] ∉ s.challenges.keys := by
  intro hmem
  obtain ⟨event, -, hid⟩ := List.mem_filterMap.mp (h.created [] hmem)
  cases event with
  | create c =>
    obtain ⟨_, -, hnil⟩ := Option.map_eq_some_iff.mp hid
    exact generateID_ne_nil c.random hnil
  | get now id => cases hid
  | incrementAttempts id => cases hid
  | delete id => cases hid
  | cleanup now => cases hid

/-- A store with fewer keys stays within its bound. -/
private theorem Bounded.mono {past : List StoreEvent} {s' : SizedStore} (h : Bounded limits past s)
    (hsubset : s'.challenges.keys ⊆ s.challenges.keys) (event : StoreEvent) :
    Bounded limits (past ++ [event]) s' := by
  refine ⟨(FiniteMap.size_le_of_subset hsubset).trans h.size_le, fun id hid => ?_⟩
  rw [List.filterMap_append]
  exact List.mem_append_left _ (h.created id (hsubset hid))

/-- **One event** keeps the bound. -/
theorem bounded_step {past : List StoreEvent} (h : Bounded limits past s) (event : StoreEvent) :
    Bounded limits (past ++ [event]) (s.step limits event) := by
  cases event with
  | get now id => exact h.mono (Finset.Subset.refl _) _
  | incrementAttempts id =>
    refine h.mono ?_ _
    rw [step, incrementAttempts]
    split
    · exact Finset.Subset.refl _
    · rename_i data hdata
      have hmem : id ∈ s.challenges.keys := by
        rw [s.challenges.mem_keys, hdata]
        rfl
      exact Finset.insert_subset hmem (Finset.Subset.refl _)
  | delete id => exact h.mono (Finset.erase_subset _ _) _
  | cleanup now => exact h.mono (dropExpired_thins now _).subset _
  | create c =>
    by_cases hgenerated : c.generated = none
    · rw [step, create_of_none hgenerated]
      exact h.mono (Finset.Subset.refl _) _
    · obtain ⟨⟨typeName, answer⟩, hsome⟩ := Option.ne_none_iff_exists'.mp hgenerated
      rw [step, create_of_some hsome]
      have hroom := size_makeRoom_lt (c := c) h.nil_not_mem h.size_le
      refine ⟨(FiniteMap.size_insert_le_iff hroom.le _).mpr (.inr hroom), fun id hid => ?_⟩
      rw [List.filterMap_append, List.mem_append]
      rcases Finset.mem_insert.mp hid with rfl | hold
      · exact .inr (by simp [StoreEvent.createdID, hsome])
      · exact .inl (h.created id ((makeRoom_thins limits c s.challenges).subset hold))

theorem run_append (limits : StoreLimits) (past : List StoreEvent) (event : StoreEvent) :
    run limits (past ++ [event]) = (run limits past).step limits event :=
  List.foldl_concat _ _ _ _

/-- **A run** keeps the bound. -/
theorem bounded_run (limits : StoreLimits) (events : List StoreEvent) :
    Bounded limits events (run limits events) := by
  induction events using List.reverseRecOn with
  | nil => exact ⟨Nat.zero_le _, fun id hid => absurd hid (Finset.notMem_empty id)⟩
  | append_singleton past event ih =>
    rw [run_append]
    exact bounded_step ih event

/-- **Evictions of a run.** A store never holds more challenges than it may, and every call of
`Create` is right, when no id is given twice. -/
theorem create_evicts_when_full (limits : StoreLimits) (events : List StoreEvent)
    (hids : (events.filterMap StoreEvent.createdID).Nodup) :
    (∀ past, past <+: events → (run limits past).challenges.size ≤ limits.maxSize) ∧
      ∀ (past : List StoreEvent) (c : Creation), past ++ [.create c] <+: events →
        CreateRight limits c (run limits past) := by
  refine ⟨fun past _ => (bounded_run limits past).size_le, fun past c hpast => ?_⟩
  have hbounded := bounded_run limits past
  refine create_right hbounded.nil_not_mem hbounded.size_le fun hgenerated hmem => ?_
  -- the new id would be one of those given before
  have hnodup := hids.sublist (hpast.sublist.filterMap StoreEvent.createdID)
  rw [List.filterMap_append] at hnodup
  obtain ⟨generated, hsome⟩ := Option.ne_none_iff_exists'.mp hgenerated
  refine (List.nodup_append.mp hnodup).2.2 _ (hbounded.created _ hmem) (generateID c.random) ?_ rfl
  simp [StoreEvent.createdID, hsome]

/-- A call that creates a slider challenge. -/
def sliderCreation (byte : UInt8) (now : ℤ) : Creation where
  generated := some (str "slider", 50)
  random := ⟨List.replicate 16 byte, rfl⟩
  now := now
  lockedAt := now
  order := .dictionary

/-- The third challenge of a store for two. -/
theorem create_evicts_when_full_third :
    let limits : StoreLimits := ⟨2, 120, by decide, by decide⟩
    let past := [StoreEvent.create (sliderCreation 1 10), .create (sliderCreation 2 5)]
    (∀ beginning, beginning <+: past ++ [.create (sliderCreation 3 20)] →
        (run limits beginning).challenges.size ≤ 2) ∧
      CreateRight limits (sliderCreation 3 20) (run limits past) := by
  intro limits past
  obtain ⟨hsize, hright⟩ := create_evicts_when_full limits
    (past ++ [.create (sliderCreation 3 20)]) (by decide)
  exact ⟨hsize, hright past _ (List.prefix_refl _)⟩

/-! ### The store without its size -/

/-- `Create` is the operation of `ChallengeStore` that evicts what is not kept. -/
theorem toStore_create {typeName : GoString} {answer : Int64}
    (h : c.generated = some (typeName, answer)) :
    (s.create limits c).1.toStore =
      s.toStore.create (generateID c.random) typeName answer (c.now + limits.ttl) fun id =>
        ((makeRoom limits c s.challenges).lookup id).isNone := by
  have hkept : (fun id => if ((makeRoom limits c s.challenges).lookup id).isNone then none
      else s.challenges.lookup id) = (makeRoom limits c s.challenges).lookup :=
    funext (makeRoom_thins limits c s.challenges).lookup_eq
  rw [create_of_some h, ChallengeStore.create, toStore, toStore]
  dsimp only
  rw [hkept, ChallengeStore.put]
  congr 1
  funext id
  exact (Function.update_apply ..).symm

theorem toStore_get (now : ℤ) (id : GoString) : s.toStore.get now id = s.get now id :=
  rfl

theorem toStore_incrementAttempts (id : GoString) :
    s.toStore.incrementAttempts id =
      ((s.incrementAttempts id).1.toStore, (s.incrementAttempts id).2) := by
  have hlookup : s.toStore.challenges id = s.challenges.lookup id := rfl
  rw [ChallengeStore.incrementAttempts, incrementAttempts, hlookup]
  cases s.challenges.lookup id with
  | none => rfl
  | some data =>
    refine Prod.ext ?_ rfl
    dsimp only
    rw [ChallengeStore.put, toStore, toStore]
    congr 1
    funext k
    exact Function.update_apply ..

theorem toStore_delete (id : GoString) : (s.delete id).toStore = s.toStore.delete id := by
  rw [ChallengeStore.delete, ChallengeStore.put, toStore, delete, toStore]
  congr 1
  funext k
  exact (Function.update_apply ..).symm

theorem toStore_cleanup (now : ℤ) : (s.cleanup now).toStore = s.toStore.cleanup now := by
  rw [ChallengeStore.cleanup, toStore, cleanup]
  congr 1
  exact funext fun id => lookup_dropExpired now s.challenges id

end SizedStore

end VibesWaf

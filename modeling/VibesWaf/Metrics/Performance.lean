import Mathlib.Data.List.Induction
import VibesWaf.Go.Numbers
import VibesWaf.Lib.NearestRank

/-!
# The latencies of a window

The tracker keeps a sample of each request, with its times, and drops samples that have left the
window when the next one is recorded. `GetStats` sorts the times of the samples within the window
and reports averages and percentiles. Durations and times are nanoseconds, reported times are
milliseconds; arithmetic on them is exact.

`snapshot_run` says that nothing within the window has been dropped. The percentiles are meant to be
nearest ranks, at the index `⌈N p⌉ - 1`; `percentiles_iff` says when the index that is computed, one
more than that, leads to the same time.
-/

namespace VibesWaf

/-! ### The tracker -/

/-- `RequestMetrics`. -/
structure RequestMetrics where
  wallTime : ℤ
  cpuTime : ℤ
  waitTime : ℤ
  timestamp : ℤ
  deriving DecidableEq

/-- `Stats`. -/
structure Stats where
  p50LatencyMs : ℚ
  p90LatencyMs : ℚ
  p95LatencyMs : ℚ
  p99LatencyMs : ℚ
  avgLatencyMs : ℚ
  avgPipelineMs : ℚ
  avgUpstreamMs : ℚ
  p50PipelineMs : ℚ
  p95PipelineMs : ℚ
  p99PipelineMs : ℚ
  p50UpstreamMs : ℚ
  p95UpstreamMs : ℚ
  p99UpstreamMs : ℚ
  requestCount : ℕ
  deriving DecidableEq

/-- `percentile`. -/
def percentile (sorted : List ℚ) (p : ℚ) : ℚ :=
  match sorted with
  | [] => 0
  | first :: rest =>
    let idx := truncate ((first :: rest).length * p + 0.999999)
    if idx < 0 then first
    else if (first :: rest).length ≤ idx then (first :: rest).getLast (List.cons_ne_nil _ _)
    else (first :: rest)[idx.toNat]?.getD 0

/-- `float64(d.Nanoseconds()) / 1_000_000.0`. -/
def milliseconds (d : ℤ) : ℚ :=
  d / 1000000

/-- `sort.Float64s`. -/
def sortFloats (values : List ℚ) : List ℚ :=
  values.insertionSort (· ≤ ·)

/-- The statistics of the samples within the window. -/
def statsOf (snapshot : List RequestMetrics) : Stats :=
  let latencies := snapshot.map fun m => milliseconds m.wallTime
  let pipelineLatencies := snapshot.map fun m => milliseconds m.cpuTime
  let upstreamLatencies := snapshot.map fun m => milliseconds m.waitTime
  let n : ℚ := snapshot.length
  { p50LatencyMs := percentile (sortFloats latencies) 0.50
    p90LatencyMs := percentile (sortFloats latencies) 0.90
    p95LatencyMs := percentile (sortFloats latencies) 0.95
    p99LatencyMs := percentile (sortFloats latencies) 0.99
    avgLatencyMs := latencies.sum / n
    avgPipelineMs := pipelineLatencies.sum / n
    avgUpstreamMs := upstreamLatencies.sum / n
    p50PipelineMs := percentile (sortFloats pipelineLatencies) 0.50
    p95PipelineMs := percentile (sortFloats pipelineLatencies) 0.95
    p99PipelineMs := percentile (sortFloats pipelineLatencies) 0.99
    p50UpstreamMs := percentile (sortFloats upstreamLatencies) 0.50
    p95UpstreamMs := percentile (sortFloats upstreamLatencies) 0.95
    p99UpstreamMs := percentile (sortFloats upstreamLatencies) 0.99
    requestCount := snapshot.length }

/-! ### Percentiles -/

/-- A number is just above an integer. -/
def JustAbove (x : ℚ) : Prop :=
  0 < Int.fract x ∧ Int.fract x < 0.000001

instance (x : ℚ) : Decidable (JustAbove x) :=
  inferInstanceAs (Decidable (_ ∧ _))

/-- The index that `percentile` computes is the rank counted from one, unless `N p` is just above an
integer. -/
theorem truncate_rank {x : ℚ} (hx : 0 < x) :
    truncate (x + 0.999999) =
      if JustAbove x then (⌈x⌉₊ : ℤ) - 1 else ⌈x⌉₊ := by
  have hceil : (⌈x⌉₊ : ℤ) = ⌈x⌉ := Int.natCast_ceil_eq_ceil hx.le
  have hfloor : (⌊x⌋ : ℚ) + Int.fract x = x := Int.floor_add_fract x
  have hnonneg := Int.fract_nonneg x
  have hlt := Int.fract_lt_one x
  have hpos : (0 : ℚ) ≤ x + 0.999999 := by linarith
  rw [truncate, if_pos hpos, hceil]
  split_ifs with hjust
  · have hup : ⌈x⌉ = ⌊x⌋ + 1 := by
      rw [Int.ceil_eq_iff]
      push_cast
      constructor <;> linarith [hjust.1]
    rw [hup, add_sub_cancel_right, Int.floor_eq_iff]
    constructor <;> linarith [hjust.2]
  · rcases hnonneg.lt_or_eq with hfract | hfract
    · have hlarge : (0.000001 : ℚ) ≤ Int.fract x := not_lt.mp fun h => hjust ⟨hfract, h⟩
      have hup : ⌈x⌉ = ⌊x⌋ + 1 := by
        rw [Int.ceil_eq_iff]
        push_cast
        constructor <;> linarith
      rw [hup, Int.floor_eq_iff]
      push_cast
      constructor <;> linarith
    · have hup : ⌈x⌉ = ⌊x⌋ := by
        rw [Int.ceil_eq_iff]
        constructor <;> linarith
      rw [hup, Int.floor_eq_iff]
      constructor <;> linarith

/-- The element after the nearest rank is missing, or no other. -/
def NextEqual (p : ℚ) (sorted : List ℚ) : Prop :=
  ∀ next ∈ sorted[nearestRank p sorted.length]?,
    sorted[nearestRank p sorted.length - 1]? = some next

/-- A multiple of a hundredth is not just above an integer. -/
theorem not_justAbove (k n : ℕ) : ¬ JustAbove (n * (k / 100)) := by
  rintro ⟨hpos, hsmall⟩
  have hfract : Int.fract (n * (k / 100) : ℚ) * 100 =
      ((n * k - ⌊(n * (k / 100) : ℚ)⌋ * 100 : ℤ) : ℚ) := by
    rw [Int.fract]
    push_cast
    ring
  have hone : (1 : ℚ) ≤ Int.fract (n * (k / 100) : ℚ) * 100 := by
    have hpos' : (0 : ℚ) < Int.fract (n * (k / 100) : ℚ) * 100 := mul_pos hpos (by norm_num)
    rw [hfract] at hpos' ⊢
    exact_mod_cast Int.add_one_le_iff.mpr (Int.cast_pos.mp hpos')
  linarith

/-- What `percentile` returns at an index. -/
theorem percentile_eq {p : ℚ} {sorted : List ℚ} (hne : sorted ≠ []) {idx : ℕ}
    (hidx : truncate (sorted.length * p + 0.999999) = idx) :
    percentile sorted p = sorted[idx]?.getD (sorted.getLast hne) := by
  cases sorted with
  | nil => exact absurd rfl hne
  | cons first rest =>
    rw [percentile, hidx, if_neg (by omega), Int.toNat_natCast]
    split_ifs with hlast
    · rw [List.getElem?_eq_none (by omega), Option.getD_none]
    · rw [List.getElem?_eq_getElem (by omega), Option.getD_some, Option.getD_some]

/-- **`percentile`** returns the element of the nearest rank exactly if the next one is equal, or
the index is right by chance. -/
theorem percentile_iff {p : ℚ} (hp : 0 < p) (hp' : p ≤ 1) {sorted : List ℚ} (hne : sorted ≠ []) :
    sorted[nearestRank p sorted.length - 1]? = some (percentile sorted p) ↔
      JustAbove (sorted.length * p) ∨ NextEqual p sorted := by
  have hn : 0 < sorted.length := List.length_pos_iff.mpr hne
  have hpos := nearestRank_pos hp hn
  have hle := nearestRank_le hp' sorted.length
  have hrank := truncate_rank (mul_pos (Nat.cast_pos.mpr hn) hp : (0 : ℚ) < sorted.length * p)
  rw [← nearestRank] at hrank
  by_cases hjust : JustAbove (sorted.length * p)
  · rw [if_pos hjust, ← Nat.cast_pred hpos] at hrank
    refine iff_of_true ?_ (.inl hjust)
    rw [percentile_eq hne hrank, List.getElem?_eq_getElem (by omega), Option.getD_some]
  · rw [if_neg hjust] at hrank
    rw [or_iff_right hjust, NextEqual, percentile_eq hne hrank]
    cases hnext : sorted[nearestRank p sorted.length]? with
    | none =>
      have hlast : nearestRank p sorted.length = sorted.length :=
        le_antisymm hle (List.getElem?_eq_none_iff.mp hnext)
      refine iff_of_true ?_ fun next hmem => absurd hmem (by simp)
      rw [hlast, Option.getD_none, ← List.getLast?_eq_getElem?, List.getLast?_eq_some_getLast]
    | some next => simp

/-- `PerformanceTracker`. -/
structure PerformanceTracker where
  metrics : List RequestMetrics
  window : ℤ
  lastStats : Stats

namespace PerformanceTracker

/-- `NewPerformanceTracker`. -/
def new (window : ℤ) : PerformanceTracker :=
  ⟨[], window, ⟨0, 0, 0, 0, 0, 0, 0, 0, 0, 0, 0, 0, 0, 0⟩⟩

/-- The sample of a request. -/
def sample (wallTime cpuTime now : ℤ) : RequestMetrics :=
  ⟨wallTime, cpuTime, max (wallTime - cpuTime) 0, now⟩

/-- `Record`, which reads the time twice. -/
def record (pt : PerformanceTracker) (wallTime cpuTime now now' : ℤ) : PerformanceTracker :=
  let metrics := pt.metrics ++ [sample wallTime cpuTime now]
  let cutoff := now' - pt.window
  let validIdx := (metrics.findIdx? fun m => cutoff < m.timestamp).getD 0
  { pt with metrics := metrics.drop validIdx }

/-- The samples `GetStats` looks at. -/
def snapshot (pt : PerformanceTracker) (now : ℤ) : List RequestMetrics :=
  pt.metrics.filter fun m => now - pt.window < m.timestamp

/-- `GetStats`. -/
def getStats (pt : PerformanceTracker) (now : ℤ) : PerformanceTracker × Stats :=
  if pt.snapshot now = [] then (pt, pt.lastStats)
  else
    let stats := statsOf (pt.snapshot now)
    ({ pt with lastStats := stats }, stats)

end PerformanceTracker

/-! ### Runs -/

/-- One call of the tracker, with the times it reads. -/
inductive TrackerCall
  | record (wallTime cpuTime now now' : ℤ)
  | getStats (now : ℤ)

namespace TrackerCall

def times : TrackerCall → List ℤ
  | record _ _ now now' => [now, now']
  | getStats now => [now]

/-- The sample a call records. -/
def recorded : TrackerCall → Option RequestMetrics
  | record wallTime cpuTime now _ => some (PerformanceTracker.sample wallTime cpuTime now)
  | getStats _ => none

end TrackerCall

namespace PerformanceTracker

/-- The tracker after a call. -/
def step (pt : PerformanceTracker) : TrackerCall → PerformanceTracker
  | .record wallTime cpuTime now now' => pt.record wallTime cpuTime now now'
  | .getStats now => (pt.getStats now).1

/-- The tracker after the calls. -/
def run (window : ℤ) (calls : List TrackerCall) : PerformanceTracker :=
  calls.foldl step (new window)

/-- The times that are read do not decrease. -/
def Chronological (calls : List TrackerCall) : Prop :=
  (calls.flatMap TrackerCall.times).Pairwise (· ≤ ·)

/-- The samples recorded within the window. -/
def windowSamples (window now : ℤ) (calls : List TrackerCall) : List RequestMetrics :=
  (calls.filterMap TrackerCall.recorded).filter fun m => now - window < m.timestamp

/-- The wall times of the samples recorded within the window, in milliseconds. -/
def windowLatencies (window now : ℤ) (calls : List TrackerCall) : List ℚ :=
  (windowSamples window now calls).map fun m => milliseconds m.wallTime

/-! ### Nothing within the window is dropped -/

/-- What has been dropped of the samples is outside of the window. -/
def Keeps (pt : PerformanceTracker) (samples : List RequestMetrics) (now : ℤ) : Prop :=
  ∃ dropped, samples = dropped ++ pt.metrics ∧ ∀ m ∈ dropped, m.timestamp ≤ now - pt.window

theorem Keeps.mono {pt : PerformanceTracker} {samples : List RequestMetrics} {now later : ℤ}
    (h : pt.Keeps samples now) (hle : now ≤ later) : pt.Keeps samples later := by
  obtain ⟨dropped, hsamples, hold⟩ := h
  exact ⟨dropped, hsamples, fun m hm => (hold m hm).trans (by omega)⟩

/-- `Record` drops samples from the front that have left the window. -/
theorem Keeps.record {pt : PerformanceTracker} {samples : List RequestMetrics} {now' : ℤ}
    (h : pt.Keeps samples now') (wallTime cpuTime now : ℤ) :
    (pt.record wallTime cpuTime now now').Keeps (samples ++ [sample wallTime cpuTime now])
      now' := by
  obtain ⟨dropped, rfl, hold⟩ := h
  let metrics := pt.metrics ++ [sample wallTime cpuTime now]
  let validIdx := (metrics.findIdx? fun m => now' - pt.window < m.timestamp).getD 0
  have hfront : ∀ m ∈ metrics.take validIdx, m.timestamp ≤ now' - pt.window := by
    intro m hm
    cases hfind : metrics.findIdx? fun m => now' - pt.window < m.timestamp with
    | none => simp [validIdx, hfind] at hm
    | some i =>
      obtain ⟨hi, -, hbefore⟩ := List.findIdx?_eq_some_iff_getElem.mp hfind
      obtain ⟨j, hj, rfl⟩ := List.mem_take_iff_getElem.mp hm
      have hidx : validIdx = i := by simp only [validIdx, hfind, Option.getD_some]
      have hnot := hbefore j (by omega)
      simpa using hnot
  refine ⟨dropped ++ metrics.take validIdx, ?_, ?_⟩
  · change dropped ++ pt.metrics ++ _ = dropped ++ metrics.take validIdx ++ metrics.drop validIdx
    rw [List.append_assoc, List.append_assoc, List.take_append_drop]
  · intro m hm
    rcases List.mem_append.mp hm with hm | hm
    · exact hold m hm
    · exact hfront m hm

theorem getStats_metrics (pt : PerformanceTracker) (now : ℤ) :
    (pt.getStats now).1.metrics = pt.metrics ∧ (pt.getStats now).1.window = pt.window := by
  rw [getStats]
  split
  · exact ⟨rfl, rfl⟩
  · exact ⟨rfl, rfl⟩

theorem run_append (window : ℤ) (calls : List TrackerCall) (call : TrackerCall) :
    run window (calls ++ [call]) = (run window calls).step call :=
  List.foldl_concat _ _ _ _

theorem window_run (window : ℤ) (calls : List TrackerCall) :
    (run window calls).window = window := by
  induction calls using List.reverseRecOn with
  | nil => rfl
  | append_singleton calls call ih =>
    rw [run_append]
    cases call with
    | record wallTime cpuTime now now' => exact ih
    | getStats now => exact (getStats_metrics _ now).2.trans ih

/-- **A run** drops only what has left the window. -/
theorem keeps_run (window : ℤ) {calls : List TrackerCall} (hchron : Chronological calls) {now : ℤ}
    (hnow : ∀ t ∈ calls.flatMap TrackerCall.times, t ≤ now) :
    (run window calls).Keeps (calls.filterMap TrackerCall.recorded) now := by
  induction calls using List.reverseRecOn generalizing now with
  | nil => exact ⟨[], rfl, fun m hm => absurd hm List.not_mem_nil⟩
  | append_singleton calls call ih =>
    rw [Chronological, List.flatMap_append, List.flatMap_singleton, List.pairwise_append] at hchron
    obtain ⟨hpast, -, hlater⟩ := hchron
    rw [List.flatMap_append, List.flatMap_singleton] at hnow
    rw [run_append, List.filterMap_append]
    cases call with
    | record wallTime cpuTime time time' =>
      have hkeeps := ih hpast fun t ht => hlater t ht time' (by simp [TrackerCall.times])
      have htime : time' ≤ now := hnow time' (by simp [TrackerCall.times])
      exact (hkeeps.record wallTime cpuTime time).mono htime
    | getStats time =>
      obtain ⟨dropped, hsamples, hold⟩ := ih hpast fun t ht => hnow t (List.mem_append_left _ ht)
      obtain ⟨hmetrics, hwindow⟩ := getStats_metrics (run window calls) time
      refine ⟨dropped, ?_, ?_⟩
      · rw [step, hmetrics, hsamples]
        exact List.append_nil _
      · rw [step, hwindow]
        exact hold

/-- **The samples `GetStats` looks at** are those recorded within the window. -/
theorem snapshot_run (window : ℤ) {calls : List TrackerCall} {now : ℤ}
    (hchron : Chronological (calls ++ [.getStats now])) :
    (run window calls).snapshot now = windowSamples window now calls := by
  rw [Chronological, List.flatMap_append, List.flatMap_singleton, List.pairwise_append] at hchron
  obtain ⟨hpast, -, hlater⟩ := hchron
  obtain ⟨dropped, hsamples, hold⟩ :=
    keeps_run window hpast fun t ht => hlater t ht now (by simp [TrackerCall.times])
  rw [window_run] at hold
  have hnone : dropped.filter (fun m => now - window < m.timestamp) = [] := by
    rw [List.filter_eq_nil_iff]
    intro m hm
    simpa using hold m hm
  rw [snapshot, windowSamples, hsamples, List.filter_append, hnone, window_run, List.nil_append]

end PerformanceTracker

/-! ### Reported percentiles -/

/-- The reported percentiles of the wall times. -/
def Stats.latencyPercentiles (stats : Stats) : List (ℚ × ℚ) :=
  [(0.50, stats.p50LatencyMs), (0.90, stats.p90LatencyMs), (0.95, stats.p95LatencyMs),
    (0.99, stats.p99LatencyMs)]

/-- A percentile of sorted values is their nearest rank exactly if the next value is equal, or the
index is right by chance. -/
theorem percentile_sortFloats_iff {p : ℚ} (hp : 0 < p) (hp' : p ≤ 1) {values : List ℚ}
    (hne : values ≠ []) :
    IsNearestRank p values (percentile (sortFloats values) p) ↔
      JustAbove (values.length * p) ∨ NextEqual p (sortFloats values) := by
  have hperm : (sortFloats values).Perm values := List.perm_insertionSort _ _
  have hsorted : (sortFloats values).Pairwise (· ≤ ·) := List.pairwise_insertionSort _ _
  have hlength : (sortFloats values).length = values.length := hperm.length_eq
  have hne' : sortFloats values ≠ [] := fun hnil => hne (hnil ▸ hperm).nil_eq.symm
  rw [isNearestRank_iff hp hp' hperm hsorted hne, ← hlength, percentile_iff hp hp' hne']

namespace PerformanceTracker

/-- **A reported percentile** of the wall times is the nearest rank over the window exactly if the
next wall time in order is equal, or there is none. -/
theorem percentiles_iff {window now : ℤ} {calls : List TrackerCall}
    (hchron : Chronological (calls ++ [.getStats now]))
    (hsome : windowSamples window now calls ≠ []) {p value : ℚ}
    (hreported : (p, value) ∈ ((run window calls).getStats now).2.latencyPercentiles) :
    IsNearestRank p (windowLatencies window now calls) value ↔
      NextEqual p (sortFloats (windowLatencies window now calls)) := by
  have hne : windowLatencies window now calls ≠ [] := by
    rw [windowLatencies, ne_eq, List.map_eq_nil_iff]
    exact hsome
  have hstats : ((run window calls).getStats now).2 = statsOf (windowSamples window now calls) := by
    rw [getStats, snapshot_run window hchron, if_neg hsome]
  have hpercentile : ∃ k : ℕ, 0 < k ∧ k ≤ 100 ∧ p = k / 100 ∧
      value = percentile (sortFloats (windowLatencies window now calls)) p := by
    rw [hstats] at hreported
    simp only [Stats.latencyPercentiles, List.mem_cons, List.not_mem_nil, or_false,
      Prod.mk.injEq] at hreported
    rcases hreported with ⟨rfl, rfl⟩ | ⟨rfl, rfl⟩ | ⟨rfl, rfl⟩ | ⟨rfl, rfl⟩
    · exact ⟨50, by decide, by decide, by norm_num, rfl⟩
    · exact ⟨90, by decide, by decide, by norm_num, rfl⟩
    · exact ⟨95, by decide, by decide, by norm_num, rfl⟩
    · exact ⟨99, by decide, by decide, by norm_num, rfl⟩
  obtain ⟨k, hpos, hle, rfl, rfl⟩ := hpercentile
  have hk : (0 : ℚ) < k := Nat.cast_pos.mpr hpos
  have hk' : (k : ℚ) ≤ 100 := by exact_mod_cast hle
  rw [percentile_sortFloats_iff (by positivity) ((div_le_one (by norm_num)).mpr hk') hne,
    or_iff_right (not_justAbove k _)]

/-- Five requests, the first of which has left the window when the report is asked for. -/
def fiveRequests : List TrackerCall :=
  [.record 9000000 0 0 0, .record 3000000 0 200000000000 200000000000,
    .record 1000000 0 200000000000 200000000000, .record 8000000 0 250000000000 250000000000,
    .record 3000000 0 250000000000 250000000000]

/-- The median of four requests, two of which take three milliseconds. -/
theorem percentiles_five :
    IsNearestRank 0.50 (windowLatencies 300000000000 310000000000 fiveRequests) 3 := by
  have hchron : Chronological (fiveRequests ++ [.getStats 310000000000]) := by
    unfold Chronological
    decide
  refine (percentiles_iff hchron ?_ ?_).mpr ?_
  · decide
  · decide +kernel
  · have hsorted : sortFloats (windowLatencies 300000000000 310000000000 fiveRequests) =
        [1, 3, 3, 8] := by decide +kernel
    have hranks : ([1, 3, 3, 8] : List ℚ)[nearestRank 0.50 4]? = some 3 ∧
        ([1, 3, 3, 8] : List ℚ)[nearestRank 0.50 4 - 1]? = some 3 := by decide +kernel
    rw [hsorted]
    intro next hnext
    obtain rfl := Option.some.inj (hranks.1.symm.trans hnext)
    exact hranks.2

/-- The median of one and three milliseconds is reported as three. -/
theorem percentiles_two :
    let calls : List TrackerCall := [.record 1000000 0 0 0, .record 3000000 0 0 0]
    Chronological (calls ++ [.getStats 0]) ∧
      ((run 300000000000 calls).getStats 0).2.p50LatencyMs = 3 ∧
      IsNearestRank 0.50 (windowLatencies 300000000000 0 calls) 1 ∧
      ¬ IsNearestRank 0.50 (windowLatencies 300000000000 0 calls) 3 := by
  intro calls
  have hlatencies : windowLatencies 300000000000 0 calls = [1, 3] := by decide +kernel
  have hone : IsNearestRank 0.50 [(1 : ℚ), 3] 1 := by
    refine (isNearestRank_iff (by norm_num) (by norm_num) (List.Perm.refl _) ?_ (by simp) 1).mpr ?_
    · decide
    · decide +kernel
  rw [hlatencies]
  refine ⟨(by decide : List.Pairwise (· ≤ ·) [(0 : ℤ), 0, 0, 0, 0]), by decide +kernel, hone, ?_⟩
  intro hthree
  have hle := hthree.least 1 hone.mem hone.fraction
  norm_num at hle

end PerformanceTracker

end VibesWaf

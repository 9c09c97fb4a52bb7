import Kitematic.KeyOrder
import Kitematic.Observability
import Kitematic.OrderStatistics

/-! The metrics registry with its gauges, summaries of histograms and snapshots. A sample is an
exact rational, and so is the product whose whole part is the place of a percentile. -/

namespace Kitematic.HistogramSummaries
open Dictionary KeyOrder Observability OrderStatistics PyText

inductive IndexError where
  | outOfRange

inductive TypeError where
  | unsupportedOperand

structure Summary where
  count : Nat
  min : ℚ
  max : ℚ
  avg : ℚ
  p50 : ℚ
  p99 : ℚ

def itemAt (items : List ℚ) (i : Nat) : Except IndexError ℚ :=
  match items[i]? with
  | some v => .ok v
  | none => .error .outOfRange

def lastItem (items : List ℚ) : Except IndexError ℚ :=
  match items.getLast? with
  | some v => .ok v
  | none => .error .outOfRange

def round2 (value : ℚ) : ℚ := roundHalfEven (value * 100) / 100

def summarize (values : List ℚ) : Except IndexError Summary :=
  if values = [] then .ok ⟨0, 0, 0, 0, 0, 0⟩
  else do
    let sortedVals := sortBy (fun v => v) values
    let count := sortedVals.length
    let total := sortedVals.sum
    let min ← itemAt sortedVals 0
    let max ← lastItem sortedVals
    let p50 ← itemAt sortedVals (rank count (1 / 2))
    let p99 ← itemAt sortedVals (rank count (99 / 100))
    return ⟨count, min, max, round2 (total / count), p50, p99⟩

structure Registry extends MetricsRegistry where
  gauges : Dict String Value := .empty

structure Snapshot where
  counters : Dict String Int
  histograms : Dict String Summary
  gauges : Dict String Value

namespace Registry

def increment (r : Registry) (metric : String) (value : Int := 1) : Registry :=
  { r with counters := r.counters.set metric (r.getCounter metric + value) }

def record (r : Registry) (metric : String) (value : ℚ) : Registry :=
  { r with toMetricsRegistry := r.toMetricsRegistry.record metric value }

def getHistogramSummary (r : Registry) (metric : String) : Except IndexError Summary :=
  summarize (r.getHistogram metric)

def setGauge (r : Registry) (metric : String) (value : Value) : Registry :=
  { r with gauges := r.gauges.set metric value }

def getGauge (r : Registry) (metric : String) : Value := (r.gauges.get metric).getD .none

def add (current : Value) (delta : Int) : Except TypeError Value :=
  match current with
  | .int i => .ok (.int (i + delta))
  | .float q => .ok (.float (q + delta))
  | .bool b => .ok (.int (b.toNat + delta))
  | _ => .error .unsupportedOperand

def incrementGauge (r : Registry) (metric : String) (delta : Int := 1) :
    Except TypeError Registry :=
  (add ((r.gauges.get metric).getD (.int 0)) delta).map (r.setGauge metric)

def snapshot (r : Registry) : Except IndexError Snapshot := do
  let histSummaries ← r.histograms.keys.mapM fun name =>
    (r.getHistogramSummary name).map fun summary => (name, summary)
  return ⟨r.counters, .ofList histSummaries, r.gauges⟩

end Registry

/-! Runs. -/

inductive Call where
  | increment (metric : String) (value : Int)
  | record (metric : String) (value : ℚ)
  | setGauge (metric : String) (value : Value)
  | incrementGauge (metric : String) (delta : Int)

def handle (r : Registry) : Call → Registry
  | .increment metric value => r.increment metric value
  | .record metric value => r.record metric value
  | .setGauge metric value => r.setGauge metric value
  | .incrementGauge metric delta => (r.incrementGauge metric delta).toOption.getD r

def run (calls : List Call) : Registry := calls.foldl handle {}

def Call.sample (metric : String) : Call → Option ℚ
  | .record metric' value => if metric' = metric then some value else none
  | _ => none

/-- What a run records for a metric. -/
def samples (metric : String) (calls : List Call) : List ℚ := calls.filterMap (Call.sample metric)

/-! What a summary says of the samples. -/

structure Summarizes (values : List ℚ) (s : Summary) : Prop where
  count : s.count = values.length
  average : s.avg = round2 (values.sum / values.length)
  least : s.min ∈ values ∧ ∀ v ∈ values, s.min ≤ v
  greatest : s.max ∈ values ∧ ∀ v ∈ values, v ≤ s.max
  ordered : s.min ≤ s.p50 ∧ s.p50 ≤ s.p99 ∧ s.p99 ≤ s.max
  median : Quantile values (1 / 2) s.p50
  centile : Quantile values (99 / 100) s.p99

theorem itemAt_eq {items : List ℚ} {i : Nat} (inside : i < items.length) :
    itemAt items i = .ok items[i] := by
  simp [itemAt, inside]

theorem lastItem_eq {items : List ℚ} (filled : items ≠ []) :
    lastItem items = .ok (items.getLast filled) := by
  simp [lastItem, List.getLast?_eq_some_getLast filled]

theorem summarizes_sorted {values items : List ℚ} (perm : items.Perm values)
    (up : items.Pairwise (· ≤ ·)) (filled : items ≠ [])
    (half : rank items.length (1 / 2) < items.length)
    (most : rank items.length (99 / 100) < items.length) :
    Summarizes values ⟨items.length, items[0], items.getLast filled,
      round2 (items.sum / items.length), items[rank items.length (1 / 2)],
      items[rank items.length (99 / 100)]⟩ where
  count := perm.length_eq
  average := by
    change round2 (items.sum / items.length) = _
    rw [perm.sum_eq, perm.length_eq]
  least := by
    refine ⟨perm.mem_iff.mp (List.getElem_mem _), fun v member => ?_⟩
    obtain ⟨i, inside, rfl⟩ := List.mem_iff_getElem.mp (perm.mem_iff.mpr member)
    exact getElem_le_getElem up (Nat.zero_le i) inside
  greatest := by
    refine ⟨perm.mem_iff.mp (List.getLast_mem filled), fun v member => ?_⟩
    obtain ⟨i, inside, rfl⟩ := List.mem_iff_getElem.mp (perm.mem_iff.mpr member)
    simp only [List.getLast_eq_getElem]
    exact getElem_le_getElem up (by omega) _
  ordered := by
    refine ⟨getElem_le_getElem up (Nat.zero_le _) half,
      getElem_le_getElem up (rank_mono _ (by norm_num)) most, ?_⟩
    simp only [List.getLast_eq_getElem]
    exact getElem_le_getElem up (by omega) _
  median := quantile_rank perm up (by norm_num) half
  centile := quantile_rank perm up (by norm_num) most

theorem summarize_eq {values : List ℚ} (filled : values ≠ []) :
    ∃ s, summarize values = .ok s ∧ Summarizes values s := by
  have perm := sortBy_perm (fun v => v) values
  have up := sortBy_pairwise (fun v => v) values
  generalize sorted : sortBy (fun v => v) values = items at perm up
  have some : items ≠ [] := fun none => filled (List.perm_nil.mp (none ▸ perm.symm))
  have positive : 0 < items.length := List.length_pos_iff.mpr some
  have half : rank items.length (1 / 2) < items.length :=
    rank_lt (by norm_num) positive (by norm_num)
  have most : rank items.length (99 / 100) < items.length :=
    rank_lt (by norm_num) positive (by norm_num)
  refine ⟨_, ?_, summarizes_sorted perm up some half most⟩
  simp only [summarize, filled, if_false, sorted, itemAt_eq positive, lastItem_eq some,
    itemAt_eq half, itemAt_eq most]
  rfl

theorem summarize_perm {values values' : List ℚ} (perm : values'.Perm values) :
    summarize values' = summarize values := by
  have sorted : sortBy (fun v => v) values' = sortBy (fun v => v) values :=
    sortBy_congr_perm perm fun _ _ _ _ same => same
  have empty : values' = [] ↔ values = [] := by
    rw [← List.length_eq_zero_iff, perm.length_eq, List.length_eq_zero_iff]
  simp only [summarize, sorted, empty]

theorem getHistogram_handle (r : Registry) (call : Call) (metric : String) :
    (handle r call).getHistogram metric = r.getHistogram metric ++ (call.sample metric).toList := by
  cases call with
  | record metric' value =>
    simp only [handle, Registry.record, MetricsRegistry.getHistogram_record, Call.sample]
    by_cases same : metric = metric'
    · simp [same]
    · simp [same, Ne.symm same]
  | incrementGauge metric' delta =>
    cases raised : Registry.add ((r.gauges.get metric').getD (.int 0)) delta <;>
      simp [handle, Registry.incrementGauge, raised, Except.map, Except.toOption,
        Registry.setGauge, MetricsRegistry.getHistogram, Call.sample]
  | _ => simp [handle, Registry.increment, Registry.setGauge, MetricsRegistry.getHistogram, Call.sample]

theorem samples_cons (metric : String) (call : Call) (calls : List Call) :
    samples metric (call :: calls) = (call.sample metric).toList ++ samples metric calls := by
  unfold samples
  cases found : call.sample metric <;> simp [found]

theorem getHistogram_run (metric : String) (calls : List Call) :
    (run calls).getHistogram metric = samples metric calls := by
  have later : ∀ r : Registry, (calls.foldl handle r).getHistogram metric =
      r.getHistogram metric ++ samples metric calls := by
    induction calls with
    | nil => simp [samples]
    | cons call calls ih =>
      intro r
      rw [List.foldl_cons, ih, getHistogram_handle, samples_cons, List.append_assoc]
  exact later {}

/-- After any calls, the summary of a metric with samples is that of the samples, in whatever
order and between whatever other calls they are recorded. -/
theorem summary_right (calls : List Call) (metric : String)
    (recorded : samples metric calls ≠ []) :
    ∃ s, (run calls).getHistogramSummary metric = .ok s ∧ Summarizes (samples metric calls) s ∧
      ∀ calls', (samples metric calls').Perm (samples metric calls) →
        (run calls').getHistogramSummary metric = .ok s := by
  obtain ⟨s, summarized, right⟩ := summarize_eq recorded
  unfold Registry.getHistogramSummary
  rw [getHistogram_run]
  refine ⟨s, summarized, right, fun calls' perm => ?_⟩
  rw [getHistogram_run, summarize_perm perm, summarized]

def latencies : List Call :=
  [.record "latency_ms" 100, .setGauge "active" (.int 1), .record "latency_ms" 50,
    .increment "execution_total" 1, .record "latency_ms" 50]

theorem summary_right_latencies : samples "latency_ms" latencies = [100, 50, 50] ∧
    ∃ s, (run latencies).getHistogramSummary "latency_ms" = .ok s ∧
      Summarizes (samples "latency_ms" latencies) s ∧
        ∀ calls', (samples "latency_ms" calls').Perm (samples "latency_ms" latencies) →
          (run calls').getHistogramSummary "latency_ms" = .ok s :=
  ⟨by decide, summary_right latencies "latency_ms" (by decide)⟩

/-! Snapshots. -/

theorem increment_one (r : Registry) (metric : String) :
    (r.increment metric).toMetricsRegistry = r.toMetricsRegistry.increment metric := rfl

theorem summarize_ok (values : List ℚ) : ∃ s, summarize values = .ok s := by
  by_cases none : values = []
  · exact ⟨_, if_pos none⟩
  · obtain ⟨s, summarized, _⟩ := summarize_eq none
    exact ⟨s, summarized⟩

theorem snapshot_eq (r : Registry) : ∃ snap, r.snapshot = .ok snap ∧
    snap.counters = r.counters ∧ snap.gauges = r.gauges ∧
      ∀ name s, snap.histograms.get name = some s ↔
        r.histograms.contains name = true ∧ r.getHistogramSummary name = .ok s := by
  choose summary summarized using fun name => summarize_ok (r.getHistogram name)
  have entries : r.histograms.keys.mapM (fun name =>
      (r.getHistogramSummary name).map fun summary => (name, summary)) =
        .ok (r.histograms.keys.map fun name => (name, summary name)) := by
    refine mapM_eq_ok fun name _ => ?_
    rw [Registry.getHistogramSummary, summarized]
    rfl
  have distinct : ((r.histograms.keys.map fun name => (name, summary name)).map Prod.fst).Nodup := by
    rw [List.map_map]
    exact (List.map_id r.histograms.keys).symm ▸ r.histograms.nodup
  refine ⟨⟨r.counters, .ofList (r.histograms.keys.map fun name => (name, summary name)), r.gauges⟩,
    ?_, rfl, rfl, fun name s => ?_⟩
  · rw [Registry.snapshot, entries]
    rfl
  · rw [Dict.get_eq_some, Dict.ofList_entries distinct, ← Dict.mem_keys,
      Registry.getHistogramSummary, summarized]
    simp [eq_comm]

end Kitematic.HistogramSummaries

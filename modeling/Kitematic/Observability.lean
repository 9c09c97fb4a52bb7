import Kitematic.Dict
import Kitematic.RuntimeAbi

/-! The metrics registry and the execution tracer as the runtime uses them: counters,
histograms, and the phases of one execution with their results. Gauges, summaries
of histograms and the exported spans are left out. -/

namespace Kitematic.Observability
open Dictionary RuntimeAbi

structure MetricsRegistry where
  counters : Dict String Int := .empty
  histograms : Dict String (List ℚ) := .empty

namespace MetricsRegistry

def getCounter (r : MetricsRegistry) (metric : String) : Int := (r.counters.get metric).getD 0

def getHistogram (r : MetricsRegistry) (metric : String) : List ℚ :=
  (r.histograms.get metric).getD []

def increment (r : MetricsRegistry) (metric : String) : MetricsRegistry :=
  { r with counters := r.counters.set metric (r.getCounter metric + 1) }

def record (r : MetricsRegistry) (metric : String) (value : ℚ) : MetricsRegistry :=
  { r with histograms := r.histograms.set metric (r.getHistogram metric ++ [value]) }

@[simp] theorem getCounter_increment (r : MetricsRegistry) (metric metric' : String) :
    (r.increment metric).getCounter metric' =
      r.getCounter metric' + if metric' = metric then 1 else 0 := by
  unfold increment getCounter
  rw [Dict.get_set]
  by_cases same : metric' = metric <;> simp [same]

@[simp] theorem getHistogram_increment (r : MetricsRegistry) (metric metric' : String) :
    (r.increment metric).getHistogram metric' = r.getHistogram metric' := rfl

@[simp] theorem getCounter_record (r : MetricsRegistry) (metric metric' : String) (value : ℚ) :
    (r.record metric value).getCounter metric' = r.getCounter metric' := rfl

@[simp] theorem getHistogram_record (r : MetricsRegistry) (metric metric' : String) (value : ℚ) :
    (r.record metric value).getHistogram metric' =
      r.getHistogram metric' ++ if metric' = metric then [value] else [] := by
  unfold record getHistogram
  rw [Dict.get_set]
  by_cases same : metric' = metric <;> simp [same]

end MetricsRegistry

structure TraceEntry where
  phase : TracePhase
  startTime : ℚ
  endTime : ℚ
  durationMs : ℚ
  success : Bool
  error : Option String

/-- Metadata of phases is left out: the runtime passes none. -/
structure ExecutionTracer where
  executionId : String
  agentId : String
  intentAction : String
  tenantId : String
  entries : List TraceEntry := []
  currentPhase : Option TracePhase := none
  currentStart : ℚ := 0

structure TraceSummary where
  executionId : String
  agentId : String
  intentAction : String
  tenantId : String
  totalDurationMs : ℚ
  phases : List TracePhase
  failures : Nat
  status : String

namespace ExecutionTracer

def endPhase (t : ExecutionTracer) (now : ℚ) (success : Bool) (error : Option String) :
    Except String ExecutionTracer :=
  match t.currentPhase with
  | none => .error "No active phase to end"
  | some phase =>
      .ok { t with
        entries := t.entries ++
          [⟨phase, t.currentStart, now, (now - t.currentStart) * 1000, success, error⟩]
        currentPhase := none
        currentStart := 0 }

/-- A phase that is still active is ended first. -/
def startPhase (t : ExecutionTracer) (now : ℚ) (phase : TracePhase) : ExecutionTracer :=
  match t.endPhase now true none with
  | .ok ended => { ended with currentPhase := some phase, currentStart := now }
  | .error _ => { t with currentPhase := some phase, currentStart := now }

def getSummary (t : ExecutionTracer) : TraceSummary where
  executionId := t.executionId
  agentId := t.agentId
  intentAction := t.intentAction
  tenantId := t.tenantId
  totalDurationMs := (t.entries.map TraceEntry.durationMs).sum
  phases := t.entries.map TraceEntry.phase
  failures := (t.entries.filter fun e => !e.success).length
  status := if (t.entries.filter fun e => !e.success).isEmpty then "success" else "failure"

def phases (t : ExecutionTracer) : List TracePhase :=
  t.entries.map TraceEntry.phase ++ t.currentPhase.toList

def outcomes (t : ExecutionTracer) : List (TracePhase × Bool) :=
  t.entries.map fun e => (e.phase, e.success)

theorem entries_phases (t : ExecutionTracer) :
    t.entries.map TraceEntry.phase = t.outcomes.map Prod.fst := by
  simp [outcomes]

theorem endPhase_active {t : ExecutionTracer} {phase : TracePhase}
    (active : t.currentPhase = some phase) (now : ℚ) (success : Bool) (error : Option String) :
    ∃ ended, t.endPhase now success error = .ok ended ∧
      ended.outcomes = t.outcomes ++ [(phase, success)] ∧ ended.currentPhase = none := by
  refine ⟨_, by rw [endPhase, active], ?_, rfl⟩
  simp [outcomes]

theorem startPhase_idle {t : ExecutionTracer} (idle : t.currentPhase = none) (now : ℚ)
    (phase : TracePhase) : (t.startPhase now phase).outcomes = t.outcomes ∧
      (t.startPhase now phase).currentPhase = some phase := by
  have none : t.endPhase now true none = .error "No active phase to end" := by rw [endPhase, idle]
  simp [startPhase, none, outcomes]

theorem getSummary_status (t : ExecutionTracer) :
    t.getSummary.status = "success" ↔ ∀ o ∈ t.outcomes, o.2 = true := by
  have failures : (t.entries.filter fun e => !e.success).isEmpty = true ↔
      ∀ o ∈ t.outcomes, o.2 = true := by
    simp [outcomes]
  rw [← failures]
  unfold getSummary
  cases (t.entries.filter fun e => !e.success).isEmpty <;> simp

end ExecutionTracer
end Kitematic.Observability

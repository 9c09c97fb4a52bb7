import Kitematic.Signals

/-! The runtime with a metrics registry and a tracer for each execution that enters
the chain. Whatever the collaborators answer and however the calls interleave, the
counters account for every execution, and each tracer follows the chain. -/

namespace Kitematic.Accounting
open Admission Dictionary Interleaving Observability Resumption RuntimeAbi Signals

/-- `results` are what the calls returned, and `misuses` the phase calls on a tracer
in the wrong state: an end without an active phase, or a start with one. -/
structure Monitored where
  pool : Pool
  metrics : MetricsRegistry := {}
  tracers : Dict String ExecutionTracer := .empty
  results : Dict String ExecutionResult := .empty
  misuses : List (String × Effect) := []

namespace Monitored

def start (rt : KitematicRuntime) : Monitored :=
  { pool := Pool.start { rt with metrics := true, tracer := true } }

def observe (now : ℚ) (id : String) (m : Monitored) (effect : Effect) : Monitored :=
  match effect with
  | .increment metric => { m with metrics := m.metrics.increment metric }
  | .record metric value => { m with metrics := m.metrics.record metric value }
  | .startPhase phase =>
      match m.tracers.get id with
      | none => m
      | some t =>
          { m with
            tracers := m.tracers.set id (t.startPhase now phase)
            misuses := m.misuses ++ if t.currentPhase.isSome then [(id, effect)] else [] }
  | .endPhase success error =>
      match m.tracers.get id with
      | none => m
      | some t =>
          match t.endPhase now success error with
          | .ok ended => { m with tracers := m.tracers.set id ended }
          | .error _ => { m with misuses := m.misuses ++ [(id, effect)] }
  | _ => m

def watch (m : Monitored) (now : ℚ) (id : String) (effects : List Effect) : Monitored :=
  effects.foldl (observe now id) m

/-- The tracer built from the context of an execution. -/
def newTracer (frame : Frame) : ExecutionTracer where
  executionId := frame.executionId
  agentId := frame.intent.agentId
  intentAction := frame.intent.action
  tenantId := quotaTenant frame.tenantCtx

def enter (m : Monitored) (id : String) (progress : Progress) : Monitored :=
  match frameOf progress with
  | none => m
  | some frame =>
      if m.pool.runtime.tracer then { m with tracers := m.tracers.set id (newTracer frame) } else m

def leave (m : Monitored) (pool : Pool) (id : String) (progress : Progress) : Monitored :=
  match progress with
  | .returned result => { m with pool := pool, results := m.results.set id result }
  | _ => { m with pool := pool }

def added (before after : Pool) : List Effect :=
  (after.log.drop before.log.length).map Prod.snd

def step (m : Monitored) : Event → Option Monitored
  | .executeIntent intent id now =>
      (m.pool.executeIntent intent id now).map fun (pool, progress) =>
        (((m.enter id progress).watch now id (added m.pool pool)).leave pool id progress)
  | .resume id reply now =>
      (m.pool.resume id reply now).map fun (pool, progress) =>
        (m.watch now id (added m.pool pool)).leave pool id progress
  | .cancel id => (m.pool.cancel id).map fun pool => { m with pool := pool }
  | .control control =>
      let effects := match control with
        | .stop => m.pool.runtime.stop.2
        | _ => []
      some { m.watch 0 "" effects with
        pool := { m.pool with runtime := control.apply m.pool.runtime } }

theorem watch_signals (m : Monitored) (now : ℚ) (id : String) (effects : List Effect) :
    m.watch now id effects = m.watch now id (signals effects) := by
  unfold watch signals
  induction effects generalizing m with
  | nil => rfl
  | cons effect effects ih =>
    cases effect <;> simp only [List.filter_cons, isSignal, if_true, Bool.false_eq_true, if_false,
      List.foldl_cons, ih] <;> rfl

theorem added_settle (p : Pool) (id : String) (segment : Segment Progress) :
    added p (p.settle id segment) = segment.effects := by
  simp [added, Pool.settle, Function.comp_def]

@[simp] theorem leave_pool (m : Monitored) (pool : Pool) (id : String) (progress : Progress) :
    (m.leave pool id progress).pool = pool := by
  cases progress <;> rfl

@[simp] theorem leave_metrics (m : Monitored) (pool : Pool) (id : String) (progress : Progress) :
    (m.leave pool id progress).metrics = m.metrics := by
  cases progress <;> rfl

@[simp] theorem leave_tracers (m : Monitored) (pool : Pool) (id : String) (progress : Progress) :
    (m.leave pool id progress).tracers = m.tracers := by
  cases progress <;> rfl

@[simp] theorem leave_misuses (m : Monitored) (pool : Pool) (id : String) (progress : Progress) :
    (m.leave pool id progress).misuses = m.misuses := by
  cases progress <;> rfl

theorem watch_increments (m : Monitored) (now : ℚ) (id : String) (metrics : List String) :
    m.watch now id (metrics.map .increment) =
      { m with metrics := metrics.foldl MetricsRegistry.increment m.metrics } := by
  unfold watch
  induction metrics generalizing m with
  | nil => rfl
  | cons metric metrics ih => simp only [List.map_cons, List.foldl_cons, observe, ih]

structure Follows (frame : Frame) (t : ExecutionTracer) : Prop where
  outcomes : t.outcomes = (chainPhases.take (rank frame.awaiting)).map fun phase => (phase, true)
  active : t.currentPhase = some (phaseOf frame.awaiting)

structure Ended (result : ExecutionResult) (t : ExecutionTracer) : Prop where
  idle : t.currentPhase = none
  outcomes : (result.success = true ∧ t.outcomes = chainPhases.map fun phase => (phase, true)) ∨
    (result.success = false ∧ ∃ call, t.outcomes =
      ((chainPhases.take (rank call)).map fun phase => (phase, true)) ++ [(phaseOf call, false)])

theorem take_phaseOf (call : CollaboratorCall) :
    chainPhases.take (rank call + 1) = chainPhases.take (rank call) ++ [phaseOf call] := by
  cases call <;> rfl

/-- What the signals of one segment change: the registry and the call's own tracer. -/
structure Watched (m m' : Monitored) (id : String) (metrics : MetricsRegistry)
    (P : ExecutionTracer → Prop) : Prop where
  metrics : m'.metrics = metrics
  results : m'.results = m.results
  misuses : m'.misuses = m.misuses
  own : ∃ t, m'.tracers.get id = some t ∧ P t
  others : ∀ other, other ≠ id → m'.tracers.get other = m.tracers.get other

theorem Watched.trans {m m' m'' : Monitored} {id : String} {metrics metrics' : MetricsRegistry}
    {P Q : ExecutionTracer → Prop} (first : Watched m m' id metrics P)
    (second : ∀ t, m'.tracers.get id = some t → P t → Watched m' m'' id metrics' Q) :
    Watched m m'' id metrics' Q := by
  obtain ⟨t, found, holds⟩ := first.own
  have rest := second t found holds
  exact ⟨rest.metrics, rest.results.trans first.results, rest.misuses.trans first.misuses, rest.own,
    fun other ne => (rest.others other ne).trans (first.others other ne)⟩

section phases
variable {m : Monitored} {id : String} {t : ExecutionTracer} (now : ℚ)

theorem watched_endPhase {phase : TracePhase} (found : m.tracers.get id = some t)
    (active : t.currentPhase = some phase) (success : Bool) (error : Option String) :
    Watched m (observe now id m (.endPhase success error)) id m.metrics fun ended =>
      ended.outcomes = t.outcomes ++ [(phase, success)] ∧ ended.currentPhase = none := by
  obtain ⟨ended, done, after⟩ := ExecutionTracer.endPhase_active active now success error
  have seen : observe now id m (.endPhase success error) =
      { m with tracers := m.tracers.set id ended } := by
    simp [observe, found, done]
  rw [seen]
  exact ⟨rfl, rfl, rfl, ⟨ended, Dict.get_set_self _ _ _, after⟩,
    fun other ne => (Dict.get_set _ _ _ _).trans (if_neg ne)⟩

theorem watched_startPhase (found : m.tracers.get id = some t) (idle : t.currentPhase = none)
    (phase : TracePhase) :
    Watched m (observe now id m (.startPhase phase)) id m.metrics fun started =>
      started.outcomes = t.outcomes ∧ started.currentPhase = some phase := by
  have seen : observe now id m (.startPhase phase) =
      { m with tracers := m.tracers.set id (t.startPhase now phase) } := by
    simp [observe, found, idle]
  rw [seen]
  exact ⟨rfl, rfl, rfl,
    ⟨_, Dict.get_set_self _ _ _, ExecutionTracer.startPhase_idle idle now phase⟩,
    fun other ne => (Dict.get_set _ _ _ _).trans (if_neg ne)⟩

theorem watched_next {phase : TracePhase} (found : m.tracers.get id = some t)
    (active : t.currentPhase = some phase) (next : TracePhase) :
    Watched m (m.watch now id [.endPhase true none, .startPhase next]) id m.metrics fun after =>
      after.outcomes = t.outcomes ++ [(phase, true)] ∧ after.currentPhase = some next := by
  have ended := watched_endPhase now found active true none
  refine ended.trans fun t' found' ⟨done, idle⟩ => ?_
  have started := watched_startPhase now found' idle next
  obtain ⟨after, kept, same, phase⟩ := started.own
  exact ⟨started.metrics.trans ended.metrics, started.results, started.misuses,
    ⟨after, kept, same.trans done, phase⟩, started.others⟩

theorem watched_enter (traced : m.pool.runtime.tracer = true) (frame : Frame) :
    Watched m ((m.enter id (.suspended frame)).watch now id
      [.increment "runtime.executions.total", .startPhase .intentReceived]) id
      (m.metrics.increment "runtime.executions.total") fun t =>
        t.outcomes = [] ∧ t.currentPhase = some .intentReceived := by
  have started := watched_startPhase now (t := newTracer frame)
    (m := { m with
      metrics := m.metrics.increment "runtime.executions.total"
      tracers := m.tracers.set id (newTracer frame) })
    (Dict.get_set_self m.tracers id (newTracer frame)) rfl .intentReceived
  have seen : (m.enter id (.suspended frame)).watch now id
      [.increment "runtime.executions.total", .startPhase .intentReceived] =
        observe now id { m with
          metrics := m.metrics.increment "runtime.executions.total"
          tracers := m.tracers.set id (newTracer frame) } (.startPhase .intentReceived) := by
    simp only [enter, frameOf, traced, if_true]
    rfl
  rw [seen]
  exact ⟨started.metrics, started.results, started.misuses, started.own, fun other ne =>
    (started.others other ne).trans ((Dict.get_set _ _ _ _).trans (if_neg ne))⟩

end phases

theorem Watched.increments {m m' : Monitored} {id : String} {metrics : MetricsRegistry}
    {P : ExecutionTracer → Prop} (watched : Watched m m' id metrics P) (now : ℚ)
    (counters : List String) : Watched m (m'.watch now id (counters.map .increment)) id
      (counters.foldl MetricsRegistry.increment metrics) P := by
  rw [watch_increments, ← watched.metrics]
  exact ⟨rfl, watched.results, watched.misuses, watched.own, watched.others⟩

theorem Watched.record {m m' : Monitored} {id : String} {metrics : MetricsRegistry}
    {P : ExecutionTracer → Prop} (watched : Watched m m' id metrics P) (now : ℚ) (metric : String)
    (value : ℚ) : Watched m (observe now id m' (.record metric value)) id
      (metrics.record metric value) P := by
  rw [← watched.metrics]
  exact ⟨rfl, watched.results, watched.misuses, watched.own, watched.others⟩

/-- The registry accounts for the executions: those in the chain, and the results. -/
structure Balanced (r : MetricsRegistry) (inChain : Nat) (results : Dict String ExecutionResult) :
    Prop where
  total : r.getCounter "runtime.executions.total" =
    r.getCounter "runtime.executions.completed" + r.getCounter "runtime.executions.failed" + inChain
  samples : ((r.getHistogram "runtime.execution.duration_ms").length : Int) =
    r.getCounter "runtime.executions.completed"
  successes : (results.count ExecutionResult.success : Int) =
    r.getCounter "runtime.executions.completed"

theorem getCounter_foldl (counters : List String) (r : MetricsRegistry) {account : String}
    (other : account ∉ counters) :
    (counters.foldl MetricsRegistry.increment r).getCounter account = r.getCounter account := by
  induction counters generalizing r with
  | nil => rfl
  | cons counter counters ih =>
    rw [List.foldl_cons, ih _ (fun member => other (List.mem_cons_of_mem _ member))]
    have ne : account ≠ counter := fun same => other (same ▸ List.mem_cons_self)
    simp [ne]

theorem getHistogram_foldl (counters : List String) (r : MetricsRegistry) (metric : String) :
    (counters.foldl MetricsRegistry.increment r).getHistogram metric = r.getHistogram metric := by
  induction counters generalizing r with
  | nil => rfl
  | cons counter counters ih => rw [List.foldl_cons, ih, MetricsRegistry.getHistogram_increment]

theorem count_results {results : Dict String ExecutionResult} {id : String}
    (fresh : results.get id = none) (result : ExecutionResult) :
    (results.set id result).count ExecutionResult.success =
      results.count ExecutionResult.success + if result.success then 1 else 0 := by
  rw [Dict.count_set, Dict.erase_of_get_none fresh]

namespace Balanced
variable {r : MetricsRegistry} {inChain : Nat} {results results' : Dict String ExecutionResult}

theorem count (balanced : Balanced r inChain results) {counters : List String}
    (other : ∀ counter ∈ counters, counter ∉ accounts)
    (same : results'.count ExecutionResult.success = results.count ExecutionResult.success) :
    Balanced (counters.foldl MetricsRegistry.increment r) inChain results' := by
  have kept : ∀ account ∈ accounts, account ∉ counters :=
    fun account member counted => other account counted member
  have total := getCounter_foldl counters r (kept "runtime.executions.total" (by decide))
  have completed := getCounter_foldl counters r (kept "runtime.executions.completed" (by decide))
  have failed := getCounter_foldl counters r (kept "runtime.executions.failed" (by decide))
  refine ⟨?_, ?_, ?_⟩
  · rw [total, completed, failed]
    exact balanced.total
  · rw [getHistogram_foldl, completed]
    exact balanced.samples
  · rw [same, completed]
    exact balanced.successes

theorem entered (balanced : Balanced r inChain results) :
    Balanced (r.increment "runtime.executions.total") (inChain + 1) results := by
  obtain ⟨total, samples, successes⟩ := balanced
  refine ⟨?_, ?_, ?_⟩ <;> simp <;> omega

theorem complete (balanced : Balanced r (inChain + 1) results) {id : String}
    (fresh : results.get id = none) {result : ExecutionResult} (won : result.success = true)
    (elapsed : ℚ) :
    Balanced ((r.increment "runtime.executions.completed").record "runtime.execution.duration_ms"
      elapsed) inChain (results.set id result) := by
  obtain ⟨total, samples, successes⟩ := balanced
  refine ⟨?_, ?_, ?_⟩
  · simp
    omega
  · simp
    omega
  · rw [count_results fresh]
    simp [won]
    omega

theorem fail (balanced : Balanced r (inChain + 1) results) {id : String}
    (fresh : results.get id = none) {result : ExecutionResult} (lost : result.success = false)
    {causes : List String} (other : ∀ cause ∈ causes, cause ∉ accounts) :
    Balanced ((causes ++ ["runtime.executions.failed"]).foldl MetricsRegistry.increment r) inChain
      (results.set id result) := by
  have same : (results.set id result).count ExecutionResult.success =
      results.count ExecutionResult.success := by
    rw [count_results fresh, lost]
    rfl
  obtain ⟨total, samples, successes⟩ := balanced.count other same
  rw [List.foldl_append]
  refine ⟨?_, ?_, ?_⟩
  · simp
    omega
  · simpa using samples
  · simpa using successes

end Balanced

/-- The tracer of one call beside its frame and its result: it follows the frame
while there is one, and has ended as the result says. -/
def Tracked (flying : Option Frame) (result : Option ExecutionResult)
    (tracer : Option ExecutionTracer) : Prop :=
  match flying, tracer with
  | some frame, tracer => result = none ∧ ∃ t, tracer = some t ∧ Follows frame t
  | none, some t => ∃ r, result = some r ∧ Ended r t
  | none, none => True

theorem watched_complete {m : Monitored} {id : String} {t : ExecutionTracer} (now : ℚ)
    {phase : TracePhase} (found : m.tracers.get id = some t)
    (active : t.currentPhase = some phase) (elapsed : ℚ) :
    Watched m (m.watch now id
      [.endPhase true none, .startPhase .executionCompleted, .endPhase true none,
        .increment "runtime.executions.completed", .record "runtime.execution.duration_ms" elapsed])
      id ((m.metrics.increment "runtime.executions.completed").record
        "runtime.execution.duration_ms" elapsed) fun after =>
        after.outcomes = t.outcomes ++ [(phase, true)] ++ [(.executionCompleted, true)] ∧
          after.currentPhase = none := by
  have next := watched_next now found active .executionCompleted
  obtain ⟨t', found', outcomes, active'⟩ := next.own
  have ended := watched_endPhase now found' active' true none
  have counted := (ended.increments now ["runtime.executions.completed"]).record now
    "runtime.execution.duration_ms" elapsed
  obtain ⟨after, kept, outcomes', idle⟩ := counted.own
  refine ⟨counted.metrics.trans ?_, counted.results.trans next.results,
    counted.misuses.trans next.misuses, ⟨after, kept, ?_, idle⟩, fun other ne =>
      (counted.others other ne).trans (next.others other ne)⟩
  · rw [next.metrics]
    rfl
  · rw [outcomes', outcomes]

/-- What holds in every state a run without cancellations reaches. -/
structure Accounted (m : Monitored) : Prop where
  wf : m.pool.WellFormed
  metered : m.pool.runtime.metrics = true
  traced : m.pool.runtime.tracer = true
  disciplined : m.misuses = []
  balanced : Balanced m.metrics (m.pool.running fun _ => true) m.results
  tracked : ∀ id, Tracked (m.pool.inFlight.get id) (m.results.get id) (m.tracers.get id)
  drawn : ∀ id, id ∉ m.pool.drawn → m.results.get id = none ∧ m.tracers.get id = none

theorem start_accounted (rt : KitematicRuntime) : (start rt).Accounted :=
  ⟨Pool.start_wellFormed _, rfl, rfl, rfl, ⟨rfl, rfl, rfl⟩, fun _ => trivial, fun _ _ => ⟨rfl, rfl⟩⟩

theorem Accounted.parts {m : Monitored} (accounted : m.Accounted) {e : Event} {pool : Pool}
    (stepped : m.pool.step e = some pool) :
    pool.runtime.metrics = true ∧ pool.runtime.tracer = true := by
  have same := CallTrail.step_parts accounted.wf stepped
  exact ⟨same.metrics.trans accounted.metered, same.tracer.trans accounted.traced⟩

structure Segmented (p p' : Pool) (e : Event) (id : String) (progress : Progress) : Prop where
  stepped : p.step e = some p'
  own : p'.inFlight.get id = frameOf progress
  others : ∀ other, other ≠ id → p'.inFlight.get other = p.inFlight.get other
  running : (p'.running fun _ => true) + (if (p.inFlight.get id).isSome then 1 else 0) =
    (p.running fun _ => true) + if (frameOf progress).isSome then 1 else 0
  drawn : id ∈ p'.drawn
  kept : p.drawn ⊆ p'.drawn

theorem any_true (frame : Option Frame) : (frame.any fun _ => true) = frame.isSome := by
  cases frame <;> rfl

theorem segmented_executeIntent {p pool : Pool} (wf : p.WellFormed) {intent : Intent} {id : String}
    {now : ℚ} {progress : Progress}
    (executed : p.executeIntent intent id now = some (pool, progress)) :
    Segmented p pool (.executeIntent intent id now) id progress ∧ p.inFlight.get id = none ∧
      added p pool = (p.runtime.executeIntent intent id now).effects := by
  obtain ⟨fresh, rfl, rfl⟩ := Pool.executeIntent_eq_some executed
  have absent : p.inFlight.get id = none := by
    cases found : p.inFlight.get id with
    | none => rfl
    | some frame => exact absurd (wf.drawn id frame found) fresh
  refine ⟨⟨by simp [Pool.step, executed], ?_, fun other ne => ?_, ?_, List.mem_cons_self,
    List.subset_cons_self _ _⟩, absent, added_settle p id _⟩
  · exact (Pool.get_settle _ _ _ _).trans (if_pos rfl)
  · exact (Pool.get_settle _ _ _ _).trans (if_neg ne)
  · have counted := Pool.running_settle p id (p.runtime.executeIntent intent id now) fun _ => true
    rw [Dict.erase_of_get_none absent, any_true] at counted
    rw [absent]
    exact counted

theorem segmented_resume {p pool : Pool} (wf : p.WellFormed) {id : String} {reply : Reply} {now : ℚ}
    {progress : Progress} (resumed : p.resume id reply now = some (pool, progress)) :
    Segmented p pool (.resume id reply now) id progress ∧ ∃ frame segment,
      p.inFlight.get id = some frame ∧ p.runtime.resume frame reply now = some segment ∧
        progress = segment.outcome ∧ added p pool = segment.effects := by
  obtain ⟨frame, segment, pending, ran, booked, rfl⟩ := Pool.resume_eq_some resumed
  have stepped : p.step (.resume id reply now) = some pool := by simp [Pool.step, resumed]
  have counted : (pool.running fun _ => true) = (p.inFlight.erase id).count (fun _ => true) +
      if (frameOf segment.outcome).any (fun _ => true) then 1 else 0 := by
    rw [booked]
    exact Pool.running_settle p id segment fun _ => true
  have held : (p.running fun _ => true) = (p.inFlight.erase id).count (fun _ => true) + 1 :=
    Dict.count_of_get pending fun _ => true
  have drawn := wf.drawn id frame pending
  refine ⟨⟨stepped, ?_, fun other ne => ?_, ?_, booked ▸ drawn, booked ▸ List.Subset.refl _⟩,
    frame, segment, pending, ran, rfl, booked ▸ added_settle p id segment⟩
  · exact booked ▸ (Pool.get_settle _ _ _ _).trans (if_pos rfl)
  · exact booked ▸ (Pool.get_settle _ _ _ _).trans (if_neg ne)
  · rw [counted, held, pending, any_true]
    simp only [Option.isSome_some, if_true]
    omega

theorem Accounted.settle {m m' : Monitored} (accounted : m.Accounted) {pool : Pool} {e : Event}
    {id : String} {progress : Progress} (segmented : Segmented m.pool pool e id progress)
    (disciplined : m'.misuses = [])
    (balanced : Balanced m'.metrics (pool.running fun _ => true)
      (m'.leave pool id progress).results)
    (own : Tracked (frameOf progress) ((m'.leave pool id progress).results.get id)
      (m'.tracers.get id))
    (others : ∀ other, other ≠ id → m'.results.get other = m.results.get other ∧
      m'.tracers.get other = m.tracers.get other) : (m'.leave pool id progress).Accounted := by
  have results : ∀ other, other ≠ id →
      (m'.leave pool id progress).results.get other = m.results.get other := by
    intro other ne
    cases progress with
    | returned result => exact ((Dict.get_set _ _ _ _).trans (if_neg ne)).trans (others other ne).1
    | _ => exact (others other ne).1
  obtain ⟨metered, traced⟩ := accounted.parts segmented.stepped
  refine ⟨?_, ?_, ?_, ?_, ?_, fun other => ?_, fun other fresh => ?_⟩
  · exact (leave_pool m' pool id progress).symm ▸
      Pool.step_wellFormed accounted.wf segmented.stepped
  · rw [leave_pool, metered]
  · rw [leave_pool, traced]
  · rw [leave_misuses, disciplined]
  · rw [leave_metrics, leave_pool]
    exact balanced
  · rw [leave_pool, leave_tracers]
    by_cases same : other = id
    · rw [same, segmented.own]
      exact own
    · rw [results other same, (others other same).2, segmented.others other same]
      exact accounted.tracked other
  · rw [leave_pool] at fresh
    have ne : other ≠ id := fun same => fresh (same ▸ segmented.drawn)
    rw [results other ne, leave_tracers, (others other ne).2]
    exact accounted.drawn other fun member => fresh (segmented.kept member)

theorem Accounted.suspend {m m' : Monitored} (accounted : m.Accounted) {pool : Pool} {e : Event}
    {id : String} {frame : Frame} {metrics : MetricsRegistry} {P : ExecutionTracer → Prop}
    (segmented : Segmented m.pool pool e id (.suspended frame))
    (watched : Watched m m' id metrics P)
    (balanced : Balanced metrics (pool.running fun _ => true) m.results)
    (noResult : m.results.get id = none) (follows : ∀ t, P t → Follows frame t) :
    (m'.leave pool id (.suspended frame)).Accounted := by
  obtain ⟨t, found, holds⟩ := watched.own
  refine accounted.settle segmented (watched.misuses.trans accounted.disciplined) ?_ ?_
    fun other ne => ⟨by rw [watched.results], watched.others other ne⟩
  · rw [watched.metrics]
    exact watched.results ▸ balanced
  · exact ⟨watched.results ▸ noResult, t, found, follows t holds⟩

theorem Accounted.finish {m m' : Monitored} (accounted : m.Accounted) {pool : Pool} {e : Event}
    {id : String} {result : ExecutionResult} {metrics : MetricsRegistry}
    {P : ExecutionTracer → Prop} (segmented : Segmented m.pool pool e id (.returned result))
    (watched : Watched m m' id metrics P)
    (balanced : Balanced metrics (pool.running fun _ => true) (m.results.set id result))
    (ended : ∀ t, P t → Ended result t) : (m'.leave pool id (.returned result)).Accounted := by
  obtain ⟨t, found, holds⟩ := watched.own
  have stored : (m'.leave pool id (.returned result)).results = m.results.set id result := by
    simp only [leave, watched.results]
  refine accounted.settle segmented (watched.misuses.trans accounted.disciplined) ?_ ?_
    fun other ne => ⟨by rw [watched.results], watched.others other ne⟩
  · rw [watched.metrics, stored]
    exact balanced
  · rw [stored, Dict.get_set_self, found]
    exact ⟨result, rfl, ended t holds⟩

section segments
variable {m : Monitored} (accounted : m.Accounted)
include accounted

theorem executeIntent_accounted {intent : Intent} {id : String} {now : ℚ} {pool : Pool}
    {progress : Progress} (executed : m.pool.executeIntent intent id now = some (pool, progress)) :
    Accounted (((m.enter id progress).watch now id (added m.pool pool)).leave pool id
      progress) := by
  obtain ⟨segmented, absent, effects⟩ := segmented_executeIntent accounted.wf executed
  obtain ⟨fresh, _, outcome⟩ := Pool.executeIntent_eq_some executed
  obtain ⟨noResult, noTracer⟩ := accounted.drawn id fresh
  have running := segmented.running
  have opens := executeIntent_opens accounted.metered accounted.traced intent id now
  rw [← outcome] at opens
  rw [watch_signals, effects]
  cases ended : frameOf progress with
  | none =>
    obtain ⟨counters, shown, other, lost⟩ := opens.refused ended
    have entered : m.enter id progress = m := by simp [enter, ended]
    rw [entered, shown, watch_increments]
    rw [absent, ended] at running
    refine accounted.settle segmented accounted.disciplined ?_ ?_ fun _ _ => ⟨rfl, rfl⟩
    · have same : (pool.running fun _ => true) = m.pool.running fun _ => true := running
      rw [same]
      refine accounted.balanced.count other ?_
      cases progress with
      | returned result =>
        refine (count_results noResult result).trans ?_
        rw [lost result rfl]
        rfl
      | _ => rfl
    · rw [ended, noTracer]
      trivial
  | some frame =>
    generalize signals (m.pool.runtime.executeIntent intent id now).effects = shown at opens ⊢
    cases opens with
    | tenantRefused _ _ refused =>
      rw [refused] at ended
      cases ended
    | quotaRaised => cases ended
    | quotaRefused => cases ended
    | shutdownRefused => cases ended
    | admitted frame' _ _ _ first =>
      obtain rfl : frame' = frame := Option.some.inj ended
      rw [absent, ended] at running
      have grown : (pool.running fun _ => true) = (m.pool.running fun _ => true) + 1 := running
      refine accounted.suspend segmented (watched_enter now accounted.traced frame') ?_ noResult ?_
      · rw [grown]
        exact accounted.balanced.entered
      · rintro t ⟨outcomes, active⟩
        refine ⟨by rw [outcomes, first]; rfl, ?_⟩
        rw [active]
        cases awaited : frame'.awaiting with
        | evaluateIntent => rfl
        | _ => rw [awaited] at first; cases first

theorem resume_accounted {id : String} {reply : Reply} {now : ℚ} {pool : Pool}
    {progress : Progress} (resumed : m.pool.resume id reply now = some (pool, progress)) :
    ((m.watch now id (added m.pool pool)).leave pool id progress).Accounted := by
  obtain ⟨segmented, frame, segment, pending, ran, outcome, effects⟩ :=
    segmented_resume accounted.wf resumed
  have running := segmented.running
  have resumes := resume_resumes accounted.metered accounted.traced ran
  have kind := KitematicRuntime.resume_resumed (accounted.wf.consistent id frame pending) ran
  have tracked := accounted.tracked id
  rw [pending] at tracked running
  obtain ⟨noResult, t, found, follows⟩ := tracked
  rw [watch_signals, effects]
  rw [← outcome] at resumes
  generalize signals segment.effects = shown at resumes ⊢
  have ended : t.outcomes ++ [(phaseOf frame.awaiting, true)] =
      (chainPhases.take (rank frame.awaiting + 1)).map fun phase => (phase, true) := by
    rw [follows.outcomes, take_phaseOf, List.map_append]
    rfl
  cases resumes with
  | advanced next order =>
    refine accounted.suspend segmented (watched_next now found follows.active _) ?_ noResult ?_
    · have same : (pool.running fun _ => true) = m.pool.running fun _ => true := by
        simpa [frameOf] using running
      exact same ▸ accounted.balanced
    · rintro after ⟨outcomes, active⟩
      exact ⟨by rw [outcomes, ended, order], active⟩
  | completed result won last =>
    refine accounted.finish segmented (watched_complete now found follows.active _) ?_ ?_
    · refine Balanced.complete ?_ noResult won _
      exact (show (m.pool.running fun _ => true) = (pool.running fun _ => true) + 1 from
        running.symm) ▸ accounted.balanced
    · rintro after ⟨outcomes, idle⟩
      refine ⟨idle, .inl ⟨won, ?_⟩⟩
      rw [outcomes, ended, last]
      rfl
  | failed result error causes lost other =>
    refine accounted.finish segmented ((watched_endPhase now found follows.active false
      error).increments now (causes ++ ["runtime.executions.failed"])) ?_ ?_
    · refine Balanced.fail ?_ noResult lost other
      exact (show (m.pool.running fun _ => true) = (pool.running fun _ => true) + 1 from
        running.symm) ▸ accounted.balanced
    · rintro after ⟨outcomes, idle⟩
      exact ⟨idle, .inr ⟨lost, frame.awaiting, by rw [outcomes, follows.outcomes]⟩⟩
  | raised error =>
    obtain ⟨runtime, effects, outcome'⟩ := segment
    obtain rfl : _ = outcome' := outcome
    cases kind

end segments

theorem watch_stop (m : Monitored) :
    m.watch 0 "" m.pool.runtime.stop.2 = m ∨
      m.watch 0 "" m.pool.runtime.stop.2 =
        { m with metrics := m.metrics.increment "runtime.shutdown.count" } := by
  unfold KitematicRuntime.stop
  split
  · exact .inl rfl
  · unfold KitematicRuntime.count
    split
    · exact .inr rfl
    · exact .inl rfl

theorem control_accounted {m : Monitored} (accounted : m.Accounted) (control : Control)
    {metrics : MetricsRegistry}
    (balanced : Balanced metrics (m.pool.running fun _ => true) m.results) :
    Accounted { m with
      metrics := metrics
      pool := { m.pool with runtime := control.apply m.pool.runtime } } := by
  obtain ⟨metered, traced⟩ := accounted.parts (e := .control control) rfl
  exact ⟨Pool.step_wellFormed (e := .control control) accounted.wf rfl, metered, traced,
    accounted.disciplined, balanced, accounted.tracked, accounted.drawn⟩

def Uncancelled (_ : List Event) (_ : Monitored) (e : Event) : Prop := ∀ id, e ≠ .cancel id

theorem step_accounted {past : List Event} {m m' : Monitored} {e : Event}
    (accounted : m.Accounted) (uncancelled : Uncancelled past m e) (stepped : m.step e = some m') :
    m'.Accounted := by
  cases e with
  | executeIntent intent id now =>
    obtain ⟨⟨pool, progress⟩, executed, rfl⟩ := Option.map_eq_some_iff.mp stepped
    exact executeIntent_accounted accounted executed
  | resume id reply now =>
    obtain ⟨⟨pool, progress⟩, resumed, rfl⟩ := Option.map_eq_some_iff.mp stepped
    exact resume_accounted accounted resumed
  | cancel id => exact absurd rfl (uncancelled id)
  | control control =>
    cases stepped
    have kept := control_accounted accounted control accounted.balanced
    cases control with
    | stop =>
      rcases m.watch_stop with same | same
      · simp only [same]
        exact kept
      · simp only [same]
        exact control_accounted accounted .stop
          (@Balanced.count _ _ _ m.results accounted.balanced ["runtime.shutdown.count"]
            (by decide) rfl)
    | _ => exact kept

/-- The registry accounts for every execution, and every tracer follows the chain. -/
structure Accurate (m : Monitored) : Prop where
  balanced : Balanced m.metrics (m.pool.running fun _ => true) m.results
  disciplined : m.misuses = []
  phases : ∀ id t, m.tracers.get id = some t → t.phases <+: chainPhases
  status : ∀ id t result, m.tracers.get id = some t → m.results.get id = some result →
    (t.getSummary.status = "success" ↔ result.success = true)

theorem map_fst_true (l : List TracePhase) :
    (l.map fun phase => (phase, true)).map Prod.fst = l := by
  simp [Function.comp_def]

theorem Follows.phases {frame : Frame} {t : ExecutionTracer} (follows : Follows frame t) :
    t.phases <+: chainPhases := by
  have same : t.phases = chainPhases.take (rank frame.awaiting + 1) := by
    rw [ExecutionTracer.phases, ExecutionTracer.entries_phases, follows.outcomes, follows.active,
      take_phaseOf, map_fst_true]
    rfl
  exact same ▸ List.take_prefix _ _

theorem Ended.phases {result : ExecutionResult} {t : ExecutionTracer} (ended : Ended result t) :
    t.phases <+: chainPhases := by
  rw [ExecutionTracer.phases, ExecutionTracer.entries_phases, ended.idle]
  rcases ended.outcomes with ⟨_, outcomes⟩ | ⟨_, call, outcomes⟩
  · rw [outcomes, map_fst_true]
    exact List.prefix_rfl
  · have same : t.outcomes.map Prod.fst = chainPhases.take (rank call + 1) := by
      rw [outcomes, take_phaseOf, List.map_append, map_fst_true]
      rfl
    rw [same]
    simpa using List.take_prefix _ _

theorem Ended.status {result : ExecutionResult} {t : ExecutionTracer} (ended : Ended result t) :
    t.getSummary.status = "success" ↔ result.success = true := by
  rw [ExecutionTracer.getSummary_status]
  rcases ended.outcomes with ⟨won, outcomes⟩ | ⟨lost, call, outcomes⟩
  · rw [outcomes]
    simp [won]
  · refine iff_of_false (fun all => ?_) (by simp [lost])
    have last := all (phaseOf call, false) (by simp [outcomes])
    cases last

theorem Accounted.accurate {m : Monitored} (accounted : m.Accounted) : m.Accurate := by
  refine ⟨accounted.balanced, accounted.disciplined, fun id t found => ?_,
    fun id t result found returned => ?_⟩
  · have tracked := accounted.tracked id
    rw [found] at tracked
    cases flying : m.pool.inFlight.get id with
    | some frame =>
      rw [flying] at tracked
      obtain ⟨_, t', same, follows⟩ := tracked
      exact Option.some.inj same ▸ follows.phases
    | none =>
      rw [flying] at tracked
      obtain ⟨_, _, ended⟩ := tracked
      exact ended.phases
  · have tracked := accounted.tracked id
    rw [found, returned] at tracked
    cases flying : m.pool.inFlight.get id with
    | some frame =>
      rw [flying] at tracked
      cases tracked.1
    | none =>
      rw [flying] at tracked
      obtain ⟨result', same, ended⟩ := tracked
      exact Option.some.inj same ▸ ended.status

/-- A call that the lifecycle turns away moves the rejection counter alone; one that the
quota turns away moves one resource counter, or none if it raises. -/
def RejectionsCounted (_ : List Event) (m : Monitored) : Event → Prop
  | .executeIntent intent id now =>
      ∀ m', m.step (.executeIntent intent id now) = some m' →
        m.pool.runtime.passesTenantGate = true →
          (m.pool.runtime.passesQuotaGate now = true → m.pool.runtime.state ≠ .running →
            m'.metrics = m.metrics.increment "runtime.executions.rejected" ∧
              m'.tracers = m.tracers) ∧
          (m.pool.runtime.passesQuotaGate now = false →
            (∃ error, (m.pool.runtime.executeIntent intent id now).outcome = .raised error ∧
              m'.metrics = m.metrics ∧ m'.tracers = m.tracers) ∨
            ∃ counter ∈ resourceCounters, m'.metrics = m.metrics.increment counter ∧
              m'.tracers = m.tracers)
  | _ => True

theorem rejectionsCounted {m : Monitored} (accounted : m.Accounted) (past : List Event)
    (e : Event) : RejectionsCounted past m e := by
  cases e with
  | executeIntent intent id now =>
    intro m' stepped entered
    obtain ⟨⟨pool, progress⟩, executed, rfl⟩ := Option.map_eq_some_iff.mp stepped
    obtain ⟨_, _, effects⟩ := segmented_executeIntent accounted.wf executed
    obtain ⟨_, _, outcome⟩ := Pool.executeIntent_eq_some executed
    have opens := executeIntent_opens accounted.metered accounted.traced intent id now
    rw [← outcome] at opens ⊢
    rw [leave_metrics, leave_tracers, watch_signals, effects]
    generalize signals (m.pool.runtime.executeIntent intent id now).effects = shown at opens ⊢
    cases opens with
    | tenantRefused _ gate => simp [gate] at entered
    | quotaRaised error _ gate =>
      refine ⟨fun quota => ?_, fun _ => .inl ⟨error, rfl, rfl, rfl⟩⟩
      simp [gate] at quota
    | quotaRefused counter result _ gate resource =>
      refine ⟨fun quota => ?_, fun _ => .inr ⟨counter, resource, rfl, rfl⟩⟩
      simp [gate] at quota
    | shutdownRefused result _ quota =>
      refine ⟨fun _ _ => ⟨rfl, rfl⟩, fun gate => ?_⟩
      simp [gate] at quota
    | admitted frame _ quota state =>
      refine ⟨fun _ leaving => absurd state leaving, fun gate => ?_⟩
      simp [gate] at quota
  | _ => trivial

/-- In every run without cancellations the books are right in every state, and every
rejection is counted as one. -/
theorem executions_accounted (rt : KitematicRuntime) {events : List Event}
    (uncancelled : ∀ id, Event.cancel id ∉ events) :
    Trace.AllStates step Accurate (start rt) events ∧
      Trace.EachStep step RejectionsCounted [] (start rt) events := by
  have clean : Trace.EachStep step Uncancelled [] (start rt) events :=
    Trace.eachStep_of_forall fun e member _ _ id same => uncancelled id (same ▸ member)
  have keeps : ∀ past m e m', Accounted m → Uncancelled past m e → step m e = some m' →
      Accounted m' := fun _ _ _ _ => step_accounted
  exact ⟨(Trace.allStates_of_eachStep keeps (start_accounted rt) clean).mono fun _ =>
      Accounted.accurate,
    Trace.eachStep_of_invariant keeps (fun past _ e accounted => rejectionsCounted accounted past e)
      (start_accounted rt) clean⟩

def twoCalls : List Event :=
  [.executeIntent ⟨"agent", "tool.read", []⟩ "e1" 0,
    .executeIntent ⟨"agent", "tool.read", []⟩ "e2" 1,
    .resume "e1" (.decision false none) 2, .resume "e2" (.decision true none) 3]

theorem executions_accounted_two : Trace.AllStates step Accurate (start {}) twoCalls ∧
    Trace.EachStep step RejectionsCounted [] (start {}) twoCalls :=
  executions_accounted {} (by simp [twoCalls])

end Monitored
end Kitematic.Accounting

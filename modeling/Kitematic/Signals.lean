import Kitematic.CallTrail
import Kitematic.Observability

/-! What the segments of `execute_intent` tell the metrics registry and the tracer,
exactly: one lemma for how a call opens and one for how it is resumed. -/

namespace Kitematic.Signals
open Admission Interleaving Resumption RuntimeAbi State Tenant

def isSignal : Effect → Bool
  | .increment _ | .record _ _ | .startPhase _ | .endPhase _ _ => true
  | _ => false

def signals (effects : List Effect) : List Effect := effects.filter isSignal

def phaseOf : CollaboratorCall → TracePhase
  | .evaluateIntent _ => .intentReceived
  | .checkCapability _ _ => .capabilityCheck
  | .routeIntent _ => .intentRouting
  | .accessTool _ _ => .toolExecution
  | .save _ _ => .checkpointSave

def chainPhases : List TracePhase :=
  [.intentReceived, .capabilityCheck, .intentRouting, .toolExecution, .checkpointSave,
    .executionCompleted]

def accounts : List String :=
  ["runtime.executions.total", "runtime.executions.completed", "runtime.executions.failed"]

def resourceCounters : List String := ["resource.quota.exceeded", "resource.rate_limit.hit"]

@[simp] theorem signals_nil : signals [] = [] := rfl

@[simp] theorem signals_append (first second : List Effect) :
    signals (first ++ second) = signals first ++ signals second :=
  List.filter_append first second

theorem signals_count {rt : KitematicRuntime} (attached : rt.metrics = true)
    (metrics : List String) : signals (rt.count metrics) = metrics.map .increment := by
  simp [KitematicRuntime.count, attached, signals, List.filter_map, Function.comp_def, isSignal]

@[simp] theorem signals_releaseQuota (rt : KitematicRuntime) (ctx : Option TenantContext)
    (id : String) (acquired : Bool) : signals (rt.releaseQuota ctx id acquired).effects = [] := by
  unfold KitematicRuntime.releaseQuota
  split
  · split <;> rfl
  · rfl

@[simp] theorem signals_endIsolation (rt : KitematicRuntime) (ctx : Option TenantContext) :
    signals (rt.endIsolation ctx).effects = [] := by
  unfold KitematicRuntime.endIsolation
  split <;> rfl

/-- The signals of a resumed call, by how its segment ends. -/
inductive Resumes (frame : Frame) (now : ℚ) : List Effect → Progress → Prop where
  | advanced (next : Frame) (order : rank next.awaiting = rank frame.awaiting + 1) :
      Resumes frame now [.endPhase true none, .startPhase (phaseOf next.awaiting)]
        (.suspended next)
  | completed (result : ExecutionResult) (won : result.success = true)
      (last : rank frame.awaiting = 4) :
      Resumes frame now
        [.endPhase true none, .startPhase .executionCompleted, .endPhase true none,
          .increment "runtime.executions.completed",
          .record "runtime.execution.duration_ms" ((now - frame.startTime) * 1000)]
        (.returned result)
  | failed (result : ExecutionResult) (error : Option String) (causes : List String)
      (lost : result.success = false) (other : ∀ cause ∈ causes, cause ∉ accounts) :
      Resumes frame now
        (.endPhase false error :: (causes ++ ["runtime.executions.failed"]).map .increment)
        (.returned result)
  | raised (error : EscapedError) (effects : List Effect) :
      Resumes frame now effects (.raised error)

section resumed
variable {rt : KitematicRuntime} {frame : Frame} {now : ℚ}
  (metered : rt.metrics = true) (traced : rt.tracer = true)
include metered traced

theorem fail_resumes (target : ExecutionState) (traceError : Option String)
    (causes : List String) (other : ∀ cause ∈ causes, cause ∉ accounts) (error : String) :
    Resumes frame now
      (signals (rt.fail frame target traceError (causes ++ ["runtime.executions.failed"])
        error).effects)
      (rt.fail frame target traceError (causes ++ ["runtime.executions.failed"])
        error).outcome := by
  have shown : signals (rt.fail frame target traceError (causes ++ ["runtime.executions.failed"])
      error).effects =
      .endPhase false traceError :: (causes ++ ["runtime.executions.failed"]).map .increment := by
    rw [KitematicRuntime.fail, signals_append, signals_append, signals_count metered,
      KitematicRuntime.trace, if_pos traced]
    rfl
  rw [shown]
  exact .failed _ traceError causes rfl other

omit metered in
theorem advance_resumes (target : ExecutionState) (call : CollaboratorCall)
    (order : rank call = rank frame.awaiting + 1) :
    Resumes frame now (signals (rt.advance frame target (phaseOf call) call).effects)
      (rt.advance frame target (phaseOf call) call).outcome := by
  unfold KitematicRuntime.advance
  split
  · exact .raised _ _
  · simp only [KitematicRuntime.trace, if_pos traced]
    exact .advanced { frame with state := _, awaiting := call } order

theorem afterEvaluateIntent_resumes {intent : Intent}
    (pending : frame.awaiting = .evaluateIntent intent)
    (answer : Except String (Bool × Option String)) :
    Resumes frame now (signals (rt.afterEvaluateIntent frame answer).effects)
      (rt.afterEvaluateIntent frame answer).outcome := by
  match answer with
  | .error e => exact fail_resumes metered traced .halted (some e) [] (by simp) _
  | .ok (false, reason) =>
    exact fail_resumes metered traced .failed reason ["runtime.policy.rejected"]
      (by simp [accounts]) _
  | .ok (true, _) =>
    exact advance_resumes traced .authorized (.checkCapability _ _) (by rw [pending]; rfl)

theorem afterCheckCapability_resumes {action agentId : String}
    (pending : frame.awaiting = .checkCapability action agentId)
    (answer : Except String (Bool × Option String)) :
    Resumes frame now (signals (rt.afterCheckCapability frame answer).effects)
      (rt.afterCheckCapability frame answer).outcome := by
  match answer with
  | .error e => exact fail_resumes metered traced .failed (some e) [] (by simp) _
  | .ok (false, reason) =>
    exact fail_resumes metered traced .failed reason ["runtime.capability.denied"]
      (by simp [accounts]) _
  | .ok (true, _) =>
    exact advance_resumes traced .executing (.routeIntent _) (by rw [pending]; rfl)

theorem afterRouteIntent_resumes {intent : Intent} (pending : frame.awaiting = .routeIntent intent)
    (answer : Except String ExecutionPath) :
    Resumes frame now (signals (rt.afterRouteIntent frame answer).effects)
      (rt.afterRouteIntent frame answer).outcome := by
  cases answer with
  | error e => exact fail_resumes metered traced .halted (some e) [] (by simp) _
  | ok path =>
    simp only [KitematicRuntime.afterRouteIntent, KitematicRuntime.trace, if_pos traced]
    exact .advanced { frame with awaiting := .accessTool path frame.intent } (by rw [pending]; rfl)

theorem afterAccessTool_resumes {path : ExecutionPath} {intent : Intent}
    (pending : frame.awaiting = .accessTool path intent) (answer : Except String ToolResult) :
    Resumes frame now (signals (rt.afterAccessTool frame now answer).effects)
      (rt.afterAccessTool frame now answer).outcome := by
  cases answer with
  | error e =>
    exact fail_resumes metered traced .failed (some e) ["runtime.gateway.error"]
      (by simp [accounts]) _
  | ok result =>
    unfold KitematicRuntime.afterAccessTool
    simp only
    split
    · exact fail_resumes metered traced .failed result.error [] (by simp) _
    · exact advance_resumes traced .checkpointing (.save _ _) (by rw [pending]; rfl)

theorem afterSave_resumes {executionId : String} {state : CheckpointState}
    (pending : frame.awaiting = .save executionId state) (answer : Except String String) :
    Resumes frame now (signals (rt.afterSave frame state now answer).effects)
      (rt.afterSave frame state now answer).outcome := by
  cases answer with
  | error e =>
    exact fail_resumes metered traced .halted (some e) ["runtime.checkpoint.error"]
      (by simp [accounts]) _
  | ok checkpointId =>
    unfold KitematicRuntime.afterSave
    simp only
    split
    · exact .raised _ _
    · simp only [KitematicRuntime.trace, if_pos traced, signals_append, signals_endIsolation,
        signals_count metered, if_pos metered]
      exact .completed _ rfl (by rw [pending]; rfl)

theorem resumeGuarded_resumes {reply : Reply} {segment : Segment Progress}
    (ran : rt.resumeGuarded frame reply now = some segment) :
    Resumes frame now (signals segment.effects) segment.outcome := by
  unfold KitematicRuntime.resumeGuarded at ran
  split at ran
  case h_11 => cases ran
  case h_1 pending =>
    cases ran
    exact afterEvaluateIntent_resumes metered traced pending _
  case h_2 pending =>
    cases ran
    exact afterEvaluateIntent_resumes metered traced pending _
  case h_3 pending =>
    cases ran
    exact afterCheckCapability_resumes metered traced pending _
  case h_4 pending =>
    cases ran
    exact afterCheckCapability_resumes metered traced pending _
  case h_5 pending =>
    cases ran
    exact afterRouteIntent_resumes metered traced pending _
  case h_6 pending =>
    cases ran
    exact afterRouteIntent_resumes metered traced pending _
  case h_7 pending =>
    cases ran
    exact afterAccessTool_resumes metered traced pending _
  case h_8 pending =>
    cases ran
    exact afterAccessTool_resumes metered traced pending _
  case h_9 pending =>
    cases ran
    exact afterSave_resumes metered traced pending _
  case h_10 pending =>
    cases ran
    exact afterSave_resumes metered traced pending _

theorem resume_resumes {reply : Reply} {segment : Segment Progress}
    (ran : rt.resume frame reply now = some segment) :
    Resumes frame now (signals segment.effects) segment.outcome := by
  obtain ⟨inner, guarded, rfl⟩ := Option.map_eq_some_iff.mp ran
  have resumes := resumeGuarded_resumes metered traced guarded
  obtain ⟨runtime, effects, outcome⟩ := inner
  cases outcome <;> simpa using resumes

end resumed

/-- The signals of an opened call, by the check that ends it or by its first await. -/
inductive Opens (rt : KitematicRuntime) (now : ℚ) : List Effect → Progress → Prop where
  | tenantRefused (progress : Progress) (gate : rt.passesTenantGate = false)
      (ended : frameOf progress = none)
      (lost : ∀ result, progress = .returned result → result.success = false) :
      Opens rt now [] progress
  | quotaRaised (error : EscapedError) (entered : rt.passesTenantGate = true)
      (gate : rt.passesQuotaGate now = false) : Opens rt now [] (.raised error)
  | quotaRefused (counter : String) (result : ExecutionResult)
      (entered : rt.passesTenantGate = true) (gate : rt.passesQuotaGate now = false)
      (resource : counter ∈ resourceCounters) (lost : result.success = false) :
      Opens rt now [.increment counter] (.returned result)
  | shutdownRefused (result : ExecutionResult) (entered : rt.passesTenantGate = true)
      (quota : rt.passesQuotaGate now = true) (state : rt.state ≠ .running)
      (lost : result.success = false) :
      Opens rt now [.increment "runtime.executions.rejected"] (.returned result)
  | admitted (frame : Frame) (entered : rt.passesTenantGate = true)
      (quota : rt.passesQuotaGate now = true) (state : rt.state = .running)
      (first : rank frame.awaiting = 0) :
      Opens rt now [.increment "runtime.executions.total", .startPhase .intentReceived]
        (.suspended frame)

inductive QuotaChecks : List Effect → Except Progress Bool → Prop where
  | passed (effects : List Effect) (acquired : Bool) : QuotaChecks effects (.ok acquired)
  | raised (error : EscapedError) : QuotaChecks [] (.error (.raised error))
  | refused (counter : String) (result : ExecutionResult) (resource : counter ∈ resourceCounters)
      (lost : result.success = false) :
      QuotaChecks [.increment counter] (.error (.returned result))

theorem Opens.refused {rt : KitematicRuntime} {now : ℚ} {shown : List Effect} {progress : Progress}
    (opens : Opens rt now shown progress) (ended : frameOf progress = none) :
    ∃ counters : List String, shown = counters.map .increment ∧
      (∀ counter ∈ counters, counter ∉ accounts) ∧
        ∀ result, progress = .returned result → result.success = false := by
  cases opens with
  | tenantRefused _ _ _ lost => exact ⟨[], rfl, by simp, lost⟩
  | quotaRaised => exact ⟨[], rfl, by simp, fun result same => by cases same⟩
  | quotaRefused counter result _ _ resource lost =>
    refine ⟨[counter], rfl, ?_, fun result' same => by cases same; exact lost⟩
    intro counter' member
    obtain rfl := List.mem_singleton.mp member
    revert resource
    simp only [resourceCounters, List.mem_cons, List.not_mem_nil, or_false]
    rintro (rfl | rfl) <;> decide
  | shutdownRefused result _ _ _ lost =>
    refine ⟨["runtime.executions.rejected"], rfl, ?_, fun result' same => by cases same; exact lost⟩
    intro counter member
    obtain rfl := List.mem_singleton.mp member
    decide
  | admitted => cases ended

section opened
variable {rt : KitematicRuntime} (metered : rt.metrics = true)
include metered

theorem quotaGate_checks (ctx : Option TenantContext) (id : String) (now : ℚ) :
    QuotaChecks (signals (rt.quotaGate ctx id now).effects) (rt.quotaGate ctx id now).outcome := by
  unfold KitematicRuntime.quotaGate
  split
  · exact .passed _ _
  simp only
  split
  · exact .passed _ _
  split
  · rw [signals_count metered]
    exact .refused _ _ List.mem_cons_self rfl
  split
  · exact .passed _ _
  split
  · rw [signals_count metered]
    exact .refused _ _ (List.mem_cons_of_mem _ List.mem_cons_self) rfl
  · exact .raised _

theorem shutdownGate_signals (ctx : Option TenantContext) (id : String) (acquired : Bool)
    (state : rt.state ≠ .running) : ∃ result, (rt.shutdownGate ctx id acquired).outcome =
        .error (.returned result) ∧ result.success = false ∧
      signals (rt.shutdownGate ctx id acquired).effects =
        [.increment "runtime.executions.rejected"] := by
  cases h : rt.state with
  | running => exact absurd h state
  | draining =>
    simp only [KitematicRuntime.shutdownGate, h, signals_append, signals_releaseQuota,
      signals_count metered]
    exact ⟨_, rfl, rfl, rfl⟩
  | stopped =>
    simp only [KitematicRuntime.shutdownGate, h, signals_append, signals_releaseQuota,
      signals_count metered]
    exact ⟨_, rfl, rfl, rfl⟩

theorem beginGuarded_signals (traced : rt.tracer = true) (intent : Intent) (id : String)
    (ctx : Option TenantContext) (acquired : Bool) (now : ℚ) :
    signals (rt.beginGuarded intent id ctx acquired now).effects =
      [.increment "runtime.executions.total", .startPhase .intentReceived] := by
  have begun : (rt.beginGuarded intent id ctx acquired now).effects =
      rt.count ["runtime.executions.total"] ++ rt.trace [.startPhase .intentReceived] ++
        [.transition .created .validating] ++ [.call (.evaluateIntent intent)] := rfl
  rw [begun, signals_append, signals_append, signals_append, signals_count metered,
    KitematicRuntime.trace, if_pos traced]
  rfl

theorem executeIntent_opens (traced : rt.tracer = true) (intent : Intent) (id : String) (now : ℚ) :
    Opens rt now (signals (rt.executeIntent intent id now).effects)
      (rt.executeIntent intent id now).outcome := by
  unfold KitematicRuntime.executeIntent
  cases tenant : rt.passesTenantGate with
  | false =>
    obtain ⟨p, ended, gate⟩ := KitematicRuntime.tenantGate_refused id tenant
    simp only [gate, Segment.andThen, signals_nil]
    refine .tenantRefused p tenant (frameOf_refused ended) ?_
    rintro result rfl
    cases ended
    rfl
  | true =>
    have gate := KitematicRuntime.tenantGate_passed id tenant
    have slot : signals rt.isolationSlot = [] := by
      unfold KitematicRuntime.isolationSlot
      split <;> rfl
    have entered : rt.takeIsolation.metrics = true ∧ rt.takeIsolation.tracer = true := by
      unfold KitematicRuntime.takeIsolation
      split <;> exact ⟨metered, traced⟩
    simp only [gate, Segment.andThen, signals_append, slot, List.nil_append]
    cases quota : rt.passesQuotaGate now with
    | false =>
      obtain ⟨p, effects, rt', ended, refused, _⟩ :=
        @KitematicRuntime.quotaGate_refused rt.takeIsolation id now (by simpa using quota)
      have checks := quotaGate_checks entered.1 rt.takeIsolation.tenantContext id now
      rw [KitematicRuntime.takeIsolation_tenantContext] at refused checks
      simp only [refused] at checks ⊢
      generalize signals effects = shown at checks ⊢
      cases checks with
      | raised error => exact .quotaRaised error tenant quota
      | refused counter result resource lost =>
        exact .quotaRefused counter result tenant quota resource lost
    | true =>
      have passed := @KitematicRuntime.quotaGate_passed rt.takeIsolation id now
        (by simpa using quota)
      have taken : signals (rt.takeIsolation.quotaSlot id) = [] := by
        unfold KitematicRuntime.quotaSlot
        split <;> rfl
      have attached : (rt.takeIsolation.takeQuota id now).metrics = true ∧
          (rt.takeIsolation.takeQuota id now).tracer = true := by
        unfold KitematicRuntime.takeQuota
        split
        · exact entered
        · split <;> exact entered
      rw [KitematicRuntime.takeIsolation_tenantContext] at passed
      simp only [passed, signals_append, taken, List.nil_append]
      by_cases state : rt.state = .running
      · have running : (rt.takeIsolation.takeQuota id now).state = .running := by simpa using state
        simp only [KitematicRuntime.shutdownGate_passed _ _ _ running, List.nil_append]
        rw [beginGuarded_signals attached.1 attached.2]
        exact .admitted _ tenant quota state rfl
      · have leaving : (rt.takeIsolation.takeQuota id now).state ≠ .running := by simpa using state
        obtain ⟨result, ended, lost, shown⟩ := shutdownGate_signals attached.1 rt.tenantContext id
          rt.takeIsolation.quotaApplies leaving
        simp only [ended, shown]
        exact .shutdownRefused result tenant quota state lost

end opened

end Kitematic.Signals

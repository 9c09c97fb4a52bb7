import Kitematic.Isolation
import Kitematic.Quotas
import Kitematic.State

/-! The execution chain of the runtime. `execute_intent` is a coroutine: it runs
without interruption up to its next awaited collaborator call and is then a
suspended frame, so it is modelled by the segments between two awaits.
`executeIntent` is the segment up to the first await, `resume` the one that a
collaborator's reply starts. A segment reads the clock once. Logging writes to
a stream that nothing here reads and is left out. -/

namespace Kitematic.RuntimeAbi
open Isolation PyText Quotas State Tenant

structure Intent where
  agentId : String
  action : String
  parameters : Payload := []

structure ExecutionResult where
  success : Bool
  executionId : String := ""
  checkpointId : Option String := none
  data : Payload := []
  error : Option String := none
  state : ExecutionState := .created

structure ToolResult where
  success : Bool
  data : Payload := []
  error : Option String := none

structure ExecutionPath where
  tool : String
  adapter : String := ""
  parameters : Payload := []

/-- The dictionary handed to `save`. `timestamp` is the instant whose text the
code stores, and `tenant_id` is a key only under a tenant context. -/
structure CheckpointState where
  executionId : String
  intentAction : String
  intentAgent : String
  toolResult : Payload
  timestamp : ℚ
  tenantId : Option String

inductive CollaboratorCall where
  | evaluateIntent (intent : Intent)
  | checkCapability (action agentId : String)
  | routeIntent (intent : Intent)
  | accessTool (path : ExecutionPath) (intent : Intent)
  | save (executionId : String) (state : CheckpointState)

/-- What an awaited call comes back with; an `Exception` is known by its text. -/
inductive Reply where
  | decision (allowed : Bool) (reason : Option String)
  | path (path : ExecutionPath)
  | toolResult (result : ToolResult)
  | checkpointId (checkpointId : String)
  | raised (error : String)

inductive TracePhase where
  | intentReceived | policyEvaluation | capabilityCheck | intentRouting | toolExecution
  | checkpointSave | executionCompleted
  deriving DecidableEq

/-- What a segment does besides changing the runtime, in program order. -/
inductive Effect where
  | call (call : CollaboratorCall)
  | transition (current target : ExecutionState)
  | transitionSafe (current target : ExecutionState)
  | isolationStart (tenantId : String)
  | isolationEnd (tenantId : String)
  | quotaStart (tenantId executionId : String)
  | quotaEnd (tenantId executionId : String)
  | increment (metric : String)
  | record (metric : String) (value : ℚ)
  | startPhase (phase : TracePhase)
  | endPhase (success : Bool) (error : Option String)

/-- `metrics` and `tracer` say whether a registry and a tracer class are attached. -/
structure KitematicRuntime where
  isolation : Option IsolationBoundary := none
  tenantContext : Option TenantContext := none
  state : RuntimeState := .running
  quotaManager : Option QuotaManager := none
  metrics : Bool := false
  tracer : Bool := false

/-- The locals of a suspended `execute_intent` call. -/
structure Frame where
  executionId : String
  intent : Intent
  tenantCtx : Option TenantContext
  quotaAcquired : Bool
  state : ExecutionState
  startTime : ℚ
  awaiting : CollaboratorCall

inductive EscapedError where
  | isolation (error : IsolationError)
  | zeroDivision (error : ZeroDivisionError)
  | invalidStateTransition (current target : ExecutionState)

def EscapedError.message : EscapedError → String
  | .isolation error => error.message
  | .zeroDivision .floatDivisionByZero => "float division by zero"
  | .invalidStateTransition current target =>
      "Invalid transition: " ++ current.value ++ " → " ++ target.value ++ ". Valid: " ++
        pyReprList ((getValidTransitions current).map ExecutionState.value)

inductive Progress where
  | suspended (frame : Frame)
  | returned (result : ExecutionResult)
  | raised (error : EscapedError)

def Progress.isSuspended : Progress → Bool
  | .suspended _ => true
  | _ => false

structure Segment (α : Type) where
  runtime : KitematicRuntime
  effects : List Effect
  outcome : α

def Segment.andThen {α : Type} (s : Segment (Except Progress α))
    (next : KitematicRuntime → α → Segment Progress) : Segment Progress :=
  match s.outcome with
  | .error progress => ⟨s.runtime, s.effects, progress⟩
  | .ok value =>
      let t := next s.runtime value
      ⟨t.runtime, s.effects ++ t.effects, t.outcome⟩

inductive Rejection where
  | noTenantContext
  | concurrentLimit (tenantId : String)
  | rateLimit (tenantId : String) (retry : ℚ)
  | draining
  | stopped

def Rejection.error : Rejection → String
  | .noTenantContext => "No tenant context — execution denied"
  | .concurrentLimit tenantId =>
      "Concurrent execution limit exceeded for tenant " ++ pyRepr tenantId
  | .rateLimit tenantId retry =>
      "Rate limit exceeded for tenant " ++ pyRepr tenantId ++ ". Retry after " ++
        fixed1 retry ++ "s"
  | .draining => "Runtime is draining"
  | .stopped => "Runtime is stopped"

def Rejection.progress (r : Rejection) (executionId : String) : Progress :=
  .returned { success := false, executionId := executionId, error := some r.error
              state := .created }

inductive RestoreFailure where
  | checkpointPersistence (operation reason : String)
  | other (text : String)

inductive RestoreError where
  | isolation (error : IsolationError)
  | checkpointPersistence (operation reason : String)

def quotaTenant (ctx : Option TenantContext) : String :=
  match ctx with
  | some ctx => ctx.tenantId
  | none => ""

namespace KitematicRuntime

def count (rt : KitematicRuntime) (metrics : List String) : List Effect :=
  if rt.metrics then metrics.map .increment else []

def trace (rt : KitematicRuntime) (phases : List Effect) : List Effect :=
  if rt.tracer then phases else []

/-- `set_tenant_context`; on an exception the runtime is unchanged. -/
def setTenantContext (rt : KitematicRuntime) (context : TenantContext) :
    Except IsolationError KitematicRuntime :=
  if !context.isValid then .error .missingTenantContext
  else
    match rt.isolation with
    | none => .ok { rt with tenantContext := some context }
    | some b =>
        match b.validateTenantContext context with
        | .error e => .error e
        | .ok _ => .ok { rt with tenantContext := some context }

def drain (rt : KitematicRuntime) : KitematicRuntime :=
  if rt.state ≠ .running then rt else { rt with state := .draining }

def stop (rt : KitematicRuntime) : KitematicRuntime × List Effect :=
  if rt.state = .stopped then (rt, [])
  else ({ rt with state := .stopped }, rt.count ["runtime.shutdown.count"])

/-- Step 0: the tenant context and the isolation slot. -/
def tenantGate (rt : KitematicRuntime) (executionId : String) :
    Segment (Except Progress Unit) :=
  match rt.isolation, rt.tenantContext with
  | some _, none => ⟨rt, [], .error (Rejection.noTenantContext.progress executionId)⟩
  | some b, some ctx =>
      match b.checkResourceLimits ctx.tenantId with
      | .error e => ⟨rt, [], .error (.raised (.isolation e))⟩
      | .ok () =>
          ⟨{ rt with isolation := some (b.startExecution ctx.tenantId) },
            [.isolationStart ctx.tenantId], .ok ()⟩
  | none, _ => ⟨rt, [], .ok ()⟩

/-- The quota check; the value passed on is `quota_acquired`. -/
def quotaGate (rt : KitematicRuntime) (ctx : Option TenantContext) (executionId : String)
    (now : ℚ) : Segment (Except Progress Bool) :=
  match rt.quotaManager with
  | none => ⟨rt, [], .ok false⟩
  | some q =>
      let tenant := quotaTenant ctx
      if tenant = "" then ⟨rt, [], .ok false⟩
      else if !q.checkConcurrent tenant then
        ⟨rt, rt.count ["resource.quota.exceeded"],
          .error ((Rejection.concurrentLimit tenant).progress executionId)⟩
      else
        match q.checkAndConsumeRate tenant now with
        | (q, true) =>
            ⟨{ rt with quotaManager := some (q.startExecution tenant executionId) },
              [.quotaStart tenant executionId], .ok true⟩
        | (q, false) =>
            match q.retryAfter tenant now with
            | (q, .ok retry) =>
                ⟨{ rt with quotaManager := some q }, rt.count ["resource.rate_limit.hit"],
                  .error ((Rejection.rateLimit tenant retry).progress executionId)⟩
            | (q, .error e) =>
                ⟨{ rt with quotaManager := some q }, [], .error (.raised (.zeroDivision e))⟩

def releaseQuota (rt : KitematicRuntime) (ctx : Option TenantContext) (executionId : String)
    (quotaAcquired : Bool) : Segment Unit :=
  match rt.quotaManager with
  | some q =>
      if quotaAcquired ∧ quotaTenant ctx ≠ "" then
        ⟨{ rt with quotaManager := some (q.endExecution (quotaTenant ctx) executionId) },
          [.quotaEnd (quotaTenant ctx) executionId], ()⟩
      else ⟨rt, [], ()⟩
  | none => ⟨rt, [], ()⟩

/-- The shutdown check, which gives the quota slot back before it rejects. -/
def shutdownGate (rt : KitematicRuntime) (ctx : Option TenantContext) (executionId : String)
    (quotaAcquired : Bool) : Segment (Except Progress Unit) :=
  let reject (r : Rejection) : Segment (Except Progress Unit) :=
    let released := rt.releaseQuota ctx executionId quotaAcquired
    ⟨released.runtime, released.effects ++ rt.count ["runtime.executions.rejected"],
      .error (r.progress executionId)⟩
  match rt.state with
  | .draining => reject .draining
  | .stopped => reject .stopped
  | .running => ⟨rt, [], .ok ()⟩

def beginGuarded (rt : KitematicRuntime) (intent : Intent) (executionId : String)
    (ctx : Option TenantContext) (quotaAcquired : Bool) (now : ℚ) : Segment Progress :=
  let effects := rt.count ["runtime.executions.total"] ++
    rt.trace [.startPhase .intentReceived] ++ [.transition .created .validating]
  match transition .created .validating with
  | .error (c, t) => ⟨rt, effects, .raised (.invalidStateTransition c t)⟩
  | .ok state =>
      ⟨rt, effects ++ [.call (.evaluateIntent intent)],
        .suspended
          { executionId := executionId, intent := intent, tenantCtx := ctx
            quotaAcquired := quotaAcquired, state := state, startTime := now
            awaiting := .evaluateIntent intent }⟩

/-- `execute_intent` up to its first await, with the drawn `uuid4` as an input. -/
def executeIntent (rt : KitematicRuntime) (intent : Intent) (executionId : String) (now : ℚ) :
    Segment Progress :=
  let ctx := rt.tenantContext
  (rt.tenantGate executionId).andThen fun rt _ =>
    (rt.quotaGate ctx executionId now).andThen fun rt quotaAcquired =>
      (rt.shutdownGate ctx executionId quotaAcquired).andThen fun rt _ =>
        rt.beginGuarded intent executionId ctx quotaAcquired now

/-- The shape every failing exit of the chain has: `_transition_safe`, the closed
trace phase, the failure counters and the result. -/
def fail (rt : KitematicRuntime) (frame : Frame) (target : ExecutionState)
    (traceError : Option String) (metrics : List String) (error : String) : Segment Progress :=
  ⟨rt, [.transitionSafe frame.state target] ++ rt.trace [.endPhase false traceError] ++
      rt.count metrics,
    .returned
      { success := false, executionId := frame.executionId, error := some error
        state := transitionSafe frame.state target }⟩

def advance (rt : KitematicRuntime) (frame : Frame) (target : ExecutionState)
    (phase : TracePhase) (call : CollaboratorCall) : Segment Progress :=
  match transition frame.state target with
  | .error (c, t) => ⟨rt, [.transition frame.state target], .raised (.invalidStateTransition c t)⟩
  | .ok state =>
      ⟨rt, [.transition frame.state target] ++
          rt.trace [.endPhase true none, .startPhase phase] ++ [.call call],
        .suspended { frame with state := state, awaiting := call }⟩

def afterEvaluateIntent (rt : KitematicRuntime) (frame : Frame) :
    Except String (Bool × Option String) → Segment Progress
  | .error e =>
      rt.fail frame .halted (some e) ["runtime.executions.failed"]
        ("Policy evaluation error: " ++ e)
  | .ok (false, reason) =>
      rt.fail frame .failed reason ["runtime.policy.rejected", "runtime.executions.failed"]
        (orElse reason "Policy rejected intent")
  | .ok (true, _) =>
      rt.advance frame .authorized .capabilityCheck
        (.checkCapability frame.intent.action frame.intent.agentId)

def afterCheckCapability (rt : KitematicRuntime) (frame : Frame) :
    Except String (Bool × Option String) → Segment Progress
  | .error e =>
      rt.fail frame .failed (some e) ["runtime.executions.failed"] ("Capability check error: " ++ e)
  | .ok (false, reason) =>
      rt.fail frame .failed reason ["runtime.capability.denied", "runtime.executions.failed"]
        (orElse reason ("Capability not allowed for action: " ++ frame.intent.action))
  | .ok (true, _) =>
      rt.advance frame .executing .intentRouting (.routeIntent frame.intent)

/-- Routing is the one phase that ends without a state transition. -/
def afterRouteIntent (rt : KitematicRuntime) (frame : Frame) :
    Except String ExecutionPath → Segment Progress
  | .error e =>
      rt.fail frame .halted (some e) ["runtime.executions.failed"] ("Orchestration error: " ++ e)
  | .ok path =>
      ⟨rt, rt.trace [.endPhase true none, .startPhase .toolExecution] ++
          [.call (.accessTool path frame.intent)],
        .suspended { frame with awaiting := .accessTool path frame.intent }⟩

def checkpointState (frame : Frame) (data : Payload) (now : ℚ) : CheckpointState where
  executionId := frame.executionId
  intentAction := frame.intent.action
  intentAgent := frame.intent.agentId
  toolResult := data
  timestamp := now
  tenantId := frame.tenantCtx.map TenantContext.tenantId

def afterAccessTool (rt : KitematicRuntime) (frame : Frame) (now : ℚ) :
    Except String ToolResult → Segment Progress
  | .error e =>
      rt.fail frame .failed (some e) ["runtime.gateway.error", "runtime.executions.failed"]
        ("Gateway access error: " ++ e)
  | .ok toolResult =>
      if !toolResult.success then
        rt.fail frame .failed toolResult.error ["runtime.executions.failed"]
          (orElse toolResult.error "Tool execution failed")
      else
        rt.advance frame .checkpointing .checkpointSave
          (.save frame.executionId (checkpointState frame toolResult.data now))

/-- `end_execution` on the boundary, reached on the success path only. -/
def endIsolation (rt : KitematicRuntime) (ctx : Option TenantContext) : Segment Unit :=
  match rt.isolation, ctx with
  | some b, some ctx =>
      ⟨{ rt with isolation := some (b.endExecution ctx.tenantId) },
        [.isolationEnd ctx.tenantId], ()⟩
  | _, _ => ⟨rt, [], ()⟩

def afterSave (rt : KitematicRuntime) (frame : Frame) (state : CheckpointState) (now : ℚ) :
    Except String String → Segment Progress
  | .error e =>
      rt.fail frame .halted (some e) ["runtime.checkpoint.error", "runtime.executions.failed"]
        ("Checkpoint save error: " ++ e)
  | .ok checkpointId =>
      match transition frame.state .completed with
      | .error (c, t) =>
          ⟨rt, [.transition frame.state .completed], .raised (.invalidStateTransition c t)⟩
      | .ok final =>
          let ended := rt.endIsolation frame.tenantCtx
          ⟨ended.runtime, [.transition frame.state .completed] ++
              rt.trace
                [.endPhase true none, .startPhase .executionCompleted, .endPhase true none] ++
              ended.effects ++ rt.count ["runtime.executions.completed"] ++
              (if rt.metrics then
                [.record "runtime.execution.duration_ms" ((now - frame.startTime) * 1000)] else []),
            .returned
              { success := true, executionId := frame.executionId
                checkpointId := some checkpointId, data := state.toolResult, state := final }⟩

/-- `_execute_quota_guarded` from the pending await on. A reply that does not fit
the await is no step at all. -/
def resumeGuarded (rt : KitematicRuntime) (frame : Frame) (reply : Reply) (now : ℚ) :
    Option (Segment Progress) :=
  match frame.awaiting, reply with
  | .evaluateIntent _, .decision allowed reason =>
      some (rt.afterEvaluateIntent frame (.ok (allowed, reason)))
  | .evaluateIntent _, .raised e => some (rt.afterEvaluateIntent frame (.error e))
  | .checkCapability _ _, .decision allowed reason =>
      some (rt.afterCheckCapability frame (.ok (allowed, reason)))
  | .checkCapability _ _, .raised e => some (rt.afterCheckCapability frame (.error e))
  | .routeIntent _, .path path => some (rt.afterRouteIntent frame (.ok path))
  | .routeIntent _, .raised e => some (rt.afterRouteIntent frame (.error e))
  | .accessTool _ _, .toolResult result => some (rt.afterAccessTool frame now (.ok result))
  | .accessTool _ _, .raised e => some (rt.afterAccessTool frame now (.error e))
  | .save _ state, .checkpointId checkpointId =>
      some (rt.afterSave frame state now (.ok checkpointId))
  | .save _ state, .raised e => some (rt.afterSave frame state now (.error e))
  | _, _ => none

/-- `execute_intent` from the pending await on: when the guarded part returns, the
quota slot is released; when it raises, the release is skipped. -/
def resume (rt : KitematicRuntime) (frame : Frame) (reply : Reply) (now : ℚ) :
    Option (Segment Progress) :=
  (rt.resumeGuarded frame reply now).map fun segment =>
    match segment.outcome with
    | .returned result =>
        let released :=
          segment.runtime.releaseQuota frame.tenantCtx frame.executionId frame.quotaAcquired
        ⟨released.runtime, segment.effects ++ released.effects, .returned result⟩
    | progress => ⟨segment.runtime, segment.effects, progress⟩

/-- The awaited restore, with every other exception turned into the persistence error. -/
def persistenceRestore {α : Type} (restore : String → Except RestoreFailure α)
    (checkpointId : String) : Except RestoreError α :=
  match restore checkpointId with
  | .ok state => .ok state
  | .error (.checkpointPersistence operation reason) =>
      .error (.checkpointPersistence operation reason)
  | .error (.other text) => .error (.checkpointPersistence "restore" text)

def restoreFromCheckpoint {α : Type} (rt : KitematicRuntime)
    (restore : String → Except RestoreFailure α)
    (checkpointId : String) (checkpointTenant checkpointAgent : String := "") :
    Except RestoreError α :=
  match rt.tenantContext, rt.isolation with
  | some ctx, some _ =>
      if checkpointTenant ≠ "" ∧ checkpointAgent ≠ "" then
        match IsolationBoundary.validateCheckpointOwner checkpointTenant checkpointAgent
            ctx.tenantId ctx.agentId with
        | .error e => .error (.isolation e)
        | .ok _ => persistenceRestore restore checkpointId
      else persistenceRestore restore checkpointId
  | _, _ => persistenceRestore restore checkpointId

end KitematicRuntime
end Kitematic.RuntimeAbi

import Kitematic.Admission

/-! What one resumed await can do. A frame is consistent when its state is the
one the chain awaits in and its pending call speaks of its own intent; every
segment keeps that, so `_transition` never raises and a segment either moves to
the next await, completes, or fails. -/

namespace Kitematic.Resumption
open Admission Isolation PyText Quotas RuntimeAbi State Tenant

/-- The state in which the chain awaits a call. -/
def awaitState : CollaboratorCall → ExecutionState
  | .evaluateIntent _ => .validating
  | .checkCapability _ _ => .authorized
  | .routeIntent _ => .executing
  | .accessTool _ _ => .executing
  | .save _ _ => .checkpointing

def rank : CollaboratorCall → Nat
  | .evaluateIntent _ => 0
  | .checkCapability _ _ => 1
  | .routeIntent _ => 2
  | .accessTool _ _ => 3
  | .save _ _ => 4

def OwnCall (frame : Frame) : CollaboratorCall → Prop
  | .evaluateIntent intent => intent = frame.intent
  | .checkCapability action agentId =>
      action = frame.intent.action ∧ agentId = frame.intent.agentId
  | .routeIntent intent => intent = frame.intent
  | .accessTool _ intent => intent = frame.intent
  | .save executionId state =>
      executionId = frame.executionId ∧
        ∃ data now, state = KitematicRuntime.checkpointState frame data now

structure Consistent (frame : Frame) : Prop where
  state : frame.state = awaitState frame.awaiting
  call : OwnCall frame frame.awaiting
  quota : frame.quotaAcquired = true → quotaTenant frame.tenantCtx ≠ ""

structure SameCall (frame next : Frame) : Prop where
  executionId : next.executionId = frame.executionId
  intent : next.intent = frame.intent
  tenantCtx : next.tenantCtx = frame.tenantCtx
  quotaAcquired : next.quotaAcquired = frame.quotaAcquired
  startTime : next.startTime = frame.startTime

def grants : Reply → Bool
  | .decision allowed _ => allowed
  | .path _ => true
  | .toolResult result => result.success
  | .checkpointId _ => true
  | .raised _ => false

/-- What the next call takes over from a reply: the gateway gets the routed path,
and a state about to be saved holds the data of the tool result that led to it. -/
structure Carries (reply : Reply) (call : CollaboratorCall) : Prop where
  path : ∀ path intent, call = .accessTool path intent → reply = .path path
  data : ∀ executionId state, call = .save executionId state →
    ∃ result, reply = .toolResult result ∧ state.toolResult = result.data

def Failed (frame : Frame) (result : ExecutionResult) : Prop :=
  result.success = false ∧ result.executionId = frame.executionId ∧
    result.checkpointId = none ∧ (result.state = .failed ∨ result.state = .halted)

/-- A segment of the guarded chain, before the quota slot is released. -/
inductive Guarded (rt : KitematicRuntime) (frame : Frame) : Reply → Segment Progress → Prop where
  | advanced {reply : Reply} {before : List Effect} (next : Frame) (granted : grants reply = true)
      (same : SameCall frame next) (consistent : Consistent next)
      (order : rank next.awaiting = rank frame.awaiting + 1) (carries : Carries reply next.awaiting)
      (quiet : Quiet frame.tenantCtx before) (path : IsPath frame.state (moves before) next.state) :
      Guarded rt frame reply ⟨rt, before ++ [.call next.awaiting], .suspended next⟩
  | completed {executionId checkpointId : String} {state : CheckpointState}
      {effects : List Effect} (pending : frame.awaiting = .save executionId state)
      (quiet : Quiet frame.tenantCtx effects)
      (path : IsPath frame.state (moves effects) .completed) :
      Guarded rt frame (.checkpointId checkpointId)
        ⟨(rt.endIsolation frame.tenantCtx).runtime, effects,
          .returned
            ⟨true, frame.executionId, some checkpointId, state.toolResult, none, .completed⟩⟩
  | failed {reply : Reply} {result : ExecutionResult} {effects : List Effect}
      (refused : grants reply = false) (failed : Failed frame result)
      (quiet : Quiet frame.tenantCtx effects)
      (path : IsPath frame.state (moves effects) result.state) :
      Guarded rt frame reply ⟨rt, effects, .returned result⟩

/-- A resumed call: the guarded segment, and when it returns the released quota
slot. -/
inductive Resumed (rt : KitematicRuntime) (frame : Frame) : Reply → Segment Progress → Prop where
  | advanced {reply : Reply} {before : List Effect} (next : Frame) (granted : grants reply = true)
      (same : SameCall frame next) (consistent : Consistent next)
      (order : rank next.awaiting = rank frame.awaiting + 1) (carries : Carries reply next.awaiting)
      (quiet : Quiet frame.tenantCtx before) (path : IsPath frame.state (moves before) next.state) :
      Resumed rt frame reply ⟨rt, before ++ [.call next.awaiting], .suspended next⟩
  | completed {executionId checkpointId : String} {state : CheckpointState}
      {effects : List Effect} (pending : frame.awaiting = .save executionId state)
      (quiet : Quiet frame.tenantCtx effects)
      (path : IsPath frame.state (moves effects) .completed) :
      Resumed rt frame (.checkpointId checkpointId)
        ⟨((rt.endIsolation frame.tenantCtx).runtime.releaseQuota frame.tenantCtx frame.executionId
            frame.quotaAcquired).runtime, effects,
          .returned
            ⟨true, frame.executionId, some checkpointId, state.toolResult, none, .completed⟩⟩
  | failed {reply : Reply} {result : ExecutionResult} {effects : List Effect}
      (refused : grants reply = false) (failed : Failed frame result)
      (quiet : Quiet frame.tenantCtx effects)
      (path : IsPath frame.state (moves effects) result.state) :
      Resumed rt frame reply
        ⟨(rt.releaseQuota frame.tenantCtx frame.executionId frame.quotaAcquired).runtime, effects,
          .returned result⟩

end Kitematic.Resumption

namespace Kitematic.RuntimeAbi.KitematicRuntime
open Admission Isolation PyText Quotas Resumption State Tenant

theorem trace_quiet (rt : KitematicRuntime) (ctx : Option TenantContext) {phases : List Effect}
    (quiet : Quiet ctx phases) : Quiet ctx (rt.trace phases) := by
  unfold trace
  split
  · exact quiet
  · exact .nil ctx

theorem endIsolation_quiet (rt : KitematicRuntime) (ctx : Option TenantContext) :
    Quiet ctx (rt.endIsolation ctx).effects := by
  unfold endIsolation
  split
  · simp [Quiet, IsCall, OfTenant]
  · exact .nil _

@[simp] theorem moves_endIsolation (rt : KitematicRuntime) (ctx : Option TenantContext) :
    moves (rt.endIsolation ctx).effects = [] := by
  unfold endIsolation
  split <;> rfl

section guarded
variable {rt : KitematicRuntime} {frame : Frame}

theorem fail_guarded {target : ExecutionState} {traceError : Option String}
    {metrics : List String} {error : String} {reply : Reply} (refused : grants reply = false)
    (valid : isValidTransition frame.state target = true)
    (ends : target = .failed ∨ target = .halted) :
    Guarded rt frame reply (rt.fail frame target traceError metrics error) := by
  refine .failed refused ⟨rfl, rfl, rfl, ?_⟩ ?_ ?_
  · simpa only [transitionSafe_of_valid valid] using ends
  · refine (Quiet.append (by simp [Quiet, IsCall, OfTenant]) (rt.trace_quiet _ ?_)).append
      (rt.count_quiet _ _)
    simp [Quiet, IsCall, OfTenant]
  · simp [moveOf, IsPath, valid, transitionSafe_of_valid valid]

theorem advance_guarded {target : ExecutionState} {phase : TracePhase} {call : CollaboratorCall}
    {reply : Reply} (consistent : Consistent frame) (granted : grants reply = true)
    (valid : isValidTransition frame.state target = true) (reached : target = awaitState call)
    (order : rank call = rank frame.awaiting + 1) (own : OwnCall frame call)
    (carries : Carries reply call) :
    Guarded rt frame reply (rt.advance frame target phase call) := by
  simp only [advance, transition_of_valid valid]
  refine .advanced { frame with state := target, awaiting := call } granted
    ⟨rfl, rfl, rfl, rfl, rfl⟩ ⟨reached, ?_, consistent.quota⟩ order carries ?_ ?_
  · cases call <;> exact own
  · refine Quiet.append (by simp [Quiet, IsCall, OfTenant]) (rt.trace_quiet _ ?_)
    simp [Quiet, IsCall, OfTenant]
  · simp [moveOf, IsPath, valid]

theorem afterEvaluateIntent_guarded (consistent : Consistent frame) {intent : Intent}
    (pending : frame.awaiting = .evaluateIntent intent) :
    (∀ allowed reason, Guarded rt frame (.decision allowed reason)
      (rt.afterEvaluateIntent frame (.ok (allowed, reason)))) ∧
    ∀ e, Guarded rt frame (.raised e) (rt.afterEvaluateIntent frame (.error e)) := by
  have state : frame.state = .validating := by rw [consistent.state, pending]; rfl
  refine ⟨fun allowed reason => ?_, fun e => ?_⟩
  · cases allowed with
    | false => exact fail_guarded rfl (by rw [state]; decide) (.inl rfl)
    | true =>
      exact advance_guarded consistent rfl (by rw [state]; decide) rfl (by rw [pending]; rfl)
        ⟨rfl, rfl⟩ ⟨fun _ _ same => (nomatch same), fun _ _ same => (nomatch same)⟩
  · exact fail_guarded rfl (by rw [state]; decide) (.inr rfl)

theorem afterCheckCapability_guarded (consistent : Consistent frame) {action agentId : String}
    (pending : frame.awaiting = .checkCapability action agentId) :
    (∀ allowed reason, Guarded rt frame (.decision allowed reason)
      (rt.afterCheckCapability frame (.ok (allowed, reason)))) ∧
    ∀ e, Guarded rt frame (.raised e) (rt.afterCheckCapability frame (.error e)) := by
  have state : frame.state = .authorized := by rw [consistent.state, pending]; rfl
  refine ⟨fun allowed reason => ?_, fun e => ?_⟩
  · cases allowed with
    | false => exact fail_guarded rfl (by rw [state]; decide) (.inl rfl)
    | true =>
      exact advance_guarded consistent rfl (by rw [state]; decide) rfl (by rw [pending]; rfl) rfl
        ⟨fun _ _ same => (nomatch same), fun _ _ same => (nomatch same)⟩
  · exact fail_guarded rfl (by rw [state]; decide) (.inl rfl)

theorem afterRouteIntent_guarded (consistent : Consistent frame) {intent : Intent}
    (pending : frame.awaiting = .routeIntent intent) :
    (∀ path, Guarded rt frame (.path path) (rt.afterRouteIntent frame (.ok path))) ∧
    ∀ e, Guarded rt frame (.raised e) (rt.afterRouteIntent frame (.error e)) := by
  have state : frame.state = .executing := by rw [consistent.state, pending]; rfl
  refine ⟨fun path => ?_, fun e => ?_⟩
  · refine .advanced { frame with awaiting := .accessTool path frame.intent } rfl
      ⟨rfl, rfl, rfl, rfl, rfl⟩ ⟨state, rfl, consistent.quota⟩ (by rw [pending]; rfl)
      ⟨?_, fun _ _ same => nomatch same⟩ (rt.trace_quiet _ ?_) ?_
    · rintro routed intent same
      cases same
      rfl
    · simp [Quiet, IsCall, OfTenant]
    · simp [moveOf, IsPath]
  · exact fail_guarded rfl (by rw [state]; decide) (.inr rfl)

theorem afterAccessTool_guarded (consistent : Consistent frame) {path : ExecutionPath}
    {intent : Intent} (pending : frame.awaiting = .accessTool path intent) (now : ℚ) :
    (∀ result, Guarded rt frame (.toolResult result) (rt.afterAccessTool frame now (.ok result))) ∧
    ∀ e, Guarded rt frame (.raised e) (rt.afterAccessTool frame now (.error e)) := by
  have state : frame.state = .executing := by rw [consistent.state, pending]; rfl
  refine ⟨fun result => ?_, fun e => ?_⟩
  · unfold afterAccessTool
    cases success : result.success with
    | false =>
      simp only [success, Bool.not_false, if_true]
      exact fail_guarded success (by rw [state]; decide) (.inl rfl)
    | true =>
      simp only [success, Bool.not_true, Bool.false_eq_true, if_false]
      refine advance_guarded consistent success (by rw [state]; decide) rfl (by rw [pending]; rfl)
        ⟨rfl, _, _, rfl⟩ ⟨fun _ _ same => (nomatch same), ?_⟩
      rintro executionId saved same
      cases same
      exact ⟨result, rfl, rfl⟩
  · exact fail_guarded rfl (by rw [state]; decide) (.inl rfl)

theorem afterSave_guarded (consistent : Consistent frame) {executionId : String}
    {saved : CheckpointState} (pending : frame.awaiting = .save executionId saved) (now : ℚ) :
    (∀ id, Guarded rt frame (.checkpointId id) (rt.afterSave frame saved now (.ok id))) ∧
    ∀ e, Guarded rt frame (.raised e) (rt.afterSave frame saved now (.error e)) := by
  have state : frame.state = .checkpointing := by rw [consistent.state, pending]; rfl
  refine ⟨fun id => ?_, fun e => ?_⟩
  · have valid : isValidTransition frame.state .completed = true := by rw [state]; decide
    simp only [afterSave, transition_of_valid valid]
    refine .completed pending ?_ ?_
    · refine ((((Quiet.append ?_ (rt.trace_quiet _ ?_)).append
        (rt.endIsolation_quiet _)).append (rt.count_quiet _ _))).append ?_
      · simp [Quiet, IsCall, OfTenant]
      · simp [Quiet, IsCall, OfTenant]
      · split <;> simp [Quiet, IsCall, OfTenant]
    · have recorded : moves (if rt.metrics then
          [.record "runtime.execution.duration_ms" ((now - frame.startTime) * 1000)]
            else []) = [] := by
        split <;> rfl
      rw [moves_append, recorded]
      simp [moveOf, IsPath, valid]
  · exact fail_guarded rfl (by rw [state]; decide) (.inr rfl)

theorem resumeGuarded_guarded (consistent : Consistent frame) {reply : Reply} {now : ℚ}
    {segment : Segment Progress} (stepped : rt.resumeGuarded frame reply now = some segment) :
    Guarded rt frame reply segment := by
  unfold resumeGuarded at stepped
  split at stepped
  case h_1 pending =>
    cases stepped
    exact (afterEvaluateIntent_guarded consistent pending).1 _ _
  case h_2 pending =>
    cases stepped
    exact (afterEvaluateIntent_guarded consistent pending).2 _
  case h_3 pending =>
    cases stepped
    exact (afterCheckCapability_guarded consistent pending).1 _ _
  case h_4 pending =>
    cases stepped
    exact (afterCheckCapability_guarded consistent pending).2 _
  case h_5 pending =>
    cases stepped
    exact (afterRouteIntent_guarded consistent pending).1 _
  case h_6 pending =>
    cases stepped
    exact (afterRouteIntent_guarded consistent pending).2 _
  case h_7 pending =>
    cases stepped
    exact (afterAccessTool_guarded consistent pending _).1 _
  case h_8 pending =>
    cases stepped
    exact (afterAccessTool_guarded consistent pending _).2 _
  case h_9 pending =>
    cases stepped
    exact (afterSave_guarded consistent pending _).1 _
  case h_10 pending =>
    cases stepped
    exact (afterSave_guarded consistent pending _).2 _
  case h_11 => cases stepped

theorem resume_resumed (consistent : Consistent frame) {reply : Reply} {now : ℚ}
    {segment : Segment Progress} (stepped : rt.resume frame reply now = some segment) :
    Resumed rt frame reply segment := by
  obtain ⟨guarded, inner, rfl⟩ := Option.map_eq_some_iff.mp stepped
  cases resumeGuarded_guarded consistent inner with
  | advanced next granted same consistent order carries quiet path =>
    exact .advanced next granted same consistent order carries quiet path
  | completed pending quiet path =>
    exact .completed pending (quiet.append (releaseQuota_quiet _ _ _ _)) (by simpa using path)
  | failed refused failed quiet path =>
    exact .failed refused failed (quiet.append (releaseQuota_quiet _ _ _ _)) (by simpa using path)

end guarded

@[simp] theorem endIsolation_tenantContext (rt : KitematicRuntime) (ctx : Option TenantContext) :
    (rt.endIsolation ctx).runtime.tenantContext = rt.tenantContext := by
  unfold endIsolation
  split <;> rfl

@[simp] theorem endIsolation_state (rt : KitematicRuntime) (ctx : Option TenantContext) :
    (rt.endIsolation ctx).runtime.state = rt.state := by
  unfold endIsolation
  split <;> rfl

@[simp] theorem endIsolation_quotaManager (rt : KitematicRuntime) (ctx : Option TenantContext) :
    (rt.endIsolation ctx).runtime.quotaManager = rt.quotaManager := by
  unfold endIsolation
  split <;> rfl

@[simp] theorem endIsolation_active (rt : KitematicRuntime) (ctx : Option TenantContext)
    (t : String) : (rt.endIsolation ctx).runtime.active t = rt.active t := by
  simp [active]

theorem endIsolation_isolation_isSome (rt : KitematicRuntime) (ctx : Option TenantContext) :
    (rt.endIsolation ctx).runtime.isolation.isSome = rt.isolation.isSome := by
  unfold endIsolation
  split <;> simp_all

theorem endIsolation_executionCount (rt : KitematicRuntime) (ctx : Option TenantContext)
    (t : String) : (rt.endIsolation ctx).runtime.executionCount t =
      if tenantOf ctx = some t then rt.executionCount t - 1 else rt.executionCount t := by
  cases iso : rt.isolation with
  | none => simp [endIsolation, iso, executionCount]
  | some b =>
    cases ctx with
    | none => simp [endIsolation, iso, executionCount, tenantOf]
    | some c =>
      by_cases h : c.tenantId = t
      · simp [endIsolation, iso, executionCount, tenantOf, h]
      · simp [endIsolation, iso, executionCount, tenantOf, h, Ne.symm h]
end Kitematic.RuntimeAbi.KitematicRuntime

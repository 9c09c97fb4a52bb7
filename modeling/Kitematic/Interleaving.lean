import Kitematic.Resumption
import Kitematic.Trace

/-! Any number of `execute_intent` calls over one runtime, interleaved at their
awaits. A pool holds the shared runtime, the suspended frame of every call in
flight, and a record of what the calls did: the ids drawn, the effects and the
checkpoints saved. -/

namespace Kitematic.Interleaving
open Admission Dictionary Isolation Quotas Resumption RuntimeAbi State Tenant

structure Saved where
  checkpointId : String
  state : CheckpointState
  frame : Frame

structure Pool where
  runtime : KitematicRuntime
  inFlight : Dict String Frame := .empty
  drawn : List String := []
  log : List (String × Effect) := []
  checkpoints : List Saved := []

/-- The synchronous calls that change the runtime between two segments. -/
inductive Control where
  | drain
  | stop
  | setTenantContext (context : TenantContext)
  | registerTenant (tenant : TenantModel)
  | registerAgent (agentId tenantId : String)
  | configure (tenantId : String) (config : TenantQuotaConfig)

/-- A call that raises, or whose component is not attached, changes nothing. -/
def Control.apply (rt : KitematicRuntime) : Control → KitematicRuntime
  | .drain => rt.drain
  | .stop => rt.stop.1
  | .setTenantContext context =>
      match rt.setTenantContext context with
      | .ok rt => rt
      | .error _ => rt
  | .registerTenant tenant =>
      match rt.isolation with
      | none => rt
      | some b =>
          match b.registerTenant tenant with
          | .ok b => { rt with isolation := some b }
          | .error _ => rt
  | .registerAgent agentId tenantId =>
      match rt.isolation with
      | none => rt
      | some b =>
          match b.registerAgent agentId tenantId with
          | .ok b => { rt with isolation := some b }
          | .error _ => rt
  | .configure tenantId config =>
      { rt with quotaManager := rt.quotaManager.map (·.configure tenantId config) }

/-- What no control call touches: the slots, the tokens and what is attached. -/
structure KeepsUsage (rt rt' : KitematicRuntime) : Prop where
  isolation_isSome : rt'.isolation.isSome = rt.isolation.isSome
  quotaManager_isSome : rt'.quotaManager.isSome = rt.quotaManager.isSome
  executionCount : ∀ t, rt'.executionCount t = rt.executionCount t
  active : ∀ t, rt'.active t = rt.active t
  availableTokens : ∀ t now, rt'.availableTokens t now = rt.availableTokens t now

theorem KeepsUsage.refl (rt : KitematicRuntime) : KeepsUsage rt rt :=
  ⟨rfl, rfl, fun _ => rfl, fun _ => rfl, fun _ _ => rfl⟩

theorem keepsUsage_isolation {rt : KitematicRuntime} {b b' : IsolationBoundary}
    (attached : rt.isolation = some b) (counts : b'.executionCounts = b.executionCounts) :
    KeepsUsage rt { rt with isolation := some b' } := by
  refine ⟨by simp [attached], rfl, fun t => ?_, fun _ => rfl, fun _ _ => rfl⟩
  simp [KitematicRuntime.executionCount, IsolationBoundary.executionCount, attached, counts]

theorem Control.keeps (rt : KitematicRuntime) (control : Control) :
    KeepsUsage rt (control.apply rt) := by
  cases control with
  | drain =>
    simp only [apply, KitematicRuntime.drain]
    split <;> exact ⟨rfl, rfl, fun _ => rfl, fun _ => rfl, fun _ _ => rfl⟩
  | stop =>
    simp only [apply, KitematicRuntime.stop]
    split <;> exact ⟨rfl, rfl, fun _ => rfl, fun _ => rfl, fun _ _ => rfl⟩
  | setTenantContext context =>
    simp only [apply]
    split
    next rt' accepted =>
      obtain rfl := KitematicRuntime.setTenantContext_eq_ok accepted
      exact ⟨rfl, rfl, fun _ => rfl, fun _ => rfl, fun _ _ => rfl⟩
    · exact .refl rt
  | registerTenant tenant =>
    simp only [apply, IsolationBoundary.registerTenant]
    split
    · exact .refl rt
    next b attached =>
      split
      next accepted =>
        split at accepted <;> cases accepted
        exact keepsUsage_isolation attached rfl
      · exact .refl rt
  | registerAgent agentId tenantId =>
    simp only [apply, IsolationBoundary.registerAgent]
    split
    · exact .refl rt
    next b attached =>
      split
      next accepted =>
        split at accepted <;> cases accepted
        exact keepsUsage_isolation attached rfl
      · exact .refl rt
  | configure tenantId config =>
    refine ⟨rfl, by simp [apply], fun _ => rfl, fun t => ?_, fun t now => ?_⟩
    · cases quota : rt.quotaManager <;> simp [apply, KitematicRuntime.active, quota,
        QuotaManager.configure, QuotaManager.active]
    · cases quota : rt.quotaManager <;> simp [apply, KitematicRuntime.availableTokens, quota,
        QuotaManager.configure]

/-- `cancel` is `CancelledError` raised at the pending await: no handler of the
chain catches it, so the frame is gone and no code of the call runs again. -/
inductive Event where
  | executeIntent (intent : Intent) (executionId : String) (now : ℚ)
  | resume (executionId : String) (reply : Reply) (now : ℚ)
  | cancel (executionId : String)
  | control (control : Control)

def frameOf : Progress → Option Frame
  | .suspended frame => some frame
  | _ => none

theorem frameOf_refused {id : String} {progress : Progress} (refused : Refused id progress) :
    frameOf progress = none := by
  cases refused <;> rfl

def savedBy (frame : Frame) (reply : Reply) : List Saved :=
  match frame.awaiting, reply with
  | .save _ state, .checkpointId checkpointId => [⟨checkpointId, state, frame⟩]
  | _, _ => []

namespace Pool

def start (rt : KitematicRuntime) : Pool := { runtime := rt }

/-- Bookkeeping after a segment of the call with the given id. -/
def settle (p : Pool) (id : String) (segment : Segment Progress) : Pool :=
  { p with
    runtime := segment.runtime
    inFlight :=
      match frameOf segment.outcome with
      | some frame => p.inFlight.set id frame
      | none => p.inFlight.erase id
    log := p.log ++ segment.effects.map fun effect => (id, effect) }

/-- A `uuid4` never comes up twice. -/
def executeIntent (p : Pool) (intent : Intent) (id : String) (now : ℚ) :
    Option (Pool × Progress) :=
  if id ∈ p.drawn then none
  else
    let segment := p.runtime.executeIntent intent id now
    some ({ p.settle id segment with drawn := id :: p.drawn }, segment.outcome)

def resume (p : Pool) (id : String) (reply : Reply) (now : ℚ) : Option (Pool × Progress) :=
  (p.inFlight.get id).bind fun frame =>
    (p.runtime.resume frame reply now).map fun segment =>
      ({ p.settle id segment with checkpoints := p.checkpoints ++ savedBy frame reply },
        segment.outcome)

def cancel (p : Pool) (id : String) : Option Pool :=
  (p.inFlight.get id).map fun _ => { p with inFlight := p.inFlight.erase id }

def step (p : Pool) : Event → Option Pool
  | .executeIntent intent id now => (p.executeIntent intent id now).map Prod.fst
  | .resume id reply now => (p.resume id reply now).map Prod.fst
  | .cancel id => p.cancel id
  | .control control => some { p with runtime := control.apply p.runtime }

def running (p : Pool) (has : Frame → Bool) : Nat := p.inFlight.count has

theorem get_settle (p : Pool) (id id' : String) (segment : Segment Progress) :
    (p.settle id segment).inFlight.get id' =
      if id' = id then frameOf segment.outcome else p.inFlight.get id' := by
  unfold settle
  cases frameOf segment.outcome with
  | none => exact p.inFlight.get_erase id id'
  | some frame => exact p.inFlight.get_set id id' frame

theorem running_settle (p : Pool) (id : String) (segment : Segment Progress)
    (has : Frame → Bool) : (p.settle id segment).running has =
      (p.inFlight.erase id).count has + if (frameOf segment.outcome).any has then 1 else 0 := by
  unfold settle running
  cases frameOf segment.outcome with
  | none => rfl
  | some frame => exact p.inFlight.count_set id frame has

theorem executeIntent_eq_some {p p' : Pool} {intent : Intent} {id : String} {now : ℚ}
    {progress : Progress} (stepped : p.executeIntent intent id now = some (p', progress)) :
    id ∉ p.drawn ∧ p' = { p.settle id (p.runtime.executeIntent intent id now) with
      drawn := id :: p.drawn } ∧ progress = (p.runtime.executeIntent intent id now).outcome := by
  unfold executeIntent at stepped
  split at stepped
  · cases stepped
  next fresh =>
    cases stepped
    exact ⟨fresh, rfl, rfl⟩

theorem resume_eq_some {p p' : Pool} {id : String} {reply : Reply} {now : ℚ}
    {progress : Progress} (stepped : p.resume id reply now = some (p', progress)) :
    ∃ frame segment, p.inFlight.get id = some frame ∧
      p.runtime.resume frame reply now = some segment ∧
      p' = { p.settle id segment with checkpoints := p.checkpoints ++ savedBy frame reply } ∧
      progress = segment.outcome := by
  obtain ⟨frame, pending, mapped⟩ := Option.bind_eq_some_iff.mp stepped
  obtain ⟨segment, resumed, same⟩ := Option.map_eq_some_iff.mp mapped
  cases same
  exact ⟨frame, segment, pending, resumed, rfl, rfl⟩

inductive Stepped (p : Pool) : Event → Pool → Prop where
  | executeIntent (intent : Intent) (id : String) (now : ℚ) (fresh : id ∉ p.drawn) :
      Stepped p (.executeIntent intent id now)
        { p.settle id (p.runtime.executeIntent intent id now) with drawn := id :: p.drawn }
  | resume (id : String) (reply : Reply) (now : ℚ) (frame : Frame) (segment : Segment Progress)
      (pending : p.inFlight.get id = some frame)
      (resumed : p.runtime.resume frame reply now = some segment) :
      Stepped p (.resume id reply now)
        { p.settle id segment with checkpoints := p.checkpoints ++ savedBy frame reply }
  | cancel (id : String) (frame : Frame) (pending : p.inFlight.get id = some frame) :
      Stepped p (.cancel id) { p with inFlight := p.inFlight.erase id }
  | control (control : Control) :
      Stepped p (.control control) { p with runtime := control.apply p.runtime }

theorem step_stepped {p p' : Pool} {e : Event} (stepped : p.step e = some p') :
    Stepped p e p' := by
  cases e with
  | executeIntent intent id now =>
    obtain ⟨⟨_, progress⟩, ran, rfl⟩ := Option.map_eq_some_iff.mp stepped
    obtain ⟨fresh, rfl, _⟩ := executeIntent_eq_some ran
    exact .executeIntent intent id now fresh
  | resume id reply now =>
    obtain ⟨⟨_, progress⟩, ran, rfl⟩ := Option.map_eq_some_iff.mp stepped
    obtain ⟨frame, segment, pending, resumed, rfl, _⟩ := resume_eq_some ran
    exact .resume id reply now frame segment pending resumed
  | cancel id =>
    obtain ⟨frame, pending, rfl⟩ := Option.map_eq_some_iff.mp stepped
    exact .cancel id frame pending
  | control control =>
    cases stepped
    exact .control control

/-- What holds of the calls in flight and the saved checkpoints in every pool
that a run from the start reaches. -/
structure WellFormed (p : Pool) : Prop where
  consistent : ∀ id frame, p.inFlight.get id = some frame → Consistent frame
  executionId : ∀ id frame, p.inFlight.get id = some frame → frame.executionId = id
  drawn : ∀ id frame, p.inFlight.get id = some frame → id ∈ p.drawn
  logged : ∀ e ∈ p.log, e.1 ∈ p.drawn
  saved : ∀ s ∈ p.checkpoints, s.state.tenantId = tenantOf s.frame.tenantCtx ∧
    s.state.intentAgent = s.frame.intent.agentId

theorem start_wellFormed (rt : KitematicRuntime) : (start rt).WellFormed := by
  constructor <;> simp [start]

/-- What is true of the settled frame and of all other frames is true of all. -/
theorem settle_forall {p : Pool} {id : String} {segment : Segment Progress}
    {P : String → Frame → Prop}
    (settled : ∀ frame, frameOf segment.outcome = some frame → P id frame)
    (others : ∀ id' frame, p.inFlight.get id' = some frame → P id' frame) :
    ∀ id' frame, (p.settle id segment).inFlight.get id' = some frame → P id' frame := by
  intro id' frame stored
  rw [get_settle] at stored
  split at stored
  next same => exact same ▸ settled frame stored
  · exact others id' frame stored

theorem settle_log {p : Pool} {id : String} {segment : Segment Progress} {P : String → Prop}
    (own : P id) (old : ∀ e ∈ p.log, P e.1) : ∀ e ∈ (p.settle id segment).log, P e.1 := by
  intro e member
  cases List.mem_append.mp member with
  | inl before => exact old e before
  | inr new =>
    obtain ⟨effect, _, rfl⟩ := List.mem_map.mp new
    exact own

theorem firstFrame_consistent (rt : KitematicRuntime) (intent : Intent) (id : String) (now : ℚ) :
    Consistent (rt.firstFrame intent id now) := by
  refine ⟨rfl, rfl, fun acquired => ?_⟩
  have applies : rt.quotaApplies = true := acquired
  simp only [KitematicRuntime.quotaApplies, decide_eq_true_eq] at applies
  exact applies.2

theorem frameOf_executeIntent {rt : KitematicRuntime} {intent : Intent} {id : String} {now : ℚ}
    {frame : Frame} (opened : frameOf (rt.executeIntent intent id now).outcome = some frame) :
    frame = rt.firstFrame intent id now := by
  have opening := rt.executeIntent_opening intent id now
  generalize rt.executeIntent intent id now = segment at opening opened
  cases opening with
  | tenantRefused _ ended => simp [frameOf_refused ended] at opened
  | quotaRefused _ _ ended => simp [frameOf_refused ended] at opened
  | shutdownRefused => cases opened
  | admitted => exact (Option.some.inj opened).symm

theorem frameOf_resume {rt : KitematicRuntime} {frame next : Frame} {reply : Reply} {now : ℚ}
    {segment : Segment Progress} (consistent : Consistent frame)
    (resumed : rt.resume frame reply now = some segment)
    (suspended : frameOf segment.outcome = some next) : SameCall frame next ∧ Consistent next := by
  cases KitematicRuntime.resume_resumed consistent resumed with
  | advanced next' _ same kept =>
    cases suspended
    exact ⟨same, kept⟩
  | completed => cases suspended
  | failed => cases suspended

theorem savedBy_own {frame : Frame} (consistent : Consistent frame) {reply : Reply} {s : Saved}
    (member : s ∈ savedBy frame reply) : s.frame = frame ∧
      s.state.tenantId = tenantOf frame.tenantCtx ∧ s.state.intentAgent = frame.intent.agentId := by
  unfold savedBy at member
  split at member
  next executionId state checkpointId pending =>
    have own := consistent.call
    rw [pending] at own
    obtain ⟨_, data, now, rfl⟩ := own
    rw [List.mem_singleton.mp member]
    exact ⟨rfl, rfl, rfl⟩
  · cases member

theorem step_wellFormed {p p' : Pool} {e : Event} (wf : p.WellFormed)
    (stepped : p.step e = some p') : p'.WellFormed := by
  cases step_stepped stepped with
  | executeIntent intent id now fresh =>
    refine ⟨settle_forall ?_ wf.consistent, settle_forall ?_ wf.executionId,
      settle_forall ?_ fun id' frame stored => List.mem_cons_of_mem _ (wf.drawn id' frame stored),
      ?_, wf.saved⟩
    · intro frame opened
      exact frameOf_executeIntent opened ▸ firstFrame_consistent ..
    · intro frame opened
      exact frameOf_executeIntent opened ▸ rfl
    · intro frame _
      exact List.mem_cons_self
    · exact settle_log List.mem_cons_self fun e old => List.mem_cons_of_mem _ (wf.logged e old)
  | resume id reply now frame segment pending resumed =>
    have consistent := wf.consistent id frame pending
    refine ⟨settle_forall ?_ wf.consistent, settle_forall ?_ wf.executionId,
      settle_forall (fun _ _ => wf.drawn id frame pending) wf.drawn,
      settle_log (wf.drawn id frame pending) wf.logged, ?_⟩
    · intro next suspended
      exact (frameOf_resume consistent resumed suspended).2
    · intro next suspended
      exact (frameOf_resume consistent resumed suspended).1.executionId.trans
        (wf.executionId id frame pending)
    · intro s member
      cases List.mem_append.mp member with
      | inl old => exact wf.saved s old
      | inr new =>
        obtain ⟨rfl, owned⟩ := savedBy_own consistent new
        exact owned
  | cancel id frame pending =>
    exact ⟨Dict.forall_erase wf.consistent id, Dict.forall_erase wf.executionId id,
      Dict.forall_erase wf.drawn id, wf.logged, wf.saved⟩
  | control control => exact ⟨wf.consistent, wf.executionId, wf.drawn, wf.logged, wf.saved⟩

theorem run_wellFormed {rt : KitematicRuntime} {es : List Event} {p : Pool}
    (ran : Trace.run step (start rt) es = some p) : p.WellFormed :=
  Trace.run_invariant (fun _ _ _ _ => step_wellFormed) (start_wellFormed rt) ran

theorem step_isSome {p p' : Pool} {e : Event} (wf : p.WellFormed) (stepped : p.step e = some p') :
    p'.runtime.isolation.isSome = p.runtime.isolation.isSome ∧
      p'.runtime.quotaManager.isSome = p.runtime.quotaManager.isSome := by
  cases step_stepped stepped with
  | executeIntent intent id now fresh =>
    have opening := p.runtime.executeIntent_opening intent id now
    simp only [settle]
    generalize p.runtime.executeIntent intent id now = segment at opening
    cases opening with
    | tenantRefused => exact ⟨rfl, rfl⟩
    | quotaRefused _ _ _ keeps =>
      refine ⟨?_, ?_⟩
      · rw [keeps.isolation, KitematicRuntime.takeIsolation_isolation_isSome]
      · rw [keeps.quotaManager_isSome, KitematicRuntime.takeIsolation_quotaManager]
    | shutdownRefused =>
      simp [KitematicRuntime.takeIsolation_isolation_isSome]
    | admitted =>
      simp [KitematicRuntime.takeIsolation_isolation_isSome]
  | resume id reply now frame segment pending resumed =>
    simp only [settle]
    cases KitematicRuntime.resume_resumed (wf.consistent id frame pending) resumed with
    | advanced => exact ⟨rfl, rfl⟩
    | completed => simp [KitematicRuntime.endIsolation_isolation_isSome]
    | failed => simp
  | cancel => exact ⟨rfl, rfl⟩
  | control control =>
    have kept := control.keeps p.runtime
    exact ⟨kept.isolation_isSome, kept.quotaManager_isSome⟩

theorem WellFormed.get_fresh {p : Pool} (wf : p.WellFormed) {id : String} (fresh : id ∉ p.drawn) :
    p.inFlight.get id = none := by
  cases stored : p.inFlight.get id with
  | none => rfl
  | some frame => exact absurd (wf.drawn id frame stored) fresh

end Pool

/-! One tenant with one agent, with one slot and with two, for runs on fixed inputs. -/

def acmeBoundary : IsolationBoundary where
  tenants := (.empty : Dict String TenantModel).set "acme" ⟨"acme", "Acme", ⟨1⟩⟩
  agents := (.empty : Dict String AgentRecord).set "agent" ⟨"agent", "acme"⟩

def acmeRuntime : KitematicRuntime where
  isolation := some acmeBoundary
  tenantContext := some ⟨"acme", "agent", ∅⟩

def sharedRuntime : KitematicRuntime where
  isolation := some { acmeBoundary with
    tenants := (.empty : Dict String TenantModel).set "acme" ⟨"acme", "Acme", ⟨2⟩⟩ }
  tenantContext := some ⟨"acme", "agent", ∅⟩

/-- What the collaborators answer a call that completes. -/
def granting : List Reply :=
  [.decision true none, .decision true none, .path ⟨"tool.read", "", []⟩,
    .toolResult ⟨true, [], none⟩, .checkpointId "ck_1"]

end Kitematic.Interleaving

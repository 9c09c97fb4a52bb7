import Kitematic.Interleaving

/-! Under whose tenant a call runs. The context is read once, when the call opens,
and stays in the frame; all slots and the checkpoint of the call are of that
tenant. A call engages when it takes a slot or starts the chain. -/

namespace Kitematic.Ownership
open Admission Dictionary Interleaving Isolation Quotas Resumption RuntimeAbi State Tenant

/-- The call takes an isolation slot or a quota slot, or starts the chain. -/
def engages (rt : KitematicRuntime) (now : ℚ) : Bool :=
  rt.passesTenantGate ∧ (rt.isolation.isSome ∨
    (rt.passesQuotaGate now ∧ (rt.quotaApplies ∨ rt.state = .running)))

/-- The call passes every check and starts the chain. -/
def admitted (rt : KitematicRuntime) (now : ℚ) : Bool :=
  rt.passesTenantGate ∧ rt.passesQuotaGate now ∧ rt.state = .running

/-- What a segment does and leaves pending is all of one tenant. -/
def SegmentOf (tenant : Option String) (segment : Segment Progress) : Prop :=
  (∀ e ∈ segment.effects, OfTenant tenant e) ∧
    ∀ frame, frameOf segment.outcome = some frame → tenantOf frame.tenantCtx = tenant

/-- The calls in flight and everything done so far are of the tenant that `owner`
books each id on. -/
def RunsAs (owner : String → Option String) (p : Pool) : Prop :=
  (∀ id frame, p.inFlight.get id = some frame → tenantOf frame.tenantCtx = owner id) ∧
    ∀ e ∈ p.log, OfTenant (owner e.1) e.2

theorem quiet_ofTenant {ctx : Option TenantContext} {effects : List Effect}
    (quiet : Quiet ctx effects) : ∀ e ∈ effects, OfTenant (tenantOf ctx) e :=
  fun e member => (quiet e member).2

theorem executeIntent_segmentOf_own (rt : KitematicRuntime) (intent : Intent) (id : String)
    (now : ℚ) : SegmentOf (tenantOf rt.tenantContext) (rt.executeIntent intent id now) := by
  have opening := rt.executeIntent_opening intent id now
  have slot := quiet_ofTenant rt.isolationSlot_quiet
  have quota := quiet_ofTenant (rt.quotaSlot_quiet id)
  generalize rt.executeIntent intent id now = segment at opening
  cases opening with
  | tenantRefused gate ended => simp [SegmentOf, frameOf_refused ended]
  | quotaRefused entered gate ended keeps silent =>
    refine ⟨List.forall_mem_append.mpr ⟨slot, fun e member => (silent e member).2 _⟩, ?_⟩
    simp [frameOf_refused ended]
  | shutdownRefused entered passed state quiet =>
    refine ⟨List.forall_mem_append.mpr ⟨slot, List.forall_mem_append.mpr
      ⟨quota, quiet_ofTenant quiet⟩⟩, ?_⟩
    simp [frameOf, Rejection.progress]
  | admitted entered passed state quiet =>
    refine ⟨List.forall_mem_append.mpr ⟨slot, List.forall_mem_append.mpr ⟨quota,
      List.forall_mem_append.mpr ⟨quiet_ofTenant quiet, by simp [OfTenant]⟩⟩⟩, ?_⟩
    rintro frame opened
    cases opened
    rfl

theorem executeIntent_segmentOf_any {rt : KitematicRuntime} {intent : Intent} {id : String}
    {now : ℚ} (idle : engages rt now = false) (tenant : Option String) :
    SegmentOf tenant (rt.executeIntent intent id now) := by
  have opening := rt.executeIntent_opening intent id now
  simp only [engages, decide_eq_false_iff_not, not_and, not_or] at idle
  have slot : rt.passesTenantGate = true → rt.isolationSlot = [] := by
    intro entered
    have detached : rt.isolation = none := by simpa using (idle entered).1
    simp only [KitematicRuntime.isolationSlot, detached]
  generalize rt.executeIntent intent id now = segment at opening
  cases opening with
  | tenantRefused gate ended => simp [SegmentOf, frameOf_refused ended]
  | quotaRefused entered gate ended keeps silent =>
    rw [slot entered]
    refine ⟨fun e member => (silent e (by simpa using member)).2 _, ?_⟩
    simp [frameOf_refused ended]
  | shutdownRefused entered passed state quiet silent =>
    have unquoted : rt.quotaApplies = false := by simpa using ((idle entered).2 passed).1
    rw [slot entered, KitematicRuntime.quotaSlot, unquoted]
    refine ⟨fun e member => (silent unquoted e (by simpa using member)).2 _, ?_⟩
    simp [frameOf, Rejection.progress]
  | admitted entered passed state => exact absurd state ((idle entered).2 passed).2

theorem executeIntent_segmentOf_iff (rt : KitematicRuntime) (intent : Intent) (id : String)
    (now : ℚ) (tenant : String) : SegmentOf (some tenant) (rt.executeIntent intent id now) ↔
      (engages rt now = true → tenantOf rt.tenantContext = some tenant) := by
  constructor
  · intro own engaged
    have opening := rt.executeIntent_opening intent id now
    simp only [engages, decide_eq_true_eq] at engaged
    obtain ⟨entered, engaged⟩ := engaged
    generalize rt.executeIntent intent id now = segment at opening own
    by_cases attached : rt.isolation.isSome = true
    · obtain ⟨ctx, context, slot⟩ := KitematicRuntime.isolationSlot_of_passed attached entered
      have taken : .isolationStart ctx.tenantId ∈ segment.effects := by
        cases opening with
        | tenantRefused gate => simp [gate] at entered
        | quotaRefused => simp [slot]
        | shutdownRefused => simp [slot]
        | admitted => simp [slot]
      have same : some tenant = some ctx.tenantId := own.1 _ taken
      rw [context]
      exact same.symm
    · obtain ⟨passed, engaged⟩ := engaged.resolve_left attached
      by_cases applies : rt.quotaApplies = true
      · have taken : .quotaStart (quotaTenant rt.tenantContext) id ∈ segment.effects := by
          cases opening with
          | tenantRefused gate => simp [gate] at entered
          | quotaRefused _ gate => simp [gate] at passed
          | shutdownRefused => simp [KitematicRuntime.quotaSlot, applies]
          | admitted => simp [KitematicRuntime.quotaSlot, applies]
        have same : some tenant = some (quotaTenant rt.tenantContext) := own.1 _ taken
        simp only [KitematicRuntime.quotaApplies, decide_eq_true_eq] at applies
        exact (KitematicRuntime.quotaTenant_eq rfl applies.2).trans same.symm
      · have state := engaged.resolve_left applies
        cases opening with
        | tenantRefused gate => simp [gate] at entered
        | quotaRefused _ gate => simp [gate] at passed
        | shutdownRefused _ _ stopped => exact absurd state stopped
        | admitted => exact own.2 _ rfl
  · intro own
    by_cases engaged : engages rt now = true
    · exact own engaged ▸ executeIntent_segmentOf_own rt intent id now
    · exact executeIntent_segmentOf_any (by simpa using engaged) _

theorem resume_segmentOf {rt : KitematicRuntime} {frame : Frame} {reply : Reply} {now : ℚ}
    {segment : Segment Progress} (consistent : Consistent frame)
    (resumed : rt.resume frame reply now = some segment) :
    SegmentOf (tenantOf frame.tenantCtx) segment := by
  cases KitematicRuntime.resume_resumed consistent resumed with
  | advanced next granted same kept order carries quiet =>
    refine ⟨List.forall_mem_append.mpr ⟨quiet_ofTenant quiet, ?_⟩, ?_⟩
    · intro e member
      rw [List.mem_singleton.mp member]
      have own := kept.call
      cases pending : next.awaiting with
      | save executionId state =>
        rw [pending] at own
        obtain ⟨_, data, now, rfl⟩ := own
        exact congrArg tenantOf same.tenantCtx.symm
      | _ => trivial
    · rintro next' suspended
      cases suspended
      exact congrArg tenantOf same.tenantCtx
  | completed pending quiet => exact ⟨quiet_ofTenant quiet, by simp [frameOf]⟩
  | failed refused failed quiet => exact ⟨quiet_ofTenant quiet, by simp [frameOf]⟩

theorem frameOf_executeIntent_eq (rt : KitematicRuntime) (intent : Intent) (id : String) (now : ℚ) :
    frameOf (rt.executeIntent intent id now).outcome =
      if admitted rt now then some (rt.firstFrame intent id now) else none := by
  have opening := rt.executeIntent_opening intent id now
  generalize rt.executeIntent intent id now = segment at opening
  cases opening with
  | tenantRefused gate ended => simp [admitted, gate, frameOf_refused ended]
  | quotaRefused entered gate ended => simp [admitted, gate, frameOf_refused ended]
  | shutdownRefused entered passed state => simp [admitted, state, frameOf, Rejection.progress]
  | admitted entered passed state => simp [admitted, entered, passed, state, frameOf]

theorem executeIntent_tenantContext (rt : KitematicRuntime) (intent : Intent) (id : String)
    (now : ℚ) : (rt.executeIntent intent id now).runtime.tenantContext = rt.tenantContext := by
  have opening := rt.executeIntent_opening intent id now
  generalize rt.executeIntent intent id now = segment at opening
  cases opening with
  | tenantRefused => rfl
  | quotaRefused _ _ _ keeps => exact keeps.tenantContext.trans rt.takeIsolation_tenantContext
  | shutdownRefused => simp
  | admitted => simp

theorem resume_tenantContext {rt : KitematicRuntime} {frame : Frame} {reply : Reply} {now : ℚ}
    {segment : Segment Progress} (consistent : Consistent frame)
    (resumed : rt.resume frame reply now = some segment) :
    segment.runtime.tenantContext = rt.tenantContext := by
  cases KitematicRuntime.resume_resumed consistent resumed with
  | advanced => rfl
  | completed => simp
  | failed => simp

section step
variable {p : Pool} {owner : String → Option String}

theorem settle_runsAs {id : String} {segment : Segment Progress} (runs : RunsAs owner p) :
    RunsAs owner (p.settle id segment) ↔ SegmentOf (owner id) segment := by
  constructor
  · rintro ⟨inFlight, logged⟩
    refine ⟨fun e member => logged (id, e) ?_, fun frame opened => inFlight id frame ?_⟩
    · exact List.mem_append_right _ (List.mem_map_of_mem member)
    · rw [Pool.get_settle, if_pos rfl, opened]
  · rintro ⟨effects, frames⟩
    refine ⟨Pool.settle_forall frames runs.1, ?_⟩
    intro e member
    cases List.mem_append.mp member with
    | inl before => exact runs.2 e before
    | inr new =>
      obtain ⟨effect, produced, rfl⟩ := List.mem_map.mp new
      exact effects effect produced

/-- Ids that were never drawn may be booked anew. -/
theorem RunsAs.congr {owner' : String → Option String} (wf : p.WellFormed) (runs : RunsAs owner p)
    (same : ∀ id ∈ p.drawn, owner' id = owner id) : RunsAs owner' p := by
  refine ⟨fun id frame stored => ?_, fun e member => ?_⟩
  · exact (runs.1 id frame stored).trans (same id (wf.drawn id frame stored)).symm
  · exact same e.1 (wf.logged e member) ▸ runs.2 e member

theorem executeIntent_runsAs {intent : Intent} {id tenant : String} {now : ℚ}
    (runs : RunsAs owner p) (booked : owner id = some tenant) :
    RunsAs owner (p.settle id (p.runtime.executeIntent intent id now)) ↔
      (engages p.runtime now = true → tenantOf p.runtime.tenantContext = some tenant) := by
  rw [settle_runsAs runs, booked, executeIntent_segmentOf_iff]

theorem resume_runsAs {id : String} {reply : Reply} {now : ℚ} {frame : Frame}
    {segment : Segment Progress} (wf : p.WellFormed) (pending : p.inFlight.get id = some frame)
    (resumed : p.runtime.resume frame reply now = some segment) (runs : RunsAs owner p) :
    RunsAs owner (p.settle id segment) := by
  rw [settle_runsAs runs, ← runs.1 id frame pending]
  exact resume_segmentOf (wf.consistent id frame pending) resumed

theorem cancel_runsAs {id : String} (runs : RunsAs owner p) :
    RunsAs owner { p with inFlight := p.inFlight.erase id } := by
  exact ⟨Dict.forall_erase runs.1 id, runs.2⟩

end step
end Kitematic.Ownership

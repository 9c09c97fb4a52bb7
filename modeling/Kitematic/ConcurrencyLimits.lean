import Kitematic.IsolationSlots
import Kitematic.Ownership

/-! The two concurrency limits over every interleaving. The boundary counts
executions and the quota manager holds a set of their ids; both are checked when
a call opens and neither falls below the calls in flight, so the calls in flight
stay within both limits as long as nobody changes the limits. -/

namespace Kitematic.RuntimeAbi.KitematicRuntime
open Admission Dictionary Isolation Quotas Resumption State Tenant

def limits (rt : KitematicRuntime) :
    Option (Dict String TenantModel) × Option (Dict String TenantQuotaConfig) :=
  (rt.isolation.map (·.tenants), rt.quotaManager.map (·.configs))

/-- `ResourceLimits.max_concurrent_executions` of a registered tenant. -/
def resourceLimit (rt : KitematicRuntime) (t : String) : Option Int :=
  (rt.limits.1.bind (·.get t)).map (·.resourceLimits.maxConcurrentExecutions)

/-- `TenantQuotaConfig.max_concurrent`, the default one where none is configured. -/
def quotaLimit (rt : KitematicRuntime) (t : String) : Option Int :=
  rt.limits.2.map fun configs => ((configs.get t).getD {}).maxConcurrent

@[simp] theorem takeIsolation_limits (rt : KitematicRuntime) :
    rt.takeIsolation.limits = rt.limits := by
  unfold takeIsolation
  split
  next b ctx attached _ => simp [limits, attached, IsolationBoundary.startExecution]
  · rfl

@[simp] theorem endIsolation_limits (rt : KitematicRuntime) (ctx : Option TenantContext) :
    (rt.endIsolation ctx).runtime.limits = rt.limits := by
  unfold endIsolation
  split
  next b c attached => simp [limits, attached, IsolationBoundary.endExecution]
  · rfl

@[simp] theorem releaseQuota_limits (rt : KitematicRuntime) (ctx : Option TenantContext)
    (id : String) (acquired : Bool) :
    (rt.releaseQuota ctx id acquired).runtime.limits = rt.limits := by
  unfold releaseQuota
  split
  next q manager =>
    split
    · unfold QuotaManager.endExecution
      split
      · simp [limits, manager]
      · split <;> simp [limits, manager]
    · rfl
  · rfl

theorem quotaGate_limits (rt : KitematicRuntime) (ctx : Option TenantContext) (id : String)
    (now : ℚ) : (rt.quotaGate ctx id now).runtime.limits = rt.limits := by
  unfold quotaGate
  cases manager : rt.quotaManager with
  | none => rfl
  | some q =>
    simp only
    split
    · rfl
    split
    · rfl
    have consumed : (q.checkAndConsumeRate (quotaTenant ctx) now).1.configs = q.configs := rfl
    split
    next q' taken =>
      rw [taken] at consumed
      simpa [limits, manager, QuotaManager.startExecution] using consumed
    next q' denied =>
      rw [denied] at consumed
      have asked : (q'.retryAfter (quotaTenant ctx) now).1.configs = q'.configs := rfl
      split
      next q'' retry answered =>
        rw [answered] at asked
        simpa [limits, manager] using asked.trans consumed
      next q'' error answered =>
        rw [answered] at asked
        simpa [limits, manager] using asked.trans consumed

theorem tenantGate_limits (rt : KitematicRuntime) (id : String) :
    (rt.tenantGate id).runtime.limits = rt.limits := by
  unfold tenantGate
  split
  · rfl
  next b ctx attached _ =>
    split
    · rfl
    · simp [limits, attached, IsolationBoundary.startExecution]
  · rfl

theorem shutdownGate_limits (rt : KitematicRuntime) (ctx : Option TenantContext) (id : String)
    (acquired : Bool) : (rt.shutdownGate ctx id acquired).runtime.limits = rt.limits := by
  unfold shutdownGate
  split
  · exact rt.releaseQuota_limits ctx id acquired
  · exact rt.releaseQuota_limits ctx id acquired
  · rfl

theorem executeIntent_limits (rt : KitematicRuntime) (intent : Intent) (id : String) (now : ℚ) :
    (rt.executeIntent intent id now).runtime.limits = rt.limits := by
  refine Segment.andThen_keeps (P := fun after => after.limits = rt.limits)
    (rt.tenantGate_limits id) fun entered _ kept => ?_
  rw [← kept]
  refine Segment.andThen_keeps (P := fun after => after.limits = entered.limits)
    (entered.quotaGate_limits ..) fun metered acquired kept => ?_
  rw [← kept]
  refine Segment.andThen_keeps (P := fun after => after.limits = metered.limits)
    (metered.shutdownGate_limits ..) fun running _ kept => ?_
  rw [← kept]
  obtain ⟨before, _, _, begun⟩ := running.beginGuarded_eq intent id rt.tenantContext acquired now
  rw [begun]

theorem resume_limits {rt : KitematicRuntime} {frame : Frame} {reply : Reply} {now : ℚ}
    {segment : Segment Progress} (consistent : Consistent frame)
    (resumed : rt.resume frame reply now = some segment) : segment.runtime.limits = rt.limits := by
  cases resume_resumed consistent resumed with
  | advanced => rfl
  | completed => simp
  | failed => simp

theorem passesTenantGate_room {rt : KitematicRuntime} {t : String}
    (attached : rt.isolation.isSome = true) (own : tenantOf rt.tenantContext = some t)
    (gate : rt.passesTenantGate = true) :
    ∃ limit, rt.resourceLimit t = some limit ∧ (rt.executionCount t : Int) < limit := by
  obtain ⟨b, iso⟩ := Option.isSome_iff_exists.mp attached
  obtain ⟨ctx, context, rfl⟩ := Option.map_eq_some_iff.mp own
  cases checked : b.checkResourceLimits ctx.tenantId with
  | error e => simp [passesTenantGate, iso, context, checked] at gate
  | ok _ =>
    obtain ⟨tenant, registered, room⟩ := IsolationBoundary.checkResourceLimits_eq_ok.mp checked
    refine ⟨tenant.resourceLimits.maxConcurrentExecutions, ?_, ?_⟩
    · simp [resourceLimit, limits, iso, registered]
    · simpa [executionCount, iso] using room

theorem passesQuotaGate_room {rt : KitematicRuntime} {t : String} {now : ℚ}
    (own : tenantOf rt.tenantContext = some t) (named : t ≠ "")
    (gate : rt.passesQuotaGate now = true) {limit : Int} (quota : rt.quotaLimit t = some limit) :
    ((rt.active t).card : Int) < limit := by
  obtain ⟨ctx, context, rfl⟩ := Option.map_eq_some_iff.mp own
  cases manager : rt.quotaManager with
  | none => simp [quotaLimit, limits, manager] at quota
  | some q =>
    simp only [quotaLimit, limits, manager, Option.map_some, Option.some.injEq] at quota
    have passed : q.checkConcurrent ctx.tenantId = true ∧
        (q.checkAndConsumeRate ctx.tenantId now).2 = true := by
      simpa [passesQuotaGate, manager, context, quotaTenant, named] using gate
    have room : ((q.active ctx.tenantId).card : Int) < (q.getConfig ctx.tenantId).maxConcurrent := by
      simpa [QuotaManager.checkConcurrent] using passed.1
    rw [← quota]
    simpa [active, manager, QuotaManager.getConfig] using room

end Kitematic.RuntimeAbi.KitematicRuntime

namespace Kitematic.ConcurrencyLimits
open Admission Dictionary Interleaving Isolation IsolationSlots Quotas Resumption RuntimeAbi Tenant

/-- The tenant's calls in flight are within both its limits; a negative limit admits
no call at all. -/
def WithinLimits (t : String) (p : Pool) : Prop :=
  (∀ limit, p.runtime.resourceLimit t = some limit → (p.running (ofTenant t) : Int) ≤ max 0 limit) ∧
    ∀ limit, p.runtime.quotaLimit t = some limit → (p.running (ofTenant t) : Int) ≤ max 0 limit

/-- The event leaves the limits of the tenant as they are; a first registration may
set one. -/
def LeavesLimits (t : String) (p : Pool) : Event → Prop
  | .control (.configure tenantId _) => tenantId ≠ t
  | .control (.registerTenant tenant) => tenant.tenantId = t → p.runtime.resourceLimit t = none
  | _ => True

/-- What carries the bounds: the slots are no fewer than the calls in flight. -/
structure Slotted (t : String) (p : Pool) : Prop where
  wellFormed : p.WellFormed
  isolated : p.runtime.isolation.isSome = true
  metered : p.runtime.quotaManager.isSome = true
  valid : ∀ ctx, p.runtime.tenantContext = some ctx → ctx.isValid = true
  counted : p.running (ofTenant t) ≤ p.runtime.executionCount t
  held : ∀ id frame, p.inFlight.get id = some frame → ofTenant t frame = true →
    id ∈ p.runtime.active t
  unregistered : p.runtime.resourceLimit t = none → p.running (ofTenant t) = 0
  within : WithinLimits t p

section step
variable {p : Pool} {t : String}

theorem resourceLimit_congr {rt rt' : KitematicRuntime} (same : rt'.limits = rt.limits)
    (t : String) : rt'.resourceLimit t = rt.resourceLimit t := by
  simp only [KitematicRuntime.resourceLimit, same]

theorem quotaLimit_congr {rt rt' : KitematicRuntime} (same : rt'.limits = rt.limits)
    (t : String) : rt'.quotaLimit t = rt.quotaLimit t := by
  simp only [KitematicRuntime.quotaLimit, same]

theorem within_of_fewer {p' : Pool} (slotted : Slotted t p)
    (same : p'.runtime.limits = p.runtime.limits)
    (fewer : p'.running (ofTenant t) ≤ p.running (ofTenant t)) :
    (p'.runtime.resourceLimit t = none → p'.running (ofTenant t) = 0) ∧ WithinLimits t p' := by
  rw [WithinLimits, resourceLimit_congr same, quotaLimit_congr same]
  refine ⟨fun unset => ?_, fun limit set => ?_, fun limit set => ?_⟩
  · have idle := slotted.unregistered unset
    omega
  · have bound := slotted.within.1 limit set
    omega
  · have bound := slotted.within.2 limit set
    omega

theorem Slotted.named (slotted : Slotted t p)
    (own : tenantOf p.runtime.tenantContext = some t) : t ≠ "" := by
  obtain ⟨ctx, context, rfl⟩ := Option.map_eq_some_iff.mp own
  rintro empty
  have valid := slotted.valid ctx context
  simp [TenantContext.isValid, TenantContext.validate, empty] at valid

theorem admitted_within {now : ℚ} (slotted : Slotted t p)
    (own : tenantOf p.runtime.tenantContext = some t)
    (entered : p.runtime.passesTenantGate = true)
    (quota : p.runtime.passesQuotaGate now = true) :
    (∃ limit, p.runtime.resourceLimit t = some limit ∧
      (p.running (ofTenant t) : Int) + 1 ≤ limit) ∧
    ∀ limit, p.runtime.quotaLimit t = some limit → (p.running (ofTenant t) : Int) + 1 ≤ limit := by
  have counted := slotted.counted
  refine ⟨?_, fun limit set => ?_⟩
  · obtain ⟨limit, set, room⟩ :=
      KitematicRuntime.passesTenantGate_room slotted.isolated own entered
    exact ⟨limit, set, by omega⟩
  · have room := KitematicRuntime.passesQuotaGate_room own (slotted.named own) quota set
    have held : p.running (ofTenant t) ≤ (p.runtime.active t).card :=
      Dict.count_le_card slotted.held
    omega

theorem executeIntent_counted {intent : Intent} {id : String} {now : ℚ} (slotted : Slotted t p)
    (fresh : id ∉ p.drawn) :
    (p.settle id (p.runtime.executeIntent intent id now)).running (ofTenant t) ≤
      (p.runtime.executeIntent intent id now).runtime.executionCount t := by
  have taken := p.runtime.takeIsolation_executionCount t
  have counted := slotted.counted
  have opening := p.runtime.executeIntent_opening intent id now
  rw [Pool.running_settle, Dict.erase_of_get_none (slotted.wellFormed.get_fresh fresh)]
  simp only [slotted.isolated, true_and] at taken
  simp only [Pool.running] at counted
  generalize p.runtime.executeIntent intent id now = segment at opening
  cases opening with
  | tenantRefused gate ended => simpa [frameOf_refused ended] using counted
  | @quotaRefused _ _ rt' entered gate ended keeps =>
    have kept : rt'.executionCount t = p.runtime.takeIsolation.executionCount t := by
      simp [KitematicRuntime.executionCount, keeps.isolation]
    rw [kept, taken, frameOf_refused ended]
    by_cases own : tenantOf p.runtime.tenantContext = some t
    · simpa [own] using counted.trans (Nat.le_succ _)
    · simpa [own] using counted
  | shutdownRefused =>
    simp only [KitematicRuntime.takeQuota_executionCount,
      KitematicRuntime.releaseQuota_executionCount, taken]
    by_cases own : tenantOf p.runtime.tenantContext = some t
    · simpa [own, frameOf, Rejection.progress] using counted.trans (Nat.le_succ _)
    · simpa [own, frameOf, Rejection.progress] using counted
  | admitted =>
    simp only [KitematicRuntime.takeQuota_executionCount, taken]
    by_cases own : tenantOf p.runtime.tenantContext = some t
    · simpa [own, frameOf, ofTenant, KitematicRuntime.firstFrame] using counted
    · simpa [own, frameOf, ofTenant, KitematicRuntime.firstFrame] using counted

theorem executeIntent_held {intent : Intent} {id : String} {now : ℚ} (slotted : Slotted t p) :
    ∀ id' frame, (p.settle id (p.runtime.executeIntent intent id now)).inFlight.get id' =
        some frame → ofTenant t frame = true →
      id' ∈ (p.runtime.executeIntent intent id now).runtime.active t := by
  intro id' frame
  rw [Pool.get_settle]
  have opening := p.runtime.executeIntent_opening intent id now
  generalize p.runtime.executeIntent intent id now = segment at opening
  by_cases same : id' = id
  · subst same
    rw [if_pos rfl]
    intro opened own
    cases opening with
    | tenantRefused gate ended => simp [frameOf_refused ended] at opened
    | quotaRefused _ _ ended => simp [frameOf_refused ended] at opened
    | shutdownRefused => cases opened
    | admitted =>
      cases opened
      have current : tenantOf p.runtime.tenantContext = some t := of_decide_eq_true own
      have applies : p.runtime.quotaApplies = true := by
        obtain ⟨ctx, context, rfl⟩ := Option.map_eq_some_iff.mp current
        simpa [KitematicRuntime.quotaApplies, slotted.metered, quotaTenant, context] using
          slotted.named current
      simp [KitematicRuntime.takeQuota_active, applies, current]
  · rw [if_neg same]
    intro stored own
    have before := slotted.held id' frame stored own
    cases opening with
    | tenantRefused => exact before
    | quotaRefused _ _ _ keeps =>
      rw [keeps.active, KitematicRuntime.takeIsolation_active]
      exact before
    | shutdownRefused =>
      simp only [KitematicRuntime.releaseQuota_active, KitematicRuntime.takeQuota_active,
        KitematicRuntime.takeIsolation_active]
      split <;> split <;> simp [before, same]
    | admitted =>
      simp only [KitematicRuntime.takeQuota_active, KitematicRuntime.takeIsolation_active]
      split <;> simp [before]

theorem executeIntent_slotted {intent : Intent} {id : String} {now : ℚ} {p' : Pool}
    (slotted : Slotted t p) (fresh : id ∉ p.drawn)
    (stepped : p.step (.executeIntent intent id now) = some p')
    (same : p' = { p.settle id (p.runtime.executeIntent intent id now) with
      drawn := id :: p.drawn }) : Slotted t p' := by
  have attached := Pool.step_isSome slotted.wellFormed stepped
  have wf := Pool.step_wellFormed slotted.wellFormed stepped
  have limits : p'.runtime.limits = p.runtime.limits :=
    same ▸ p.runtime.executeIntent_limits intent id now
  have running : p'.running (ofTenant t) = p.running (ofTenant t) +
      if (frameOf (p.runtime.executeIntent intent id now).outcome).any (ofTenant t) then 1 else 0 := by
    have settled := p.running_settle id (p.runtime.executeIntent intent id now) (ofTenant t)
    rw [Dict.erase_of_get_none (slotted.wellFormed.get_fresh fresh)] at settled
    exact same ▸ settled
  have within : (p'.runtime.resourceLimit t = none → p'.running (ofTenant t) = 0) ∧
      WithinLimits t p' := by
    rw [Ownership.frameOf_executeIntent_eq] at running
    by_cases counts : Ownership.admitted p.runtime now = true ∧
        tenantOf p.runtime.tenantContext = some t
    · have gates := counts.1
      simp only [Ownership.admitted, decide_eq_true_eq] at gates
      obtain ⟨⟨limit, set, room⟩, quota⟩ := admitted_within slotted counts.2 gates.1 gates.2.1
      have more : p'.running (ofTenant t) = p.running (ofTenant t) + 1 := by
        simpa [counts.1, ofTenant, KitematicRuntime.firstFrame, counts.2] using running
      rw [WithinLimits, resourceLimit_congr limits, quotaLimit_congr limits, set, more]
      refine ⟨fun unset => ?_, fun limit' set' => ?_, fun limit' set' => ?_⟩
      · cases unset
      · cases set'
        push_cast
        omega
      · have bound := quota limit' set'
        push_cast
        omega
    · refine within_of_fewer slotted limits (le_of_eq (running.trans ?_))
      by_cases admitted : Ownership.admitted p.runtime now = true
      · have foreign : tenantOf p.runtime.tenantContext ≠ some t := fun own =>
          counts ⟨admitted, own⟩
        simp [admitted, ofTenant, KitematicRuntime.firstFrame, foreign]
      · simp [admitted]
  refine ⟨wf, attached.1.trans slotted.isolated, attached.2.trans slotted.metered, ?_, ?_, ?_,
    within.1, within.2⟩
  · have kept := Ownership.executeIntent_tenantContext p.runtime intent id now
    subst same
    intro ctx context
    exact slotted.valid ctx (kept ▸ context)
  · exact same ▸ executeIntent_counted slotted fresh
  · exact same ▸ executeIntent_held slotted

theorem ended_slotted {id : String} {frame : Frame} {p' : Pool} {e : Event}
    (slotted : Slotted t p) (stepped : p.step e = some p')
    (pending : p.inFlight.get id = some frame) (erased : p'.inFlight = p.inFlight.erase id)
    (context : p'.runtime.tenantContext = p.runtime.tenantContext)
    (limits : p'.runtime.limits = p.runtime.limits)
    (count : p.runtime.executionCount t ≤
      p'.runtime.executionCount t + if ofTenant t frame then 1 else 0)
    (active : ∀ id', id' ≠ id → id' ∈ p.runtime.active t → id' ∈ p'.runtime.active t) :
    Slotted t p' := by
  have attached := Pool.step_isSome slotted.wellFormed stepped
  have counted := slotted.counted
  have before : p.running (ofTenant t) = p'.running (ofTenant t) +
      if ofTenant t frame then 1 else 0 := by
    have total := Dict.count_of_get pending (ofTenant t)
    rwa [← erased] at total
  have within := within_of_fewer slotted limits (by omega)
  refine ⟨Pool.step_wellFormed slotted.wellFormed stepped, attached.1.trans slotted.isolated,
    attached.2.trans slotted.metered, fun ctx h => slotted.valid ctx (context ▸ h), by omega, ?_,
    within.1, within.2⟩
  intro id' frame' stored owned
  rw [erased, Dict.get_erase] at stored
  split at stored
  · cases stored
  next other => exact active id' other (slotted.held id' frame' stored owned)

theorem resume_slotted {id : String} {reply : Reply} {now : ℚ} {frame : Frame}
    {segment : Segment Progress} {p' : Pool} (slotted : Slotted t p)
    (stepped : p.step (.resume id reply now) = some p')
    (pending : p.inFlight.get id = some frame)
    (resumed : p.runtime.resume frame reply now = some segment)
    (same : p' = { p.settle id segment with
      checkpoints := p.checkpoints ++ savedBy frame reply }) : Slotted t p' := by
  have consistent := slotted.wellFormed.consistent id frame pending
  have own := slotted.wellFormed.executionId id frame pending
  have runtime : p'.runtime = segment.runtime := same ▸ rfl
  have limits : p'.runtime.limits = p.runtime.limits :=
    runtime ▸ KitematicRuntime.resume_limits consistent resumed
  have context : p'.runtime.tenantContext = p.runtime.tenantContext :=
    runtime ▸ Ownership.resume_tenantContext consistent resumed
  cases KitematicRuntime.resume_resumed consistent resumed with
  | @advanced _ effects next granted sameCall =>
    have attached := Pool.step_isSome slotted.wellFormed stepped
    have kept : ofTenant t next = ofTenant t frame := by simp [ofTenant, sameCall.tenantCtx]
    have running : p'.running (ofTenant t) = p.running (ofTenant t) := by
      have before := Dict.count_of_get pending (ofTenant t)
      have after := p.running_settle id ⟨p.runtime, effects, .suspended next⟩ (ofTenant t)
      rw [frameOf, Option.any_some, kept, ← before] at after
      exact same ▸ after
    have within := within_of_fewer slotted limits running.le
    refine ⟨Pool.step_wellFormed slotted.wellFormed stepped, attached.1.trans slotted.isolated,
      attached.2.trans slotted.metered, fun ctx h => slotted.valid ctx (context ▸ h), ?_, ?_,
      within.1, within.2⟩
    · rw [running, runtime]
      exact slotted.counted
    · rw [runtime]
      intro id' frame' stored owned
      subst same
      rw [Pool.get_settle] at stored
      split at stored
      next h =>
        subst h
        cases stored
        exact slotted.held id' frame pending (kept ▸ owned)
      · exact slotted.held id' frame' stored owned
  | completed =>
    refine ended_slotted slotted stepped pending (same ▸ rfl) context limits ?_ fun id' other => ?_
    · rw [runtime, KitematicRuntime.releaseQuota_executionCount,
        KitematicRuntime.endIsolation_executionCount]
      by_cases h : tenantOf frame.tenantCtx = some t
      · simp only [h, ofTenant, decide_true, if_true]
        omega
      · simp [h, ofTenant]
    · rw [runtime, KitematicRuntime.releaseQuota_active, KitematicRuntime.endIsolation_active, own]
      split <;> simp [other]
  | failed =>
    refine ended_slotted slotted stepped pending (same ▸ rfl) context limits ?_ fun id' other => ?_
    · rw [runtime, KitematicRuntime.releaseQuota_executionCount]
      omega
    · rw [runtime, KitematicRuntime.releaseQuota_active, own]
      split <;> simp [other]

theorem control_quotaManager (rt : KitematicRuntime) (control : Control) :
    (control.apply rt).quotaManager =
      match control with
      | .configure tenantId config => rt.quotaManager.map (·.configure tenantId config)
      | _ => rt.quotaManager := by
  cases control with
  | drain =>
    simp only [Control.apply, KitematicRuntime.drain]
    split <;> rfl
  | stop =>
    simp only [Control.apply, KitematicRuntime.stop]
    split <;> rfl
  | setTenantContext context =>
    simp only [Control.apply]
    split
    next rt' accepted => rw [KitematicRuntime.setTenantContext_eq_ok accepted]
    · rfl
  | registerTenant tenant =>
    simp only [Control.apply]
    split
    · rfl
    · split <;> rfl
  | registerAgent agentId tenantId =>
    simp only [Control.apply]
    split
    · rfl
    · split <;> rfl
  | configure tenantId config => rfl

theorem control_quotaLimit {rt : KitematicRuntime} {control : Control}
    (other : ∀ tenantId config, control = .configure tenantId config → tenantId ≠ t) :
    (control.apply rt).quotaLimit t = rt.quotaLimit t := by
  unfold KitematicRuntime.quotaLimit KitematicRuntime.limits
  rw [control_quotaManager]
  cases control with
  | configure tenantId config =>
    have foreign : t ≠ tenantId := Ne.symm (other tenantId config rfl)
    cases rt.quotaManager <;> simp [QuotaManager.configure, Dict.get_set, foreign]
  | _ => rfl

theorem control_limits {control : Control} (leaves : LeavesLimits t p (.control control)) :
    ((control.apply p.runtime).resourceLimit t = p.runtime.resourceLimit t ∨
      p.runtime.resourceLimit t = none) ∧
    (control.apply p.runtime).quotaLimit t = p.runtime.quotaLimit t := by
  refine ⟨?_, control_quotaLimit ?_⟩
  · cases control with
    | drain =>
      simp only [Control.apply, KitematicRuntime.drain]
      split <;> exact .inl rfl
    | stop =>
      simp only [Control.apply, KitematicRuntime.stop]
      split <;> exact .inl rfl
    | setTenantContext context =>
      simp only [Control.apply]
      split
      next rt' accepted =>
        obtain rfl := KitematicRuntime.setTenantContext_eq_ok accepted
        exact .inl rfl
      · exact .inl rfl
    | registerTenant tenant =>
      simp only [Control.apply, IsolationBoundary.registerTenant]
      split
      · exact .inl rfl
      next b attached =>
        split
        next accepted =>
          split at accepted <;> cases accepted
          by_cases own : tenant.tenantId = t
          · exact .inr (leaves own)
          · left
            simp [KitematicRuntime.resourceLimit, KitematicRuntime.limits, attached, Dict.get_set,
              Ne.symm own]
        · exact .inl rfl
    | registerAgent agentId tenantId =>
      simp only [Control.apply, IsolationBoundary.registerAgent]
      split
      · exact .inl rfl
      next b attached =>
        split
        next accepted =>
          split at accepted <;> cases accepted
          left
          simp [KitematicRuntime.resourceLimit, KitematicRuntime.limits, attached]
        · exact .inl rfl
    | configure tenantId config => exact .inl rfl
  · rintro tenantId config rfl
    exact leaves

theorem control_valid {rt : KitematicRuntime} {control : Control}
    (valid : ∀ ctx, rt.tenantContext = some ctx → ctx.isValid = true) :
    ∀ ctx, (control.apply rt).tenantContext = some ctx → ctx.isValid = true := by
  cases control with
  | drain =>
    simp only [Control.apply, KitematicRuntime.drain]
    split <;> exact valid
  | stop =>
    simp only [Control.apply, KitematicRuntime.stop]
    split <;> exact valid
  | setTenantContext context =>
    simp only [Control.apply]
    split
    next rt' accepted =>
      rintro ctx current
      have checked : context.isValid = true := by
        cases checked : context.isValid with
        | true => rfl
        | false => simp [KitematicRuntime.setTenantContext, checked] at accepted
      rw [KitematicRuntime.setTenantContext_eq_ok accepted] at current
      cases current
      exact checked
    · exact valid
  | registerTenant tenant =>
    simp only [Control.apply]
    split
    · exact valid
    · split <;> exact valid
  | registerAgent agentId tenantId =>
    simp only [Control.apply]
    split
    · exact valid
    · split <;> exact valid
  | configure tenantId config => exact valid

theorem control_slotted {control : Control} (slotted : Slotted t p)
    (leaves : LeavesLimits t p (.control control)) :
    Slotted t { p with runtime := control.apply p.runtime } := by
  have kept := control.keeps p.runtime
  obtain ⟨resource, quota⟩ := control_limits leaves
  have wf := Pool.step_wellFormed slotted.wellFormed (e := .control control) rfl
  refine ⟨wf, kept.isolation_isSome.trans slotted.isolated,
    kept.quotaManager_isSome.trans slotted.metered, control_valid slotted.valid, ?_, ?_, ?_, ?_, ?_⟩
  · exact (kept.executionCount t).symm ▸ slotted.counted
  · exact (kept.active t).symm ▸ slotted.held
  · intro unset
    cases resource with
    | inl same => exact slotted.unregistered (same ▸ unset)
    | inr first => exact slotted.unregistered first
  · intro limit set
    cases resource with
    | inl same => exact slotted.within.1 limit (same ▸ set)
    | inr first =>
      have idle : p.running (ofTenant t) = 0 := slotted.unregistered first
      simp only [Pool.running] at idle ⊢
      omega
  · exact fun limit set => slotted.within.2 limit (quota ▸ set)

theorem step_slotted {p' : Pool} {e : Event} (slotted : Slotted t p)
    (leaves : LeavesLimits t p e) (stepped : p.step e = some p') : Slotted t p' := by
  cases Pool.step_stepped stepped with
  | executeIntent intent id now fresh => exact executeIntent_slotted slotted fresh stepped rfl
  | resume id reply now frame segment pending resumed =>
    exact resume_slotted slotted stepped pending resumed rfl
  | cancel id frame pending =>
    exact ended_slotted slotted stepped pending rfl rfl rfl (Nat.le_add_right _ _)
      fun _ _ member => member
  | control control => exact control_slotted slotted leaves

end step

/-- At every moment of a run that leaves the limits of a tenant alone, the tenant's
calls in flight are within both limits. -/
theorem running_within_limits {rt : KitematicRuntime} {t : String} {es : List Event}
    (isolated : rt.isolation.isSome = true) (metered : rt.quotaManager.isSome = true)
    (valid : ∀ ctx, rt.tenantContext = some ctx → ctx.isValid = true)
    (leaves : Trace.EachStep Pool.step (fun _ q e => LeavesLimits t q e) [] (Pool.start rt) es) :
    Trace.AllStates Pool.step (WithinLimits t) (Pool.start rt) es := by
  have idle : (Pool.start rt).running (ofTenant t) = 0 := rfl
  have start : Slotted t (Pool.start rt) := by
    refine ⟨Pool.start_wellFormed rt, isolated, metered, valid, ?_, ?_, fun _ => idle, ?_⟩
    · simp [idle]
    · simp [Pool.start]
    · simp [WithinLimits, idle]
  have all : Trace.AllStates Pool.step (Slotted t) (Pool.start rt) es := by
    refine Trace.allStates_of_eachStep ?_ start leaves
    intro _ q e q' slotted clean stepped
    exact step_slotted slotted clean stepped
  exact all.mono fun _ slotted => slotted.within

def closedRuntime : KitematicRuntime where
  isolation := some
    { tenants := (.empty : Dict String TenantModel).set "acme" ⟨"acme", "Acme", ⟨-1⟩⟩ }
  tenantContext := some ⟨"acme", "agent", ∅⟩
  quotaManager := some
    { configs := (.empty : Dict String TenantQuotaConfig).set "acme" ⟨-1, 60, 10⟩ }

def openRuntime : KitematicRuntime where
  isolation := some
    { tenants := (.empty : Dict String TenantModel).set "acme" ⟨"acme", "Acme", ⟨3⟩⟩ }
  tenantContext := some ⟨"acme", "agent", ∅⟩
  quotaManager := some
    { configs := (.empty : Dict String TenantQuotaConfig).set "acme" ⟨2, 60, 10⟩ }

def crowded : List Event :=
  [.executeIntent ⟨"agent", "tool.read", []⟩ "e1" 0,
    .executeIntent ⟨"agent", "tool.read", []⟩ "e2" 1] ++
    (granting.map fun reply => .resume "e1" reply 2) ++
    [.executeIntent ⟨"agent", "tool.read", []⟩ "e3" 3, .control .drain]

theorem running_within_limits_crowded :
    (Trace.run Pool.step (Pool.start openRuntime) crowded).map
        (fun p => p.running (ofTenant "acme")) = some 2 ∧
      Trace.AllStates Pool.step (WithinLimits "acme") (Pool.start openRuntime) crowded := by
  refine ⟨by decide +kernel, running_within_limits rfl rfl (by rintro ctx ⟨⟩; decide) ?_⟩
  refine Trace.eachStep_of_forall fun e member _ _ => ?_
  simp only [crowded, granting, List.map_cons, List.map_nil, List.cons_append, List.nil_append,
    List.mem_cons, List.not_mem_nil, or_false] at member
  rcases member with rfl | rfl | rfl | rfl | rfl | rfl | rfl | rfl | rfl <;> exact trivial

/-- A negative limit is below every number of calls, zero included. -/
theorem negative_limit_exceeded :
    ¬ Trace.AllStates Pool.step (fun q =>
        ∀ limit, q.runtime.resourceLimit "acme" = some limit →
          (q.running (ofTenant "acme") : Int) ≤ limit) (Pool.start closedRuntime)
        [.executeIntent ⟨"agent", "tool.read", []⟩ "e1" 0] ∧
      ¬ Trace.AllStates Pool.step (fun q =>
        ∀ limit, q.runtime.quotaLimit "acme" = some limit →
          (q.running (ofTenant "acme") : Int) ≤ limit) (Pool.start closedRuntime)
        [.executeIntent ⟨"agent", "tool.read", []⟩ "e1" 0] :=
  ⟨fun all => absurd (all.1 (-1) rfl) (by decide), fun all => absurd (all.1 (-1) rfl) (by decide)⟩

end Kitematic.ConcurrencyLimits

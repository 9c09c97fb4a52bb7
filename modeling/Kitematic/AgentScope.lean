import Kitematic.Ownership

/-! Agent membership when an execution reaches policy evaluation. Membership is
validated when a context is set, for the agent of the context. Later
registrations and the agent of the intent are not looked at again, so what is
true at an execution is decided by the history of registrations. -/

namespace Kitematic.AgentScope
open Admission Dictionary Interleaving Isolation Ownership Quotas Resumption RuntimeAbi State Tenant

/-! The registrations in a history, newest event first. -/

def registersTenant (t : String) : Event → Bool
  | .control (.registerTenant tenant) => tenant.isValid ∧ tenant.tenantId = t
  | _ => false

def knownTenant (past : List Event) (t : String) : Bool := past.any (registersTenant t)

def lastTenant : List Event → String → Option String
  | [], _ => none
  | .control (.registerAgent agentId tenantId) :: past, agent =>
      if agent = agentId ∧ knownTenant past tenantId = true then some tenantId
      else lastTenant past agent
  | _ :: past, agent => lastTenant past agent

/-- The last context that was accepted when it was set. -/
def contextInForce : List Event → Option TenantContext
  | [] => none
  | .control (.setTenantContext context) :: past =>
      if context.isValid = true ∧ knownTenant past context.tenantId = true ∧
          lastTenant past context.agentId = some context.tenantId then some context
      else contextInForce past
  | _ :: past => contextInForce past

/-- An execution that reaches policy evaluation is in scope: its intent's agent is
registered with the tenant of its context, and the context still validates. -/
def InScope (p : Pool) : Event → Prop
  | .executeIntent intent id now =>
      .call (.evaluateIntent intent) ∈ (p.runtime.executeIntent intent id now).effects →
        ∃ b ctx, p.runtime.isolation = some b ∧ p.runtime.tenantContext = some ctx ∧
          b.validateAgentScope intent.agentId ctx.tenantId = .ok true ∧
            b.validateTenantContext ctx = .ok true
  | _ => True

/-- A call that passes every check names an agent that was last registered with the
tenant of the context in force, and so was the agent of that context. -/
def LastRegistered (past : List Event) (p : Pool) : Event → Prop
  | .executeIntent intent _ now =>
      admitted p.runtime now = true → ∀ ctx, contextInForce past = some ctx →
        lastTenant past intent.agentId = some ctx.tenantId ∧
          lastTenant past ctx.agentId = some ctx.tenantId
  | _ => True

def tables (rt : KitematicRuntime) : Option (Dict String TenantModel × Dict String AgentRecord) :=
  rt.isolation.map fun b => (b.tenants, b.agents)

section tables
variable (rt : KitematicRuntime)

@[simp] theorem tables_takeIsolation : tables rt.takeIsolation = tables rt := by
  unfold tables KitematicRuntime.takeIsolation
  split
  next iso _ => simp [iso, IsolationBoundary.startExecution]
  next => rfl

@[simp] theorem tables_takeQuota (id : String) (now : ℚ) :
    tables (rt.takeQuota id now) = tables rt := by
  simp [tables]

@[simp] theorem tables_releaseQuota (ctx : Option TenantContext) (id : String) (acquired : Bool) :
    tables (rt.releaseQuota ctx id acquired).runtime = tables rt := by
  simp [tables]

@[simp] theorem tables_endIsolation (ctx : Option TenantContext) :
    tables (rt.endIsolation ctx).runtime = tables rt := by
  unfold tables KitematicRuntime.endIsolation
  split
  next iso => simp [iso, IsolationBoundary.endExecution]
  next => rfl

end tables

theorem executeIntent_tables (rt : KitematicRuntime) (intent : Intent) (id : String) (now : ℚ) :
    tables (rt.executeIntent intent id now).runtime = tables rt := by
  have opening := rt.executeIntent_opening intent id now
  generalize rt.executeIntent intent id now = segment at opening
  cases opening with
  | tenantRefused => rfl
  | quotaRefused _ _ _ keeps =>
    rw [← tables_takeIsolation rt]
    exact congrArg (Option.map _) keeps.isolation
  | shutdownRefused => simp
  | admitted => simp

theorem resume_tables {rt : KitematicRuntime} {frame : Frame} {reply : Reply} {now : ℚ}
    {segment : Segment Progress} (consistent : Consistent frame)
    (resumed : rt.resume frame reply now = some segment) : tables segment.runtime = tables rt := by
  cases KitematicRuntime.resume_resumed consistent resumed with
  | advanced => rfl
  | completed => simp
  | failed => simp

/-- The runtime is where the history of registrations has brought it. -/
structure Tracks (past : List Event) (rt : KitematicRuntime) : Prop where
  context : rt.tenantContext = contextInForce past
  boundary : ∃ b, rt.isolation = some b ∧
    (∀ t, (b.tenants.get t).isSome = knownTenant past t) ∧
      ∀ agent, b.getAgentTenant agent = lastTenant past agent

theorem Tracks.congr {past : List Event} {rt rt' : KitematicRuntime} (tracks : Tracks past rt)
    (sameTables : tables rt' = tables rt) (sameContext : rt'.tenantContext = rt.tenantContext) :
    Tracks past rt' := by
  refine ⟨sameContext.trans tracks.context, ?_⟩
  obtain ⟨b, attached, tenants, agents⟩ := tracks.boundary
  rw [tables, tables, attached] at sameTables
  obtain ⟨b', attached', same⟩ := Option.map_eq_some_iff.mp sameTables
  obtain ⟨sameTenants, sameAgents⟩ := Prod.mk.inj same
  refine ⟨b', attached', fun t => sameTenants ▸ tenants t, fun agent => ?_⟩
  rw [← agents agent, IsolationBoundary.getAgentTenant, sameAgents]
  rfl

/-- An event that registers nothing and sets no context leaves the history's
reading as it is. -/
theorem Tracks.skip {past : List Event} {rt : KitematicRuntime} {e : Event}
    (tracks : Tracks past rt) (tenants : ∀ t, registersTenant t e = false)
    (agents : ∀ agent, lastTenant (e :: past) agent = lastTenant past agent)
    (context : contextInForce (e :: past) = contextInForce past) : Tracks (e :: past) rt := by
  obtain ⟨b, attached, known, last⟩ := tracks.boundary
  refine ⟨tracks.context.trans context.symm, b, attached, fun t => ?_, fun agent => ?_⟩
  · simp [known t, knownTenant, tenants t]
  · rw [last, agents]

theorem registerTenant_tracks {past : List Event} {rt : KitematicRuntime} (tracks : Tracks past rt)
    (tenant : TenantModel) :
    Tracks (.control (.registerTenant tenant) :: past)
      (Control.apply rt (.registerTenant tenant)) := by
  obtain ⟨b, attached, known, last⟩ := tracks.boundary
  simp only [Control.apply, attached, IsolationBoundary.registerTenant]
  cases valid : tenant.isValid with
  | false =>
    exact tracks.skip (fun t => by simp [registersTenant, valid]) (fun _ => rfl) rfl
  | true =>
    refine ⟨tracks.context, _, rfl, fun t => ?_, last⟩
    simp only [Dict.get_set, knownTenant, List.any_cons, registersTenant, valid]
    by_cases same : t = tenant.tenantId
    · simp [same]
    · simp [same, Ne.symm same, known t, knownTenant]

theorem registerAgent_tracks {past : List Event} {rt : KitematicRuntime} (tracks : Tracks past rt)
    (agentId tenantId : String) :
    Tracks (.control (.registerAgent agentId tenantId) :: past)
      (Control.apply rt (.registerAgent agentId tenantId)) := by
  obtain ⟨b, attached, known, last⟩ := tracks.boundary
  have found := known tenantId
  cases registered : knownTenant past tenantId with
  | false =>
    have refused : Control.apply rt (.registerAgent agentId tenantId) = rt := by
      simp [Control.apply, attached, IsolationBoundary.registerAgent, Dict.contains, found,
        registered]
    rw [refused]
    exact tracks.skip (fun _ => rfl) (fun agent => by simp [lastTenant, registered]) rfl
  | true =>
    have applied : Control.apply rt (.registerAgent agentId tenantId) = { rt with
        isolation := some { b with agents := b.agents.set agentId ⟨agentId, tenantId⟩ } } := by
      simp [Control.apply, attached, IsolationBoundary.registerAgent, Dict.contains, found,
        registered]
    rw [applied]
    refine ⟨tracks.context, _, rfl, fun t => ?_, fun agent => ?_⟩
    · simp [known t, knownTenant, registersTenant]
    · rw [lastTenant, IsolationBoundary.getAgentTenant, Dict.get_set, ← last agent]
      by_cases same : agent = agentId
      · simp [same, registered]
      · simp [same, IsolationBoundary.getAgentTenant]

theorem setTenantContext_tracks {past : List Event} {rt : KitematicRuntime}
    (tracks : Tracks past rt) (context : TenantContext) :
    Tracks (.control (.setTenantContext context) :: past)
      (Control.apply rt (.setTenantContext context)) := by
  obtain ⟨b, attached, known, last⟩ := tracks.boundary
  have accepts := @IsolationBoundary.validateTenantContext_eq_ok b context
  rw [known, last] at accepts
  by_cases accepted : context.isValid = true ∧ knownTenant past context.tenantId = true ∧
      lastTenant past context.agentId = some context.tenantId
  · have applied : Control.apply rt (.setTenantContext context) =
        { rt with tenantContext := some context } := by
      simp only [Control.apply, KitematicRuntime.setTenantContext, attached, accepts.mpr accepted,
        accepted.1, Bool.not_true, Bool.false_eq_true, if_false]
    rw [applied]
    refine ⟨by simp [contextInForce, accepted], b, attached, fun t => ?_, last⟩
    simp [known t, knownTenant, registersTenant]
  · have refused : Control.apply rt (.setTenantContext context) = rt := by
      simp only [Control.apply, KitematicRuntime.setTenantContext, attached]
      cases valid : context.isValid with
      | false => rfl
      | true =>
        cases answer : b.validateTenantContext context with
        | error e => rfl
        | ok value =>
          obtain rfl := IsolationBoundary.validateTenantContext_ok_true answer
          exact absurd (accepts.mp answer) accepted
    rw [refused]
    exact tracks.skip (fun _ => rfl) (fun _ => rfl) (by simp [contextInForce, accepted])

theorem step_tracks {past : List Event} {p p' : Pool} {e : Event} (wf : p.WellFormed)
    (tracks : Tracks past p.runtime) (stepped : p.step e = some p') :
    Tracks (e :: past) p'.runtime := by
  cases Pool.step_stepped stepped with
  | executeIntent intent id now =>
    exact (tracks.congr (executeIntent_tables p.runtime intent id now)
      (executeIntent_tenantContext p.runtime intent id now)).skip (fun _ => rfl) (fun _ => rfl) rfl
  | resume id reply now frame segment pending resumed =>
    have consistent := wf.consistent id frame pending
    exact (tracks.congr (resume_tables consistent resumed)
      (resume_tenantContext consistent resumed)).skip (fun _ => rfl) (fun _ => rfl) rfl
  | cancel => exact tracks.skip (fun _ => rfl) (fun _ => rfl) rfl
  | control control =>
    cases control with
    | registerTenant tenant => exact registerTenant_tracks tracks tenant
    | registerAgent agentId tenantId => exact registerAgent_tracks tracks agentId tenantId
    | setTenantContext context => exact setTenantContext_tracks tracks context
    | drain =>
      refine (tracks.congr ?_ ?_).skip (fun _ => rfl) (fun _ => rfl) rfl <;>
        simp only [Control.apply, KitematicRuntime.drain] <;> split <;> rfl
    | stop =>
      refine (tracks.congr ?_ ?_).skip (fun _ => rfl) (fun _ => rfl) rfl <;>
        simp only [Control.apply, KitematicRuntime.stop] <;> split <;> rfl
    | configure =>
      refine (tracks.congr ?_ ?_).skip (fun _ => rfl) (fun _ => rfl) rfl <;> rfl

theorem contextInForce_valid {past : List Event} {ctx : TenantContext}
    (inForce : contextInForce past = some ctx) :
    ctx.isValid = true ∧ knownTenant past ctx.tenantId = true := by
  induction past with
  | nil => cases inForce
  | cons e past ih =>
    have older : contextInForce past = some ctx →
        ctx.isValid = true ∧ knownTenant (e :: past) ctx.tenantId = true := by
      intro earlier
      obtain ⟨valid, known⟩ := ih earlier
      exact ⟨valid, by simp [knownTenant] at known ⊢; exact .inr known⟩
    unfold contextInForce at inForce
    split at inForce
    · cases inForce
    next context past' same =>
      cases same
      split at inForce
      next accepted =>
        cases inForce
        refine ⟨accepted.1, ?_⟩
        have known := accepted.2.1
        simp only [knownTenant, List.any_cons] at known ⊢
        simp [known]
      · exact older inForce
    next same => exact older (by cases same; exact inForce)

theorem evaluateIntent_mem_iff (rt : KitematicRuntime) (intent : Intent) (id : String) (now : ℚ) :
    .call (.evaluateIntent intent) ∈ (rt.executeIntent intent id now).effects ↔
      admitted rt now = true := by
  have opening := rt.executeIntent_opening intent id now
  have silent : ∀ {effects : List Effect} {ctx : Option TenantContext}, Quiet ctx effects →
      .call (.evaluateIntent intent) ∉ effects :=
    fun quiet member => (quiet _ member).1 trivial
  have slot := silent rt.isolationSlot_quiet
  have quotaSlot := silent (rt.quotaSlot_quiet id)
  generalize rt.executeIntent intent id now = segment at opening
  cases opening with
  | tenantRefused gate => simp [admitted, gate]
  | quotaRefused entered gate ended keeps quiet =>
    simp [admitted, gate, slot, silent (quiet.quiet none)]
  | shutdownRefused entered quota state quiet =>
    simp [admitted, state, slot, quotaSlot, silent quiet]
  | admitted entered quota state => simp [admitted, entered, quota, state]

theorem inScope_iff {past : List Event} {p : Pool} (tracks : Tracks past p.runtime) (e : Event) :
    InScope p e ↔ LastRegistered past p e := by
  cases e with
  | executeIntent intent id now =>
    obtain ⟨b, attached, known, last⟩ := tracks.boundary
    simp only [InScope, LastRegistered, evaluateIntent_mem_iff]
    refine forall_congr' fun passed => ?_
    have entered : p.runtime.passesTenantGate = true := by
      simp only [admitted, decide_eq_true_eq] at passed
      exact passed.1
    obtain ⟨ctx, context, _⟩ := KitematicRuntime.isolationSlot_of_passed
      (by rw [attached]; rfl) entered
    have inForce : contextInForce past = some ctx := tracks.context.symm.trans context
    obtain ⟨valid, registered⟩ := contextInForce_valid inForce
    simp only [attached, context, inForce, Option.some.injEq, exists_and_left, exists_eq_left',
      forall_eq', IsolationBoundary.validateAgentScope_eq_ok,
      IsolationBoundary.validateTenantContext_eq_ok, known, last, valid, registered, true_and]
  | resume => rfl
  | cancel => rfl
  | control => rfl

/-- On a runtime with a new boundary and no context yet, every execution that
reaches policy evaluation is in scope exactly when the last registrations say so
at every call that passes the checks. -/
theorem inScope_iff_lastRegistered {rt : KitematicRuntime} {es : List Event} {p : Pool}
    (attached : rt.isolation = some {}) (noContext : rt.tenantContext = none)
    (ran : Trace.run Pool.step (Pool.start rt) es = some p) :
    Trace.EachStep Pool.step (fun _ q e => InScope q e) [] (Pool.start rt) es ↔
      Trace.EachStep Pool.step LastRegistered [] (Pool.start rt) es := by
  refine Trace.eachStep_congr (I := fun past q => q.WellFormed ∧ Tracks past q.runtime) ?_ ?_
    ⟨Pool.start_wellFormed rt, noContext, {}, attached, fun _ => rfl, fun _ => rfl⟩ ran
  · rintro past q e q' ⟨wf, tracks⟩ stepped
    exact ⟨Pool.step_wellFormed wf stepped, step_tracks wf tracks stepped⟩
  · rintro past q e q' ⟨wf, tracks⟩ _
    exact inScope_iff tracks e

def setUpThen (agentId : String) : List Event :=
  [.control (.registerTenant ⟨"acme", "Acme", ⟨1⟩⟩), .control (.registerAgent "agent" "acme"),
    .control (.setTenantContext ⟨"acme", "agent", ∅⟩),
    .executeIntent ⟨agentId, "tool.read", []⟩ "e1" 0]

theorem inScope_iff_lastRegistered_setUp :
    Trace.EachStep Pool.step (fun _ q e => InScope q e) []
        (Pool.start { isolation := some {} }) (setUpThen "agent") ↔
      Trace.EachStep Pool.step LastRegistered [] (Pool.start { isolation := some {} })
        (setUpThen "agent") :=
  inScope_iff_lastRegistered rfl rfl rfl

/-- The intent of an agent nobody registered reaches policy evaluation. -/
theorem unregistered_agent_evaluated :
    ¬ Trace.EachStep Pool.step (fun _ q e => InScope q e) []
      (Pool.start { isolation := some {} }) (setUpThen "ghost") := by
  intro each
  have last := (((each.2 _ rfl).2 _ rfl).2 _ rfl).1
  obtain ⟨b, ctx, attached, context, registered, _⟩ :=
    last ((evaluateIntent_mem_iff _ _ _ _).mpr rfl)
  cases attached
  cases context
  cases registered

end Kitematic.AgentScope

import Kitematic.Interleaving

/-! The boundary's per-tenant count against the calls in flight. A call takes its
slot before the quota and shutdown checks and gives it back only when it
completes, so the count is exact as long as no call of the tenant leaves in
between. -/

namespace Kitematic.IsolationSlots
open Admission Dictionary Interleaving Isolation Resumption RuntimeAbi State Tenant

def ofTenant (t : String) (frame : Frame) : Bool := tenantOf frame.tenantCtx = some t

/-- The count is the number of the tenant's calls in flight. -/
def Exact (t : String) (p : Pool) : Prop :=
  p.runtime.executionCount t = p.running (ofTenant t)

instance (t : String) (p : Pool) : Decidable (Exact t p) := inferInstanceAs (Decidable (_ = _))

/-- A tenant that may run something and runs nothing is let in. -/
def LetsIn (t : String) (p : Pool) : Prop :=
  ∀ b tenant, p.runtime.isolation = some b → b.tenants.get t = some tenant →
    1 ≤ tenant.resourceLimits.maxConcurrentExecutions → p.running (ofTenant t) = 0 →
      b.checkResourceLimits t = .ok ()

/-- The event makes no call of the tenant leave after its slot is taken and before
it completes. -/
def NoEarlyExit (t : String) (p : Pool) : Event → Prop
  | .executeIntent _ _ now =>
      p.runtime.passesTenantGate = true → tenantOf p.runtime.tenantContext = some t →
        p.runtime.passesQuotaGate now = true ∧ p.runtime.state = .running
  | .resume id reply _ =>
      ∀ frame, p.inFlight.get id = some frame → ofTenant t frame = true → grants reply = true
  | .cancel id => ∀ frame, p.inFlight.get id = some frame → ofTenant t frame = false
  | .control _ => True

theorem exact_letsIn {t : String} {p : Pool} (exact : Exact t p) : LetsIn t p := by
  intro b tenant attached registered allowed idle
  rw [Exact, idle] at exact
  have none : b.executionCount t = 0 := by
    simpa [KitematicRuntime.executionCount, attached] using exact
  refine IsolationBoundary.checkResourceLimits_eq_ok.mpr ⟨tenant, registered, ?_⟩
  omega

section step
variable {p : Pool} {t : String}

theorem executeIntent_exact {intent : Intent} {id : String} {now : ℚ} (wf : p.WellFormed)
    (attached : p.runtime.isolation.isSome = true) (fresh : id ∉ p.drawn) (exact : Exact t p) :
    Exact t { p.settle id (p.runtime.executeIntent intent id now) with drawn := id :: p.drawn } ↔
      NoEarlyExit t p (.executeIntent intent id now) := by
  have taken := p.runtime.takeIsolation_executionCount t
  have unchanged := Dict.erase_of_get_none (wf.get_fresh fresh)
  have settled := p.running_settle id (p.runtime.executeIntent intent id now) (ofTenant t)
  have opening := p.runtime.executeIntent_opening intent id now
  rw [unchanged] at settled
  simp only [Exact, Pool.running] at exact settled ⊢
  rw [settled]
  simp only [Pool.settle, NoEarlyExit]
  generalize p.runtime.executeIntent intent id now = segment at opening ⊢
  simp only [attached, true_and] at taken
  cases opening with
  | tenantRefused gate ended =>
    simp [exact, gate, frameOf_refused ended]
  | @quotaRefused _ _ rt' entered gate ended keeps =>
    have kept : rt'.executionCount t = p.runtime.takeIsolation.executionCount t := by
      simp [KitematicRuntime.executionCount, keeps.isolation]
    rw [kept, taken, exact, frameOf_refused ended]
    by_cases own : tenantOf p.runtime.tenantContext = some t <;> simp [own, entered, gate]
  | shutdownRefused entered quota state =>
    simp only [KitematicRuntime.takeQuota_executionCount,
      KitematicRuntime.releaseQuota_executionCount, taken, exact]
    by_cases own : tenantOf p.runtime.tenantContext = some t <;>
      simp [own, entered, quota, state, frameOf, Rejection.progress]
  | admitted entered quota state =>
    simp only [KitematicRuntime.takeQuota_executionCount, taken, exact]
    by_cases own : tenantOf p.runtime.tenantContext = some t <;>
      simp [own, quota, state, frameOf, ofTenant, KitematicRuntime.firstFrame]

theorem resume_exact {id : String} {reply : Reply} {now : ℚ} {frame : Frame}
    {segment : Segment Progress} (wf : p.WellFormed) (pending : p.inFlight.get id = some frame)
    (resumed : p.runtime.resume frame reply now = some segment) (exact : Exact t p) :
    Exact t { p.settle id segment with checkpoints := p.checkpoints ++ savedBy frame reply } ↔
      NoEarlyExit t p (.resume id reply now) := by
  have before := Dict.count_of_get pending (ofTenant t)
  have settled := p.running_settle id segment (ofTenant t)
  simp only [Exact, Pool.running] at exact settled ⊢
  rw [settled]
  simp only [Pool.settle, NoEarlyExit, pending, Option.some.injEq, forall_eq']
  cases KitematicRuntime.resume_resumed (wf.consistent id frame pending) resumed with
  | advanced next granted same =>
    have kept : ofTenant t next = ofTenant t frame := by simp [ofTenant, same.tenantCtx]
    simp [frameOf, kept, granted, exact, before]
  | completed =>
    simp only [KitematicRuntime.releaseQuota_executionCount,
      KitematicRuntime.endIsolation_executionCount, exact, before]
    by_cases own : tenantOf frame.tenantCtx = some t <;> simp [own, frameOf, ofTenant, grants]
  | failed refused =>
    simp only [KitematicRuntime.releaseQuota_executionCount, exact, before]
    by_cases own : tenantOf frame.tenantCtx = some t <;> simp [own, frameOf, ofTenant, refused]

theorem cancel_exact {id : String} {frame : Frame} (pending : p.inFlight.get id = some frame)
    (exact : Exact t p) : Exact t { p with inFlight := p.inFlight.erase id } ↔
      NoEarlyExit t p (.cancel id) := by
  have before := Dict.count_of_get pending (ofTenant t)
  simp only [Exact, Pool.running] at exact ⊢
  simp only [NoEarlyExit, pending, Option.some.injEq, forall_eq', exact, before]
  cases ofTenant t frame <;> simp

theorem step_exact {p' : Pool} {e : Event} (wf : p.WellFormed)
    (attached : p.runtime.isolation.isSome = true) (exact : Exact t p)
    (stepped : p.step e = some p') : Exact t p' ↔ NoEarlyExit t p e := by
  cases Pool.step_stepped stepped with
  | executeIntent intent id now fresh => exact executeIntent_exact wf attached fresh exact
  | resume id reply now frame segment pending resumed => exact resume_exact wf pending resumed exact
  | cancel id frame pending => exact cancel_exact pending exact
  | control control =>
    have kept := (control.keeps p.runtime).executionCount t
    simpa [NoEarlyExit, Exact, kept, Pool.running] using exact

end step

/-- The counts are exact and no idle tenant is locked out in all states of a run
exactly when no call of the tenant leaves early in any of its steps. -/
theorem exact_iff_noEarlyExit {rt : KitematicRuntime} {t : String} {es : List Event} {p : Pool}
    (attached : rt.isolation.isSome = true) (unused : rt.executionCount t = 0)
    (ran : Trace.run Pool.step (Pool.start rt) es = some p) :
    Trace.AllStates Pool.step (fun q => Exact t q ∧ LetsIn t q) (Pool.start rt) es ↔
      Trace.EachStep Pool.step (fun _ q e => NoEarlyExit t q e) [] (Pool.start rt) es := by
  have good : Exact t (Pool.start rt) := unused
  refine Trace.allStates_iff_eachStep
    (I := fun _ q => q.WellFormed ∧ q.runtime.isolation.isSome = true) ?_ ?_
    ⟨Pool.start_wellFormed rt, attached⟩ ⟨good, exact_letsIn good⟩ ran
  · rintro _ q e q' ⟨wf, attached⟩ stepped
    exact ⟨Pool.step_wellFormed wf stepped, (Pool.step_isSome wf stepped).1.trans attached⟩
  · rintro _ q e q' ⟨wf, attached⟩ ⟨exact, _⟩ stepped
    rw [← step_exact wf attached exact stepped]
    exact ⟨And.left, fun next => ⟨next, exact_letsIn next⟩⟩

def bothComplete : List Event :=
  [.executeIntent ⟨"agent", "tool.read", []⟩ "e1" 0,
    .executeIntent ⟨"agent", "tool.read", []⟩ "e2" 1] ++
    (granting.map fun reply => .resume "e2" reply 2) ++
    granting.map fun reply => .resume "e1" reply 3

theorem exact_iff_noEarlyExit_completed : ∃ p,
    Trace.run Pool.step (Pool.start sharedRuntime) bothComplete = some p ∧
      p.runtime.executionCount "acme" = 0 ∧
      (Trace.AllStates Pool.step (fun q => Exact "acme" q ∧ LetsIn "acme" q)
          (Pool.start sharedRuntime) bothComplete ↔
        Trace.EachStep Pool.step (fun _ q e => NoEarlyExit "acme" q e) []
          (Pool.start sharedRuntime) bothComplete) :=
  ⟨_, rfl, rfl, exact_iff_noEarlyExit rfl rfl rfl⟩

/-- A policy denial keeps the slot: the count stays at one with nothing running, and
a tenant with a limit of one is locked out. -/
theorem policyDenial_keeps_slot :
    ¬ Trace.AllStates Pool.step (fun q => Exact "acme" q) (Pool.start acmeRuntime)
        [.executeIntent ⟨"agent", "tool.read", []⟩ "e1" 0,
          .resume "e1" (.decision false none) 1] ∧
      ¬ Trace.AllStates Pool.step (fun q => LetsIn "acme" q) (Pool.start acmeRuntime)
        [.executeIntent ⟨"agent", "tool.read", []⟩ "e1" 0,
          .resume "e1" (.decision false none) 1] := by
  refine ⟨fun exact => ?_, fun letsIn => ?_⟩
  · have last : Exact "acme" _ := exact.last rfl
    exact absurd last (by decide)
  · have last := letsIn.last rfl _ ⟨"acme", "Acme", ⟨1⟩⟩ rfl rfl (by decide) rfl
    cases last

end Kitematic.IsolationSlots

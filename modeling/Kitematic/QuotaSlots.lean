import Kitematic.IsolationSlots

/-! The quota manager's running sets against the calls in flight, and the tokens a
turned-away call pays. The release is written on every exit of the chain but not
in a `finally`, and the token is taken before the shutdown check. -/

namespace Kitematic.QuotaSlots
open Admission Dictionary Interleaving Isolation Quotas Resumption RuntimeAbi State Tenant

/-- The call passed `start_execution` of the quota manager for the tenant. -/
def holdsQuota (t : String) (frame : Frame) : Bool :=
  frame.quotaAcquired ∧ tenantOf frame.tenantCtx = some t

/-- The running set holds the ids of the tenant's calls in flight. -/
def Exact (t : String) (p : Pool) : Prop :=
  ∀ id, id ∈ p.runtime.active t ↔
    ∃ frame, p.inFlight.get id = some frame ∧ holdsQuota t frame = true

/-- No call of the tenant is cancelled while it holds a quota slot. -/
def NoCancel (t : String) (p : Pool) : Event → Prop
  | .cancel id => ∀ frame, p.inFlight.get id = some frame → holdsQuota t frame = false
  | _ => True

/-- The rejections for which a call should pay nothing. -/
def IsFree : Rejection → Prop
  | .concurrentLimit _ | .draining | .stopped => True
  | _ => False

/-- A call rejected by the concurrency limit or by a shutdown takes no token. -/
def RejectionIsFree (t : String) (p : Pool) : Event → Prop
  | .executeIntent intent id now =>
      (∃ r, IsFree r ∧ (p.runtime.executeIntent intent id now).outcome = r.progress id) →
        (p.runtime.executeIntent intent id now).runtime.availableTokens t now =
          p.runtime.availableTokens t now
  | _ => True

/-- No call of the tenant gets past the quota check of a runtime that has left
`RUNNING`. -/
def NoLateRejection (t : String) (p : Pool) : Event → Prop
  | .executeIntent _ _ now =>
      p.runtime.passesTenantGate = true → p.runtime.passesQuotaGate now = true →
        p.runtime.quotaApplies = true → tenantOf p.runtime.tenantContext = some t →
          p.runtime.state = .running
  | _ => True

section step
variable {p : Pool} {t : String}

private theorem exact_ended {id : String} {segment : Segment Progress} (exact : Exact t p)
    (ended : frameOf segment.outcome = none)
    (left : segment.runtime.active t = (p.runtime.active t).erase id) :
    Exact t (p.settle id segment) := by
  intro id'
  have active : (p.settle id segment).runtime.active t = (p.runtime.active t).erase id := left
  rw [active, Finset.mem_erase, Pool.get_settle, exact id']
  by_cases same : id' = id <;> simp [same, ended]

theorem executeIntent_exact {intent : Intent} {id : String} {now : ℚ} (wf : p.WellFormed)
    (fresh : id ∉ p.drawn) (exact : Exact t p) :
    Exact t (p.settle id (p.runtime.executeIntent intent id now)) := by
  have missing := wf.get_fresh fresh
  have unused : id ∉ p.runtime.active t := by
    rw [exact id]
    simp [missing]
  have opening := p.runtime.executeIntent_opening intent id now
  generalize p.runtime.executeIntent intent id now = segment at opening
  cases opening with
  | tenantRefused gate ended =>
    exact exact_ended exact (frameOf_refused ended) (Finset.erase_eq_of_notMem unused).symm
  | quotaRefused entered gate ended keeps =>
    refine exact_ended exact (frameOf_refused ended) ?_
    rw [Finset.erase_eq_of_notMem unused]
    exact (keeps.active t).trans (p.runtime.takeIsolation_active t)
  | shutdownRefused entered quota state =>
    refine exact_ended exact rfl ?_
    rw [Finset.erase_eq_of_notMem unused]
    exact KitematicRuntime.active_takenReleased unused now
  | admitted entered quota state =>
    intro id'
    simp only [Pool.get_settle, frameOf]
    simp only [Pool.settle, KitematicRuntime.takeQuota_active,
      KitematicRuntime.takeIsolation_active, KitematicRuntime.takeIsolation_quotaApplies,
      KitematicRuntime.takeIsolation_tenantContext]
    by_cases same : id' = id
    · subst same
      have first : (∃ frame, some (p.runtime.firstFrame intent id' now) = some frame ∧
          holdsQuota t frame = true) ↔
            (p.runtime.quotaApplies = true ∧ tenantOf p.runtime.tenantContext = some t) := by
        simp [holdsQuota, KitematicRuntime.firstFrame]
      rw [if_pos rfl, first]
      by_cases own : p.runtime.quotaApplies = true ∧ tenantOf p.runtime.tenantContext = some t
      · rw [if_pos own]
        exact iff_of_true (Finset.mem_insert_self _ _) own
      · rw [if_neg own]
        exact iff_of_false unused own
    · rw [if_neg same, ← exact id']
      split
      · exact Finset.mem_insert.trans (or_iff_right same)
      · rfl

private theorem release_active {rt : KitematicRuntime} {id : String} {frame : Frame}
    (exact : Exact t p) (consistent : Consistent frame) (own : frame.executionId = id)
    (pending : p.inFlight.get id = some frame) (active : rt.active t = p.runtime.active t) :
    (rt.releaseQuota frame.tenantCtx frame.executionId frame.quotaAcquired).runtime.active t =
      (p.runtime.active t).erase id := by
  rw [KitematicRuntime.releaseQuota_active, active, own]
  by_cases held : holdsQuota t frame = true
  · simp only [holdsQuota, decide_eq_true_eq] at held
    have named : t ≠ "" := by
      rintro rfl
      obtain ⟨ctx, context, empty⟩ := Option.map_eq_some_iff.mp held.2
      exact consistent.quota held.1 (by rw [context]; exact empty)
    simp [held, named]
  · have absent : id ∉ p.runtime.active t := by
      rw [exact id]
      simpa [pending] using held
    have free : ¬ (frame.quotaAcquired = true ∧ tenantOf frame.tenantCtx = some t ∧ t ≠ "") :=
      fun taken => held (by simp [holdsQuota, taken.1, taken.2.1])
    rw [if_neg free, Finset.erase_eq_of_notMem absent]

theorem resume_exact {id : String} {reply : Reply} {now : ℚ} {frame : Frame}
    {segment : Segment Progress} (wf : p.WellFormed) (pending : p.inFlight.get id = some frame)
    (resumed : p.runtime.resume frame reply now = some segment) (exact : Exact t p) :
    Exact t (p.settle id segment) := by
  have consistent := wf.consistent id frame pending
  have own := wf.executionId id frame pending
  cases KitematicRuntime.resume_resumed consistent resumed with
  | advanced next granted same =>
    have kept : holdsQuota t next = holdsQuota t frame := by
      simp [holdsQuota, same.tenantCtx, same.quotaAcquired]
    intro id'
    simp only [Pool.get_settle, frameOf]
    by_cases h : id' = id
    · subst h
      simpa [Pool.settle, pending, kept] using exact id'
    · simpa [Pool.settle, h] using exact id'
  | completed =>
    exact exact_ended exact rfl (release_active exact consistent own pending (by simp))
  | failed =>
    exact exact_ended exact rfl (release_active exact consistent own pending rfl)

theorem cancel_exact {id : String} {frame : Frame} (pending : p.inFlight.get id = some frame)
    (exact : Exact t p) : Exact t { p with inFlight := p.inFlight.erase id } ↔
      NoCancel t p (.cancel id) := by
  simp only [NoCancel, pending, Option.some.injEq, forall_eq']
  constructor
  · intro next
    have gone := (next id).not.mpr (by simp [Dict.get_erase])
    simpa [pending] using (exact id).not.mp gone
  · intro free id'
    rw [exact id', Dict.get_erase]
    by_cases h : id' = id
    · simp [h, pending, free]
    · simp [h]

theorem step_exact {p' : Pool} {e : Event} (wf : p.WellFormed) (exact : Exact t p)
    (stepped : p.step e = some p') : Exact t p' ↔ NoCancel t p e := by
  cases Pool.step_stepped stepped with
  | executeIntent intent id now fresh =>
    exact iff_of_true (executeIntent_exact wf fresh exact) trivial
  | resume id reply now frame segment pending resumed =>
    exact iff_of_true (resume_exact wf pending resumed exact) trivial
  | cancel id frame pending => exact cancel_exact pending exact
  | control control =>
    have kept := (control.keeps p.runtime).active t
    simpa [NoCancel, Exact, kept] using exact

theorem rejectionIsFree_iff (attached : p.runtime.quotaManager.isSome = true) (e : Event) :
    RejectionIsFree t p e ↔ NoLateRejection t p e := by
  cases e with
  | executeIntent intent id now =>
    have paid := p.runtime.takeIsolation.takeQuota_availableTokens id t now
    have opening := p.runtime.executeIntent_opening intent id now
    simp only [RejectionIsFree, NoLateRejection]
    generalize p.runtime.executeIntent intent id now = segment at opening
    cases opening with
    | tenantRefused gate => simp [gate]
    | quotaRefused entered gate ended keeps => simp [gate, keeps.availableTokens t]
    | shutdownRefused entered quota state =>
      have free : ∃ r, IsFree r ∧
          p.runtime.shutdownRejection.progress id = r.progress id := by
        refine ⟨p.runtime.shutdownRejection, ?_, rfl⟩
        unfold KitematicRuntime.shutdownRejection
        split <;> trivial
      obtain ⟨q, manager⟩ := Option.isSome_iff_exists.mp attached
      have tokens : p.runtime.availableTokens t now = some (q.rateLimiter.available t now) := by
        simp [KitematicRuntime.availableTokens, manager]
      simp only [free, forall_const, KitematicRuntime.releaseQuota_availableTokens,
        paid (by simpa using quota), entered, quota, state, KitematicRuntime.takeIsolation_quotaApplies,
        KitematicRuntime.takeIsolation_tenantContext, KitematicRuntime.takeIsolation_availableTokens,
        tokens]
      by_cases own : p.runtime.quotaApplies = true ∧ tenantOf p.runtime.tenantContext = some t
      · rw [if_pos own]
        simp [own.1, own.2]
      · rw [if_neg own]
        simpa using fun applies => not_and.mp own applies
    | admitted entered quota state =>
      simp [state, Rejection.progress]
  | resume => rfl
  | cancel => rfl
  | control => rfl

end step

/-- Exact sets in all states and free rejections in all steps of a run amount to
no cancelled slot holder and no call turned away after it paid. -/
theorem exact_iff_noCancel {rt : KitematicRuntime} {t : String} {es : List Event} {p : Pool}
    (attached : rt.quotaManager.isSome = true) (unused : rt.active t = ∅)
    (ran : Trace.run Pool.step (Pool.start rt) es = some p) :
    (Trace.AllStates Pool.step (Exact t) (Pool.start rt) es ∧
      Trace.EachStep Pool.step (fun _ q e => RejectionIsFree t q e) [] (Pool.start rt) es) ↔
    Trace.EachStep Pool.step (fun _ q e => NoCancel t q e ∧ NoLateRejection t q e) []
      (Pool.start rt) es := by
  have good : Exact t (Pool.start rt) := by
    intro id
    simp [Pool.start, unused]
  have keeps : ∀ (q : Pool) (e : Event) (q' : Pool),
      q.WellFormed ∧ q.runtime.quotaManager.isSome = true → q.step e = some q' →
        q'.WellFormed ∧ q'.runtime.quotaManager.isSome = true := by
    rintro q e q' ⟨wf, manager⟩ stepped
    exact ⟨Pool.step_wellFormed wf stepped, (Pool.step_isSome wf stepped).2.trans manager⟩
  have start := And.intro (Pool.start_wellFormed rt) attached
  have sets : Trace.AllStates Pool.step (Exact t) (Pool.start rt) es ↔
      Trace.EachStep Pool.step (fun _ q e => NoCancel t q e) [] (Pool.start rt) es :=
    Trace.allStates_iff_eachStep (fun _ => keeps)
      (fun _ _ _ _ inv exact stepped => step_exact inv.1 exact stepped) start good ran
  have tokens :
      Trace.EachStep Pool.step (fun _ q e => RejectionIsFree t q e) [] (Pool.start rt) es ↔
      Trace.EachStep Pool.step (fun _ q e => NoLateRejection t q e) [] (Pool.start rt) es :=
    Trace.eachStep_congr (fun _ => keeps)
      (fun _ _ e _ inv _ => rejectionIsFree_iff inv.2 e) start ran
  rw [sets, tokens, Trace.eachStep_and]

def quotaRuntime : KitematicRuntime where
  tenantContext := some ⟨"acme", "agent", ∅⟩
  quotaManager := some {}

def overlapping : List Event :=
  [.executeIntent ⟨"agent", "tool.read", []⟩ "e1" 0,
    .executeIntent ⟨"agent", "tool.read", []⟩ "e2" 1, .resume "e1" (.decision false none) 2,
    .control .drain] ++ granting.map fun reply => .resume "e2" reply 3

theorem exact_iff_noCancel_overlapping : ∃ p,
    Trace.run Pool.step (Pool.start quotaRuntime) overlapping = some p ∧
      p.runtime.active "acme" = ∅ ∧
      ((Trace.AllStates Pool.step (Exact "acme") (Pool.start quotaRuntime) overlapping ∧
          Trace.EachStep Pool.step (fun _ q e => RejectionIsFree "acme" q e) []
            (Pool.start quotaRuntime) overlapping) ↔
        Trace.EachStep Pool.step (fun _ q e => NoCancel "acme" q e ∧ NoLateRejection "acme" q e) []
          (Pool.start quotaRuntime) overlapping) := by
  have freed : (Trace.run Pool.step (Pool.start quotaRuntime) overlapping).any
      (fun p => p.runtime.active "acme" = ∅) = true := by decide +kernel
  obtain ⟨p, ran, released⟩ := (Option.any_eq_true _ _).mp freed
  exact ⟨p, ran, of_decide_eq_true released, exact_iff_noCancel rfl rfl ran⟩

/-- A cancelled call stays in the running set, and a call turned away by a drained
runtime has paid a token. -/
theorem cancel_keeps_slot_and_drain_takes_token :
    ¬ Trace.AllStates Pool.step (Exact "acme") (Pool.start quotaRuntime)
        [.executeIntent ⟨"agent", "tool.read", []⟩ "e1" 0, .cancel "e1"] ∧
      ¬ Trace.EachStep Pool.step (fun _ q e => RejectionIsFree "acme" q e) []
        (Pool.start quotaRuntime)
        [.control .drain, .executeIntent ⟨"agent", "tool.read", []⟩ "e1" 0] := by
  refine ⟨fun exact => ?_, fun free => ?_⟩
  · obtain ⟨last, ran⟩ : ∃ last, Trace.run Pool.step (Pool.start quotaRuntime)
        [.executeIntent ⟨"agent", "tool.read", []⟩ "e1" 0, .cancel "e1"] = some last :=
      Option.isSome_iff_exists.mp (by decide +kernel)
    have kept : (Trace.run Pool.step (Pool.start quotaRuntime)
        [.executeIntent ⟨"agent", "tool.read", []⟩ "e1" 0, .cancel "e1"]).any (fun q =>
          "e1" ∈ q.runtime.active "acme" ∧ (q.inFlight.get "e1").isNone) = true := by decide +kernel
    rw [ran] at kept
    simp only [Option.any_some, Bool.decide_and, Bool.and_eq_true, decide_eq_true_eq] at kept
    obtain ⟨frame, pending, _⟩ := (exact.last ran "e1").mp kept.1
    rw [pending] at kept
    cases kept.2
  · have running := (rejectionIsFree_iff rfl _).mp (free.2 _ rfl).1 rfl (by decide +kernel)
      (by decide +kernel) rfl
    cases running

end Kitematic.QuotaSlots

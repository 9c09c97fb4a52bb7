import Kitematic.CallTrail

/-! Leaving `RUNNING` over every interleaving. The state never comes back, a call that
begins later is turned away in one segment, and the run with the shutdown calls
left out has the same calls in flight, with the same trails, and maybe more. -/

namespace Kitematic.Shutdown
open Admission CallTrail Dictionary Interleaving Isolation Quotas Resumption RuntimeAbi State Tenant

def reaches : RuntimeState → List RuntimeState
  | .running => [.running, .draining, .stopped]
  | .draining => [.draining, .stopped]
  | .stopped => [.stopped]

theorem reaches_refl (s : RuntimeState) : s ∈ reaches s := by
  cases s <;> decide

theorem reaches_trans {s t u : RuntimeState} (first : t ∈ reaches s) (second : u ∈ reaches t) :
    u ∈ reaches s := by
  revert first second
  cases s <;> cases t <;> cases u <;> decide

/-! The state only moves forward. -/

theorem executeIntent_state (rt : KitematicRuntime) (intent : Intent) (id : String) (now : ℚ) :
    (rt.executeIntent intent id now).runtime.state = rt.state := by
  have opening := rt.executeIntent_opening intent id now
  generalize rt.executeIntent intent id now = segment at opening
  cases opening with
  | tenantRefused => rfl
  | quotaRefused _ _ _ keeps => exact keeps.state.trans rt.takeIsolation_state
  | shutdownRefused => simp
  | admitted => simp

theorem resume_state {rt : KitematicRuntime} {frame : Frame} {reply : Reply} {now : ℚ}
    {segment : Segment Progress} (consistent : Consistent frame)
    (resumed : rt.resume frame reply now = some segment) : segment.runtime.state = rt.state := by
  cases KitematicRuntime.resume_resumed consistent resumed with
  | advanced => rfl
  | completed => simp
  | failed => simp

theorem control_state (rt : KitematicRuntime) (control : Control) :
    (control.apply rt).state ∈ reaches rt.state := by
  cases control with
  | drain =>
    simp only [Control.apply, KitematicRuntime.drain]
    split
    · exact reaches_refl _
    next running => simp [reaches, not_not.mp running]
  | stop =>
    simp only [Control.apply, KitematicRuntime.stop]
    split
    · exact reaches_refl _
    · cases rt.state <;> simp [reaches]
  | setTenantContext context =>
    simp only [Control.apply]
    split
    next accepted =>
      obtain rfl := KitematicRuntime.setTenantContext_eq_ok accepted
      exact reaches_refl _
    · exact reaches_refl _
  | registerTenant tenant =>
    simp only [Control.apply]
    split
    · exact reaches_refl _
    · split <;> exact reaches_refl _
  | registerAgent agentId tenantId =>
    simp only [Control.apply]
    split
    · exact reaches_refl _
    · split <;> exact reaches_refl _
  | configure tenantId config => exact reaches_refl _

section run
variable {p p' q : Pool}

theorem step_state {e : Event} (wf : p.WellFormed) (stepped : p.step e = some p') :
    p'.runtime.state ∈ reaches p.runtime.state := by
  cases Pool.step_stepped stepped with
  | executeIntent intent id now =>
    have kept := executeIntent_state p.runtime intent id now
    simpa only [Pool.settle, kept] using reaches_refl p.runtime.state
  | resume id reply now frame segment pending resumed =>
    have kept := resume_state (wf.consistent id frame pending) resumed
    simpa only [Pool.settle, kept] using reaches_refl p.runtime.state
  | cancel => exact reaches_refl _
  | control control => exact control_state p.runtime control

theorem run_state {es : List Event} (wf : p.WellFormed)
    (ran : Trace.run Pool.step p es = some q) : q.runtime.state ∈ reaches p.runtime.state := by
  have kept : q.WellFormed ∧ q.runtime.state ∈ reaches p.runtime.state := by
    refine Trace.run_invariant (I := fun s => s.WellFormed ∧ s.runtime.state ∈ reaches
      p.runtime.state) ?_ ⟨wf, reaches_refl _⟩ ran
    rintro e _ s t ⟨well, reached⟩ stepped
    exact ⟨Pool.step_wellFormed well stepped, reaches_trans reached (step_state well stepped)⟩
  exact kept.2

theorem left_running {s t : RuntimeState} (left : s ≠ .running) (later : t ∈ reaches s) :
    t ≠ .running := by
  rintro rfl
  cases s <;> simp [reaches] at left later

/-! A call that begins once the runtime has left `RUNNING`. -/

/-- Every id in a running set was drawn. -/
def ActiveDrawn (p : Pool) : Prop := ∀ t, ∀ id ∈ p.runtime.active t, id ∈ p.drawn

theorem late_effects {rt : KitematicRuntime} {intent : Intent} {id : String} {now : ℚ}
    (left : rt.state ≠ .running) :
    (∀ e ∈ (rt.executeIntent intent id now).effects, ¬ IsCall e) ∧
      frameOf (rt.executeIntent intent id now).outcome = none := by
  have opening := rt.executeIntent_opening intent id now
  generalize rt.executeIntent intent id now = segment at opening
  have slot : ∀ e ∈ rt.isolationSlot, ¬ IsCall e := fun e member =>
    (rt.isolationSlot_quiet e member).1
  cases opening with
  | tenantRefused _ ended => exact ⟨by simp, frameOf_refused ended⟩
  | quotaRefused _ _ ended _ silent =>
    refine ⟨List.forall_mem_append.mpr ⟨slot, fun e member => (silent e member).1⟩, ?_⟩
    exact frameOf_refused ended
  | shutdownRefused _ _ _ quiet =>
    refine ⟨List.forall_mem_append.mpr ⟨slot, List.forall_mem_append.mpr ⟨?_, ?_⟩⟩, rfl⟩
    · exact fun e member => (rt.quotaSlot_quiet id e member).1
    · exact fun e member => (quiet e member).1
  | admitted _ _ running => exact absurd running left

theorem late_active {rt : KitematicRuntime} {intent : Intent} {id : String} {now : ℚ}
    (left : rt.state ≠ .running) (t : String) (unused : id ∉ rt.active t) :
    (rt.executeIntent intent id now).runtime.active t = rt.active t := by
  have opening := rt.executeIntent_opening intent id now
  generalize rt.executeIntent intent id now = segment at opening
  cases opening with
  | tenantRefused => rfl
  | quotaRefused _ _ _ keeps => exact (keeps.active t).trans (rt.takeIsolation_active t)
  | shutdownRefused => exact KitematicRuntime.active_takenReleased unused now
  | admitted _ _ running => exact absurd running left

theorem executeIntent_active {rt : KitematicRuntime} {intent : Intent} {id id' t : String} {now : ℚ}
    (member : id' ∈ (rt.executeIntent intent id now).runtime.active t) :
    id' = id ∨ id' ∈ rt.active t := by
  have opening := rt.executeIntent_opening intent id now
  generalize rt.executeIntent intent id now = segment at opening member
  have taken : id' ∈ (rt.takeIsolation.takeQuota id now).active t → id' = id ∨ id' ∈ rt.active t := by
    rw [KitematicRuntime.takeQuota_active, KitematicRuntime.takeIsolation_active]
    split
    · exact Finset.mem_insert.mp
    · exact .inr
  cases opening with
  | tenantRefused => exact .inr member
  | quotaRefused _ _ _ keeps =>
    rw [keeps.active t, KitematicRuntime.takeIsolation_active] at member
    exact .inr member
  | shutdownRefused =>
    rw [KitematicRuntime.releaseQuota_active] at member
    split at member
    · exact taken (Finset.mem_of_mem_erase member)
    · exact taken member
  | admitted => exact taken member

theorem releaseQuota_subset (rt : KitematicRuntime) (ctx : Option TenantContext) (id t : String)
    (acquired : Bool) : (rt.releaseQuota ctx id acquired).runtime.active t ⊆ rt.active t := by
  rw [KitematicRuntime.releaseQuota_active]
  split
  · exact Finset.erase_subset _ _
  · exact subset_rfl

theorem step_activeDrawn {e : Event} (wf : p.WellFormed) (known : ActiveDrawn p)
    (stepped : p.step e = some p') : ActiveDrawn p' := by
  cases Pool.step_stepped stepped with
  | executeIntent intent id now =>
    intro t id' member
    cases executeIntent_active member with
    | inl own => exact own ▸ List.mem_cons_self
    | inr old => exact List.mem_cons_of_mem _ (known t id' old)
  | resume id reply now frame segment pending resumed =>
    intro t id' member
    refine known t id' ?_
    change id' ∈ segment.runtime.active t at member
    cases KitematicRuntime.resume_resumed (wf.consistent id frame pending) resumed with
    | advanced => exact member
    | completed =>
      have inner := releaseQuota_subset _ _ _ _ _ member
      rwa [KitematicRuntime.endIsolation_active] at inner
    | failed => exact releaseQuota_subset _ _ _ _ _ member
  | cancel => exact known
  | control control =>
    intro t id' member
    exact known t id' ((control.keeps p.runtime).active t ▸ member)

/-! The run without the shutdown calls. -/

def isShutdown : Event → Bool
  | .control .drain | .control .stop => true
  | _ => false

def withoutShutdown (es : List Event) : List Event := es.filter fun e => !isShutdown e

theorem withoutShutdown_concerns (id : String) (es : List Event) :
    (withoutShutdown es).filter (concerns id) = es.filter (concerns id) := by
  rw [withoutShutdown, List.filter_filter]
  refine List.filter_congr fun e _ => ?_
  cases e with
  | control control => rfl
  | _ => simp [isShutdown]

/-- The run without shutdown calls has all calls of the other run in flight, and
maybe calls that the other one turned away. -/
structure Ahead (p q : Pool) : Prop where
  left : p.runtime.state ≠ .running
  drawn : q.drawn = p.drawn
  inFlight : ∀ id frame, p.inFlight.get id = some frame → q.inFlight.get id = some frame
  parts : SameParts p.runtime q.runtime
  wellFormed : p.WellFormed
  wellFormed' : q.WellFormed

theorem shutdown_ahead {control : Control} (wf : p.WellFormed)
    (shutdown : isShutdown (.control control) = true) :
    Ahead { p with runtime := control.apply p.runtime } p := by
  refine ⟨?_, rfl, fun _ _ stored => stored, (control_parts p.runtime control).symm,
    Pool.step_wellFormed wf (e := .control control) rfl, wf⟩
  cases control with
  | drain =>
    simp only [Control.apply, KitematicRuntime.drain]
    split <;> simp_all
  | stop =>
    simp only [Control.apply, KitematicRuntime.stop]
    split <;> simp_all
  | _ => cases shutdown

theorem step_ahead {e : Event} (ahead : Ahead p q) (stepped : p.step e = some p') :
    ∃ q', q.step e = some q' ∧ Ahead p' q' := by
  have left := left_running ahead.left (step_state ahead.wellFormed stepped)
  have wf := Pool.step_wellFormed ahead.wellFormed stepped
  have parts := step_parts ahead.wellFormed stepped
  -- The other run makes the step too, and its parts are kept as well.
  have finish : ∀ q', q.step e = some q' → q'.drawn = p'.drawn →
      (∀ id frame, p'.inFlight.get id = some frame → q'.inFlight.get id = some frame) →
        ∃ q', q.step e = some q' ∧ Ahead p' q' := by
    intro q' stepped' drawn inFlight
    have parts' := step_parts ahead.wellFormed' stepped'
    exact ⟨q', stepped', left, drawn, inFlight, (parts.symm.trans ahead.parts).trans parts', wf,
      Pool.step_wellFormed ahead.wellFormed' stepped'⟩
  cases Pool.step_stepped stepped with
  | executeIntent intent id now fresh =>
    have fresh' : id ∉ q.drawn := ahead.drawn ▸ fresh
    refine finish { q.settle id (q.runtime.executeIntent intent id now) with drawn := id :: q.drawn }
      (by simp [Pool.step, Pool.executeIntent, fresh']) (by simp [ahead.drawn]) ?_
    intro id' frame stored
    change (p.settle id _).inFlight.get id' = some frame at stored
    change (q.settle id _).inFlight.get id' = some frame
    rw [Pool.get_settle] at stored ⊢
    split
    next own =>
      rw [if_pos own, (late_effects ahead.left).2] at stored
      cases stored
    next other =>
      rw [if_neg other] at stored
      exact ahead.inFlight id' frame stored
  | resume id reply now frame segment pending resumed =>
    have pending' := ahead.inFlight id frame pending
    have alike := resume_shown ahead.parts (ahead.wellFormed.consistent id frame pending) reply now
    rw [resumed] at alike
    obtain ⟨segment', resumed', shows⟩ := Option.map_eq_some_iff.mp alike
    have outcome : segment'.outcome = segment.outcome := (Prod.mk.inj shows).2
    refine finish
      { q.settle id segment' with checkpoints := q.checkpoints ++ savedBy frame reply }
      (by simp [Pool.step, Pool.resume, pending', resumed']) ahead.drawn ?_
    intro id' frame' stored
    change (p.settle id segment).inFlight.get id' = some frame' at stored
    change (q.settle id segment').inFlight.get id' = some frame'
    rw [Pool.get_settle] at stored ⊢
    rw [outcome]
    split
    next own => rwa [if_pos own] at stored
    next other =>
      rw [if_neg other] at stored
      exact ahead.inFlight id' frame' stored
  | cancel id frame pending =>
    have pending' := ahead.inFlight id frame pending
    refine finish { q with inFlight := q.inFlight.erase id } (by simp [Pool.step, Pool.cancel, pending'])
      ahead.drawn ?_
    intro id' frame' stored
    rw [Dict.get_erase] at stored ⊢
    split
    next own =>
      rw [if_pos own] at stored
      cases stored
    next other =>
      rw [if_neg other] at stored
      exact ahead.inFlight id' frame' stored
  | control control => exact finish _ rfl ahead.drawn ahead.inFlight

theorem run_ahead {es : List Event} (ahead : Ahead p q)
    (ran : Trace.run Pool.step p es = some p') :
    ∃ q', Trace.run Pool.step q (withoutShutdown es) = some q' := by
  induction es generalizing p q with
  | nil => exact ⟨q, rfl⟩
  | cons e es ih =>
    obtain ⟨middle, first, rest⟩ := Trace.run_cons ran
    obtain ⟨middle', first', next⟩ := step_ahead ahead first
    cases shutdown : isShutdown e with
    | true =>
      cases e with
      | control control =>
        -- A second shutdown call moves the one run only.
        have same : p.step (.control control) = some middle := first
        cases same
        have behind : Ahead { p with runtime := control.apply p.runtime } q := by
          refine ⟨next.left, ahead.drawn, ahead.inFlight, ?_, next.wellFormed, ahead.wellFormed'⟩
          exact (control_parts p.runtime control).symm.trans ahead.parts
        simpa [withoutShutdown, shutdown] using ih behind rest
      | _ => cases shutdown
    | false =>
      obtain ⟨q', later⟩ := ih next rest
      exact ⟨q', by simpa [withoutShutdown, shutdown, Trace.run, first'] using later⟩

theorem run_withoutShutdown {es : List Event} (wf : p.WellFormed)
    (ran : Trace.run Pool.step p es = some p') :
    ∃ q', Trace.run Pool.step p (withoutShutdown es) = some q' := by
  induction es generalizing p with
  | nil => exact ⟨p, rfl⟩
  | cons e es ih =>
    obtain ⟨middle, first, rest⟩ := Trace.run_cons ran
    cases shutdown : isShutdown e with
    | true =>
      cases e with
      | control control =>
        cases first
        simpa [withoutShutdown, shutdown] using run_ahead (shutdown_ahead wf shutdown) rest
      | _ => cases shutdown
    | false =>
      obtain ⟨q', later⟩ := ih (Pool.step_wellFormed wf first) rest
      exact ⟨q', by simpa [withoutShutdown, shutdown, Trace.run, first] using later⟩

end run

/-- Whatever follows, the state stays or goes on to a later one. -/
def MovesForward (p : Pool) : Prop :=
  ∀ es q, Trace.run Pool.step p es = some q → q.runtime.state ∈ reaches p.runtime.state

/-- A call that begins now calls no collaborator, however the run goes on, and leaves
the running sets as they are. -/
def TurnsAway (p : Pool) : Prop :=
  ∀ intent id now es q, Trace.run Pool.step p (.executeIntent intent id now :: es) = some q →
    (∀ e ∈ effectsOf id q, ¬ IsCall e) ∧
      ∀ t, (p.runtime.executeIntent intent id now).runtime.active t = p.runtime.active t

/-- For every continuation there is the one without its shutdown calls; in this one
and in any other with the same answers for a call in flight, the call has the same
effects and comes back with the same. -/
def LeavesInFlight (p : Pool) : Prop :=
  ∀ es q, Trace.run Pool.step p es = some q →
    (∃ q', Trace.run Pool.step p (withoutShutdown es) = some q' ∧
      ∀ id, (p.inFlight.get id).isSome = true →
        effectsOf id q' = effectsOf id q ∧ outcomes id p (withoutShutdown es) = outcomes id p es) ∧
    ∀ es' q' id, Trace.run Pool.step p es' = some q' → (p.inFlight.get id).isSome = true →
      es'.filter (concerns id) = es.filter (concerns id) →
        effectsOf id q' = effectsOf id q ∧ outcomes id p es' = outcomes id p es

theorem turnsAway {p : Pool} (wf : p.WellFormed) (known : ActiveDrawn p)
    (left : p.runtime.state ≠ .running) : TurnsAway p := by
  intro intent id now es q ran
  obtain ⟨middle, first, rest⟩ := Trace.run_cons ran
  have wf' := Pool.step_wellFormed wf first
  cases Pool.step_stepped first with
  | executeIntent _ _ _ fresh =>
    refine ⟨?_, fun t => late_active left t fun member => fresh (known t id member)⟩
    have unheard : effectsOf id p = [] := by
      simp only [effectsOf, List.map_eq_nil_iff, List.filter_eq_nil_iff, decide_eq_true_eq]
      exact fun e member same => fresh (same ▸ wf.logged e member)
    have gone : (p.settle id (p.runtime.executeIntent intent id now)).inFlight.get id = none := by
      rw [Pool.get_settle, if_pos rfl]
      exact (late_effects left).2
    have trail := (run_follow wf' List.mem_cons_self (.refl _) rest).1
    rw [gone, follow_none] at trail
    have settled := effectsOf_settle p id id (p.runtime.executeIntent intent id now)
    rw [if_pos rfl, unheard, List.nil_append] at settled
    intro e member
    rw [trail, List.append_nil] at member
    exact (late_effects left).1 e (settled ▸ member)

theorem leavesInFlight {p : Pool} (wf : p.WellFormed) : LeavesInFlight p := by
  intro es q ran
  have begun : ∀ id, (p.inFlight.get id).isSome = true → id ∈ p.drawn := by
    intro id pending
    obtain ⟨frame, stored⟩ := Option.isSome_iff_exists.mp pending
    exact wf.drawn id frame stored
  have alike : ∀ es' q' id, Trace.run Pool.step p es' = some q' →
      (p.inFlight.get id).isSome = true → es'.filter (concerns id) = es.filter (concerns id) →
        effectsOf id q' = effectsOf id q ∧ outcomes id p es' = outcomes id p es := by
    intro es' q' id ran' pending own
    obtain ⟨effects, answers, _⟩ := trail_congr wf (begun id pending) ran ran' own
    exact ⟨effects, answers⟩
  obtain ⟨q', ran'⟩ := run_withoutShutdown wf ran
  exact ⟨⟨q', ran', fun id pending => alike _ q' id ran' pending (withoutShutdown_concerns id es)⟩,
    alike⟩

/-- In every reached pool the state only moves forward, a call that begins after
`RUNNING` is turned away without a trace, and the calls in flight do not notice. -/
theorem shutdown_graceful {rt : KitematicRuntime} {es : List Event} {p : Pool}
    (unused : ∀ t, rt.active t = ∅) (ran : Trace.run Pool.step (Pool.start rt) es = some p) :
    MovesForward p ∧ (p.runtime.state ≠ .running → TurnsAway p) ∧ LeavesInFlight p := by
  have wf := Pool.run_wellFormed ran
  have known : p.WellFormed ∧ ActiveDrawn p := by
    refine Trace.run_invariant (I := fun s => s.WellFormed ∧ ActiveDrawn s) ?_
      ⟨Pool.start_wellFormed rt, fun t id member => ?_⟩ ran
    · rintro e _ s t ⟨well, drawn⟩ stepped
      exact ⟨Pool.step_wellFormed well stepped, step_activeDrawn well drawn stepped⟩
    · have none : id ∈ rt.active t := member
      simp [unused t] at none
  exact ⟨fun _ _ => run_state wf, turnsAway wf known.2, leavesInFlight wf⟩

/-- A call in flight while the runtime drains. -/
theorem shutdown_graceful_drained :
    ∃ p, Trace.run Pool.step (Pool.start acmeRuntime)
        [.executeIntent ⟨"agent", "tool.read", []⟩ "e1" 0, .control .drain] = some p ∧
      p.runtime.state = .draining ∧ (p.inFlight.get "e1").isSome = true ∧
      MovesForward p ∧ (p.runtime.state ≠ .running → TurnsAway p) ∧ LeavesInFlight p :=
  ⟨_, rfl, rfl, rfl, @shutdown_graceful acmeRuntime
    [.executeIntent ⟨"agent", "tool.read", []⟩ "e1" 0, .control .drain] _ (fun _ => rfl) rfl⟩

end Kitematic.Shutdown

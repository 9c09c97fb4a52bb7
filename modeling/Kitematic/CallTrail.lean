import Kitematic.ConcurrencyLimits

/-! The trail of one call among any number of others: its effects, what its awaits
come back with and the frame it is left in. From an await on, a call depends on
the runtime only through what is attached to it, so two runs in which it gets the
same answers agree on its trail. -/

namespace Kitematic.CallTrail
open Admission Dictionary Interleaving Isolation Quotas Resumption RuntimeAbi State Tenant

structure SameParts (rt rt' : KitematicRuntime) : Prop where
  metrics : rt'.metrics = rt.metrics
  tracer : rt'.tracer = rt.tracer
  isolation : rt'.isolation.isSome = rt.isolation.isSome
  quotaManager : rt'.quotaManager.isSome = rt.quotaManager.isSome

theorem SameParts.refl (rt : KitematicRuntime) : SameParts rt rt := ⟨rfl, rfl, rfl, rfl⟩

theorem SameParts.symm {rt rt' : KitematicRuntime} (same : SameParts rt rt') : SameParts rt' rt :=
  ⟨same.metrics.symm, same.tracer.symm, same.isolation.symm, same.quotaManager.symm⟩

theorem SameParts.trans {rt rt' rt'' : KitematicRuntime} (first : SameParts rt rt')
    (second : SameParts rt' rt'') : SameParts rt rt'' :=
  ⟨second.metrics.trans first.metrics, second.tracer.trans first.tracer,
    second.isolation.trans first.isolation, second.quotaManager.trans first.quotaManager⟩

/-- What a segment shows to the outside: its effects and how it ends. -/
def shown {α : Type} (s : Segment α) : List Effect × α := (s.effects, s.outcome)

section parts
variable {rt rt' : KitematicRuntime} {frame : Frame}

theorem fail_shown (same : SameParts rt rt') (target : ExecutionState) (traceError : Option String)
    (metrics : List String) (error : String) :
    shown (rt'.fail frame target traceError metrics error) =
      shown (rt.fail frame target traceError metrics error) := by
  simp only [shown, KitematicRuntime.fail, KitematicRuntime.trace, KitematicRuntime.count,
    same.metrics, same.tracer]

theorem advance_shown (same : SameParts rt rt') (target : ExecutionState) (phase : TracePhase)
    (call : CollaboratorCall) :
    shown (rt'.advance frame target phase call) = shown (rt.advance frame target phase call) := by
  unfold KitematicRuntime.advance
  split
  · rfl
  · simp only [shown, KitematicRuntime.trace, same.tracer]

theorem endIsolation_effects (same : SameParts rt rt') (ctx : Option TenantContext) :
    (rt'.endIsolation ctx).effects = (rt.endIsolation ctx).effects := by
  have attached := same.isolation
  unfold KitematicRuntime.endIsolation
  cases ctx <;> cases iso : rt.isolation <;> cases iso' : rt'.isolation <;> simp_all

theorem releaseQuota_effects (same : SameParts rt rt') (ctx : Option TenantContext)
    (id : String) (acquired : Bool) :
    (rt'.releaseQuota ctx id acquired).effects = (rt.releaseQuota ctx id acquired).effects := by
  have attached := same.quotaManager
  unfold KitematicRuntime.releaseQuota
  cases quota : rt.quotaManager <;> cases quota' : rt'.quotaManager <;> simp_all
  split <;> rfl

theorem afterSave_shown (same : SameParts rt rt') (state : CheckpointState) (now : ℚ)
    (answer : Except String String) :
    shown (rt'.afterSave frame state now answer) = shown (rt.afterSave frame state now answer) := by
  cases answer with
  | error e => exact fail_shown same ..
  | ok checkpointId =>
    unfold KitematicRuntime.afterSave
    simp only
    split
    · rfl
    · simp only [shown, KitematicRuntime.trace, KitematicRuntime.count, same.metrics, same.tracer,
        endIsolation_effects same]

theorem afterDecision_shown (same : SameParts rt rt') (answer : Except String (Bool × Option String)) :
    shown (rt'.afterEvaluateIntent frame answer) = shown (rt.afterEvaluateIntent frame answer) ∧
      shown (rt'.afterCheckCapability frame answer) =
        shown (rt.afterCheckCapability frame answer) := by
  match answer with
  | .error e => exact ⟨fail_shown same .., fail_shown same ..⟩
  | .ok (false, reason) => exact ⟨fail_shown same .., fail_shown same ..⟩
  | .ok (true, reason) => exact ⟨advance_shown same .., advance_shown same ..⟩

theorem afterRouteIntent_shown (same : SameParts rt rt') (answer : Except String ExecutionPath) :
    shown (rt'.afterRouteIntent frame answer) = shown (rt.afterRouteIntent frame answer) := by
  cases answer with
  | error e => exact fail_shown same ..
  | ok path =>
    simp only [shown, KitematicRuntime.afterRouteIntent, KitematicRuntime.trace, same.tracer]

theorem afterAccessTool_shown (same : SameParts rt rt') (now : ℚ)
    (answer : Except String ToolResult) :
    shown (rt'.afterAccessTool frame now answer) = shown (rt.afterAccessTool frame now answer) := by
  cases answer with
  | error e => exact fail_shown same ..
  | ok result =>
    unfold KitematicRuntime.afterAccessTool
    simp only
    split
    · exact fail_shown same ..
    · exact advance_shown same ..

theorem resumeGuarded_shown (same : SameParts rt rt') (reply : Reply) (now : ℚ) :
    (rt'.resumeGuarded frame reply now).map shown =
      (rt.resumeGuarded frame reply now).map shown := by
  unfold KitematicRuntime.resumeGuarded
  split
  case h_1 => exact congrArg some (afterDecision_shown same _).1
  case h_2 => exact congrArg some (afterDecision_shown same _).1
  case h_3 => exact congrArg some (afterDecision_shown same _).2
  case h_4 => exact congrArg some (afterDecision_shown same _).2
  case h_5 => exact congrArg some (afterRouteIntent_shown same _)
  case h_6 => exact congrArg some (afterRouteIntent_shown same _)
  case h_7 => exact congrArg some (afterAccessTool_shown same now _)
  case h_8 => exact congrArg some (afterAccessTool_shown same now _)
  case h_9 => exact congrArg some (afterSave_shown same _ now _)
  case h_10 => exact congrArg some (afterSave_shown same _ now _)
  case h_11 => rfl

theorem resumeGuarded_parts {reply : Reply} {now : ℚ} {segment : Segment Progress}
    (consistent : Consistent frame) (resumed : rt.resumeGuarded frame reply now = some segment) :
    SameParts rt segment.runtime := by
  cases KitematicRuntime.resumeGuarded_guarded consistent resumed with
  | advanced => exact .refl rt
  | completed =>
    refine ⟨?_, ?_, rt.endIsolation_isolation_isSome _, by simp⟩
    · unfold KitematicRuntime.endIsolation
      split <;> rfl
    · unfold KitematicRuntime.endIsolation
      split <;> rfl
  | failed => exact .refl rt

theorem releaseQuota_parts (rt : KitematicRuntime) (ctx : Option TenantContext) (id : String)
    (acquired : Bool) : SameParts rt (rt.releaseQuota ctx id acquired).runtime := by
  refine ⟨?_, ?_, by simp, by simp⟩
  · unfold KitematicRuntime.releaseQuota
    split
    · split <;> rfl
    · rfl
  · unfold KitematicRuntime.releaseQuota
    split
    · split <;> rfl
    · rfl

theorem resume_shown (same : SameParts rt rt') (consistent : Consistent frame) (reply : Reply)
    (now : ℚ) :
    (rt'.resume frame reply now).map shown = (rt.resume frame reply now).map shown := by
  have guarded := @resumeGuarded_shown rt rt' frame same reply now
  unfold KitematicRuntime.resume
  cases ran : rt.resumeGuarded frame reply now with
  | none =>
    rw [ran] at guarded
    rw [Option.map_eq_none_iff.mp guarded]
  | some s =>
    rw [ran] at guarded
    obtain ⟨s', ran', alike⟩ := Option.map_eq_some_iff.mp guarded
    have parts : SameParts s.runtime s'.runtime :=
      ((resumeGuarded_parts consistent ran).symm.trans same).trans
        (resumeGuarded_parts consistent ran')
    obtain ⟨runtime, effects, outcome⟩ := s
    obtain ⟨runtime', effects', outcome'⟩ := s'
    obtain ⟨rfl, rfl⟩ := Prod.mk.inj alike
    rw [ran']
    cases outcome' with
    | suspended next => rfl
    | returned result =>
      simp only [Option.map_some, shown, releaseQuota_effects parts]
    | raised error => rfl

theorem quotaGate_parts (rt : KitematicRuntime) (ctx : Option TenantContext) (id : String)
    (now : ℚ) : SameParts rt (rt.quotaGate ctx id now).runtime := by
  unfold KitematicRuntime.quotaGate
  cases manager : rt.quotaManager with
  | none => exact .refl rt
  | some q =>
    simp only
    split
    · exact .refl rt
    split
    · exact .refl rt
    split
    · exact ⟨rfl, rfl, rfl, by simp [manager]⟩
    · split <;> exact ⟨rfl, rfl, rfl, by simp [manager]⟩

theorem tenantGate_parts (rt : KitematicRuntime) (id : String) :
    SameParts rt (rt.tenantGate id).runtime := by
  unfold KitematicRuntime.tenantGate
  split
  · exact .refl rt
  next attached _ =>
    split
    · exact .refl rt
    · exact ⟨rfl, rfl, by simp [attached], rfl⟩
  · exact .refl rt

theorem shutdownGate_parts (rt : KitematicRuntime) (ctx : Option TenantContext) (id : String)
    (acquired : Bool) : SameParts rt (rt.shutdownGate ctx id acquired).runtime := by
  unfold KitematicRuntime.shutdownGate
  split
  · exact releaseQuota_parts ..
  · exact releaseQuota_parts ..
  · exact .refl rt

end parts

theorem executeIntent_parts (rt : KitematicRuntime) (intent : Intent) (id : String) (now : ℚ) :
    SameParts rt (rt.executeIntent intent id now).runtime := by
  refine Segment.andThen_keeps (tenantGate_parts rt id) fun entered _ same => same.trans ?_
  refine Segment.andThen_keeps (quotaGate_parts entered ..) fun metered acquired same =>
    same.trans ?_
  refine Segment.andThen_keeps (shutdownGate_parts metered ..) fun running _ same => same.trans ?_
  obtain ⟨before, _, _, begun⟩ := running.beginGuarded_eq intent id rt.tenantContext acquired now
  rw [begun]
  exact .refl running

theorem resume_parts {rt : KitematicRuntime} {frame : Frame} {reply : Reply} {now : ℚ}
    {segment : Segment Progress} (consistent : Consistent frame)
    (resumed : rt.resume frame reply now = some segment) : SameParts rt segment.runtime := by
  obtain ⟨inner, ran, rfl⟩ := Option.map_eq_some_iff.mp resumed
  have parts := resumeGuarded_parts consistent ran
  split
  · exact parts.trans (releaseQuota_parts ..)
  · exact parts

theorem control_parts (rt : KitematicRuntime) (control : Control) :
    SameParts rt (control.apply rt) := by
  have kept := control.keeps rt
  suffices metered : (control.apply rt).metrics = rt.metrics ∧
      (control.apply rt).tracer = rt.tracer from
    ⟨metered.1, metered.2, kept.isolation_isSome, kept.quotaManager_isSome⟩
  cases control with
  | drain =>
    simp only [Control.apply, KitematicRuntime.drain]
    split <;> exact ⟨rfl, rfl⟩
  | stop =>
    simp only [Control.apply, KitematicRuntime.stop]
    split <;> exact ⟨rfl, rfl⟩
  | setTenantContext context =>
    simp only [Control.apply]
    split
    next accepted =>
      obtain rfl := KitematicRuntime.setTenantContext_eq_ok accepted
      exact ⟨rfl, rfl⟩
    · exact ⟨rfl, rfl⟩
  | registerTenant tenant =>
    simp only [Control.apply]
    split
    · exact ⟨rfl, rfl⟩
    · split <;> exact ⟨rfl, rfl⟩
  | registerAgent agentId tenantId =>
    simp only [Control.apply]
    split
    · exact ⟨rfl, rfl⟩
    · split <;> exact ⟨rfl, rfl⟩
  | configure tenantId config => exact ⟨rfl, rfl⟩

theorem step_parts {p p' : Pool} {e : Event} (wf : p.WellFormed) (stepped : p.step e = some p') :
    SameParts p.runtime p'.runtime := by
  cases Pool.step_stepped stepped with
  | executeIntent intent id now => exact executeIntent_parts p.runtime intent id now
  | resume id reply now frame segment pending resumed =>
    exact resume_parts (wf.consistent id frame pending) resumed
  | cancel => exact .refl p.runtime
  | control control => exact control_parts p.runtime control

/-- What a call leaves behind from some point on. -/
structure Trail where
  effects : List Effect := []
  outcomes : List Progress := []
  frame : Option Frame

def act (rt : KitematicRuntime) (id : String) (frame : Option Frame) : Event → Trail
  | .resume id' reply now =>
      if id' = id then
        match frame.bind fun frame => rt.resume frame reply now with
        | some s => ⟨s.effects, [s.outcome], frameOf s.outcome⟩
        | none => { frame := frame }
      else { frame := frame }
  | .cancel id' => if id' = id then { frame := none } else { frame := frame }
  | _ => { frame := frame }

def follow (rt : KitematicRuntime) (id : String) : Option Frame → List Event → Trail
  | frame, [] => { frame := frame }
  | frame, e :: es =>
      let first := act rt id frame e
      let rest := follow rt id first.frame es
      ⟨first.effects ++ rest.effects, first.outcomes ++ rest.outcomes, rest.frame⟩

def concerns (id : String) : Event → Bool
  | .executeIntent _ id' _ | .resume id' _ _ | .cancel id' => id' = id
  | .control _ => false

def effectsOf (id : String) (p : Pool) : List Effect :=
  (p.log.filter fun e => e.1 = id).map Prod.snd

def reported (id : String) (p : Pool) : Event → List Progress
  | .executeIntent intent id' now =>
      if id' = id then ((p.executeIntent intent id' now).map Prod.snd).toList else []
  | .resume id' reply now =>
      if id' = id then ((p.resume id' reply now).map Prod.snd).toList else []
  | _ => []

def outcomes (id : String) : Pool → List Event → List Progress
  | _, [] => []
  | p, e :: es =>
      reported id p e ++
        match p.step e with
        | some q => outcomes id q es
        | none => []

theorem act_of_not_concerns {rt : KitematicRuntime} {id : String} {frame : Option Frame} {e : Event}
    (other : concerns id e = false) : act rt id frame e = { frame := frame } := by
  cases e with
  | executeIntent => rfl
  | resume id' reply now =>
    have ne : ¬ id' = id := of_decide_eq_false other
    simp [act, ne]
  | cancel id' =>
    have ne : ¬ id' = id := of_decide_eq_false other
    simp [act, ne]
  | control => rfl

/-- A trail depends on the events of its own call only. -/
theorem follow_filter (rt : KitematicRuntime) (id : String) (es : List Event)
    (frame : Option Frame) : follow rt id frame (es.filter (concerns id)) = follow rt id frame es := by
  induction es generalizing frame with
  | nil => rfl
  | cons e es ih =>
    cases own : concerns id e with
    | true => simp only [List.filter_cons_of_pos own, follow, ih]
    | false =>
      have idle := @act_of_not_concerns rt id frame e own
      simp only [List.filter_cons_of_neg (Bool.eq_false_iff.mp own), follow, idle, ih, List.nil_append]

theorem follow_none (rt : KitematicRuntime) (id : String) (es : List Event) :
    follow rt id none es = { frame := none } := by
  induction es with
  | nil => rfl
  | cons e es ih =>
    have idle : act rt id none e = { frame := none } := by
      cases e <;> simp [act]
    simp [follow, idle, ih]

theorem effectsOf_settle (p : Pool) (id id' : String) (segment : Segment Progress) :
    effectsOf id (p.settle id' segment) =
      effectsOf id p ++ if id' = id then segment.effects else [] := by
  by_cases same : id' = id
  · subst same
    simp [effectsOf, Pool.settle, List.filter_map, Function.comp_def]
  · simp [effectsOf, Pool.settle, List.filter_map, Function.comp_def, same]

section trail
variable {p p' q : Pool} {rt : KitematicRuntime} {id : String}

theorem step_act {e : Event} (wf : p.WellFormed) (drawn : id ∈ p.drawn)
    (same : SameParts rt p.runtime) (stepped : p.step e = some p') :
    effectsOf id p' = effectsOf id p ++ (act rt id (p.inFlight.get id) e).effects ∧
      reported id p e = (act rt id (p.inFlight.get id) e).outcomes ∧
        p'.inFlight.get id = (act rt id (p.inFlight.get id) e).frame := by
  cases Pool.step_stepped stepped with
  | executeIntent intent id' now fresh =>
    have other : ¬ id' = id := fun h => fresh (h ▸ drawn)
    have settled := effectsOf_settle p id id' (p.runtime.executeIntent intent id' now)
    rw [if_neg other] at settled
    refine ⟨settled, if_neg other, ?_⟩
    exact (p.get_settle id' id _).trans (if_neg (Ne.symm other))
  | resume id' reply now frame segment pending resumed =>
    have settled := effectsOf_settle p id id' segment
    have stored := p.get_settle id' id segment
    by_cases own : id' = id
    · subst own
      have alike := resume_shown same (wf.consistent id' frame pending) reply now
      rw [resumed] at alike
      obtain ⟨s, ran, shows⟩ := Option.map_eq_some_iff.mp alike.symm
      obtain ⟨runtime, effects, outcome⟩ := segment
      obtain ⟨runtime', effects', outcome'⟩ := s
      obtain ⟨rfl, rfl⟩ := Prod.mk.inj shows
      have answer : act rt id' (p.inFlight.get id') (.resume id' reply now) =
          ⟨effects', [outcome'], frameOf outcome'⟩ := by
        simp [act, pending, ran]
      rw [answer]
      rw [if_pos rfl] at settled stored
      refine ⟨settled, ?_, stored⟩
      simp [reported, Pool.resume, pending, resumed]
    · have idle : act rt id (p.inFlight.get id) (.resume id' reply now) =
          { frame := p.inFlight.get id } := if_neg own
      rw [idle]
      rw [if_neg own] at settled
      rw [if_neg (Ne.symm own)] at stored
      exact ⟨settled, if_neg own, stored⟩
  | cancel id' frame pending =>
    have erased := p.inFlight.get_erase id' id
    by_cases own : id' = id
    · subst own
      have answer : act rt id' (p.inFlight.get id') (.cancel id') = { frame := none } := if_pos rfl
      rw [answer]
      exact ⟨(List.append_nil _).symm, rfl, by simpa using erased⟩
    · have idle : act rt id (p.inFlight.get id) (.cancel id') =
          { frame := p.inFlight.get id } := if_neg own
      rw [idle]
      exact ⟨(List.append_nil _).symm, rfl, by simpa [Ne.symm own] using erased⟩
  | control control => exact ⟨(List.append_nil _).symm, rfl, rfl⟩

theorem step_drawn {e : Event} (stepped : p.step e = some p') (drawn : id ∈ p.drawn) :
    id ∈ p'.drawn := by
  cases Pool.step_stepped stepped with
  | executeIntent => exact List.mem_cons_of_mem _ drawn
  | resume => exact drawn
  | cancel => exact drawn
  | control => exact drawn

/-- Whatever the others do, a call that was begun leaves exactly its own trail. -/
theorem run_follow {es : List Event} (wf : p.WellFormed) (drawn : id ∈ p.drawn)
    (same : SameParts rt p.runtime) (ran : Trace.run Pool.step p es = some q) :
    effectsOf id q = effectsOf id p ++ (follow rt id (p.inFlight.get id) es).effects ∧
      outcomes id p es = (follow rt id (p.inFlight.get id) es).outcomes ∧
        q.inFlight.get id = (follow rt id (p.inFlight.get id) es).frame := by
  induction es generalizing p with
  | nil =>
    cases ran
    simp [follow, outcomes]
  | cons e es ih =>
    obtain ⟨middle, first, rest⟩ := Trace.run_cons ran
    obtain ⟨effects, answers, frame⟩ := step_act wf drawn same first
    have later := ih (Pool.step_wellFormed wf first) (step_drawn first drawn)
      (same.trans (step_parts wf first)) rest
    rw [frame] at later
    simp only [follow, outcomes, first]
    refine ⟨?_, ?_, later.2.2⟩
    · rw [later.1, effects, List.append_assoc]
    · rw [answers, later.2.1]

theorem trail_congr {q' : Pool} {es es' : List Event} (wf : p.WellFormed) (drawn : id ∈ p.drawn)
    (ran : Trace.run Pool.step p es = some q) (ran' : Trace.run Pool.step p es' = some q')
    (own : es'.filter (concerns id) = es.filter (concerns id)) :
    effectsOf id q' = effectsOf id q ∧ outcomes id p es' = outcomes id p es ∧
      q'.inFlight.get id = q.inFlight.get id := by
  obtain ⟨effects, answers, frame⟩ := run_follow wf drawn (.refl _) ran
  obtain ⟨effects', answers', frame'⟩ := run_follow wf drawn (.refl _) ran'
  rw [← follow_filter] at effects answers frame effects' answers' frame'
  rw [own] at effects' answers' frame'
  exact ⟨effects'.trans effects.symm, answers'.trans answers.symm, frame'.trans frame.symm⟩

end trail

end Kitematic.CallTrail

import Kitematic.Dict
import Kitematic.IsoDate
import Kitematic.PyText
import Kitematic.Trace

/-! The lifecycle manager of the control plane with one execution state machine per
execution id, created by the first call that mentions the id. `start_execution`
awaits the registry before it touches a machine and no other call waits for
anything, so a call is one step and what the registry answers is an input. -/

namespace Kitematic.ExecutionLifecycle
open Dictionary IsoDate PyText

inductive ExecutionStatus where
  | pending | running | paused | resuming | completed | failed
  deriving DecidableEq

def ExecutionStatus.value : ExecutionStatus → String
  | .pending => "PENDING"
  | .running => "RUNNING"
  | .paused => "PAUSED"
  | .resuming => "RESUMING"
  | .completed => "COMPLETED"
  | .failed => "FAILED"

structure StateTransition where
  fromState : ExecutionStatus
  toState : ExecutionStatus
  reason : String
  actor : String
  timestamp : DateTime
  metadata : Payload := []

/-- The table `LEGAL_TRANSITIONS`. -/
def legalTransitions : ExecutionStatus → List ExecutionStatus
  | .pending => [.running, .failed]
  | .running => [.paused, .completed, .failed]
  | .paused => [.resuming, .failed]
  | .resuming => [.running, .failed]
  | .completed => []
  | .failed => []

structure InvalidTransitionError where
  fromState : ExecutionStatus
  toState : ExecutionStatus

def InvalidTransitionError.message (e : InvalidTransitionError) : String :=
  "Invalid transition: " ++ e.fromState.value ++ " → " ++ e.toState.value

structure ExecutionStateMachine where
  currentState : ExecutionStatus := .pending
  history : List StateTransition := []

namespace ExecutionStateMachine

def canTransition (sm : ExecutionStateMachine) (target : ExecutionStatus) : Bool :=
  target ∈ legalTransitions sm.currentState

def transition (sm : ExecutionStateMachine) (target : ExecutionStatus) (reason actor : String)
    (now : DateTime) (metadata : Payload := []) :
    ExecutionStateMachine × Except InvalidTransitionError StateTransition :=
  if !sm.canTransition target then (sm, .error ⟨sm.currentState, target⟩)
  else
    let record : StateTransition := ⟨sm.currentState, target, reason, actor, now, metadata⟩
    ({ currentState := target, history := sm.history ++ [record] }, .ok record)

/-- A transition that is asked for only where it is legal. -/
def transitionIfLegal (sm : ExecutionStateMachine) (target : ExecutionStatus)
    (reason actor : String) (now : DateTime) (metadata : Payload := []) :
    ExecutionStateMachine × Except InvalidTransitionError Unit :=
  if sm.canTransition target then
    let (sm, outcome) := sm.transition target reason actor now metadata
    (sm, outcome.map fun _ => ())
  else (sm, .ok ())

end ExecutionStateMachine

/-- What a call raises; an exception of the registry is known by its text. -/
inductive LifecycleError where
  | agentInstanceNotFound (instanceId : String)
  | invalidTransition (error : InvalidTransitionError)
  | registry (text : String)

def LifecycleError.message : LifecycleError → String
  | .agentInstanceNotFound instanceId => "Agent instance not found: " ++ instanceId
  | .invalidTransition error => error.message
  | .registry text => text

structure TransitionRow where
  fromState : String
  toState : String
  reason : String
  actor : String
  timestamp : String

structure LifecycleManager where
  stateMachines : Dict String ExecutionStateMachine := .empty

namespace LifecycleManager

def getStateMachine (m : LifecycleManager) (executionId : String) : ExecutionStateMachine :=
  (m.stateMachines.get executionId).getD {}

/-- The machine with what a call made of it, and with what the call raises. -/
def put {α : Type} (m : LifecycleManager) (executionId : String)
    (after : ExecutionStateMachine × Except InvalidTransitionError Unit) (answer : α) :
    LifecycleManager × Except LifecycleError α :=
  ({ stateMachines := m.stateMachines.set executionId after.1 },
    match after.2 with
    | .error e => .error (.invalidTransition e)
    | .ok () => .ok answer)

def executionIdOf (instanceId : String) : String := "exec-" ++ instanceId

/-- `found` is what the registry answers. -/
def startExecution (m : LifecycleManager) (instanceId goal : String)
    (found : Except String (Option Payload)) (now : DateTime) :
    LifecycleManager × Except LifecycleError String :=
  match found with
  | .error text => (m, .error (.registry text))
  | .ok none => (m, .error (.agentInstanceNotFound instanceId))
  | .ok (some _) =>
      let executionId := executionIdOf instanceId
      m.put executionId
        ((m.getStateMachine executionId).transitionIfLegal .running "user_started"
          "lifecycle_manager" now [("instance_id", .str instanceId), ("goal", .str goal)])
        executionId

def stopExecution (m : LifecycleManager) (executionId : String) (now : DateTime) :
    LifecycleManager × Except LifecycleError Unit :=
  let sm := m.getStateMachine executionId
  m.put executionId
    (if sm.currentState = .completed ∨ sm.currentState = .failed then (sm, .ok ())
      else sm.transitionIfLegal .failed "user_stopped" "lifecycle_manager" now) ()

def pauseExecution (m : LifecycleManager) (executionId : String) (now : DateTime) :
    LifecycleManager × Except LifecycleError Unit :=
  m.put executionId
    ((m.getStateMachine executionId).transitionIfLegal .paused "user_paused" "lifecycle_manager"
      now) ()

/-- Two transitions in turn, each with its own reading of the clock. -/
def resumeExecution (m : LifecycleManager) (executionId : String) (now later : DateTime) :
    LifecycleManager × Except LifecycleError Unit :=
  m.put executionId
    (match (m.getStateMachine executionId).transitionIfLegal .resuming "user_resumed"
        "lifecycle_manager" now with
      | (sm, .error e) => (sm, .error e)
      | (sm, .ok ()) =>
          sm.transitionIfLegal .running "step_execution_started" "orchestrator" later) ()

def getExecutionStatus (m : LifecycleManager) (executionId : String) :
    LifecycleManager × Except LifecycleError String :=
  let sm := m.getStateMachine executionId
  m.put executionId (sm, .ok ()) sm.currentState.value

def getTransitionHistory (m : LifecycleManager) (executionId : String) :
    LifecycleManager × Except LifecycleError (List TransitionRow) :=
  let sm := m.getStateMachine executionId
  m.put executionId (sm, .ok ()) (sm.history.map fun t =>
    ⟨t.fromState.value, t.toState.value, t.reason, t.actor,
      String.ofList (isoformat t.timestamp)⟩)

end LifecycleManager

inductive Call where
  | startExecution (instanceId goal : String) (found : Except String (Option Payload))
      (now : DateTime)
  | stopExecution (executionId : String) (now : DateTime)
  | pauseExecution (executionId : String) (now : DateTime)
  | resumeExecution (executionId : String) (now later : DateTime)
  | getExecutionStatus (executionId : String)
  | getTransitionHistory (executionId : String)

inductive Answer where
  | executionId (executionId : String)
  | done
  | status (value : String)
  | history (rows : List TransitionRow)

def Call.executionId : Call → String
  | .startExecution instanceId _ _ _ => LifecycleManager.executionIdOf instanceId
  | .stopExecution executionId _ => executionId
  | .pauseExecution executionId _ => executionId
  | .resumeExecution executionId _ _ => executionId
  | .getExecutionStatus executionId => executionId
  | .getTransitionHistory executionId => executionId

def LifecycleManager.handle (m : LifecycleManager) :
    Call → LifecycleManager × Except LifecycleError Answer
  | .startExecution instanceId goal found now =>
      let (m, answer) := m.startExecution instanceId goal found now
      (m, answer.map .executionId)
  | .stopExecution executionId now =>
      let (m, answer) := m.stopExecution executionId now
      (m, answer.map fun _ => .done)
  | .pauseExecution executionId now =>
      let (m, answer) := m.pauseExecution executionId now
      (m, answer.map fun _ => .done)
  | .resumeExecution executionId now later =>
      let (m, answer) := m.resumeExecution executionId now later
      (m, answer.map fun _ => .done)
  | .getExecutionStatus executionId =>
      let (m, answer) := m.getExecutionStatus executionId
      (m, answer.map .status)
  | .getTransitionHistory executionId =>
      let (m, answer) := m.getTransitionHistory executionId
      (m, answer.map .history)

structure Session where
  manager : LifecycleManager := {}
  log : List (Call × Except LifecycleError Answer) := []

def Session.step (s : Session) (call : Call) : Option Session :=
  let (manager, answer) := s.manager.handle call
  some { manager := manager, log := s.log ++ [(call, answer)] }

def Legal (current target : ExecutionStatus) : Prop := target ∈ legalTransitions current

namespace ExecutionStateMachine

def moves (sm : ExecutionStateMachine) : List (ExecutionStatus × ExecutionStatus) :=
  sm.history.map fun t => (t.fromState, t.toState)

def Chained (sm : ExecutionStateMachine) : Prop :=
  Trace.Walk Legal .pending sm.moves sm.currentState

theorem transition_of_illegal {sm : ExecutionStateMachine} {target : ExecutionStatus}
    (illegal : target ∉ legalTransitions sm.currentState) (reason actor : String) (now : DateTime)
    (metadata : Payload) : sm.transition target reason actor now metadata =
      (sm, .error ⟨sm.currentState, target⟩) := by
  simp [transition, canTransition, illegal]

def moved (sm : ExecutionStateMachine) (target : ExecutionStatus) (reason actor : String)
    (now : DateTime) (metadata : Payload) : ExecutionStateMachine where
  currentState := target
  history := sm.history ++ [⟨sm.currentState, target, reason, actor, now, metadata⟩]

/-- The guard is the one that `transition` makes again, so nothing is raised. -/
theorem transitionIfLegal_eq (sm : ExecutionStateMachine) (target : ExecutionStatus)
    (reason actor : String) (now : DateTime) (metadata : Payload) :
    sm.transitionIfLegal target reason actor now metadata =
      (if sm.canTransition target then sm.moved target reason actor now metadata else sm,
        .ok ()) := by
  unfold transitionIfLegal transition
  cases legal : sm.canTransition target <;> simp [moved, Except.map]

theorem Chained.moved {sm : ExecutionStateMachine} (chained : sm.Chained)
    {target : ExecutionStatus} (legal : Legal sm.currentState target) (reason actor : String)
    (now : DateTime) (metadata : Payload) :
    (sm.moved target reason actor now metadata).Chained := by
  have walk := Trace.Walk.snoc chained legal
  simpa [Chained, ExecutionStateMachine.moved, moves] using walk

end ExecutionStateMachine

def nextStatus : Call → ExecutionStatus → ExecutionStatus
  | .startExecution _ _ (.ok (some _)) _, .pending => .running
  | .startExecution _ _ (.ok (some _)) _, .resuming => .running
  | .stopExecution _ _, .completed => .completed
  | .stopExecution _ _, _ => .failed
  | .pauseExecution _ _, .running => .paused
  | .resumeExecution _ _ _, .pending => .running
  | .resumeExecution _ _ _, .paused => .running
  | .resumeExecution _ _ _, .resuming => .running
  | _, current => current

structure Extends (found left : ExecutionStateMachine) : Prop where
  chained : found.Chained → left.Chained
  final : legalTransitions found.currentState = [] → left = found

theorem Extends.refl (sm : ExecutionStateMachine) : Extends sm sm := ⟨id, fun _ => rfl⟩

theorem Extends.trans {first second third : ExecutionStateMachine} (left : Extends first second)
    (right : Extends second third) : Extends first third := by
  refine ⟨fun chained => right.chained (left.chained chained), fun final => ?_⟩
  have same := left.final final
  rw [right.final (same ▸ final), same]

namespace ExecutionStateMachine

theorem transitionIfLegal_extends (sm : ExecutionStateMachine) (target : ExecutionStatus)
    (reason actor : String) (now : DateTime) (metadata : Payload) :
    Extends sm (sm.transitionIfLegal target reason actor now metadata).1 := by
  rw [transitionIfLegal_eq]
  cases legal : sm.canTransition target with
  | false => exact .refl sm
  | true =>
    have allowed : Legal sm.currentState target := by simpa [canTransition, Legal] using legal
    refine ⟨fun chained => chained.moved allowed reason actor now metadata, fun final => ?_⟩
    rw [Legal, final] at allowed
    cases allowed

theorem transitionIfLegal_currentState (sm : ExecutionStateMachine) (target : ExecutionStatus)
    (reason actor : String) (now : DateTime) (metadata : Payload) :
    (sm.transitionIfLegal target reason actor now metadata).1.currentState =
      if target ∈ legalTransitions sm.currentState then target else sm.currentState := by
  rw [transitionIfLegal_eq]
  by_cases legal : target ∈ legalTransitions sm.currentState <;> simp [canTransition, legal, moved]

end ExecutionStateMachine

/-- What a call comes back with: it raises before it touches a machine, or it answers. -/
inductive Handled (m : LifecycleManager) (call : Call) :
    LifecycleManager × Except LifecycleError Answer → Prop where
  | refused (e : LifecycleError) (silent : ∀ error, e ≠ .invalidTransition error)
      (status : ∀ current, nextStatus call current = current) : Handled m call (m, .error e)
  | answered (left : ExecutionStateMachine) (answer : Answer)
      (kept : Extends (m.getStateMachine call.executionId) left)
      (status : left.currentState =
        nextStatus call (m.getStateMachine call.executionId).currentState) :
      Handled m call ({ stateMachines := m.stateMachines.set call.executionId left }, .ok answer)

theorem put_handled {m : LifecycleManager} {call : Call} {α : Type} (answer : α)
    (wrap : α → Answer) {after : ExecutionStateMachine × Except InvalidTransitionError Unit}
    (passed : after.2 = .ok ()) (kept : Extends (m.getStateMachine call.executionId) after.1)
    (status : after.1.currentState =
      nextStatus call (m.getStateMachine call.executionId).currentState) :
    Handled m call ((m.put call.executionId after answer).1,
      (m.put call.executionId after answer).2.map wrap) := by
  obtain ⟨left, outcome⟩ := after
  cases passed
  exact .answered left (wrap answer) kept status

open ExecutionStateMachine LifecycleManager in
theorem handle_handled (m : LifecycleManager) (call : Call) : Handled m call (m.handle call) := by
  have guarded : ∀ sm : ExecutionStateMachine, ∀ target reason actor now metadata,
      (sm.transitionIfLegal target reason actor now metadata).2 = .ok () := by
    intro sm target reason actor now metadata
    rw [transitionIfLegal_eq]
  cases call with
  | startExecution instanceId goal found now =>
    cases found with
    | error text => exact .refused _ (by simp) fun _ => rfl
    | ok found =>
      cases found with
      | none => exact .refused _ (by simp) fun _ => rfl
      | some agent =>
        refine put_handled _ _ (guarded _ _ _ _ _ _) (transitionIfLegal_extends _ _ _ _ _ _) ?_
        rw [transitionIfLegal_currentState]
        simp only [Call.executionId]
        cases (m.getStateMachine (executionIdOf instanceId)).currentState <;> rfl
  | stopExecution id now =>
    refine put_handled _ _ ?_ ?_ ?_
    · split
      · rfl
      · exact guarded _ _ _ _ _ _
    · split
      · exact .refl _
      · exact transitionIfLegal_extends _ _ _ _ _ _
    · simp only [Call.executionId]
      rw [apply_ite Prod.fst, apply_ite ExecutionStateMachine.currentState,
        transitionIfLegal_currentState]
      cases (m.getStateMachine id).currentState <;> rfl
  | pauseExecution id now =>
    refine put_handled _ _ (guarded _ _ _ _ _ _) (transitionIfLegal_extends _ _ _ _ _ _) ?_
    rw [transitionIfLegal_currentState]
    simp only [Call.executionId]
    cases (m.getStateMachine id).currentState <;> rfl
  | resumeExecution id now later =>
    have first := transitionIfLegal_extends (m.getStateMachine id) .resuming "user_resumed"
      "lifecycle_manager" now []
    have moved := transitionIfLegal_currentState (m.getStateMachine id) .resuming "user_resumed"
      "lifecycle_manager" now []
    have passed := guarded (m.getStateMachine id) .resuming "user_resumed" "lifecycle_manager"
      now []
    simp only [LifecycleManager.handle, resumeExecution]
    generalize (m.getStateMachine id).transitionIfLegal .resuming "user_resumed"
      "lifecycle_manager" now = halfway at first moved passed
    obtain ⟨sm, outcome⟩ := halfway
    cases passed
    refine put_handled _ _ (guarded _ _ _ _ _ _)
      (first.trans (transitionIfLegal_extends _ _ _ _ _ _)) ?_
    rw [transitionIfLegal_currentState, moved]
    simp only [Call.executionId]
    cases (m.getStateMachine id).currentState <;> rfl
  | getExecutionStatus id => exact put_handled _ _ rfl (.refl _) rfl
  | getTransitionHistory id => exact put_handled _ _ rfl (.refl _) rfl

namespace Session

/-- The status that `get_execution_status` would report. -/
def statusOf (s : Session) (executionId : String) : ExecutionStatus :=
  (s.manager.getStateMachine executionId).currentState

theorem step_handled {s t : Session} {call : Call} (stepped : s.step call = some t) :
    ∃ answer, t.log = s.log ++ [(call, answer)] ∧ Handled s.manager call (t.manager, answer) := by
  cases stepped
  exact ⟨_, rfl, handle_handled s.manager call⟩

theorem step_statusOf {s t : Session} {call : Call} (stepped : s.step call = some t)
    (executionId : String) : t.statusOf executionId =
      if executionId = call.executionId then nextStatus call (s.statusOf executionId)
      else s.statusOf executionId := by
  obtain ⟨answer, _, handled⟩ := step_handled stepped
  unfold statusOf
  generalize t.manager = m at handled
  cases handled with
  | refused e silent status => simp [status]
  | answered left answer kept status =>
    by_cases own : executionId = call.executionId
    · subst own
      simpa [LifecycleManager.getStateMachine] using status
    · simp [LifecycleManager.getStateMachine, Dict.get_set, own]

/-- Every history is a chain of legal transitions, nothing rests in `RESUMING`, and no
call has raised an `InvalidTransitionError`. -/
structure Sound (s : Session) : Prop where
  chained : ∀ executionId sm, s.manager.stateMachines.get executionId = some sm → sm.Chained
  settled : ∀ executionId, s.statusOf executionId ≠ .resuming
  silent : ∀ call answer, (call, answer) ∈ s.log → ∀ e, answer ≠ .error (.invalidTransition e)

/-- A call leaves the other executions alone, and a completed or failed one entirely. -/
def Contained (_ : List Call) (s : Session) (call : Call) : Prop :=
  ∀ t, s.step call = some t → ∀ executionId,
    (executionId ≠ call.executionId →
      t.manager.stateMachines.get executionId = s.manager.stateMachines.get executionId) ∧
    (s.statusOf executionId = .completed ∨ s.statusOf executionId = .failed →
      t.manager.getStateMachine executionId = s.manager.getStateMachine executionId)

theorem getStateMachine_chained {s : Session} (sound : s.Sound) (executionId : String) :
    (s.manager.getStateMachine executionId).Chained := by
  unfold LifecycleManager.getStateMachine
  cases stored : s.manager.stateMachines.get executionId with
  | none => rfl
  | some sm => exact sound.chained executionId sm stored

theorem nextStatus_ne_resuming (call : Call) {current : ExecutionStatus}
    (settled : current ≠ .resuming) : nextStatus call current ≠ .resuming := by
  unfold nextStatus
  split <;> simp_all

theorem step_sound {s t : Session} {call : Call} (sound : s.Sound)
    (stepped : s.step call = some t) : t.Sound := by
  obtain ⟨answer, logged, handled⟩ := step_handled stepped
  refine ⟨?_, ?_, ?_⟩
  · intro executionId sm stored
    generalize t.manager = m at handled stored
    cases handled with
    | refused => exact sound.chained executionId sm stored
    | answered left answer kept status =>
      have new := kept.chained (getStateMachine_chained sound _)
      exact Dict.forall_set sound.chained new executionId sm stored
  · intro executionId
    rw [step_statusOf stepped]
    split
    · exact nextStatus_ne_resuming call (sound.settled executionId)
    · exact sound.settled executionId
  · intro earlier came member e
    rw [logged, List.mem_append, List.mem_singleton] at member
    cases member with
    | inl old => exact sound.silent earlier came old e
    | inr new =>
      cases new
      generalize t.manager = m at handled
      cases handled with
      | refused e' silent => exact fun same => silent e (Except.error.inj same)
      | answered => simp

theorem step_contained (past : List Call) (s : Session) (call : Call) :
    Contained past s call := by
  intro t stepped executionId
  obtain ⟨answer, _, handled⟩ := step_handled stepped
  unfold statusOf
  generalize t.manager = m at handled
  cases handled with
  | refused => exact ⟨fun _ => rfl, fun _ => rfl⟩
  | answered left answer kept status =>
    refine ⟨fun other => by simp [Dict.get_set, other], fun final => ?_⟩
    by_cases own : executionId = call.executionId
    · subst own
      have same := kept.final (by rcases final with final | final <;> rw [final] <;> rfl)
      simpa [LifecycleManager.getStateMachine] using same
    · simp [LifecycleManager.getStateMachine, Dict.get_set, own]

/-- Every run of the manager, and every machine whatever state it was created in. -/
theorem lifecycle_sound (calls : List Call) :
    Trace.AllStates step Sound {} calls ∧ Trace.EachStep step Contained [] {} calls ∧
      ∀ (sm : ExecutionStateMachine) (target : ExecutionStatus) (reason actor : String)
        (now : DateTime) (metadata : Payload), target ∉ legalTransitions sm.currentState →
          sm.transition target reason actor now metadata =
            (sm, .error ⟨sm.currentState, target⟩) := by
  have fresh : Sound {} := by
    refine ⟨?_, ?_, ?_⟩ <;> simp [statusOf, LifecycleManager.getStateMachine]
  refine ⟨?_, ?_, ?_⟩
  · exact Trace.allStates_of_keeps (fun _ _ _ _ sound stepped => step_sound sound stepped) fresh
  · exact Trace.eachStep_of_forall fun call _ past s => step_contained past s call
  · intro sm target reason actor now metadata illegal
    exact ExecutionStateMachine.transition_of_illegal illegal reason actor now metadata

/-- `start_execution` found a registered instance and returned this execution id. -/
def Started (s : Session) (executionId : String) : Prop :=
  ∃ instanceId goal agent now, (.startExecution instanceId goal (.ok (some agent)) now,
    .ok (.executionId executionId)) ∈ s.log

def StartedFirst (s : Session) : Prop :=
  ∀ executionId, s.statusOf executionId = .running → s.Started executionId

/-- An execution is only resumed when its status is not `PENDING`. -/
def ResumesBegun (_ : List Call) (s : Session) : Call → Prop
  | .resumeExecution executionId _ _ => s.statusOf executionId ≠ .pending
  | _ => True

def starts : Call → Option String
  | .startExecution instanceId _ (.ok (some _)) _ =>
      some (LifecycleManager.executionIdOf instanceId)
  | _ => none

theorem handle_startExecution (m : LifecycleManager) (instanceId goal : String) (agent : Payload)
    (now : DateTime) : (m.handle (.startExecution instanceId goal (.ok (some agent)) now)).2 =
      .ok (.executionId (LifecycleManager.executionIdOf instanceId)) := by
  simp only [LifecycleManager.handle, LifecycleManager.startExecution, LifecycleManager.put]
  rw [ExecutionStateMachine.transitionIfLegal_eq]
  rfl

theorem step_started {s t : Session} {call : Call} (stepped : s.step call = some t)
    (executionId : String) :
    t.Started executionId ↔ s.Started executionId ∨ starts call = some executionId := by
  have logged : t.log = s.log ++ [(call, (s.manager.handle call).2)] := by
    cases stepped
    rfl
  simp only [Started, logged, List.mem_append, List.mem_singleton, Prod.mk.injEq, exists_or]
  refine or_congr_right ?_
  constructor
  · rintro ⟨instanceId, goal, agent, now, rfl, answered⟩
    rw [handle_startExecution] at answered
    cases answered
    rfl
  · unfold starts
    split
    next instanceId goal agent now =>
      rintro ⟨⟩
      exact ⟨instanceId, goal, agent, now, rfl, (handle_startExecution _ _ _ _ _).symm⟩
    next =>
      intro same
      cases same

/-- A started execution never becomes `PENDING` again. -/
def Begun (_ : List Call) (s : Session) : Prop :=
  ∀ executionId, s.Started executionId → s.statusOf executionId ≠ .pending

theorem nextStatus_ne_pending {call : Call} {current : ExecutionStatus}
    (begun : current ≠ .pending ∨ (starts call).isSome = true) :
    nextStatus call current ≠ .pending := by
  cases call with
  | startExecution instanceId goal found now =>
    rcases found with text | _ | agent <;> cases current <;> simp_all [nextStatus, starts]
  | _ => cases current <;> simp_all [nextStatus, starts]

theorem starts_executionId {call : Call} {executionId : String}
    (started : starts call = some executionId) : executionId = call.executionId := by
  unfold starts at started
  split at started
  · exact (Option.some.inj started).symm
  · cases started

theorem step_begun {past : List Call} {s t : Session} {call : Call} (begun : Begun past s)
    (stepped : s.step call = some t) : Begun (call :: past) t := by
  intro executionId started
  rw [step_statusOf stepped]
  cases (step_started stepped executionId).mp started with
  | inl before =>
    split
    · exact nextStatus_ne_pending (.inl (begun executionId before))
    · exact begun executionId before
  | inr now =>
    rw [if_pos (starts_executionId now)]
    exact nextStatus_ne_pending (.inr (by simp [now]))

/-- Whatever is neither untouched nor failed has been started. -/
def LiveStarted (s : Session) : Prop :=
  ∀ executionId, s.statusOf executionId ≠ .pending → s.statusOf executionId ≠ .failed →
    s.Started executionId

theorem step_liveStarted {past : List Call} {s t : Session} {call : Call} (live : s.LiveStarted)
    (clean : ResumesBegun past s call) (stepped : s.step call = some t) : t.LiveStarted := by
  intro executionId notPending notFailed
  rw [step_statusOf stepped] at notPending notFailed
  rw [step_started stepped]
  by_cases own : executionId = call.executionId
  · subst own
    rw [if_pos rfl] at notPending notFailed
    by_cases untouched : s.statusOf call.executionId = .pending
    · right
      cases call with
      | startExecution instanceId goal found now =>
        rcases found with text | _ | agent
        · exact absurd untouched notPending
        · exact absurd untouched notPending
        · rfl
      | resumeExecution => exact absurd untouched clean
      | stopExecution => simp [untouched, nextStatus] at notFailed
      | pauseExecution => simp [untouched, nextStatus] at notPending
      | getExecutionStatus => exact absurd untouched notPending
      | getTransitionHistory => exact absurd untouched notPending
    · refine .inl (live _ untouched fun failed => ?_)
      rw [failed] at notFailed
      refine notFailed ?_
      cases call with
      | startExecution instanceId goal found now => rcases found with text | _ | agent <;> rfl
      | _ => rfl
  · rw [if_neg own] at notPending notFailed
    exact .inl (live executionId notPending notFailed)

theorem run_isSome (calls : List Call) (s : Session) : ∃ t, Trace.run step s calls = some t :=
  Trace.run_isSome (fun _ _ => ⟨_, rfl⟩) s calls

/-- In every state of a run the `RUNNING` executions have been started exactly when no
resumption hits an execution that is still `PENDING`. -/
theorem startedFirst_iff_resumesBegun (calls : List Call) :
    Trace.AllStates step StartedFirst {} calls ↔ Trace.EachStep step ResumesBegun [] {} calls := by
  obtain ⟨last, ran⟩ := run_isSome calls {}
  constructor
  · refine Trace.eachStep_of_allStates (I := Begun) (fun _ _ _ _ => step_begun) ?_
      (by simp [Begun, Started]) ran
    intro past s call t begun stepped first
    cases call with
    | resumeExecution executionId now later =>
      intro untouched
      have running : t.statusOf executionId = .running := by
        rw [step_statusOf stepped, if_pos (by rfl), untouched]
        rfl
      have started := (step_started stepped executionId).mp (first executionId running)
      exact begun executionId (by simpa [starts] using started) untouched
    | _ => trivial
  · intro clean
    have fresh : LiveStarted {} := fun _ notPending => absurd rfl notPending
    have all : Trace.AllStates step LiveStarted {} calls := by
      refine Trace.allStates_of_eachStep ?_ fresh clean
      exact fun _ _ _ _ live clean stepped => step_liveStarted live clean stepped
    refine all.mono fun s live executionId running => live executionId ?_ ?_ <;> simp [running]

/-- Resuming an execution that nobody started brings it to `RUNNING`. -/
theorem resumed_unstarted :
    ¬ Trace.AllStates step StartedFirst {} [.resumeExecution "exec-1" epoch epoch] := by
  intro all
  have running := (all.2 _ rfl) "exec-1" (by decide +kernel)
  simp [Started] at running

/-- Whatever execution the call returns is reported as `RUNNING` right after it. -/
def StartsRunning (s : Session) (instanceId goal : String) (found : Except String (Option Payload))
    (now : DateTime) : Prop :=
  ∀ executionId, (s.manager.startExecution instanceId goal found now).2.toOption = some executionId →
    ((s.manager.startExecution instanceId goal found now).1.getExecutionStatus executionId).2.toOption =
      some "RUNNING"

theorem status_running_iff (m : LifecycleManager) (executionId : String) :
    (m.getExecutionStatus executionId).2.toOption = some "RUNNING" ↔
      (m.getStateMachine executionId).currentState = .running := by
  simp only [LifecycleManager.getExecutionStatus, LifecycleManager.put, Except.toOption,
    Option.some.injEq]
  cases (m.getStateMachine executionId).currentState <;> decide

/-- A registered instance is started where its execution is new or running already. -/
theorem startsRunning_iff {calls : List Call} {s : Session}
    (ran : Trace.run step {} calls = some s) (instanceId goal : String)
    (found : Except String (Option Payload)) (now : DateTime) :
    s.StartsRunning instanceId goal found now ↔ ∀ agent, found = .ok (some agent) →
      s.statusOf (LifecycleManager.executionIdOf instanceId) = .pending ∨
        s.statusOf (LifecycleManager.executionIdOf instanceId) = .running := by
  have settled := ((lifecycle_sound calls).1.last ran).settled
    (LifecycleManager.executionIdOf instanceId)
  unfold StartsRunning
  rcases found with text | _ | agent
  · simp [LifecycleManager.startExecution, Except.toOption]
  · simp [LifecycleManager.startExecution, Except.toOption]
  · have answered : (s.manager.startExecution instanceId goal (.ok (some agent)) now).2.toOption =
        some (LifecycleManager.executionIdOf instanceId) := by
      simp only [LifecycleManager.startExecution, LifecycleManager.put]
      rw [ExecutionStateMachine.transitionIfLegal_eq]
      rfl
    have moved : ((s.manager.startExecution instanceId goal (.ok (some agent)) now).1.getStateMachine
        (LifecycleManager.executionIdOf instanceId)).currentState =
          nextStatus (.startExecution instanceId goal (.ok (some agent)) now)
            (s.statusOf (LifecycleManager.executionIdOf instanceId)) :=
      (@step_statusOf s _ (.startExecution instanceId goal (.ok (some agent)) now) rfl
        (LifecycleManager.executionIdOf instanceId)).trans (if_pos rfl)
    simp only [answered, Option.some.injEq, forall_eq', status_running_iff, moved, Except.ok.injEq]
    cases current : s.statusOf (LifecycleManager.executionIdOf instanceId) with
    | resuming => exact absurd current settled
    | _ => simp [nextStatus]

/-- A registered instance whose execution runs is started again. -/
theorem startsRunning_iff_again :
    ∃ s, Trace.run step {} [.startExecution "inst-1" "report" (.ok (some [])) epoch] = some s ∧
      (s.StartsRunning "inst-1" "report" (.ok (some [])) epoch ↔
        ∀ agent, (.ok (some []) : Except String (Option Payload)) = .ok (some agent) →
          s.statusOf (LifecycleManager.executionIdOf "inst-1") = .pending ∨
            s.statusOf (LifecycleManager.executionIdOf "inst-1") = .running) := by
  obtain ⟨s, ran⟩ := run_isSome [.startExecution "inst-1" "report" (.ok (some [])) epoch] {}
  exact ⟨s, ran, startsRunning_iff ran "inst-1" "report" (.ok (some [])) epoch⟩

/-- An execution that was stopped is handed back as a new one, and it is `FAILED`. -/
theorem stopped_restarted :
    ∃ s, Trace.run step {} [.startExecution "inst-1" "report" (.ok (some [])) epoch,
        .stopExecution "exec-inst-1" epoch] = some s ∧
      ¬ s.StartsRunning "inst-1" "report" (.ok (some [])) epoch := by
  obtain ⟨s, ran⟩ := run_isSome [.startExecution "inst-1" "report" (.ok (some [])) epoch,
    .stopExecution "exec-inst-1" epoch] {}
  refine ⟨s, ran, fun running => ?_⟩
  have reported := running "exec-inst-1"
  cases ran
  revert reported
  decide +kernel

end Session

end Kitematic.ExecutionLifecycle

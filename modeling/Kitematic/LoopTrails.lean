import Kitematic.LoopRuns

/-! The event log of a `run_intent` call. The budget check asks first whether any limit is
reached, the time included, so a timeout is told from an exhausted budget only when it
passes between two readings of the clock. The log is a local of the call, and the
controller gives back an empty one. -/

namespace Kitematic.LoopTrails
open Dictionary Lifecycle LoopRuns RuntimeAbi State

def startedEvent (intent : Intent) : LoopEvent where
  eventType := .loopStarted
  state := .created
  stepNumber := 1
  metadata := .intent intent.agentId intent.action

inductive Opening (c : LoopController) (intent : Intent) (executionId : String)
    (clock : BudgetClock) : LoopController × EventLog × Option LoopResult → Prop where
  | refused (result : LoopResult) (stopped : c.state ≠ .running)
      (reason : result.terminationReason = .exception) :
      Opening c intent executionId clock (c, ⟨executionId, []⟩, some result)
  | handed (c' : LoopController) (checked : LoopEvent) (running : c.state = .running)
      (room : (c.budget.start clock.start).isExhausted clock.exhausted = false)
      (intime : (c.budget.start clock.start).isTimeout clock.timeout = false) :
      Opening c intent executionId clock
        (c', ⟨executionId, [startedEvent intent, checked]⟩, none)
  | exhausted (c' : LoopController) (last : LoopEvent) (result : LoopResult)
      (running : c.state = .running)
      (spent : (c.budget.start clock.start).isExhausted clock.exhausted = true)
      (kind : last.eventType = .budgetExhausted)
      (reason : result.terminationReason = .budgetExhausted)
      (named : result.executionId = executionId) :
      Opening c intent executionId clock
        (c', ⟨executionId, [startedEvent intent, last]⟩, some result)
  | timeout (c' : LoopController) (last : LoopEvent) (result : LoopResult)
      (running : c.state = .running)
      (room : (c.budget.start clock.start).isExhausted clock.exhausted = false)
      (late : (c.budget.start clock.start).isTimeout clock.timeout = true)
      (kind : last.eventType = .timeoutOccurred) (reason : result.terminationReason = .timeout)
      (named : result.executionId = executionId) :
      Opening c intent executionId clock
        (c', ⟨executionId, [startedEvent intent, last]⟩, some result)

theorem runIntent_opening (c : LoopController) (intent : Intent) (executionId : String)
    (clock : BudgetClock) :
    Opening c intent executionId clock (c.runIntent intent executionId clock) := by
  unfold LoopController.runIntent
  by_cases running : c.state = .running
  · simp only [running, ne_eq, not_true_eq_false, if_false, LoopController.checkBudget]
    cases exhausted : (c.budget.start clock.start).isExhausted clock.exhausted with
    | true => exact .exhausted _ _ _ running exhausted rfl rfl rfl
    | false =>
      cases late : (c.budget.start clock.start).isTimeout clock.timeout with
      | true => exact .timeout _ _ _ running exhausted late rfl rfl rfl
      | false => exact .handed _ _ running exhausted late
  · simp only [ne_eq, running, not_false_eq_true, if_true]
    exact .refused _ running rfl

/-- The step limit or the token limit. -/
def LimitReached (b : ExecutionBudget) : Prop :=
  b.isStepsExhausted = true ∨ b.isTokensExhausted = true

theorem isExhausted_iff (b : ExecutionBudget) (now : ℚ) :
    b.isExhausted now = true ↔ LimitReached b ∨ b.isTimeout now = true := by
  simp [ExecutionBudget.isExhausted, LimitReached]

/-- The check reads the clock at most twice. -/
def Overdue (b : ExecutionBudget) (clock : BudgetClock) : Prop :=
  b.isTimeout clock.exhausted = true ∨ b.isTimeout clock.timeout = true

/-- A run that the budget check stopped names the limit that was hit. -/
structure NamesLimit (b : ExecutionBudget) (clock : BudgetClock) (log : EventLog)
    (result : LoopResult) : Prop where
  late : ¬ LimitReached b → Overdue b clock → result.terminationReason = .timeout ∧
    log.events.getLast?.map LoopEvent.eventType = some .timeoutOccurred
  spent : result.terminationReason = .budgetExhausted → LimitReached b

/-- Only the time is up at the first reading of the clock. -/
def OnlyLate (b : ExecutionBudget) (clock : BudgetClock) : Prop :=
  ¬ LimitReached b ∧ b.isTimeout clock.exhausted = true

/-- The call names the limit when the check stops it. -/
def StopNamesLimit (c : LoopController) (intent : Intent) (executionId : String)
    (clock : BudgetClock) : Prop :=
  ∀ c' log result, c.state = .running →
    c.runIntent intent executionId clock = (c', log, some result) →
      NamesLimit (c.budget.start clock.start) clock log result

/-- The limit is named exactly when the time is not yet up at the first reading of the
clock, or another limit is reached as well. -/
theorem stopNamesLimit_iff (c : LoopController) (intent : Intent) (executionId : String)
    (clock : BudgetClock) :
    StopNamesLimit c intent executionId clock ↔
      (c.state = .running → ¬ OnlyLate (c.budget.start clock.start) clock) := by
  unfold StopNamesLimit
  have opening := runIntent_opening c intent executionId clock
  generalize c.runIntent intent executionId clock = came at opening
  refine ⟨fun names running only => ?_, fun clean c' log result running same => ?_⟩
  · have spent := (isExhausted_iff _ _).mpr (.inr only.2)
    cases opening with
    | refused result stopped => exact stopped running
    | handed c' checked _ room => simp [room] at spent
    | timeout c' last result _ room => simp [room] at spent
    | exhausted c' last result _ _ _ reason =>
      exact only.1 ((names _ _ _ running rfl).spent reason)
  · subst same
    cases opening with
    | refused _ stopped => exact absurd running stopped
    | exhausted _ last _ _ spent kind reason =>
      have reached : LimitReached (c.budget.start clock.start) := by
        by_contra remain
        exact clean running ⟨remain, ((isExhausted_iff _ _).mp spent).resolve_left remain⟩
      exact ⟨fun remain => absurd reached remain, fun _ => reached⟩
    | timeout _ last _ _ room late kind reason =>
      exact ⟨fun _ _ => ⟨reason, by simp [kind]⟩, fun other => by rw [reason] at other; cases other⟩

/-- A budget of an hour with nothing spent, a second too late. -/
theorem timeout_misnamed :
    ¬ StopNamesLimit { budget := { startedAt := some 0 } } ⟨"agent", "tool.read", []⟩ "loop-1"
      ⟨3601, 3601, 3601, 3601⟩ := by
  intro names
  have opening := runIntent_opening { budget := { startedAt := some 0 } }
    ⟨"agent", "tool.read", []⟩ "loop-1" ⟨3601, 3601, 3601, 3601⟩
  have late : ExecutionBudget.isExhausted { startedAt := some 0 } 3601 = true := by
    decide +kernel
  generalize came : LoopController.runIntent _ _ _ _ = after at opening
  cases opening with
  | refused _ stopped => exact stopped rfl
  | handed _ _ _ room => exact Bool.false_ne_true (room.symm.trans late)
  | timeout _ _ _ _ room => exact Bool.false_ne_true (room.symm.trans late)
  | exhausted _ _ _ _ _ _ reason =>
    have reached := (names _ _ _ rfl came).spent reason
    simp [LimitReached, ExecutionBudget.isStepsExhausted, ExecutionBudget.isTokensExhausted,
      ExecutionBudget.start] at reached

structure Holds (W : Waiting → Prop) (F : Finished → Prop) (l : Loop) : Prop where
  waiting : ∀ call w, l.waiting.get call = some w → W w
  finished : ∀ f ∈ l.finished, F f

structure Establishes (W : Waiting → Prop) (F : Finished → Prop) : Prop where
  handed : ∀ (c c' : LoopController) intent executionId clock log steps generation,
    c.runIntent intent executionId clock = (c', log, none) →
      W ⟨⟨executionId, log⟩, steps, generation⟩
  stopped : ∀ (c c' : LoopController) intent executionId clock log result,
    c.runIntent intent executionId clock = (c', log, some result) → F ⟨none, result, log⟩
  ended : ∀ (c c' : LoopController) w outcome now log result, W w →
    c.finishRun w.run outcome now = (c', log, result) → F ⟨some outcome, result, log⟩

section runs
variable {W : Waiting → Prop} {F : Finished → Prop} {l t : Loop}

theorem Holds.append (holds : Holds W F l) {f : Finished} (new : F f) :
    ∀ g ∈ l.finished ++ [f], F g := by
  intro g member
  cases List.mem_append.mp member with
  | inl old => exact holds.finished g old
  | inr last => exact List.mem_singleton.mp last ▸ new

theorem Holds.begin (holds : Holds W F l) (establishes : Establishes W F) (call : Nat)
    (steps : Option (List LoopResult × List Intent)) (intent : Intent) (executionId : String)
    (clock : BudgetClock) : Holds W F (l.begin call steps intent executionId clock) := by
  unfold Loop.begin
  split
  next c log came =>
    have new := establishes.handed _ _ _ _ _ _ steps l.generation came
    exact ⟨Dict.forall_set holds.waiting new, holds.finished⟩
  next c log result came =>
    have finished := holds.append (establishes.stopped _ _ _ _ _ _ _ came)
    cases steps with
    | none => exact ⟨holds.waiting, finished⟩
    | some _ => exact ⟨holds.waiting, finished⟩

theorem Holds.nextStep (holds : Holds W F l) (establishes : Establishes W F) (call : Nat)
    (results : List LoopResult) (intents : List Intent) (pass : Pass) :
    Holds W F (l.nextStep call results intents pass) := by
  cases intents with
  | nil => exact ⟨holds.waiting, holds.finished⟩
  | cons intent rest =>
    unfold Loop.nextStep
    simp only
    split
    · exact ⟨holds.waiting, holds.finished⟩
    · exact holds.begin establishes call _ intent _ _

theorem Holds.resume (holds : Holds W F l) (establishes : Establishes W F) {call : Nat}
    {outcome : Except String ExecutionResult} {now : ℚ} {pass : Pass}
    (resumed : l.resume call outcome now pass = some t) : Holds W F t := by
  obtain ⟨w, found, rfl⟩ := Option.map_eq_some_iff.mp resumed
  have booked : Holds W F (l.book call w outcome now).1 :=
    ⟨Dict.forall_erase holds.waiting call, holds.append
      (establishes.ended _ _ w _ _ _ _ (holds.waiting call w found) rfl)⟩
  generalize l.book call w outcome now = after at booked ⊢
  obtain ⟨after, result⟩ := after
  cases steps : w.steps with
  | none => exact booked
  | some steps =>
    simp only
    split
    · exact booked.nextStep establishes call _ _ pass
    · exact ⟨booked.waiting, booked.finished⟩

/-- The rule for the logs: what `run_intent` establishes, every step of the loop keeps. -/
theorem Holds.step (holds : Holds W F l) (establishes : Establishes W F) {action : Action}
    (stepped : l.step action = some t) : Holds W F t := by
  cases action with
  | runIntent call intent executionId clock =>
    simp only [Loop.step, Option.ite_none_left_eq_some, Option.some.injEq] at stepped
    exact stepped.2 ▸ holds.begin establishes call none intent executionId clock
  | runMultiStep call intents pass =>
    simp only [Loop.step, Option.ite_none_left_eq_some, Option.some.injEq] at stepped
    exact stepped.2 ▸ holds.nextStep establishes call [] intents pass
  | resume call outcome now pass => exact holds.resume establishes stepped
  | cancel call =>
    obtain ⟨w, -, rfl⟩ := Option.map_eq_some_iff.mp stepped
    exact ⟨Dict.forall_erase holds.waiting call, holds.finished⟩
  | shutdown =>
    cases stepped
    exact ⟨holds.waiting, holds.finished⟩
  | reset =>
    cases stepped
    exact ⟨holds.waiting, holds.finished⟩

theorem Holds.run (establishes : Establishes W F) (c : LoopController) {actions : List Action}
    (ran : Trace.run Loop.step { controller := c } actions = some t) : Holds W F t := by
  refine Trace.run_invariant (I := Holds W F) ?_ ⟨by simp, by simp⟩ ran
  exact fun _ _ _ _ holds stepped => holds.step establishes stepped

end runs

/-- The log of a run has its first event. -/
def Started (log : EventLog) : Prop :=
  ∃ intent rest, log.events = startedEvent intent :: rest

theorem Started.emit {log : EventLog} (started : Started log) (eventType : EventType)
    (state : ExecutionState) (metadata : EventMetadata) (error : Option String) :
    Started (log.emit eventType state metadata error) := by
  obtain ⟨intent, rest, events⟩ := started
  refine ⟨intent, rest ++ [⟨eventType, state, log.events.length + 1, metadata, error⟩], ?_⟩
  simp [EventLog.emit, events]

/-- The log of a run ends with a terminal event. -/
def Terminated (log : EventLog) : Prop :=
  ∃ before last, log.events = before ++ [last] ∧ isTerminal last.eventType = true

/-- `run_intent` found the loop running: a stopped loop is the only one that returns
`EXCEPTION` without an execution. -/
def PassedRunningCheck (f : Finished) : Prop :=
  f.outcome ≠ none ∨ f.result.terminationReason ≠ .exception

theorem passedRunningCheck_iff {c c' : LoopController} {intent : Intent} {executionId : String}
    {clock : BudgetClock} {log : EventLog} {result : LoopResult}
    (came : c.runIntent intent executionId clock = (c', log, some result)) :
    PassedRunningCheck ⟨none, result, log⟩ ↔ c.state = .running := by
  have opening := runIntent_opening c intent executionId clock
  rw [came] at opening
  cases opening with
  | refused _ stopped reason => simp [PassedRunningCheck, reason, stopped]
  | exhausted _ _ _ running _ _ reason => simp [PassedRunningCheck, reason, running]
  | timeout _ _ _ running _ _ _ reason => simp [PassedRunningCheck, reason, running]

/-- The trail of a run, under the id of its result. -/
structure IsTrail (f : Finished) : Prop where
  started : Started f.eventLog
  terminated : Terminated f.eventLog
  named : f.eventLog.executionId = f.result.executionId

theorem finishRun_trail {c c' : LoopController} {run : LoopRun}
    {outcome : Except String ExecutionResult} {now : ℚ} {log : EventLog} {result : LoopResult}
    (started : Started run.eventLog) (named : run.eventLog.executionId = run.executionId)
    (ended : c.finishRun run outcome now = (c', log, result)) :
    IsTrail ⟨some outcome, result, log⟩ := by
  have last : ∀ (log : EventLog) (eventType : EventType) state metadata error,
      isTerminal eventType = true → Terminated (log.emit eventType state metadata error) :=
    fun log _ _ _ _ kind => ⟨log.events, _, rfl, kind⟩
  unfold LoopController.finishRun LoopController.haltRun at ended
  split at ended
  · cases ended
    exact ⟨started.emit _ _ _ _, last _ _ _ _ _ rfl, named⟩
  next returned =>
    cases won : returned.success with
    | true =>
      simp only [won, if_true] at ended
      split at ended
      · cases ended
        exact ⟨((started.emit _ _ _ _).emit _ _ _ _).emit _ _ _ _, last _ _ _ _ _ rfl, named⟩
      · cases ended
        exact ⟨(started.emit _ _ _ _).emit _ _ _ _, last _ _ _ _ _ rfl, named⟩
    | false =>
      simp only [won, Bool.false_eq_true, if_false] at ended
      split at ended
      · cases ended
        exact ⟨(started.emit _ _ _ _).emit _ _ _ _, last _ _ _ _ _ rfl, named⟩
      · cases ended
        exact ⟨started.emit _ _ _ _, last _ _ _ _ _ rfl, named⟩

def Writing (w : Waiting) : Prop :=
  Started w.run.eventLog ∧ w.run.eventLog.executionId = w.run.executionId

theorem establishes_trail : Establishes Writing fun f => PassedRunningCheck f → IsTrail f where
  handed c c' intent executionId clock log steps generation came := by
    have opening := runIntent_opening c intent executionId clock
    rw [came] at opening
    cases opening with
    | handed c' checked => exact ⟨⟨intent, [checked], rfl⟩, rfl⟩
  stopped c c' intent executionId clock log result came passed := by
    have running := (passedRunningCheck_iff came).mp passed
    have opening := runIntent_opening c intent executionId clock
    rw [came] at opening
    cases opening with
    | refused _ stopped => exact absurd running stopped
    | exhausted _ last _ _ _ kind _ named =>
      exact ⟨⟨intent, [last], rfl⟩, ⟨[_], last, rfl, by simp [kind, isTerminal]⟩, named.symm⟩
    | timeout _ last _ _ _ _ kind _ named =>
      exact ⟨⟨intent, [last], rfl⟩, ⟨[_], last, rfl, by simp [kind, isTerminal]⟩, named.symm⟩
  ended c c' w outcome now log result writing ended _ :=
    finishRun_trail writing.1 writing.2 ended

def getEventLog (_ : LoopController) (executionId : String) : EventLog :=
  { executionId := executionId }

/-- The controller gives back what the run wrote. -/
def Recovered (c : LoopController) (f : Finished) : Prop :=
  (getEventLog c f.result.executionId).events = f.eventLog.events

/-- Every run that passed the running check has written a trail, and none is given back. -/
theorem trails_lost (c : LoopController) {actions : List Action} {l : Loop}
    (ran : Trace.run Loop.step { controller := c } actions = some l) {f : Finished}
    (member : f ∈ l.finished) (passed : PassedRunningCheck f) :
    IsTrail f ∧ ¬ Recovered l.controller f := by
  have trail := (Holds.run establishes_trail c ran).finished f member passed
  refine ⟨trail, fun recovered => ?_⟩
  obtain ⟨intent, rest, events⟩ := trail.started
  rw [Recovered, events] at recovered
  cases recovered

def freshLoop : Loop := { controller := { budget := {} } }

theorem trails_lost_once :
    ∃ l f, Trace.run Loop.step freshLoop (Loop.oneRun 5) = some l ∧ f ∈ l.finished ∧
      PassedRunningCheck f ∧ IsTrail f ∧ ¬ Recovered l.controller f := by
  obtain ⟨l, ran⟩ : ∃ l, Trace.run Loop.step freshLoop (Loop.oneRun 5) = some l :=
    Option.isSome_iff_exists.mp (by decide +kernel)
  have seen : (Trace.run Loop.step freshLoop (Loop.oneRun 5)).all
      (fun l => l.finished.any fun f => f.outcome.isSome) = true := by decide +kernel
  rw [ran, Option.all_some, List.any_eq_true] at seen
  obtain ⟨f, member, came⟩ := seen
  have passed : PassedRunningCheck f := .inl (Option.isSome_iff_ne_none.mp came)
  exact ⟨l, f, ran, member, passed, trails_lost { budget := {} } ran member passed⟩

/-- The log of a single successful run. -/
theorem completed_run_lost :
    ∃ l, Trace.run Loop.step freshLoop (Loop.oneRun 5) = some l ∧
      ¬ ∀ f ∈ l.finished, PassedRunningCheck f → Recovered l.controller f := by
  obtain ⟨l, ran⟩ : ∃ l, Trace.run Loop.step freshLoop (Loop.oneRun 5) = some l :=
    Option.isSome_iff_exists.mp (by decide +kernel)
  have seen : (Trace.run Loop.step freshLoop (Loop.oneRun 5)).all (fun l =>
      l.finished.any fun f => f.outcome.isSome && f.eventLog.events.length = 4) = true := by
    decide +kernel
  rw [ran, Option.all_some, List.any_eq_true] at seen
  obtain ⟨f, member, came⟩ := seen
  simp only [Bool.and_eq_true, decide_eq_true_eq] at came
  refine ⟨l, ran, fun recovered => ?_⟩
  have same := recovered f member (.inl (Option.isSome_iff_ne_none.mp came.1))
  rw [← same] at came
  cases came.2

end Kitematic.LoopTrails

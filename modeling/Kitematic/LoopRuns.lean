import Kitematic.Dict
import Kitematic.Lifecycle
import Kitematic.Trace

/-! Any number of `run_intent` and `run_multi_step` calls on one loop controller,
interleaved where they wait for `execute_intent`. The runtime may answer anything,
so an answer is an input here. What a finished run reports is compared with what
its execution returned. -/

namespace Kitematic.LoopRuns
open Dictionary Lifecycle RuntimeAbi State

/-- A `run_intent` call that waits for the runtime. `steps` are the results so far
and the intents left of the `run_multi_step` call it belongs to; `generation`
counts the resets of the budget before it was handed over. -/
structure Waiting where
  run : LoopRun
  steps : Option (List LoopResult × List Intent)
  generation : Nat

structure Finished where
  outcome : Option (Except String ExecutionResult)
  result : LoopResult
  eventLog : EventLog

structure Pass where
  checked : ℚ
  executionId : String
  clock : BudgetClock

/-- `handed` counts the intents given to the runtime since the last reset,
`unbooked` those among them that ended without a step of the budget, and `stale`
the steps spent since by executions from before the reset. -/
structure Loop where
  controller : LoopController
  waiting : Dict Nat Waiting := .empty
  finished : List Finished := []
  returned : List (Nat × List LoopResult) := []
  generation : Nat := 0
  handed : Nat := 0
  unbooked : Nat := 0
  stale : Nat := 0

/-- Calls are told apart by a number. -/
inductive Action where
  | runIntent (call : Nat) (intent : Intent) (executionId : String) (clock : BudgetClock)
  | runMultiStep (call : Nat) (intents : List Intent) (pass : Pass)
  | resume (call : Nat) (outcome : Except String ExecutionResult) (now : ℚ) (pass : Pass)
  | cancel (call : Nat)
  | shutdown
  | reset

/-- `execute_intent` returned and the budget still has a step for it. -/
def books (b : ExecutionBudget) (outcome : Except String ExecutionResult) (now : ℚ) : Bool :=
  match outcome with
  | .ok _ => !b.isExhausted now
  | .error _ => false

def spent (b : ExecutionBudget) : ExecutionBudget := { b with currentSteps := b.currentSteps + 1 }

namespace Loop

def start (budget : ExecutionBudget) : Loop := { controller := { budget := budget.reset } }

def answer (l : Loop) (call : Nat) (results : List LoopResult) : Loop :=
  { l with returned := l.returned ++ [(call, results)] }

/-- `run_intent` up to the runtime; a run that returns before it has failed, which
also ends the `run_multi_step` call around it. -/
def begin (l : Loop) (call : Nat) (steps : Option (List LoopResult × List Intent))
    (intent : Intent) (executionId : String) (clock : BudgetClock) : Loop :=
  match l.controller.runIntent intent executionId clock with
  | (c, log, none) =>
      { l with
        controller := c
        waiting := l.waiting.set call ⟨⟨executionId, log⟩, steps, l.generation⟩
        handed := l.handed + 1 }
  | (c, log, some result) =>
      let l := { l with controller := c, finished := l.finished ++ [⟨none, result, log⟩] }
      match steps with
      | none => l
      | some (results, _) => l.answer call (results ++ [result])

def nextStep (l : Loop) (call : Nat) (results : List LoopResult) (intents : List Intent)
    (pass : Pass) : Loop :=
  match intents with
  | [] => l.answer call results
  | intent :: rest =>
      if l.controller.budget.isExhausted pass.checked then l.answer call results
      else l.begin call (some (results, rest)) intent pass.executionId pass.clock

/-- `run_intent` after the runtime, without what a `run_multi_step` call does next. -/
def book (l : Loop) (call : Nat) (w : Waiting) (outcome : Except String ExecutionResult)
    (now : ℚ) : Loop × LoopResult :=
  match l.controller.finishRun w.run outcome now with
  | (c, log, result) =>
      let booked := books l.controller.budget outcome now
      ({ l with
          controller := c
          waiting := l.waiting.erase call
          finished := l.finished ++ [⟨some outcome, result, log⟩]
          unbooked := l.unbooked + if w.generation = l.generation ∧ !booked then 1 else 0
          stale := l.stale + if w.generation ≠ l.generation ∧ booked then 1 else 0 }, result)

def resume (l : Loop) (call : Nat) (outcome : Except String ExecutionResult) (now : ℚ)
    (pass : Pass) : Option Loop :=
  (l.waiting.get call).map fun w =>
    match l.book call w outcome now, w.steps with
    | (l, _), none => l
    | (l, result), some (results, rest) =>
        if result.success then l.nextStep call (results ++ [result]) rest pass
        else l.answer call (results ++ [result])

/-- `CancelledError` at the await passes every handler of `run_intent`. -/
def cancel (l : Loop) (call : Nat) : Option Loop :=
  (l.waiting.get call).map fun w =>
    { l with
      waiting := l.waiting.erase call
      unbooked := l.unbooked + if w.generation = l.generation then 1 else 0 }

def reset (l : Loop) : Loop :=
  { l with
    controller := { l.controller with budget := l.controller.budget.reset }
    generation := l.generation + 1
    handed := 0
    unbooked := 0
    stale := 0 }

def step (l : Loop) : Action → Option Loop
  | .runIntent call intent executionId clock =>
      if (l.waiting.get call).isSome then none
      else some (l.begin call none intent executionId clock)
  | .runMultiStep call intents pass =>
      if (l.waiting.get call).isSome then none else some (l.nextStep call [] intents pass)
  | .resume call outcome now pass => l.resume call outcome now pass
  | .cancel call => l.cancel call
  | .shutdown => some { l with controller := l.controller.shutdown }
  | .reset => some l.reset

end Loop

def isTerminal : EventType → Bool
  | .loopTerminated | .loopFailed | .loopHalted | .budgetExhausted | .timeoutOccurred => true
  | .loopStarted | .budgetChecked | .stepCompleted => false

/-- No terminal event has been emitted yet. -/
def Open (log : EventLog) : Prop := ∀ e ∈ log.events, isTerminal e.eventType = false

/-- The event stands for the termination reason, and names it where it names one. -/
def Agrees (e : LoopEvent) (reason : LoopTermination) : Prop :=
  match e.eventType, e.metadata with
  | .loopTerminated, .termination named => named = reason ∧ reason = .completed
  | .loopFailed, .termination named => named = reason ∧ reason ≠ .completed
  | .loopHalted, _ => reason = .exception
  | .budgetExhausted, _ => reason = .budgetExhausted
  | .timeoutOccurred, _ => reason = .timeout
  | _, _ => False

/-- The log has exactly one terminal event, which comes last and agrees. -/
def Closed (log : EventLog) (reason : LoopTermination) : Prop :=
  ∃ before last, log.events = before ++ [last] ∧ isTerminal last.eventType = true ∧
    (∀ e ∈ before, isTerminal e.eventType = false) ∧ Agrees last reason

/-- The run reports what its execution returned. An empty id is no checkpoint. -/
structure Faithful (returned : ExecutionResult) (f : Finished) : Prop where
  success : f.result.success = returned.success
  finalState : f.result.finalState = returned.state
  checkpoints : f.result.checkpoints =
    (returned.checkpointId.filter fun checkpointId => checkpointId ≠ "").toList
  history : f.result.history = [returned]
  closed : Closed f.eventLog f.result.terminationReason

theorem classifyFailure_ne_completed (error : String) : classifyFailure error ≠ .completed := by
  unfold classifyFailure
  simp only
  repeat' split
  all_goals simp

theorem Open.emit {log : EventLog} (opened : Open log) (eventType : EventType)
    (kind : isTerminal eventType = false) {state : ExecutionState} {metadata : EventMetadata}
    {error : Option String} : Open (log.emit eventType state metadata error) := by
  intro e member
  cases List.mem_append.mp member with
  | inl before => exact opened e before
  | inr new => exact (List.mem_singleton.mp new) ▸ kind

theorem Open.closed {log : EventLog} (opened : Open log) (eventType : EventType)
    (kind : isTerminal eventType = true) {state : ExecutionState} {metadata : EventMetadata}
    {error : Option String} {reason : LoopTermination}
    (agrees : Agrees ⟨eventType, state, log.events.length + 1, metadata, error⟩ reason) :
    Closed (log.emit eventType state metadata error) reason :=
  ⟨log.events, _, rfl, kind, opened, agrees⟩

inductive Begun (c : LoopController) (executionId : String) (clock : BudgetClock) :
    LoopController × EventLog × Option LoopResult → Prop where
  | handed (log : EventLog) (hands : c.handsOver clock = true) (opened : Open log) :
      Begun c executionId clock ({ c with budget := c.budget.start clock.start }, log, none)
  | refused (c' : LoopController) (log : EventLog) (result : LoopResult)
      (idle : c.handsOver clock = false) (failed : result.success = false)
      (steps : c'.budget.currentSteps = c.budget.currentSteps)
      (limit : c'.budget.maxSteps = c.budget.maxSteps) :
      Begun c executionId clock (c', log, some result)

@[simp] theorem shutdown_budget (c : LoopController) : c.shutdown.budget = c.budget := by
  unfold LoopController.shutdown
  split <;> rfl

@[simp] theorem start_currentSteps (b : ExecutionBudget) (now : ℚ) :
    (b.start now).currentSteps = b.currentSteps := by
  unfold ExecutionBudget.start
  split <;> rfl

@[simp] theorem start_maxSteps (b : ExecutionBudget) (now : ℚ) :
    (b.start now).maxSteps = b.maxSteps := by
  unfold ExecutionBudget.start
  split <;> rfl

theorem checkBudget_open {c : LoopController} {log checked : EventLog} {clock : BudgetClock}
    (opened : Open log) (passed : c.checkBudget log clock = .ok checked) : Open checked := by
  unfold LoopController.checkBudget at passed
  split at passed
  · cases passed
  split at passed
  · cases passed
  cases passed
  exact opened.emit .budgetChecked rfl

theorem runIntent_begun (c : LoopController) (intent : Intent) (executionId : String)
    (clock : BudgetClock) : Begun c executionId clock (c.runIntent intent executionId clock) := by
  have hands := c.runIntent_eq_none_iff intent executionId clock
  have fresh : Open { executionId := executionId } := by
    intro e member
    cases member
  unfold LoopController.runIntent at hands ⊢
  by_cases running : c.state = .running
  · simp only [running, ne_eq, not_true_eq_false, if_false] at hands ⊢
    split
    next log checked =>
      rw [checked] at hands
      rw [← running]
      exact .handed log (hands.mp rfl) (checkBudget_open (fresh.emit .loopStarted rfl) checked)
    next steps tokens checked =>
      rw [checked] at hands
      exact .refused _ _ _ (by simpa using hands) rfl (by simp) (by simp)
    next elapsed timeoutSeconds checked =>
      rw [checked] at hands
      exact .refused _ _ _ (by simpa using hands) rfl (by simp) (by simp)
  · simp only [ne_eq, running, not_false_eq_true, if_true] at hands ⊢
    exact .refused c _ _ (by simpa using hands) rfl rfl rfl

inductive Ended (c : LoopController) (outcome : Except String ExecutionResult) (now : ℚ) :
    LoopController × EventLog × LoopResult → Prop where
  | booked (returned : ExecutionResult) (c' : LoopController) (log : EventLog)
      (result : LoopResult) (came : outcome = .ok returned)
      (books : books c.budget outcome now = true)
      (budget : c'.budget = spent c.budget)
      (state : c'.state = c.state)
      (faithful : ∀ handed, Faithful returned ⟨handed, result, log⟩) :
      Ended c outcome now (c', log, result)
  | unbooked (c' : LoopController) (log : EventLog) (result : LoopResult)
      (missed : books c.budget outcome now = false) (budget : c'.budget = c.budget)
      (state : c'.state = c.state) (failed : result.success = false)
      (history : result.history = []) : Ended c outcome now (c', log, result)

theorem finishRun_ended {c : LoopController} {run : LoopRun} (opened : Open run.eventLog)
    (outcome : Except String ExecutionResult) (now : ℚ) :
    Ended c outcome now (c.finishRun run outcome now) := by
  cases outcome with
  | error text => exact .unbooked _ _ _ rfl rfl rfl rfl rfl
  | ok returned =>
    cases exhausted : c.budget.isExhausted now with
    | true =>
      simp only [LoopController.finishRun, LoopController.haltRun, ExecutionBudget.consumeStep,
        exhausted, if_true]
      exact .unbooked _ _ _ (by simp [books, exhausted]) rfl rfl rfl rfl
    | false =>
      simp only [LoopController.finishRun, ExecutionBudget.consumeStep, exhausted,
        Bool.false_eq_true, if_false]
      refine .booked returned _ _ _ rfl (by simp [books, exhausted]) (by simp [spent]) rfl
        fun handed => ⟨rfl, rfl, ?_, rfl, ?_⟩
      · cases checkpoint : returned.checkpointId with
        | none => rfl
        | some checkpointId =>
          by_cases empty : checkpointId = "" <;> simp [empty, Option.filter]
      · cases won : returned.success with
        | true =>
          simp only [LoopController.terminationOf, won, if_true]
          exact (opened.emit .stepCompleted rfl).closed .loopTerminated rfl ⟨rfl, rfl⟩
        | false =>
          simp only [LoopController.terminationOf, won, Bool.false_eq_true, if_false]
          exact opened.closed .loopFailed rfl ⟨rfl, classifyFailure_ne_completed _⟩

namespace Loop

/-- Another pass through the loop of `run_multi_step` hands an intent over. -/
def goesOn (c : LoopController) (intents : List Intent) (pass : Pass) : Bool :=
  !intents.isEmpty && !c.budget.isExhausted pass.checked && c.handsOver pass.clock

def goesOnAfter (c : LoopController) (outcome : Except String ExecutionResult) (now : ℚ)
    (rest : List Intent) (pass : Pass) : Bool :=
  match outcome with
  | .ok returned =>
      books c.budget outcome now && returned.success &&
        goesOn { c with budget := spent c.budget } rest pass
  | .error _ => false

def handsIntent (l : Loop) : Action → Bool
  | .runIntent _ _ _ clock => l.controller.handsOver clock
  | .runMultiStep _ intents pass => goesOn l.controller intents pass
  | .resume call outcome now pass =>
      match (l.waiting.get call).bind Waiting.steps with
      | some (_, rest) => goesOnAfter l.controller outcome now rest pass
      | none => false
  | _ => false

inductive Entered (l : Loop) (hands : Bool) : Loop → Prop where
  | handed (call : Nat) (w : Waiting) (now : ℚ) (handed : hands = true)
      (vacant : l.waiting.get call = none) (opened : Open w.run.eventLog)
      (generation : w.generation = l.generation) :
      Entered l hands
        { l with
          controller :=
            { l.controller with budget := l.controller.budget.start now }
          waiting := l.waiting.set call w
          handed := l.handed + 1 }
  | idle (c : LoopController) (finished : List Finished) (returned : List (Nat × List LoopResult))
      (missed : hands = false) (steps : c.budget.currentSteps = l.controller.budget.currentSteps)
      (limit : c.budget.maxSteps = l.controller.budget.maxSteps)
      (silent : ∀ f ∈ finished, f.outcome = none) :
      Entered l hands
        { l with controller := c, finished := l.finished ++ finished, returned := returned }

theorem begin_entered {l : Loop} {call : Nat} (vacant : l.waiting.get call = none)
    (steps : Option (List LoopResult × List Intent)) (intent : Intent) (executionId : String)
    (clock : BudgetClock) :
    Entered l (l.controller.handsOver clock) (l.begin call steps intent executionId clock) := by
  have begun := runIntent_begun l.controller intent executionId clock
  unfold begin
  generalize l.controller.runIntent intent executionId clock = came at begun
  cases begun with
  | handed log hands opened =>
    exact .handed call ⟨⟨executionId, log⟩, steps, _⟩ _ hands vacant opened rfl
  | refused c log result idle failed same limit =>
    have silent : ∀ f ∈ [Finished.mk none result log], f.outcome = none := by
      intro f member
      rw [List.mem_singleton.mp member]
    cases steps with
    | none => exact .idle c _ l.returned idle same limit silent
    | some steps => exact .idle c _ _ idle same limit silent

theorem answer_entered (l : Loop) (call : Nat) (results : List LoopResult) :
    Entered l false (l.answer call results) := by
  have same := Entered.idle (l := l) l.controller [] (l.returned ++ [(call, results)]) rfl rfl rfl
    (by simp)
  simpa [answer] using same

theorem nextStep_entered {l : Loop} {call : Nat} (vacant : l.waiting.get call = none)
    (results : List LoopResult) (intents : List Intent) (pass : Pass) :
    Entered l (goesOn l.controller intents pass) (l.nextStep call results intents pass) := by
  cases intents with
  | nil => exact l.answer_entered call results
  | cons intent rest =>
    cases exhausted : l.controller.budget.isExhausted pass.checked with
    | true =>
      have ended := l.answer_entered call results
      simpa [goesOn, nextStep, exhausted] using ended
    | false =>
      have begun := begin_entered vacant (some (results, rest)) intent pass.executionId pass.clock
      simpa [goesOn, nextStep, exhausted] using begun

theorem goesOn_congr {c c' : LoopController} (budget : c'.budget = c.budget)
    (state : c'.state = c.state) (intents : List Intent) (pass : Pass) :
    goesOn c' intents pass = goesOn c intents pass := by
  simp only [goesOn, LoopController.handsOver, budget, state]

theorem book_ended {l : Loop} {w : Waiting} (opened : Open w.run.eventLog) (call : Nat)
    (outcome : Except String ExecutionResult) (now : ℚ) :
    Ended l.controller outcome now ((l.book call w outcome now).1.controller,
      (l.controller.finishRun w.run outcome now).2.1, (l.book call w outcome now).2) :=
  finishRun_ended opened outcome now

/-- Whether a `run_multi_step` call goes on after a run is known before the run is booked. -/
theorem goesOn_book {l : Loop} {w : Waiting} (opened : Open w.run.eventLog) (call : Nat)
    (outcome : Except String ExecutionResult) (now : ℚ) (rest : List Intent) (pass : Pass) :
    ((l.book call w outcome now).2.success &&
        goesOn (l.book call w outcome now).1.controller rest pass) =
      goesOnAfter l.controller outcome now rest pass := by
  have ended := book_ended (l := l) opened call outcome now
  generalize l.book call w outcome now = after at ended ⊢
  obtain ⟨after, result⟩ := after
  simp only at ended ⊢
  cases ended with
  | booked returned _ log _ came booked budget state faithful =>
    subst came
    have won := (faithful none).success
    have next := goesOn_congr (c := { l.controller with budget := spent l.controller.budget })
      budget state rest pass
    simp only at won
    simp only [goesOnAfter, won, next, booked, Bool.true_and]
  | unbooked _ log _ missed budget state failed =>
    simp only [failed, Bool.false_and]
    cases outcome <;> simp [goesOnAfter, missed]

theorem resume_entered {l t : Loop} {call : Nat} {outcome : Except String ExecutionResult}
    {now : ℚ} {pass : Pass}
    (opened : ∀ call w, l.waiting.get call = some w → Open w.run.eventLog)
    (stepped : l.resume call outcome now pass = some t) :
    ∃ w, l.waiting.get call = some w ∧
      Entered (l.book call w outcome now).1 (l.handsIntent (.resume call outcome now pass)) t := by
  obtain ⟨⟨run, steps, generation⟩, found, rfl⟩ := Option.map_eq_some_iff.mp stepped
  refine ⟨_, found, ?_⟩
  have next := fun rest => goesOn_book (l := l) (opened call _ found) call outcome now rest pass
  have vacant : (l.book call ⟨run, steps, generation⟩ outcome now).1.waiting.get call = none :=
    (l.waiting.get_erase call call).trans (if_pos rfl)
  simp only [handsIntent, found, Option.bind_some]
  generalize l.book call ⟨run, steps, generation⟩ outcome now = after at next vacant ⊢
  obtain ⟨booked, result⟩ := after
  cases steps with
  | none =>
    have same := Entered.idle (l := booked) booked.controller [] booked.returned rfl rfl rfl
      (by simp)
    simpa using same
  | some steps =>
    obtain ⟨results, rest⟩ := steps
    simp only [← next rest]
    cases won : result.success with
    | true => simpa [won] using nextStep_entered vacant (results ++ [result]) rest pass
    | false => simpa [won] using booked.answer_entered call (results ++ [result])

def Opened (l : Loop) : Prop := ∀ call w, l.waiting.get call = some w → Open w.run.eventLog

inductive Stepped (l : Loop) : Action → Loop → Prop where
  | runIntent (call : Nat) (intent : Intent) (executionId : String) (clock : BudgetClock)
      (t : Loop) (entered : Entered l (l.controller.handsOver clock) t) :
      Stepped l (.runIntent call intent executionId clock) t
  | runMultiStep (call : Nat) (intents : List Intent) (pass : Pass) (t : Loop)
      (entered : Entered l (goesOn l.controller intents pass) t) :
      Stepped l (.runMultiStep call intents pass) t
  | resume (call : Nat) (w : Waiting) (outcome : Except String ExecutionResult) (now : ℚ)
      (pass : Pass) (t : Loop) (found : l.waiting.get call = some w)
      (entered : Entered (l.book call w outcome now).1
        (l.handsIntent (.resume call outcome now pass)) t) :
      Stepped l (.resume call outcome now pass) t
  | cancel (call : Nat) (w : Waiting) (found : l.waiting.get call = some w) :
      Stepped l (.cancel call)
        { l with
          waiting := l.waiting.erase call
          unbooked := l.unbooked + if w.generation = l.generation then 1 else 0 }
  | shutdown : Stepped l .shutdown { l with controller := l.controller.shutdown }
  | reset : Stepped l .reset l.reset

theorem step_stepped {l t : Loop} {action : Action} (opened : l.Opened)
    (stepped : l.step action = some t) : Stepped l action t := by
  cases action with
  | runIntent call intent executionId clock =>
    simp only [step, Option.ite_none_left_eq_some, Option.some.injEq] at stepped
    have vacant : l.waiting.get call = none := by simpa using stepped.1
    exact .runIntent _ _ _ _ _ (stepped.2 ▸ begin_entered vacant none intent executionId clock)
  | runMultiStep call intents pass =>
    simp only [step, Option.ite_none_left_eq_some, Option.some.injEq] at stepped
    have vacant : l.waiting.get call = none := by simpa using stepped.1
    exact .runMultiStep _ _ _ _ (stepped.2 ▸ nextStep_entered vacant [] intents pass)
  | resume call outcome now pass =>
    obtain ⟨w, found, entered⟩ := resume_entered opened stepped
    exact .resume _ w _ _ _ _ found entered
  | cancel call =>
    obtain ⟨w, found, rfl⟩ := Option.map_eq_some_iff.mp stepped
    exact .cancel call w found
  | shutdown =>
    cases stepped
    exact .shutdown
  | reset =>
    cases stepped
    exact .reset

theorem Entered.opened {l t : Loop} {hands : Bool} (entered : Entered l hands t)
    (opened : l.Opened) : t.Opened := by
  cases entered with
  | handed call w now _ _ own =>
    exact Dict.forall_set opened own
  | idle => exact opened

theorem opened_erase {l : Loop} (opened : l.Opened) (call : Nat) :
    ∀ call' w, (l.waiting.erase call).get call' = some w → Open w.run.eventLog :=
  Dict.forall_erase opened call

theorem step_opened {l t : Loop} {action : Action} (opened : l.Opened)
    (stepped : l.step action = some t) : t.Opened := by
  cases step_stepped opened stepped with
  | runIntent _ _ _ _ _ entered => exact entered.opened opened
  | runMultiStep _ _ _ _ entered => exact entered.opened opened
  | resume call w _ _ _ _ _ entered => exact entered.opened (opened_erase opened call)
  | cancel call => exact opened_erase opened call
  | shutdown => exact opened
  | reset => exact opened

/-- Every run whose execution returned reports what it returned. -/
def Reported (l : Loop) : Prop :=
  ∀ f ∈ l.finished, ∀ returned, f.outcome = some (.ok returned) → Faithful returned f

theorem Entered.reported {l t : Loop} {hands : Bool} (entered : Entered l hands t) :
    t.Reported ↔ l.Reported := by
  cases entered with
  | handed => rfl
  | idle c finished returned _ _ _ silent =>
    refine ⟨fun all f member => all f (List.mem_append_left _ member), fun all f member => ?_⟩
    cases List.mem_append.mp member with
    | inl old => exact all f old
    | inr new =>
      intro returned came
      rw [silent f new] at came
      cases came

theorem book_reported {l : Loop} {call : Nat} {w : Waiting} (opened : Open w.run.eventLog)
    (outcome : Except String ExecutionResult) (now : ℚ) :
    (l.book call w outcome now).1.Reported ↔
      l.Reported ∧ (outcome.toOption.isSome → l.controller.budget.isExhausted now = false) := by
  have ended := book_ended (l := l) opened call outcome now
  have last : (l.book call w outcome now).1.finished = l.finished ++
      [⟨some outcome, (l.book call w outcome now).2,
        (l.controller.finishRun w.run outcome now).2.1⟩] := rfl
  simp only [Reported, last, List.mem_append, List.mem_singleton, or_imp, forall_and,
    forall_eq]
  refine and_congr_right fun _ => ?_
  generalize (l.book call w outcome now).2 = result at ended ⊢
  generalize (l.book call w outcome now).1.controller = c at ended
  cases ended with
  | booked returned _ _ _ came booked _ _ faithful =>
    subst came
    simp only [Option.some.injEq, Except.ok.injEq]
    refine iff_of_true (fun r same => same ▸ faithful _) fun _ => ?_
    simpa [books] using booked
  | unbooked _ _ _ missed _ _ _ history =>
    cases outcome with
    | error text =>
      refine iff_of_true (fun r same => ?_) fun came => ?_
      · cases same
      · cases came
    | ok returned =>
      have exhausted : l.controller.budget.isExhausted now = true := by simpa [books] using missed
      refine iff_of_false (fun all => ?_) fun room => ?_
      · have kept := (all returned rfl).history
        rw [history] at kept
        cases kept
      · rw [room rfl] at exhausted
        cases exhausted

/-- When an execution returns, its step can still be spent. -/
def InBudget (_ : List Action) (l : Loop) : Action → Prop
  | .resume _ (.ok _) now _ => l.controller.budget.isExhausted now = false
  | _ => True

theorem step_reported {past : List Action} {l t : Loop} {action : Action} (opened : l.Opened)
    (reported : l.Reported) (stepped : l.step action = some t) :
    t.Reported ↔ InBudget past l action := by
  cases step_stepped opened stepped with
  | runIntent _ _ _ _ _ entered => exact iff_of_true (entered.reported.mpr reported) trivial
  | runMultiStep _ _ _ _ entered => exact iff_of_true (entered.reported.mpr reported) trivial
  | resume call w outcome now pass _ found entered =>
    rw [entered.reported, book_reported (opened call w found), and_iff_right reported]
    cases outcome <;> simp [InBudget, Except.toOption]
  | cancel => exact iff_of_true reported trivial
  | shutdown => exact iff_of_true reported trivial
  | reset => exact iff_of_true reported trivial

/-- In every state of a run all finished runs report what their executions returned
exactly when each execution returns within the budget. -/
theorem reported_iff_inBudget {budget : ExecutionBudget} {actions : List Action} {l : Loop}
    (ran : Trace.run step (start budget) actions = some l) :
    Trace.AllStates step Reported (start budget) actions ↔
      Trace.EachStep step InBudget [] (start budget) actions := by
  have opened : (start budget).Opened := by simp [Opened, start]
  have reported : (start budget).Reported := by simp [Reported, start]
  exact Trace.allStates_iff_eachStep (I := fun _ => Opened)
    (fun _ _ _ _ opened stepped => step_opened opened stepped)
    (fun _ _ _ _ opened reported stepped => step_reported opened reported stepped)
    opened reported ran

def oneRun (now : ℚ) : List Action :=
  [.runIntent 0 ⟨"agent", "tool.read", []⟩ "loop-1" ⟨0, 0, 0, 0⟩,
    .resume 0 (.ok ⟨true, "e1", some "c1", [], none, .completed⟩) now ⟨0, "", ⟨0, 0, 0, 0⟩⟩]

theorem reported_iff_inBudget_intime :
    ∃ l, Trace.run step (start {}) (oneRun 5) = some l ∧
      (Trace.AllStates step Reported (start {}) (oneRun 5) ↔
        Trace.EachStep step InBudget [] (start {}) (oneRun 5)) := by
  obtain ⟨l, ran⟩ : ∃ l, Trace.run step (start {}) (oneRun 5) = some l :=
    Option.isSome_iff_exists.mp (by decide +kernel)
  exact ⟨l, ran, reported_iff_inBudget ran⟩

/-- An execution that takes longer than the budget allows is reported as never run. -/
theorem late_success_unreported :
    ¬ Trace.AllStates step Reported (start {}) (oneRun 3601) := by
  intro all
  obtain ⟨l, ran⟩ : ∃ l, Trace.run step (start {}) (oneRun 3601) = some l :=
    Option.isSome_iff_exists.mp (by decide +kernel)
  have seen : (Trace.run step (start {}) (oneRun 3601)).all (fun l => l.finished.any fun f =>
      f.result.history.isEmpty && (f.outcome.bind Except.toOption).isSome) = true := by
    decide +kernel
  rw [ran, Option.all_some, List.any_eq_true] at seen
  obtain ⟨f, member, seen⟩ := seen
  simp only [Bool.and_eq_true, List.isEmpty_iff] at seen
  cases came : f.outcome with
  | none => simp [came] at seen
  | some outcome =>
    cases outcome with
    | error text => simp [came, Except.toOption] at seen
    | ok returned =>
      have kept := (all.last ran f member returned came).history
      rw [seen.1] at kept
      cases kept

end Loop
end Kitematic.LoopRuns

import Kitematic.RuntimeAbi

/-! The orchestration loop. `run_intent` checks the budget, hands the intent to
`execute_intent` of the runtime and books what comes back, so it is modelled by
the part before that await and the part after it. Every time is an exact
rational in seconds. Logger and metrics are written only and are left out. -/

namespace Kitematic.Lifecycle
open PyText RuntimeAbi State

structure ExecutionBudget where
  maxSteps : Int := 10
  maxTokens : Int := 100000
  timeoutSeconds : Int := 3600
  currentSteps : Int := 0
  tokensConsumed : Int := 0
  startedAt : Option ℚ := none

namespace ExecutionBudget

def start (b : ExecutionBudget) (now : ℚ) : ExecutionBudget :=
  match b.startedAt with
  | none => { b with startedAt := some now }
  | some _ => b

def isStepsExhausted (b : ExecutionBudget) : Bool := b.maxSteps ≤ b.currentSteps

def isTokensExhausted (b : ExecutionBudget) : Bool := b.maxTokens ≤ b.tokensConsumed

def isTimeout (b : ExecutionBudget) (now : ℚ) : Bool :=
  match b.startedAt with
  | none => false
  | some startedAt => b.timeoutSeconds < now - startedAt

def isExhausted (b : ExecutionBudget) (now : ℚ) : Bool :=
  b.isStepsExhausted || b.isTokensExhausted || b.isTimeout now

def exhaustedMessage (b : ExecutionBudget) : String :=
  "Budget exhausted: steps=" ++ toString b.currentSteps ++ "/" ++ toString b.maxSteps ++
    ", tokens=" ++ toString b.tokensConsumed ++ "/" ++ toString b.maxTokens

def consumeStep (b : ExecutionBudget) (now : ℚ) (tokens : Int := 0) :
    Except String ExecutionBudget :=
  if b.isExhausted now then .error b.exhaustedMessage
  else
    .ok { b with currentSteps := b.currentSteps + 1, tokensConsumed := b.tokensConsumed + tokens }

def reset (b : ExecutionBudget) : ExecutionBudget :=
  { b with currentSteps := 0, tokensConsumed := 0, startedAt := none }

end ExecutionBudget

inductive LoopTermination where
  | completed | policyDenied | capabilityMissing | capabilityDenied | gatewayFailed | toolFailed
  | checkpointFailed | orchestrationFailed | budgetExhausted | timeout | exception
  deriving DecidableEq

inductive EventType where
  | loopStarted | budgetChecked | stepCompleted | loopTerminated | loopFailed | loopHalted
  | budgetExhausted | timeoutOccurred
  deriving DecidableEq

inductive EventMetadata where
  | none
  | intent (agentId action : String)
  | budget (budget : ExecutionBudget)
  | step (executionId : String) (checkpointId : Option String)
  | termination (reason : LoopTermination)

structure LoopEvent where
  eventType : EventType
  state : ExecutionState
  stepNumber : Nat
  metadata : EventMetadata := .none
  error : Option String := none

structure EventLog where
  executionId : String
  events : List LoopEvent := []

def EventLog.emit (log : EventLog) (eventType : EventType) (state : ExecutionState)
    (metadata : EventMetadata := .none) (error : Option String := none) : EventLog :=
  { log with events := log.events ++ [⟨eventType, state, log.events.length + 1, metadata, error⟩] }

structure LoopResult where
  success : Bool
  executionId : String
  stepsExecuted : Int
  tokensConsumed : Int
  checkpoints : List String
  finalState : ExecutionState
  terminationReason : LoopTermination
  error : Option String
  history : List ExecutionResult

structure BudgetClock where
  start : ℚ
  exhausted : ℚ
  timeout : ℚ
  elapsed : ℚ

structure LoopController where
  budget : ExecutionBudget
  history : List ExecutionResult := []
  state : RuntimeState := .running

structure LoopRun where
  executionId : String
  eventLog : EventLog

inductive LoopError where
  | budgetExhausted (steps tokens : Int)
  | timeout (elapsed : ℚ) (timeoutSeconds : Int)

def LoopError.message : LoopError → String
  | .budgetExhausted steps tokens =>
      "Loop budget exhausted: steps=" ++ toString steps ++ ", tokens=" ++ toString tokens
  | .timeout elapsed timeoutSeconds =>
      "Loop timeout: " ++ fixed1 elapsed ++ "s > " ++ toString timeoutSeconds ++ "s"

def classifyFailure (error : String) : LoopTermination :=
  let errorLower := lower error
  if containsText errorLower "policy" then .policyDenied
  else if errorLower = "denied" ∨ errorLower = "rejected" then .policyDenied
  else if containsText errorLower "capability" then
    if containsText errorLower "not" || containsText errorLower "denied" then .capabilityDenied
    else .capabilityMissing
  else if containsText errorLower "gateway" then .gatewayFailed
  else if containsText errorLower "orchestration" then .orchestrationFailed
  else if containsText errorLower "checkpoint" then .checkpointFailed
  else if containsText errorLower "tool" then .toolFailed
  else .exception

namespace LoopController

def haltedResult (c : LoopController) (executionId : String) (reason : LoopTermination)
    (error : String) : LoopResult where
  success := false
  executionId := executionId
  stepsExecuted := c.budget.currentSteps
  tokensConsumed := c.budget.tokensConsumed
  checkpoints := []
  finalState := .halted
  terminationReason := reason
  error := some error
  history := []

def checkBudget (c : LoopController) (log : EventLog) (clock : BudgetClock) :
    Except LoopError EventLog :=
  if c.budget.isExhausted clock.exhausted then
    .error (.budgetExhausted c.budget.currentSteps c.budget.tokensConsumed)
  else if c.budget.isTimeout clock.timeout then
    .error (.timeout (match c.budget.startedAt with
      | some startedAt => clock.elapsed - startedAt
      | none => 0) c.budget.timeoutSeconds)
  else .ok (log.emit .budgetChecked .created (.budget c.budget))

/-- `run_intent` up to `execute_intent`; either it has returned, or the intent goes
to the runtime. The id is the caller's, or a drawn one. -/
def runIntent (c : LoopController) (intent : Intent) (executionId : String)
    (clock : BudgetClock) : LoopController × EventLog × Option LoopResult :=
  let log : EventLog := { executionId := executionId }
  if c.state ≠ .running then
    (c, log, some (c.haltedResult executionId .exception "Loop is shutting down"))
  else
    let c := { c with budget := c.budget.start clock.start }
    let log := log.emit .loopStarted .created (.intent intent.agentId intent.action)
    match c.checkBudget log clock with
    | .ok log => (c, log, none)
    | .error (.budgetExhausted steps tokens) =>
        let text := (LoopError.budgetExhausted steps tokens).message
        (c, log.emit .budgetExhausted .halted .none (some text),
          some (c.haltedResult executionId .budgetExhausted text))
    | .error (.timeout elapsed timeoutSeconds) =>
        let text := (LoopError.timeout elapsed timeoutSeconds).message
        (c, log.emit .timeoutOccurred .halted .none (some text),
          some (c.haltedResult executionId .timeout text))

def terminationOf (result : ExecutionResult) : LoopTermination :=
  if result.success then .completed else classifyFailure (result.error.getD "")

def haltRun (c : LoopController) (run : LoopRun) (text : String) :
    LoopController × EventLog × LoopResult :=
  (c, run.eventLog.emit .loopHalted .halted .none (some text),
    c.haltedResult run.executionId .exception text)

/-- `run_intent` after `execute_intent` returned or raised. -/
def finishRun (c : LoopController) (run : LoopRun) (outcome : Except String ExecutionResult)
    (now : ℚ) : LoopController × EventLog × LoopResult :=
  match outcome with
  | .error text => c.haltRun run text
  | .ok result =>
      let c := { c with history := c.history ++ [result] }
      let log :=
        if result.success then
          (run.eventLog.emit .stepCompleted result.state
            (.step result.executionId result.checkpointId)).emit .loopTerminated .completed
              (.termination .completed)
        else
          run.eventLog.emit .loopFailed result.state
            (.termination (classifyFailure (result.error.getD ""))) result.error
      match c.budget.consumeStep now with
      | .error text => c.haltRun { run with eventLog := log } text
      | .ok budget =>
          let c := { c with budget := budget }
          (c, log,
            { success := result.success
              executionId := run.executionId
              stepsExecuted := c.budget.currentSteps
              tokensConsumed := c.budget.tokensConsumed
              checkpoints :=
                match result.checkpointId with
                | some checkpointId => if checkpointId = "" then [] else [checkpointId]
                | none => []
              finalState := result.state
              terminationReason := terminationOf result
              error := result.error
              history := [result] })

def shutdown (c : LoopController) : LoopController :=
  if c.state ≠ .running then c else { c with state := .stopped }

def handsOver (c : LoopController) (clock : BudgetClock) : Bool :=
  c.state = .running && !(c.budget.start clock.start).isExhausted clock.exhausted &&
    !(c.budget.start clock.start).isTimeout clock.timeout

/-- The intent goes to the runtime exactly when the loop runs and its budget allows it. -/
theorem runIntent_eq_none_iff (c : LoopController) (intent : Intent) (executionId : String)
    (clock : BudgetClock) :
    (c.runIntent intent executionId clock).2.2 = none ↔ c.handsOver clock = true := by
  unfold runIntent handsOver
  by_cases running : c.state = .running
  · cases exhausted : (c.budget.start clock.start).isExhausted clock.exhausted with
    | true => simp [running, checkBudget, exhausted]
    | false =>
      cases late : (c.budget.start clock.start).isTimeout clock.timeout <;>
        simp [running, checkBudget, exhausted, late]
  · simp [running]

end LoopController
end Kitematic.Lifecycle

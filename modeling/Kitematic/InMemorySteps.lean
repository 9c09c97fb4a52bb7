import Kitematic.StepContract

/-! The in-memory runtime, and the budget as the coordinator and the runtime see it. The
coordinator asks whether the remaining budget is positive, the runtime whether the whole
part of it is. -/

namespace Kitematic.StepExecution
open Checkpoints Dictionary ExecutionLifecycle IsoDate Objects PyText

/-- What `execute_step` raises; what a collaborator or the interpreter raises is known by
its text. -/
inductive RuntimeFailure where
  | invalidStepRequest (errors : List String)
  | budgetExceeded (limit consumed : Int)
  | other (text : String)
  deriving DecidableEq

def RuntimeFailure.message : RuntimeFailure → String
  | .invalidStepRequest errors => "Invalid step request: " ++ "; ".intercalate errors
  | .budgetExceeded limit consumed =>
      "Budget exceeded: " ++ toString consumed ++ " > " ++ toString limit
  | .other text => text

/-- With the repository that the context carries, which changes nothing that does not
belong to it, and with what a call draws. -/
structure InMemoryRuntime where
  save : PyHeap → ℕ → Checkpoint DateTime → PyHeap × Except String Unit
  confined : ∀ h repository checkpoint,
    Heap.ChangesOnly [repository] h (save h repository checkpoint).1
  uuid : String
  now : DateTime

/-- The steps counted under the key `_runtime` of a state, or what reading them raises. -/
def stepsExecuted (h : PyHeap) (state : Dict String PyCell) : Except String PyCell :=
  match state.get "_runtime" with
  | none => .ok (.atom (.int 0))
  | some cell =>
      match cell.address.bind h.get with
      | some (.dict runtimeMeta) =>
          .ok ((runtimeMeta.get "steps_executed").getD (.atom (.int 0)))
      | _ => .error ("'" ++ typeName h cell ++ "' object has no attribute 'get'")

def plusOne (h : PyHeap) (cell : PyCell) : Except String Scalar :=
  match cell with
  | .atom (.bool b) => .ok (.int (if b then 2 else 1))
  | .atom (.int i) => .ok (.int (i + 1))
  | .atom (.float x) => .ok (.float x.plusOne)
  | _ =>
      let type := typeName h cell
      if type = "str" ∨ type = "list" then
        .error ("can only concatenate " ++ type ++ " (not \"int\") to " ++ type)
      else .error ("unsupported operand type(s) for +: '" ++ type ++ "' and 'int'")

def runtimeMeta (steps : Scalar) (stepNumber : Int) : PyObject :=
  .dict ((Dict.empty.set "steps_executed" (.atom steps)).set "last_node"
    (.atom (.str ("step-" ++ toString stepNumber))))

theorem refs_runtimeMeta (steps : Scalar) (stepNumber : Int) :
    (runtimeMeta steps stepNumber).refs = [] := by
  refine List.eq_nil_iff_forall_not_mem.mpr fun c edge => ?_
  rcases Object.mem_refs_set edge with edge | address
  · rcases Object.mem_refs_set edge with edge | address
    · simp at edge
    · cases address
  · cases address

theorem dictAt_refs (h : PyHeap) (a : ℕ) :
    ∀ c ∈ (.dict (dictAt h a) : PyObject).refs, c < h.size := by
  unfold dictAt
  split
  next entries found =>
    exact h.closed _ (List.mem_of_getElem? found)
  next => simp

def updatedState (h : PyHeap) (state : ℕ) (steps : Scalar) (stepNumber : Int) : PyHeap × ℕ :=
  let made := h.alloc (runtimeMeta steps stepNumber) (by simp [refs_runtimeMeta])
  made.1.alloc (.dict ((dictAt h state).set "_runtime" (.ref made.2))) (by
    intro c edge
    have new := h.alloc_new (runtimeMeta steps stepNumber) (by simp [refs_runtimeMeta])
    rcases Object.mem_refs_set edge with old | same
    · exact Nat.lt_trans (dictAt_refs h state c old) (Nat.lt_of_le_of_lt new.1 new.2)
    · exact Option.some.inj same ▸ new.2)

namespace InMemoryRuntime

def validateRequest (request : StepRequest) : Except RuntimeFailure Unit :=
  let errors := (if request.executionId = "" then ["execution_id is required"] else []) ++
    (if request.agentId = "" then ["agent_id is required"] else []) ++
    (if request.goal = "" then ["goal is required"] else [])
  if errors = [] then .ok () else .error (.invalidStepRequest errors)

def checkBudget (context : ExecutionContext) : Except RuntimeFailure Unit :=
  if context.budgetRemaining ≤ 0 then .error (.budgetExceeded 0 0) else .ok ()

def checkpointOf (rt : InMemoryRuntime) (context : ExecutionContext) : Checkpoint DateTime where
  checkpointId := rt.uuid
  executionId := context.executionId
  version := context.stepNumber
  triggerReason := .stepComplete
  checkpointHash := "auto"
  agentStateRef := none
  memoryRefs := []
  toolHistory := []
  createdAt := some rt.now

/-- `execute_step` with its exceptions as the types they have. -/
def runStep (rt : InMemoryRuntime) (h : PyHeap) (request : StepRequest)
    (context : ExecutionContext) : PyHeap × Except RuntimeFailure StepResponse :=
  match validateRequest request with
  | .error e => (h, .error e)
  | .ok () =>
      match checkBudget context with
      | .error e => (h, .error e)
      | .ok () =>
          match stepsExecuted h (dictAt h request.state) >>= plusOne h with
          | .error text => (h, .error (.other text))
          | .ok steps =>
              let (h, updatedState) := updatedState h request.state steps context.stepNumber
              let response : StepResponse := {
                status := .completed
                updatedState
                output := "Step " ++ toString context.stepNumber ++ " executed for goal: " ++
                  request.goal
                tokensConsumed := context.tokensPerStep }
              match context.checkpoint with
              | none => (h, .ok response)
              | some repository =>
                  match rt.save h repository (rt.checkpointOf context) with
                  | (h, .error text) => (h, .error (.other text))
                  | (h, .ok ()) => (h, .ok response)

theorem updatedState_extends (h : PyHeap) (state : ℕ) (steps : Scalar) (stepNumber : Int) :
    h.Extends (updatedState h state steps stepNumber).1 :=
  (h.alloc_extends _ _).trans (List.prefix_append _ _)

theorem runStep_confined (rt : InMemoryRuntime) (h : PyHeap) (request : StepRequest)
    (context : ExecutionContext) (inside : ∀ a ∈ handed request context, a < h.size) :
    h.ChangesOnly (handed request context) (rt.runStep h request context).1 := by
  unfold runStep
  split
  next => exact Heap.Extends.changesOnly List.prefix_rfl _
  next =>
    split
    next => exact Heap.Extends.changesOnly List.prefix_rfl _
    next =>
      split
      next => exact Heap.Extends.changesOnly List.prefix_rfl _
      next steps _ =>
        have extended := updatedState_extends h request.state steps context.stepNumber
        cases saved : context.checkpoint with
        | none => exact extended.changesOnly _
        | some repository =>
          have member : repository ∈ handed request context := by simp [handed, saved]
          have changed := (rt.confined (updatedState h request.state steps context.stepNumber).1
            repository (rt.checkpointOf context)).mono (by simpa using member)
          have confined := extended.then_changesOnly inside changed
          simp only
          split
          next after text run => exact (congrArg Prod.fst run) ▸ confined
          next after run => exact (congrArg Prod.fst run) ▸ confined

def toRuntime (rt : InMemoryRuntime) : ExecutionRuntime where
  executeStep h request context :=
    let (h, result) := rt.runStep h request context
    (h, result.mapError RuntimeFailure.message)
  confined := rt.runStep_confined

/-- The budget is the last thing checked before the step is run. -/
theorem runStep_budget_iff (rt : InMemoryRuntime) (h : PyHeap) {request : StepRequest}
    (context : ExecutionContext) (execution : request.executionId ≠ "")
    (agent : request.agentId ≠ "") :
    (∃ limit consumed,
      (rt.runStep h request context).2 = .error (.budgetExceeded limit consumed)) ↔
        request.goal ≠ "" ∧ context.budgetRemaining ≤ 0 := by
  unfold runStep
  by_cases goal : request.goal = ""
  · simp [validateRequest, execution, agent, goal]
  · by_cases spent : context.budgetRemaining ≤ 0
    · simp [validateRequest, checkBudget, execution, agent, goal, spent]
    · simp only [validateRequest, checkBudget, execution, agent, goal, spent, if_false,
        List.append_nil, if_true, ne_eq, not_false_eq_true, true_and, iff_false]
      rintro ⟨limit, consumed, raised⟩
      split at raised
      next => cases raised
      next =>
        split at raised
        next => cases raised
        next => split at raised <;> cases raised

end InMemoryRuntime

def BudgetRejected {α : Type} (rt : InMemoryRuntime) (o : Outcome α) : Prop :=
  ∃ call, o.invoked = some call ∧ ∃ limit consumed,
    (rt.runStep call.heap call.request call.context).2 = .error (.budgetExceeded limit consumed)

/-- A step planned for execution passes the check of the budget; an exhausted budget pauses
the execution, and no check of the budget touches its machine. -/
structure BudgetAgrees (adapter : RuntimeExecutorAdapter) (rt : InMemoryRuntime) (h : PyHeap)
    (args : StepArguments) (sm : ExecutionStateMachine) (now : DateTime) : Prop where
  accepted : (adapter.planOf h args).action = .execute →
    ¬ BudgetRejected rt (adapter.planAndExecute rt.toRuntime h args sm now)
  paused : args.stepNumber < adapter.coordinator.maxSteps →
    args.budgetRemaining.nonPositive = true →
      (adapter.planOf h args).action = .pauseForApproval ∧
        (adapter.planAndExecute rt.toRuntime h args sm now).machine = sm
  untouched : BudgetRejected rt (adapter.planAndExecute rt.toRuntime h args sm now) →
    (adapter.planAndExecute rt.toRuntime h args sm now).machine = sm

theorem PyFloat.toInt_nonpos_iff {q : ℚ} (positive : 0 < q) {i : Int}
    (converted : (PyFloat.finite q).toInt = .ok i) : i ≤ 0 ↔ q < 1 := by
  have floor : ⌊q⌋ = i := by
    simpa [PyFloat.toInt, not_lt.mpr positive.le] using converted
  rw [← floor, ← Int.lt_add_one_iff, Int.floor_lt]
  norm_num

section budget
variable {adapter : RuntimeExecutorAdapter} {h : PyHeap} {args : StepArguments}

theorem not_rejected_of_other (other : (adapter.planOf h args).action ≠ .execute)
    (rt : InMemoryRuntime) (sm : ExecutionStateMachine) (now : DateTime) :
    ¬ BudgetRejected rt (adapter.planAndExecute rt.toRuntime h args sm now) := by
  simp [BudgetRejected, planAndExecute_other other]

theorem budgetRejected_iff (typed : Typed adapter h args) (execution : args.executionId ≠ "")
    (agent : args.agentId ≠ "") {q : ℚ} (finite : args.budgetRemaining = .finite q)
    (positive : 0 < q) (rt : InMemoryRuntime) (sm : ExecutionStateMachine) (now : DateTime) :
    BudgetRejected rt (adapter.planAndExecute rt.toRuntime h args sm now) ↔
      (adapter.planOf h args).action = .execute ∧ h.Copyable args.state ∧ args.goal ≠ "" ∧
        q < 1 := by
  by_cases execute : (adapter.planOf h args).action = .execute
  · rw [planAndExecute_execute execute]
    by_cases copyable : h.Copyable args.state
    · obtain ⟨call, begun, prepared⟩ :=
        RuntimeExecutorAdapter.prepare_ok typed ⟨execution, agent, ⟨q, finite⟩, copyable⟩
      have rejected := rt.runStep_budget_iff call.heap call.context
        (prepared.executionId ▸ execution) (prepared.agentId ▸ agent)
      rw [prepared.goal, PyFloat.toInt_nonpos_iff positive (finite ▸ prepared.budget)] at rejected
      simp only [BudgetRejected, executeStep_invoked begun, Option.some.injEq, exists_eq_left',
        rejected, execute, copyable, true_and]
    · have idle : (adapter.executeStep rt.toRuntime h args sm now).invoked = none := by
        by_contra invoked
        exact copyable ((executeStep_invoked_iff typed _ sm now).mp invoked).copyable
      simp [BudgetRejected, idle, copyable]
  · simp [not_rejected_of_other execute, execute]

theorem budgetAgrees_iff_accepted (rt : InMemoryRuntime) (sm : ExecutionStateMachine)
    (now : DateTime) : BudgetAgrees adapter rt h args sm now ↔
      ¬ BudgetRejected rt (adapter.planAndExecute rt.toRuntime h args sm now) := by
  constructor
  · intro agrees rejected
    by_cases execute : (adapter.planOf h args).action = .execute
    · exact agrees.accepted execute rejected
    · exact not_rejected_of_other execute rt sm now rejected
  · intro accepted
    refine ⟨fun _ => accepted, fun below exhausted => ?_, fun rejected => absurd rejected accepted⟩
    have pause : (adapter.planOf h args).action = .pauseForApproval := by
      simp [RuntimeExecutorAdapter.planOf, StepCoordinator.planStep, not_le.mpr below, exhausted]
    exact ⟨pause, by rw [planAndExecute_other (by simp [pause])]⟩

/-- A positive budget below one is planned with and turned down, unless something else stands
in the way first. -/
theorem budgetAgrees_iff (typed : Typed adapter h args) (execution : args.executionId ≠ "")
    (agent : args.agentId ≠ "") {q : ℚ} (finite : args.budgetRemaining = .finite q)
    (rt : InMemoryRuntime) (sm : ExecutionStateMachine) (now : DateTime) :
    BudgetAgrees adapter rt h args sm now ↔
      q ≤ 0 ∨ 1 ≤ q ∨ adapter.coordinator.maxSteps ≤ args.stepNumber ∨
        listAt h args.allowedTools = [] ∨ args.goal = "" ∨ ¬ h.Copyable args.state := by
  rw [budgetAgrees_iff_accepted]
  rcases le_or_gt q 0 with exhausted | positive
  · have other : (adapter.planOf h args).action ≠ .execute := by
      simp [planOf_execute_iff, finite, PyFloat.nonPositive, exhausted]
    exact iff_of_true (not_rejected_of_other other rt sm now) (.inl exhausted)
  · rw [budgetRejected_iff typed execution agent finite positive, planOf_execute_iff]
    simp only [finite, PyFloat.nonPositive, not_le.mpr positive, decide_false, true_and, false_or]
    constructor
    · intro accepted
      by_contra! standing
      obtain ⟨low, below, tools, goal, copyable⟩ := standing
      exact accepted ⟨⟨below, tools⟩, copyable, goal, low⟩
    · rintro standing ⟨⟨below, tools⟩, copyable, goal, low⟩
      rcases standing with large | limit | none | empty | uncopyable
      · exact absurd large (not_le.mpr low)
      · exact absurd limit (not_le.mpr below)
      · exact tools none
      · exact goal empty
      · exact uncopyable copyable

theorem unwritten_confined (h : PyHeap) (repository : ℕ) (_ : Checkpoint DateTime) :
    Heap.ChangesOnly [repository] h h :=
  Heap.Extends.changesOnly List.prefix_rfl _

def sampleRuntime : InMemoryRuntime where
  save h _ _ := (h, .ok ())
  confined := unwritten_confined
  uuid := "6f1c2d3e-0000-4000-8000-000000000000"
  now := epoch

theorem budgetAgrees_iff_sample :
    BudgetAgrees sampleAdapter sampleRuntime sampleHeap sampleStep {} epoch ↔
      (100 : ℚ) ≤ 0 ∨ (1 : ℚ) ≤ 100 ∨ sampleAdapter.coordinator.maxSteps ≤ 1 ∨
        listAt sampleHeap 1 = [] ∨ "report" = "" ∨ ¬ sampleHeap.Copyable 0 :=
  budgetAgrees_iff (by decide) (by decide) (by decide) rfl sampleRuntime {} epoch

theorem sampleHeap_copyable : sampleHeap.Copyable 0 :=
  (Heap.deepcopy_ok_iff (by decide)).mp ⟨_, rfl⟩

/-- Half a token is left: the step is planned, turned down, and the execution is `FAILED`. -/
theorem half_token_fails :
    ¬ BudgetAgrees sampleAdapter sampleRuntime sampleHeap
        { sampleStep with budgetRemaining := .finite (1 / 2) } ⟨.running, []⟩ epoch ∧
      (sampleAdapter.planAndExecute sampleRuntime.toRuntime sampleHeap
        { sampleStep with budgetRemaining := .finite (1 / 2) } ⟨.running, []⟩
          epoch).machine.currentState = .failed := by
  refine ⟨fun agrees => ?_, by decide +kernel⟩
  refine (budgetAgrees_iff_accepted _ _ _).mp agrees ?_
  have planned : (sampleAdapter.planOf sampleHeap
      { sampleStep with budgetRemaining := .finite (1 / 2) }).action = .execute := by
    decide +kernel
  exact (budgetRejected_iff (by decide) (by decide) (by decide) rfl (by norm_num) _ _ _).mpr
    ⟨planned, sampleHeap_copyable, by decide, by norm_num⟩

end budget

end Kitematic.StepExecution

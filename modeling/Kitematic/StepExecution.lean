import Kitematic.Checkpoint
import Kitematic.ExecutionLifecycle
import Kitematic.Floats
import Kitematic.Objects

/-! The adapter that plans a step and has a runtime execute it, with the coordinator, the
context builder and the in-memory runtime. The caller's state and its list of tools are
objects, so that what is copied and what is shared shows. A runtime may change whatever
it is handed. The context is made for one call and not read after it, so what a runtime
writes to its fields is left out, and an exception is known by its text. -/

namespace Kitematic.StepExecution
open Checkpoints Dictionary ExecutionLifecycle IsoDate Objects PyText

inductive Scalar where
  | none
  | bool (b : Bool)
  | int (i : Int)
  | float (x : PyFloat)
  | str (s : String)
  deriving DecidableEq

def Scalar.typeName : Scalar → String
  | .none => "NoneType"
  | .bool _ => "bool"
  | .int _ => "int"
  | .float _ => "float"
  | .str _ => "str"

abbrev PyCell := Cell Scalar

abbrev PyObject := Object String Scalar

abbrev PyHeap := Heap String Scalar

def dictAt (h : PyHeap) (a : ℕ) : Dict String PyCell :=
  match h.get a with
  | some (.dict entries) => entries
  | _ => .empty

def listAt (h : PyHeap) (a : ℕ) : List PyCell :=
  match h.get a with
  | some (.list items) => items
  | _ => []

def typeName (h : PyHeap) : PyCell → String
  | .atom value => value.typeName
  | .ref a => ((h.get a).map Object.typeName).getD ""

structure StepRequest where
  executionId : String
  agentId : String
  goal : String
  state : ℕ
  allowedTools : ℕ
  allowedModels : ℕ
  maxTokens : Int := 50000
  maxTimeSeconds : Int := 3600

inductive StepStatus where
  | completed | toolRequest | approvalRequired | checkpointRequired | failed
  deriving DecidableEq

structure ToolRequest where
  mcpServer : String
  toolName : String
  arguments : ℕ

structure StepResponse where
  status : StepStatus
  updatedState : ℕ
  output : String := ""
  toolRequest : Option ToolRequest := none
  errorMessage : String := ""
  tokensConsumed : Int := 0

structure ExecutionContext where
  executionId : String
  agentId : String
  stepNumber : Int
  state : ℕ
  budgetRemaining : Int
  tokensPerStep : Int := 10
  allowedTools : ℕ
  metadata : ℕ
  tokensConsumed : Int := 0
  memory : Option ℕ := none
  checkpoint : Option ℕ := none

def handed (request : StepRequest) (context : ExecutionContext) : List ℕ :=
  [request.state, request.allowedTools, request.allowedModels, context.state,
    context.allowedTools, context.metadata] ++ context.memory.toList ++ context.checkpoint.toList

/-- How a runtime behaves in a call: it answers or raises, and changes at most what it
reaches from the objects it is handed. -/
structure ExecutionRuntime where
  executeStep : PyHeap → StepRequest → ExecutionContext → PyHeap × Except String StepResponse
  confined : ∀ (h : PyHeap) request context, (∀ a ∈ handed request context, a < h.size) →
    h.ChangesOnly (handed request context) (executeStep h request context).1

structure ContextBuilder where
  executionId : String
  agentId : String
  stepNumber : Int := 0
  budgetRemaining : Int := 0
  tokensPerStep : Int := 10
  state : ℕ
  allowedTools : ℕ
  metadata : ℕ
  tokensConsumed : Int := 0
  memory : Option ℕ := none
  checkpoint : Option ℕ := none

def newDict (h : PyHeap) : PyHeap × ℕ := h.alloc (.dict .empty) (by simp)

def newList (h : PyHeap) : PyHeap × ℕ := h.alloc (.list []) (by simp)

namespace ContextBuilder

def new (h : PyHeap) (executionId agentId : String) : Except String (PyHeap × ContextBuilder) :=
  if executionId = "" then .error "execution_id is required"
  else if agentId = "" then .error "agent_id is required"
  else
    let (h, state) := newDict h
    let (h, allowedTools) := newList h
    let (h, metadata) := newDict h
    .ok (h, { executionId, agentId, state, allowedTools, metadata })

def withStepNumber (b : ContextBuilder) (stepNumber : Int) : ContextBuilder :=
  { b with stepNumber }

def withBudget (b : ContextBuilder) (budget : Int) : ContextBuilder :=
  { b with budgetRemaining := budget }

def withState (b : ContextBuilder) (h : PyHeap) (state : ℕ) :
    Except String (PyHeap × ContextBuilder) := do
  let (h, state) ← h.deepcopy state
  return (h, { b with state })

def withAllowedTools (b : ContextBuilder) (h : PyHeap) (tools : ℕ) :
    Except String (PyHeap × ContextBuilder) := do
  let (h, allowedTools) ← h.deepcopy tools
  return (h, { b with allowedTools })

def withMemory (b : ContextBuilder) (memory : Option ℕ) : ContextBuilder := { b with memory }

def withCheckpoint (b : ContextBuilder) (checkpoint : Option ℕ) : ContextBuilder :=
  { b with checkpoint }

def build (b : ContextBuilder) (h : PyHeap) : Except String (PyHeap × ExecutionContext) := do
  let (h, state) ← h.deepcopy b.state
  let (h, allowedTools) ← h.deepcopy b.allowedTools
  let (h, metadata) ← h.deepcopy b.metadata
  return (h, {
    executionId := b.executionId
    agentId := b.agentId
    stepNumber := b.stepNumber
    state
    budgetRemaining := b.budgetRemaining
    tokensPerStep := b.tokensPerStep
    allowedTools
    metadata
    tokensConsumed := b.tokensConsumed
    memory := b.memory
    checkpoint := b.checkpoint })

end ContextBuilder

inductive StepAction where
  | execute | pauseForApproval | checkpoint | complete | fail
  deriving DecidableEq

structure StepPlan where
  action : StepAction
  executionId : String
  stepNumber : Int
  reason : String
  metadata : Option Payload := none

structure StepCoordinator where
  maxSteps : Int := 100

namespace StepCoordinator

def planStep (c : StepCoordinator) (executionId : String) (stepNumber : Int) (_goal : String)
    (budgetRemaining : PyFloat) (allowedTools : List PyCell) : StepPlan :=
  if c.maxSteps ≤ stepNumber then ⟨.complete, executionId, stepNumber, "max_steps_reached", none⟩
  else if budgetRemaining.nonPositive then
    ⟨.pauseForApproval, executionId, stepNumber, "budget_exceeded", none⟩
  else if allowedTools = [] then ⟨.complete, executionId, stepNumber, "no_tools_available", none⟩
  else ⟨.execute, executionId, stepNumber, "ready_to_execute", none⟩

def validateStepPrerequisites (_c : StepCoordinator) (currentState : String)
    (stepNumber maxSteps : Int) : Bool × String :=
  if currentState ∉ ["RUNNING", "RESUMING"] then
    (false, "Cannot execute step in state: " ++ currentState)
  else if maxSteps ≤ stepNumber then (false, "Step limit exceeded")
  else (true, "prerequisites_met")

end StepCoordinator

structure StepArguments where
  executionId : String
  agentId : String
  goal : String
  stepNumber : Int
  state : ℕ
  budgetRemaining : PyFloat
  allowedTools : ℕ

/-- What a runtime was called on. -/
structure Invocation where
  heap : PyHeap
  request : StepRequest
  context : ExecutionContext

/-- What is left after a call, with what the runtime was called on and what the call
returns or raises. -/
structure Outcome (α : Type) where
  heap : PyHeap
  machine : ExecutionStateMachine
  invoked : Option Invocation
  result : Except String α

structure RuntimeExecutorAdapter where
  coordinator : StepCoordinator := {}
  memory : Option ℕ := none
  checkpoint : Option ℕ := none

namespace RuntimeExecutorAdapter

/-- What `execute_step` does before its `try`. -/
def prepare (adapter : RuntimeExecutorAdapter) (h : PyHeap) (args : StepArguments) :
    Except String Invocation := do
  let (h, safeState) ← h.deepcopy args.state
  let (h, builder) ← ContextBuilder.new h args.executionId args.agentId
  let budget ← args.budgetRemaining.toInt
  let (h, builder) ←
    ((builder.withBudget budget).withStepNumber args.stepNumber).withState h safeState
  let (h, builder) ← builder.withAllowedTools h args.allowedTools
  let (h, context) ←
    ((builder.withMemory adapter.memory).withCheckpoint adapter.checkpoint).build h
  let (h, allowedModels) := newList h
  return ⟨h, {
    executionId := args.executionId
    agentId := args.agentId
    goal := args.goal
    state := safeState
    allowedTools := args.allowedTools
    allowedModels }, context⟩

def reportFailure (sm : ExecutionStateMachine) (reason : String) (now : DateTime)
    (response : StepResponse) : ExecutionStateMachine × Except String StepResponse :=
  let (sm, reported) := sm.transitionIfLegal .failed reason "runtime_adapter" now
  (sm, match reported with
    | .error e => .error e.message
    | .ok () => .ok response)

def executeStep (adapter : RuntimeExecutorAdapter) (runtime : ExecutionRuntime) (h : PyHeap)
    (args : StepArguments) (sm : ExecutionStateMachine) (now : DateTime) : Outcome StepResponse :=
  match adapter.prepare h args with
  | .error text => ⟨h, sm, none, .error text⟩
  | .ok call =>
      match runtime.executeStep call.heap call.request call.context with
      | (h, .error text) =>
          let (h, updatedState) := newDict h
          let (sm, result) := reportFailure sm text now
            { status := .failed, updatedState, errorMessage := text, tokensConsumed := 0 }
          ⟨h, sm, some call, result⟩
      | (h, .ok response) =>
          if response.status = .failed then
            let (sm, result) := reportFailure sm
              (if response.errorMessage = "" then "step_execution_failed"
                else response.errorMessage) now response
            ⟨h, sm, some call, result⟩
          else ⟨h, sm, some call, .ok response⟩

def planAndExecute (adapter : RuntimeExecutorAdapter) (runtime : ExecutionRuntime) (h : PyHeap)
    (args : StepArguments) (sm : ExecutionStateMachine) (now : DateTime) :
    Outcome (StepPlan × Option StepResponse) :=
  let plan := adapter.coordinator.planStep args.executionId args.stepNumber args.goal
    args.budgetRemaining (listAt h args.allowedTools)
  if plan.action ≠ .execute then ⟨h, sm, none, .ok (plan, none)⟩
  else
    let outcome := adapter.executeStep runtime h { args with stepNumber := plan.stepNumber } sm now
    { outcome with result := outcome.result.map fun response => (plan, some response) }

def injected (adapter : RuntimeExecutorAdapter) : List ℕ :=
  adapter.memory.toList ++ adapter.checkpoint.toList

end RuntimeExecutorAdapter

def isDict : Option PyObject → Bool
  | some (.dict _) => true
  | _ => false

def isString : PyCell → Bool
  | .atom (.str _) => true
  | _ => false

def isStringList : Option PyObject → Bool
  | some (.list items) => items.all isString
  | _ => false

/-- The state is a dictionary, the tools are a list of strings, and the adapter was made
with objects that exist. -/
def Typed (adapter : RuntimeExecutorAdapter) (h : PyHeap) (args : StepArguments) : Prop :=
  isDict (h.get args.state) = true ∧ isStringList (h.get args.allowedTools) = true ∧
    ∀ a ∈ adapter.injected, a < h.size

instance (adapter : RuntimeExecutorAdapter) (h : PyHeap) (args : StepArguments) :
    Decidable (Typed adapter h args) :=
  inferInstanceAs (Decidable (_ ∧ _ ∧ _))

/-- Nothing that `execute_step` does before its `try` raises. -/
structure Preparable (h : PyHeap) (args : StepArguments) : Prop where
  executionId : args.executionId ≠ ""
  agentId : args.agentId ≠ ""
  finite : ∃ q, args.budgetRemaining = .finite q
  copyable : h.Copyable args.state

structure Prepared (adapter : RuntimeExecutorAdapter) (h : PyHeap) (args : StepArguments)
    (call : Invocation) : Prop where
  grown : h.Grown call.heap
  executionId : call.request.executionId = args.executionId
  agentId : call.request.agentId = args.agentId
  goal : call.request.goal = args.goal
  budget : args.budgetRemaining.toInt = .ok call.context.budgetRemaining
  given : ∀ a ∈ handed call.request call.context,
    h.New call.heap a ∨ a ∈ args.allowedTools :: adapter.injected
  shared : ∀ a ∈ args.allowedTools :: adapter.injected, a ∈ handed call.request call.context

section prepare
variable {adapter : RuntimeExecutorAdapter} {h : PyHeap} {args : StepArguments}

theorem Typed.state_lt (typed : Typed adapter h args) : args.state < h.size := by
  have dict := typed.1
  cases found : h.get args.state with
  | none => simp [found, isDict] at dict
  | some o => exact Heap.get_lt found

theorem Typed.tools (typed : Typed adapter h args) : ∃ items, h.get args.allowedTools =
    some (.list items) ∧ (.list items : PyObject).refs = [] := by
  have strings := typed.2.1
  unfold isStringList at strings
  split at strings
  next items found =>
    refine ⟨items, found, List.filterMap_eq_nil_iff.mpr fun cell member => ?_⟩
    have isText := List.all_eq_true.mp strings cell member
    cases cell with
    | atom value => rfl
    | ref a => cases isText
  next => cases strings

theorem Typed.shared_lt (typed : Typed adapter h args) :
    ∀ a ∈ args.allowedTools :: adapter.injected, a < h.size := by
  intro a member
  rcases List.mem_cons.mp member with rfl | member
  · obtain ⟨items, found, _⟩ := typed.tools
    exact Heap.get_lt found
  · exact typed.2.2 a member

theorem Typed.tools_copyable (typed : Typed adapter h args) {h' : PyHeap} (more : h.Extends h') :
    h'.Copyable args.allowedTools := by
  obtain ⟨items, found, lone⟩ := typed.tools
  have kept : h'.get args.allowedTools = some (.list items) :=
    (more.get (Heap.get_lt found)).trans found
  intro b o path stored
  have only : b = args.allowedTools := by
    rcases Relation.ReflTransGen.cases_head path with same | ⟨c, edge, _⟩
    · exact same.symm
    · simp [Heap.refs_of_get kept, lone] at edge
  rw [only, kept] at stored
  cases stored
  rfl

theorem toInt_ok_iff (x : PyFloat) : (∃ i, x.toInt = .ok i) ↔ ∃ q, x = .finite q := by
  cases x <;> simp [PyFloat.toInt]

theorem newDict_grown (h : PyHeap) : h.Grown (newDict h).1 := h.alloc_grown rfl rfl _

theorem newDict_new (h : PyHeap) : h.New (newDict h).1 (newDict h).2 := h.alloc_new _ _

theorem newList_grown (h : PyHeap) : h.Grown (newList h).1 := h.alloc_grown rfl rfl _

theorem newList_new (h : PyHeap) : h.New (newList h).1 (newList h).2 := h.alloc_new _ _

theorem ContextBuilder.new_ok (h : PyHeap) {executionId agentId : String}
    (execution : executionId ≠ "") (agent : agentId ≠ "") : ∃ h' state allowedTools metadata,
      ContextBuilder.new h executionId agentId =
        .ok (h', { executionId, agentId, state, allowedTools, metadata }) ∧
      h.Grown h' ∧ h.New h' metadata := by
  have withDict := newDict_grown h
  have withList := withDict.trans (newList_grown (newDict h).1)
  refine ⟨(newDict (newList (newDict h).1).1).1, (newDict h).2, (newList (newDict h).1).2,
    (newDict (newList (newDict h).1).1).2, ?_, withList.trans (newDict_grown _),
    .weaken withList.kept (newDict_new _)⟩
  simp [ContextBuilder.new, execution, agent]

theorem ContextBuilder.build_ok {h h' : PyHeap} (grown : h.Grown h') (b : ContextBuilder)
    (state : h.New h' b.state) (tools : h.New h' b.allowedTools) (metadata : h.New h' b.metadata) :
    ∃ h'' context, b.build h' = .ok (h'', context) ∧ h.Grown h'' ∧ h'.Extends h'' ∧
      (∀ a ∈ [context.state, context.allowedTools, context.metadata], h.New h'' a) ∧
      context.budgetRemaining = b.budgetRemaining ∧ context.memory = b.memory ∧
      context.checkpoint = b.checkpoint := by
  obtain ⟨h₁, state', first, upTo₁, more₁, new₁⟩ := grown.deepcopy state
  obtain ⟨h₂, tools', second, upTo₂, more₂, new₂⟩ := upTo₁.deepcopy (tools.extend more₁)
  obtain ⟨h₃, metadata', third, upTo₃, more₃, new₃⟩ :=
    upTo₂.deepcopy ((metadata.extend more₁).extend more₂)
  refine ⟨h₃, ⟨b.executionId, b.agentId, b.stepNumber, state', b.budgetRemaining,
    b.tokensPerStep, tools', metadata', b.tokensConsumed, b.memory, b.checkpoint⟩, ?_, upTo₃,
    (more₁.trans more₂).trans more₃, ?_, rfl, rfl, rfl⟩
  · simp [build, first, second, third, bind, Except.bind, pure, Except.pure]
  · intro a member
    simp only [List.mem_cons, List.not_mem_nil, or_false] at member
    rcases member with rfl | rfl | rfl
    · exact (new₁.extend more₂).extend more₃
    · exact new₂.extend more₃
    · exact new₃

/-- Everything the runtime is handed is new, but for the caller's tools and what the
adapter was made with. -/
theorem RuntimeExecutorAdapter.prepare_ok (typed : Typed adapter h args)
    (able : Preparable h args) : ∃ call, adapter.prepare h args = .ok call ∧
      Prepared adapter h args call := by
  obtain ⟨budget, converted⟩ := (toInt_ok_iff args.budgetRemaining).mpr able.finite
  obtain ⟨h₁, safeState, copied, grown₁, safe⟩ := able.copyable.deepcopy typed.state_lt
  obtain ⟨h₂, _, _, metadata, begun, grown₂, fresh⟩ :=
    ContextBuilder.new_ok h₁ able.executionId able.agentId
  have upTo₂ := grown₁.trans grown₂
  obtain ⟨h₃, state, withState, upTo₃, more₃, ofState⟩ := upTo₂.deepcopy (safe.extend grown₂.kept)
  obtain ⟨h₄, tools, withTools, grown₄, ofTools⟩ := (typed.tools_copyable upTo₃.kept).deepcopy
    (Nat.lt_of_lt_of_le (typed.shared_lt _ List.mem_cons_self) upTo₃.kept.size_le)
  have upTo₄ := upTo₃.trans grown₄
  obtain ⟨h₅, context, built, upTo₅, more₅, ofContext, ofBudget, ofMemory, ofCheckpoint⟩ :=
    ContextBuilder.build_ok upTo₄ ⟨args.executionId, args.agentId, args.stepNumber, budget, 10,
      state, tools, metadata, 0, adapter.memory, adapter.checkpoint⟩ (ofState.extend grown₄.kept)
      (.weaken upTo₃.kept ofTools)
      (((Heap.New.weaken grown₁.kept fresh).extend more₃).extend grown₄.kept)
  have last := (newList_grown h₅).kept
  refine ⟨⟨(newList h₅).1, ⟨args.executionId, args.agentId, args.goal, safeState,
    args.allowedTools, (newList h₅).2, 50000, 3600⟩, context⟩, ?_,
    upTo₅.trans (newList_grown h₅), rfl, rfl, rfl, ofBudget ▸ converted, ?_, ?_⟩
  · simp [prepare, converted, copied, begun, withState, withTools, ContextBuilder.withState,
      ContextBuilder.withAllowedTools, ContextBuilder.withBudget, ContextBuilder.withStepNumber,
      ContextBuilder.withMemory, ContextBuilder.withCheckpoint, built, bind, Except.bind, pure,
      Except.pure]
  · intro a member
    simp only [handed, injected, ofMemory, ofCheckpoint, List.mem_append, List.mem_cons,
      List.not_mem_nil, or_false] at member ⊢
    rcases member with ((rfl | rfl | rfl | rfl | rfl | rfl) | inMemory) | inCheckpoint
    · exact .inl ((((safe.extend grown₂.kept).extend more₃).extend grown₄.kept).extend
        (more₅.trans last))
    · exact .inr (.inl rfl)
    · exact .inl (.weaken upTo₅.kept (newList_new h₅))
    · exact .inl ((ofContext _ (by simp)).extend last)
    · exact .inl ((ofContext _ (by simp)).extend last)
    · exact .inl ((ofContext _ (by simp)).extend last)
    · exact .inr (.inr (.inl inMemory))
    · exact .inr (.inr (.inr inCheckpoint))
  · intro a member
    simp only [handed, injected, ofMemory, ofCheckpoint, List.mem_append, List.mem_cons,
      List.not_mem_nil, or_false] at member ⊢
    tauto

/-- What `execute_step` does before its `try` raises nothing just where it can be done. -/
theorem RuntimeExecutorAdapter.prepare_ok_iff (typed : Typed adapter h args) :
    (∃ call, adapter.prepare h args = .ok call) ↔ Preparable h args := by
  refine ⟨fun ⟨call, prepared⟩ => ?_, fun able => ?_⟩
  · unfold prepare at prepared
    cases copied : h.deepcopy args.state with
    | error text => simp [copied, bind, Except.bind] at prepared
    | ok copy =>
      have copyable := (Heap.deepcopy_ok_iff typed.state_lt).mp ⟨copy, copied⟩
      cases begun : ContextBuilder.new copy.1 args.executionId args.agentId with
      | error text => simp [copied, begun, bind, Except.bind] at prepared
      | ok builder =>
        have named : args.executionId ≠ "" ∧ args.agentId ≠ "" := by
          unfold ContextBuilder.new at begun
          split_ifs at begun with execution agent
          exact ⟨execution, agent⟩
        cases converted : args.budgetRemaining.toInt with
        | error text => simp [copied, begun, converted, bind, Except.bind] at prepared
        | ok budget =>
          exact ⟨named.1, named.2, (toInt_ok_iff _).mp ⟨budget, converted⟩, copyable⟩
  · obtain ⟨call, prepared, _⟩ := prepare_ok typed able
    exact ⟨call, prepared⟩

end prepare

end Kitematic.StepExecution

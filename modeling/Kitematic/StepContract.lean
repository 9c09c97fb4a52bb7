import Kitematic.StepExecution

/-! What a step promises whatever the runtime does: an answer, a state machine that
tells the failure, and the caller's state as it was; and over the calls on one adapter,
that only executions that run or resume are given steps. -/

namespace Kitematic.StepExecution
open Dictionary ExecutionLifecycle IsoDate Objects PyText

/-- The caller's state shares no object with its tools or with what the adapter was made with. -/
def Separate (adapter : RuntimeExecutorAdapter) (h : PyHeap) (args : StepArguments) : Prop :=
  ∀ a, h.Reach args.state a → ∀ root ∈ args.allowedTools :: adapter.injected, ¬ h.Reach root a

/-- The answer to an executed step is `FAILED` or the runtime's own, the machine is `FAILED`
with it where that is legal and untouched otherwise, and the caller's state is unmodified. -/
structure Fulfils {α : Type} (runtime : ExecutionRuntime) (h : PyHeap) (args : StepArguments)
    (sm : ExecutionStateMachine) (o : Outcome α) (response : StepResponse) : Prop where
  answered : response.status = .failed ∨ ∃ call, o.invoked = some call ∧
    (runtime.executeStep call.heap call.request call.context).2 = .ok response
  passed : ∀ call own, o.invoked = some call →
    (runtime.executeStep call.heap call.request call.context).2 = .ok own → response = own
  failed : response.status = .failed → o.machine.currentState = .failed ∨
    (sm.canTransition .failed = false ∧ o.machine = sm)
  succeeded : response.status ≠ .failed → o.machine = sm
  unmodified : ∀ a, h.Reach args.state a → o.heap.get a = h.get a

namespace RuntimeExecutorAdapter

/-- What is promised of `execute_step`. -/
def StepContract (adapter : RuntimeExecutorAdapter) (h : PyHeap) (args : StepArguments) : Prop :=
  ∀ runtime sm now, ∃ response,
    (adapter.executeStep runtime h args sm now).result = .ok response ∧
      Fulfils runtime h args sm (adapter.executeStep runtime h args sm now) response

/-- What is promised of `plan_and_execute`. -/
def PlanContract (adapter : RuntimeExecutorAdapter) (h : PyHeap) (args : StepArguments) : Prop :=
  ∀ runtime sm now, ∃ plan answer,
    (adapter.planAndExecute runtime h args sm now).result = .ok (plan, answer) ∧
      match answer with
      | some response => Fulfils runtime h args sm (adapter.planAndExecute runtime h args sm now)
          response
      | none => plan.action ≠ .execute ∧
          (adapter.planAndExecute runtime h args sm now).machine = sm ∧
          ∀ a, h.Reach args.state a →
            (adapter.planAndExecute runtime h args sm now).heap.get a = h.get a

end RuntimeExecutorAdapter

section contract
variable {adapter : RuntimeExecutorAdapter} {h : PyHeap} {args : StepArguments}

theorem Fulfils.of_same {α β : Type} {runtime : ExecutionRuntime} {sm : ExecutionStateMachine}
    {o : Outcome α} {o' : Outcome β} {response : StepResponse}
    (promised : Fulfils runtime h args sm o response) (heap : o'.heap = o.heap)
    (machine : o'.machine = o.machine) (invoked : o'.invoked = o.invoked) :
    Fulfils runtime h args sm o' response where
  answered := invoked ▸ promised.answered
  passed := invoked ▸ promised.passed
  failed := machine ▸ promised.failed
  succeeded := machine ▸ promised.succeeded
  unmodified := heap ▸ promised.unmodified

theorem reportFailure_eq (sm : ExecutionStateMachine) (reason : String) (now : DateTime)
    (response : StepResponse) : RuntimeExecutorAdapter.reportFailure sm reason now response =
      (if sm.canTransition .failed then sm.moved .failed reason "runtime_adapter" now [] else sm,
        .ok response) := by
  rw [RuntimeExecutorAdapter.reportFailure, ExecutionStateMachine.transitionIfLegal_eq]

theorem reportFailure_machine (sm : ExecutionStateMachine) (reason : String) (now : DateTime)
    (response : StepResponse) :
    (RuntimeExecutorAdapter.reportFailure sm reason now response).1.currentState = .failed ∨
      (sm.canTransition .failed = false ∧
        (RuntimeExecutorAdapter.reportFailure sm reason now response).1 = sm) := by
  rw [reportFailure_eq]
  cases legal : sm.canTransition .failed with
  | true => exact .inl rfl
  | false => exact .inr ⟨rfl, rfl⟩

theorem Prepared.changed {call : Invocation} (prepared : Prepared adapter h args call)
    (typed : Typed adapter h args) (runtime : ExecutionRuntime) :
    call.heap.ChangesOnly (handed call.request call.context)
      (runtime.executeStep call.heap call.request call.context).1 :=
  runtime.confined call.heap call.request call.context fun b member =>
    (prepared.given b member).elim And.right fun old =>
      Nat.lt_of_lt_of_le (typed.shared_lt b old) prepared.grown.kept.size_le

theorem Prepared.unmodified {call : Invocation} (prepared : Prepared adapter h args call)
    (typed : Typed adapter h args) (separate : Separate adapter h args)
    (runtime : ExecutionRuntime) {a : ℕ} (path : h.Reach args.state a) :
    (runtime.executeStep call.heap call.request call.context).1.get a = h.get a := by
  have below := Heap.reach_lt typed.state_lt path
  have longer := prepared.grown.kept.size_le
  rw [(prepared.changed typed runtime).frame a (Nat.lt_of_lt_of_le below longer) ?_,
    prepared.grown.kept.get below]
  intro root member reached
  rcases prepared.given root member with new | old
  · have := prepared.grown.reach_new new.1 reached
    omega
  · exact separate a path root old
      ((prepared.grown.kept.reach_iff (typed.shared_lt root old)).mp reached)

def failure (after : PyHeap) (text : String) : StepResponse where
  status := .failed
  updatedState := (newDict after).2
  errorMessage := text
  tokensConsumed := 0

theorem executeStep_raised {call : Invocation} (begun : adapter.prepare h args = .ok call)
    {runtime : ExecutionRuntime} {after : PyHeap} {text : String}
    (run : runtime.executeStep call.heap call.request call.context = (after, .error text))
    (sm : ExecutionStateMachine) (now : DateTime) :
    adapter.executeStep runtime h args sm now = ⟨(newDict after).1,
      (RuntimeExecutorAdapter.reportFailure sm text now (failure after text)).1, some call,
      .ok (failure after text)⟩ := by
  simp [RuntimeExecutorAdapter.executeStep, begun, run, failure, reportFailure_eq]

theorem executeStep_answered {call : Invocation} (begun : adapter.prepare h args = .ok call)
    {runtime : ExecutionRuntime} {after : PyHeap} {response : StepResponse}
    (run : runtime.executeStep call.heap call.request call.context = (after, .ok response))
    (sm : ExecutionStateMachine) (now : DateTime) :
    ∃ reason, adapter.executeStep runtime h args sm now = ⟨after,
      if response.status = .failed then
        (RuntimeExecutorAdapter.reportFailure sm reason now response).1 else sm,
      some call, .ok response⟩ := by
  refine ⟨if response.errorMessage = "" then "step_execution_failed" else response.errorMessage, ?_⟩
  by_cases failed : response.status = .failed
  · simp [RuntimeExecutorAdapter.executeStep, begun, run, failed, reportFailure_eq]
  · simp [RuntimeExecutorAdapter.executeStep, begun, run, failed]

theorem executeStep_fulfils (typed : Typed adapter h args) (able : Preparable h args)
    (separate : Separate adapter h args) : adapter.StepContract h args := by
  intro runtime sm now
  obtain ⟨call, begun, prepared⟩ := RuntimeExecutorAdapter.prepare_ok typed able
  have unmodified := fun a => @Prepared.unmodified _ _ _ _ prepared typed separate runtime a
  have longer := prepared.grown.kept.size_le.trans (prepared.changed typed runtime).size_le
  rcases run : runtime.executeStep call.heap call.request call.context with ⟨after, text | response⟩
  · rw [run] at unmodified longer
    rw [executeStep_raised begun run]
    refine ⟨failure after text, rfl, .inl rfl, ?_, ?_, ?_, ?_⟩
    · intro call' own same answered
      cases same
      rw [run] at answered
      cases answered
    · exact fun _ => reportFailure_machine sm text now (failure after text)
    · exact fun answered => absurd rfl answered
    · intro a path
      have below := Nat.lt_of_lt_of_le (Heap.reach_lt typed.state_lt path) longer
      exact ((newDict_grown after).kept.get below).trans (unmodified a path)
  · rw [run] at unmodified
    obtain ⟨reason, whole⟩ := executeStep_answered begun run sm now
    rw [whole]
    refine ⟨response, rfl, .inr ⟨call, rfl, by rw [run]⟩, ?_, ?_, ?_, unmodified⟩
    · intro call' own same answered
      cases same
      rw [run] at answered
      exact Except.ok.inj answered
    · intro failed
      simp only [failed, if_true]
      exact reportFailure_machine ..
    · intro succeeded
      simp only [succeeded, if_false]

def replacement : PyObject → PyObject
  | .list [] => .dict .empty
  | _ => .list []

theorem replacement_ne (o : PyObject) : replacement o ≠ o := by
  unfold replacement
  split
  · simp
  next other => exact fun same => other same.symm

theorem refs_replacement (o : PyObject) : (replacement o).refs = [] := by
  unfold replacement
  split <;> rfl

def overwriting (a : ℕ) : ExecutionRuntime where
  executeStep h request context :=
    (match h.get a with
      | some o =>
          if (handed request context).any fun root => a ∈ h.reachable root then
            h.put a (replacement o) (by simp [refs_replacement])
          else h
      | none => h,
      .ok { status := .completed, updatedState := request.state })
  confined h request context inside := by
    cases found : h.get a with
    | none => exact ⟨Nat.le_refl _, fun _ _ _ => rfl⟩
    | some o =>
      simp only
      split
      next reached =>
        obtain ⟨root, member, leads⟩ := List.any_eq_true.mp reached
        have path := (Heap.mem_reachable (inside root member)).mp (of_decide_eq_true leads)
        refine ⟨(Heap.size_put ..).ge, fun b _ apart => Heap.get_put_ne ?_⟩
        rintro rfl
        exact apart root member path
      next => exact ⟨Nat.le_refl _, fun _ _ _ => rfl⟩

/-- What the runtime reaches of the caller's state, it may change. -/
theorem separate_of_contract (typed : Typed adapter h args) (able : Preparable h args)
    (contract : adapter.StepContract h args) : Separate adapter h args := by
  intro a path root member leads
  obtain ⟨call, begun, prepared⟩ := RuntimeExecutorAdapter.prepare_ok typed able
  have below := Heap.reach_lt typed.state_lt path
  have kept := prepared.grown.kept
  have rootLt := typed.shared_lt root member
  obtain ⟨o, found⟩ : ∃ o, h.get a = some o := ⟨_, List.getElem?_eq_getElem below⟩
  have still : call.heap.get a = some o := (kept.get below).trans found
  have reached : ((handed call.request call.context).any fun root =>
      a ∈ call.heap.reachable root) = true := by
    refine List.any_eq_true.mpr ⟨root, prepared.shared root member, decide_eq_true ?_⟩
    exact (Heap.mem_reachable (Nat.lt_of_lt_of_le rootLt kept.size_le)).mpr
      ((kept.reach_iff rootLt).mpr leads)
  obtain ⟨response, _, fulfilled⟩ := contract (overwriting a) {} epoch
  have unmodified := fulfilled.unmodified a path
  have run : ((overwriting a).executeStep call.heap call.request call.context) =
      (call.heap.put a (replacement o) (by simp [refs_replacement]),
        .ok { status := .completed, updatedState := call.request.state }) := by
    simp only [overwriting, still, if_pos reached]
  obtain ⟨reason, whole⟩ := executeStep_answered begun run {} epoch
  rw [whole, found] at unmodified
  simp only at unmodified
  rw [Heap.get_put_self (Nat.lt_of_lt_of_le below kept.size_le)] at unmodified
  exact replacement_ne o (Option.some.inj unmodified)

theorem stepContract_iff (typed : Typed adapter h args) :
    adapter.StepContract h args ↔ Preparable h args ∧ Separate adapter h args := by
  constructor
  · intro contract
    have able : Preparable h args := by
      refine (RuntimeExecutorAdapter.prepare_ok_iff typed).mp ?_
      obtain ⟨response, answered, _⟩ := contract (overwriting 0) {} epoch
      cases begun : adapter.prepare h args with
      | ok call => exact ⟨call, rfl⟩
      | error text => simp [RuntimeExecutorAdapter.executeStep, begun] at answered
    exact ⟨able, separate_of_contract typed able contract⟩
  · rintro ⟨able, separate⟩
    exact executeStep_fulfils typed able separate

def RuntimeExecutorAdapter.planOf (adapter : RuntimeExecutorAdapter) (h : PyHeap)
    (args : StepArguments) : StepPlan :=
  adapter.coordinator.planStep args.executionId args.stepNumber args.goal args.budgetRemaining
    (listAt h args.allowedTools)

theorem planOf_stepNumber : (adapter.planOf h args).stepNumber = args.stepNumber := by
  unfold RuntimeExecutorAdapter.planOf StepCoordinator.planStep
  split_ifs <;> rfl

theorem planAndExecute_other (other : (adapter.planOf h args).action ≠ .execute)
    (runtime : ExecutionRuntime) (sm : ExecutionStateMachine) (now : DateTime) :
    adapter.planAndExecute runtime h args sm now =
      ⟨h, sm, none, .ok (adapter.planOf h args, none)⟩ :=
  if_pos other

theorem planAndExecute_execute (execute : (adapter.planOf h args).action = .execute)
    (runtime : ExecutionRuntime) (sm : ExecutionStateMachine) (now : DateTime) :
    adapter.planAndExecute runtime h args sm now =
      { adapter.executeStep runtime h args sm now with
        result := (adapter.executeStep runtime h args sm now).result.map fun response =>
          (adapter.planOf h args, some response) } := by
  have same : { args with stepNumber := (adapter.planOf h args).stepNumber } = args := by
    rw [planOf_stepNumber]
  refine (if_neg (not_not.mpr execute)).trans ?_
  rw [RuntimeExecutorAdapter.planOf] at same
  rw [same]
  rfl

/-- A step that is planned but not executed promises nothing more. -/
theorem planContract_iff : adapter.PlanContract h args ↔
    ((adapter.planOf h args).action = .execute → adapter.StepContract h args) := by
  by_cases execute : (adapter.planOf h args).action = .execute
  · simp only [execute, forall_const, RuntimeExecutorAdapter.PlanContract,
      planAndExecute_execute execute]
    constructor
    · intro contract runtime sm now
      obtain ⟨plan, answer, returned, promised⟩ := contract runtime sm now
      cases result : (adapter.executeStep runtime h args sm now).result with
      | error text => simp [result, Except.map] at returned
      | ok response =>
        rw [result] at returned
        cases returned
        exact ⟨response, rfl, promised.of_same rfl rfl rfl⟩
    · intro contract runtime sm now
      obtain ⟨response, answered, promised⟩ := contract runtime sm now
      exact ⟨adapter.planOf h args, some response, by rw [answered]; rfl,
        promised.of_same rfl rfl rfl⟩
  · refine iff_of_true (fun runtime sm now => ?_) fun planned => absurd planned execute
    rw [planAndExecute_other execute]
    exact ⟨adapter.planOf h args, none, rfl, execute, rfl, fun _ _ => rfl⟩

/-- A step keeps its promises whatever the runtime does where its context can be made and
the caller's state is its own. -/
theorem contract_iff (typed : Typed adapter h args) :
    adapter.StepContract h args ∧ adapter.PlanContract h args ↔
      Preparable h args ∧ Separate adapter h args := by
  rw [planContract_iff, stepContract_iff typed]
  exact and_iff_left_of_imp fun kept _ => kept

def sampleHeap : PyHeap := ⟨[.dict .empty, .list [.atom (.str "search")]], by decide⟩

def sampleStep : StepArguments where
  executionId := "exec-1"
  agentId := "agent-1"
  goal := "report"
  stepNumber := 1
  state := 0
  budgetRemaining := .finite 100
  allowedTools := 1

def sampleAdapter : RuntimeExecutorAdapter := {}

theorem contract_iff_sample :
    sampleAdapter.StepContract sampleHeap sampleStep ∧
      sampleAdapter.PlanContract sampleHeap sampleStep ↔
        Preparable sampleHeap sampleStep ∧ Separate sampleAdapter sampleHeap sampleStep :=
  contract_iff (by decide)

/-- Without an execution id the step raises. -/
theorem unnamed_raises :
    ¬ (sampleAdapter.StepContract sampleHeap { sampleStep with executionId := "" } ∧
      sampleAdapter.PlanContract sampleHeap { sampleStep with executionId := "" }) := by
  rintro ⟨contract, _⟩
  obtain ⟨response, answered, _⟩ := contract (overwriting 0) {} epoch
  have raised : (sampleAdapter.executeStep (overwriting 0) sampleHeap
      { sampleStep with executionId := "" } {} epoch).result =
        .error "execution_id is required" := rfl
  rw [raised] at answered
  cases answered

end contract

structure Session where
  heap : PyHeap
  machines : Dict String ExecutionStateMachine := .empty

inductive Action where
  | transition (machine : String) (target : ExecutionStatus) (reason actor : String)
      (now : DateTime) (metadata : Payload)
  | assign (heap : PyHeap)
  | planAndExecute (machine : String) (args : StepArguments) (runtime : ExecutionRuntime)
      (now : DateTime)

namespace Session

/-- A machine not seen before is a new one. -/
def machine (s : Session) (name : String) : ExecutionStateMachine :=
  (s.machines.get name).getD {}

/-- Between the calls the caller does with its objects what it likes. -/
def step (adapter : RuntimeExecutorAdapter) (s : Session) : Action → Option Session
  | .transition name target reason actor now metadata =>
      let (sm, _) := (s.machine name).transition target reason actor now metadata
      some { s with machines := s.machines.set name sm }
  | .assign heap => some { s with heap }
  | .planAndExecute name args runtime now =>
      if Typed adapter s.heap args then
        let outcome := adapter.planAndExecute runtime s.heap args (s.machine name) now
        some ⟨outcome.heap, s.machines.set name outcome.machine⟩
      else none

/-- The runtime is called for an execution that runs or resumes. -/
def Guarded (adapter : RuntimeExecutorAdapter) (_ : List Action) (s : Session) : Action → Prop
  | .planAndExecute name args runtime now =>
      (adapter.planAndExecute runtime s.heap args (s.machine name) now).invoked ≠ none →
        (s.machine name).currentState = .running ∨ (s.machine name).currentState = .resuming
  | _ => True

/-- Below the step limit, with a positive budget and tools, a step that can be prepared is
asked for only where the coordinator's prerequisites hold. -/
def MeetsPrerequisites (adapter : RuntimeExecutorAdapter) (_ : List Action) (s : Session) :
    Action → Prop
  | .planAndExecute name args _ _ =>
      args.stepNumber < adapter.coordinator.maxSteps → args.budgetRemaining.nonPositive = false →
        listAt s.heap args.allowedTools ≠ [] → Preparable s.heap args →
          (adapter.coordinator.validateStepPrerequisites (s.machine name).currentState.value
            args.stepNumber adapter.coordinator.maxSteps).1 = true
  | _ => True

end Session

section guard
variable {adapter : RuntimeExecutorAdapter} {h : PyHeap} {args : StepArguments}

theorem planOf_execute_iff : (adapter.planOf h args).action = .execute ↔
    args.stepNumber < adapter.coordinator.maxSteps ∧ args.budgetRemaining.nonPositive = false ∧
      listAt h args.allowedTools ≠ [] := by
  unfold RuntimeExecutorAdapter.planOf StepCoordinator.planStep
  split_ifs with limit budget tools <;> simp_all

theorem executeStep_invoked {call : Invocation} (begun : adapter.prepare h args = .ok call)
    {runtime : ExecutionRuntime} {sm : ExecutionStateMachine} {now : DateTime} :
    (adapter.executeStep runtime h args sm now).invoked = some call := by
  rcases run : runtime.executeStep call.heap call.request call.context with ⟨after, text | response⟩
  · rw [executeStep_raised begun run]
  · obtain ⟨reason, whole⟩ := executeStep_answered begun run sm now
    rw [whole]

theorem executeStep_invoked_iff (typed : Typed adapter h args) (runtime : ExecutionRuntime)
    (sm : ExecutionStateMachine) (now : DateTime) :
    (adapter.executeStep runtime h args sm now).invoked ≠ none ↔ Preparable h args := by
  rw [← RuntimeExecutorAdapter.prepare_ok_iff typed]
  cases begun : adapter.prepare h args with
  | error text => simp [RuntimeExecutorAdapter.executeStep, begun]
  | ok call => simp [executeStep_invoked begun]

theorem planAndExecute_invoked_iff (typed : Typed adapter h args) (runtime : ExecutionRuntime)
    (sm : ExecutionStateMachine) (now : DateTime) :
    (adapter.planAndExecute runtime h args sm now).invoked ≠ none ↔
      (adapter.planOf h args).action = .execute ∧ Preparable h args := by
  by_cases execute : (adapter.planOf h args).action = .execute
  · simpa [planAndExecute_execute execute, execute] using
      executeStep_invoked_iff typed runtime sm now
  · simp [planAndExecute_other execute, execute]

theorem prerequisites_iff (c : StepCoordinator) (status : ExecutionStatus) {step limit : Int}
    (below : step < limit) : (c.validateStepPrerequisites status.value step limit).1 = true ↔
      status = .running ∨ status = .resuming := by
  cases status <;> simp [StepCoordinator.validateStepPrerequisites, ExecutionStatus.value,
    not_le.mpr below]

/-- Steps are executed only for executions that run or resume exactly where the caller
keeps to the prerequisites that nobody checks. -/
theorem guarded_iff {s t : Session} {actions : List Action}
    (ran : Trace.run (Session.step adapter) s actions = some t) :
    Trace.EachStep (Session.step adapter) (Session.Guarded adapter) [] s actions ↔
      Trace.EachStep (Session.step adapter) (Session.MeetsPrerequisites adapter) [] s actions := by
  refine Trace.eachStep_congr (I := fun _ _ => True) (fun _ _ _ _ _ _ => trivial) ?_ trivial ran
  rintro past s (_ | _ | ⟨name, args, runtime, now⟩) t - stepped
  · exact Iff.rfl
  · exact Iff.rfl
  · have typed : Typed adapter s.heap args := by
      by_contra untyped
      simp [Session.step, untyped] at stepped
    simp only [Session.Guarded, Session.MeetsPrerequisites,
      planAndExecute_invoked_iff typed, planOf_execute_iff]
    constructor
    · intro guarded limit budget tools able
      exact (prerequisites_iff _ _ limit).mpr (guarded ⟨⟨limit, budget, tools⟩, able⟩)
    · rintro meets ⟨⟨limit, budget, tools⟩, able⟩
      exact (prerequisites_iff _ _ limit).mp (meets limit budget tools able)

/-- An execution that was begun and then asked for a step. -/
theorem guarded_iff_begun : ∃ t, Trace.run (Session.step sampleAdapter) ⟨sampleHeap, .empty⟩
    [.transition "exec-1" .running "begun" "caller" epoch [],
      .planAndExecute "exec-1" sampleStep (overwriting 0) epoch] = some t ∧
    (Trace.EachStep (Session.step sampleAdapter) (Session.Guarded sampleAdapter) []
        ⟨sampleHeap, .empty⟩ [.transition "exec-1" .running "begun" "caller" epoch [],
          .planAndExecute "exec-1" sampleStep (overwriting 0) epoch] ↔
      Trace.EachStep (Session.step sampleAdapter) (Session.MeetsPrerequisites sampleAdapter) []
        ⟨sampleHeap, .empty⟩ [.transition "exec-1" .running "begun" "caller" epoch [],
          .planAndExecute "exec-1" sampleStep (overwriting 0) epoch]) :=
  ⟨_, rfl, guarded_iff rfl⟩

/-- A new execution, which is `PENDING`, executes a step. -/
theorem pending_executes : ¬ Trace.EachStep (Session.step sampleAdapter)
    (Session.Guarded sampleAdapter) [] ⟨sampleHeap, .empty⟩
      [.planAndExecute "exec-1" sampleStep (overwriting 0) epoch] := by
  intro guarded
  have invoked : (sampleAdapter.planAndExecute (overwriting 0) sampleHeap sampleStep {}
      epoch).invoked.isSome = true := rfl
  have status := guarded.1 (Option.isSome_iff_ne_none.mp invoked)
  revert status
  decide

end guard

end Kitematic.StepExecution

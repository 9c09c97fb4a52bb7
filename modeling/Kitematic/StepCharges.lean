import Kitematic.InMemorySteps
import Kitematic.Trace

/-! What a step of the in-memory runtime charges to its context, over one call and over the
calls on one context. The context is charged before its repository is asked to save. -/

namespace Kitematic.StepExecution
open Checkpoints Dictionary ExecutionLifecycle IsoDate Objects PyText

structure StepOutcome where
  heap : PyHeap
  context : ExecutionContext
  result : Except RuntimeFailure StepResponse

def ExecutionContext.charged (context : ExecutionContext) : ExecutionContext :=
  { context with
    tokensConsumed := context.tokensConsumed + context.tokensPerStep
    budgetRemaining := context.budgetRemaining - context.tokensPerStep }

theorem ExecutionContext.charged_eq_iff (context : ExecutionContext) :
    context.charged = context ↔ context.tokensPerStep = 0 := by
  constructor
  · intro same
    have consumed := congrArg ExecutionContext.tokensConsumed same
    simp only [charged] at consumed
    omega
  · intro free
    simp only [charged, free, Int.add_zero, Int.sub_zero]
    exact free ▸ rfl

namespace InMemoryRuntime

def executeStep (rt : InMemoryRuntime) (h : PyHeap) (request : StepRequest)
    (context : ExecutionContext) : StepOutcome :=
  match validateRequest request with
  | .error e => ⟨h, context, .error e⟩
  | .ok () =>
      match checkBudget context with
      | .error e => ⟨h, context, .error e⟩
      | .ok () =>
          match stepsExecuted h (dictAt h request.state) >>= plusOne h with
          | .error text => ⟨h, context, .error (.other text)⟩
          | .ok steps =>
              let (h, updatedState) := updatedState h request.state steps context.stepNumber
              let tokens := context.tokensPerStep
              let context := context.charged
              let response : StepResponse := {
                status := .completed
                updatedState
                output := "Step " ++ toString context.stepNumber ++ " executed for goal: " ++
                  request.goal
                tokensConsumed := tokens }
              match context.checkpoint with
              | none => ⟨h, context, .ok response⟩
              | some repository =>
                  match rt.save h repository (rt.checkpointOf context) with
                  | (h, .error text) => ⟨h, context, .error (.other text)⟩
                  | (h, .ok ()) => ⟨h, context, .ok response⟩

theorem checkpointOf_charged (rt : InMemoryRuntime) (context : ExecutionContext) :
    rt.checkpointOf context.charged = rt.checkpointOf context := rfl

/-- What is checked and read before the charge lets the step pass, with what it counts. -/
def Passes (h : PyHeap) (request : StepRequest) (context : ExecutionContext)
    (steps : Scalar) : Prop :=
  validateRequest request = .ok () ∧ checkBudget context = .ok () ∧
    stepsExecuted h (dictAt h request.state) >>= plusOne h = .ok steps

def responseOf (h : PyHeap) (request : StepRequest) (context : ExecutionContext)
    (steps : Scalar) : StepResponse where
  status := .completed
  updatedState := (updatedState h request.state steps context.stepNumber).2
  output := "Step " ++ toString context.stepNumber ++ " executed for goal: " ++ request.goal
  tokensConsumed := context.tokensPerStep

/-- The repository that the context carries, if any, takes the checkpoint of the step. -/
def saved (rt : InMemoryRuntime) (h : PyHeap) (request : StepRequest)
    (context : ExecutionContext) (steps : Scalar) : PyHeap × Except String Unit :=
  let h := (updatedState h request.state steps context.stepNumber).1
  match context.checkpoint with
  | none => (h, .ok ())
  | some repository => rt.save h repository (rt.checkpointOf context)

theorem executeStep_passes (rt : InMemoryRuntime) {h : PyHeap} {request : StepRequest}
    {context : ExecutionContext} {steps : Scalar} (passes : Passes h request context steps) :
    rt.executeStep h request context =
      ⟨(rt.saved h request context steps).1, context.charged,
        match (rt.saved h request context steps).2 with
        | .error text => .error (.other text)
        | .ok () => .ok (responseOf h request context steps)⟩ := by
  obtain ⟨valid, left, counted⟩ := passes
  have same : context.charged.checkpoint = context.checkpoint := rfl
  simp only [executeStep, valid, left, counted, same, saved]
  cases context.checkpoint with
  | none => rfl
  | some repository =>
    simp only [checkpointOf_charged]
    split
    next raised => simp only [raised]
    next done => simp only [done]; rfl

theorem executeStep_turned_down (rt : InMemoryRuntime) {h : PyHeap} {request : StepRequest}
    {context : ExecutionContext} (stopped : ∀ steps, ¬ Passes h request context steps) :
    ∃ e, rt.executeStep h request context = ⟨h, context, .error e⟩ := by
  unfold executeStep
  cases valid : validateRequest request with
  | error e => exact ⟨e, rfl⟩
  | ok done =>
    cases left : checkBudget context with
    | error e => exact ⟨e, rfl⟩
    | ok done =>
      cases counted : stepsExecuted h (dictAt h request.state) >>= plusOne h with
      | error text => exact ⟨.other text, rfl⟩
      | ok steps => exact absurd ⟨valid, left, counted⟩ (stopped steps)

theorem runStep_eq (rt : InMemoryRuntime) (h : PyHeap) (request : StepRequest)
    (context : ExecutionContext) : rt.runStep h request context =
      ((rt.executeStep h request context).heap, (rt.executeStep h request context).result) := by
  cases valid : validateRequest request with
  | error e => simp only [runStep, executeStep, valid]
  | ok done =>
    cases left : checkBudget context with
    | error e => simp only [runStep, executeStep, valid, left]
    | ok done =>
      cases counted : stepsExecuted h (dictAt h request.state) >>= plusOne h with
      | error text => simp only [runStep, executeStep, valid, left, counted]
      | ok steps =>
        rw [executeStep_passes rt ⟨valid, left, counted⟩]
        simp only [runStep, valid, left, counted, saved]
        cases context.checkpoint with
        | none => rfl
        | some repository =>
          simp only
          split
          next raised => simp only [raised]
          next done => simp only [done]; rfl

theorem checkBudget_ok_iff (context : ExecutionContext) :
    checkBudget context = .ok () ↔ 0 < context.budgetRemaining := by
  simp [checkBudget]

/-- The step gets as far as the repository, which raises when it is given the checkpoint. -/
def SaveRaises (rt : InMemoryRuntime) (h : PyHeap) (request : StepRequest)
    (context : ExecutionContext) : Prop :=
  ∃ steps repository text, Passes h request context steps ∧ context.checkpoint = some repository ∧
      (rt.save (updatedState h request.state steps context.stepNumber).1 repository
        (rt.checkpointOf context)).2 = .error text

/-- A call that raises leaves its context as it was, so that a retry that is done leaves it
charged once. -/
structure Atomic (rt : InMemoryRuntime) (h : PyHeap) (request : StepRequest)
    (context : ExecutionContext) : Prop where
  kept : ∀ e, (rt.executeStep h request context).result = .error e →
    (rt.executeStep h request context).context = context
  retried : ∀ e, (rt.executeStep h request context).result = .error e →
    ∀ (again : InMemoryRuntime) h' request' response,
      (again.executeStep h' request' (rt.executeStep h request context).context).result =
        .ok response →
      (again.executeStep h' request' (rt.executeStep h request context).context).context =
        context.charged

theorem executeStep_done {rt : InMemoryRuntime} {h : PyHeap} {request : StepRequest}
    {context : ExecutionContext} {response : StepResponse}
    (done : (rt.executeStep h request context).result = .ok response) :
    ∃ steps, Passes h request context steps ∧
      (rt.saved h request context steps).2 = .ok () ∧
      response = responseOf h request context steps ∧
      rt.executeStep h request context =
        ⟨(rt.saved h request context steps).1, context.charged, .ok response⟩ := by
  by_cases passes : ∃ steps, Passes h request context steps
  · obtain ⟨steps, passes⟩ := passes
    have whole := rt.executeStep_passes passes
    rw [whole] at done
    cases run : (rt.saved h request context steps).2 with
    | error text => simp [run] at done
    | ok _ =>
      simp only [run, Except.ok.injEq] at done whole
      exact ⟨steps, passes, run, done.symm, done ▸ whole⟩
  · obtain ⟨e, whole⟩ := rt.executeStep_turned_down (not_exists.mp passes)
    simp [whole] at done

theorem executeStep_raises {rt : InMemoryRuntime} {h : PyHeap} {request : StepRequest}
    {context : ExecutionContext} {e : RuntimeFailure}
    (raised : (rt.executeStep h request context).result = .error e) :
    (rt.executeStep h request context).context = context ∨
      (rt.SaveRaises h request context ∧
        (rt.executeStep h request context).context = context.charged) := by
  by_cases passes : ∃ steps, Passes h request context steps
  · obtain ⟨steps, passes⟩ := passes
    have whole := rt.executeStep_passes passes
    rw [whole] at raised ⊢
    refine .inr ⟨⟨steps, ?_⟩, rfl⟩
    cases run : (rt.saved h request context steps).2 with
    | ok _ => simp [run] at raised
    | error text =>
      cases carried : context.checkpoint with
      | none => simp [saved, carried] at run
      | some repository =>
        exact ⟨repository, text, passes, rfl, by simpa only [saved, carried] using run⟩
  · obtain ⟨e, whole⟩ := rt.executeStep_turned_down (not_exists.mp passes)
    exact .inl (whole ▸ rfl)

/-- Only what fails in the repository has been charged. -/
theorem atomic_iff (rt : InMemoryRuntime) (h : PyHeap) (request : StepRequest)
    (context : ExecutionContext) : rt.Atomic h request context ↔
      context.tokensPerStep = 0 ∨ ¬ rt.SaveRaises h request context := by
  constructor
  · intro atomic
    by_contra! failing
    obtain ⟨charge, steps, repository, text, passes, carried, raised⟩ := failing
    have whole := rt.executeStep_passes passes
    have failed : (rt.saved h request context steps).2 = .error text := by
      simpa only [saved, carried] using raised
    simp only [failed] at whole
    have kept := atomic.kept (.other text) (whole ▸ rfl)
    rw [whole] at kept
    exact charge ((ExecutionContext.charged_eq_iff context).mp kept)
  · intro clean
    have kept : ∀ e, (rt.executeStep h request context).result = .error e →
        (rt.executeStep h request context).context = context := by
      intro e raised
      cases executeStep_raises raised with
      | inl same => exact same
      | inr charged =>
        have free := clean.resolve_right (not_not.mpr charged.1)
        exact charged.2.trans ((ExecutionContext.charged_eq_iff context).mpr free)
    refine ⟨kept, fun e raised again h' request' response done => ?_⟩
    obtain ⟨steps, _, _, _, whole⟩ := executeStep_done done
    rw [whole, kept e raised]

end InMemoryRuntime

def sampleRequest : StepRequest where
  executionId := "exec-1"
  agentId := "agent-1"
  goal := "report"
  state := 0
  allowedTools := 1
  allowedModels := 1

def sampleContext : ExecutionContext where
  executionId := "exec-1"
  agentId := "agent-1"
  stepNumber := 1
  state := 0
  budgetRemaining := 100
  allowedTools := 1
  metadata := 0
  checkpoint := some 1

def fullDisk : InMemoryRuntime where
  save h _ _ := (h, .error "No space left on device")
  confined := unwritten_confined
  uuid := "6f1c2d3e-0000-4000-8000-000000000000"
  now := epoch

/-- The checkpoint is not saved, and ten of the hundred tokens are gone. -/
theorem unsaved_step_charged :
    ¬ fullDisk.Atomic sampleHeap sampleRequest sampleContext := by
  intro atomic
  have kept := atomic.kept (.other "No space left on device") rfl
  have charged : (fullDisk.executeStep sampleHeap sampleRequest sampleContext).context =
      sampleContext.charged := rfl
  rw [charged] at kept
  exact absurd ((ExecutionContext.charged_eq_iff sampleContext).mp kept) (by decide)

def stepCount (h : PyHeap) (state : ℕ) : Option Int :=
  match stepsExecuted h (dictAt h state) with
  | .ok (.atom (.int i)) => some i
  | .ok (.atom (.bool b)) => some (if b then 1 else 0)
  | _ => none

structure StepCall where
  runtime : InMemoryRuntime
  heap : PyHeap
  request : StepRequest

/-- A context with the responses to the steps done on it, and the steps that the state to
be carried on counts. -/
structure Account where
  context : ExecutionContext
  count : Option Int
  responses : List StepResponse := []

namespace Account

/-- The request carries a state that counts as the last response's does, and the repository
is an object of the heap. -/
def Carries (s : Account) (call : StepCall) : Prop :=
  stepCount call.heap call.request.state = s.count ∧
    ∀ a ∈ s.context.checkpoint, a < call.heap.size

instance (s : Account) (call : StepCall) : Decidable (s.Carries call) :=
  inferInstanceAs (Decidable (_ ∧ _))

def step (s : Account) (call : StepCall) : Option Account :=
  if s.Carries call then
    let outcome := call.runtime.executeStep call.heap call.request s.context
    match outcome.result with
    | .error _ => some { s with context := outcome.context }
    | .ok response => some {
        context := outcome.context
        count := stepCount outcome.heap response.updatedState
        responses := s.responses ++ [response] }
  else none

def reported (s : Account) : Int := (s.responses.map StepResponse.tokensConsumed).sum

end Account

theorem get_updatedState {h h' : PyHeap} {roots : List ℕ} (inside : ∀ r ∈ roots, r < h.size)
    (state : ℕ) (steps : Scalar) (stepNumber : Int)
    (changed : (updatedState h state steps stepNumber).1.ChangesOnly roots h') :
    h'.get h.size = some (runtimeMeta steps stepNumber) ∧
      h'.get (updatedState h state steps stepNumber).2 =
        some (.dict ((dictAt h state).set "_runtime" (.ref h.size))) := by
  have extended := InMemoryRuntime.updatedState_extends h state steps stepNumber
  have address : (updatedState h state steps stepNumber).2 = h.size + 1 := by
    simp [updatedState, Heap.alloc, Heap.size_append]
  have size : (updatedState h state steps stepNumber).1.size = h.size + 2 := by
    simp [updatedState, Heap.alloc, Heap.size_append]
  have unreached : ∀ b, h.size ≤ b → ∀ r ∈ roots,
      ¬ (updatedState h state steps stepNumber).1.Reach r b := by
    intro b new r root path
    have old := Heap.reach_lt (inside r root) ((extended.reach_iff (inside r root)).mp path)
    omega
  have metaAt : (updatedState h state steps stepNumber).1.get h.size =
      some (runtimeMeta steps stepNumber) := by
    simp [updatedState, Heap.alloc, Heap.append, Heap.get, Heap.size]
  have stateAt : (updatedState h state steps stepNumber).1.get (h.size + 1) =
      some (.dict ((dictAt h state).set "_runtime" (.ref h.size))) := by
    simp [updatedState, Heap.alloc, Heap.append, Heap.get, Heap.size]
  rw [address]
  constructor
  · rw [changed.frame h.size (by omega) (unreached h.size le_rfl), metaAt]
  · rw [changed.frame (h.size + 1) (by omega) (unreached (h.size + 1) (by omega)), stateAt]

theorem stepsExecuted_updatedState {h h' : PyHeap} {roots : List ℕ}
    (inside : ∀ r ∈ roots, r < h.size) (state : ℕ) (steps : Scalar) (stepNumber : Int)
    (changed : (updatedState h state steps stepNumber).1.ChangesOnly roots h') :
    stepsExecuted h' (dictAt h' (updatedState h state steps stepNumber).2) =
      .ok (.atom steps) := by
  obtain ⟨metaAt, stateAt⟩ := get_updatedState inside state steps stepNumber changed
  simp [stepsExecuted, dictAt, stateAt, Cell.address, metaAt, runtimeMeta, Dict.get_set]

theorem saved_changesOnly (rt : InMemoryRuntime) (h : PyHeap) (request : StepRequest)
    (context : ExecutionContext) (steps : Scalar) :
    (updatedState h request.state steps context.stepNumber).1.ChangesOnly
      context.checkpoint.toList (rt.saved h request context steps).1 := by
  unfold InMemoryRuntime.saved
  cases context.checkpoint with
  | none => exact Heap.Extends.changesOnly List.prefix_rfl _
  | some repository => exact rt.confined _ repository _

theorem stepCount_succ {h : PyHeap} {state : ℕ} {i : Int} {steps : Scalar}
    (before : stepCount h state = some i)
    (counted : stepsExecuted h (dictAt h state) >>= plusOne h = .ok steps) :
    steps = .int (i + 1) := by
  unfold stepCount at before
  split at before
  next read => cases before; simpa [read, bind, Except.bind, plusOne, eq_comm] using counted
  next b read =>
    cases before
    cases b <;> simpa [read, bind, Except.bind, plusOne, eq_comm] using counted
  next => cases before

theorem stepCount_done {rt : InMemoryRuntime} {h : PyHeap} {request : StepRequest}
    {context : ExecutionContext} {response : StepResponse} {i : Int}
    (inside : ∀ a ∈ context.checkpoint, a < h.size) (before : stepCount h request.state = some i)
    (done : (rt.executeStep h request context).result = .ok response) :
    stepCount (rt.executeStep h request context).heap response.updatedState = some (i + 1) := by
  obtain ⟨steps, passes, _, answer, whole⟩ := InMemoryRuntime.executeStep_done done
  have one := stepCount_succ before passes.2.2
  subst one
  have read := stepsExecuted_updatedState (by simpa using inside) request.state
    (.int (i + 1)) context.stepNumber (saved_changesOnly rt h request context (.int (i + 1)))
  rw [whole, answer, InMemoryRuntime.responseOf]
  simp only [stepCount, read]

namespace Account

structure Charges (context : ExecutionContext) (count : Option Int) (t : Account) : Prop where
  rate : t.context.tokensPerStep = context.tokensPerStep
  bounded : 0 ≤ t.context.budgetRemaining ∨
    -context.tokensPerStep < t.context.budgetRemaining
  divided : context.tokensPerStep ∣ context.budgetRemaining - t.context.budgetRemaining
  conserved : t.context.budgetRemaining + t.context.tokensConsumed =
    context.budgetRemaining + context.tokensConsumed
  counted : ∀ i, count = some i → t.count = some (i + t.responses.length)

theorem Charges.charged {context : ExecutionContext} {count : Option Int} {t : Account}
    (charges : Charges context count t)
    (left : 0 < t.context.budgetRemaining) :
    Charges context count { t with context := t.context.charged } where
  rate := charges.rate
  bounded := by
    have rate := charges.rate
    simp only [ExecutionContext.charged]
    omega
  divided := by
    have more := dvd_add charges.divided (dvd_refl context.tokensPerStep)
    simpa [ExecutionContext.charged, charges.rate, sub_sub_eq_add_sub, sub_add_eq_add_sub]
      using more
  conserved := by
    have conserved := charges.conserved
    simp only [ExecutionContext.charged]
    omega
  counted := charges.counted

theorem step_charges {context : ExecutionContext} {count : Option Int} {s t : Account}
    {call : StepCall} (charges : Charges context count s) (stepped : step s call = some t) :
    Charges context count t := by
  unfold step at stepped
  split at stepped
  next carries =>
    cases run : (call.runtime.executeStep call.heap call.request s.context).result with
    | error e =>
      simp only [run, Option.some.injEq] at stepped
      subst stepped
      cases InMemoryRuntime.executeStep_raises run with
      | inl same => simpa only [same] using charges
      | inr charged =>
        obtain ⟨⟨steps, _, _, passes, _⟩, same⟩ := charged
        simpa only [same] using
          charges.charged ((InMemoryRuntime.checkBudget_ok_iff _).mp passes.2.1)
    | ok response =>
      simp only [run, Option.some.injEq] at stepped
      subst stepped
      obtain ⟨steps, passes, _, _, whole⟩ := InMemoryRuntime.executeStep_done run
      have charged := charges.charged ((InMemoryRuntime.checkBudget_ok_iff _).mp passes.2.1)
      refine ⟨?_, ?_, ?_, ?_, fun i known => ?_⟩
      · simpa only [whole] using charged.rate
      · simpa only [whole] using charged.bounded
      · simpa only [whole] using charged.divided
      · simpa only [whole] using charged.conserved
      · rw [stepCount_done carries.2 (carries.1.trans (charges.counted i known)) run,
          List.length_append, List.length_singleton]
        push_cast
        rw [add_assoc]
  next => cases stepped

/-- No step gets as far as a repository that raises. -/
def AllSaved (s : Account) (calls : List StepCall) : Prop :=
  Trace.EachStep step
    (fun _ s call => ¬ call.runtime.SaveRaises call.heap call.request s.context) [] s calls

theorem step_reported {s t : Account} {call : StepCall}
    (clean : ¬ call.runtime.SaveRaises call.heap call.request s.context)
    (stepped : step s call = some t) :
    t.context.tokensConsumed - t.reported = s.context.tokensConsumed - s.reported := by
  unfold step at stepped
  split at stepped
  next carries =>
    cases run : (call.runtime.executeStep call.heap call.request s.context).result with
    | error e =>
      simp only [run, Option.some.injEq] at stepped
      subst stepped
      have same := (InMemoryRuntime.executeStep_raises run).resolve_right fun charged =>
        clean charged.1
      simp only [same, reported]
    | ok response =>
      simp only [run, Option.some.injEq] at stepped
      subst stepped
      obtain ⟨steps, _, _, answer, whole⟩ := InMemoryRuntime.executeStep_done run
      simp only [whole, reported, answer, InMemoryRuntime.responseOf, ExecutionContext.charged,
        List.map_append, List.map_cons, List.map_nil, List.sum_append, List.sum_cons,
        List.sum_nil]
      omega
  next => cases stepped

theorem AllSaved.reported {s t : Account} {calls : List StepCall} (clean : s.AllSaved calls)
    (ran : Trace.run step s calls = some t) :
    t.context.tokensConsumed - t.reported = s.context.tokensConsumed - s.reported := by
  have keeps : ∀ (_ : List StepCall) (u : Account) call v,
      u.context.tokensConsumed - u.reported = s.context.tokensConsumed - s.reported →
      ¬ call.runtime.SaveRaises call.heap call.request u.context → step u call = some v →
      v.context.tokensConsumed - v.reported = s.context.tokensConsumed - s.reported :=
    fun _ u call v kept saved stepped => (step_reported saved stepped).trans kept
  exact (Trace.allStates_of_eachStep keeps rfl clean).last ran

/-- Over the calls on a context: only its last charge may exceed what is left of the budget,
what the budget loses is consumed, what is consumed is reported, and each step done is counted. -/
theorem calls_settled {context : ExecutionContext} {count : Option Int} {calls : List StepCall}
    {t : Account} (funded : 0 ≤ context.budgetRemaining)
    (ran : Trace.run step { context, count } calls = some t) :
    (0 ≤ t.context.budgetRemaining ∨ -context.tokensPerStep < t.context.budgetRemaining) ∧
      (context.tokensPerStep ∣ context.budgetRemaining → 0 ≤ t.context.budgetRemaining) ∧
      t.context.budgetRemaining + t.context.tokensConsumed =
        context.budgetRemaining + context.tokensConsumed ∧
      (AllSaved { context, count } calls →
        t.context.tokensConsumed = context.tokensConsumed + t.reported) ∧
      ∀ i, count = some i → t.count = some (i + t.responses.length) := by
  have first : Charges context count { context, count } :=
    ⟨rfl, .inl funded, by simp, rfl, fun i known => by simpa using known⟩
  have charges : Charges context count t :=
    Trace.run_invariant (fun call _ s t => step_charges) first ran
  refine ⟨charges.bounded, fun whole => ?_, charges.conserved, fun clean => ?_, charges.counted⟩
  · have divides := (dvd_sub_right whole).mp charges.divided
    by_contra overdrawn
    have most := Int.le_of_dvd (by omega) (dvd_neg.mpr divides)
    have bounded := charges.bounded
    omega
  · have reported := clean.reported ran
    simp only [Account.reported, List.map_nil, List.sum_nil, Int.sub_zero] at reported ⊢
    omega

def sampleCall : StepCall := ⟨sampleRuntime, sampleHeap, sampleRequest⟩

/-- Two steps of ten tokens on fifteen, the second from the state that the first returned. -/
theorem calls_settled_twice :
    let context := { sampleContext with budgetRemaining := 15, checkpoint := none }
    let first := sampleRuntime.executeStep sampleHeap sampleRequest context
    let calls := [sampleCall,
      ⟨sampleRuntime, first.heap, { sampleRequest with state := sampleHeap.size + 1 }⟩]
    ∃ t, Trace.run step { context, count := some 0 } calls = some t ∧
      t.responses.length = 2 ∧ t.context.budgetRemaining = -5 ∧ t.count = some 2 ∧
      (0 ≤ t.context.budgetRemaining ∨ -context.tokensPerStep < t.context.budgetRemaining) ∧
      t.context.budgetRemaining + t.context.tokensConsumed = 15 := by
  intro context first calls
  have ran : Trace.run step { context, count := some 0 } calls = some _ := rfl
  have settled := calls_settled (by decide) ran
  exact ⟨_, ran, rfl, rfl, rfl, settled.1, settled.2.2.1⟩

/-- A step of ten tokens on five. -/
theorem last_step_overdraws : ∃ t, Trace.run step
    { context := { sampleContext with budgetRemaining := 5 }, count := some 0 } [sampleCall] =
      some t ∧ t.context.budgetRemaining = -5 :=
  ⟨_, rfl, rfl⟩

end Account

end Kitematic.StepExecution

import Kitematic.RestIsolation

/-! The publication that ends a submission. By then the execution is over, its
record is stored and the counters have moved, so a publisher that raises changes
nothing but the answer, which is then an error. -/

namespace Kitematic.RestApi
open Dictionary Interleaving RuntimeAbi

def Request.publishing : Request → Except String Unit
  | .submitIntent _ _ _ _ _ _ publish => publish
  | .resume _ _ _ publish => publish
  | _ => .ok ()

def Request.withPublish (request : Request) (publish : Except String Unit) : Request :=
  match request with
  | .submitIntent auth intentReq xTenantId xAgentId id now _ =>
      .submitIntent auth intentReq xTenantId xAgentId id now publish
  | .resume id reply now _ => .resume id reply now publish
  | request => request

theorem Request.withPublish_publishing (request : Request) :
    request.withPublish request.publishing = request := by
  cases request <;> rfl

namespace App

/-- The submission whose execution returns with a request, and its result. -/
def returns (app : App) : Request → Option (Submission × ExecutionResult)
  | .submitIntent (some auth) intentReq xTenantId xAgentId id now _ =>
      let s : Submission := ⟨intentReq, auth, xTenantId, xAgentId⟩
      match app.pool.executeIntent s.intent id now with
      | some (_, .returned result) => some (s, result)
      | _ => none
  | .resume id reply now _ =>
      match app.submissions.get id, app.pool.resume id reply now with
      | some s, some (_, .returned result) => some (s, result)
      | _, _ => none
  | _ => none

/-- The tenant of the submission reads the result under the id of the execution. -/
def Retrievable (app : App) (s : Submission) (result : ExecutionResult) : Prop :=
  ∀ auth : AuthContext, auth.tenantId = s.tenantId →
    (app.getExecutionStatus result.executionId auth).2 = .status
      { executionId := result.executionId, state := result.state.value
        agentId := s.intentReq.agentId, action := s.intentReq.action, success := result.success
        error := result.error }

/-- A submission whose execution returned is answered with the result, stays
retrievable, and moves the counters as it would with a working publisher. -/
def OffCriticalPath (app : App) (request : Request) : Prop :=
  ∀ s result, app.returns request = some (s, result) →
    ∃ answered, app.serve request = some (answered, some (.created (executionResponse result))) ∧
      (∀ requests later, Trace.run step answered requests = some later →
        later.Retrievable s result) ∧
      (app.serve (request.withPublish (.ok ()))).map (fun served => served.1.counters) =
        some answered.counters

/-- Nothing is published, or the publication succeeds. -/
def Publishes (app : App) (request : Request) : Prop :=
  (app.returns request).isSome → request.publishing = .ok ()

theorem serve_of_returns {app : App} {request : Request} {s : Submission}
    {result : ExecutionResult} (wf : app.WellFormed)
    (returned : app.returns request = some (s, result)) :
    ∃ before : App, result.executionId ∈ before.pool.drawn ∧
      before.pool.inFlight.get result.executionId = none ∧
        ∀ publish, app.serve (request.withPublish publish) =
          some ((before.answerSubmission s result publish).1,
            some (before.answerSubmission s result publish).2) := by
  unfold returns at returned
  split at returned
  next auth intentReq xTenantId xAgentId id now _ =>
    simp only at returned
    split at returned
    next pool ended executed =>
      cases returned
      have own := executeIntent_executionId executed
      obtain ⟨_, booked, outcome⟩ := Pool.executeIntent_eq_some executed
      refine ⟨{ app with
        pool := pool
        submissions := app.submissions.set id ⟨intentReq, auth, xTenantId, xAgentId⟩ },
        ?_, ?_, fun publish => ?_⟩
      · rw [own, booked]
        exact List.mem_cons_self
      · rw [own, booked]
        refine (Pool.get_settle _ _ _ _).trans ?_
        rw [if_pos rfl, ← outcome]
        rfl
      · simp only [Request.withPublish, serve, submitIntent, executed, Option.map_some,
          afterExecuteIntent]
    · cases returned
  next id reply now _ =>
    split at returned
    next s' pool ended submitted resumed =>
      cases returned
      have own := resume_executionId wf.pool resumed
      have drawn := step_drawn (resume_pool resumed) (wf.submitted id s submitted)
      obtain ⟨frame, segment, _, _, booked, outcome⟩ := Pool.resume_eq_some resumed
      refine ⟨{ app with pool := pool }, own ▸ drawn, ?_, fun publish => ?_⟩
      · rw [own, booked]
        refine (Pool.get_settle _ _ _ _).trans ?_
        rw [if_pos rfl, ← outcome]
        rfl
      · simp only [Request.withPublish, serve, resumeSubmission, submitted, resumed,
          Option.bind_some, Option.map_some, afterExecuteIntent]
    · cases returned
  · cases returned

structure Kept (id : String) (record : ExecutionRecord) (app : App) : Prop where
  wf : app.WellFormed
  drawn : id ∈ app.pool.drawn
  ended : app.pool.inFlight.get id = none
  stored : app.executions.get id = some record

theorem afterExecuteIntent_keeps {app : App} {s : Submission} {progress : Progress}
    {id other : String} (publish : Except String Unit)
    (own : ∀ result, progress = .returned result → result.executionId = other)
    (different : id ≠ other) :
    (app.afterExecuteIntent s progress publish).1.executions.get id = app.executions.get id := by
  rw [afterExecuteIntent_get]
  split
  next result =>
    rw [own result rfl]
    exact if_neg different
  · rfl

theorem step_kept {id : String} {record : ExecutionRecord} {app app' : App} {request : Request}
    (kept : Kept id record app) (stepped : app.step request = some app') :
    Kept id record app' := by
  have wf := step_wellFormed kept.wf stepped
  cases step_served stepped with
  | submitIntent s other now publish pool progress executed =>
    obtain ⟨fresh, booked, _⟩ := Pool.executeIntent_eq_some executed
    have different : id ≠ other := fun same => fresh (same ▸ kept.drawn)
    refine ⟨wf, ?_, ?_, (afterExecuteIntent_keeps publish ?_ different).trans kept.stored⟩
    · simpa using step_drawn (executeIntent_pool executed) kept.drawn
    · rw [afterExecuteIntent_pool, booked]
      refine (Pool.get_settle _ _ _ _).trans ?_
      rw [if_neg different]
      exact kept.ended
    · rintro result rfl
      exact executeIntent_executionId executed
  | resume s other reply now publish pool progress submitted resumed =>
    obtain ⟨frame, segment, pending, _, booked, _⟩ := Pool.resume_eq_some resumed
    have different : id ≠ other := by
      rintro rfl
      rw [kept.ended] at pending
      cases pending
    refine ⟨wf, ?_, ?_, (afterExecuteIntent_keeps publish ?_ different).trans kept.stored⟩
    · simpa using step_drawn (resume_pool resumed) kept.drawn
    · rw [afterExecuteIntent_pool, booked]
      refine (Pool.get_settle _ _ _ _).trans ?_
      rw [if_neg different]
      exact kept.ended
    · rintro result rfl
      exact resume_executionId kept.wf.pool resumed
  | cancel other pool cancelled =>
    obtain ⟨_, _, rfl⟩ := Option.map_eq_some_iff.mp cancelled
    refine ⟨wf, kept.drawn, ?_, kept.stored⟩
    rw [Dict.get_erase]
    split
    · rfl
    · exact kept.ended
  | shutdown => exact ⟨wf, kept.drawn, kept.ended, kept.stored⟩
  | other pool executions =>
    exact ⟨wf, pool ▸ kept.drawn, pool ▸ kept.ended, executions ▸ kept.stored⟩

theorem Kept.retrievable {app : App} {s : Submission} {result : ExecutionResult}
    (kept : Kept result.executionId (s.executionRecord result) app) : app.Retrievable s result := by
  intro auth tenant
  unfold getExecutionStatus
  rw [kept.stored]
  have own : ¬ ((s.executionRecord result).tenantId ≠ "" ∧
      (s.executionRecord result).tenantId ≠ auth.tenantId) := fun foreign => foreign.2 tenant.symm
  simp only [if_neg own]
  rfl

theorem offCriticalPath_iff_publishes {app : App} (wf : app.WellFormed) (request : Request) :
    OffCriticalPath app request ↔ Publishes app request := by
  constructor
  · intro off some
    obtain ⟨⟨s, result⟩, returned⟩ := Option.isSome_iff_exists.mp some
    obtain ⟨answered, served, _⟩ := off s result returned
    obtain ⟨before, _, _, serves⟩ := serve_of_returns wf returned
    have same := serves request.publishing
    rw [Request.withPublish_publishing, served] at same
    cases publish : request.publishing with
    | ok => rfl
    | error text =>
      rw [publish] at same
      cases same
  · intro publishes s result returned
    have publish := publishes (by simp [returned])
    obtain ⟨before, drawn, ended, serves⟩ := serve_of_returns wf returned
    have served := serves request.publishing
    rw [Request.withPublish_publishing, publish] at served
    refine ⟨_, served, fun requests later ran => ?_, ?_⟩
    · have stepped : app.step request = some (before.answerSubmission s result (.ok ())).1 := by
        simp [step, served]
      have kept : Kept result.executionId (s.executionRecord result)
          (before.answerSubmission s result (.ok ())).1 :=
        ⟨step_wellFormed wf stepped, drawn, ended, Dict.get_set_self _ _ _⟩
      exact (Trace.run_invariant (fun _ _ _ _ kept stepped => step_kept kept stepped) kept
        ran).retrievable
    · rw [serves (.ok ())]
      rfl

/-- In every run, submissions are answered as if events were not on the critical path
exactly when every publication succeeds. -/
theorem offCriticalPath_iff {rt : KitematicRuntime} {requests : List Request} {app : App}
    (ran : Trace.run step (create rt) requests = some app) :
    Trace.EachStep step (fun _ app request => OffCriticalPath app request) [] (create rt) requests ↔
      Trace.EachStep step (fun _ app request => Publishes app request) [] (create rt) requests :=
  Trace.eachStep_congr (I := fun _ => WellFormed)
    (fun _ _ _ _ wf stepped => step_wellFormed wf stepped)
    (fun _ _ request _ wf _ => offCriticalPath_iff_publishes wf request)
    (create_wellFormed rt) ran

def completedSubmission (publish : Except String Unit) : List Request :=
  [submitAs "acme" "", .resume "e1" (.decision true none) 1 (.ok ()),
    .resume "e1" (.decision true none) 2 (.ok ()), .resume "e1" (.path ⟨"read", "", []⟩) 3 (.ok ()),
    .resume "e1" (.toolResult ⟨true, [], none⟩) 4 (.ok ()),
    .resume "e1" (.checkpointId "c1") 5 publish]

theorem offCriticalPath_iff_completed :
    ∃ app, Trace.run step (create {}) (completedSubmission (.ok ())) = some app ∧
      (Trace.EachStep step (fun _ app request => OffCriticalPath app request) [] (create {})
          (completedSubmission (.ok ())) ↔
        Trace.EachStep step (fun _ app request => Publishes app request) [] (create {})
          (completedSubmission (.ok ()))) :=
  ⟨_, rfl, offCriticalPath_iff rfl⟩

/-- A completed execution is answered with an error when its event cannot be published. -/
theorem failed_publication_hides_result :
    ¬ Trace.EachStep step (fun _ app request => OffCriticalPath app request) [] (create {})
      (completedSubmission (.error "Connection refused")) := by
  rintro ⟨_, rest⟩
  have last := (((((rest _ rfl).2 _ rfl).2 _ rfl).2 _ rfl).2 _ rfl).1
  obtain ⟨answered, served, _⟩ := last _ _ rfl
  cases served

end App
end Kitematic.RestApi

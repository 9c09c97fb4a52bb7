import Kitematic.RestApi

/-! Tenants at the REST boundary. An execution runs under the context the runtime
had when the application was built, whoever submits it; and the record of an
execution belongs to the tenant named in the query, if one is named. -/

namespace Kitematic.RestApi.App
open Admission Dictionary Interleaving Ownership RuntimeAbi State Tenant

section handlers
variable (app : App) (s : Submission) (progress : Progress) (publish : Except String Unit)

@[simp] theorem increment_pool (counter : String) : (app.increment counter).pool = app.pool := rfl

@[simp] theorem increment_executions (counter : String) :
    (app.increment counter).executions = app.executions := rfl

@[simp] theorem increment_submissions (counter : String) :
    (app.increment counter).submissions = app.submissions := rfl

@[simp] theorem afterExecuteIntent_pool :
    (app.afterExecuteIntent s progress publish).1.pool = app.pool := by
  cases progress <;> rfl

@[simp] theorem afterExecuteIntent_submissions :
    (app.afterExecuteIntent s progress publish).1.submissions = app.submissions := by
  cases progress <;> rfl

theorem afterExecuteIntent_get (id : String) :
    (app.afterExecuteIntent s progress publish).1.executions.get id =
      match progress with
      | .returned result =>
          if id = result.executionId then some (s.executionRecord result)
          else app.executions.get id
      | _ => app.executions.get id := by
  cases progress with
  | returned result => exact Dict.get_set _ _ _ _
  | _ => rfl

theorem getExecutionStatus_fst (executionId : String) (auth : AuthContext) :
    (app.getExecutionStatus executionId auth).1.pool = app.pool ∧
      (app.getExecutionStatus executionId auth).1.executions = app.executions ∧
        (app.getExecutionStatus executionId auth).1.submissions = app.submissions := by
  unfold getExecutionStatus
  split
  · simp
  · split <;> simp

end handlers

inductive Served (app : App) : Request → App → Prop where
  | submitIntent (s : Submission) (id : String) (now : ℚ) (publish : Except String Unit)
      (pool : Pool) (progress : Progress)
      (executed : app.pool.executeIntent s.intent id now = some (pool, progress)) :
      Served app (.submitIntent (some s.auth) s.intentReq s.xTenantId s.xAgentId id now publish)
        (afterExecuteIntent { app with pool := pool, submissions := app.submissions.set id s } s
          progress publish).1
  | resume (s : Submission) (id : String) (reply : Reply) (now : ℚ)
      (publish : Except String Unit) (pool : Pool) (progress : Progress)
      (submitted : app.submissions.get id = some s)
      (resumed : app.pool.resume id reply now = some (pool, progress)) :
      Served app (.resume id reply now publish)
        (afterExecuteIntent { app with pool := pool } s progress publish).1
  | cancel (id : String) (pool : Pool) (cancelled : app.pool.cancel id = some pool) :
      Served app (.cancel id) { app with pool := pool }
  | shutdown :
      Served app .shutdown { app with pool := { app.pool with runtime := app.pool.runtime.stop.1 } }
  | other {request : Request} {app' : App} (pool : app'.pool = app.pool)
      (executions : app'.executions = app.executions)
      (submissions : app'.submissions = app.submissions)
      (unauthenticated : ∀ auth intentReq xTenantId xAgentId id now publish,
        request ≠ .submitIntent (some auth) intentReq xTenantId xAgentId id now publish) :
      Served app request app'

theorem step_served {app app' : App} {request : Request} (stepped : app.step request = some app') :
    Served app request app' := by
  obtain ⟨⟨_, response⟩, served, rfl⟩ := Option.map_eq_some_iff.mp stepped
  unfold serve at served
  split at served
  · cases served
    exact .other rfl rfl rfl (by simp)
  next auth intentReq xTenantId xAgentId id now publish =>
    obtain ⟨⟨pool, progress⟩, executed, same⟩ := Option.map_eq_some_iff.mp served
    have fits := Served.submitIntent ⟨intentReq, auth, xTenantId, xAgentId⟩ id now publish pool
      progress executed
    exact congrArg Prod.fst same ▸ fits
  next id reply now publish =>
    obtain ⟨s, submitted, rest⟩ := Option.bind_eq_some_iff.mp served
    obtain ⟨⟨pool, progress⟩, resumed, same⟩ := Option.map_eq_some_iff.mp rest
    exact congrArg Prod.fst same ▸ .resume s id reply now publish pool progress submitted resumed
  next id =>
    obtain ⟨pool, cancelled, same⟩ := Option.map_eq_some_iff.mp served
    cases same
    exact .cancel id pool cancelled
  · cases served
    exact .other rfl rfl rfl (by simp)
  next auth executionId =>
    cases served
    obtain ⟨pool, executions, submissions⟩ := app.getExecutionStatus_fst executionId auth
    exact .other pool executions submissions (by simp)
  · cases served
    exact .shutdown

structure WellFormed (app : App) : Prop where
  pool : app.pool.WellFormed
  submitted : ∀ id s, app.submissions.get id = some s → id ∈ app.pool.drawn
  recorded : ∀ id record, app.executions.get id = some record →
    ∃ s, app.submissions.get id = some s ∧ record.tenantId = s.tenantId

theorem afterExecuteIntent_recorded {app : App} {s : Submission} {id : String}
    {progress : Progress} (publish : Except String Unit)
    (own : ∀ result, progress = .returned result → result.executionId = id)
    (submitted : app.submissions.get id = some s)
    (before : ∀ id' record, app.executions.get id' = some record →
      ∃ s', app.submissions.get id' = some s' ∧ record.tenantId = s'.tenantId)
    (id' : String) (record : ExecutionRecord)
    (stored : (app.afterExecuteIntent s progress publish).1.executions.get id' = some record) :
    ∃ s', app.submissions.get id' = some s' ∧ record.tenantId = s'.tenantId := by
  rw [afterExecuteIntent_get] at stored
  cases progress with
  | returned result =>
    simp only [own result rfl] at stored
    split at stored
    next same =>
      cases stored
      exact ⟨s, same ▸ submitted, rfl⟩
    · exact before id' record stored
  | suspended => exact before id' record stored
  | raised => exact before id' record stored

theorem create_wellFormed (rt : KitematicRuntime) : (create rt).WellFormed :=
  ⟨Pool.start_wellFormed rt, by simp [create], by simp [create]⟩

theorem executeIntent_executionId {p pool : Pool} {intent : Intent} {id : String} {now : ℚ}
    {result : ExecutionResult}
    (executed : p.executeIntent intent id now = some (pool, .returned result)) :
    result.executionId = id := by
  obtain ⟨_, _, outcome⟩ := Pool.executeIntent_eq_some executed
  have opening := p.runtime.executeIntent_opening intent id now
  generalize p.runtime.executeIntent intent id now = segment at opening outcome
  cases opening with
  | tenantRefused _ ended =>
    cases ended <;> cases outcome
    rfl
  | quotaRefused _ _ ended =>
    cases ended <;> cases outcome
    rfl
  | shutdownRefused => cases outcome; rfl
  | admitted => cases outcome

theorem resume_executionId {p pool : Pool} (wf : p.WellFormed) {id : String} {reply : Reply}
    {now : ℚ} {result : ExecutionResult}
    (resumed : p.resume id reply now = some (pool, .returned result)) :
    result.executionId = id := by
  obtain ⟨frame, segment, pending, segmented, _, outcome⟩ := Pool.resume_eq_some resumed
  have own := wf.executionId id frame pending
  cases KitematicRuntime.resume_resumed (wf.consistent id frame pending) segmented with
  | advanced => cases outcome
  | completed => cases outcome; exact own
  | failed _ failed => cases outcome; exact failed.2.1.trans own

theorem executeIntent_pool {p pool : Pool} {intent : Intent} {id : String} {now : ℚ}
    {progress : Progress} (executed : p.executeIntent intent id now = some (pool, progress)) :
    p.step (.executeIntent intent id now) = some pool := by
  simp [Pool.step, executed]

theorem resume_pool {p pool : Pool} {id : String} {reply : Reply} {now : ℚ} {progress : Progress}
    (resumed : p.resume id reply now = some (pool, progress)) :
    p.step (.resume id reply now) = some pool := by
  simp [Pool.step, resumed]

theorem step_drawn {p p' : Pool} {e : Event} (stepped : p.step e = some p') :
    p.drawn ⊆ p'.drawn := by
  cases Pool.step_stepped stepped with
  | executeIntent => exact List.subset_cons_self _ _
  | resume => exact List.Subset.refl _
  | cancel => exact List.Subset.refl _
  | control => exact List.Subset.refl _

theorem step_wellFormed {app app' : App} {request : Request} (wf : app.WellFormed)
    (stepped : app.step request = some app') : app'.WellFormed := by
  cases step_served stepped with
  | submitIntent s id now publish pool progress executed =>
    have poolStep := executeIntent_pool executed
    obtain ⟨fresh, booked, _⟩ := Pool.executeIntent_eq_some executed
    have drawn : pool.drawn = id :: app.pool.drawn := by rw [booked]
    have kept : ∀ id', id' ∈ app.pool.drawn →
        (app.submissions.set id s).get id' = app.submissions.get id' := by
      intro id' member
      rw [Dict.get_set, if_neg]
      rintro rfl
      exact fresh member
    refine ⟨by simpa using Pool.step_wellFormed wf.pool poolStep, ?_, ?_⟩
    · intro id' s' stored
      simp only [afterExecuteIntent_submissions, afterExecuteIntent_pool, drawn] at stored ⊢
      rw [Dict.get_set] at stored
      split at stored
      next same => exact same ▸ List.mem_cons_self
      · exact List.mem_cons_of_mem _ (wf.submitted id' s' stored)
    · rw [afterExecuteIntent_submissions]
      refine afterExecuteIntent_recorded publish ?_ (Dict.get_set_self _ _ _) ?_
      · rintro result rfl
        exact executeIntent_executionId executed
      · intro id' record before
        obtain ⟨s', submitted, tenant⟩ := wf.recorded id' record before
        exact ⟨s', (kept id' (wf.submitted id' s' submitted)).trans submitted, tenant⟩
  | resume s id reply now publish pool progress submitted resumed =>
    have poolStep := resume_pool resumed
    have grown := step_drawn poolStep
    refine ⟨by simpa using Pool.step_wellFormed wf.pool poolStep, ?_, ?_⟩
    · intro id' s' stored
      simp only [afterExecuteIntent_submissions, afterExecuteIntent_pool] at stored ⊢
      exact grown (wf.submitted id' s' stored)
    · rw [afterExecuteIntent_submissions]
      refine afterExecuteIntent_recorded publish ?_ submitted wf.recorded
      rintro result rfl
      exact resume_executionId wf.pool resumed
  | cancel id pool cancelled =>
    have poolStep : app.pool.step (.cancel id) = some pool := cancelled
    exact ⟨Pool.step_wellFormed wf.pool poolStep,
      fun id' s stored => step_drawn poolStep (wf.submitted id' s stored), wf.recorded⟩
  | shutdown =>
    exact ⟨Pool.step_wellFormed (e := .control .stop) wf.pool rfl, wf.submitted, wf.recorded⟩
  | other pool executions submissions =>
    exact ⟨pool ▸ wf.pool, by rw [submissions, pool]; exact wf.submitted,
      by rw [executions, submissions]; exact wf.recorded⟩

/-! The tenant an execution runs under. -/

/-- The tenant the submitter of an execution authenticated as. -/
def callerTenant (submissions : Dict String Submission) (id : String) : Option String :=
  (submissions.get id).map fun s => s.auth.tenantId

/-- All executions run, take slots and save under their callers' tenants. -/
def RunsAsCaller (app : App) : Prop := RunsAs (callerTenant app.submissions) app.pool

/-- A submission whose call takes a slot or starts the chain comes from the tenant
of the context the runtime was given before the application was built. -/
def CallerIsContext (rt : KitematicRuntime) (app : App) : Request → Prop
  | .submitIntent (some auth) _ _ _ _ now _ =>
      engages app.pool.runtime now = true → tenantOf rt.tenantContext = some auth.tenantId
  | _ => True

theorem step_tenantContext {app app' : App} {request : Request} (wf : app.WellFormed)
    (stepped : app.step request = some app') :
    app'.pool.runtime.tenantContext = app.pool.runtime.tenantContext := by
  cases step_served stepped with
  | submitIntent s id now publish pool progress executed =>
    obtain ⟨_, rfl, _⟩ := Pool.executeIntent_eq_some executed
    rw [afterExecuteIntent_pool]
    exact executeIntent_tenantContext _ _ _ _
  | resume s id reply now publish pool progress submitted resumed =>
    obtain ⟨frame, segment, pending, segmented, rfl, _⟩ := Pool.resume_eq_some resumed
    rw [afterExecuteIntent_pool]
    exact resume_tenantContext (wf.pool.consistent id frame pending) segmented
  | cancel id pool cancelled =>
    obtain ⟨_, _, rfl⟩ := Option.map_eq_some_iff.mp cancelled
    rfl
  | shutdown =>
    simp only [KitematicRuntime.stop]
    split <;> rfl
  | other pool => rw [pool]

theorem step_runsAsCaller {rt : KitematicRuntime} {app app' : App} {request : Request}
    (wf : app.WellFormed) (context : app.pool.runtime.tenantContext = rt.tenantContext)
    (runs : app.RunsAsCaller) (stepped : app.step request = some app') :
    app'.RunsAsCaller ↔ CallerIsContext rt app request := by
  cases step_served stepped with
  | submitIntent s id now publish pool progress executed =>
    obtain ⟨fresh, rfl, _⟩ := Pool.executeIntent_eq_some executed
    have booked : (app.submissions.set id s).get id = some s := Dict.get_set_self _ _ _
    have kept : RunsAs (callerTenant (app.submissions.set id s)) app.pool := by
      refine runs.congr wf.pool fun id' member => ?_
      have other : id' ≠ id := fun same => fresh (same ▸ member)
      simp [callerTenant, Dict.get_set, other]
    simp only [RunsAsCaller, afterExecuteIntent_submissions, afterExecuteIntent_pool,
      CallerIsContext, ← context]
    exact executeIntent_runsAs kept (by simp [callerTenant, booked])
  | resume s id reply now publish pool progress submitted resumed =>
    obtain ⟨frame, segment, pending, segmented, rfl, _⟩ := Pool.resume_eq_some resumed
    simp only [RunsAsCaller, afterExecuteIntent_submissions, afterExecuteIntent_pool]
    exact iff_of_true (resume_runsAs wf.pool pending segmented runs) trivial
  | cancel id pool cancelled =>
    obtain ⟨_, _, rfl⟩ := Option.map_eq_some_iff.mp cancelled
    exact iff_of_true (cancel_runsAs runs) trivial
  | shutdown => exact iff_of_true runs trivial
  | other pool executions submissions unauthenticated =>
    have untouched : app'.RunsAsCaller := by
      simpa only [RunsAsCaller, pool, submissions] using runs
    refine iff_of_true untouched ?_
    unfold CallerIsContext
    split
    next auth intentReq xTenantId xAgentId id now publish =>
      exact absurd rfl (unauthenticated auth intentReq xTenantId xAgentId id now publish)
    · trivial

/-- In every state of a run all executions are of their callers' tenants exactly
when every submission that gets that far comes from the runtime's own tenant. -/
theorem runsAsCaller_iff_callerIsContext {rt : KitematicRuntime} {requests : List Request}
    {app : App} (ran : Trace.run step (create rt) requests = some app) :
    Trace.AllStates step RunsAsCaller (create rt) requests ↔
      Trace.EachStep step (fun _ a r => CallerIsContext rt a r) [] (create rt) requests := by
  have start : (create rt).RunsAsCaller := by
    refine ⟨?_, ?_⟩ <;> simp [create, Pool.start]
  refine Trace.allStates_iff_eachStep (I := fun _ a => a.WellFormed ∧
    a.pool.runtime.tenantContext = rt.tenantContext) ?_ ?_ ⟨create_wellFormed rt, rfl⟩ start ran
  · rintro _ a request a' ⟨wf, context⟩ stepped
    exact ⟨step_wellFormed wf stepped, (step_tenantContext wf stepped).trans context⟩
  · rintro _ a request a' ⟨wf, context⟩ runs stepped
    exact step_runsAsCaller wf context runs stepped

def readRequest : IntentRequest := ⟨"agent", "tool.read", [], by decide, by decide⟩

def submitAs (tenantId xTenantId : String) : Request :=
  .submitIntent (some ⟨tenantId, ""⟩) readRequest xTenantId "" "e1" 0 (.ok ())

def bothAnswered : List Request :=
  [.submitIntent (some ⟨"acme", ""⟩) readRequest "" "" "e1" 0 (.ok ()),
    .submitIntent (some ⟨"acme", ""⟩) readRequest "globex" "" "e2" 1 (.ok ())] ++
    (granting.map fun reply => .resume "e2" reply 2 (.ok ())) ++
    [.resume "e1" (.decision false none) 3 (.ok ())]

theorem runsAsCaller_iff_callerIsContext_answered : ∃ app,
    Trace.run step (create sharedRuntime) bothAnswered = some app ∧
      app.executions.keys = ["e2", "e1"] ∧
      (Trace.AllStates step RunsAsCaller (create sharedRuntime) bothAnswered ↔
        Trace.EachStep step (fun _ a r => CallerIsContext sharedRuntime a r) []
          (create sharedRuntime) bothAnswered) :=
  ⟨_, rfl, rfl, runsAsCaller_iff_callerIsContext rfl⟩

/-- A submission of another tenant runs under the runtime's own. -/
theorem foreign_submission_runs_as_context :
    ¬ Trace.AllStates step RunsAsCaller (create acmeRuntime) [submitAs "globex" ""] := by
  intro all
  have last : RunsAsCaller _ := all.last rfl
  have tenant := last.1 "e1" _ rfl
  exact absurd tenant (by decide)

/-! Who may read an execution. -/

/-- The execution was submitted, and its submission answered with a record. -/
def Recorded (app : App) (executionId : String) (s : Submission) : Prop :=
  (app.executions.get executionId).isSome ∧ app.submissions.get executionId = some s

/-- A caller with a tenant reads exactly the executions its tenant submitted; for all
others it gets what it gets for an unknown id. -/
def ReadsOwn (app : App) : Prop :=
  ∀ executionId auth, auth.tenantId ≠ "" →
    ((∃ body, (app.getExecutionStatus executionId auth).2 = .status body) ↔
      ∃ s, app.Recorded executionId s ∧ s.auth.tenantId = auth.tenantId) ∧
    ((¬ ∃ s, app.Recorded executionId s ∧ s.auth.tenantId = auth.tenantId) →
      ∀ unknown, app.executions.get unknown = none →
        (app.getExecutionStatus executionId auth).2 = (app.getExecutionStatus unknown auth).2)

def Request.auth : Request → Option AuthContext
  | .submitIntent auth _ _ _ _ _ _ => auth
  | .getExecutionStatus auth _ => auth
  | _ => none

theorem getExecutionStatus_recorded {app : App} {executionId : String} {record : ExecutionRecord}
    (stored : app.executions.get executionId = some record) (nonempty : record.tenantId ≠ "")
    (auth : AuthContext) :
    ((∃ body, (app.getExecutionStatus executionId auth).2 = .status body) ↔
      record.tenantId = auth.tenantId) ∧
    (record.tenantId ≠ auth.tenantId → (app.getExecutionStatus executionId auth).2 =
      httpException 403 "Execution not found or access denied") := by
  unfold getExecutionStatus
  rw [stored]
  by_cases own : record.tenantId = auth.tenantId
  · simp [own]
  · simp [own, nonempty, httpException]

theorem getExecutionStatus_unknown {app : App} {executionId : String}
    (missing : app.executions.get executionId = none) (auth : AuthContext) :
    (app.getExecutionStatus executionId auth).2 =
      httpException 403 "Execution not found or access denied" := by
  unfold getExecutionStatus
  rw [missing]

theorem step_submitter_nonempty {app app' : App} {request : Request}
    (authenticated : ∀ auth, Request.auth request = some auth → auth.tenantId ≠ "")
    (named : ∀ id s, app.submissions.get id = some s → s.auth.tenantId ≠ "")
    (stepped : app.step request = some app') :
    ∀ id s, app'.submissions.get id = some s → s.auth.tenantId ≠ "" := by
  intro id s stored
  cases step_served stepped with
  | submitIntent s' id' now publish pool progress executed =>
    rw [afterExecuteIntent_submissions, Dict.get_set] at stored
    split at stored
    · cases stored
      exact authenticated s.auth rfl
    · exact named id s stored
  | resume =>
    rw [afterExecuteIntent_submissions] at stored
    exact named id s stored
  | cancel => exact named id s stored
  | shutdown => exact named id s stored
  | other _ _ submissions => exact named id s (submissions ▸ stored)

theorem run_submitters {rt : KitematicRuntime} {requests : List Request} {app : App}
    (authenticated : ∀ request ∈ requests, ∀ auth, Request.auth request = some auth →
      auth.tenantId ≠ "") (ran : Trace.run step (create rt) requests = some app) :
    app.WellFormed ∧ ∀ id s, app.submissions.get id = some s → s.auth.tenantId ≠ "" :=
  Trace.run_invariant (I := fun a => a.WellFormed ∧
      ∀ id s, a.submissions.get id = some s → s.auth.tenantId ≠ "")
    (fun request member _ _ inv stepped => ⟨step_wellFormed inv.1 stepped,
      step_submitter_nonempty (authenticated request member) inv.2 stepped⟩)
    ⟨create_wellFormed rt, by simp [create]⟩ ran

section reading
variable {app : App} (wf : app.WellFormed)
  (named : ∀ id s, app.submissions.get id = some s → s.auth.tenantId ≠ "")
include wf

theorem Recorded.owner {executionId : String} {s : Submission}
    (recorded : app.Recorded executionId s) :
    ∃ record, app.executions.get executionId = some record ∧ record.tenantId = s.tenantId := by
  obtain ⟨some, submitted⟩ := recorded
  obtain ⟨record, stored⟩ := Option.isSome_iff_exists.mp some
  obtain ⟨s', submitted', tenant⟩ := wf.recorded executionId record stored
  rw [submitted] at submitted'
  exact ⟨record, stored, Option.some.inj submitted' ▸ tenant⟩

include named

theorem ReadsOwn.honest (reads : app.ReadsOwn) {executionId : String} {s : Submission}
    (recorded : app.Recorded executionId s) :
    s.xTenantId = "" ∨ s.xTenantId = s.auth.tenantId := by
  obtain ⟨record, stored, tenant⟩ := recorded.owner wf
  by_contra foreign
  obtain ⟨nonempty, other⟩ := not_or.mp foreign
  have queried : record.tenantId = s.xTenantId := by
    rw [tenant, Submission.tenantId, if_pos nonempty]
  have own := named executionId s recorded.2
  have status := (reads executionId s.auth own).1.mpr ⟨s, recorded, rfl⟩
  rw [(getExecutionStatus_recorded stored (queried ▸ nonempty) s.auth).1] at status
  exact other (queried.symm.trans status)

theorem readsOwn_of_honest (honest : ∀ executionId s, app.Recorded executionId s →
      s.xTenantId = "" ∨ s.xTenantId = s.auth.tenantId) : app.ReadsOwn := by
  intro executionId auth nonempty
  cases stored : app.executions.get executionId with
  | none =>
    have missing : ¬ ∃ s, app.Recorded executionId s ∧ s.auth.tenantId = auth.tenantId := by
      rintro ⟨s, recorded, _⟩
      simp [Recorded, stored] at recorded
    have denied := getExecutionStatus_unknown stored auth
    refine ⟨iff_of_false ?_ missing, fun _ unknown absent => ?_⟩
    · rw [denied]
      rintro ⟨body, same⟩
      cases same
    · rw [denied, getExecutionStatus_unknown absent]
  | some record =>
    obtain ⟨s, submitted, tenant⟩ := wf.recorded executionId record stored
    have recorded : app.Recorded executionId s := ⟨by simp [stored], submitted⟩
    have own : record.tenantId = s.auth.tenantId := by
      rw [tenant, Submission.tenantId]
      split
      next named => exact (honest executionId s recorded).resolve_left named
      · rfl
    have answer := getExecutionStatus_recorded stored (own ▸ named executionId s submitted) auth
    have submitter : (∃ s, app.Recorded executionId s ∧ s.auth.tenantId = auth.tenantId) ↔
        record.tenantId = auth.tenantId := by
      constructor
      · rintro ⟨s', ⟨_, submitted'⟩, same⟩
        rw [submitted] at submitted'
        exact own.trans (Option.some.inj submitted' ▸ same)
      · intro same
        exact ⟨s, recorded, own.symm.trans same⟩
    rw [submitter]
    refine ⟨answer.1, fun other unknown absent => ?_⟩
    rw [answer.2 other, getExecutionStatus_unknown absent]

end reading

/-- After every run of requests by callers with tenants, reading is by submitter
exactly when no recorded submission named another tenant in the query. -/
theorem readsOwn_iff {rt : KitematicRuntime} {requests : List Request} {app : App}
    (authenticated : ∀ request ∈ requests, ∀ auth, Request.auth request = some auth →
      auth.tenantId ≠ "") (ran : Trace.run step (create rt) requests = some app) :
    app.ReadsOwn ↔ ∀ executionId s, app.Recorded executionId s →
      s.xTenantId = "" ∨ s.xTenantId = s.auth.tenantId := by
  obtain ⟨wf, named⟩ := run_submitters authenticated ran
  exact ⟨fun reads _ _ recorded => ReadsOwn.honest wf named reads recorded,
    readsOwn_of_honest wf named⟩

def deniedSubmission (xTenantId : String) : List Request :=
  [submitAs "acme" xTenantId, .resume "e1" (.decision false none) 1 (.ok ())]

theorem readsOwn_iff_acme :
    ∃ app, Trace.run step (create {}) (deniedSubmission "acme") = some app ∧
      (app.ReadsOwn ↔ ∀ executionId s, app.Recorded executionId s →
        s.xTenantId = "" ∨ s.xTenantId = s.auth.tenantId) := by
  refine ⟨_, rfl, @readsOwn_iff {} (deniedSubmission "acme") _ ?_ rfl⟩
  intro request member auth authenticated
  simp only [deniedSubmission, submitAs, List.mem_cons, List.not_mem_nil, or_false] at member
  rcases member with rfl | rfl
  · cases authenticated
    decide
  · cases authenticated

/-- Naming another tenant in the query hands the execution over to it. -/
theorem named_tenant_reads :
    ∃ app, Trace.run step (create {}) (deniedSubmission "globex") = some app ∧ ¬ app.ReadsOwn := by
  refine ⟨_, rfl, fun reads => ?_⟩
  obtain ⟨s, ⟨_, submitted⟩, same⟩ := (reads "e1" ⟨"globex", ""⟩ (by decide)).1.mp ⟨_, rfl⟩
  obtain rfl : _ = s := Option.some.inj submitted
  exact absurd same (by decide)

end Kitematic.RestApi.App

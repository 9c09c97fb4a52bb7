import Kitematic.Ownership

/-! The REST application over one runtime: the handlers of `POST /api/v1/intents`
and `GET /api/v1/executions/{id}`, with the dictionary of execution records. A
submission waits on `execute_intent`; when that returns, the rest of its handler
runs up to the publication of the event. Authentication is the dependency's
answer, so a request comes with the context its key resolves to, if any. -/

namespace Kitematic.RestApi
open Admission Dictionary Interleaving Ownership PyText Resumption RuntimeAbi State Tenant

structure AuthContext where
  tenantId : String := ""
  agentId : String := ""

structure IntentRequest where
  agentId : String
  action : String
  parameters : Payload := []
  agentId_nonempty : agentId ≠ ""
  action_nonempty : action ≠ ""

structure ExecutionRecord where
  executionId : String
  success : Bool
  state : String
  agentId : String
  action : String
  tenantId : String
  checkpointId : Option String
  error : Option String

structure ExecutionEvent where
  executionId : String
  tenantId : String
  agentId : String
  eventType : String
  success : Bool
  state : String
  error : Option String

structure ExecutionResponse where
  executionId : String
  success : Bool
  state : String
  checkpointId : Option String
  data : Payload
  error : Option String

structure ExecutionStatusResponse where
  executionId : String
  state : String
  agentId : String
  action : String
  success : Bool
  error : Option String

inductive HttpResponse where
  | created (body : ExecutionResponse)
  | status (body : ExecutionStatusResponse)
  | error (statusCode : Nat) (error code : String)

def statusCodeToCode (statusCode : Nat) : String :=
  match statusCode with
  | 400 => "BAD_REQUEST"
  | 401 => "UNAUTHORIZED"
  | 403 => "FORBIDDEN"
  | 404 => "NOT_FOUND"
  | 422 => "VALIDATION_ERROR"
  | 429 => "RATE_LIMITED"
  | 500 => "INTERNAL_ERROR"
  | 503 => "SERVICE_UNAVAILABLE"
  | _ => "UNKNOWN"

def httpException (statusCode : Nat) (detail : String) : HttpResponse :=
  .error statusCode detail (statusCodeToCode statusCode)

structure Submission where
  intentReq : IntentRequest
  auth : AuthContext
  xTenantId : String
  xAgentId : String

namespace Submission

/-- `x_tenant_id or auth.tenant_id`. -/
def tenantId (s : Submission) : String :=
  if s.xTenantId ≠ "" then s.xTenantId else s.auth.tenantId

/-- `x_agent_id or auth.agent_id or intent_req.agent_id`. -/
def agentId (s : Submission) : String :=
  if s.xAgentId ≠ "" then s.xAgentId
  else if s.auth.agentId ≠ "" then s.auth.agentId
  else s.intentReq.agentId

def intent (s : Submission) : Intent where
  agentId := s.intentReq.agentId
  action := s.intentReq.action
  parameters := s.intentReq.parameters

def executionRecord (s : Submission) (result : ExecutionResult) : ExecutionRecord where
  executionId := result.executionId
  success := result.success
  state := result.state.value
  agentId := s.intentReq.agentId
  action := s.intentReq.action
  tenantId := s.tenantId
  checkpointId := result.checkpointId
  error := result.error

def executionEvent (s : Submission) (result : ExecutionResult) : ExecutionEvent where
  executionId := result.executionId
  tenantId := s.tenantId
  agentId := s.agentId
  eventType := "execution.completed"
  success := result.success
  state := result.state.value
  error := result.error

end Submission

def executionResponse (result : ExecutionResult) : ExecutionResponse where
  executionId := result.executionId
  success := result.success
  state := result.state.value
  checkpointId := result.checkpointId
  data := result.data
  error := result.error

/-- `submissions` keeps the arguments of every submission by the id its execution
drew; the handler of an id in flight reads them from there. -/
structure App where
  pool : Pool
  executions : Dict String ExecutionRecord := .empty
  counters : Dict String Nat := .empty
  published : List ExecutionEvent := []
  submissions : Dict String Submission := .empty

/-- What reaches the application. `publish` says how the publication that ends a
submission goes, and `shutdown` is the end of the lifespan. -/
inductive Request where
  | submitIntent (auth : Option AuthContext) (intentReq : IntentRequest)
      (xTenantId xAgentId : String) (executionId : String) (now : ℚ) (publish : Except String Unit)
  | resume (executionId : String) (reply : Reply) (now : ℚ) (publish : Except String Unit)
  | cancel (executionId : String)
  | getExecutionStatus (auth : Option AuthContext) (executionId : String)
  | shutdown

namespace App

def create (rt : KitematicRuntime) : App := { pool := Pool.start rt }

def increment (app : App) (counter : String) : App :=
  { app with counters := app.counters.set counter ((app.counters.get counter).getD 0 + 1) }

def unauthorized (app : App) : App × HttpResponse :=
  (app.increment "security.auth.failed", httpException 401 "Invalid or missing API key")

def answerSubmission (app : App) (s : Submission) (result : ExecutionResult)
    (publish : Except String Unit) : App × HttpResponse :=
  let app := { app with
    executions := app.executions.set result.executionId (s.executionRecord result) }
  let app := app.increment "api.intents_submitted"
  let app :=
    app.increment (if result.success then "api.intents_succeeded" else "api.intents_failed")
  ({ app with published := app.published ++ [s.executionEvent result] },
    match publish with
    | .ok () => .created (executionResponse result)
    | .error text => .error 500 text "INTERNAL_ERROR")

/-- The handler after a segment of its execution; nothing is answered while the
execution waits. -/
def afterExecuteIntent (app : App) (s : Submission) (progress : Progress)
    (publish : Except String Unit) : App × Option HttpResponse :=
  match progress with
  | .suspended _ => (app, none)
  | .raised e => (app, some (.error 500 e.message "INTERNAL_ERROR"))
  | .returned result =>
      let answered := app.answerSubmission s result publish
      (answered.1, some answered.2)

def submitIntent (app : App) (s : Submission) (id : String) (now : ℚ)
    (publish : Except String Unit) : Option (App × Option HttpResponse) :=
  (app.pool.executeIntent s.intent id now).map fun (pool, progress) =>
    afterExecuteIntent { app with pool := pool, submissions := app.submissions.set id s } s progress
      publish

def resumeSubmission (app : App) (id : String) (reply : Reply) (now : ℚ)
    (publish : Except String Unit) : Option (App × Option HttpResponse) :=
  (app.submissions.get id).bind fun s =>
    (app.pool.resume id reply now).map fun (pool, progress) =>
      afterExecuteIntent { app with pool := pool } s progress publish

def getExecutionStatus (app : App) (executionId : String) (auth : AuthContext) :
    App × HttpResponse :=
  match app.executions.get executionId with
  | none => (app, httpException 403 "Execution not found or access denied")
  | some record =>
      if record.tenantId ≠ "" ∧ record.tenantId ≠ auth.tenantId then
        (app.increment "security.tenant.denied",
          httpException 403 "Execution not found or access denied")
      else
        (app, .status
          { executionId := record.executionId, state := record.state, agentId := record.agentId
            action := record.action, success := record.success, error := record.error })

def serve (app : App) : Request → Option (App × Option HttpResponse)
  | .submitIntent none _ _ _ _ _ _ => some (app.unauthorized.1, some app.unauthorized.2)
  | .submitIntent (some auth) intentReq xTenantId xAgentId id now publish =>
      app.submitIntent ⟨intentReq, auth, xTenantId, xAgentId⟩ id now publish
  | .resume id reply now publish => app.resumeSubmission id reply now publish
  | .cancel id => (app.pool.cancel id).map fun pool => ({ app with pool := pool }, none)
  | .getExecutionStatus none _ => some (app.unauthorized.1, some app.unauthorized.2)
  | .getExecutionStatus (some auth) executionId =>
      let answered := app.getExecutionStatus executionId auth
      some (answered.1, some answered.2)
  | .shutdown =>
      some ({ app with pool := { app.pool with runtime := app.pool.runtime.stop.1 } }, none)

def step (app : App) (request : Request) : Option App := (app.serve request).map Prod.fst

end App
end Kitematic.RestApi

import Kitematic.Dict
import Kitematic.PyText
import Kitematic.Tenant

/-! The isolation boundary: registration of tenants and agents, ownership checks,
and the per-tenant count of active executions. -/

namespace Kitematic.Isolation
open Dictionary PyText Tenant

inductive IsolationError where
  | tenantNotFound (tenantId : String)
  | agentNotInTenant (agentId expectedTenant actualTenant : String)
  | crossTenantAccess (requestingTenant targetTenant resource : String)
  | crossAgentAccess (requestingAgent targetAgent resource : String)
  | missingTenantContext
  | resourceLimitExceeded (tenantId limitType : String) (current maxVal : Int)
  deriving DecidableEq

def IsolationError.message : IsolationError → String
  | .tenantNotFound tenantId => "Tenant not found: " ++ tenantId
  | .agentNotInTenant agentId expectedTenant actualTenant =>
      "Agent '" ++ agentId ++ "' not in tenant '" ++ expectedTenant ++
        "' (registered with '" ++ actualTenant ++ "')"
  | .crossTenantAccess requestingTenant targetTenant resource =>
      "Cross-tenant access denied: tenant '" ++ requestingTenant ++ "' cannot access '" ++
        resource ++ "' in tenant '" ++ targetTenant ++ "'"
  | .crossAgentAccess requestingAgent targetAgent resource =>
      "Cross-agent access denied: agent '" ++ requestingAgent ++ "' cannot access '" ++
        resource ++ "' owned by agent '" ++ targetAgent ++ "'"
  | .missingTenantContext => "No tenant context — execution denied"
  | .resourceLimitExceeded tenantId limitType current maxVal =>
      "Resource limit exceeded for tenant '" ++ tenantId ++ "': " ++ limitType ++ " = " ++
        toString current ++ " > " ++ toString maxVal

structure AgentRecord where
  agentId : String
  tenantId : String
  deriving DecidableEq

/-- `executionCounts` maps a tenant to its number of active executions; the code
keeps it non-negative, so it is a `Nat` here. -/
structure IsolationBoundary where
  tenants : Dict String TenantModel := .empty
  agents : Dict String AgentRecord := .empty
  executionCounts : Dict String Nat := .empty

namespace IsolationBoundary

def registerTenant (b : IsolationBoundary) (tenant : TenantModel) :
    Except String IsolationBoundary :=
  if !tenant.isValid then .error ("Invalid tenant: " ++ pyReprList tenant.validate)
  else .ok { b with tenants := b.tenants.set tenant.tenantId tenant }

def registerAgent (b : IsolationBoundary) (agentId tenantId : String) :
    Except IsolationError IsolationBoundary :=
  if !b.tenants.contains tenantId then .error (.tenantNotFound tenantId)
  else .ok { b with agents := b.agents.set agentId ⟨agentId, tenantId⟩ }

def getAgentTenant (b : IsolationBoundary) (agentId : String) : Option String :=
  (b.agents.get agentId).map AgentRecord.tenantId

def validateAgentScope (b : IsolationBoundary) (agentId tenantId : String) :
    Except IsolationError Bool :=
  match b.agents.get agentId with
  | none => .error (.agentNotInTenant agentId tenantId "unregistered")
  | some record =>
      if record.tenantId ≠ tenantId then
        .error (.agentNotInTenant agentId tenantId record.tenantId)
      else .ok true

def validateTenantContext (b : IsolationBoundary) (context : TenantContext) :
    Except IsolationError Bool :=
  if !context.isValid then .error .missingTenantContext
  else
    match b.tenants.get context.tenantId with
    | none => .error (.tenantNotFound context.tenantId)
    | some _ => b.validateAgentScope context.agentId context.tenantId

/-- The two owner checks of the source differ in the resource prefix only. -/
def validateOwner (resource ownerTenant ownerAgent requestTenant requestAgent : String) :
    Except IsolationError Bool :=
  if ownerTenant ≠ requestTenant then
    .error (.crossTenantAccess requestTenant ownerTenant (resource ++ ":" ++ ownerAgent))
  else if ownerAgent ≠ requestAgent then
    .error (.crossAgentAccess requestAgent ownerAgent (resource ++ ":" ++ ownerAgent))
  else .ok true

def validateStateOwner (stateTenant stateAgent requestTenant requestAgent : String) :
    Except IsolationError Bool :=
  validateOwner "state" stateTenant stateAgent requestTenant requestAgent

def validateCheckpointOwner
    (checkpointTenant checkpointAgent requestTenant requestAgent : String) :
    Except IsolationError Bool :=
  validateOwner "checkpoint" checkpointTenant checkpointAgent requestTenant requestAgent

def executionCount (b : IsolationBoundary) (tenantId : String) : Nat :=
  (b.executionCounts.get tenantId).getD 0

def checkResourceLimits (b : IsolationBoundary) (tenantId : String) :
    Except IsolationError Unit :=
  match b.tenants.get tenantId with
  | none => .error (.tenantNotFound tenantId)
  | some tenant =>
      let maxConcurrent := tenant.resourceLimits.maxConcurrentExecutions
      if maxConcurrent ≤ b.executionCount tenantId then
        .error (.resourceLimitExceeded tenantId "concurrent_executions"
          (b.executionCount tenantId) maxConcurrent)
      else .ok ()

def startExecution (b : IsolationBoundary) (tenantId : String) : IsolationBoundary :=
  { b with executionCounts := b.executionCounts.set tenantId (b.executionCount tenantId + 1) }

def endExecution (b : IsolationBoundary) (tenantId : String) : IsolationBoundary :=
  { b with executionCounts := b.executionCounts.set tenantId (b.executionCount tenantId - 1) }

@[simp] theorem executionCount_startExecution (b : IsolationBoundary) (t t' : String) :
    (b.startExecution t).executionCount t' =
      if t' = t then b.executionCount t' + 1 else b.executionCount t' := by
  simp only [startExecution, executionCount, Dict.get_set]
  by_cases h : t' = t <;> simp [h]

@[simp] theorem executionCount_endExecution (b : IsolationBoundary) (t t' : String) :
    (b.endExecution t).executionCount t' =
      if t' = t then b.executionCount t' - 1 else b.executionCount t' := by
  simp only [endExecution, executionCount, Dict.get_set]
  by_cases h : t' = t <;> simp [h]

theorem checkResourceLimits_eq_ok {b : IsolationBoundary} {t : String} :
    b.checkResourceLimits t = .ok () ↔ ∃ tenant, b.tenants.get t = some tenant ∧
      (b.executionCount t : Int) < tenant.resourceLimits.maxConcurrentExecutions := by
  unfold checkResourceLimits
  cases h : b.tenants.get t with
  | none => simp
  | some tenant => simp

theorem validateAgentScope_eq_ok {b : IsolationBoundary} {agent tenant : String} :
    b.validateAgentScope agent tenant = .ok true ↔ b.getAgentTenant agent = some tenant := by
  unfold validateAgentScope getAgentTenant
  cases h : b.agents.get agent with
  | none => simp
  | some record => by_cases same : record.tenantId = tenant <;> simp [same]

theorem validateTenantContext_eq_ok {b : IsolationBoundary} {context : TenantContext} :
    b.validateTenantContext context = .ok true ↔ context.isValid = true ∧
      (b.tenants.get context.tenantId).isSome ∧
        b.getAgentTenant context.agentId = some context.tenantId := by
  unfold validateTenantContext
  cases valid : context.isValid with
  | false => simp
  | true =>
    cases h : b.tenants.get context.tenantId with
    | none => simp
    | some tenant => simp [validateAgentScope_eq_ok]

theorem validateTenantContext_ok_true {b : IsolationBoundary} {context : TenantContext}
    {answer : Bool} (passed : b.validateTenantContext context = .ok answer) : answer = true := by
  unfold validateTenantContext validateAgentScope at passed
  grind

theorem validateOwner_eq_ok {resource tenant agent requestTenant requestAgent : String} :
    validateOwner resource tenant agent requestTenant requestAgent = .ok true ↔
      tenant = requestTenant ∧ agent = requestAgent := by
  unfold validateOwner
  by_cases h : tenant = requestTenant <;> by_cases g : agent = requestAgent <;> simp [h, g]

theorem validateOwner_ok_true {resource tenant agent requestTenant requestAgent : String}
    {answer : Bool} (passed : validateOwner resource tenant agent requestTenant requestAgent =
      .ok answer) : answer = true := by
  unfold validateOwner at passed
  split at passed
  · cases passed
  · split at passed <;> cases passed
    rfl

end IsolationBoundary
end Kitematic.Isolation

import Mathlib.Data.Finset.Basic

/-! Tenants and tenant contexts: the unit of ownership and the context one
execution runs under. -/

namespace Kitematic.Tenant

/-- Of the five limits only the one the isolation boundary reads. -/
structure ResourceLimits where
  maxConcurrentExecutions : Int := 5
  deriving DecidableEq

structure TenantModel where
  tenantId : String
  name : String
  resourceLimits : ResourceLimits := {}
  deriving DecidableEq

def TenantModel.validate (tenant : TenantModel) : List String :=
  (if tenant.tenantId = "" then ["tenant_id is required"] else []) ++
    if tenant.name = "" then ["name is required"] else []

def TenantModel.isValid (tenant : TenantModel) : Bool := tenant.validate.length = 0

structure TenantContext where
  tenantId : String
  agentId : String
  allowedCapabilities : Finset String := ∅
  deriving DecidableEq

def TenantContext.validate (context : TenantContext) : List String :=
  (if context.tenantId = "" then ["tenant_id is required"] else []) ++
    if context.agentId = "" then ["agent_id is required"] else []

def TenantContext.isValid (context : TenantContext) : Bool := context.validate.length = 0

/-- An empty capability set restricts nothing. -/
def TenantContext.hasCapability (context : TenantContext) (capability : String) : Bool :=
  if context.allowedCapabilities = ∅ then true else capability ∈ context.allowedCapabilities

end Kitematic.Tenant

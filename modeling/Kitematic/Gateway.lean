import Kitematic.ToolAccess
import Kitematic.Tools

/-! The tool gateway. `access_tool` runs up to its awaited `call_tool`, or raises
before it, and goes on with what the client answers. A client is known by what it
is asked; every exit but a cancelled await leaves one audit entry. -/

namespace Kitematic.Gateway
open Chain Dictionary Ownership PyText RuntimeAbi State Tenant Tools

structure GatewayAuditEntry where
  timestamp : ℚ
  toolId : String
  mcpServer : String
  agentId : String
  success : Bool
  error : Option String := none
  durationMs : ℚ

structure GatewayEvent where
  state : ExecutionState
  tool : String
  mcpServer : String
  agentId : String
  success : Bool
  durationMs : ℚ
  error : Option String

structure GatewayAccessError where
  tool : String
  reason : String

def GatewayAccessError.message (e : GatewayAccessError) : String :=
  "Gateway access failed for tool '" ++ e.tool ++ "': " ++ e.reason

/-- A pending `call_tool` of a client, with the locals of the `access_tool` that
waits for it. -/
structure McpCall (κ : Type) where
  client : κ
  tool : ToolDefinition
  path : ExecutionPath
  intent : Intent
  start : ℚ

structure MCPToolGateway (κ : Type) where
  registry : ToolRegistry := .empty
  clients : Dict String κ := .empty
  auditLog : List GatewayAuditEntry := []
  eventLog : Option (List GatewayEvent) := none

/-- `round(seconds * 1000, 2)`. -/
def milliseconds (seconds : ℚ) : ℚ := roundHalfEven (seconds * 1000 * 100) / 100

namespace MCPToolGateway
variable {κ : Type}

def registerClient (g : MCPToolGateway κ) (serverId : String) (client : κ) : MCPToolGateway κ :=
  { g with clients := g.clients.set serverId client }

def recordAudit (g : MCPToolGateway κ) (toolId mcpServer agentId : String) (success : Bool)
    (start now : ℚ) (error : Option String := none) : MCPToolGateway κ :=
  let entry : GatewayAuditEntry :=
    ⟨start, toolId, mcpServer, agentId, success, error, milliseconds (now - start)⟩
  let event : GatewayEvent :=
    ⟨.executing, toolId, mcpServer, agentId, success, entry.durationMs, error⟩
  { g with
    auditLog := g.auditLog ++ [entry]
    eventLog := g.eventLog.map (· ++ [event]) }

/-- `access_tool` up to its await. -/
def accessTool (g : MCPToolGateway κ) (path : ExecutionPath) (intent : Intent) (start now : ℚ) :
    MCPToolGateway κ × Except GatewayAccessError (McpCall κ) :=
  match g.registry.get path.tool with
  | none =>
      let error := "Tool not registered: " ++ path.tool
      (g.recordAudit path.tool "" intent.agentId false start now (some error),
        .error ⟨path.tool, error⟩)
  | some tool =>
      match g.clients.get tool.mcpServer with
      | none =>
          let error := "No MCP client for server: " ++ tool.mcpServer
          (g.recordAudit path.tool tool.mcpServer intent.agentId false start now (some error),
            .error ⟨path.tool, error⟩)
      | some client => (g, .ok ⟨client, tool, path, intent, start⟩)

def afterCallTool (g : MCPToolGateway κ) (call : McpCall κ) (now : ℚ) :
    Except String Payload → MCPToolGateway κ × Except GatewayAccessError ToolResult
  | .error e =>
      let error := "MCP call failed: " ++ e
      (g.recordAudit call.path.tool call.tool.mcpServer call.intent.agentId false call.start now
          (some error), .error ⟨call.path.tool, error⟩)
  | .ok result =>
      (g.recordAudit call.path.tool call.tool.mcpServer call.intent.agentId true call.start now,
        .ok ⟨true, result, none⟩)

def access (g : MCPToolGateway κ) (answer : McpCall κ → Except String Payload)
    (start now finish : ℚ) (path : ExecutionPath) (intent : Intent) :
    Except GatewayAccessError ToolResult :=
  match (g.accessTool path intent start now).2 with
  | .error e => .error e
  | .ok call => (g.afterCallTool call finish (answer call)).2

def wired (g : MCPToolGateway κ) (answer : McpCall κ → Except String Payload)
    (start now finish : ℚ) (c : Collaborators) : Collaborators :=
  { c with
    accessTool := fun path intent =>
      (g.access answer start now finish path intent).mapError GatewayAccessError.message }

def mcpCalls (g : MCPToolGateway κ) (start now : ℚ) (effects : List Effect) : List (McpCall κ) :=
  (accesses effects).filterMap fun access => (g.accessTool access.1 access.2 start now).2.toOption

theorem accessTool_eq_ok {g : MCPToolGateway κ} {path : ExecutionPath} {intent : Intent}
    {start now : ℚ} {call : McpCall κ} : (g.accessTool path intent start now).2 = .ok call ↔
      ∃ tool client, g.registry.get path.tool = some tool ∧
        g.clients.get tool.mcpServer = some client ∧
          call = ⟨client, tool, path, intent, start⟩ := by
  unfold accessTool
  cases registered : g.registry.get path.tool with
  | none => simp
  | some tool => cases connected : g.clients.get tool.mcpServer <;> simp [connected, eq_comm]

theorem mem_mcpCalls {g : MCPToolGateway κ} {start now : ℚ} {effects : List Effect}
    {reached : Option ExecutionPath} {intent : Intent}
    (accessed : accesses effects = reached.toList.map (·, intent)) {call : McpCall κ} :
    call ∈ g.mcpCalls start now effects ↔
      ∃ path tool client, reached = some path ∧ g.registry.get path.tool = some tool ∧
        g.clients.get tool.mcpServer = some client ∧
          call = ⟨client, tool, path, intent, start⟩ := by
  have toOption : ∀ answer : Except GatewayAccessError (McpCall κ),
      answer.toOption = some call ↔ answer = .ok call := by
    intro answer
    cases answer <;> simp [Except.toOption]
  rw [mcpCalls, accessed]
  cases reached with
  | none => simp
  | some path => simp [toOption, accessTool_eq_ok]

/-- Every tool called is one whose requirements the tenant context meets. -/
def WithinCapabilities (ctx : Option TenantContext) (calls : List (McpCall κ)) : Prop :=
  ∀ context, ctx = some context → context.allowedCapabilities ≠ ∅ →
    ∀ call ∈ calls, call.tool.requiredCapabilities ⊆ context.allowedCapabilities

/-- The execution is admitted and granted, and the router sends it to a connected
tool with a requirement that the tenant context does not meet. -/
structure Ungranted (g : MCPToolGateway κ) (c : Collaborators) (rt : KitematicRuntime)
    (intent : Intent) (now : ℚ) (context : TenantContext) (path : ExecutionPath)
    (tool : ToolDefinition) : Prop where
  held : rt.tenantContext = some context
  restricted : context.allowedCapabilities ≠ ∅
  admitted : admitted rt now = true
  evaluated : ∃ reason, c.evaluateIntent intent = .ok (true, reason)
  checked : ∃ reason, c.checkCapability intent.action intent.agentId = .ok (true, reason)
  routed : c.routeIntent intent = .ok path
  registered : g.registry.get path.tool = some tool
  connected : g.clients.contains tool.mcpServer = true
  missing : ¬ tool.requiredCapabilities ⊆ context.allowedCapabilities

/-- The check that nothing makes: the registry itself refuses an ungranted tool. -/
theorem Ungranted.refused {g : MCPToolGateway κ} {c : Collaborators} {rt : KitematicRuntime}
    {intent : Intent} {now : ℚ} {context : TenantContext} {path : ExecutionPath}
    {tool : ToolDefinition} (ungranted : Ungranted g c rt intent now context path tool) :
    g.registry.validateAccess path.tool (some context.allowedCapabilities) ≠ .ok tool := by
  intro accepted
  exact ungranted.missing (ToolRegistry.validateAccess_eq_ok.mp accepted).2

theorem execute_mcpCalls (g : MCPToolGateway κ) (answer : McpCall κ → Except String Payload)
    (start accessed finish : ℚ) (c : Collaborators)
    (between : Nat → KitematicRuntime → KitematicRuntime) (clock : Nat → ℚ)
    (rt : KitematicRuntime) (intent : Intent) (id : String) (now : ℚ) :
    ∃ effects ending, execute (g.wired answer start accessed finish c) between clock rt intent id
        now = some (effects, ending) ∧
      ∀ call, call ∈ g.mcpCalls start accessed effects ↔ ∃ path tool client,
        reached c rt intent now = some path ∧ g.registry.get path.tool = some tool ∧
          g.clients.get tool.mcpServer = some client ∧
          call = ⟨client, tool, path, intent, start⟩ := by
  obtain ⟨effects, ending, ran, made⟩ := execute_accesses (g.wired answer start accessed finish c)
    between clock rt intent id now
  exact ⟨effects, ending, ran, fun call => mem_mcpCalls made⟩

/-- An execution keeps to the capabilities of its tenant context exactly when its
inputs do not lead it to an ungranted tool. -/
theorem withinCapabilities_iff_granted (g : MCPToolGateway κ)
    (answer : McpCall κ → Except String Payload) (start accessed finish : ℚ) (c : Collaborators)
    (between : Nat → KitematicRuntime → KitematicRuntime) (clock : Nat → ℚ)
    (rt : KitematicRuntime) (intent : Intent) (id : String) (now : ℚ) :
    ∃ effects ending, execute (g.wired answer start accessed finish c) between clock rt intent id
        now = some (effects, ending) ∧
      (WithinCapabilities rt.tenantContext (g.mcpCalls start accessed effects) ↔
        ∀ context path tool, ¬ Ungranted g c rt intent now context path tool) := by
  obtain ⟨effects, ending, ran, made⟩ :=
    g.execute_mcpCalls answer start accessed finish c between clock rt intent id now
  refine ⟨effects, ending, ran, ?_, ?_⟩
  · intro within context path tool ungranted
    obtain ⟨client, connected⟩ := Option.isSome_iff_exists.mp ungranted.connected
    refine ungranted.missing (within context ungranted.held ungranted.restricted
      ⟨client, tool, path, intent, start⟩ ((made _).mpr ⟨path, tool, client, ?_,
        ungranted.registered, connected, rfl⟩))
    exact reached_eq_some.mpr
      ⟨ungranted.admitted, ungranted.evaluated, ungranted.checked, ungranted.routed⟩
  · intro granted context held restricted call member
    obtain ⟨path, tool, client, arrives, registered, connected, rfl⟩ := (made call).mp member
    obtain ⟨admitted, evaluated, checked, routed⟩ := reached_eq_some.mp arrives
    by_contra missing
    exact granted context path tool ⟨held, restricted, admitted, evaluated, checked, routed,
      registered, Option.isSome_iff_exists.mpr ⟨client, connected⟩, missing⟩

def dropTable : ToolDefinition := ⟨"db.drop", "db", {"db.admin"}⟩

def readerContext : TenantContext := ⟨"acme", "agent", {"db.read"}⟩

def dropGateway : MCPToolGateway Unit where
  registry := (ToolRegistry.empty.register dropTable).toOption.getD .empty
  clients := (.empty : Dict String Unit).set "db" ()

theorem dropTable_called_by_reader :
    ∃ effects ending, execute (dropGateway.wired (fun _ => .ok []) 0 0 0 grantAll)
        (fun _ rt => rt) (fun _ => 0) { tenantContext := some readerContext }
        ⟨"agent", "db.drop", []⟩ "e1" 0 = some (effects, ending) ∧
      ¬ WithinCapabilities (some readerContext) (dropGateway.mcpCalls 0 0 effects) := by
  obtain ⟨effects, ending, ran, made⟩ := dropGateway.execute_mcpCalls (fun _ => .ok []) 0 0 0
    grantAll (fun _ rt => rt) (fun _ => 0) { tenantContext := some readerContext }
    ⟨"agent", "db.drop", []⟩ "e1" 0
  refine ⟨effects, ending, ran, fun within => ?_⟩
  have called := (made ⟨(), dropTable, ⟨"db.drop", "", []⟩, ⟨"agent", "db.drop", []⟩, 0⟩).mpr
    ⟨⟨"db.drop", "", []⟩, dropTable, (), rfl, by decide +kernel, rfl, rfl⟩
  exact absurd (within readerContext rfl (by decide) _ called) (by decide)

end MCPToolGateway
end Kitematic.Gateway

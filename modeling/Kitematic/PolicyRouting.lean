import Kitematic.Gateway
import Kitematic.Policy

/-! The runtime wired with the policy adapter, the router and the gateway over one
registry. None of the three suspends before `call_tool`, so from `execute_intent` up
to that call the rules are the same. The policy is asked about the action of the
intent; the tool called is the one the router makes of it. -/

namespace Kitematic.PolicyRouting
open Chain Gateway Ownership Policy PyText RuntimeAbi Tools

structure Readings where
  evaluate : ℚ
  evaluated : ℚ
  check : ℚ
  checked : ℚ
  start : ℚ
  accessed : ℚ
  finish : ℚ

/-- What the runtime is wired with; `answer` is what the MCP clients do. -/
structure Wiring (κ : Type) where
  engine : PolicyEngine
  gateway : MCPToolGateway κ
  answer : McpCall κ → Except String Payload
  save : String → CheckpointState → Except String String

namespace Wiring
variable {κ : Type}

/-- The collaborators of the execution of an intent. The second policy request finds
the cache as the first one left it. -/
def collaborators (w : Wiring κ) (intent : Intent) (t : Readings) : Collaborators where
  evaluateIntent intent := .ok (w.engine.evaluateIntent intent t.evaluate t.evaluated).2
  checkCapability action agentId :=
    .ok ((w.engine.evaluateIntent intent t.evaluate t.evaluated).1.checkCapability action agentId
      t.check t.checked).2
  routeIntent intent :=
    (w.gateway.registry.routeIntent intent).mapError OrchestrationError.message
  accessTool path intent :=
    (w.gateway.access w.answer t.start t.accessed t.finish path intent).mapError
      GatewayAccessError.message
  save := w.save

/-- The rules allow every tool called. -/
def AllowedByRules (w : Wiring κ) (calls : List (McpCall κ)) : Prop :=
  ∀ call ∈ calls, w.engine.ruled call.path.tool = .allow

/-- The two ways around the rules. In both the execution is admitted, the tool has a
client and the rules do not allow it. -/
inductive Bypass (w : Wiring κ) (rt : KitematicRuntime) (intent : Intent) (now : ℚ)
    (t : Readings) : Prop where
  | wildcard (tool : ToolDefinition) (admitted : admitted rt now = true)
      (unregistered : w.gateway.registry.get intent.action = none)
      (only : w.gateway.registry.matchPattern intent.action = [tool])
      (connected : w.gateway.clients.contains tool.mcpServer = true)
      (forbidden : w.engine.ruled tool.toolId ≠ .allow)
      (granted : w.engine.AllowsTwice intent.agentId intent.action t.evaluate t.check)
  | remembered (tool : ToolDefinition) (admitted : admitted rt now = true)
      (exact : w.gateway.registry.get intent.action = some tool)
      (connected : w.gateway.clients.contains tool.mcpServer = true)
      (forbidden : w.engine.ruled intent.action ≠ .allow)
      (first : w.engine.remembered intent.agentId intent.action t.evaluate = some .allow)
      (second : w.engine.remembered intent.agentId intent.action t.check = some .allow)

theorem granted_iff (w : Wiring κ) (intent : Intent) (t : Readings) :
    ((∃ reason, (w.collaborators intent t).evaluateIntent intent = .ok (true, reason)) ∧
      ∃ reason, (w.collaborators intent t).checkCapability intent.action intent.agentId =
        .ok (true, reason)) ↔
      w.engine.AllowsTwice intent.agentId intent.action t.evaluate t.check := by
  rw [← PolicyEngine.evaluate_twice_allowed _ _ _ _ t.evaluated _ t.checked]
  simp only [collaborators, PolicyEngine.evaluateIntent, PolicyEngine.checkCapability,
    Except.ok.injEq, PolicyEngine.verdict_allowed]

theorem routed_iff (w : Wiring κ) (intent : Intent) (t : Readings) (path : ExecutionPath) :
    (w.collaborators intent t).routeIntent intent = .ok path ↔
      ∃ tool, w.gateway.registry.Resolves intent.action tool ∧ path = tool.path intent := by
  rw [← ToolRegistry.routeIntent_eq_ok]
  simp only [collaborators]
  cases w.gateway.registry.routeIntent intent <;> simp [Except.mapError]

theorem execute_mcpCalls (w : Wiring κ) (between : Nat → KitematicRuntime → KitematicRuntime)
    (clock : Nat → ℚ) (rt : KitematicRuntime) (intent : Intent) (id : String) (now : ℚ)
    (t : Readings) :
    ∃ effects ending, execute (w.collaborators intent t) between clock rt intent id now =
        some (effects, ending) ∧
      ∀ call, call ∈ w.gateway.mcpCalls t.start t.accessed effects ↔
        ∃ tool client, admitted rt now = true ∧ w.gateway.registry.Resolves intent.action tool ∧
          w.gateway.clients.get tool.mcpServer = some client ∧
          w.engine.AllowsTwice intent.agentId intent.action t.evaluate t.check ∧
          call = ⟨client, tool, tool.path intent, intent, t.start⟩ := by
  obtain ⟨effects, ending, ran, made⟩ :=
    execute_accesses (w.collaborators intent t) between clock rt intent id now
  refine ⟨effects, ending, ran, fun call => ?_⟩
  rw [MCPToolGateway.mem_mcpCalls made]
  constructor
  · rintro ⟨path, tool, client, arrives, registered, connected, rfl⟩
    obtain ⟨passed, evaluated, checked, routed⟩ := reached_eq_some.mp arrives
    obtain ⟨resolved, resolves, rfl⟩ := (w.routed_iff intent t path).mp routed
    obtain rfl : resolved = tool := Option.some.inj (resolves.registered.symm.trans registered)
    exact ⟨resolved, client, passed, resolves, connected,
      (w.granted_iff intent t).mp ⟨evaluated, checked⟩, rfl⟩
  · rintro ⟨tool, client, passed, resolves, connected, granted, rfl⟩
    obtain ⟨evaluated, checked⟩ := (w.granted_iff intent t).mpr granted
    refine ⟨tool.path intent, tool, client, ?_, resolves.registered, connected, rfl⟩
    exact reached_eq_some.mpr
      ⟨passed, evaluated, checked, (w.routed_iff intent t _).mpr ⟨tool, resolves, rfl⟩⟩

/-- An execution calls only what the rules allow exactly when its inputs are on
neither way around them. -/
theorem allowedByRules_iff_no_bypass (w : Wiring κ)
    (between : Nat → KitematicRuntime → KitematicRuntime) (clock : Nat → ℚ)
    (rt : KitematicRuntime) (intent : Intent) (id : String) (now : ℚ) (t : Readings) :
    ∃ effects ending, execute (w.collaborators intent t) between clock rt intent id now =
        some (effects, ending) ∧
      (w.AllowedByRules (w.gateway.mcpCalls t.start t.accessed effects) ↔
        ¬ w.Bypass rt intent now t) := by
  obtain ⟨effects, ending, ran, made⟩ := w.execute_mcpCalls between clock rt intent id now t
  refine ⟨effects, ending, ran, ?_, ?_⟩
  · intro allowed bypass
    cases bypass with
    | wildcard tool passed unregistered only connected forbidden granted =>
      obtain ⟨client, connected⟩ := Option.isSome_iff_exists.mp connected
      have called := allowed ⟨client, tool, tool.path intent, intent, t.start⟩ ((made _).mpr
        ⟨tool, client, passed, .inr ⟨unregistered, only⟩, connected, granted, rfl⟩)
      simp only [ToolDefinition.path] at called
      exact forbidden called
    | remembered tool passed exact connected forbidden first second =>
      obtain ⟨client, connected⟩ := Option.isSome_iff_exists.mp connected
      have called := allowed ⟨client, tool, tool.path intent, intent, t.start⟩ ((made _).mpr
        ⟨tool, client, passed, .inl exact, connected, .inr ⟨first, by rw [second]; rfl⟩, rfl⟩)
      simp only [ToolDefinition.path, ToolRegistry.get_toolId exact] at called
      exact forbidden called
  · intro clean call member
    obtain ⟨tool, client, passed, resolves, connected, granted, rfl⟩ := (made call).mp member
    have attached := Option.isSome_iff_exists.mpr ⟨client, connected⟩
    by_contra forbidden
    simp only [ToolDefinition.path] at forbidden
    rcases resolves with exact | ⟨unregistered, only⟩
    · have refused := forbidden
      rw [ToolRegistry.get_toolId exact] at refused
      rcases granted with ⟨_, ruled⟩ | ⟨first, second⟩
      · exact refused ruled
      · refine clean (.remembered tool passed exact attached refused first ?_)
        cases later : w.engine.remembered intent.agentId intent.action t.check with
        | none =>
          rw [later, Option.getD_none] at second
          exact absurd second refused
        | some decision =>
          rw [later, Option.getD_some] at second
          rw [second]
    · exact clean (.wildcard tool passed unregistered only attached forbidden granted)

def query : ToolDefinition := ⟨"mcp.database.query", "database", ∅⟩

def guardedDatabase : Wiring Unit where
  engine := (PolicyEngine.createPolicy {} "pol-1" "No queries" "mcp.database.query"
    "DENY").toOption.getD {}
  gateway :=
    { registry := (ToolRegistry.empty.register query).toOption.getD .empty
      clients := (.empty : Dictionary.Dict String Unit).set "database" () }
  answer _ := .ok []
  save executionId _ := .ok ("cp-" ++ executionId)

theorem query_called_by_wildcard :
    ∃ effects ending, execute (guardedDatabase.collaborators ⟨"agent", "mcp.database.*", []⟩
          ⟨0, 0, 0, 0, 0, 0, 0⟩) (fun _ rt => rt) (fun _ => 0) {}
        ⟨"agent", "mcp.database.*", []⟩ "e1" 0 = some (effects, ending) ∧
      guardedDatabase.engine.ruled "mcp.database.query" = .deny ∧
      ¬ guardedDatabase.AllowedByRules (guardedDatabase.gateway.mcpCalls 0 0 effects) := by
  obtain ⟨effects, ending, ran, made⟩ := guardedDatabase.execute_mcpCalls (fun _ rt => rt)
    (fun _ => 0) {} ⟨"agent", "mcp.database.*", []⟩ "e1" 0 ⟨0, 0, 0, 0, 0, 0, 0⟩
  have denied : guardedDatabase.engine.ruled "mcp.database.query" = .deny := by decide +kernel
  refine ⟨effects, ending, ran, denied, fun allowed => ?_⟩
  have called := allowed _ ((made _).mpr
    ⟨query, (), rfl, .inr ⟨by decide +kernel, by decide +kernel⟩, rfl, .inl ⟨rfl, by decide +kernel⟩, rfl⟩)
  rw [ToolDefinition.path, query, denied] at called
  cases called

end Wiring
end Kitematic.PolicyRouting

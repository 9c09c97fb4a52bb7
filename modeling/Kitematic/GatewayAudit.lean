import Kitematic.Gateway
import Kitematic.Trace

/-! Any number of `access_tool` calls on one gateway, interleaved where they wait for a
client, while clients, tools and the event log change. The audit log of the gateway is
compared with the calls that have ended. -/

namespace Kitematic.GatewayAudit
open Dictionary Gateway PyText RuntimeAbi Tools

structure Access where
  path : ExecutionPath
  intent : Intent
  returned : Bool

structure ToolCall (κ : Type) where
  client : κ
  tool : String
  registry : ToolRegistry
  clients : Dict String κ

/-- `heard` are the calls that have ended since the event log was set. -/
structure Session (κ : Type) where
  gateway : MCPToolGateway κ
  waiting : Dict Nat (McpCall κ) := .empty
  ended : List Access := []
  heard : List Access := []
  called : List (ToolCall κ) := []

/-- Calls are told apart by a number. -/
inductive Action (κ : Type) where
  | accessTool (call : Nat) (path : ExecutionPath) (intent : Intent) (start now : ℚ)
  | answer (call : Nat) (outcome : Except String Payload) (now : ℚ)
  | cancel (call : Nat)
  | registerClient (serverId : String) (client : κ)
  | register (tool : ToolDefinition)
  | unregister (toolId : String)
  | setEventLog

namespace Session
variable {κ : Type}

def start (registry : ToolRegistry) (clients : Dict String κ) : Session κ :=
  { gateway := { registry := registry, clients := clients } }

def finish (s : Session κ) (gateway : MCPToolGateway κ) (waiting : Dict Nat (McpCall κ))
    (access : Access) : Session κ :=
  { s with
    gateway := gateway
    waiting := waiting
    ended := s.ended ++ [access]
    heard := s.heard ++ [access] }

def accessTool (s : Session κ) (call : Nat) (path : ExecutionPath) (intent : Intent)
    (start now : ℚ) : Session κ :=
  match s.gateway.accessTool path intent start now with
  | (g, .error _) => s.finish g s.waiting ⟨path, intent, false⟩
  | (g, .ok mcp) =>
      { s with
        gateway := g
        waiting := s.waiting.set call mcp
        called := s.called ++ [⟨mcp.client, path.tool, s.gateway.registry, s.gateway.clients⟩] }

def setRegistry (s : Session κ) (registry : Except RegistryError ToolRegistry) : Session κ :=
  match registry with
  | .error _ => s
  | .ok registry => { s with gateway := { s.gateway with registry := registry } }

/-- `CancelledError` at the await passes the handler of `access_tool`. -/
def step (s : Session κ) : Action κ → Option (Session κ)
  | .accessTool call path intent start now =>
      if (s.waiting.get call).isSome then none else some (s.accessTool call path intent start now)
  | .answer call outcome now =>
      (s.waiting.get call).map fun mcp =>
        match s.gateway.afterCallTool mcp now outcome with
        | (g, answer) =>
            s.finish g (s.waiting.erase call) ⟨mcp.path, mcp.intent, answer.toBool⟩
  | .cancel call =>
      (s.waiting.get call).map fun mcp =>
        s.finish s.gateway (s.waiting.erase call) ⟨mcp.path, mcp.intent, false⟩
  | .registerClient serverId client =>
      some { s with gateway := s.gateway.registerClient serverId client }
  | .register tool => some (s.setRegistry (s.gateway.registry.register tool))
  | .unregister toolId => some (s.setRegistry (s.gateway.registry.unregister toolId))
  | .setEventLog => some { s with gateway := { s.gateway with eventLog := some [] }, heard := [] }

end Session

/-- The tool, the agent and the success of a call. -/
def Access.note (access : Access) : String × String × Bool :=
  (access.path.tool, access.intent.agentId, access.returned)

def entryNote (e : GatewayAuditEntry) : String × String × Bool := (e.toolId, e.agentId, e.success)

def eventNote (e : GatewayEvent) : String × String × Bool := (e.tool, e.agentId, e.success)

/-- The client is registered for the server that the tool is registered to. -/
def ToolCall.Served {κ : Type} (call : ToolCall κ) : Prop :=
  ∃ tool, call.registry.get call.tool = some tool ∧ tool.toolId = call.tool ∧
    call.clients.get tool.mcpServer = some call.client

namespace Session
variable {κ : Type} {s t : Session κ}

/-- Each call that has ended left its one entry, and its one event where a log is set. -/
structure Accounted (s : Session κ) : Prop where
  entries : s.gateway.auditLog.map entryNote = s.ended.map Access.note
  events : ∀ events, s.gateway.eventLog = some events →
    events.map eventNote = s.heard.map Access.note
  served : ∀ call ∈ s.called, call.Served

theorem start_accounted (registry : ToolRegistry) (clients : Dict String κ) :
    (start registry clients).Accounted :=
  ⟨rfl, by simp [start], by simp [start]⟩

theorem Accounted.recorded (accounted : s.Accounted) (waiting : Dict Nat (McpCall κ))
    (access : Access) (server : String) (start now : ℚ) (error : Option String) :
    (s.finish (s.gateway.recordAudit access.path.tool server access.intent.agentId access.returned
      start now error) waiting access).Accounted := by
  refine ⟨?_, ?_, accounted.served⟩
  · simp [finish, MCPToolGateway.recordAudit, accounted.entries, entryNote, Access.note]
  · intro events written
    obtain ⟨before, set, rfl⟩ := Option.map_eq_some_iff.mp written
    simp [finish, accounted.events before set, eventNote, Access.note]

theorem unaccounted (accounted : s.Accounted) (waiting : Dict Nat (McpCall κ)) (access : Access) :
    ¬ (s.finish s.gateway waiting access).Accounted := by
  intro claimed
  have length := congrArg List.length claimed.entries
  have before := congrArg List.length accounted.entries
  simp only [finish, List.length_map, List.length_append, List.length_singleton] at length before
  omega

theorem Accounted.accessTool (accounted : s.Accounted) (call : Nat) (path : ExecutionPath)
    (intent : Intent) (start now : ℚ) : (s.accessTool call path intent start now).Accounted := by
  unfold Session.accessTool MCPToolGateway.accessTool
  cases registered : s.gateway.registry.get path.tool with
  | none => exact accounted.recorded s.waiting ⟨path, intent, false⟩ _ _ _ _
  | some tool =>
    simp only
    cases connected : s.gateway.clients.get tool.mcpServer with
    | none => exact accounted.recorded s.waiting ⟨path, intent, false⟩ _ _ _ _
    | some client =>
      refine ⟨accounted.entries, accounted.events, fun asked member => ?_⟩
      cases List.mem_append.mp member with
      | inl before => exact accounted.served asked before
      | inr new =>
        rw [List.mem_singleton.mp new]
        exact ⟨tool, registered, ToolRegistry.get_toolId registered, connected⟩

theorem Accounted.setRegistry (accounted : s.Accounted)
    (registry : Except RegistryError ToolRegistry) : (s.setRegistry registry).Accounted := by
  cases registry with
  | error e => exact accounted
  | ok registry => exact ⟨accounted.entries, accounted.events, accounted.served⟩

def Uncancelled (_ : List (Action κ)) (_ : Session κ) : Action κ → Prop
  | .cancel _ => False
  | _ => True

theorem step_accounted {past : List (Action κ)} {action : Action κ} (accounted : s.Accounted)
    (stepped : s.step action = some t) : t.Accounted ↔ Uncancelled past s action := by
  cases action with
  | accessTool call path intent start now =>
    simp only [step, Option.ite_none_left_eq_some, Option.some.injEq] at stepped
    exact iff_of_true (stepped.2 ▸ accounted.accessTool call path intent start now) trivial
  | answer call outcome now =>
    obtain ⟨mcp, -, rfl⟩ := Option.map_eq_some_iff.mp stepped
    cases outcome with
    | error e =>
      exact iff_of_true (accounted.recorded _ ⟨mcp.path, mcp.intent, false⟩ _ _ _ _) trivial
    | ok data =>
      exact iff_of_true (accounted.recorded _ ⟨mcp.path, mcp.intent, true⟩ _ _ _ _) trivial
  | cancel call =>
    obtain ⟨mcp, -, rfl⟩ := Option.map_eq_some_iff.mp stepped
    exact iff_of_false (unaccounted accounted _ _) id
  | registerClient serverId client =>
    cases stepped
    exact iff_of_true ⟨accounted.entries, accounted.events, accounted.served⟩ trivial
  | register tool =>
    cases stepped
    exact iff_of_true (accounted.setRegistry _) trivial
  | unregister toolId =>
    cases stepped
    exact iff_of_true (accounted.setRegistry _) trivial
  | setEventLog =>
    cases stepped
    refine iff_of_true ⟨accounted.entries, fun events set => ?_, accounted.served⟩ trivial
    cases set
    rfl

/-- In every state of a run every ended call is accounted for exactly when no call is
cancelled while it waits for its client. -/
theorem accounted_iff_uncancelled {registry : ToolRegistry} {clients : Dict String κ}
    {actions : List (Action κ)} {t : Session κ}
    (ran : Trace.run step (start registry clients) actions = some t) :
    Trace.AllStates step Accounted (start registry clients) actions ↔
      Trace.EachStep step Uncancelled [] (start registry clients) actions := by
  refine Trace.allStates_iff_eachStep (I := fun _ _ => True) ?_ ?_ trivial
    (start_accounted registry clients) ran
  · exact fun _ _ _ _ _ _ => trivial
  · exact fun _ _ _ _ _ accounted stepped => step_accounted accounted stepped

def reads (finish : Action Unit) : List (Action Unit) :=
  [.setEventLog, .accessTool 0 ⟨"db.read", "db", []⟩ ⟨"agent", "db.read", []⟩ 0 0, finish]

def readRegistry : ToolRegistry :=
  (ToolRegistry.empty.register ⟨"db.read", "db", ∅⟩).toOption.getD .empty

def readClients : Dict String Unit := Dict.empty.set "db" ()

theorem accounted_iff_uncancelled_read :
    ∃ t, Trace.run step (start readRegistry readClients) (reads (.answer 0 (.ok []) 1)) = some t ∧
      (Trace.AllStates step Accounted (start readRegistry readClients)
          (reads (.answer 0 (.ok []) 1)) ↔
        Trace.EachStep step Uncancelled [] (start readRegistry readClients)
          (reads (.answer 0 (.ok []) 1))) := by
  obtain ⟨t, ran⟩ : ∃ t, Trace.run step (start readRegistry readClients)
      (reads (.answer 0 (.ok []) 1)) = some t :=
    Option.isSome_iff_exists.mp (by decide +kernel)
  exact ⟨t, ran, accounted_iff_uncancelled ran⟩

/-- A cancelled call leaves no entry and no event. -/
theorem cancelled_unaccounted : ¬ Trace.AllStates step Accounted (start readRegistry readClients)
    (reads (.cancel 0)) := by
  intro all
  obtain ⟨t, ran⟩ : ∃ t, Trace.run step (start readRegistry readClients) (reads (.cancel 0)) =
      some t := Option.isSome_iff_exists.mp (by decide +kernel)
  have seen : (Trace.run step (start readRegistry readClients) (reads (.cancel 0))).all (fun t =>
      t.gateway.auditLog.isEmpty && !t.ended.isEmpty) = true := by decide +kernel
  rw [ran, Option.all_some, Bool.and_eq_true, List.isEmpty_iff] at seen
  have entries := (all.last ran).entries
  rw [seen.1] at entries
  simp [List.map_eq_nil_iff.mp entries.symm] at seen

end Session
end Kitematic.GatewayAudit

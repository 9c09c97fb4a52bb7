import Kitematic.Dict
import Kitematic.Regex
import Kitematic.RuntimeAbi
import Mathlib.Data.Finset.Sort
import Mathlib.Data.String.Basic

/-! The tool registry and the router over it. Of a tool definition the fields that
registration, routing and access read are kept. -/

namespace Kitematic.Tools
open Dictionary PyText Regex RuntimeAbi

structure ToolDefinition where
  toolId : String
  mcpServer : String
  requiredCapabilities : Finset String := ∅
  deriving DecidableEq

def ToolDefinition.validate (tool : ToolDefinition) : List String :=
  (if tool.toolId = "" then ["tool_id is required"] else []) ++
    if tool.mcpServer = "" then ["mcp_server is required"] else []

def ToolDefinition.isValid (tool : ToolDefinition) : Bool := tool.validate.length = 0

def ToolDefinition.path (tool : ToolDefinition) (intent : Intent) : ExecutionPath :=
  ⟨tool.toolId, tool.mcpServer, intent.parameters⟩

inductive RegistryError where
  | invalidDefinition (errors : List String)
  | alreadyRegistered (toolId : String)
  | notFound (toolId : String)
  | capabilityMismatch (toolId : String) (required provided : Finset String)
  deriving DecidableEq

def sortedList (names : Finset String) : String := pyReprList (names.sort (· ≤ ·))

def RegistryError.message : RegistryError → String
  | .invalidDefinition errors => "Invalid tool definition: " ++ pyReprList errors
  | .alreadyRegistered toolId => "Tool already registered: " ++ toolId
  | .notFound toolId => "Tool not found: " ++ toolId
  | .capabilityMismatch toolId required provided =>
      "Tool '" ++ toolId ++ "' requires capabilities " ++ sortedList required ++ ", agent has " ++
        sortedList provided

inductive OrchestrationError where
  | noToolFound (action : String)
  | ambiguous (action : String) (toolIds : List String)
  deriving DecidableEq

def OrchestrationError.message : OrchestrationError → String
  | .noToolFound action => "Orchestration failed: No tool found for action '" ++ action ++ "'"
  | .ambiguous action toolIds =>
      "Orchestration failed: Ambiguous action '" ++ action ++ "' matches multiple tools: " ++
        pyReprList toolIds

/-- Every stored tool is valid and stands under its own id. -/
structure ToolRegistry where
  tools : Dict String ToolDefinition
  stored : ∀ toolId tool, tools.get toolId = some tool → tool.toolId = toolId ∧ tool.isValid

namespace ToolRegistry

def empty : ToolRegistry := ⟨.empty, fun _ _ found => nomatch found⟩

def register (registry : ToolRegistry) (tool : ToolDefinition) :
    Except RegistryError ToolRegistry :=
  if valid : tool.isValid then
    if registry.tools.contains tool.toolId then .error (.alreadyRegistered tool.toolId)
    else
      .ok ⟨registry.tools.set tool.toolId tool, by
        intro toolId other found
        rw [Dict.get_set] at found
        split at found
        case isTrue same =>
          cases found
          exact ⟨same.symm, valid⟩
        case isFalse _ => exact registry.stored toolId other found⟩
  else .error (.invalidDefinition tool.validate)

def unregister (registry : ToolRegistry) (toolId : String) : Except RegistryError ToolRegistry :=
  if registry.tools.contains toolId then
    .ok ⟨registry.tools.erase toolId, by
      intro other tool found
      rw [Dict.get_erase] at found
      split at found
      case isTrue _ => cases found
      case isFalse _ => exact registry.stored other tool found⟩
  else .error (.notFound toolId)

def get (registry : ToolRegistry) (toolId : String) : Option ToolDefinition :=
  registry.tools.get toolId

def isRegistered (registry : ToolRegistry) (toolId : String) : Bool :=
  registry.tools.contains toolId

def listTools (registry : ToolRegistry) : List ToolDefinition := registry.tools.values

/-- The escaped pattern with every escaped `.*` turned into a wildcard. -/
def rewritten (pattern : List Char) : List Char :=
  replace (escape pattern) "\\.\\*".toList "\\..*".toList

def patternText (pattern : String) : List Char := '^' :: (rewritten pattern.toList ++ ['$'])

def matchPattern (registry : ToolRegistry) (pattern : String) : List ToolDefinition :=
  match compile (patternText pattern) with
  | none => []
  | some items => registry.listTools.filter fun tool => isMatch items tool.toolId.toList

/-- Nothing calls this check; the gateway looks tools up with `get`. -/
def validateAccess (registry : ToolRegistry) (toolId : String)
    (agentCapabilities : Option (Finset String)) : Except RegistryError ToolDefinition :=
  match registry.tools.get toolId with
  | none => .error (.notFound toolId)
  | some tool =>
      match agentCapabilities with
      | none => .ok tool
      | some provided =>
          if tool.requiredCapabilities ≠ ∅ ∧ ¬ tool.requiredCapabilities ⊆ provided then
            .error (.capabilityMismatch toolId tool.requiredCapabilities provided)
          else .ok tool

theorem get_toolId {registry : ToolRegistry} {toolId : String} {tool : ToolDefinition}
    (found : registry.get toolId = some tool) : tool.toolId = toolId :=
  (registry.stored toolId tool found).1

theorem mem_listTools {registry : ToolRegistry} {tool : ToolDefinition} :
    tool ∈ registry.listTools ↔ registry.get tool.toolId = some tool := by
  constructor
  · intro member
    obtain ⟨⟨toolId, other⟩, entry, rfl⟩ := List.mem_map.mp member
    have found := Dict.get_eq_some.mpr entry
    rw [(registry.stored toolId other found).1]
    exact found
  · intro found
    exact List.mem_map.mpr ⟨_, Dict.get_eq_some.mp found, rfl⟩

def routeIntent (registry : ToolRegistry) (intent : Intent) :
    Except OrchestrationError ExecutionPath :=
  match registry.get intent.action with
  | some exact => .ok (exact.path intent)
  | none =>
      match registry.matchPattern intent.action with
      | [] => .error (.noToolFound intent.action)
      | [tool] => .ok (tool.path intent)
      | tools => .error (.ambiguous intent.action (tools.map ToolDefinition.toolId))

/-- The tool an action stands for: the one of that id, else the only match. -/
def Resolves (registry : ToolRegistry) (action : String) (tool : ToolDefinition) : Prop :=
  registry.get action = some tool ∨
    registry.get action = none ∧ registry.matchPattern action = [tool]

theorem matchPattern_sublist (registry : ToolRegistry) (pattern : String) :
    (registry.matchPattern pattern).Sublist registry.listTools := by
  unfold matchPattern
  split
  · exact List.nil_sublist _
  · exact List.filter_sublist

theorem Resolves.registered {registry : ToolRegistry} {action : String} {tool : ToolDefinition}
    (resolved : registry.Resolves action tool) : registry.get tool.toolId = some tool := by
  rcases resolved with exact | ⟨_, only⟩
  · rw [get_toolId exact]
    exact exact
  · refine mem_listTools.mp ((registry.matchPattern_sublist action).subset ?_)
    rw [only]
    exact List.mem_singleton_self tool

theorem validateAccess_eq_ok {registry : ToolRegistry} {toolId : String}
    {provided : Finset String} {tool : ToolDefinition} :
    registry.validateAccess toolId (some provided) = .ok tool ↔
      registry.get toolId = some tool ∧ tool.requiredCapabilities ⊆ provided := by
  unfold validateAccess get
  cases registry.tools.get toolId with
  | none => simp
  | some stored =>
    by_cases within : stored.requiredCapabilities ⊆ provided
    · simp only [within, not_true_eq_false, and_false, if_false, Except.ok.injEq, Option.some.injEq]
      exact ⟨fun same => ⟨same, same ▸ within⟩, And.left⟩
    · have needed : stored.requiredCapabilities ≠ ∅ := by
        intro none
        exact within (none ▸ Finset.empty_subset provided)
      simp only [within, needed, ne_eq, not_false_eq_true, and_self, if_true, reduceCtorEq,
        Option.some.injEq, false_iff, not_and]
      intro same
      exact same ▸ within

theorem routeIntent_eq_ok {registry : ToolRegistry} {intent : Intent} {path : ExecutionPath} :
    registry.routeIntent intent = .ok path ↔
      ∃ tool, registry.Resolves intent.action tool ∧ path = tool.path intent := by
  unfold routeIntent Resolves
  cases exact : registry.get intent.action with
  | some tool => simp [eq_comm]
  | none =>
    cases only : registry.matchPattern intent.action with
    | nil => simp
    | cons tool others => cases others <;> simp [eq_comm]

/-- The items of a pattern: the star of a `.*` is a wildcard, all else is literal. -/
def globItems : List Char → List Item
  | '.' :: '*' :: rest => ⟨.char '.', false⟩ :: ⟨.any, true⟩ :: globItems rest
  | c :: rest => ⟨.char c, false⟩ :: globItems rest
  | [] => []

theorem rewritten_wildcard (rest : List Char) :
    rewritten ('.' :: '*' :: rest) = "\\..*".toList ++ rewritten rest := by
  have dot : escaped '.' = ['\\', '.'] := by decide +kernel
  have asterisk : escaped '*' = ['\\', '*'] := by decide +kernel
  simp only [rewritten, replace, escape_cons, dot, asterisk, List.cons_append, List.nil_append]
  simp [replaceFrom]

theorem rewritten_literal {c : Char} {rest : List Char} (literal : ¬ (c = '.' ∧ ['*'] <+: rest)) :
    rewritten (c :: rest) = escaped c ++ rewritten rest := by
  simp only [rewritten, replace, escape_cons, escaped]
  have second : ¬ ('\\' = c ∧ ['.', '\\', '*'] <+: escape rest) := fun found =>
    (@prefix_escape '.' rest).1 ((List.prefix_append ['.'] ['\\', '*']).trans found.2)
  by_cases inside : c ∈ special
  · have first : ¬ ('.' = c ∧ ['\\', '*'] <+: escape rest) := fun found =>
      literal ⟨found.1.symm, prefix_escape.2 found.2⟩
    simp [inside, replaceFrom, first, second]
  · simp [inside, replaceFrom, second]

theorem parseFrom_rewritten (pending : Option Atom) (pattern : List Char) :
    parseFrom pending (rewritten pattern) = some (flush pending ++ globItems pattern) := by
  fun_induction globItems pattern generalizing pending with
  | case1 rest ih =>
    rw [rewritten_wildcard]
    simp [parseFrom, parseFrom_star, ih, flush]
  | case2 c rest other ih =>
    have literal : ¬ (c = '.' ∧ ['*'] <+: rest) := by
      rintro ⟨rfl, more, rfl⟩
      exact other more rfl rfl
    rw [rewritten_literal literal, parseFrom_escaped, ih]
    rfl
  | case3 => simp [rewritten, replace, escape, replaceFrom, parseFrom]

/-- The text always compiles, to the items of the pattern. -/
theorem compile_patternText (pattern : String) :
    compile (patternText pattern) = some (globItems pattern.toList) := by
  rw [patternText, compile_anchored, parseFrom_rewritten]
  rfl

theorem matchPattern_eq (registry : ToolRegistry) (pattern : String) :
    registry.matchPattern pattern =
      registry.listTools.filter fun tool =>
        isMatch (globItems pattern.toList) tool.toolId.toList := by
  rw [matchPattern, compile_patternText]

end ToolRegistry
end Kitematic.Tools

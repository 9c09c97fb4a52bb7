import Kitematic.Dict
import Kitematic.PluginManifests

/-! The bridge that registers a plugin in the capability store and the tool registry. A call
of an interface object has its effect or raises without one; when it raises, and what the
policy says, is open. -/

namespace Kitematic.RegistryBridge
open Dictionary Plugins

structure Stores where
  capabilities : Dict String (List Capability) := .empty
  tools : Dict String Mapping := .empty

/-- What the calls of the interface objects raise, by their arguments and the state they
are made in. -/
structure Services (ε : Type) where
  addCapabilities : String → List Capability → Stores → Option ε
  removeCapabilities : String → Stores → Option ε
  registerTool : String → Mapping → Stores → Option ε
  unregisterTool : String → Stores → Option ε
  policyEvaluator : Option (List Capability → List (String × String) → Stores → Except ε Bool)

structure RegistrationResult where
  success : Bool
  pluginName : String
  errors : List String := []

section bridge
variable {ε : Type} (services : Services ε)

namespace Services

def effect (raised : Option ε) (after before : Stores) : Stores × Except ε Unit :=
  match raised with
  | some e => (before, .error e)
  | none => (after, .ok ())

def add (name : String) (capabilities : List Capability) (stores : Stores) :
    Stores × Except ε Unit :=
  effect (services.addCapabilities name capabilities stores)
    { stores with capabilities := stores.capabilities.set name capabilities } stores

def remove (name : String) (stores : Stores) : Stores × Except ε Unit :=
  effect (services.removeCapabilities name stores)
    { stores with capabilities := stores.capabilities.erase name } stores

def addTool (name : String) (entrypoint : Mapping) (stores : Stores) : Stores × Except ε Unit :=
  effect (services.registerTool name entrypoint stores)
    { stores with tools := stores.tools.set name entrypoint } stores

def removeTool (name : String) (stores : Stores) : Stores × Except ε Unit :=
  effect (services.unregisterTool name stores)
    { stores with tools := stores.tools.erase name } stores

def allowed (manifest : PluginManifest) (stores : Stores) : Except ε Bool :=
  match services.policyEvaluator with
  | none => .ok true
  | some evaluateCapabilities =>
      evaluateCapabilities manifest.capabilities
        [("plugin_name", manifest.name), ("plugin_type", manifest.pluginType.value)] stores

end Services

/-- The second call is made where the first does not raise. -/
def inTurn (first second : Stores → Stores × Except ε Unit) (stores : Stores) :
    Stores × Except ε Unit :=
  match first stores with
  | (middle, .ok ()) => second middle
  | failed => failed

def register (manifest : PluginManifest) (stores : Stores) :
    Stores × Except ε RegistrationResult :=
  match services.allowed manifest stores with
  | .error e => (stores, .error e)
  | .ok false => (stores, .ok ⟨false, manifest.name,
      ["Plugin '" ++ manifest.name ++ "' capabilities rejected by policy"]⟩)
  | .ok true =>
      let (after, outcome) := inTurn (services.add manifest.name manifest.capabilities)
        (services.addTool manifest.name manifest.entrypoint) stores
      (after, outcome.map fun _ => ⟨true, manifest.name, []⟩)

def unregister (manifestName : String) (stores : Stores) : Stores × Except ε Unit :=
  inTurn (services.remove manifestName) (services.removeTool manifestName) stores

/-- Both stores have the plugin, and what else they had. -/
def Registered (manifest : PluginManifest) (before after : Stores) : Prop :=
  after = ⟨before.capabilities.set manifest.name manifest.capabilities,
    before.tools.set manifest.name manifest.entrypoint⟩

/-- Neither store has the plugin, and both have what else they had. -/
def Removed (name : String) (before after : Stores) : Prop :=
  after = ⟨before.capabilities.erase name, before.tools.erase name⟩

/-- A registration takes place in both stores, or it raises or reports failure and both are
as before. -/
def AtomicRegister (manifest : PluginManifest) (before : Stores) : Prop :=
  match register services manifest before with
  | (after, .ok result) =>
      if result.success then Registered manifest before after else after = before
  | (after, .error _) => after = before

def AtomicUnregister (name : String) (before : Stores) : Prop :=
  match unregister services name before with
  | (after, .ok _) => Removed name before after
  | (after, .error _) => after = before

/-- Once the capabilities are added the tool registry does not raise, unless the
capabilities were there already. -/
def RegisterClear (manifest : PluginManifest) (before : Stores) : Prop :=
  services.allowed manifest before = .ok true →
  services.addCapabilities manifest.name manifest.capabilities before = none →
  before.capabilities.get manifest.name ≠ some manifest.capabilities →
  services.registerTool manifest.name manifest.entrypoint
    { before with
      capabilities := before.capabilities.set manifest.name manifest.capabilities } = none

/-- Once the capabilities are removed the tool registry does not raise, unless there were
none. -/
def UnregisterClear (name : String) (before : Stores) : Prop :=
  services.removeCapabilities name before = none → before.capabilities.get name ≠ none →
  services.unregisterTool name
    { before with capabilities := before.capabilities.erase name } = none

variable {services}

theorem same_capabilities {before : Stores} {capabilities : Dict String (List Capability)} :
    ({ before with capabilities := capabilities } : Stores) = before ↔
      capabilities = before.capabilities := by
  obtain ⟨old, tools⟩ := before
  simp

theorem set_eq_self_iff {before : Stores} {name : String} {capabilities : List Capability} :
    before.capabilities.set name capabilities = before.capabilities ↔
      before.capabilities.get name = some capabilities := by
  constructor
  · intro same
    rw [← same]
    exact Dict.get_set_self _ _ _
  · exact Dict.set_of_get

theorem erase_eq_self_iff {before : Stores} {name : String} :
    before.capabilities.erase name = before.capabilities ↔ before.capabilities.get name = none := by
  constructor
  · intro same
    rw [← same, Dict.get_erase, if_pos rfl]
  · exact Dict.erase_of_get_none

theorem atomicRegister_iff {manifest : PluginManifest} {before : Stores} :
    AtomicRegister services manifest before ↔ RegisterClear services manifest before := by
  unfold AtomicRegister RegisterClear register
  cases allowed : services.allowed manifest before with
  | error e => simp
  | ok verdict =>
    cases verdict with
    | false => simp
    | true =>
      simp only [inTurn, Services.add, Services.effect]
      cases services.addCapabilities manifest.name manifest.capabilities before with
      | some e => simp [Except.map]
      | none =>
        simp only [Services.addTool, Services.effect, forall_const, ne_eq]
        cases services.registerTool manifest.name manifest.entrypoint
            { before with
              capabilities := before.capabilities.set manifest.name manifest.capabilities } with
        | some e =>
          simp only [Except.map, same_capabilities, set_eq_self_iff, reduceCtorEq, imp_false,
            not_not]
        | none => simp [Except.map, Registered]

theorem atomicUnregister_iff {name : String} {before : Stores} :
    AtomicUnregister services name before ↔ UnregisterClear services name before := by
  unfold AtomicUnregister UnregisterClear unregister
  simp only [inTurn, Services.remove, Services.effect]
  cases services.removeCapabilities name before with
  | some e => simp
  | none =>
    simp only [Services.removeTool, Services.effect, forall_const, ne_eq]
    cases services.unregisterTool name
        { before with capabilities := before.capabilities.erase name } with
    | some e => simp only [same_capabilities, erase_eq_self_iff, reduceCtorEq, imp_false, not_not]
    | none => simp [Removed]

variable (services)

/-- For every plugin, whatever the stores hold and the calls raise, registration is atomic if
and only if the tool registry does not raise once the capabilities are added anew, and removal
if and only if it does not raise once there were capabilities to remove. -/
theorem bridge_atomic_iff (manifest : PluginManifest) (before : Stores) :
    (AtomicRegister services manifest before ↔ RegisterClear services manifest before) ∧
      ∀ name, AtomicUnregister services name before ↔ UnregisterClear services name before :=
  ⟨atomicRegister_iff, fun _ => atomicUnregister_iff⟩

end bridge

def fullRegistry : Services String where
  addCapabilities _ _ _ := none
  removeCapabilities _ _ := none
  registerTool _ _ _ := some "full"
  unregisterTool _ _ := none
  policyEvaluator := none

def simplePlugin : PluginManifest where
  name := "simple"
  version := "1.0.0"
  pluginType := .tool
  runtimeType := "test-runtime"
  description := .str "Test plugin"
  author := "Test Author"
  entrypoint := [(.str "module", .str "test"), (.str "class", .str "Test")]
  capabilities := []

/-- The registration raises and leaves the capabilities behind, without a tool. -/
theorem failed_registration_leaves_capabilities :
    (register fullRegistry simplePlugin {}).2.isOk = false ∧
      (register fullRegistry simplePlugin {}).1.capabilities.contains "simple" = true ∧
      (register fullRegistry simplePlugin {}).1.tools.contains "simple" = false ∧
      ¬ AtomicRegister fullRegistry simplePlugin {} := by
  have left : (register fullRegistry simplePlugin {}).1.capabilities.contains "simple" = true := by
    decide +kernel
  refine ⟨by decide +kernel, left, by decide +kernel, fun atomic => ?_⟩
  have unchanged : (register fullRegistry simplePlugin {}).1 = {} := atomic
  rw [unchanged] at left
  cases left

end Kitematic.RegistryBridge

import Kitematic.CapabilityPolicy
import Kitematic.Trace

/-! Version matching of capabilities, in the runtime registry and in the catalog. What
`Version` makes of a string is a parameter: a version that compares, or nothing where it
raises `InvalidVersion`. -/

namespace Kitematic.CapabilityVersions
open Dictionary PyText

deriving instance DecidableEq for CapabilityPolicy.Capability

structure Capability extends CapabilityPolicy.Capability where
  version : String := "1.0"
  deriving DecidableEq

section versions
variable {V : Type} [DecidableEq V] (parse : String → Option V)

structure CapabilityRegistry where
  capabilities : Dict String Capability := .empty

namespace CapabilityRegistry

def register (registry : CapabilityRegistry) (capability : Capability) :
    Except String CapabilityRegistry :=
  if capability.validate ≠ [] then
    .error ("Invalid capability " ++ capability.id ++ ": " ++ pyReprList capability.validate)
  else .ok { registry with capabilities := registry.capabilities.set capability.id capability }

def get (registry : CapabilityRegistry) (capabilityId : String) : Option Capability :=
  registry.capabilities.get capabilityId

def remove (registry : CapabilityRegistry) (capabilityId : String) : CapabilityRegistry :=
  { registry with capabilities := registry.capabilities.erase capabilityId }

/-- Both versions parse and are equal; an invalid one goes on with the next capability. -/
def matchesVersion (capVersion versionConstraint : String) : Bool :=
  match parse capVersion, parse versionConstraint with
  | some v, some k => v = k
  | _, _ => false

def getCompatible (registry : CapabilityRegistry) (capabilityId : String)
    (versionConstraint : Option String) : List Capability :=
  match registry.get capabilityId with
  | none => []
  | some baseCap =>
      match versionConstraint with
      | none => [baseCap]
      | some k => registry.capabilities.values.filter fun cap =>
          cap.id = capabilityId && matchesVersion parse cap.version k

end CapabilityRegistry

namespace CapabilityCatalog

def all : List Capability :=
  [{ id := "chat.generate", name := "Chat Generation" },
    { id := "chat.stream", name := "Chat Streaming" },
    { id := "embedding.generate", name := "Embedding Generation" },
    { id := "image.generate", name := "Image Generation" },
    { id := "image.edit", name := "Image Editing" },
    { id := "vision.detect", name := "Object Detection" },
    { id := "vision.caption", name := "Image Captioning" },
    { id := "speech.tts", name := "Text-to-Speech" },
    { id := "speech.stt", name := "Speech-to-Text" },
    { id := "code.generate", name := "Code Generation" },
    { id := "code.review", name := "Code Review" },
    { id := "agent.run", name := "Agent Execution" },
    { id := "tool.execute", name := "Tool Execution" },
    { id := "filesystem.read", name := "Filesystem Read" },
    { id := "filesystem.write", name := "Filesystem Write" },
    { id := "network.egress", name := "Network Egress" }]

def byId (capId : String) : Option Capability := all.find? fun cap => cap.id = capId

/-- The rule of `resolve_version`: where one of the strings is no version, they are compared
as they are. -/
def accepts (capVersion versionConstraint : String) : Bool :=
  match parse versionConstraint, parse capVersion with
  | some constraintVersion, some capVersion => constraintVersion = capVersion
  | _, _ => capVersion = versionConstraint

def resolveVersion (capId : String) (versionConstraint : Option String) : Option Capability :=
  match byId capId with
  | none => none
  | some cap =>
      match versionConstraint with
      | none => some cap
      | some k => if accepts parse cap.version k then some cap else none

def getCompatible (capId : String) (versionConstraint : Option String) : List Capability :=
  match byId capId with
  | none => []
  | some cap =>
      match versionConstraint with
      | none => [cap]
      | some k => (resolveVersion parse capId (some k)).toList

end CapabilityCatalog

open CapabilityRegistry CapabilityCatalog

inductive Call where
  | register (capability : Capability)
  | remove (capabilityId : String)

def step (registry : CapabilityRegistry) : Call → CapabilityRegistry
  | .register capability => (registry.register capability).toOption.getD registry
  | .remove capabilityId => registry.remove capabilityId

def runCalls (calls : List Call) : CapabilityRegistry := calls.foldl step {}

def Keyed (registry : CapabilityRegistry) : Prop :=
  ∀ id cap, registry.capabilities.get id = some cap → cap.id = id

theorem keyed_step {registry : CapabilityRegistry} (keyed : Keyed registry) (call : Call) :
    Keyed (step registry call) := by
  cases call with
  | register capability =>
    simp only [step, CapabilityRegistry.register]
    split
    · exact keyed
    · exact Dict.forall_set (P := fun id (cap : Capability) => cap.id = id) keyed rfl
  | remove capabilityId =>
    exact Dict.forall_erase (P := fun id (cap : Capability) => cap.id = id) keyed capabilityId

theorem keyed_runCalls (calls : List Call) : Keyed (runCalls calls) := by
  have ran := Trace.run_total step {} calls
  exact Trace.run_invariant (I := Keyed)
    (fun call _ s t keyed stepped => Option.some.inj stepped ▸ keyed_step keyed call)
    (fun id cap found => by simp at found) ran

theorem accepts_iff {capVersion versionConstraint : String} :
    accepts parse capVersion versionConstraint = true ↔
      matchesVersion parse capVersion versionConstraint = true ∨
        (capVersion = versionConstraint ∧ parse versionConstraint = none) := by
  unfold accepts matchesVersion
  cases cap : parse capVersion with
  | none =>
    cases constraint : parse versionConstraint with
    | none => simp
    | some k =>
      simp only [decide_eq_true_eq, Bool.false_eq_true, reduceCtorEq, and_false, or_false, iff_false]
      rintro rfl
      simp [cap] at constraint
  | some v =>
    cases constraint : parse versionConstraint with
    | none =>
      simp only [decide_eq_true_eq, Bool.false_eq_true, and_true, false_or]
    | some k => simp [eq_comm]

theorem matchesVersion_self {version : String} :
    matchesVersion parse version version = true ↔ (parse version).isSome = true := by
  unfold matchesVersion
  cases parse version <;> simp

theorem get_of_registered {registry : CapabilityRegistry} (keyed : Keyed registry) {c : Capability}
    (registered : c ∈ registry.capabilities.values) : registry.get c.id = some c := by
  obtain ⟨⟨id, _⟩, stored, rfl⟩ := List.mem_map.mp registered
  have found := Dict.get_eq_some.mpr stored
  rw [keyed id _ found]
  exact found

theorem mem_getCompatible {registry : CapabilityRegistry} (keyed : Keyed registry) {c : Capability}
    (registered : c ∈ registry.capabilities.values) (versionConstraint : String) :
    c ∈ registry.getCompatible parse c.id (some versionConstraint) ↔
      matchesVersion parse c.version versionConstraint = true := by
  simp [CapabilityRegistry.getCompatible, get_of_registered keyed registered, registered]

theorem resolveVersion_eq_some {capId : String} {c : Capability} (found : byId capId = some c)
    (versionConstraint : String) : resolveVersion parse capId (some versionConstraint) = some c ↔
      accepts parse c.version versionConstraint = true := by
  simp [resolveVersion, found]

/-- The registry finds a capability exactly where the catalog's rule accepts it. -/
def Agrees (registry : CapabilityRegistry) (c : Capability) (versionConstraint : String) : Prop :=
  c ∈ registry.getCompatible parse c.id (some versionConstraint) ↔
    accepts parse c.version versionConstraint = true

/-- After any calls, for every registered capability and every constraint, the registry
agrees with the rule of the catalog if and only if the strings differ or are a version. In
particular a capability is compatible with its own version if and only if that is one. -/
theorem compatible_iff_rule (calls : List Call) {c : Capability}
    (registered : c ∈ (runCalls calls).capabilities.values) (versionConstraint : String) :
    (Agrees parse (runCalls calls) c versionConstraint ↔
      c.version ≠ versionConstraint ∨ (parse versionConstraint).isSome = true) ∧
    (c ∈ (runCalls calls).getCompatible parse c.id (some c.version) ↔
      (parse c.version).isSome = true) := by
  have found := mem_getCompatible parse (keyed_runCalls calls) registered
  constructor
  · rw [Agrees, found, accepts_iff]
    constructor
    · intro agree
      by_contra differ
      rw [not_or, not_not, Option.not_isSome_iff_eq_none] at differ
      have matched := agree.mpr (.inr differ)
      rw [differ.1, matchesVersion_self, differ.2] at matched
      cases matched
    · intro clear
      refine ⟨.inl, fun accepted => accepted.resolve_right ?_⟩
      rintro ⟨same, invalid⟩
      rcases clear with differ | valid
      · exact differ same
      · rw [invalid] at valid
        cases valid
  · rw [found]
    exact matchesVersion_self parse

end versions

def sampleParse (text : String) : Option String := if text = "1.0" then some "1" else none

def nightly : Capability := { id := "code.review", name := "Code Review", version := "nightly" }

theorem compatible_iff_rule_nightly :
    (Agrees sampleParse (runCalls [.register nightly]) nightly "1.0" ↔
      nightly.version ≠ "1.0" ∨ (sampleParse "1.0").isSome = true) ∧
    (nightly ∈ (runCalls [.register nightly]).getCompatible sampleParse "code.review"
        (some "nightly") ↔ (sampleParse "nightly").isSome = true) :=
  compatible_iff_rule sampleParse [.register nightly] (by decide +kernel) "1.0"

/-- A capability whose version is no version is not compatible with itself. -/
theorem nightly_not_compatible :
    nightly ∈ (runCalls [.register nightly]).capabilities.values ∧
      CapabilityCatalog.accepts sampleParse nightly.version "nightly" = true ∧
      (runCalls [.register nightly]).getCompatible sampleParse "code.review" (some "nightly") = [] ∧
      ¬ Agrees sampleParse (runCalls [.register nightly]) nightly "nightly" := by
  have stored : nightly ∈ (runCalls [.register nightly]).capabilities.values := by decide +kernel
  have accepted : CapabilityCatalog.accepts sampleParse nightly.version "nightly" = true := by
    decide +kernel
  have none : (runCalls [.register nightly]).getCompatible sampleParse "code.review"
      (some "nightly") = [] := by decide +kernel
  refine ⟨stored, accepted, none, fun agrees => ?_⟩
  have member := agrees.mpr accepted
  rw [show nightly.id = "code.review" from rfl, none] at member
  cases member

end Kitematic.CapabilityVersions

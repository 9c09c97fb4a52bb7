import Kitematic.Policy

/-! Evaluation with capabilities: the registry of active capabilities and the second
way into the decision cache. The required capabilities of a request are listed in
the iteration order of the set; the truncated SHA-256 digest in the key is a
parameter. -/

namespace Kitematic.CapabilityPolicy
open Dictionary Policy PyText

/-- Of a capability the fields its validation reads. -/
structure Capability where
  id : String
  name : String

def Capability.validate (capability : Capability) : List String :=
  (if capability.id = "" then ["capability id required"] else []) ++
    if capability.name = "" then ["capability name required"] else []

structure CapabilityRegistry where
  capabilities : Dict String Capability := .empty

namespace CapabilityRegistry

/-- The error is the text of the `ValueError`. -/
def register (registry : CapabilityRegistry) (capability : Capability) :
    Except String CapabilityRegistry :=
  if capability.validate ≠ [] then
    .error ("Invalid capability " ++ capability.id ++ ": " ++ pyReprList capability.validate)
  else .ok { registry with capabilities := registry.capabilities.set capability.id capability }

def contains (registry : CapabilityRegistry) (capabilityId : String) : Bool :=
  registry.capabilities.contains capabilityId

def remove (registry : CapabilityRegistry) (capabilityId : String) : CapabilityRegistry :=
  { registry with capabilities := registry.capabilities.erase capabilityId }

def firstMissing (registry : CapabilityRegistry) (capabilities : List String) : Option String :=
  capabilities.find? fun capability => !registry.contains capability

theorem firstMissing_eq_none {registry : CapabilityRegistry} {capabilities : List String} :
    registry.firstMissing capabilities = none ↔
      ∀ capability ∈ capabilities, registry.contains capability = true := by
  simp [firstMissing]

end CapabilityRegistry

def denied (reason : String) : PolicyDecision := ⟨.deny, none, reason⟩

def candidates (rules : List PolicyRule) (resource : String) : List PolicyRule :=
  rules.filter fun rule => rule.status = .active && targetMatches rule.target resource

/-- Why a rule's own capabilities forbid the request. A registry has neither length
nor truth value of its own, so `not registry` says that none is attached. -/
def ruleDenial (registry : Option CapabilityRegistry) (rule : PolicyRule) : Option String :=
  if rule.requiredCapabilities = [] then none
  else
    match registry with
    | none => some "Capability registry not available for capability validation"
    | some registry =>
        (registry.firstMissing rule.requiredCapabilities).map ("Capability not registered: " ++ ·)

/-- The last part of a cache key: empty without capabilities, else their digest. -/
def capabilityPart (digest : String → String) (capabilities : List String) : String :=
  if capabilities = [] then ""
  else digest (",".intercalate (capabilities.insertionSort (· ≤ ·)))

/-- `_make_cache_key("", "", resource, capabilities)`. -/
def capabilityKey (digest : String → String) (resource : String) (capabilities : List String) :
    String :=
  "|".intercalate ["", "", resource, capabilityPart digest capabilities]

/-- `agentId` and `action` are taken and not read. -/
def evaluateWithCapabilities (digest : String → String) (engine : PolicyEngine)
    (registry : Option CapabilityRegistry) (_agentId _action resource : String)
    (requiredCapabilities : List String) (asked stored : ℚ) : PolicyEngine × PolicyDecision :=
  match registry.bind (·.firstMissing requiredCapabilities) with
  | some capability => (engine, denied ("Capability not registered: " ++ capability))
  | none =>
      let key := capabilityKey digest resource requiredCapabilities
      let looked := engine.cache.get key asked
      match looked.2 with
      | some cached => ({ engine with cache := looked.1 }, cached)
      | none =>
          let rules := engine.policies.values
          match (candidates rules resource).findSome? (ruleDenial registry) with
          | some reason => ({ engine with cache := looked.1 }, denied reason)
          | none =>
              let result := PolicyEngine.scan rules resource
              ({ engine with cache := looked.1.set key result stored }, result)

theorem ruleDenial_eq_none {registry : CapabilityRegistry} {rule : PolicyRule} :
    ruleDenial (some registry) rule = none ↔
      ∀ capability ∈ rule.requiredCapabilities, registry.contains capability = true := by
  unfold ruleDenial
  by_cases free : rule.requiredCapabilities = []
  · simp [free]
  · simp [free, CapabilityRegistry.firstMissing_eq_none]

/-! A scan chooses a rule of least priority number, the earliest of these. -/

theorem insertionSort_head? {α β : Type} [LinearOrder β] (f : α → β) (items : List α) :
    (items.insertionSort fun first second => f first ≤ f second).head? = items.argmin f := by
  induction items with
  | nil => rfl
  | cons item rest ih =>
    rw [List.insertionSort_cons, List.argmin_cons, ← ih]
    cases rest.insertionSort fun first second => f first ≤ f second with
    | nil => rfl
    | cons least others =>
      by_cases before : f item ≤ f least
      · simp [before, not_lt.mpr before]
      · simp [before, not_le.mp before]

def chosen (rules : List PolicyRule) (resource : String) : Option PolicyRule :=
  letI : Preorder Int := Int.instLinearOrder.toPreorder
  (candidates rules resource).argmin PolicyRule.priority

def freshChoice (rules : List PolicyRule) (resource : String) : PolicyEffect × Option String :=
  match chosen rules resource with
  | none => (.allow, none)
  | some rule => (rule.effect, some rule.policyId)

theorem scan_choice (rules : List PolicyRule) (resource : String) :
    ((PolicyEngine.scan rules resource).decision, (PolicyEngine.scan rules resource).matchedRule) =
      freshChoice rules resource := by
  have head : (PolicyEngine.matchingRules rules resource).head? = chosen rules resource :=
    insertionSort_head? PolicyRule.priority (candidates rules resource)
  unfold PolicyEngine.scan freshChoice
  rw [← head]
  cases PolicyEngine.matchingRules rules resource <;> rfl

end Kitematic.CapabilityPolicy

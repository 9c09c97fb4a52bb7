import Kitematic.Dict
import Kitematic.RuntimeAbi
import Mathlib.Data.List.MinMax
import Mathlib.Data.List.Sort

/-! The policy engine: rules, the decision cache in front of them and the adapter
that answers the runtime. Of a rule the fields that evaluation reads are kept. -/

namespace Kitematic.Policy
open Dictionary PyText RuntimeAbi

inductive PolicyEffect where
  | allow | deny | requireApproval
  deriving DecidableEq

def PolicyEffect.value : PolicyEffect → String
  | .allow => "ALLOW"
  | .deny => "DENY"
  | .requireApproval => "REQUIRE_APPROVAL"

def PolicyEffect.ofValue (value : String) : Option PolicyEffect :=
  [PolicyEffect.allow, .deny, .requireApproval].find? fun effect => effect.value = value

inductive PolicyStatus where
  | active | inactive | deprecated
  deriving DecidableEq

structure PolicyRule where
  policyId : String
  name : String
  target : String
  effect : PolicyEffect
  priority : Int := 100
  status : PolicyStatus := .active
  requiredCapabilities : List String := []
  deriving DecidableEq

structure PolicyDecision where
  decision : PolicyEffect
  matchedRule : Option String
  reason : String

/-- `ttl_seconds` and `max_entries` are stored by the constructor and never read. -/
structure InMemoryPolicyCache (α : Type) where
  ttlSeconds : Int := 300
  maxEntries : Int := 10000
  entries : Dict String (α × ℚ) := .empty

namespace InMemoryPolicyCache
variable {α : Type}

def get (cache : InMemoryPolicyCache α) (key : String) (now : ℚ) :
    InMemoryPolicyCache α × Option α :=
  match cache.entries.get key with
  | none => (cache, none)
  | some (value, expires) =>
      if expires ≤ now then ({ cache with entries := cache.entries.erase key }, none)
      else (cache, some value)

/-- The key of the first entry among those that expire first. -/
def oldest (cache : InMemoryPolicyCache α) : Option String :=
  (cache.entries.entries.argmin fun entry => entry.2.2).map Prod.fst

def set (cache : InMemoryPolicyCache α) (key : String) (value : α) (now : ℚ) :
    InMemoryPolicyCache α :=
  let entries :=
    if 10000 ≤ cache.entries.entries.length then
      match cache.oldest with
      | some key => cache.entries.erase key
      | none => cache.entries
    else cache.entries
  { cache with entries := entries.set key (value, now + 300) }

def invalidate (cache : InMemoryPolicyCache α) : InMemoryPolicyCache α :=
  { cache with entries := .empty }

theorem get_of_some (cache : InMemoryPolicyCache α) {key : String} {now : ℚ} {value : α}
    (found : (cache.get key now).2 = some value) : (cache.get key now).1 = cache := by
  unfold get at found ⊢
  split
  · rfl
  · split
    · simp_all
    · rfl

theorem set_get (cache : InMemoryPolicyCache α) (key : String) (value : α) (stored now : ℚ) :
    ((cache.set key value stored).get key now).2 =
      if stored + 300 ≤ now then none else some value := by
  simp only [get, set, Dict.get_set_self]
  split <;> rfl

end InMemoryPolicyCache

def targetMatches (target resource : String) : Bool :=
  if target = "*" then true
  else if ".*".toList <:+ target.toList then
    let stem := target.toList.dropLast.dropLast
    resource.toList = stem || stem ++ ['.'] <+: resource.toList
  else target = resource

structure PolicyEngine where
  policies : Dict String PolicyRule := .empty
  cache : InMemoryPolicyCache PolicyDecision := {}

namespace PolicyEngine

/-- The key of a request without capabilities, whose last part is empty. -/
def makeCacheKey (agentId action resource : String) : String :=
  "|".intercalate [agentId, action, resource, ""]

/-- The active rules for a resource, lowest priority number first and rules of one
priority in the order of their creation. -/
def matchingRules (rules : List PolicyRule) (resource : String) : List PolicyRule :=
  let active := rules.filter fun rule => rule.status = .active && targetMatches rule.target resource
  active.insertionSort fun first second => first.priority ≤ second.priority

def scan (rules : List PolicyRule) (resource : String) : PolicyDecision :=
  match matchingRules rules resource with
  | [] => ⟨.allow, none, "No matching policy rule found"⟩
  | best :: _ => ⟨best.effect, some best.policyId, "Matched rule: " ++ best.name⟩

/-- `asked` and `stored` are the times of the lookup and of the insertion. -/
def evaluate (engine : PolicyEngine) (agentId action resource : String) (asked stored : ℚ) :
    PolicyEngine × PolicyDecision :=
  let key := makeCacheKey agentId action resource
  let looked := engine.cache.get key asked
  match looked.2 with
  | some cached => ({ engine with cache := looked.1 }, cached)
  | none =>
      let result := scan engine.policies.values resource
      ({ engine with cache := looked.1.set key result stored }, result)

/-- `create_policy` with the drawn id; a text that is no effect is a `ValueError`. -/
def createPolicy (engine : PolicyEngine) (policyId name target effect : String) :
    Except String PolicyEngine :=
  match PolicyEffect.ofValue effect with
  | none => .error (pyRepr effect ++ " is not a valid PolicyEffect")
  | some effect =>
      .ok
        { policies := engine.policies.set policyId ⟨policyId, name, target, effect, 100, .active, []⟩
          cache := engine.cache.invalidate }

def verdict (result : PolicyDecision) : Bool × Option String :=
  if result.decision = .allow then (true, none)
  else
    match result.matchedRule with
    | none => (false, some result.reason)
    | some rule =>
        (false, some (if rule = "" then result.reason else "[" ++ rule ++ "] " ++ result.reason))

/-- `evaluate_intent` of the adapter: the action is the resource too. -/
def evaluateIntent (engine : PolicyEngine) (intent : Intent) (asked stored : ℚ) :
    PolicyEngine × (Bool × Option String) :=
  let (engine, result) := engine.evaluate intent.agentId intent.action intent.action asked stored
  (engine, verdict result)

def checkCapability (engine : PolicyEngine) (action agentId : String) (asked stored : ℚ) :
    PolicyEngine × (Bool × Option String) :=
  let (engine, result) := engine.evaluate agentId action action asked stored
  (engine, verdict result)

/-- What the rules say about a resource, without the cache. -/
def ruled (engine : PolicyEngine) (resource : String) : PolicyEffect :=
  (scan engine.policies.values resource).decision

def remembered (engine : PolicyEngine) (agentId action : String) (now : ℚ) :
    Option PolicyEffect :=
  (engine.cache.get (makeCacheKey agentId action action) now).2.map PolicyDecision.decision

/-- Two requests in a row for one action are both allowed: by the rules while the
cache holds nothing, else by what it holds, and by the rules once that has expired. -/
def AllowsTwice (engine : PolicyEngine) (agentId action : String) (asked again : ℚ) : Prop :=
  (engine.remembered agentId action asked = none ∧ engine.ruled action = .allow) ∨
    engine.remembered agentId action asked = some .allow ∧
      (engine.remembered agentId action again).getD (engine.ruled action) = .allow

theorem verdict_allowed {result : PolicyDecision} :
    (∃ reason, verdict result = (true, reason)) ↔ result.decision = .allow := by
  unfold verdict
  by_cases allowed : result.decision = .allow
  · simp [allowed]
  · cases result.matchedRule <;> simp [allowed]

theorem evaluate_decision (engine : PolicyEngine) (agentId action : String) (asked stored : ℚ) :
    (engine.evaluate agentId action action asked stored).2.decision =
      (engine.remembered agentId action asked).getD (engine.ruled action) := by
  cases cached : (engine.cache.get (makeCacheKey agentId action action) asked).2 <;>
    simp [evaluate, remembered, ruled, cached]

@[simp] theorem evaluate_policies (engine : PolicyEngine) (agentId action resource : String)
    (asked stored : ℚ) :
    (engine.evaluate agentId action resource asked stored).1.policies = engine.policies := by
  cases cached : (engine.cache.get (makeCacheKey agentId action resource) asked).2 <;>
    simp [evaluate, cached]

/-- After an evaluation the cache remembers the decision it held, or the rules' own. -/
theorem evaluate_remembered (engine : PolicyEngine) (agentId action : String)
    (asked stored now : ℚ) :
    (engine.evaluate agentId action action asked stored).1.remembered agentId action now =
      if engine.remembered agentId action asked = none then
        if stored + 300 ≤ now then none else some (engine.ruled action)
      else engine.remembered agentId action now := by
  cases cached : (engine.cache.get (makeCacheKey agentId action action) asked).2 with
  | none =>
    simp only [evaluate, remembered, ruled, cached, InMemoryPolicyCache.set_get, Option.map_none,
      if_true]
    split <;> rfl
  | some decision =>
    have kept := engine.cache.get_of_some cached
    simp [evaluate, remembered, cached, kept]

theorem evaluate_twice_allowed (engine : PolicyEngine) (agentId action : String)
    (asked stored again storedAgain : ℚ) :
    (engine.evaluate agentId action action asked stored).2.decision = .allow ∧
        ((engine.evaluate agentId action action asked stored).1.evaluate agentId action action again
          storedAgain).2.decision = .allow ↔ engine.AllowsTwice agentId action asked again := by
  simp only [evaluate_decision, evaluate_remembered, AllowsTwice]
  have rules : (engine.evaluate agentId action action asked stored).1.ruled action =
      engine.ruled action := by simp [ruled]
  rw [rules]
  cases engine.remembered agentId action asked with
  | none => by_cases late : stored + 300 ≤ again <;> simp [late]
  | some decision => simp

end PolicyEngine
end Kitematic.Policy

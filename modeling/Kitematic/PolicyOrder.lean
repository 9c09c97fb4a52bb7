import Kitematic.CapabilityPolicy

/-! Rules made by `create_policy` all have one priority, so the earliest match decides
and neither `DENY` nor `REQUIRE_APPROVAL` takes precedence over it. -/

namespace Kitematic.PolicyOrder
open CapabilityPolicy Dictionary Policy

structure Creation where
  name : String
  target : String
  effect : String
  deriving DecidableEq

/-- A call with the id it draws; one that raises leaves the engine as it is. -/
def create (engine : PolicyEngine) (call : String × Creation) : PolicyEngine :=
  match engine.createPolicy call.1 call.2.name call.2.target call.2.effect with
  | .ok engine => engine
  | .error _ => engine

def created (calls : List (String × Creation)) : PolicyEngine := calls.foldl create {}

def ruleOf (call : String × Creation) : Option PolicyRule :=
  (PolicyEffect.ofValue call.2.effect).map fun effect =>
    ⟨call.1, call.2.name, call.2.target, effect, 100, .active, []⟩

def effectOn (resource : String) (call : Creation) : Option PolicyEffect :=
  (PolicyEffect.ofValue call.effect).filter fun _ => targetMatches call.target resource

def effectsOn (resource : String) (calls : List (String × Creation)) : List PolicyEffect :=
  calls.filterMap fun call => effectOn resource call.2

theorem create_cache {engine : PolicyEngine} (empty : engine.cache.entries = .empty)
    (call : String × Creation) : (create engine call).cache.entries = .empty := by
  unfold create PolicyEngine.createPolicy
  cases PolicyEffect.ofValue call.2.effect with
  | none => exact empty
  | some effect => rfl

theorem create_policies {engine : PolicyEngine} {call : String × Creation}
    (fresh : call.1 ∉ engine.policies.keys) :
    (create engine call).policies.entries =
      engine.policies.entries ++ ((ruleOf call).map fun rule => (call.1, rule)).toList := by
  unfold create PolicyEngine.createPolicy ruleOf
  cases PolicyEffect.ofValue call.2.effect with
  | none => simp
  | some effect => simp [Dict.set, fresh]

theorem foldl_create (calls : List (String × Creation)) (engine : PolicyEngine)
    (empty : engine.cache.entries = .empty) (distinct : (calls.map Prod.fst).Nodup)
    (fresh : ∀ call ∈ calls, call.1 ∉ engine.policies.keys) :
    (calls.foldl create engine).cache.entries = .empty ∧
      (calls.foldl create engine).policies.values =
        engine.policies.values ++ calls.filterMap ruleOf := by
  induction calls generalizing engine with
  | nil => simpa using empty
  | cons call rest ih =>
    obtain ⟨apart, distinct⟩ := List.nodup_cons.mp distinct
    have added := create_policies (fresh call List.mem_cons_self)
    have others : ∀ later ∈ rest, later.1 ∉ (create engine call).policies.keys := by
      intro later member
      have old := fresh later (List.mem_cons_of_mem _ member)
      have other : later.1 ≠ call.1 := fun same =>
        apart (same ▸ List.mem_map_of_mem (f := Prod.fst) member)
      rw [Dict.keys, added]
      cases ruleOf call with
      | none => simpa [Dict.keys] using old
      | some rule => simpa [Dict.keys, other] using old
    obtain ⟨cache, values⟩ := ih (create engine call) (create_cache empty call) distinct others
    refine ⟨cache, values.trans ?_⟩
    rw [Dict.values, added]
    cases rule : ruleOf call with
    | none => simp [Dict.values, rule]
    | some rule' => simp [Dict.values, rule]

theorem argmin_of_const {α β : Type} [LinearOrder β] {f : α → β} {n : β} {items : List α}
    (const : ∀ item ∈ items, f item = n) : items.argmin f = items.head? := by
  cases items with
  | nil => rfl
  | cons item rest =>
    rw [List.argmin_cons]
    cases least : rest.argmin f with
    | none => rfl
    | some other =>
      have same := const other (List.mem_cons_of_mem _ (List.argmin_mem least))
      simp [same, const item List.mem_cons_self]

theorem candidates_effects (resource : String) (calls : List (String × Creation)) :
    (candidates (calls.filterMap ruleOf) resource).map PolicyRule.effect =
      effectsOn resource calls := by
  induction calls with
  | nil => rfl
  | cons call rest ih =>
    simp only [candidates, effectsOn] at ih ⊢
    cases effect : PolicyEffect.ofValue call.2.effect with
    | none => simpa [List.filterMap_cons, ruleOf, effectOn, effect] using ih
    | some effect' =>
      cases matching : targetMatches call.2.target resource <;>
        simpa [List.filterMap_cons, ruleOf, effectOn, effect, matching] using ih

theorem candidates_priority (resource : String) (calls : List (String × Creation)) :
    ∀ rule ∈ candidates (calls.filterMap ruleOf) resource, rule.priority = 100 := by
  intro rule member
  obtain ⟨call, _, made⟩ := List.mem_filterMap.mp (List.mem_filter.mp member).1
  obtain ⟨effect, _, rfl⟩ := Option.map_eq_some_iff.mp made
  rfl

theorem evaluate_created {calls : List (String × Creation)}
    (distinct : (calls.map Prod.fst).Nodup) (agentId action resource : String) (asked stored : ℚ) :
    ((created calls).evaluate agentId action resource asked stored).2.decision =
      (effectsOn resource calls).head?.getD .allow := by
  obtain ⟨cache, values⟩ := foldl_create calls {} rfl distinct (by simp [Dict.keys, Dict.empty])
  have missed : ((created calls).cache.get (PolicyEngine.makeCacheKey agentId action resource)
      asked).2 = none := by
    simp [InMemoryPolicyCache.get, created, cache]
  have rules : (created calls).policies.values = calls.filterMap ruleOf := by
    simpa [created, Dict.values, Dict.empty] using values
  have fresh := congrArg Prod.fst (scan_choice (calls.filterMap ruleOf) resource)
  have earliest : chosen (calls.filterMap ruleOf) resource =
      (candidates (calls.filterMap ruleOf) resource).head? :=
    argmin_of_const (candidates_priority resource calls)
  rw [freshChoice, earliest] at fresh
  rw [← candidates_effects, List.head?_map]
  simp only [PolicyEngine.evaluate, missed, rules]
  cases head : (candidates (calls.filterMap ruleOf) resource).head? with
  | none => simpa [head] using fresh
  | some rule => simpa [head] using fresh

/-- Calls with the same arguments in another order decide alike, whatever ids they
draw. -/
def OrderFree (calls : List (String × Creation)) : Prop :=
  ∀ other, (other.map Prod.snd).Perm (calls.map Prod.snd) → (other.map Prod.fst).Nodup →
    ∀ agentId action resource asked stored,
      ((created other).evaluate agentId action resource asked stored).2.decision =
        ((created calls).evaluate agentId action resource asked stored).2.decision

/-- A matching `DENY` rule denies, and else a matching `REQUIRE_APPROVAL` rule asks
for approval. -/
def FollowsFlow (calls : List (String × Creation)) : Prop :=
  ∀ agentId action resource asked stored,
    (.deny ∈ effectsOn resource calls →
      ((created calls).evaluate agentId action resource asked stored).2.decision = .deny) ∧
    (.deny ∉ effectsOn resource calls → .requireApproval ∈ effectsOn resource calls →
      ((created calls).evaluate agentId action resource asked stored).2.decision =
        .requireApproval)

/-- The rules that match a resource agree on its effect. -/
def Uniform (calls : List (String × Creation)) : Prop :=
  ∀ resource, ∀ effect ∈ effectsOn resource calls, ∀ effect' ∈ effectsOn resource calls,
    effect = effect'

theorem effectsOn_perm {calls other : List (String × Creation)} (resource : String)
    (same : (other.map Prod.snd).Perm (calls.map Prod.snd)) :
    (effectsOn resource other).Perm (effectsOn resource calls) := by
  have mapped : ∀ calls : List (String × Creation),
      effectsOn resource calls = (calls.map Prod.snd).filterMap (effectOn resource) := by
    intro calls
    rw [List.filterMap_map]
    rfl
  rw [mapped, mapped]
  exact same.filterMap _

theorem head?_of_uniform {effects : List PolicyEffect}
    (uniform : ∀ effect ∈ effects, ∀ effect' ∈ effects, effect = effect') {effect : PolicyEffect}
    (member : effect ∈ effects) : effects.head?.getD .allow = effect := by
  cases effects with
  | nil => cases member
  | cons first rest => exact uniform first List.mem_cons_self effect member

theorem uniform_orderFree {calls : List (String × Creation)}
    (distinct : (calls.map Prod.fst).Nodup) (uniform : Uniform calls) : OrderFree calls := by
  intro other same distinct' agentId action resource asked stored
  rw [evaluate_created distinct', evaluate_created distinct]
  have perm := effectsOn_perm resource same
  cases effects : effectsOn resource other with
  | nil =>
    rw [effects] at perm
    rw [perm.nil_eq]
  | cons first rest =>
    have member : first ∈ effectsOn resource calls :=
      perm.subset (effects ▸ List.mem_cons_self)
    exact (head?_of_uniform (uniform resource) member).symm

theorem orderFree_uniform {calls : List (String × Creation)}
    (distinct : (calls.map Prod.fst).Nodup) (free : OrderFree calls) : Uniform calls := by
  intro resource
  -- Every matching call can be made first, and then its effect is the decision.
  have decides : ∀ effect ∈ effectsOn resource calls,
      (effectsOn resource calls).head?.getD .allow = effect := by
    intro effect member
    obtain ⟨call, made, matching⟩ := List.mem_filterMap.mp member
    have reordered : (call :: calls.erase call).Perm calls := (List.perm_cons_erase made).symm
    have distinct' : ((call :: calls.erase call).map Prod.fst).Nodup :=
      ((reordered.map Prod.fst).nodup_iff).mpr distinct
    have same := free _ (reordered.map Prod.snd) distinct' "" "" resource 0 0
    rw [evaluate_created distinct', evaluate_created distinct] at same
    rw [← same]
    simp [effectsOn, matching]
  intro effect member effect' member'
  exact (decides effect member).symm.trans (decides effect' member')

theorem uniform_followsFlow {calls : List (String × Creation)}
    (distinct : (calls.map Prod.fst).Nodup) (uniform : Uniform calls) : FollowsFlow calls := by
  intro agentId action resource asked stored
  rw [evaluate_created distinct]
  exact ⟨head?_of_uniform (uniform resource), fun _ => head?_of_uniform (uniform resource)⟩

/-- The order of creation does not matter and the evaluation flow is kept exactly
when all rules that match one resource have one effect. -/
theorem orderFree_followsFlow_iff {calls : List (String × Creation)}
    (distinct : (calls.map Prod.fst).Nodup) :
    OrderFree calls ∧ FollowsFlow calls ↔ Uniform calls :=
  ⟨fun lawful => orderFree_uniform distinct lawful.1,
    fun uniform => ⟨uniform_orderFree distinct uniform, uniform_followsFlow distinct uniform⟩⟩

theorem orderFree_followsFlow_iff_two :
    OrderFree [("pol-1", ⟨"Reads", "db", "ALLOW"⟩), ("pol-2", ⟨"Models", "model.*", "DENY"⟩)] ∧
      FollowsFlow [("pol-1", ⟨"Reads", "db", "ALLOW"⟩), ("pol-2", ⟨"Models", "model.*", "DENY"⟩)] ↔
    Uniform [("pol-1", ⟨"Reads", "db", "ALLOW"⟩), ("pol-2", ⟨"Models", "model.*", "DENY"⟩)] :=
  orderFree_followsFlow_iff (by decide)

/-- A catch-all `ALLOW` made before a `DENY` hides it, and made after it does not. -/
theorem earlier_allow_hides_deny :
    ¬ FollowsFlow [("pol-1", ⟨"All", "*", "ALLOW"⟩), ("pol-2", ⟨"No reads", "db", "DENY"⟩)] ∧
      ¬ OrderFree [("pol-1", ⟨"All", "*", "ALLOW"⟩), ("pol-2", ⟨"No reads", "db", "DENY"⟩)] := by
  refine ⟨fun flow => ?_, fun free => ?_⟩
  · exact absurd ((flow "agent" "read" "db" 0 0).1 (by decide +kernel)) (by decide +kernel)
  · have same := free [("pol-2", ⟨"No reads", "db", "DENY"⟩), ("pol-1", ⟨"All", "*", "ALLOW"⟩)]
      (.swap ..) (by decide) "agent" "read" "db" 0 0
    exact absurd same (by decide +kernel)

end Kitematic.PolicyOrder

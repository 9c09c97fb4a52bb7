import Kitematic.CapabilityPolicy
import Kitematic.Trace

/-! One policy engine over a history of requests and changes. A key joins the parts
of a request with a character the parts may contain, so two requests can share an
entry, and the entry is stored without the capabilities it was computed under. -/

namespace Kitematic.PolicyHistory
open CapabilityPolicy Dictionary Policy

/-- `origins` notes beside the engine for which resource an entry was computed; the
code has no such record. -/
structure Session where
  engine : PolicyEngine
  registry : Option CapabilityRegistry := none
  origins : Dict String String := .empty

inductive Request where
  | createPolicy (policyId name target effect : String)
  | evaluate (agentId action resource : String) (asked stored : ℚ)
  | evaluateWithCapabilities (agentId action resource : String) (capabilities : List String)
      (asked stored : ℚ)
  | register (capability : Capability)
  | remove (capabilityId : String)

namespace Session

/-- A fresh engine with the given rules. -/
def start (policies : Dict String PolicyRule) (registry : Option CapabilityRegistry) : Session where
  engine := { policies := policies }
  registry := registry

def rules (s : Session) : List PolicyRule := s.engine.policies.values

def live (s : Session) (key : String) (now : ℚ) : Option PolicyDecision :=
  (s.engine.cache.get key now).2

def note (s : Session) (key resource : String) (now : ℚ) : Dict String String :=
  if (s.live key now).isNone then s.origins.set key resource else s.origins

def step (digest : String → String) (s : Session) : Request → Option Session
  | .createPolicy policyId name target effect =>
      match s.engine.createPolicy policyId name target effect with
      | .ok engine => some { s with engine := engine }
      | .error _ => some s
  | .evaluate agentId action resource asked stored =>
      some { s with
        engine := (s.engine.evaluate agentId action resource asked stored).1
        origins := s.note (PolicyEngine.makeCacheKey agentId action resource) resource asked }
  | .evaluateWithCapabilities agentId action resource capabilities asked stored =>
      some { s with
        engine := (evaluateWithCapabilities digest s.engine s.registry agentId action resource
          capabilities asked stored).1
        origins :=
          if (s.registry.bind (·.firstMissing capabilities)).isSome then s.origins
          else s.note (capabilityKey digest resource capabilities) resource asked }
  | .register capability =>
      match s.registry.bind fun registry => (registry.register capability).toOption with
      | some registry => some { s with registry := some registry }
      | none => some s
  | .remove capabilityId => some { s with registry := s.registry.map (·.remove capabilityId) }

/-- Every entry is what the rules say about the resource it was computed for. -/
def Sound (s : Session) : Prop :=
  ∀ key value expires, s.engine.cache.entries.get key = some (value, expires) →
    ∃ resource, s.origins.get key = some resource ∧ value = PolicyEngine.scan s.rules resource

/-- The answer to a plain request is that of a fresh scan. -/
def Transparent (s : Session) : Request → Prop
  | .evaluate agentId action resource asked stored =>
      let answer := (s.engine.evaluate agentId action resource asked stored).2
      (answer.decision, answer.matchedRule) = freshChoice s.rules resource
  | _ => True

instance (s : Session) : (e : Request) → Decidable (s.Transparent e)
  | .evaluate .. => inferInstanceAs (Decidable (_ = _))
  | .createPolicy .. | .evaluateWithCapabilities .. | .register .. | .remove .. => .isTrue trivial

/-- No live entry under the key of a plain request was computed for a resource that
the rules decide differently. -/
def NoCollision (s : Session) : Request → Prop
  | .evaluate agentId action resource asked _ =>
      let key := PolicyEngine.makeCacheKey agentId action resource
      (s.live key asked).isSome → ∀ other, s.origins.get key = some other →
        freshChoice s.rules other = freshChoice s.rules resource
  | _ => True

end Session

section cache
variable {α : Type} {cache : InMemoryPolicyCache α} {key key' : String} {now : ℚ}

theorem get_entries {entry : α × ℚ} (found : (cache.get key now).1.entries.get key' = some entry) :
    cache.entries.get key' = some entry := by
  unfold InMemoryPolicyCache.get at found
  split at found
  · exact found
  · split at found
    · exact Dict.get_of_get_erase found
    · exact found

theorem get_eq_some {value : α} (found : (cache.get key now).2 = some value) :
    ∃ expires, cache.entries.get key = some (value, expires) := by
  unfold InMemoryPolicyCache.get at found
  split at found
  · cases found
  next stored expires entry =>
    split at found
    · cases found
    · cases found
      exact ⟨expires, entry⟩

theorem get_eq_none (missed : (cache.get key now).2 = none) :
    (cache.get key now).1.entries.get key = none := by
  unfold InMemoryPolicyCache.get at missed ⊢
  split
  next absent => exact absent
  next stored expires entry =>
    simp only [entry] at missed
    split
    · simp [Dict.get_erase]
    next fresh => simp [fresh] at missed

theorem set_entries {value : α} {entry : α × ℚ}
    (found : (cache.set key value now).entries.get key' = some entry) :
    (key' = key ∧ entry.1 = value) ∨ (key' ≠ key ∧ cache.entries.get key' = some entry) := by
  simp only [InMemoryPolicyCache.set, Dict.get_set] at found
  split at found
  next same =>
    cases found
    exact .inl ⟨same, rfl⟩
  next other =>
    refine .inr ⟨other, ?_⟩
    split at found
    · split at found
      · exact Dict.get_of_get_erase found
      · exact found
    · exact found

end cache

namespace Session
variable {s t : Session} {digest : String → String}

theorem live_isNone {key : String} {now : ℚ} (missed : (s.engine.cache.get key now).2 = none)
    (resource : String) : s.note key resource now = s.origins.set key resource := by
  simp [note, live, missed]

theorem sound_hit {key resource : String} {now : ℚ} {cached : PolicyDecision} (sound : s.Sound)
    (hit : (s.engine.cache.get key now).2 = some cached) :
    Sound { s with
      engine := { s.engine with cache := (s.engine.cache.get key now).1 }
      origins := s.note key resource now } := by
  have kept : s.note key resource now = s.origins := by simp [note, live, hit]
  intro key' value expires found
  rw [kept]
  exact sound key' value expires (get_entries found)

theorem sound_denied {key resource : String} {now : ℚ} (sound : s.Sound)
    (missed : (s.engine.cache.get key now).2 = none) :
    Sound { s with
      engine := { s.engine with cache := (s.engine.cache.get key now).1 }
      origins := s.note key resource now } := by
  rw [live_isNone missed]
  intro key' value expires found
  have other : key' ≠ key := by
    rintro rfl
    rw [get_eq_none missed] at found
    cases found
  obtain ⟨origin, noted, same⟩ := sound key' value expires (get_entries found)
  exact ⟨origin, by rw [Dict.get_set, if_neg other]; exact noted, same⟩

theorem sound_miss {key resource : String} {asked stored : ℚ} (sound : s.Sound)
    (missed : (s.engine.cache.get key asked).2 = none) :
    Sound { s with
      engine := { s.engine with
        cache := (s.engine.cache.get key asked).1.set key (PolicyEngine.scan s.rules resource)
          stored }
      origins := s.note key resource asked } := by
  rw [live_isNone missed]
  intro key' value expires found
  obtain ⟨rfl, same⟩ | ⟨other, old⟩ := set_entries found
  · exact ⟨resource, Dict.get_set_self _ _ _, same⟩
  · obtain ⟨origin, noted, same⟩ := sound key' value expires (get_entries old)
    exact ⟨origin, by rw [Dict.get_set, if_neg other]; exact noted, same⟩

theorem step_sound {e : Request} (sound : s.Sound) (stepped : s.step digest e = some t) :
    t.Sound := by
  cases e with
  | createPolicy policyId name target effect =>
    simp only [step] at stepped
    split at stepped
    next engine created =>
      cases stepped
      unfold PolicyEngine.createPolicy at created
      split at created <;> cases created
      intro key value expires found
      cases found
    · cases stepped
      exact sound
  | evaluate agentId action resource asked stored =>
    cases stepped
    unfold PolicyEngine.evaluate
    cases looked : (s.engine.cache.get (PolicyEngine.makeCacheKey agentId action resource) asked).2 with
    | some cached =>
      simp only [looked]
      exact sound_hit sound looked
    | none =>
      simp only [looked]
      exact sound_miss sound looked
  | evaluateWithCapabilities agentId action resource capabilities asked stored =>
    cases stepped
    unfold evaluateWithCapabilities
    cases missing : s.registry.bind (·.firstMissing capabilities) with
    | some capability => simpa using sound
    | none =>
      simp only [Option.isSome_none, Bool.false_eq_true, if_false]
      cases looked : (s.engine.cache.get (capabilityKey digest resource capabilities) asked).2 with
      | some cached =>
        dsimp only
        exact sound_hit sound looked
      | none =>
        dsimp only
        split
        · exact sound_denied sound looked
        · exact sound_miss sound looked
  | register capability =>
    simp only [step] at stepped
    split at stepped <;> cases stepped
    · exact sound
    · exact sound
  | remove capabilityId =>
    cases stepped
    exact sound

theorem start_sound (policies : Dict String PolicyRule) (registry : Option CapabilityRegistry) :
    (start policies registry).Sound := by
  intro key value expires found
  cases found

/-- A plain request is answered as by a fresh scan exactly when the entry it finds, if
any, was computed for a resource with the same choice. -/
theorem transparent_iff (sound : s.Sound) (e : Request) : s.Transparent e ↔ s.NoCollision e := by
  cases e with
  | evaluate agentId action resource asked stored =>
    simp only [Transparent, NoCollision, live, PolicyEngine.evaluate]
    cases looked : (s.engine.cache.get (PolicyEngine.makeCacheKey agentId action resource) asked).2 with
    | none => exact iff_of_true (scan_choice s.rules resource) (by simp)
    | some cached =>
      obtain ⟨expires, entry⟩ := get_eq_some looked
      obtain ⟨origin, noted, rfl⟩ := sound _ cached expires entry
      simp [noted, scan_choice]
  | _ => exact Iff.rfl

/-- In every history, all plain requests are answered as without a cache exactly when
none meets a live entry of a request that the rules decide differently. -/
theorem transparent_iff_noCollision {policies : Dict String PolicyRule}
    {registry : Option CapabilityRegistry} {es : List Request} {t : Session}
    (ran : Trace.run (step digest) (start policies registry) es = some t) :
    Trace.EachStep (step digest) (fun _ s e => s.Transparent e) [] (start policies registry) es ↔
      Trace.EachStep (step digest) (fun _ s e => s.NoCollision e) [] (start policies registry) es :=
  Trace.eachStep_congr (I := fun _ s => s.Sound) (fun _ _ _ _ sound stepped => step_sound sound stepped)
    (fun _ _ e _ sound _ => transparent_iff sound e) (start_sound policies registry) ran

theorem transparent_iff_noCollision_cached :
    Trace.EachStep (step id) (fun _ s e => s.Transparent e) [] (start .empty none)
        [.createPolicy "pol-1" "No reads" "db" "DENY", .evaluate "agent" "read" "db" 0 0,
          .evaluate "agent" "read" "db" 1 1] ↔
      Trace.EachStep (step id) (fun _ s e => s.NoCollision e) [] (start .empty none)
        [.createPolicy "pol-1" "No reads" "db" "DENY", .evaluate "agent" "read" "db" 0 0,
          .evaluate "agent" "read" "db" 1 1] :=
  transparent_iff_noCollision rfl

/-- Two requests that join to `agent|read|secret|db|`: the second one is for another
resource, which no rule is about. -/
theorem joined_key_collides :
    ¬ Trace.EachStep (step id) (fun _ s e => s.Transparent e) [] (start .empty none)
        [.createPolicy "pol-1" "No reads" "db" "DENY", .evaluate "agent" "read|secret" "db" 0 0,
          .evaluate "agent" "read" "secret|db" 1 1] := by
  rintro ⟨-, later⟩
  have last := ((later _ rfl).2 _ rfl).1
  exact absurd last (by decide +kernel)

/-! Capabilities are checked when a decision is computed, not when it is looked up. -/

def registered (s : Session) (capability : String) : Bool :=
  s.registry.any (·.contains capability)

def RulesCovered (s : Session) (resource : String) : Prop :=
  ∀ rule ∈ candidates s.rules resource, ∀ capability ∈ rule.requiredCapabilities,
    s.registered capability = true

/-- An allowed request has all its capabilities registered, and all its rules'. -/
def Covered (digest : String → String) (s : Session) : Request → Prop
  | .evaluateWithCapabilities agentId action resource capabilities asked stored =>
      (evaluateWithCapabilities digest s.engine s.registry agentId action resource capabilities
        asked stored).2.decision = .allow →
        (∀ capability ∈ capabilities, s.registered capability = true) ∧ s.RulesCovered resource
  | _ => True

/-- No request finds a live `ALLOW` while a rule for its resource requires a capability
that is not registered. -/
def NoStaleAllow (digest : String → String) (s : Session) : Request → Prop
  | .evaluateWithCapabilities _ _ resource capabilities asked _ =>
      (∀ capability ∈ capabilities, s.registered capability = true) →
        (s.live (capabilityKey digest resource capabilities) asked).map PolicyDecision.decision =
          some .allow → s.RulesCovered resource
  | _ => True

theorem covered_iff (attached : s.registry.isSome = true) (e : Request) :
    s.Covered digest e ↔ s.NoStaleAllow digest e := by
  cases e with
  | evaluateWithCapabilities agentId action resource capabilities asked stored =>
    obtain ⟨registry, current⟩ := Option.isSome_iff_exists.mp attached
    have known : ∀ capability, s.registered capability = registry.contains capability := by
      simp [registered, current]
    simp only [Covered, NoStaleAllow, live, evaluateWithCapabilities, current, Option.bind_some]
    cases missing : registry.firstMissing capabilities with
    | some capability =>
      have absent : ¬ ∀ capability ∈ capabilities, s.registered capability = true := by
        simp only [known, ← CapabilityRegistry.firstMissing_eq_none, missing]
        simp
      exact iff_of_true (fun allowed => nomatch allowed) fun all => absurd all absent
    | none =>
      have all : ∀ capability ∈ capabilities, s.registered capability = true := by
        simpa only [known] using CapabilityRegistry.firstMissing_eq_none.mp missing
      cases looked : (s.engine.cache.get (capabilityKey digest resource capabilities) asked).2 with
      | some cached =>
        simp only [Option.map_some, Option.some.injEq]
        exact ⟨fun covered _ allowed => (covered allowed).2,
          fun clean allowed => ⟨all, clean all allowed⟩⟩
      | none =>
        refine iff_of_true (fun allowed => ⟨all, ?_⟩) (by simp)
        cases found : (candidates s.engine.policies.values resource).findSome?
            (ruleDenial (some registry)) with
        | some reason =>
          rw [found] at allowed
          cases allowed
        | none =>
          intro rule member capability required
          have passed := List.findSome?_eq_none_iff.mp found rule member
          rw [known]
          exact ruleDenial_eq_none.mp passed capability required
  | _ => exact Iff.rfl

theorem step_registry {e : Request} (attached : s.registry.isSome = true)
    (stepped : s.step digest e = some t) : t.registry.isSome = true := by
  cases e with
  | createPolicy policyId name target effect =>
    simp only [step] at stepped
    split at stepped <;> cases stepped <;> exact attached
  | evaluate => cases stepped; exact attached
  | evaluateWithCapabilities => cases stepped; exact attached
  | register capability =>
    simp only [step] at stepped
    split at stepped <;> cases stepped
    · rfl
    · exact attached
  | remove capabilityId =>
    cases stepped
    simpa using attached

/-- In every history, all allowed requests have their capabilities registered exactly
when none is answered from a live `ALLOW` whose rules require what is missing. -/
theorem covered_iff_noStaleAllow {policies : Dict String PolicyRule}
    {registry : CapabilityRegistry} {es : List Request} {t : Session}
    (ran : Trace.run (step digest) (start policies (some registry)) es = some t) :
    Trace.EachStep (step digest) (fun _ s e => s.Covered digest e) []
        (start policies (some registry)) es ↔
      Trace.EachStep (step digest) (fun _ s e => s.NoStaleAllow digest e) []
        (start policies (some registry)) es :=
  Trace.eachStep_congr (I := fun _ s => s.registry.isSome = true)
    (fun _ _ _ _ attached stepped => step_registry attached stepped)
    (fun _ _ e _ attached _ => covered_iff attached e) rfl ran

def guarded : Dict String PolicyRule :=
  (.empty : Dict String PolicyRule).set "pol-1"
    ⟨"pol-1", "With db", "*", .allow, 100, .active, ["db"]⟩

theorem covered_iff_noStaleAllow_registered :
    Trace.EachStep (step id) (fun _ s e => s.Covered id e) [] (start guarded (some {}))
        [.register ⟨"db", "Database"⟩, .evaluateWithCapabilities "agent" "read" "table" [] 0 0] ↔
      Trace.EachStep (step id) (fun _ s e => s.NoStaleAllow id e) [] (start guarded (some {}))
        [.register ⟨"db", "Database"⟩, .evaluateWithCapabilities "agent" "read" "table" [] 0 0] :=
  covered_iff_noStaleAllow rfl

/-- A capability is removed after an `ALLOW` that needed it was stored. -/
theorem removed_capability_allowed :
    ¬ Trace.EachStep (step id) (fun _ s e => s.Covered id e) [] (start guarded (some {}))
        [.register ⟨"db", "Database"⟩, .evaluateWithCapabilities "agent" "read" "table" [] 0 0,
          .remove "db", .evaluateWithCapabilities "agent" "read" "table" [] 1 1] := by
  rintro ⟨-, later⟩
  have last := (((later _ rfl).2 _ rfl).2 _ rfl).1
  have covered := (last (by decide +kernel)).2 ⟨"pol-1", "With db", "*", .allow, 100, .active, ["db"]⟩
    (by decide +kernel) "db" (by decide)
  exact absurd covered (by decide +kernel)

end Session
end Kitematic.PolicyHistory

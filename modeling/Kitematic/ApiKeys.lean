import Kitematic.Observability
import Kitematic.Trace
import Mathlib.Data.Set.Function

/-! API keys. A provider stores fingerprints, and with a digest that tells the keys in use
apart it is a finite map from raw keys to contexts. A rotation takes the old key out and
puts the new one in, whether or not the new one is registered already. -/

namespace Kitematic.ApiKeys
open Dictionary Observability Trace

structure AuthContext where
  tenantId : String := ""
  agentId : String := ""
  permissions : List String := []

/-- The key prefix is left out: nothing reads it. -/
structure APIKeyAuthProvider where
  fingerprints : Dict String AuthContext := .empty

namespace APIKeyAuthProvider
variable (sha256 : String → String) (p : APIKeyAuthProvider)

/-- `_fingerprint`: the hexadecimal digest of the key. -/
def fingerprint (rawKey : String) : String := sha256 rawKey

def addKey (apiKey : String) (context : AuthContext) : APIKeyAuthProvider :=
  { p with fingerprints := p.fingerprints.set (fingerprint sha256 apiKey) context }

def new (keys : Dict String AuthContext) : APIKeyAuthProvider :=
  keys.entries.foldl (fun p e => p.addKey sha256 e.1 e.2) {}

def removeKey (apiKey : String) : APIKeyAuthProvider × Bool :=
  let fp := fingerprint sha256 apiKey
  if p.fingerprints.contains fp then
    ({ p with fingerprints := p.fingerprints.erase fp }, true)
  else (p, false)

/-- The provider and the registry that a rotation leaves, and what it returns. -/
def rotateKey (oldKey newKey : String) (context : Option AuthContext)
    (metrics : Option MetricsRegistry) : APIKeyAuthProvider × Option MetricsRegistry × Bool :=
  let oldFp := fingerprint sha256 oldKey
  match p.fingerprints.get oldFp with
  | none => (p, metrics, false)
  | some existing =>
      let rest := p.fingerprints.erase oldFp
      ({ p with fingerprints := rest.set (fingerprint sha256 newKey) (context.getD existing) },
        metrics.map fun m => m.increment "security.auth.rotation", true)

def compareDigest (a b : String) : Bool := a = b

def authenticate (apiKey : String) : Option AuthContext :=
  if apiKey = "" then none
  else
    let candidate := fingerprint sha256 apiKey
    (p.fingerprints.entries.find? fun e => compareDigest candidate e.1).map Prod.snd

def keyCount : ℕ := p.fingerprints.entries.length

end APIKeyAuthProvider

inductive Call where
  | addKey (apiKey : String) (context : AuthContext)
  | removeKey (apiKey : String)
  | rotateKey (oldKey newKey : String) (context : Option AuthContext)
      (metrics : Option MetricsRegistry)
  | authenticate (apiKey : String)

def Call.keys : Call → List String
  | .addKey apiKey _ | .removeKey apiKey | .authenticate apiKey => [apiKey]
  | .rotateKey oldKey newKey _ _ => [oldKey, newKey]

/-- What the calls mean for the map from raw keys to contexts. -/
def register (known : Dict String AuthContext) : Call → Dict String AuthContext
  | .addKey apiKey context => known.set apiKey context
  | .removeKey apiKey => known.erase apiKey
  | .rotateKey oldKey newKey context _ =>
      match known.get oldKey with
      | none => known
      | some existing => (known.erase oldKey).set newKey (context.getD existing)
  | .authenticate _ => known

structure World where
  provider : APIKeyAuthProvider
  known : Dict String AuthContext

section calls
variable (sha256 : String → String)

def serve (p : APIKeyAuthProvider) : Call → APIKeyAuthProvider
  | .addKey apiKey context => p.addKey sha256 apiKey context
  | .removeKey apiKey => (p.removeKey sha256 apiKey).1
  | .rotateKey oldKey newKey context metrics => (p.rotateKey sha256 oldKey newKey context metrics).1
  | .authenticate _ => p

def step (w : World) (call : Call) : Option World :=
  some ⟨serve sha256 w.provider call, register w.known call⟩

def start (keys : Dict String AuthContext) : World := ⟨.new sha256 keys, keys⟩

/-- The keys in use authenticate to the contexts the map has for them. -/
def Agrees (K : Set String) (w : World) : Prop :=
  ∀ apiKey ∈ K, w.provider.authenticate sha256 apiKey = w.known.get apiKey

structure Rotated (K : Set String) (before after : APIKeyAuthProvider) (oldKey newKey : String)
    (context : Option AuthContext) : Prop where
  target : ∃ existing, before.authenticate sha256 oldKey = some existing ∧
    after.authenticate sha256 newKey = some (context.getD existing)
  retired : oldKey ≠ newKey → after.authenticate sha256 oldKey = none
  others : ∀ apiKey ∈ K, apiKey ≠ oldKey → apiKey ≠ newKey →
    after.authenticate sha256 apiKey = before.authenticate sha256 apiKey
  count : after.keyCount = before.keyCount

def RotatesRight (K : Set String) (w : World) : Call → Prop
  | .rotateKey oldKey newKey context metrics =>
      (w.provider.rotateKey sha256 oldKey newKey context metrics).2.2 = true →
        Rotated sha256 K w.provider
          (w.provider.rotateKey sha256 oldKey newKey context metrics).1 oldKey newKey context
  | _ => True

end calls

/-- No empty key is added, and a registered key is rotated to itself or to one that is not
registered and not empty. -/
def Sound (w : World) : Call → Prop
  | .addKey apiKey _ => apiKey ≠ ""
  | .rotateKey oldKey newKey _ _ => oldKey ∈ w.known.keys →
      newKey ≠ "" ∧ (newKey = oldKey ∨ newKey ∉ w.known.keys)
  | _ => True

/-- The fingerprints are those of the keys of the map. -/
structure Mirrors (sha256 : String → String) (K : Set String) (w : World) : Prop where
  entries : Dict.Renames (APIKeyAuthProvider.fingerprint sha256) w.known w.provider.fingerprints
  inside : ∀ apiKey ∈ w.known.keys, apiKey ∈ K

section mirrors
variable {sha256 : String → String} {K : Set String} {w : World}

theorem find_fingerprint (d : Dict String AuthContext) (candidate : String) :
    (d.entries.find? fun e => APIKeyAuthProvider.compareDigest candidate e.1).map Prod.snd =
      d.get candidate := by
  obtain ⟨entries, distinct⟩ := d
  unfold Dict.get
  simp only
  clear distinct
  induction entries with
  | nil => rfl
  | cons e entries ih =>
    rw [List.find?_cons, List.lookup_cons]
    by_cases same : candidate = e.1
    · simp [APIKeyAuthProvider.compareDigest, same]
    · have missed : (candidate == e.1) = false := beq_eq_false_iff_ne.mpr same
      simp [APIKeyAuthProvider.compareDigest, same, missed, ← ih]

theorem Mirrors.authenticate (mirrors : Mirrors sha256 K w) (injective : K.InjOn sha256)
    {apiKey : String} (used : apiKey ∈ K) : w.provider.authenticate sha256 apiKey =
      if apiKey = "" then none else w.known.get apiKey := by
  unfold APIKeyAuthProvider.authenticate
  simp only [find_fingerprint, mirrors.entries.get injective mirrors.inside used]

theorem Mirrors.keyCount (mirrors : Mirrors sha256 K w) :
    w.provider.keyCount = w.known.entries.length :=
  mirrors.entries.length

theorem Mirrors.agrees_iff (mirrors : Mirrors sha256 K w) (injective : K.InjOn sha256) :
    Agrees sha256 K w ↔ "" ∉ w.known.keys := by
  constructor
  · intro agrees registered
    have empty := agrees "" (mirrors.inside "" registered)
    rw [mirrors.authenticate injective (mirrors.inside "" registered), if_pos rfl] at empty
    exact Dict.get_eq_none.mp empty.symm registered
  · intro filled apiKey used
    rw [mirrors.authenticate injective used]
    split
    next empty => exact (Dict.get_eq_none.mpr (empty ▸ filled)).symm
    next => rfl

theorem Mirrors.addKey (mirrors : Mirrors sha256 K w) (injective : K.InjOn sha256)
    {apiKey : String} (used : apiKey ∈ K) (context : AuthContext) :
    Mirrors sha256 K ⟨w.provider.addKey sha256 apiKey context, w.known.set apiKey context⟩ := by
  refine ⟨mirrors.entries.set injective mirrors.inside used context, ?_⟩
  intro key registered
  rcases Dict.mem_keys_set.mp registered with rfl | old
  · exact used
  · exact mirrors.inside key old

theorem Mirrors.erase (mirrors : Mirrors sha256 K w) (injective : K.InjOn sha256)
    {apiKey : String} (used : apiKey ∈ K) :
    Mirrors sha256 K ⟨⟨w.provider.fingerprints.erase
      (APIKeyAuthProvider.fingerprint sha256 apiKey)⟩, w.known.erase apiKey⟩ :=
  ⟨mirrors.entries.erase injective mirrors.inside used,
    fun key registered => mirrors.inside key (Dict.mem_keys_erase.mp registered).2⟩

theorem Mirrors.removeKey (mirrors : Mirrors sha256 K w) (injective : K.InjOn sha256)
    {apiKey : String} (used : apiKey ∈ K) :
    Mirrors sha256 K ⟨(w.provider.removeKey sha256 apiKey).1, w.known.erase apiKey⟩ := by
  have same := mirrors.entries.get injective mirrors.inside used
  unfold APIKeyAuthProvider.removeKey Dict.contains
  simp only [show w.provider.fingerprints.get (APIKeyAuthProvider.fingerprint sha256 apiKey) =
    w.known.get apiKey from same]
  cases found : w.known.get apiKey with
  | none => simpa [Dict.erase_of_get_none found] using mirrors
  | some context => simpa using mirrors.erase injective used

theorem Mirrors.rotateKey (mirrors : Mirrors sha256 K w) (injective : K.InjOn sha256)
    {oldKey newKey : String} (used : oldKey ∈ K) (usedNew : newKey ∈ K)
    (context : Option AuthContext) (metrics : Option MetricsRegistry) :
    Mirrors sha256 K ⟨(w.provider.rotateKey sha256 oldKey newKey context metrics).1,
        register w.known (.rotateKey oldKey newKey context metrics)⟩ ∧
      ((w.provider.rotateKey sha256 oldKey newKey context metrics).2.2 = true ↔
        oldKey ∈ w.known.keys) := by
  have same := mirrors.entries.get injective mirrors.inside used
  unfold APIKeyAuthProvider.rotateKey register
  simp only [show w.provider.fingerprints.get (APIKeyAuthProvider.fingerprint sha256 oldKey) =
    w.known.get oldKey from same]
  cases found : w.known.get oldKey with
  | none => exact ⟨mirrors, by simp [Dict.get_eq_none.mp found]⟩
  | some existing =>
    have stored : oldKey ∈ w.known.keys := by
      rw [Dict.mem_keys, Dict.contains, found]
      rfl
    exact ⟨(mirrors.erase injective used).addKey injective usedNew _, by simp [stored]⟩

theorem Mirrors.step (mirrors : Mirrors sha256 K w) (injective : K.InjOn sha256) {call : Call}
    (used : ∀ apiKey ∈ call.keys, apiKey ∈ K) :
    Mirrors sha256 K ⟨serve sha256 w.provider call, register w.known call⟩ := by
  cases call with
  | addKey apiKey context => exact mirrors.addKey injective (used apiKey (by simp [Call.keys])) _
  | removeKey apiKey => exact mirrors.removeKey injective (used apiKey (by simp [Call.keys]))
  | rotateKey oldKey newKey context metrics =>
    exact (mirrors.rotateKey injective (used oldKey (by simp [Call.keys]))
      (used newKey (by simp [Call.keys])) context metrics).1
  | authenticate apiKey => exact mirrors

theorem mirrors_start (injective : K.InjOn sha256) {keys : Dict String AuthContext}
    (used : ∀ apiKey ∈ keys.keys, apiKey ∈ K) : Mirrors sha256 K (start sha256 keys) := by
  have each : ∀ (l : List (String × AuthContext)) (w : World), Mirrors sha256 K w →
      (∀ e ∈ l, e.1 ∈ K) →
      Mirrors sha256 K ⟨l.foldl (fun p e => p.addKey sha256 e.1 e.2) w.provider,
        l.foldl (fun d e => d.set e.1 e.2) w.known⟩ := by
    intro l
    induction l with
    | nil => exact fun w mirrors _ => mirrors
    | cons e l ih =>
      intro w mirrors inside
      exact ih _ (mirrors.addKey injective (inside e List.mem_cons_self) e.2)
        fun e' member => inside e' (List.mem_cons_of_mem _ member)
  have built := each keys.entries ⟨{}, .empty⟩ ⟨rfl, fun _ none => absurd none List.not_mem_nil⟩
    fun e member => used e.1 (List.mem_map_of_mem member)
  rw [show keys.entries.foldl (fun d e => d.set e.1 e.2) Dict.empty = keys from
    Dict.ofList_self keys] at built
  exact built

theorem length_rotated {known : Dict String AuthContext} {oldKey newKey : String}
    {existing : AuthContext} (found : known.get oldKey = some existing) (context : AuthContext) :
    ((known.erase oldKey).set newKey context).entries.length = known.entries.length ↔
      newKey = oldKey ∨ newKey ∉ known.keys := by
  have removed := Dict.length_erase found
  simp only [Dict.length_set, Dict.mem_keys_erase]
  by_cases same : newKey = oldKey
  · simp [same, removed]
  · by_cases registered : newKey ∈ known.keys
    · simp only [same, registered, ne_eq, not_false_eq_true, and_self, if_true, not_true_eq_false,
        or_self, iff_false]
      omega
    · simp [same, registered, removed]

theorem rotatesRight_iff (mirrors : Mirrors sha256 K w) (injective : K.InjOn sha256)
    (filled : "" ∉ w.known.keys) {oldKey newKey : String} (used : oldKey ∈ K)
    (usedNew : newKey ∈ K) (context : Option AuthContext) (metrics : Option MetricsRegistry) :
    RotatesRight sha256 K w (.rotateKey oldKey newKey context metrics) ↔
      Sound w (.rotateKey oldKey newKey context metrics) := by
  obtain ⟨next, rotates⟩ := mirrors.rotateKey injective used usedNew context metrics
  simp only [RotatesRight, Sound]
  rw [rotates]
  refine forall_congr' fun registered => ?_
  obtain ⟨existing, found⟩ := Option.isSome_iff_exists.mp (Dict.mem_keys.mp registered)
  have named : oldKey ≠ "" := fun empty => filled (empty ▸ registered)
  have before := mirrors.authenticate injective used
  have known : register w.known (.rotateKey oldKey newKey context metrics) =
      (w.known.erase oldKey).set newKey (context.getD existing) := by
    simp only [register, found]
  rw [known] at next
  rw [if_neg named, found] at before
  have after : ∀ apiKey ∈ K, (w.provider.rotateKey sha256 oldKey newKey context metrics).1.authenticate
      sha256 apiKey = if apiKey = "" then none
        else if apiKey = newKey then some (context.getD existing)
        else if apiKey = oldKey then none else w.known.get apiKey := by
    intro apiKey inside
    rw [next.authenticate injective inside, Dict.get_set, Dict.get_erase]
  have count : (w.provider.rotateKey sha256 oldKey newKey context metrics).1.keyCount =
      w.provider.keyCount ↔ newKey = oldKey ∨ newKey ∉ w.known.keys := by
    rw [next.keyCount, mirrors.keyCount]
    exact length_rotated found _
  constructor
  · intro rotated
    refine ⟨?_, count.mp rotated.count⟩
    intro empty
    obtain ⟨_, _, target⟩ := rotated.target
    rw [after newKey usedNew, if_pos empty] at target
    cases target
  · intro sound
    refine ⟨⟨existing, before, ?_⟩, ?_, ?_, count.mpr sound.2⟩
    · rw [after newKey usedNew, if_neg sound.1, if_pos rfl]
    · intro other
      rw [after oldKey used, if_neg named, if_neg other, if_pos rfl]
    · intro apiKey inside notOld notNew
      rw [after apiKey inside, if_neg notNew, if_neg notOld, mirrors.authenticate injective inside]

theorem step_decides (mirrors : Mirrors sha256 K w) (injective : K.InjOn sha256)
    (agrees : Agrees sha256 K w) {call : Call} (used : ∀ apiKey ∈ call.keys, apiKey ∈ K) :
    RotatesRight sha256 K w call ∧
        Agrees sha256 K ⟨serve sha256 w.provider call, register w.known call⟩ ↔
      Sound w call := by
  have filled := (mirrors.agrees_iff injective).mp agrees
  rw [(mirrors.step injective used).agrees_iff injective]
  cases call with
  | addKey apiKey context =>
    simp [RotatesRight, Sound, register, Dict.mem_keys_set, filled, eq_comm]
  | removeKey apiKey => simp [RotatesRight, Sound, register, Dict.mem_keys_erase, filled]
  | rotateKey oldKey newKey context metrics =>
    rw [rotatesRight_iff mirrors injective filled (used oldKey (by simp [Call.keys]))
      (used newKey (by simp [Call.keys])) context metrics]
    refine and_iff_left_of_imp fun sound => ?_
    unfold register
    simp only
    split
    next => exact filled
    next existing found =>
      have registered : oldKey ∈ w.known.keys := by
        rw [Dict.mem_keys, Dict.contains, found]
        rfl
      simp [Dict.mem_keys_set, Dict.mem_keys_erase, filled, Ne.symm (sound registered).1]
  | authenticate apiKey => simp [RotatesRight, Sound, register, filled]

end mirrors

theorem run_isSome (sha256 : String → String) (w : World) (calls : List Call) :
    ∃ w', run (step sha256) w calls = some w' :=
  Trace.run_isSome (fun _ _ => ⟨_, rfl⟩) w calls

/-- In any run of a provider made with any keys, over keys that the digest tells apart,
authentication always agrees with the map from raw keys to contexts and each rotation that
returns `True` moves one key and nothing else, exactly when no empty key is entered and
no key is rotated to another registered one. -/
theorem authenticates_iff_sound (sha256 : String → String) {K : Set String}
    (injective : K.InjOn sha256) {keys : Dict String AuthContext}
    (given : ∀ apiKey ∈ keys.keys, apiKey ∈ K) {calls : List Call}
    (used : ∀ call ∈ calls, ∀ apiKey ∈ call.keys, apiKey ∈ K) :
    AllStates (step sha256) (Agrees sha256 K) (start sha256 keys) calls ∧
        EachStep (step sha256) (fun _ => RotatesRight sha256 K) [] (start sha256 keys) calls ↔
      "" ∉ keys.keys ∧ EachStep (step sha256) (fun _ => Sound) [] (start sha256 keys) calls := by
  have mirrors := mirrors_start injective given
  obtain ⟨w, ran⟩ := run_isSome sha256 (start sha256 keys) calls
  by_cases filled : "" ∈ keys.keys
  · refine iff_of_false (fun right => ?_) (fun sound => sound.1 filled)
    exact (mirrors.agrees_iff injective).mp right.1.first filled
  · rw [and_iff_right filled]
    refine allStates_and_eachStep_iff_of (fun call => ∀ apiKey ∈ call.keys, apiKey ∈ K)
      (I := fun _ => Mirrors sha256 K) ?_ ?_ used mirrors
      ((mirrors.agrees_iff injective).mpr filled) ran
    · intro past w call w' inside mirrors stepped
      exact Option.some.inj stepped ▸ mirrors.step injective inside
    · intro past w call w' inside mirrors agrees stepped
      exact Option.some.inj stepped ▸ step_decides mirrors injective agrees inside

def sampleDigest (key : String) : String :=
  if key = "key-acme" then "6371cb7a907cc8f10740229732c4b6164b285169494b85304468313513427878"
  else if key = "key-globex" then "6434a00879acb6a4faed427b6463c32e2e5e3736404258155c408f29558d268d"
  else if key = "key-new" then "ca74744a78571a723f2d7bcd1b080bf775e08a2dd9da280f52dacd041799a257"
  else "e3b0c44298fc1c149afbf4c8996fb92427ae41e4649b934ca495991b7852b855"

theorem sampleDigest_injOn :
    ({"key-acme", "key-globex", "key-new"} : Set String).InjOn sampleDigest := by
  intro a inside b inside' same
  simp only [Set.mem_insert_iff, Set.mem_singleton_iff] at inside inside'
  rcases inside with rfl | rfl | rfl <;> rcases inside' with rfl | rfl | rfl <;>
    first | rfl | exact absurd same (by decide +kernel)

def acme : AuthContext := { tenantId := "acme" }

def globex : AuthContext := { tenantId := "globex" }

theorem authenticates_iff_sound_rotated :
    AllStates (step sampleDigest) (Agrees sampleDigest {"key-acme", "key-globex", "key-new"})
        (start sampleDigest .empty) [.addKey "key-acme" acme, .addKey "key-globex" globex,
          .rotateKey "key-acme" "key-new" none none] ∧
      EachStep (step sampleDigest)
        (fun _ => RotatesRight sampleDigest {"key-acme", "key-globex", "key-new"}) []
        (start sampleDigest .empty) [.addKey "key-acme" acme, .addKey "key-globex" globex,
          .rotateKey "key-acme" "key-new" none none] := by
  refine (authenticates_iff_sound sampleDigest sampleDigest_injOn
    (fun _ none => absurd none List.not_mem_nil) ?_).mpr ⟨List.not_mem_nil, ?_⟩
  · simp [Call.keys]
  · have acmeFilled : "key-acme" ≠ "" := by decide
    have globexFilled : "key-globex" ≠ "" := by decide
    refine eachStep_cons rfl acmeFilled (eachStep_cons rfl globexFilled
      (eachStep_cons rfl ?_ trivial))
    exact fun _ => ⟨by decide, .inr (by decide +kernel)⟩

/-- The key of one tenant is rotated to that of another: it becomes the first one's, and a
key is gone. -/
theorem rotated_onto_registered :
    let before := ((({} : APIKeyAuthProvider).addKey sampleDigest "key-acme" acme).addKey
      sampleDigest "key-globex" globex)
    let after := before.rotateKey sampleDigest "key-acme" "key-globex" none none
    after.2.2 = true ∧ before.keyCount = 2 ∧ after.1.keyCount = 1 ∧
      (before.authenticate sampleDigest "key-globex").map AuthContext.tenantId = some "globex" ∧
        (after.1.authenticate sampleDigest "key-globex").map AuthContext.tenantId = some "acme" ∧
          ¬ EachStep (step sampleDigest)
            (fun _ => RotatesRight sampleDigest {"key-acme", "key-globex"}) []
            (start sampleDigest .empty) [.addKey "key-acme" acme, .addKey "key-globex" globex,
              .rotateKey "key-acme" "key-globex" none none] := by
  refine ⟨by decide +kernel, by decide +kernel, by decide +kernel, by decide +kernel,
    by decide +kernel, fun right => ?_⟩
  have count := (((right.2 _ rfl).2 _ rfl).1 (by decide +kernel)).count
  exact absurd count (by decide +kernel)

end Kitematic.ApiKeys

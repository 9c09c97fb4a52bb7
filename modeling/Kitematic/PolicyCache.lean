import Kitematic.Fnmatch
import Kitematic.Policy
import Kitematic.Trace

/-! The decision cache over any calls. It keeps every entry for 300 seconds and makes room
at 10000 entries, whatever it was configured for, and a full cache loses an entry even
when a key is overwritten. -/

namespace Kitematic.PolicyCache
open Dictionary Fnmatch Policy
variable {α : Type}

def invalidateMatching (cache : InMemoryPolicyCache α) (pattern : String) : InMemoryPolicyCache α :=
  let toDelete := cache.entries.keys.filter fun key => fnmatch key pattern
  { cache with entries := toDelete.foldl Dict.erase cache.entries }

def invalidate (cache : InMemoryPolicyCache α) : Option String → InMemoryPolicyCache α
  | none => cache.invalidate
  | some pattern => invalidateMatching cache pattern

inductive Call (α : Type) where
  | get (key : String) (now : ℚ)
  | set (key : String) (value : α) (now : ℚ)
  | invalidate (pattern : Option String)

inductive Event (α : Type) where
  | stored (key : String) (value : α) (time : ℚ)
  | evicted (key : String)
  | invalidated (pattern : Option String)

/-- What the latest `set` of a key stored and when, unless the key has since been evicted
or invalidated. -/
def latest (key : String) : List (Event α) → Option (α × ℚ)
  | [] => none
  | .stored key' value time :: past => if key' = key then some (value, time) else latest key past
  | .evicted key' :: past => if key' = key then none else latest key past
  | .invalidated none :: _ => none
  | .invalidated (some pattern) :: past => if fnmatch key pattern then none else latest key past

structure Session (α : Type) where
  cache : InMemoryPolicyCache α
  clock : ℚ
  history : List (Event α) := []

def evictions (cache : InMemoryPolicyCache α) (key : String) (value : α) (now : ℚ) : List String :=
  cache.entries.keys.filter fun other => !(cache.set key value now).entries.contains other

namespace Session

def start (ttlSeconds maxEntries : Int) (clock : ℚ) : Session α where
  cache := { ttlSeconds, maxEntries }
  clock := clock

/-- The clock does not go back. -/
def step (s : Session α) : Call α → Option (Session α)
  | .get key now =>
      if s.clock ≤ now then some { s with cache := (s.cache.get key now).1, clock := now } else none
  | .set key value now =>
      if s.clock ≤ now then
        let evicted := (evictions s.cache key value now).map Event.evicted
        some
          { cache := s.cache.set key value now
            clock := now
            history := .stored key value now :: (evicted ++ s.history) }
      else none
  | .invalidate pattern =>
      some { s with
        cache := PolicyCache.invalidate s.cache pattern
        history := .invalidated pattern :: s.history }

def size (s : Session α) : Nat := s.cache.entries.entries.length

def Bounded (s : Session α) : Prop := (s.size : Int) ≤ s.cache.maxEntries

def ClosestToExpiry (s : Session α) (key : String) : Prop :=
  ∃ value expires, s.cache.entries.get key = some (value, expires) ∧
    ∀ other value' expires', s.cache.entries.get other = some (value', expires') →
      expires ≤ expires'

/-- A `get` finds what is due by the lifetime asked for, and a `set` evicts only for a new
key in a full cache, and then the entry closest to expiry. -/
def Right (_ : List (Call α)) (s : Session α) : Call α → Prop
  | .get key now => ∀ value, (s.cache.get key now).2 = some value ↔
      ∃ time, latest key s.history = some (value, time) ∧ now - time < s.cache.ttlSeconds
  | .set key value now =>
      (evictions s.cache key value now).length ≤ 1 ∧
        ∀ evicted ∈ evictions s.cache key value now,
          s.cache.entries.get key = none ∧ s.size = s.cache.maxEntries ∧ s.ClosestToExpiry evicted
  | .invalidate _ => True

/-- A `get` does not fall between the lifetime asked for and 300 seconds, a new key comes
to a cache that is full when it holds 10000 entries, and no other key is overwritten
at 10000 entries than the one closest to expiry. -/
def Honoured (_ : List (Call α)) (s : Session α) : Call α → Prop
  | .get key now => ∀ value time, latest key s.history = some (value, time) →
      (now - time < 300 ↔ now - time < s.cache.ttlSeconds)
  | .set key _ _ =>
      if s.cache.entries.contains key then s.size = 10000 → s.cache.oldest = some key
      else (s.size = 10000 ↔ s.size = s.cache.maxEntries)
  | .invalidate _ => True

end Session

theorem get_invalidate (cache : InMemoryPolicyCache α) (pattern : Option String) (key : String) :
    (invalidate cache pattern).entries.get key =
      if pattern.all (fnmatch key) then none else cache.entries.get key := by
  cases pattern with
  | none => rfl
  | some pattern =>
    simp only [invalidate, invalidateMatching, Dict.get_foldl_erase, List.mem_filter,
      Option.all_some]
    by_cases hit : fnmatch key pattern = true
    · simp only [hit, and_true, if_true, ite_eq_left_iff]
      exact Dict.get_eq_none.mpr
    · simp [hit]

theorem length_invalidate (cache : InMemoryPolicyCache α) (pattern : Option String) :
    (invalidate cache pattern).entries.entries.length ≤ cache.entries.entries.length := by
  cases pattern with
  | none => exact Nat.zero_le _
  | some pattern =>
    simp only [invalidate, invalidateMatching]
    generalize cache.entries.keys.filter (fun key => fnmatch key pattern) = toDelete
    generalize cache.entries = entries
    induction toDelete generalizing entries with
    | nil => exact le_rfl
    | cons key toDelete ih => exact (ih _).trans (List.length_filter_le _ _)

theorem latest_evicted (key : String) (keys : List String) (past : List (Event α)) :
    latest key (keys.map Event.evicted ++ past) =
      if key ∈ keys then none else latest key past := by
  induction keys with
  | nil => rfl
  | cons other keys ih =>
    by_cases same : other = key
    · simp [latest, same]
    · simp [latest, same, ih, Ne.symm same]

theorem latest_invalidated (key : String) (pattern : Option String) (past : List (Event α)) :
    latest key (.invalidated pattern :: past) =
      if pattern.all (fnmatch key) then none else latest key past := by
  cases pattern <;> rfl

def room (cache : InMemoryPolicyCache α) : Dict String (α × ℚ) :=
  if 10000 ≤ cache.entries.entries.length then
    match cache.oldest with
    | some key => cache.entries.erase key
    | none => cache.entries
  else cache.entries

theorem set_entries (cache : InMemoryPolicyCache α) (key : String) (value : α) (now : ℚ) :
    (cache.set key value now).entries = (room cache).set key (value, now + 300) := rfl

theorem get_room (cache : InMemoryPolicyCache α) (key : String) :
    (room cache).get key = if 10000 ≤ cache.entries.entries.length ∧ cache.oldest = some key
      then none else cache.entries.get key := by
  unfold room
  by_cases full : 10000 ≤ cache.entries.entries.length
  · cases oldest : cache.oldest with
    | none => simp [full]
    | some first => simp [full, Dict.get_erase, eq_comm]
  · simp [full]

theorem oldest_stored {cache : InMemoryPolicyCache α} {key : String}
    (oldest : cache.oldest = some key) :
    ∃ value expires, cache.entries.get key = some (value, expires) ∧
      ∀ other value' expires', cache.entries.get other = some (value', expires') →
        expires ≤ expires' := by
  obtain ⟨⟨first, value, expires⟩, least, rfl⟩ := Option.map_eq_some_iff.mp oldest
  refine ⟨value, expires, Dict.get_eq_some.mpr (List.argmin_mem least), ?_⟩
  intro other value' expires' stored
  exact List.le_of_mem_argmin (Dict.get_eq_some.mp stored) least

theorem oldest_exists {cache : InMemoryPolicyCache α}
    (full : 10000 ≤ cache.entries.entries.length) :
    ∃ key, cache.oldest = some key := by
  cases oldest : cache.oldest with
  | some key => exact ⟨key, rfl⟩
  | none =>
    have empty := List.argmin_eq_none.mp (Option.map_eq_none_iff.mp oldest)
    rw [empty] at full
    cases full

theorem length_room (cache : InMemoryPolicyCache α) :
    (room cache).entries.length =
      cache.entries.entries.length - if 10000 ≤ cache.entries.entries.length then 1 else 0 := by
  unfold room
  by_cases full : 10000 ≤ cache.entries.entries.length
  · obtain ⟨key, oldest⟩ := oldest_exists full
    obtain ⟨value, expires, stored, _⟩ := oldest_stored oldest
    have shorter := Dict.length_erase stored
    simp only [full, oldest, if_true]
    omega
  · simp [full]

theorem mem_evictions {cache : InMemoryPolicyCache α} {key : String} {value : α} {now : ℚ}
    {other : String} : other ∈ evictions cache key value now ↔
      10000 ≤ cache.entries.entries.length ∧ cache.oldest = some other ∧ other ≠ key := by
  simp only [evictions, List.mem_filter, Dict.contains, set_entries, Dict.get_set, get_room]
  constructor
  · rintro ⟨member, lost⟩
    by_cases same : other = key
    · simp [same] at lost
    · by_cases evicted : 10000 ≤ cache.entries.entries.length ∧ cache.oldest = some other
      · exact ⟨evicted.1, evicted.2, same⟩
      · obtain ⟨value', stored⟩ := Option.isSome_iff_exists.mp (Dict.mem_keys.mp member)
        simp [same, evicted, stored] at lost
  · rintro ⟨full, oldest, same⟩
    obtain ⟨value', expires, stored, _⟩ := oldest_stored oldest
    refine ⟨Dict.mem_keys.mpr ?_, by simp [same, full, oldest]⟩
    rw [Dict.contains, stored]
    rfl

theorem length_evictions (cache : InMemoryPolicyCache α) (key : String) (value : α) (now : ℚ) :
    (evictions cache key value now).length ≤ 1 := by
  have distinct : (evictions cache key value now).Nodup := cache.entries.nodup.filter _
  match found : evictions cache key value now with
  | [] => exact Nat.zero_le _
  | [_] => exact le_rfl
  | first :: second :: rest =>
    have left := (mem_evictions.mp (found ▸ List.mem_cons_self)).2.1
    have right := (mem_evictions.mp
      (found ▸ List.mem_cons_of_mem _ List.mem_cons_self : second ∈ _)).2.1
    rw [found, Option.some.inj (left.symm.trans right)] at distinct
    simp at distinct

namespace Session

/-- The cache holds what was stored last under each key and is not expired, and what it
has dropped has expired. -/
structure Tracked (s : Session α) : Prop where
  small : s.size ≤ 10000
  found : ∀ key value expires, s.cache.entries.get key = some (value, expires) →
    latest key s.history = some (value, expires - 300)
  missing : ∀ key value time, s.cache.entries.get key = none →
    latest key s.history = some (value, time) → time + 300 ≤ s.clock

theorem Tracked.get_iff {s : Session α} (tracked : s.Tracked) {key : String} {now : ℚ}
    (ordered : s.clock ≤ now) (value : α) : (s.cache.get key now).2 = some value ↔
      ∃ time, latest key s.history = some (value, time) ∧ now - time < 300 := by
  unfold InMemoryPolicyCache.get
  cases stored : s.cache.entries.get key with
  | none =>
    simp only [reduceCtorEq, false_iff, not_exists, not_and, not_lt]
    intro time last
    linarith [tracked.missing key value time stored last]
  | some entry =>
    obtain ⟨held, expires⟩ := entry
    simp only [tracked.found key held expires stored]
    by_cases expired : expires ≤ now
    · simp only [expired, if_true, reduceCtorEq, false_iff, not_exists, not_and, not_lt]
      rintro time ⟨⟩
      linarith
    · simp only [expired, if_false, Option.some.injEq, Prod.mk.injEq]
      constructor
      · rintro rfl
        exact ⟨expires - 300, ⟨rfl, rfl⟩, by linarith⟩
      · rintro ⟨time, ⟨same, _⟩, _⟩
        exact same

theorem get_entries (cache : InMemoryPolicyCache α) (key other : String) (now : ℚ) :
    (cache.get key now).1.entries.get other = cache.entries.get other ∨
      other = key ∧ (cache.get key now).1.entries.get other = none ∧
        ∀ value expires, cache.entries.get key = some (value, expires) → expires ≤ now := by
  unfold InMemoryPolicyCache.get
  cases stored : cache.entries.get key with
  | none => exact .inl rfl
  | some entry =>
    obtain ⟨value, expires⟩ := entry
    by_cases expired : expires ≤ now
    · by_cases same : other = key
      · refine .inr ⟨same, by simp [expired, Dict.get_erase, same], ?_⟩
        rintro value' expires' ⟨⟩
        exact expired
      · exact .inl (by simp [expired, Dict.get_erase, same])
    · exact .inl (by simp [expired])

theorem length_get (cache : InMemoryPolicyCache α) (key : String) (now : ℚ) :
    (cache.get key now).1.entries.entries.length ≤ cache.entries.entries.length := by
  unfold InMemoryPolicyCache.get
  split
  · exact le_rfl
  · split
    · exact List.length_filter_le _ _
    · exact le_rfl

theorem length_set {cache : InMemoryPolicyCache α} (small : cache.entries.entries.length ≤ 10000)
    (key : String) (value : α) (now : ℚ) :
    (cache.set key value now).entries.entries.length =
      if cache.entries.contains key then
        if cache.entries.entries.length = 10000 ∧ cache.oldest ≠ some key then 9999
        else cache.entries.entries.length
      else min (cache.entries.entries.length + 1) 10000 := by
  have kept : (room cache).contains key = (cache.entries.contains key &&
      !decide (10000 ≤ cache.entries.entries.length ∧ cache.oldest = some key)) := by
    simp only [Dict.contains, get_room]
    split
    next evicted => simp [evicted]
    next keeps => simp only [keeps, decide_false, Bool.not_false, Bool.and_true]
  have made := length_room cache
  rw [set_entries, ← Dict.length_keys, Dict.keys_set, kept]
  by_cases full : 10000 ≤ cache.entries.entries.length
  · have exact : cache.entries.entries.length = 10000 := le_antisymm small full
    cases present : cache.entries.contains key <;> by_cases first : cache.oldest = some key <;>
      simp [exact, first, made, Dict.length_keys]
  · have fewer : cache.entries.entries.length ≠ 10000 := fun same => full same.ge
    cases present : cache.entries.contains key with
    | true => simp [full, fewer, made, Dict.length_keys]
    | false =>
      simp only [full, made, Dict.length_keys, Bool.false_and, Bool.false_eq_true, if_false,
        List.length_append, List.length_singleton]
      omega

theorem tracked_get {s t : Session α} {key : String} {now : ℚ} (tracked : s.Tracked)
    (stepped : s.step (.get key now) = some t) : t.Tracked := by
  simp only [step, Option.ite_none_right_eq_some, Option.some.injEq] at stepped
  obtain ⟨ordered, rfl⟩ := stepped
  refine ⟨(length_get s.cache key now).trans tracked.small, ?_, ?_⟩
  · intro other value expires stored
    obtain same | ⟨_, gone, _⟩ := get_entries s.cache key other now
    · exact tracked.found other value expires (same ▸ stored)
    · cases gone.symm.trans stored
  · intro other value time missing last
    obtain same | ⟨rfl, _, expired⟩ := get_entries s.cache key other now
    · exact (tracked.missing other value time (same ▸ missing) last).trans ordered
    · cases stored : s.cache.entries.get other with
      | none => exact (tracked.missing other value time stored last).trans ordered
      | some entry =>
        obtain ⟨held, expires⟩ := entry
        have early := expired held expires stored
        cases (tracked.found other held expires stored).symm.trans last
        simpa using early

theorem tracked_set {s t : Session α} {key : String} {value : α} {now : ℚ} (tracked : s.Tracked)
    (stepped : s.step (.set key value now) = some t) : t.Tracked := by
  simp only [step, Option.ite_none_right_eq_some, Option.some.injEq] at stepped
  obtain ⟨ordered, rfl⟩ := stepped
  refine ⟨?_, ?_, ?_⟩
  · simp only [size, length_set tracked.small]
    have small := tracked.small
    unfold size at small
    split
    · split <;> omega
    · omega
  · intro other held expires stored
    rw [set_entries, Dict.get_set] at stored
    by_cases own : other = key
    · subst own
      simp only [if_true, Option.some.injEq, Prod.mk.injEq] at stored
      obtain ⟨rfl, rfl⟩ := stored
      simp [latest]
    · rw [if_neg own, get_room] at stored
      split at stored
      · cases stored
      next keeps =>
        have lost : other ∉ evictions s.cache key value now := fun member =>
          keeps ⟨(mem_evictions.mp member).1, (mem_evictions.mp member).2.1⟩
        rw [latest, if_neg (Ne.symm own), latest_evicted, if_neg lost]
        exact tracked.found other held expires stored
  · intro other held time missing last
    rw [set_entries, Dict.get_set] at missing
    by_cases own : other = key
    · simp [own] at missing
    · rw [if_neg own, get_room] at missing
      rw [latest, if_neg (Ne.symm own), latest_evicted] at last
      split at last
      · cases last
      next kept =>
        split at missing
        next evicted => exact absurd (mem_evictions.mpr ⟨evicted.1, evicted.2, own⟩) kept
        · exact (tracked.missing other held time missing last).trans ordered

theorem tracked_invalidate {s t : Session α} {pattern : Option String} (tracked : s.Tracked)
    (stepped : s.step (.invalidate pattern) = some t) : t.Tracked := by
  cases stepped
  refine ⟨(length_invalidate s.cache pattern).trans tracked.small, ?_, ?_⟩
  · intro key value expires stored
    rw [get_invalidate] at stored
    rw [latest_invalidated]
    split at stored
    · cases stored
    next kept =>
      rw [if_neg kept]
      exact tracked.found key value expires stored
  · intro key value time missing last
    rw [get_invalidate] at missing
    rw [latest_invalidated] at last
    split at last
    · cases last
    next kept =>
      rw [if_neg kept] at missing
      exact tracked.missing key value time missing last

theorem step_tracked {s t : Session α} {call : Call α} (tracked : s.Tracked)
    (stepped : s.step call = some t) : t.Tracked := by
  cases call with
  | get key now => exact tracked_get tracked stepped
  | set key value now => exact tracked_set tracked stepped
  | invalidate pattern => exact tracked_invalidate tracked stepped

theorem step_maxEntries {s t : Session α} {call : Call α} (stepped : s.step call = some t) :
    t.cache.maxEntries = s.cache.maxEntries := by
  cases call with
  | get key now =>
    simp only [step, Option.ite_none_right_eq_some, Option.some.injEq] at stepped
    obtain ⟨_, rfl⟩ := stepped
    simp only [InMemoryPolicyCache.get]
    split
    · rfl
    · split <;> rfl
  | set key value now =>
    simp only [step, Option.ite_none_right_eq_some, Option.some.injEq] at stepped
    obtain ⟨_, rfl⟩ := stepped
    rfl
  | invalidate pattern =>
    cases stepped
    cases pattern <;> rfl

theorem right_get {s : Session α} (tracked : s.Tracked) {past : List (Call α)} {key : String}
    {now : ℚ} (ordered : s.clock ≤ now) :
    Right past s (.get key now) ↔ Honoured past s (.get key now) := by
  simp only [Right, Honoured, tracked.get_iff ordered]
  constructor
  · intro right value time last
    have same := right value
    simpa [last] using same
  · intro honoured value
    refine exists_congr fun time => and_congr_right fun last => honoured value time last

theorem right_set {s : Session α} {past : List (Call α)} {key : String} {value : α} {now : ℚ} :
    Right past s (.set key value now) ↔ ∀ other, 10000 ≤ s.size → s.cache.oldest = some other →
      other ≠ key → s.cache.entries.get key = none ∧ (s.size : Int) = s.cache.maxEntries := by
  simp only [Right, length_evictions, true_and, mem_evictions]
  constructor
  · intro right other full oldest apart
    obtain ⟨fresh, exactly, _⟩ := right other ⟨full, oldest, apart⟩
    exact ⟨fresh, exactly⟩
  · rintro room other ⟨full, oldest, apart⟩
    obtain ⟨fresh, exactly⟩ := room other full oldest apart
    exact ⟨fresh, exactly, oldest_stored oldest⟩

/-- From a cache within its limit a call is right and stays within it where it honours
what the cache was configured for. -/
theorem step_decides {past : List (Call α)} {s t : Session α} {call : Call α}
    (tracked : s.Tracked) (bounded : s.Bounded) (stepped : s.step call = some t) :
    Right past s call ∧ t.Bounded ↔ Honoured past s call := by
  have limit := step_maxEntries stepped
  unfold Bounded at bounded ⊢
  cases call with
  | get key now =>
    simp only [step, Option.ite_none_right_eq_some, Option.some.injEq] at stepped
    obtain ⟨ordered, rfl⟩ := stepped
    rw [right_get tracked ordered]
    refine and_iff_left ?_
    have shorter := length_get s.cache key now
    simp only [size] at bounded ⊢
    simp only at limit
    omega
  | set key value now =>
    simp only [step, Option.ite_none_right_eq_some, Option.some.injEq] at stepped
    obtain ⟨_, rfl⟩ := stepped
    have grown := length_set tracked.small key value now
    have small := tracked.small
    rw [right_set, Honoured]
    simp only [size] at bounded small ⊢
    simp only at limit
    rw [limit, grown]
    cases present : s.cache.entries.contains key with
    | true =>
      obtain ⟨entry, stored⟩ := Option.isSome_iff_exists.mp present
      simp only [if_true, stored, reduceCtorEq, false_and]
      constructor
      · rintro ⟨never, _⟩ full
        obtain ⟨other, oldest⟩ := oldest_exists full.ge
        by_contra apart
        exact never other full.ge oldest fun same => apart (same ▸ oldest)
      · intro first
        refine ⟨fun other full oldest apart => ?_, by split <;> omega⟩
        exact apart (Option.some.inj (oldest.symm.trans (first (le_antisymm small full))))
    | false =>
      have missing : s.cache.entries.get key = none := by simpa [Dict.contains] using present
      simp only [Bool.false_eq_true, if_false, missing, true_and]
      constructor
      · rintro ⟨room, fits⟩
        refine ⟨fun full => ?_, by omega⟩
        obtain ⟨other, oldest⟩ := oldest_exists full.ge
        refine room other full.ge oldest ?_
        rintro rfl
        obtain ⟨_, _, stored, _⟩ := oldest_stored oldest
        cases missing.symm.trans stored
      · intro same
        exact ⟨fun other full _ _ => by omega, by omega⟩
  | invalidate pattern =>
    cases stepped
    have shorter := length_invalidate s.cache pattern
    simp only [Right, Honoured, true_and, iff_true, size] at bounded ⊢
    simp only at limit
    omega

/-- In a run the cache keeps to its limit and its lifetime exactly when every call honours
what it was configured for. -/
theorem right_iff_honoured {ttlSeconds maxEntries : Int} {clock : ℚ} {calls : List (Call α)}
    {s : Session α} (positive : 1 ≤ maxEntries)
    (ran : Trace.run step (start ttlSeconds maxEntries clock) calls = some s) :
    Trace.AllStates step Bounded (start ttlSeconds maxEntries clock : Session α) calls ∧
        Trace.EachStep step Right [] (start ttlSeconds maxEntries clock) calls ↔
      Trace.EachStep step Honoured [] (start ttlSeconds maxEntries clock) calls := by
  have empty : (start ttlSeconds maxEntries clock : Session α).Tracked := by
    refine ⟨Nat.zero_le _, ?_, ?_⟩
    · intro key value expires stored
      cases stored
    · intro key value time _ last
      cases last
  have bounded : (start ttlSeconds maxEntries clock : Session α).Bounded := by
    simp only [Bounded, start, size, Dict.empty, List.length_nil]
    omega
  exact Trace.allStates_and_eachStep_iff
    (fun _ _ _ _ tracked stepped => step_tracked tracked stepped)
    (fun _ _ _ _ tracked bounded stepped => step_decides tracked bounded stepped) empty bounded ran

/-- A run that asks and forgets well within 300 seconds, with the configured values of
the engine. -/
theorem right_iff_honoured_default :
    ∃ s : Session PyText.Payload, Trace.run step (start 300 10000 0)
        [.set "a" [] 0, .get "a" 100, .invalidate (some "a*"), .get "a" 120] = some s ∧
      (Trace.AllStates step Bounded (start 300 10000 0 : Session PyText.Payload)
          [.set "a" [] 0, .get "a" 100, .invalidate (some "a*"), .get "a" 120] ∧
        Trace.EachStep step Right [] (start 300 10000 0 : Session PyText.Payload)
          [.set "a" [] 0, .get "a" 100, .invalidate (some "a*"), .get "a" 120] ↔
        Trace.EachStep step Honoured [] (start 300 10000 0 : Session PyText.Payload)
          [.set "a" [] 0, .get "a" 100, .invalidate (some "a*"), .get "a" 120]) := by
  obtain ⟨s, ran⟩ : ∃ s : Session PyText.Payload, Trace.run step (start 300 10000 0)
      [.set "a" [] 0, .get "a" 100, .invalidate (some "a*"), .get "a" 120] = some s :=
    Option.isSome_iff_exists.mp (by decide +kernel)
  exact ⟨s, ran, right_iff_honoured (by decide) ran⟩

/-- A cache for one entry takes two. -/
theorem two_entries_of_one :
    ¬ (Trace.AllStates step Bounded (start 300 1 0 : Session PyText.Payload)
          [.set "a" [] 0, .set "b" [] 1] ∧
        Trace.EachStep step Right [] (start 300 1 0 : Session PyText.Payload)
          [.set "a" [] 0, .set "b" [] 1]) := by
  rintro ⟨all, _⟩
  have within : (2 : Int) ≤ 1 := (all.2 _ rfl).2 _ rfl
  cases within

end Session
end Kitematic.PolicyCache

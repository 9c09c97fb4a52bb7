import Kitematic.Dict
import Kitematic.ExtensionManifests
import Kitematic.Trace
import Mathlib.Data.Set.Function

/-! The artifact store of the marketplace. An artifact is kept under its truncated digest,
whichever extension stores or deletes it; the digest is a parameter. -/

namespace Kitematic.ArtifactStore
open Dictionary ExtensionManifests Trace

abbrev Bytes := List (Fin 256)

structure Metadata where
  manifestId : String
  version : String
  checksum : String
  deriving DecidableEq

structure InMemoryArtifactStore where
  artifacts : Dict String Bytes := .empty
  metadata : Dict String Metadata := .empty

section store
variable (sha256 : Bytes → String)

def artifactId (data : Bytes) : String := String.ofList ((sha256 data).toList.take 16)

namespace InMemoryArtifactStore

def store (s : InMemoryArtifactStore) (manifest : ExtensionManifest) (data : Bytes) :
    InMemoryArtifactStore × String :=
  let id := artifactId sha256 data
  (⟨s.artifacts.set id data,
    s.metadata.set id ⟨manifest.extensionId, manifest.version, sha256 data⟩⟩, id)

def retrieve (s : InMemoryArtifactStore) (id : String) : Option Bytes := s.artifacts.get id

def delete (s : InMemoryArtifactStore) (id : String) : InMemoryArtifactStore × Bool :=
  if s.artifacts.contains id then (⟨s.artifacts.erase id, s.metadata.erase id⟩, true)
  else (s, false)

def getMetadata (s : InMemoryArtifactStore) (id : String) : Option Metadata := s.metadata.get id

end InMemoryArtifactStore

inductive Call where
  | store (manifest : ExtensionManifest) (data : Bytes)
  /-- The extension that deletes is known to the caller only. -/
  | delete (extensionId : String) (id : String)

/-- The store, and what was stored and not deleted by its own extension since. -/
structure History where
  store : InMemoryArtifactStore := {}
  live : List (ExtensionManifest × Bytes) := []

def step (h : History) : Call → History
  | .store manifest data =>
      ⟨(h.store.store sha256 manifest data).1, h.live ++ [(manifest, data)]⟩
  | .delete extensionId id =>
      ⟨(h.store.delete id).1, h.live.filter fun stored =>
        ¬ (stored.1.extensionId = extensionId ∧ artifactId sha256 stored.2 = id)⟩

def take (h : History) (call : Call) : Option History := some (step sha256 h call)

/-- The artifact is there, under the name and version of the extension that stored it. -/
def Kept (s : InMemoryArtifactStore) (manifest : ExtensionManifest) (data : Bytes) : Prop :=
  s.retrieve (artifactId sha256 data) = some data ∧
    ∃ names, s.getMetadata (artifactId sha256 data) = some names ∧
      names.manifestId = manifest.extensionId ∧ names.version = manifest.version

def Intact (h : History) : Prop := ∀ stored ∈ h.live, Kept sha256 h.store stored.1 stored.2

/-- Nobody else's artifact is touched: what is stored is no live artifact of another
extension or version, and what is deleted is no live artifact of another extension. -/
def Clean (_past : List Call) (h : History) : Call → Prop
  | .store manifest data => ∀ stored ∈ h.live, stored.2 = data →
      stored.1.extensionId = manifest.extensionId ∧ stored.1.version = manifest.version
  | .delete extensionId id => ∀ stored ∈ h.live, artifactId sha256 stored.2 = id →
      stored.1.extensionId = extensionId

/-- The contents that a call brings in are among `contents`. -/
def Within (contents : Set Bytes) : Call → Prop
  | .store _ data => data ∈ contents
  | .delete _ _ => True

section steps
variable {sha256} {contents : Set Bytes} {h : History}

theorem kept_store (s : InMemoryArtifactStore) (manifest : ExtensionManifest) (data : Bytes) :
    Kept sha256 (s.store sha256 manifest data).1 manifest data := by
  refine ⟨Dict.get_set_self _ _ _, _, Dict.get_set_self _ _ _, rfl, rfl⟩

theorem kept_store_other {s : InMemoryArtifactStore} {manifest other : ExtensionManifest}
    {data data' : Bytes} (apart : artifactId sha256 data' ≠ artifactId sha256 data) :
    Kept sha256 (s.store sha256 manifest data).1 other data' ↔ Kept sha256 s other data' := by
  simp [Kept, InMemoryArtifactStore.retrieve, InMemoryArtifactStore.getMetadata,
    InMemoryArtifactStore.store, Dict.get_set, apart]

theorem kept_store_same {s : InMemoryArtifactStore} {manifest other : ExtensionManifest}
    {data : Bytes} : Kept sha256 (s.store sha256 manifest data).1 other data ↔
      other.extensionId = manifest.extensionId ∧ other.version = manifest.version := by
  simp [Kept, InMemoryArtifactStore.retrieve, InMemoryArtifactStore.getMetadata,
    InMemoryArtifactStore.store, eq_comm]

theorem kept_delete_other {s : InMemoryArtifactStore} {other : ExtensionManifest}
    {id : String} {data : Bytes} (apart : artifactId sha256 data ≠ id) :
    Kept sha256 (s.delete id).1 other data ↔ Kept sha256 s other data := by
  unfold InMemoryArtifactStore.delete
  split
  · simp [Kept, InMemoryArtifactStore.retrieve, InMemoryArtifactStore.getMetadata,
      Dict.get_erase, apart]
  · rfl

theorem not_kept_delete (s : InMemoryArtifactStore) (other : ExtensionManifest) (data : Bytes) :
    ¬ Kept sha256 (s.delete (artifactId sha256 data)).1 other data := by
  unfold InMemoryArtifactStore.delete
  intro kept
  split at kept
  · simp [Kept, InMemoryArtifactStore.retrieve, Dict.get_erase] at kept
  next missing =>
    have found : s.artifacts.get (artifactId sha256 data) = some data := kept.1
    simp [Dict.contains, found] at missing

theorem intact_store_iff (collisionFree : contents.InjOn (artifactId sha256))
    (within : ∀ stored ∈ h.live, stored.2 ∈ contents) {manifest : ExtensionManifest} {data : Bytes}
    (inside : data ∈ contents) (intact : Intact sha256 h) (past : List Call) :
    Intact sha256 (step sha256 h (.store manifest data)) ↔
      Clean sha256 past h (.store manifest data) := by
  simp only [Intact, step, List.mem_append, List.mem_singleton, Clean]
  constructor
  · rintro kept ⟨other, data'⟩ live rfl
    exact kept_store_same.mp (kept _ (.inl live))
  · rintro clean ⟨other, data'⟩ (live | new)
    · by_cases same : data' = data
      · subst same
        exact kept_store_same.mpr (clean _ live rfl)
      · refine (kept_store_other fun collide => same ?_).mpr (intact _ live)
        exact collisionFree (within _ live) inside collide
    · obtain ⟨rfl, rfl⟩ := Prod.mk.inj new
      exact kept_store _ _ _

theorem intact_delete_iff {extensionId id : String} (intact : Intact sha256 h)
    (past : List Call) : Intact sha256 (step sha256 h (.delete extensionId id)) ↔
      Clean sha256 past h (.delete extensionId id) := by
  simp only [Intact, step, List.mem_filter, Clean, decide_eq_true_eq]
  constructor
  · rintro kept stored live rfl
    by_contra other
    exact not_kept_delete _ _ _ (kept stored ⟨live, fun own => other own.1⟩)
  · rintro clean stored ⟨live, others⟩
    refine (kept_delete_other fun same => others ⟨clean stored live same, same⟩).mpr (intact _ live)

theorem within_step (within : ∀ stored ∈ h.live, stored.2 ∈ contents) {call : Call}
    (inside : Within contents call) :
    ∀ stored ∈ (step sha256 h call).live, stored.2 ∈ contents := by
  cases call with
  | store manifest data =>
    intro stored live
    rcases List.mem_append.mp live with old | new
    · exact within stored old
    · rw [List.mem_singleton.mp new]
      exact inside
  | delete extensionId id => exact fun stored live => within stored (List.mem_filter.mp live).1

end steps

/-- Where no two contents of a sequence of calls have one id, every artifact stays intact
until its own extension deletes it, after each call, if and only if every call is clean. -/
theorem artifacts_intact_iff {contents : Set Bytes}
    (collisionFree : contents.InjOn (artifactId sha256)) {calls : List Call}
    (within : ∀ call ∈ calls, Within contents call) :
    AllStates (take sha256) (Intact sha256) {} calls ↔
      EachStep (take sha256) (Clean sha256) [] {} calls := by
  have total : ∀ h call, ∃ next, take sha256 h call = some next := fun _ _ => ⟨_, rfl⟩
  obtain ⟨last, ran⟩ := run_isSome total {} calls
  refine allStates_iff_eachStep_of (Within contents)
    (I := fun _ h => ∀ stored ∈ h.live, stored.2 ∈ contents) ?_ ?_ within ?_ ?_ ran
  · intro past h call after inside held stepped
    obtain rfl : step sha256 h call = after := Option.some.inj stepped
    exact within_step held inside
  · intro past h call after inside held intact stepped
    obtain rfl : step sha256 h call = after := Option.some.inj stepped
    cases call with
    | store manifest data => exact intact_store_iff collisionFree held inside intact past
    | delete extensionId id => exact intact_delete_iff intact past
  · simp
  · simp [Intact]

end store

def sampleDigest (data : Bytes) : String :=
  if data = [] then "e3b0c44298fc1c149afbf4c8996fb92427ae41e4649b934ca495991b7852b855"
  else "ca978112ca1bbdcafac231b39a23dc4da786eff8147c4e72b9807785afee48bb"

def acme : ExtensionManifest := ⟨"acme-tools", "Tools", "1.0.0", "acme", ["tool.execute"]⟩
def globex : ExtensionManifest := ⟨"globex-tools", "Tools", "2.0.0", "globex", ["tool.execute"]⟩

theorem artifacts_intact_iff_two :
    AllStates (take sampleDigest) (Intact sampleDigest) {} [.store acme [], .store globex [97]] ↔
      EachStep (take sampleDigest) (Clean sampleDigest) [] {}
        [.store acme [], .store globex [97]] :=
  have collisionFree : ({[], [97]} : Set Bytes).InjOn (artifactId sampleDigest) := by
    rintro _ (rfl | rfl) _ (rfl | rfl) same
    · rfl
    · exact absurd same (by decide +kernel)
    · exact absurd same (by decide +kernel)
    · rfl
  artifacts_intact_iff sampleDigest collisionFree (by simp [Within])

/-- Two publishers store the same content: the first one's artifact bears the names of the
second, and when the first deletes it, the second one's is gone. -/
theorem shared_content_overwritten :
    Kept sampleDigest (step sampleDigest {} (.store acme [97])).store acme [97] ∧
    ((step sampleDigest (step sampleDigest {} (.store acme [97]))
      (.store globex [97])).store.getMetadata "ca978112ca1bbdca").map Metadata.manifestId =
        some "globex-tools" ∧
    (step sampleDigest (step sampleDigest (step sampleDigest {} (.store acme [97]))
      (.store globex [97])) (.delete "acme-tools" "ca978112ca1bbdca")).store.retrieve
        "ca978112ca1bbdca" = none ∧
    ¬ AllStates (take sampleDigest) (Intact sampleDigest) {}
      [.store acme [97], .store globex [97]] := by
  have named : ((step sampleDigest (step sampleDigest {} (.store acme [97]))
      (.store globex [97])).store.getMetadata "ca978112ca1bbdca").map Metadata.manifestId =
        some "globex-tools" := by decide +kernel
  refine ⟨kept_store _ _ _, named, by decide +kernel, fun all => ?_⟩
  have last : Intact sampleDigest (step sampleDigest (step sampleDigest {} (.store acme [97]))
      (.store globex [97])) := all.last rfl
  obtain ⟨_, names, found, mine, _⟩ := last (acme, [97]) (by simp [step])
  rw [show artifactId sampleDigest [97] = "ca978112ca1bbdca" by decide +kernel] at found
  rw [found, Option.map_some, mine] at named
  exact absurd (Option.some.inj named) (by decide +kernel)

end Kitematic.ArtifactStore

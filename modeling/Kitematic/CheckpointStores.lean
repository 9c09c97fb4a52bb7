import Kitematic.Checkpoint
import Mathlib.Data.Prod.Lex

/-! The two checkpoint repositories. One keeps a dictionary and an index of sets in
memory; the other keeps one file for each checkpoint and the index in a file of
its own, each put in place by writing a temporary file and renaming it. Deep
copies are the identity here, and ids are path-safe, so that a path is known by
its id. -/

namespace Kitematic.CheckpointStores
open Checkpoints Dictionary Json KeyOrder PyText

abbrev Index := Dict String (List String)

def addId (ids : List String) (id : String) : List String := if id ∈ ids then ids else ids ++ [id]

def indexed {δ : Type} (index : Index) (cp : Checkpoint δ) : Index :=
  index.set cp.executionId (addId ((index.get cp.executionId).getD []) cp.checkpointId)

abbrev SortKey := Int ×ₗ String

def SortKey.version (key : SortKey) : Int := (ofLex key).1

/-- `iterate` is the order in which a set is gone through. -/
structure InMemoryCheckpointRepository (δ : Type) where
  store : Dict String (Checkpoint δ) := .empty
  executionIndex : Index := .empty
  iterate : List String → List String := id
  iterate_perm : ∀ ids, (iterate ids).Perm ids := by exact fun ids => .refl ids

namespace InMemoryCheckpointRepository
variable {δ : Type} (repo : InMemoryCheckpointRepository δ)

def save (cp : Checkpoint δ) : InMemoryCheckpointRepository δ :=
  { repo with
    store := repo.store.set cp.checkpointId cp
    executionIndex := indexed repo.executionIndex cp }

def get (checkpointId : String) : Option (Checkpoint δ) := repo.store.get checkpointId

def key (cp : Checkpoint δ) : SortKey := toLex (cp.version, cp.checkpointId)

def gather (executionId : String) : Except PyError (List (Checkpoint δ)) :=
  (repo.iterate ((repo.executionIndex.get executionId).getD [])).mapM fun id =>
    match repo.store.get id with
    | some cp => .ok cp
    | none => .error (.keyError id)

def listByExecution (executionId : String) : Except PyError (List (Checkpoint δ)) :=
  (repo.gather executionId).map (sortBy key)

def getLatest (executionId : String) : Except PyError (Option (Checkpoint δ)) :=
  if ((repo.executionIndex.get executionId).getD []).isEmpty then .ok none
  else (repo.gather executionId).map (firstMax Checkpoint.version)

/-- A set is gone through in some order, so its checkpoints come in some order. -/
theorem gather_perm {executionId : String} (stored : ∀ id ∈
    (repo.executionIndex.get executionId).getD [], ∃ cp, repo.store.get id = some cp) :
    ∃ found, repo.gather executionId = .ok found ∧ found.Perm
      (((repo.executionIndex.get executionId).getD []).filterMap repo.store.get) := by
  have perm := repo.iterate_perm ((repo.executionIndex.get executionId).getD [])
  refine ⟨_, mapM_lookup (g := repo.store.get) fun id member => ?_, perm.filterMap _⟩
  obtain ⟨cp, found⟩ := stored id (perm.mem_iff.mp member)
  exact ⟨cp, found, by rw [found]⟩

end InMemoryCheckpointRepository

inductive Path where
  | checkpoint (checkpointId : String)
  | checkpointTmp (checkpointId : String)
  | index
  | indexTmp
  deriving DecidableEq

abbrev Disk (τ : Type) := Dict Path τ

def replace {τ : Type} (disk : Disk τ) (source target : Path) : Except PyError (Disk τ) :=
  match disk.get source with
  | none => .error .fileNotFoundError
  | some contents => .ok ((disk.erase source).set target contents)

theorem replace_of_get {τ : Type} {disk : Disk τ} {source : Path} {contents : τ}
    (stored : disk.get source = some contents) (target : Path) :
    ∃ disk', replace disk source target = .ok disk' ∧
      ∀ path, disk'.get path =
        if path = target then some contents else if path = source then none
        else disk.get path := by
  refine ⟨_, by rw [replace, stored], fun path => ?_⟩
  rw [Dict.get_set, Dict.get_erase]

def indexValue (index : Index) : Value :=
  .dict (index.entries.map fun e => (e.1, .list (e.2.map .str)))

def readIds : Value → Except PyError (List String)
  | .list items => items.mapM fun v =>
      match v with
      | .str s => .ok s
      | v => .error (.typeError v)
  | v => .error (.typeError v)

/-- The parsed index; what is not a dictionary of lists of strings is not followed
further than an exception, since no `save` writes such an index. -/
def readIndex : Value → Except PyError Index
  | .dict fields =>
      (fields.mapM fun e => (readIds e.2).map fun ids => (e.1, ids)).map Dict.ofList
  | v => .error (.typeError v)

namespace FileSystemCheckpointRepository
variable {τ δ : Type} (F : TextFormats τ δ) (disk : Disk τ)

def loadIndex : Except PyError Index :=
  match disk.get .index with
  | none => .ok .empty
  | some contents =>
      match F.load contents with
      | .ok v => readIndex v
      | .error (.jsonDecodeError _) => .ok .empty
      | .error e => .error e

/-- Each file is first written under its temporary name. -/
def writeCheckpoint (cp : Checkpoint δ) : Disk τ :=
  disk.set (.checkpointTmp cp.checkpointId) (F.dump (.dict (checkpointToDict F cp)))

def writeIndex (index : Index) : Disk τ := disk.set .indexTmp (F.dump (indexValue index))

def save (cp : Checkpoint δ) : Disk τ × Except PyError (Checkpoint δ) :=
  let written := writeCheckpoint F disk cp
  match replace written (.checkpointTmp cp.checkpointId) (.checkpoint cp.checkpointId) with
  | .error e => (written, .error e)
  | .ok placed =>
      match loadIndex F placed with
      | .error e => (placed, .error e)
      | .ok index =>
          let written := writeIndex F placed (indexed index cp)
          match replace written .indexTmp .index with
          | .error e => (written, .error e)
          | .ok disk => (disk, .ok cp)

def get (checkpointId : String) : Except PyError (Option (Loaded δ)) :=
  match disk.get (.checkpoint checkpointId) with
  | none => .ok none
  | some contents =>
      match (F.load contents).bind (dictToCheckpoint F) with
      | .ok cp => .ok (some cp)
      | .error (.jsonDecodeError _) | .error (.keyError _) | .error .fileNotFoundError => .ok none
      | .error e => .error e

/-- Versions and ids of other types are not compared here. -/
def sortKey (cp : Loaded δ) : Except PyError SortKey :=
  match cp.version, cp.checkpointId with
  | .int version, .str checkpointId => .ok (toLex (version, checkpointId))
  | .int _, checkpointId => .error (.typeError checkpointId)
  | version, _ => .error (.typeError version)

def keyed (found : List (Loaded δ)) : Except PyError (List (SortKey × Loaded δ)) :=
  found.mapM fun cp => (sortKey cp).map fun key => (key, cp)

def listByExecution (executionId : String) : Except PyError (List (Loaded δ)) := do
  let index ← loadIndex F disk
  let found ← ((index.get executionId).getD []).mapM (get F disk)
  let keyed ← keyed (found.filterMap id)
  return (sortBy Prod.fst keyed).map Prod.snd

def getLatest (executionId : String) : Except PyError (Option (Loaded δ)) := do
  let found ← listByExecution F disk executionId
  let keyed ← keyed found
  return (firstMax (fun e => e.1.version) keyed).map Prod.snd

end FileSystemCheckpointRepository

/-! The index file gives the index back, with its keys in sorted order. -/

def sortedIndex (index : Index) : Index :=
  ⟨sortKeys index.entries, ((List.perm_insertionSort ..).map Prod.fst).nodup_iff.mpr index.nodup⟩

@[simp] theorem get_sortedIndex (index : Index) (executionId : String) :
    (sortedIndex index).get executionId = index.get executionId :=
  Dict.lookup_perm index.nodup (List.perm_insertionSort ..) executionId

private theorem canonical_ids (ids : List String) :
    canonicalItems (ids.map .str) = ids.map .str := by
  rw [canonicalItems_eq_map, List.map_map]
  rfl

theorem native_indexValue (index : Index) : Native (indexValue index) := by
  refine ⟨?_, nativeFields_iff.mpr (List.forall_mem_map.mpr fun e _ => ?_)⟩
  · rw [List.map_map]
    exact index.nodup
  · exact nativeItems_iff.mpr (List.forall_mem_map.mpr fun _ _ => trivial)

theorem canonical_indexValue (index : Index) :
    canonical (indexValue index) = indexValue (sortedIndex index) := by
  have swap := List.map_insertionSort (fun a b : String × List String => a.1 ≤ b.1)
    (fun a b : String × Value => a.1 ≤ b.1) (fun e => (e.1, Value.list (e.2.map .str)))
    index.entries fun _ _ _ _ => Iff.rfl
  simp only [indexValue, canonical, canonicalFields_eq_map, List.map_map, Function.comp_def,
    canonical_ids]
  exact congrArg Value.dict swap.symm

theorem readIndex_indexValue (index : Index) : readIndex (indexValue index) = .ok index := by
  have ids : ∀ ids : List String, readIds (.list (ids.map .str)) = .ok ids := by
    intro ids
    rw [readIds, List.mapM_map]
    exact (mapM_eq_ok (g := id) fun _ _ => rfl).trans (congrArg _ (List.map_id ids))
  have entries : (index.entries.map fun e => (e.1, Value.list (e.2.map .str))).mapM
      (fun e => (readIds e.2).map fun ids => (e.1, ids)) = .ok index.entries := by
    rw [List.mapM_map]
    refine (mapM_eq_ok (g := id) fun e _ => ?_).trans (congrArg _ (List.map_id index.entries))
    simp only [Function.comp_apply, ids]
    rfl
  rw [indexValue, readIndex, entries]
  exact congrArg Except.ok index.ofList_self

namespace FileSystemCheckpointRepository
variable {τ δ : Type} (F : TextFormats τ δ) {disk : Disk τ}

theorem loadIndex_dumped {index : Index}
    (stored : disk.get .index = some (F.dump (indexValue index))) :
    loadIndex F disk = .ok (sortedIndex index) := by
  simp only [loadIndex, stored, F.load_dump _ (native_indexValue index), canonical_indexValue,
    readIndex_indexValue]

theorem get_dumped {cp : Checkpoint δ} (native : cp.IsNative) {id : String}
    (stored : disk.get (.checkpoint id) = some (F.dump (.dict (checkpointToDict F cp)))) :
    get F disk id = .ok (some cp.sorted.untyped) := by
  simp only [get, stored, load_checkpoint F cp native]

theorem loadIndex_congr {disk' : Disk τ} (same : disk'.get .index = disk.get .index) :
    loadIndex F disk' = loadIndex F disk := by
  simp only [loadIndex, same]

theorem place_checkpoint (disk : Disk τ) (cp : Checkpoint δ) :
    ∃ placed, replace (writeCheckpoint F disk cp) (.checkpointTmp cp.checkpointId)
        (.checkpoint cp.checkpointId) = .ok placed ∧
      ∀ path, placed.get path =
        if path = .checkpoint cp.checkpointId then
          some (F.dump (.dict (checkpointToDict F cp)))
        else if path = .checkpointTmp cp.checkpointId then none else disk.get path := by
  obtain ⟨placed, moved, files⟩ := replace_of_get
    (disk.get_set_self (.checkpointTmp cp.checkpointId) (F.dump (.dict (checkpointToDict F cp))))
    (.checkpoint cp.checkpointId)
  refine ⟨placed, moved, fun path => ?_⟩
  rw [files, Dict.get_set]
  split_ifs <;> rfl

theorem place_index (disk : Disk τ) (index : Index) :
    ∃ placed, replace (writeIndex F disk index) .indexTmp .index = .ok placed ∧
      ∀ path, placed.get path =
        if path = .index then some (F.dump (indexValue index))
        else if path = .indexTmp then none else disk.get path := by
  obtain ⟨placed, moved, files⟩ := replace_of_get
    (disk.get_set_self .indexTmp (F.dump (indexValue index))) .index
  refine ⟨placed, moved, fun path => ?_⟩
  rw [files, Dict.get_set]
  split_ifs <;> rfl

/-- A `save` renames two files it has just written, so only an unreadable index stops it. -/
theorem save_of_loadIndex {index : Index} (cp : Checkpoint δ)
    (loaded : loadIndex F disk = .ok index) :
    (save F disk cp).2 = .ok cp ∧
      ∀ path, (save F disk cp).1.get path =
        if path = .index then some (F.dump (indexValue (indexed index cp)))
        else if path = .indexTmp then none
        else if path = .checkpoint cp.checkpointId then
          some (F.dump (.dict (checkpointToDict F cp)))
        else if path = .checkpointTmp cp.checkpointId then none
        else disk.get path := by
  obtain ⟨placed, moved, files⟩ := place_checkpoint F disk cp
  obtain ⟨done, moved', files'⟩ := place_index F placed (indexed index cp)
  have reloaded : loadIndex F placed = .ok index :=
    (loadIndex_congr F (by simp [files])).trans loaded
  simp only [save, moved, reloaded, moved', true_and]
  intro path
  rw [files', files]

theorem get_checkpoint_save (disk : Disk τ) (cp : Checkpoint δ) (id : String) :
    (save F disk cp).1.get (.checkpoint id) =
      if id = cp.checkpointId then some (F.dump (.dict (checkpointToDict F cp)))
      else disk.get (.checkpoint id) := by
  obtain ⟨placed, moved, files⟩ := place_checkpoint F disk cp
  have inPlace : placed.get (.checkpoint id) =
      if id = cp.checkpointId then some (F.dump (.dict (checkpointToDict F cp)))
      else disk.get (.checkpoint id) := by
    simp [files]
  cases loaded : loadIndex F placed with
  | error e => simp only [save, moved, loaded, inPlace]
  | ok index =>
    obtain ⟨done, moved', files'⟩ := place_index F placed (indexed index cp)
    simp [save, moved, loaded, moved', files', inPlace]

end FileSystemCheckpointRepository

end Kitematic.CheckpointStores

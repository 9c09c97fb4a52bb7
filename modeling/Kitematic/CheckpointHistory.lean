import Kitematic.CheckpointStores

/-! What a checkpoint repository is for: it keeps the history of the checkpoints saved,
each under an id of its own. Both repositories keep a history, and every answer is
a function of the history they keep. -/

namespace Kitematic.CheckpointHistory
open CheckpointStores Checkpoints Dictionary Json KeyOrder PyText

abbrev History (δ : Type) := List (Checkpoint δ)

section history
variable {δ : Type}

def find (h : History δ) (checkpointId : String) : Option (Checkpoint δ) :=
  h.find? fun cp => cp.checkpointId = checkpointId

def own (h : History δ) (executionId : String) : History δ :=
  h.filter fun cp => cp.executionId = executionId

def DistinctIds (h : History δ) : Prop := (h.map Checkpoint.checkpointId).Nodup

def DistinctVersions (h : History δ) : Prop :=
  ∀ executionId, ((own h executionId).map Checkpoint.version).Nodup

def Fresh (h : History δ) (cp : Checkpoint δ) : Prop :=
  cp.checkpointId ∉ h.map Checkpoint.checkpointId

def listed (h : History δ) (executionId : String) : List (Checkpoint δ) :=
  sortBy InMemoryCheckpointRepository.key (own h executionId)

def latest (h : History δ) (executionId : String) : Option (Checkpoint δ) :=
  firstMax Checkpoint.version (own h executionId)

def Indexes (index : Index) (h : History δ) : Prop :=
  ∀ executionId, (index.get executionId).getD [] =
    (own h executionId).map Checkpoint.checkpointId

theorem find_append {h : History δ} {cp : Checkpoint δ} (fresh : Fresh h cp) (id : String) :
    find (h ++ [cp]) id = if id = cp.checkpointId then some cp else find h id := by
  have missing : find h cp.checkpointId = none := by
    refine List.find?_eq_none.mpr fun other member same => fresh ?_
    exact List.mem_map.mpr ⟨other, member, of_decide_eq_true same⟩
  unfold find at missing ⊢
  rw [List.find?_append]
  by_cases same : id = cp.checkpointId
  · simp [same, missing]
  · simp [same, Ne.symm same]

theorem find_cons (cp : Checkpoint δ) (h : History δ) (id : String) :
    find (cp :: h) id = if id = cp.checkpointId then some cp else find h id := by
  unfold find
  rw [List.find?_cons]
  by_cases same : id = cp.checkpointId
  · simp [same]
  · simp [same, Ne.symm same]

theorem find_isSome {h : History δ} {cp : Checkpoint δ} (member : cp ∈ h) :
    ∃ inPlace, find h cp.checkpointId = some inPlace ∧
      inPlace.checkpointId = cp.checkpointId := by
  have found : (find h cp.checkpointId).isSome = true :=
    List.find?_isSome.mpr ⟨cp, member, decide_eq_true rfl⟩
  obtain ⟨inPlace, here⟩ := Option.isSome_iff_exists.mp found
  exact ⟨inPlace, here, by simpa using List.find?_some here⟩

theorem DistinctIds.append {h : History δ} {cp : Checkpoint δ} (distinct : DistinctIds h)
    (fresh : Fresh h cp) : DistinctIds (h ++ [cp]) := by
  rw [DistinctIds, List.map_append]
  refine List.nodup_append.mpr ⟨distinct, List.nodup_singleton _, fun a inside b last same => ?_⟩
  exact fresh (List.mem_singleton.mp last ▸ same ▸ inside)

theorem own_append (h : History δ) (cp : Checkpoint δ) (executionId : String) :
    own (h ++ [cp]) executionId =
      own h executionId ++ if cp.executionId = executionId then [cp] else [] := by
  unfold own
  rw [List.filter_append]
  by_cases same : cp.executionId = executionId <;> simp [same]

theorem find_of_mem {h : History δ} (distinct : DistinctIds h) {cp : Checkpoint δ}
    (member : cp ∈ h) : find h cp.checkpointId = some cp := by
  obtain ⟨other, found, same⟩ := find_isSome member
  rw [found, List.inj_on_of_nodup_map distinct (List.mem_of_find?_eq_some found) member same]

theorem mem_of_find {h : History δ} {id : String} {cp : Checkpoint δ}
    (found : find h id = some cp) : cp ∈ h :=
  List.mem_of_find?_eq_some found

theorem mem_own_of_latest {h : History δ} {executionId : String} {cp : Checkpoint δ}
    (best : latest h executionId = some cp) : cp ∈ own h executionId :=
  (firstMax_spec best).1

theorem mem_of_own {h : History δ} {executionId : String} {cp : Checkpoint δ}
    (member : cp ∈ own h executionId) : cp ∈ h :=
  (List.mem_filter.mp member).1

theorem indexes_empty : Indexes .empty ([] : History δ) := fun _ => rfl

theorem indexes_indexed {index : Index} {h : History δ} {cp : Checkpoint δ}
    (indexes : Indexes index h) (fresh : Fresh h cp) : Indexes (indexed index cp) (h ++ [cp]) := by
  intro executionId
  have added : addId ((own h cp.executionId).map Checkpoint.checkpointId) cp.checkpointId =
      (own h cp.executionId).map Checkpoint.checkpointId ++ [cp.checkpointId] := by
    refine if_neg fun member => fresh ?_
    exact (List.filter_sublist.map _).subset member
  rw [indexed, indexes, added, Dict.get_set, own_append]
  by_cases same : executionId = cp.executionId
  · subst same
    simp
  · simp [same, Ne.symm same, indexes executionId]

theorem distinct_keys {h : History δ} (distinct : DistinctIds h) (executionId : String) :
    ((own h executionId).map InMemoryCheckpointRepository.key).Nodup := by
  refine List.Nodup.of_map (fun key : SortKey => (ofLex key).2) ?_
  rw [List.map_map]
  exact distinct.sublist (List.filter_sublist.map _)

end history

/-! The repository in memory. -/

namespace InMemory
variable {δ : Type}

structure Keeps (repo : InMemoryCheckpointRepository δ) (h : History δ) : Prop where
  store : ∀ id, repo.get id = find h id
  index : Indexes repo.executionIndex h

variable {repo : InMemoryCheckpointRepository δ} {h : History δ} {cp : Checkpoint δ}

theorem keeps_save (keeps : Keeps repo h) (fresh : Fresh h cp) :
    Keeps (repo.save cp) (h ++ [cp]) := by
  refine ⟨fun id => ?_, indexes_indexed keeps.index fresh⟩
  have before := keeps.store id
  rw [find_append fresh, ← before]
  exact repo.store.get_set cp.checkpointId id cp

theorem gather_perm (keeps : Keeps repo h) (distinct : DistinctIds h) (executionId : String) :
    ∃ found, repo.gather executionId = .ok found ∧ found.Perm (own h executionId) := by
  have stored : ∀ cp ∈ own h executionId, repo.store.get cp.checkpointId = some cp :=
    fun cp member => (keeps.store _).trans (find_of_mem distinct (mem_of_own member))
  have listed : ∀ id ∈ (repo.executionIndex.get executionId).getD [],
      ∃ cp, repo.store.get id = some cp := by
    rw [keeps.index]
    exact List.forall_mem_map.mpr fun cp member => ⟨cp, stored cp member⟩
  obtain ⟨found, gathered, perm⟩ := repo.gather_perm listed
  refine ⟨found, gathered, perm.trans ?_⟩
  rw [keeps.index, List.filterMap_map]
  refine .of_eq ?_
  calc (own h executionId).filterMap (repo.store.get ∘ Checkpoint.checkpointId)
      = (own h executionId).filterMap some :=
        List.filterMap_congr fun cp member => stored cp member
    _ = own h executionId := List.filterMap_some

theorem listByExecution_eq (keeps : Keeps repo h) (distinct : DistinctIds h)
    (executionId : String) : repo.listByExecution executionId = .ok (listed h executionId) := by
  obtain ⟨found, gathered, perm⟩ := gather_perm keeps distinct executionId
  rw [InMemoryCheckpointRepository.listByExecution, gathered]
  exact congrArg Except.ok (sortBy_eq_of_perm perm (distinct_keys distinct executionId))

theorem getLatest_eq (keeps : Keeps repo h) (distinct : DistinctIds h) {executionId : String}
    (versions : ((own h executionId).map Checkpoint.version).Nodup) :
    repo.getLatest executionId = .ok (latest h executionId) := by
  obtain ⟨found, gathered, perm⟩ := gather_perm keeps distinct executionId
  rw [InMemoryCheckpointRepository.getLatest, keeps.index, gathered]
  split
  next empty =>
    rw [List.isEmpty_iff, List.map_eq_nil_iff] at empty
    rw [latest, empty]
    rfl
  · exact congrArg Except.ok (firstMax_eq_of_perm perm versions)

end InMemory

/-! The repository in files. -/

namespace FileSystem
open FileSystemCheckpointRepository
variable {τ δ : Type} (F : TextFormats τ δ)

structure Keeps (disk : Disk τ) (h : History δ) : Prop where
  files : ∀ id, disk.get (.checkpoint id) =
    (find h id).map fun cp => F.dump (.dict (checkpointToDict F cp))
  index : ∃ index, loadIndex F disk = .ok index ∧ Indexes index h

def readBack (cp : Checkpoint δ) : Loaded δ := cp.sorted.untyped

theorem keeps_empty : Keeps F .empty [] := ⟨fun _ => rfl, .empty, rfl, indexes_empty⟩

variable {disk : Disk τ} {h : History δ} {cp : Checkpoint δ}

theorem keeps_save (keeps : Keeps F disk h) (fresh : Fresh h cp) :
    (save F disk cp).2 = .ok cp ∧ Keeps F (save F disk cp).1 (h ++ [cp]) := by
  obtain ⟨index, loaded, indexes⟩ := keeps.index
  obtain ⟨answer, files⟩ := save_of_loadIndex F cp loaded
  refine ⟨answer, fun id => ?_, sortedIndex (indexed index cp), ?_, fun executionId => ?_⟩
  · rw [get_checkpoint_save, find_append fresh, keeps.files]
    split <;> rfl
  · exact loadIndex_dumped F (by simp [files])
  · rw [get_sortedIndex]
    exact indexes_indexed indexes fresh executionId

theorem get_eq (keeps : Keeps F disk h) (native : ∀ cp ∈ h, cp.IsNative) (id : String) :
    get F disk id = .ok ((find h id).map readBack) := by
  have stored := keeps.files id
  cases found : find h id with
  | none =>
    rw [found] at stored
    simp only [FileSystemCheckpointRepository.get, stored, Option.map_none]
  | some cp =>
    rw [found] at stored
    exact get_dumped F (native cp (mem_of_find found)) stored

theorem keyed_readBack (items : List (Checkpoint δ)) :
    keyed (items.map readBack) =
      .ok (items.map fun cp => (InMemoryCheckpointRepository.key cp, readBack cp)) := by
  rw [keyed, List.mapM_map]
  exact mapM_eq_ok fun _ _ => rfl

theorem listByExecution_of_ids {index : Index} {executionId : String}
    {cps : List (Checkpoint δ)} (loaded : loadIndex F disk = .ok index)
    (ids : (index.get executionId).getD [] = cps.map Checkpoint.checkpointId)
    (stored : ∀ cp ∈ cps,
      FileSystemCheckpointRepository.get F disk cp.checkpointId = .ok (some (readBack cp))) :
    listByExecution F disk executionId =
      .ok ((sortBy InMemoryCheckpointRepository.key cps).map readBack) := by
  have found : (cps.map Checkpoint.checkpointId).mapM (get F disk) =
      .ok (cps.map fun cp => some (readBack cp)) := by
    rw [List.mapM_map]
    exact mapM_eq_ok stored
  have present : (cps.map fun cp => some (readBack cp)).filterMap id = cps.map readBack := by
    rw [List.filterMap_map, ← List.filterMap_eq_map]
    rfl
  simp only [listByExecution, loaded, ids, bind, Except.bind, found, present, keyed_readBack,
    sortBy_map, List.map_map]
  rfl

theorem listByExecution_eq (keeps : Keeps F disk h) (native : ∀ cp ∈ h, cp.IsNative)
    (distinct : DistinctIds h) (executionId : String) :
    listByExecution F disk executionId = .ok ((listed h executionId).map readBack) := by
  obtain ⟨index, loaded, indexes⟩ := keeps.index
  refine listByExecution_of_ids F loaded (indexes executionId) fun cp member => ?_
  rw [get_eq F keeps native, find_of_mem distinct (mem_of_own member)]
  rfl

theorem getLatest_eq (keeps : Keeps F disk h) (native : ∀ cp ∈ h, cp.IsNative)
    (distinct : DistinctIds h) {executionId : String}
    (versions : ((own h executionId).map Checkpoint.version).Nodup) :
    getLatest F disk executionId = .ok ((latest h executionId).map readBack) := by
  have order := firstMax_eq_of_perm (sortBy_perm InMemoryCheckpointRepository.key
    (own h executionId)) versions
  simp only [getLatest, listByExecution_eq F keeps native distinct, bind, Except.bind,
    keyed_readBack, firstMax_map, Option.map_map]
  rw [latest, ← order]
  rfl

end FileSystem
end Kitematic.CheckpointHistory

import Kitematic.CheckpointHistory
import Kitematic.CheckpointPaths

/-! The repository by ids is what the files by paths amount to, for plain ids with no directory
in their way. -/

namespace Kitematic.StorePaths
open CheckpointFiles CheckpointHistory CheckpointPaths CheckpointStores Checkpoints Dictionary FallibleOrder
  FilePaths KeyOrder

def filePath (S : Surroundings) (checkpointId : String) : FilePath :=
  S.checkpointsDir ++ [checkpointId.toList ++ ".json".toList]

/-- The id is one name, and nothing keeps its file and its temporary file from their places. -/
structure Usable (S : Surroundings) (checkpointId : String) : Prop where
  plain : Plain checkpointId
  dest : S.dest checkpointId = some (filePath S checkpointId)
  tmp : ∃ source, S.tmp checkpointId = some source

structure Represents {τ : Type} (S : Surroundings) (files : FileState τ) (disk : Disk τ) :
    Prop where
  index : files.get S.indexPath = disk.get .index
  checkpoints : ∀ id, Usable S id → files.get (filePath S id) = disk.get (.checkpoint id)

section refinement
variable {τ δ : Type} {F : TextFormats τ δ} {S : Surroundings} {files : FileState τ}
  {disk : Disk τ} {index : Index} {cp : Checkpoint δ} {id executionId : String}

theorem usable_of_free (plain : Plain id) (file : S.isDir (filePath S id) = false)
    (tmp : S.isDir (S.checkpointsDir ++ [tmpName id.toList]) = false) : Usable S id := by
  have here := checkpointPath_plain (S := S) plain
  refine ⟨plain, ?_, S.checkpointsDir ++ [tmpName id.toList], ?_⟩
  · rw [Surroundings.dest, here, ← List.nil_append [_], locate_snoc]
    exact if_neg (Bool.eq_false_iff.mp file)
  · rw [Surroundings.tmp, here, ← List.nil_append [_], withSuffix_snoc, swapSuffix_json,
      locate_snoc]
    exact if_neg (Bool.eq_false_iff.mp tmp)

theorem represents_empty : Represents S ({} : FileState τ) .empty := ⟨rfl, fun _ _ => rfl⟩

theorem filePath_inj {id' : String} (same : filePath S id = filePath S id') : id = id' := by
  have names := List.singleton_inj.mp (List.append_cancel_left same)
  exact String.toList_injective (List.append_cancel_right names)

theorem get_represents (represents : Represents S files disk) (usable : Usable S id) :
    CheckpointFiles.get F S files id = FileSystemCheckpointRepository.get F disk id := by
  simp only [CheckpointFiles.get, usable.dest, Option.bind_some, represents.checkpoints id usable,
    FileSystemCheckpointRepository.get]
  cases disk.get (.checkpoint id) <;> rfl

theorem loadIndex_represents (represents : Represents S files disk)
    (loaded : loadIndex F S {} files = .ok (indexValue index)) :
    FileSystemCheckpointRepository.loadIndex F disk = .ok index := by
  simp only [loadIndex, represents.index, Bool.false_eq_true, if_false] at loaded
  unfold FileSystemCheckpointRepository.loadIndex
  cases stored : disk.get .index with
  | none =>
    simp only [stored, Except.ok.injEq] at loaded
    exact (congrArg readIndex loaded).trans (readIndex_indexValue index)
  | some contents =>
    simp only [stored] at loaded ⊢
    cases read : F.load contents with
    | ok v =>
      simp only [read, Except.ok.injEq] at loaded
      simp only [loaded, readIndex_indexValue]
    | error e =>
      cases e with
      | jsonDecodeError text =>
        simp only [read, Except.ok.injEq] at loaded
        exact (congrArg readIndex loaded).trans (readIndex_indexValue index)
      | _ => simp [read] at loaded

theorem save_represents (represents : Represents S files disk) (usable : Usable S cp.checkpointId)
    (loaded : loadIndex F S {} files = .ok (indexValue index)) :
    (save F S {} files cp).2 = (FileSystemCheckpointRepository.save F disk cp).2 ∧
      Represents S (save F S {} files cp).1 (FileSystemCheckpointRepository.save F disk cp).1 ∧
        loadIndex F S {} (save F S {} files cp).1 =
          .ok (indexValue (sortedIndex (indexed index cp))) := by
  obtain ⟨source, written⟩ := usable.tmp
  have other : filePath S cp.checkpointId ≠ S.indexPath :=
    fun named => dest_plain_ne_index usable.plain (named ▸ usable.dest)
  obtain ⟨answer, _, byPath⟩ := save_located F S written usable.dest other loaded
  obtain ⟨answer', byId⟩ := FileSystemCheckpointRepository.save_of_loadIndex F cp
    (loadIndex_represents represents loaded)
  refine ⟨answer.trans answer'.symm, ⟨?_, fun id kept => ?_⟩, loadIndex_written F S ?_⟩
  · rw [byPath, byId, if_pos rfl, if_pos rfl]
  · have notIndex : filePath S id ≠ S.indexPath :=
      fun named => dest_plain_ne_index kept.plain (named ▸ kept.dest)
    rw [byPath, byId, if_neg notIndex, if_neg (S.indexTmp_ne_dest kept.dest).symm,
      if_neg (S.tmp_ne_dest written kept.dest).symm, represents.checkpoints id kept]
    by_cases same : id = cp.checkpointId
    · simp [same, textOf]
    · have apart : filePath S id ≠ filePath S cp.checkpointId := fun here => same (filePath_inj here)
      simp [same, apart]
  · rw [byPath, if_pos rfl]

/-- In every run of saves the files by paths are those by ids. -/
theorem run_represents {cps : List (Checkpoint δ)}
    (usable : ∀ cp ∈ cps, Usable S cp.checkpointId) (represents : Represents S files disk)
    (loaded : loadIndex F S {} files = .ok (indexValue index)) :
    Represents S (cps.foldl (fun files cp => (save F S {} files cp).1) files)
      (cps.foldl (fun disk cp => (FileSystemCheckpointRepository.save F disk cp).1) disk) := by
  induction cps generalizing files disk index with
  | nil => exact represents
  | cons cp cps ih =>
    obtain ⟨_, next, reloaded⟩ :=
      save_represents represents (usable cp List.mem_cons_self) loaded
    exact ih (fun later member => usable later (List.mem_cons_of_mem _ member)) next reloaded

theorem listByExecution_represents {cps : List (Checkpoint δ)}
    (represents : Represents S files disk)
    (loaded : loadIndex F S {} files = .ok (indexValue index))
    (ids : (index.get executionId).getD [] = cps.map Checkpoint.checkpointId)
    (stored : ∀ cp ∈ cps, Usable S cp.checkpointId ∧
      CheckpointFiles.get F S files cp.checkpointId = .ok (some (FileSystem.readBack cp))) :
    listByExecution F S files executionId =
      FileSystemCheckpointRepository.listByExecution F disk executionId := by
  have byId := FileSystem.listByExecution_of_ids F (loadIndex_represents represents loaded) ids
    fun cp member => (get_represents represents (stored cp member).1).symm.trans
      (stored cp member).2
  have found : gather F S files executionId = .ok (cps.map FileSystem.readBack) := by
    have gets : (cps.map Checkpoint.checkpointId).mapM (CheckpointFiles.get F S files) =
        .ok (cps.map fun cp => some (FileSystem.readBack cp)) := by
      rw [List.mapM_map]
      exact mapM_eq_ok fun cp member => (stored cp member).2
    rw [gather_eq F S loaded, ids, gets]
    simp [Except.map, List.filterMap_map]
  rw [byId, listByExecution, found, Except.bind, sortM_map,
    sortM_eq fun a _ b _ => lessKey_untyped a.sorted b.sorted]
  rfl

end refinement

end Kitematic.StorePaths

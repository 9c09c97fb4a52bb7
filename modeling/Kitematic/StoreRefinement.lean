import Kitematic.CheckpointHistory
import Mathlib.Data.List.Forall2

/-! The file-system repository refines the one in memory: one client that calls both in
turn gets equal answers, wherever the repository object over the directory is made
anew. Both answer from the history they keep. -/

namespace Kitematic.StoreRefinement
open CheckpointHistory CheckpointStores Checkpoints Json

/-- The calls of a client; `reopen` makes a new repository object. -/
inductive Call (δ : Type) where
  | save (cp : Checkpoint δ)
  | get (checkpointId : String)
  | listByExecution (executionId : String)
  | getLatest (executionId : String)
  | reopen

inductive Answer (α : Type) where
  | stored (cp : α)
  | found (cp : Option α)
  | listed (cps : List α)
  | reopened

variable {τ δ : Type}

def inMemory (repo : InMemoryCheckpointRepository δ) :
    Call δ → InMemoryCheckpointRepository δ × Except PyError (Answer (Checkpoint δ))
  | .save cp => (repo.save cp, .ok (.stored cp))
  | .get checkpointId => (repo, .ok (.found (repo.get checkpointId)))
  | .listByExecution executionId => (repo, (repo.listByExecution executionId).map .listed)
  | .getLatest executionId => (repo, (repo.getLatest executionId).map .found)
  | .reopen => (repo, .ok .reopened)

/-- The object holds nothing but paths, so making it anew changes nothing. -/
def fileSystem (F : TextFormats τ δ) (disk : Disk τ) :
    Call δ → Disk τ × Except PyError (Answer (Loaded δ))
  | .save cp =>
      let (disk, answer) := FileSystemCheckpointRepository.save F disk cp
      (disk, answer.map fun cp => .stored cp.untyped)
  | .get checkpointId =>
      (disk, (FileSystemCheckpointRepository.get F disk checkpointId).map .found)
  | .listByExecution executionId =>
      (disk, (FileSystemCheckpointRepository.listByExecution F disk executionId).map .listed)
  | .getLatest executionId =>
      (disk, (FileSystemCheckpointRepository.getLatest F disk executionId).map .found)
  | .reopen => (disk, .ok .reopened)

def answers {σ ω : Type} (serve : σ → Call δ → σ × ω) : σ → List (Call δ) → List ω
  | _, [] => []
  | s, call :: calls => (serve s call).2 :: answers serve (serve s call).1 calls

def Call.saved : Call δ → Option (Checkpoint δ)
  | .save cp => some cp
  | _ => none

def saves (calls : List (Call δ)) : History δ := calls.filterMap Call.saved

/-- The two are equal: a file may give the keys of a dictionary in sorted order. -/
def Same (loaded : Loaded δ) (cp : Checkpoint δ) : Prop :=
  loaded = cp.untyped ∨ loaded = cp.sorted.untyped

/-- Both calls succeed with equal results. -/
inductive SameAnswer : Except PyError (Answer (Loaded δ)) → Except PyError (Answer (Checkpoint δ)) →
    Prop
  | stored {loaded : Loaded δ} {cp : Checkpoint δ} (same : Same loaded cp) :
      SameAnswer (.ok (.stored loaded)) (.ok (.stored cp))
  | found {loaded : Option (Loaded δ)} {cp : Option (Checkpoint δ)}
      (same : Option.Rel Same loaded cp) : SameAnswer (.ok (.found loaded)) (.ok (.found cp))
  | listed {loaded : List (Loaded δ)} {cps : List (Checkpoint δ)}
      (same : List.Forall₂ Same loaded cps) : SameAnswer (.ok (.listed loaded)) (.ok (.listed cps))
  | reopened : SameAnswer (.ok .reopened) (.ok .reopened)

/-- What the callers promise of the checkpoints they save. -/
structure Promised (h : History δ) : Prop where
  ids : DistinctIds h
  versions : DistinctVersions h
  native : ∀ cp ∈ h, cp.IsNative

theorem Promised.of_append {h h' : History δ} (promised : Promised (h ++ h')) : Promised h where
  ids := promised.ids.sublist ((List.sublist_append_left h h').map _)
  versions e := (promised.versions e).sublist (((List.sublist_append_left h h').filter _).map _)
  native cp member := promised.native cp (List.mem_append_left _ member)

theorem Promised.fresh {h h' : History δ} {cp : Checkpoint δ}
    (promised : Promised (h ++ cp :: h')) : Fresh h cp := by
  intro member
  have distinct := promised.ids
  rw [DistinctIds, List.map_append, List.map_cons] at distinct
  exact (List.nodup_append.mp distinct).2.2 _ member _ List.mem_cons_self rfl

private theorem same_readBack (cp : Checkpoint δ) : Same (FileSystem.readBack cp) cp := .inr rfl

private theorem same_option (cp : Option (Checkpoint δ)) :
    Option.Rel Same (cp.map FileSystem.readBack) cp := by
  cases cp with
  | none => exact .none
  | some cp => exact .some (same_readBack cp)

private theorem same_list (cps : List (Checkpoint δ)) :
    List.Forall₂ Same (cps.map FileSystem.readBack) cps := by
  rw [List.forall₂_map_left_iff, List.forall₂_same]
  exact fun cp _ => same_readBack cp

section refinement
variable (F : TextFormats τ δ) {repo : InMemoryCheckpointRepository δ} {disk : Disk τ}
  {h : History δ}

/-- One call: equal answers, and both go on with the same history. -/
theorem serve_same (memory : InMemory.Keeps repo h) (files : FileSystem.Keeps F disk h)
    (call : Call δ) (promised : Promised (h ++ call.saved.toList)) :
    SameAnswer (fileSystem F disk call).2 (inMemory repo call).2 ∧
      InMemory.Keeps (inMemory repo call).1 (h ++ call.saved.toList) ∧
        FileSystem.Keeps F (fileSystem F disk call).1 (h ++ call.saved.toList) := by
  have kept := promised.of_append
  cases call with
  | save cp =>
    have fresh : Fresh h cp := promised.fresh
    obtain ⟨answer, keeps⟩ := FileSystem.keeps_save F files fresh
    refine ⟨?_, InMemory.keeps_save memory fresh, keeps⟩
    simp only [fileSystem, inMemory, answer]
    exact .stored (.inl rfl)
  | get checkpointId =>
    simp only [Call.saved, Option.toList_none, List.append_nil]
    refine ⟨?_, memory, files⟩
    simp only [fileSystem, inMemory, FileSystem.get_eq F files kept.native, memory.store]
    exact .found (same_option _)
  | listByExecution executionId =>
    simp only [Call.saved, Option.toList_none, List.append_nil]
    refine ⟨?_, memory, files⟩
    simp only [fileSystem, inMemory, InMemory.listByExecution_eq memory kept.ids,
      FileSystem.listByExecution_eq F files kept.native kept.ids]
    exact .listed (same_list _)
  | getLatest executionId =>
    simp only [Call.saved, Option.toList_none, List.append_nil]
    refine ⟨?_, memory, files⟩
    simp only [fileSystem, inMemory, InMemory.getLatest_eq memory kept.ids (kept.versions executionId),
      FileSystem.getLatest_eq F files kept.native kept.ids (kept.versions executionId)]
    exact .found (same_option _)
  | reopen =>
    simp only [Call.saved, Option.toList_none, List.append_nil]
    exact ⟨.reopened, memory, files⟩

theorem answers_same {calls : List (Call δ)} (memory : InMemory.Keeps repo h)
    (files : FileSystem.Keeps F disk h) (promised : Promised (h ++ saves calls)) :
    List.Forall₂ SameAnswer (answers (fileSystem F) disk calls) (answers inMemory repo calls) := by
  induction calls generalizing repo disk h with
  | nil => exact .nil
  | cons call calls ih =>
    have split : h ++ saves (call :: calls) = h ++ call.saved.toList ++ saves calls := by
      unfold saves
      cases saved : call.saved <;> simp [saved]
    rw [split] at promised
    obtain ⟨answer, memory', files'⟩ := serve_same F memory files call promised.of_append
    exact .cons answer (ih memory' files' promised)

end refinement

/-- Over any calls from an empty directory on, whatever the order of the sets in memory;
and decoding gives every checkpoint back, from its dictionary and from its file. -/
theorem fileSystem_refines_inMemory (F : TextFormats τ δ) (iterate : List String → List String)
    (perm : ∀ ids, (iterate ids).Perm ids) {calls : List (Call δ)}
    (promised : Promised (saves calls)) :
    List.Forall₂ SameAnswer (answers (fileSystem F) .empty calls)
        (answers inMemory ⟨.empty, .empty, iterate, perm⟩ calls) ∧
      ∀ cp : Checkpoint δ,
        dictToCheckpoint F (.dict (checkpointToDict F cp)) = .ok cp.untyped ∧
          (cp.IsNative →
            ∃ loaded, (F.load (F.dump (.dict (checkpointToDict F cp)))).bind
                (dictToCheckpoint F) = .ok loaded ∧ Same loaded cp) := by
  refine ⟨answers_same F ⟨fun _ => rfl, indexes_empty⟩ (FileSystem.keeps_empty F) promised, ?_⟩
  intro cp
  refine ⟨dictToCheckpoint_encoded F cp, fun native => ?_⟩
  exact ⟨_, load_checkpoint F cp native, .inr rfl⟩

def mixedCalls : List (Call IsoDate.DateTime) :=
  [.save
      { checkpointId := "cp-b", executionId := "e", version := 2, triggerReason := .errorRecovery
        checkpointHash := "h", memoryRefs := ["m1", "m2"]
        toolHistory := [[("z", .int 1), ("a", .list [.none, .bool true])]]
        createdAt := some (IsoDate.now (1 / 4)) },
    .reopen,
    .save
      { checkpointId := "cp-a", executionId := "e", version := 1, triggerReason := .stepComplete
        checkpointHash := "h", agentStateRef := some "\x7b\x7d" },
    .save
      { checkpointId := "cp-c", executionId := "\"", version := 1, triggerReason := .pauseRequest
        checkpointHash := "h", parentCheckpointId := some "cp-a" },
    .listByExecution "e", .getLatest "e", .get "cp-b", .get "cp-d", .getLatest "d"]

theorem distinctVersions_of_pairs {h : History δ}
    (distinct : (h.map fun cp => (cp.executionId, cp.version)).Nodup) : DistinctVersions h := by
  intro executionId
  refine List.Nodup.of_map (fun version => (executionId, version)) ?_
  rw [List.map_map]
  have same : (own h executionId).map ((fun version => (executionId, version)) ∘
      Checkpoint.version) = (own h executionId).map fun cp => (cp.executionId, cp.version) := by
    refine List.map_congr_left fun cp member => ?_
    have owned : cp.executionId = executionId := by simpa using (List.mem_filter.mp member).2
    simp [owned]
  rw [same]
  exact distinct.sublist (List.filter_sublist.map _)

theorem mixedCalls_promised : Promised (saves mixedCalls) where
  ids := (by decide +kernel : ((saves mixedCalls).map Checkpoint.checkpointId).Nodup)
  versions := distinctVersions_of_pairs (by decide +kernel)
  native := by
    have plain : ∀ cp : Checkpoint IsoDate.DateTime, cp.toolHistory = [] → cp.IsNative :=
      fun cp empty => by simp [Checkpoint.IsNative, empty]
    refine List.forall_mem_cons.mpr ⟨?_, List.forall_mem_cons.mpr ⟨plain _ rfl,
      List.forall_mem_cons.mpr ⟨plain _ rfl, fun _ none => nomatch none⟩⟩⟩
    simp [Checkpoint.IsNative, Native, NativeFields, NativeItems]

theorem fileSystem_refines_inMemory_mixed :
    List.Forall₂ SameAnswer
        (answers (fileSystem (jsonFormats fun _ => "0")) .empty mixedCalls)
        (answers inMemory ⟨.empty, .empty, List.reverse, List.reverse_perm⟩ mixedCalls) ∧
      (latest (saves mixedCalls) "e").map Checkpoint.checkpointId = some "cp-b" :=
  ⟨(fileSystem_refines_inMemory _ _ _ mixedCalls_promised).1, by decide +kernel⟩

end Kitematic.StoreRefinement

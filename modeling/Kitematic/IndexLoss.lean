import Kitematic.CheckpointPaths

/-! What a `save` makes of an index file that it cannot read or parse. Such an index counts as
empty, so the next index lists the checkpoint that is saved and no other. -/

namespace Kitematic.IndexLoss
open CheckpointFiles CheckpointPaths CheckpointStores Checkpoints Dictionary FilePaths PyText

section files
variable {τ : Type} (disk : FileState τ) {path : FilePath} (contents : τ)

theorem write_refused (torn : Option τ) {elsewhere : FilePath} (other : elsewhere ≠ path) :
    ∃ after, disk.write path contents (some torn) = (after, .error osError) ∧
      after.get elsewhere = disk.get elsewhere := by
  cases torn with
  | none => exact ⟨_, rfl, rfl⟩
  | some torn =>
    refine ⟨_, rfl, ?_⟩
    rw [FileState.get, Dict.get_set, if_neg other]
    rfl

theorem get_written {elsewhere : FilePath} (other : elsewhere ≠ path) :
    (disk.write path contents none).1.get elsewhere = disk.get elsewhere := by
  rw [FileState.get, FileState.write, Dict.get_set, if_neg other]
  rfl

theorem replace_refused {source : FilePath} {target : Option FilePath} {refused : Bool}
    (fails : target = none ∨ refused = true) :
    disk.replace source target refused = (disk, .error osError) := by
  cases target with
  | none => rfl
  | some target =>
    have stops : refused = true := fails.resolve_left nofun
    cases found : disk.files.get source <;> simp [FileState.replace, found, stops]

end files

section repository
variable {τ δ : Type} (F : TextFormats τ δ) (S : Surroundings) (faults : Faults τ)
  (disk : FileState τ) (cp : Checkpoint δ)

def Lists (index : Value) (executionId checkpointId : String) : Prop :=
  ∃ ids, idsOf index executionId = .ok ids ∧ .str checkpointId ∈ ids

/-- A save that raises leaves the index file as it was, and one that returns leaves an index
that lists what was listed before. -/
def Keeps (before : Index) : FileState τ × Except PyError (Checkpoint δ) → Prop
  | (after, .error _) => after.get S.indexPath = disk.get S.indexPath
  | (after, .ok _) => ∃ index, loadIndex F S {} after = .ok index ∧
      ∀ executionId, ∀ id ∈ (before.get executionId).getD [], Lists index executionId id

def Unplaced : Prop :=
  S.tmp cp.checkpointId = none ∨ S.dest cp.checkpointId = none ∨ faults.write.isSome ∨
    faults.place = true

/-- What the index file holds when it is loaded. The checkpoint may just have been put there. -/
def atLoad (old : τ) : τ :=
  if S.dest cp.checkpointId = some S.indexPath then textOf F cp else old

def LoadRaises (contents : τ) : Prop :=
  faults.stat = true ∨
    faults.read = false ∧ ∀ text, F.load contents ≠ .error (.jsonDecodeError text)

/-- The new index is not put in place. -/
def Unwritten : Prop := faults.writeIndex.isSome ∨ faults.placeIndex = true

variable {F S faults disk cp}

theorem placeCheckpoint_unplaced (F : TextFormats τ δ) (disk : FileState τ) (unplaced : Unplaced S faults cp) :
    ∃ after e, placeCheckpoint F S faults disk cp = (after, .error e) ∧
      after.get S.indexPath = disk.get S.indexPath := by
  unfold placeCheckpoint
  cases written : S.tmp cp.checkpointId with
  | none => exact ⟨disk, osError, rfl, rfl⟩
  | some source =>
    have apart : S.indexPath ≠ source := (S.tmp_ne_index written).symm
    cases refused : faults.write with
    | some torn =>
      obtain ⟨after, stopped, kept⟩ :=
        write_refused disk (F.dump (.dict (checkpointToDict F cp))) torn apart
      exact ⟨after, osError, by simp only [stopped], kept⟩
    | none =>
      have fails : S.dest cp.checkpointId = none ∨ faults.place = true := by
        simpa [Unplaced, written, refused] using unplaced
      exact ⟨_, osError, replace_refused _ fails, get_written disk _ apart⟩

theorem placeCheckpoint_placed (placed : ¬ Unplaced S faults cp) {old : τ}
    (stored : disk.get S.indexPath = some old) :
    ∃ after, placeCheckpoint F S faults disk cp = (after, .ok ()) ∧
      after.get S.indexPath = some (atLoad F S cp old) := by
  simp only [Unplaced, not_or] at placed
  obtain ⟨hasSource, hasTarget, writes, places⟩ := placed
  obtain ⟨source, written⟩ := Option.ne_none_iff_exists'.mp hasSource
  obtain ⟨target, located⟩ := Option.ne_none_iff_exists'.mp hasTarget
  obtain ⟨files, moved, got⟩ := placeCheckpoint_located F S disk written located
  refine ⟨⟨files, target :: source :: disk.written⟩, ?_, (got S.indexPath).trans ?_⟩
  · rw [← moved]
    simp only [placeCheckpoint, Option.not_isSome_iff_eq_none.mp writes,
      Bool.eq_false_of_not_eq_true places]
  · rw [atLoad, located]
    by_cases here : S.indexPath = target
    · simp [here]
    · rw [if_neg here, if_neg (S.tmp_ne_index written).symm, if_neg fun same =>
        here (Option.some.inj same).symm, stored]

theorem loadIndex_unreadable {contents : τ} (stored : disk.get S.indexPath = some contents)
    (unreadable : faults.read = true ∨ ∃ e, F.load contents = .error e) :
    (∃ e, loadIndex F S faults disk = .error e) ∧ LoadRaises F faults contents ∨
      loadIndex F S faults disk = .ok (.dict []) ∧ ¬ LoadRaises F faults contents := by
  unfold loadIndex LoadRaises
  cases faults.stat with
  | true => exact .inl ⟨⟨_, rfl⟩, .inl rfl⟩
  | false =>
    cases reads : faults.read with
    | true => exact .inr ⟨by simp [stored], by simp⟩
    | false =>
      obtain ⟨e, failed⟩ := unreadable.resolve_left (by simp [reads])
      cases e with
      | jsonDecodeError text => exact .inr ⟨by simp [stored, failed], by simp [failed]⟩
      | _ => exact .inl ⟨⟨_, by simp [stored, failed]; rfl⟩, .inr ⟨rfl, by simp [failed]⟩⟩

theorem saveIndex_refused (F : TextFormats τ δ) (S : Surroundings) (disk : FileState τ)
    (index : Value)
    (refused : Unwritten faults) :
    ∃ after e, saveIndex F S faults disk index = (after, .error e) ∧
      after.get S.indexPath = disk.get S.indexPath := by
  have apart : S.indexPath ≠ S.indexTmp := S.indexTmp_ne_index.symm
  unfold saveIndex
  cases written : faults.writeIndex with
  | some torn =>
    obtain ⟨after, stopped, kept⟩ := write_refused disk (F.dump index) torn apart
    exact ⟨after, osError, by simp only [stopped], kept⟩
  | none =>
    have fails : some S.indexPath = none ∨ faults.placeIndex = true := by
      simpa [Unwritten, written] using refused
    exact ⟨_, osError, replace_refused _ fails, get_written disk _ apart⟩

theorem saveIndex_done (F : TextFormats τ δ) (S : Surroundings) (disk : FileState τ) (index : Value)
    (done : ¬ Unwritten faults) :
    ∃ after, saveIndex F S faults disk index = (after, .ok ()) ∧
      after.get S.indexPath = some (F.dump index) := by
  rw [Unwritten, not_or] at done
  obtain ⟨files, moved, got⟩ := disk.replace_written S.indexTmp S.indexPath (F.dump index)
  refine ⟨⟨files, S.indexPath :: S.indexTmp :: disk.written⟩, ?_,
    (got S.indexPath).trans (if_pos rfl)⟩
  rw [← moved, saveIndex, Option.not_isSome_iff_eq_none.mp done.1,
    Bool.eq_false_of_not_eq_true done.2]
  rfl

theorem lists_indexValue (index : Index) (executionId checkpointId : String) :
    Lists (indexValue index) executionId checkpointId ↔
      checkpointId ∈ (index.get executionId).getD [] := by
  rw [Lists, idsOf_indexValue]
  constructor
  · rintro ⟨ids, listed, member⟩
    cases listed
    simpa using member
  · exact fun member => ⟨_, rfl, List.mem_map_of_mem member⟩

theorem keeps_of_unplaced (unplaced : Unplaced S faults cp) (before : Index) :
    Keeps F S disk before (save F S faults disk cp) := by
  obtain ⟨after, e, stopped, kept⟩ := placeCheckpoint_unplaced F disk unplaced
  rw [save_of_unplaced stopped]
  exact kept

variable {old : τ} (stored : disk.get S.indexPath = some old)
  (unreadable : faults.read = true ∨ ∃ e, F.load (atLoad F S cp old) = .error e)
include stored unreadable

/-- A save that stops after its checkpoint is in place keeps the index that it found then. -/
theorem keeps_of_stuck (placed : ¬ Unplaced S faults cp)
    (stuck : LoadRaises F faults (atLoad F S cp old) ∨ Unwritten faults) (before : Index) :
    Keeps F S disk before (save F S faults disk cp) ↔ atLoad F S cp old = old := by
  obtain ⟨after, moved, found⟩ := placeCheckpoint_placed placed stored
  have stops : ∃ last e, save F S faults disk cp = (last, .error e) ∧
      last.get S.indexPath = some (atLoad F S cp old) := by
    cases loadIndex_unreadable found unreadable with
    | inl raised =>
      obtain ⟨⟨e, failed⟩, _⟩ := raised
      exact ⟨after, e, save_of_unloaded moved failed, found⟩
    | inr empty =>
      obtain ⟨loaded, quiet⟩ := empty
      obtain ⟨last, e, stopped, kept⟩ := saveIndex_refused F S after
        (indexValue (indexed .empty cp)) (stuck.resolve_left quiet)
      have added : addToIndex (.dict []) cp.executionId cp.checkpointId =
          .ok (indexValue (indexed .empty cp)) := addToIndex_indexValue .empty cp
      exact ⟨last, e, save_of_unwritten moved loaded added stopped, kept.trans found⟩
  obtain ⟨last, e, stopped, kept⟩ := stops
  simp only [stopped, Keeps, kept, stored, Option.some.injEq]

/-- A save that replaces the index loses all that it listed but its own checkpoint. -/
theorem keeps_of_replaced (placed : ¬ Unplaced S faults cp)
    (replaced : ¬ (LoadRaises F faults (atLoad F S cp old) ∨ Unwritten faults)) (before : Index) :
    Keeps F S disk before (save F S faults disk cp) ↔ ∀ executionId, ∀ id ∈ (before.get executionId).getD [],
      executionId = cp.executionId ∧ id = cp.checkpointId := by
  obtain ⟨after, moved, found⟩ := placeCheckpoint_placed placed stored
  obtain ⟨quiet, writes⟩ := not_or.mp replaced
  have loaded : loadIndex F S faults after = .ok (.dict []) := by
    cases loadIndex_unreadable found unreadable with
    | inl raised => exact absurd raised.2 quiet
    | inr empty => exact empty.1
  have added : addToIndex (.dict []) cp.executionId cp.checkpointId =
      .ok (indexValue (indexed .empty cp)) := addToIndex_indexValue .empty cp
  obtain ⟨last, done, written⟩ := saveIndex_done F S after
    (indexValue (indexed .empty cp)) writes
  have ended := save_of_done moved loaded added done
  have alone : ∀ e id, Lists (indexValue (sortedIndex (indexed .empty cp))) e id ↔
      e = cp.executionId ∧ id = cp.checkpointId := by
    intro e id
    rw [lists_indexValue, get_sortedIndex, indexed, Dict.get_set]
    by_cases here : e = cp.executionId <;> simp [here, addId]
  simp only [ended, Keeps, loadIndex_written F S written, Except.ok.injEq, exists_eq_left', alone]

/-- Exactly when a save keeps an index that it cannot read or parse: where it stops before the
index, where it stops at the index it found, or where nothing else was listed. -/
theorem keeps_iff (before : Index) :
    Keeps F S disk before (save F S faults disk cp) ↔ Unplaced S faults cp ∨
      ((LoadRaises F faults (atLoad F S cp old) ∨ Unwritten faults) ∧ atLoad F S cp old = old) ∨
      (¬ (LoadRaises F faults (atLoad F S cp old) ∨ Unwritten faults) ∧
        ∀ executionId, ∀ id ∈ (before.get executionId).getD [],
          executionId = cp.executionId ∧ id = cp.checkpointId) := by
  by_cases placed : Unplaced S faults cp
  · exact iff_of_true (keeps_of_unplaced placed before) (.inl placed)
  by_cases stuck : LoadRaises F faults (atLoad F S cp old) ∨ Unwritten faults
  · rw [keeps_of_stuck stored unreadable placed stuck before]
    simp only [placed, stuck, true_and, false_or, not_true_eq_false, false_and, or_false]
  · rw [keeps_of_replaced stored unreadable placed stuck before]
    simp only [placed, stuck, false_or, false_and, not_false_eq_true, true_and]

end repository

def broken : FileState (List Char) :=
  { files := Dict.empty.set surroundings.indexPath ['\x7b'] }

theorem broken_stored : broken.get surroundings.indexPath = some ['\x7b'] := Dict.get_set_self ..

theorem broken_unreadable :
    (jsonFormats fun s => s).load (atLoad (jsonFormats fun s => s) surroundings
        (checkpoint "b" 2) ['\x7b']) =
      .error (.jsonDecodeError "Expecting value: line 1 column 1 (char 0)") := by
  rw [atLoad, if_neg (by decide)]
  rfl

theorem keeps_iff_refused :
    Keeps (jsonFormats fun s => s) surroundings broken (Dict.empty.set "e" ["a"])
      (save (jsonFormats fun s => s) surroundings { placeIndex := true } broken
        (checkpoint "b" 2)) :=
  (keeps_iff broken_stored (.inr ⟨_, broken_unreadable⟩) _).mpr
    (.inr (.inl ⟨.inr (.inr rfl), if_neg (by decide)⟩))

/-- An index that breaks off counts as empty, and the checkpoint `a` is lost from it. -/
theorem broken_index_replaced :
    ¬ Keeps (jsonFormats fun s => s) surroundings broken (Dict.empty.set "e" ["a"])
      (save (jsonFormats fun s => s) surroundings {} broken (checkpoint "b" 2)) := by
  intro keeps
  have placed : ¬ Unplaced (τ := List Char) surroundings {} (checkpoint "b" 2) := by
    simp only [Unplaced, not_or]
    decide +kernel
  have replaced : ¬ (LoadRaises (jsonFormats fun s => s) {} (atLoad (jsonFormats fun s => s)
      surroundings (checkpoint "b" 2) ['\x7b']) ∨ Unwritten (τ := List Char) {}) := by
    rintro ((raises | ⟨_, other⟩) | (refused | refused))
    · cases raises
    · exact other _ broken_unreadable
    · cases refused
    · cases refused
  have only := (keeps_of_replaced broken_stored (.inr ⟨_, broken_unreadable⟩) placed replaced _).mp keeps
  exact absurd (only "e" "a" (by decide)).2 (by decide)

end Kitematic.IndexLoss

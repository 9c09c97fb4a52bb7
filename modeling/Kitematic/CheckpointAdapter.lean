import Kitematic.CheckpointHistory

/-! The adapter between the runtime and a checkpoint repository. It embeds the state as
JSON text in the checkpoint, numbers the checkpoints of an execution with a counter
of its own, and turns every exception into a `CheckpointPersistenceError`. -/

namespace Kitematic.CheckpointAdapter
open CheckpointHistory CheckpointStores Checkpoints Dictionary Json PyText

inductive Repository (τ δ : Type) where
  | inMemory (repo : InMemoryCheckpointRepository δ)
  | fileSystem (disk : Disk τ)

namespace Repository
variable {τ δ : Type} (F : TextFormats τ δ)

def save : Repository τ δ → Checkpoint δ → Repository τ δ × Except PyError (Checkpoint δ)
  | .inMemory repo, cp => (.inMemory (repo.save cp), .ok cp)
  | .fileSystem disk, cp =>
      let (disk, answer) := FileSystemCheckpointRepository.save F disk cp
      (.fileSystem disk, answer)

def get : Repository τ δ → String → Except PyError (Option (Loaded δ))
  | .inMemory repo, checkpointId => .ok ((repo.get checkpointId).map Checkpoint.untyped)
  | .fileSystem disk, checkpointId => FileSystemCheckpointRepository.get F disk checkpointId

def getLatest : Repository τ δ → String → Except PyError (Option (Loaded δ))
  | .inMemory repo, executionId =>
      (repo.getLatest executionId).map fun cp => cp.map Checkpoint.untyped
  | .fileSystem disk, executionId =>
      FileSystemCheckpointRepository.getLatest F disk executionId

def Keeps : Repository τ δ → History δ → Prop
  | .inMemory repo, h => InMemory.Keeps repo h
  | .fileSystem disk, h => FileSystem.Keeps F disk h

def IsNew : Repository τ δ → Prop
  | .inMemory repo => repo.store = .empty ∧ repo.executionIndex = .empty
  | .fileSystem disk => disk = .empty

end Repository

structure CheckpointPersistenceError where
  operation : String
  reason : String

def CheckpointPersistenceError.message (e : CheckpointPersistenceError) : String :=
  "Checkpoint " ++ e.operation ++ " failed: " ++ e.reason

/-- The repository of the adapter is passed to its operations. -/
structure CheckpointPersistenceAdapter where
  versionCounter : Dict String Nat := .empty

def slice (s : String) (n : Nat) : String := String.ofList (s.toList.take n)

/-- The drawn `uuid4`, as its 32 hexadecimal digits, gives twelve of them to the id. -/
def checkpointId (uuid : String) : String := "cp-" ++ slice uuid 12

namespace CheckpointPersistenceAdapter
variable {τ δ : Type} (F : TextFormats τ δ)

def currentVersion (adapter : CheckpointPersistenceAdapter) (executionId : String) : Nat :=
  (adapter.versionCounter.get executionId).getD 0 + 1

def counted (adapter : CheckpointPersistenceAdapter) (executionId : String) :
    CheckpointPersistenceAdapter :=
  { versionCounter :=
      adapter.versionCounter.set executionId (adapter.currentVersion executionId) }

def checkpoint (adapter : CheckpointPersistenceAdapter) (executionId : String) (state : Payload)
    (uuid : String) (now : ℚ) : Checkpoint δ where
  checkpointId := checkpointId uuid
  executionId := executionId
  version := adapter.currentVersion executionId
  triggerReason := .stepComplete
  checkpointHash := slice (F.hexdigest (F.dumps (.dict state))) 16
  agentStateRef := some (F.dumps (.dict state))
  createdAt := some (F.now now)

/-- `save`, with the adapter and the repository as it leaves them also when it raises. -/
def save (adapter : CheckpointPersistenceAdapter) (repo : Repository τ δ) (executionId : String)
    (state : Payload) (uuid : String) (now : ℚ) :
    CheckpointPersistenceAdapter × Repository τ δ × Except CheckpointPersistenceError String :=
  let cp := adapter.checkpoint F executionId state uuid now
  let adapter := adapter.counted executionId
  if cp.validate ≠ [] then
    (adapter, repo, .error ⟨"save", "Invalid checkpoint: " ++ pyReprList cp.validate⟩)
  else
    match repo.save F cp with
    | (repo, .error e) => (adapter, repo, .error ⟨"save", F.wording e⟩)
    | (repo, .ok _) => (adapter, repo, .ok cp.checkpointId)

def parseState : Value → Except PyError Value
  | .str s => F.loads s
  | v => .error (.typeError v)

def restore (repo : Repository τ δ) (checkpointId : String) :
    Except CheckpointPersistenceError Value :=
  match repo.get F checkpointId with
  | .error (.jsonDecodeError text) =>
      .error ⟨"restore", "Corrupted state in checkpoint '" ++ checkpointId ++ "': " ++ text⟩
  | .error e => .error ⟨"restore", F.wording e⟩
  | .ok none => .error ⟨"restore", "Checkpoint not found: " ++ checkpointId⟩
  | .ok (some cp) =>
      match cp.agentStateRef with
      | .none => .error ⟨"restore", "Checkpoint '" ++ checkpointId ++ "' contains no state"⟩
      | stateJson =>
          match parseState F stateJson with
          | .ok state => .ok state
          | .error (.jsonDecodeError text) =>
              .error ⟨"restore", "Corrupted state in checkpoint '" ++ checkpointId ++ "': " ++ text⟩
          | .error e => .error ⟨"restore", F.wording e⟩

end CheckpointPersistenceAdapter

/-! What the two kinds of repository share. The checkpoints of the adapter have no tool
history, so a file gives them back as they were. -/

section repository
variable {τ δ : Type} (F : TextFormats τ δ) {repo : Repository τ δ} {h : History δ}

def Plain (h : History δ) : Prop := ∀ cp ∈ h, cp.toolHistory = []

theorem Plain.native (plain : Plain h) : ∀ cp ∈ h, cp.IsNative := by
  intro cp member entries inside
  rw [plain cp member] at inside
  cases inside

theorem Plain.append {cp : Checkpoint δ} (plain : Plain h) (empty : cp.toolHistory = []) :
    Plain (h ++ [cp]) :=
  List.forall_mem_append.mpr ⟨plain, List.forall_mem_singleton.mpr empty⟩

theorem readBack_of_plain {cp : Checkpoint δ} (empty : cp.toolHistory = []) :
    FileSystem.readBack cp = cp.untyped := by
  simp [FileSystem.readBack, Checkpoint.sorted, Checkpoint.untyped, empty]

theorem map_readBack (plain : Plain h) {found : Option (Checkpoint δ)}
    (member : ∀ cp, found = some cp → cp ∈ h) :
    found.map FileSystem.readBack = found.map Checkpoint.untyped := by
  cases found with
  | none => rfl
  | some cp => exact congrArg some (readBack_of_plain (plain cp (member cp rfl)))

theorem Repository.keeps_new (new : repo.IsNew) : repo.Keeps F [] := by
  cases repo with
  | inMemory repo =>
    obtain ⟨store, index, iterate, perm⟩ := repo
    obtain ⟨rfl, rfl⟩ := new
    exact ⟨fun _ => rfl, indexes_empty⟩
  | fileSystem disk =>
    obtain rfl := new
    exact FileSystem.keeps_empty F

theorem Repository.keeps_save {cp : Checkpoint δ} (keeps : repo.Keeps F h) (fresh : Fresh h cp) :
    (repo.save F cp).2 = .ok cp ∧ (repo.save F cp).1.Keeps F (h ++ [cp]) := by
  cases repo with
  | inMemory repo => exact ⟨rfl, InMemory.keeps_save keeps fresh⟩
  | fileSystem disk => exact FileSystem.keeps_save F keeps fresh

theorem Repository.get_eq (keeps : repo.Keeps F h) (plain : Plain h) (checkpointId : String) :
    repo.get F checkpointId = .ok ((find h checkpointId).map Checkpoint.untyped) := by
  cases repo with
  | inMemory repo =>
    rw [Repository.get, keeps.store]
  | fileSystem disk =>
    have found := FileSystem.get_eq F keeps plain.native checkpointId
    rw [map_readBack plain fun _ => mem_of_find] at found
    exact found

theorem Repository.getLatest_eq (keeps : repo.Keeps F h) (plain : Plain h) (distinct : DistinctIds h)
    {executionId : String} (versions : ((own h executionId).map Checkpoint.version).Nodup) :
    repo.getLatest F executionId = .ok ((latest h executionId).map Checkpoint.untyped) := by
  cases repo with
  | inMemory repo =>
    rw [Repository.getLatest, InMemory.getLatest_eq keeps distinct versions]
    rfl
  | fileSystem disk =>
    have found := FileSystem.getLatest_eq F keeps plain.native distinct versions
    rw [map_readBack plain fun _ best => mem_of_own (mem_own_of_latest best)] at found
    exact found

theorem CheckpointPersistenceAdapter.restore_of_mem (keeps : repo.Keeps F h) (plain : Plain h)
    (distinct : DistinctIds h) {cp : Checkpoint δ} (member : cp ∈ h) {state : Value}
    (embedded : cp.agentStateRef = some (F.dumps state)) (native : Native state) :
    CheckpointPersistenceAdapter.restore F repo cp.checkpointId = .ok (canonical state) := by
  have found := Repository.get_eq F keeps plain cp.checkpointId
  rw [find_of_mem distinct member] at found
  have text : cp.untyped.agentStateRef = .str (F.dumps state) := congrArg optional embedded
  simp only [restore, found, Option.map_some, text, parseState, F.loads_dumps state native]

/-- A `save` either refuses the checkpoint and leaves the repository as it was, or the
repository keeps one checkpoint more. -/
theorem CheckpointPersistenceAdapter.save_cases (keeps : repo.Keeps F h)
    (adapter : CheckpointPersistenceAdapter) (executionId : String) (state : Payload)
    (uuid : String) (now : ℚ) (fresh : checkpointId uuid ∉ h.map Checkpoint.checkpointId) :
    (∃ e, adapter.save F repo executionId state uuid now =
        (adapter.counted executionId, repo, .error e)) ∨
      ∃ repo', adapter.save F repo executionId state uuid now =
          (adapter.counted executionId, repo', .ok (checkpointId uuid)) ∧
        repo'.Keeps F (h ++ [adapter.checkpoint F executionId state uuid now]) := by
  obtain ⟨stored, keeps'⟩ := Repository.keeps_save F keeps
    (show Fresh h (adapter.checkpoint F executionId state uuid now) from fresh)
  by_cases refused : (adapter.checkpoint F executionId state uuid now).validate ≠ []
  · exact .inl ⟨_, if_pos refused⟩
  · have saved : repo.save F (adapter.checkpoint F executionId state uuid now) =
        (_, .ok (adapter.checkpoint F executionId state uuid now)) := Prod.ext rfl stored
    refine .inr ⟨_, ?_, keeps'⟩
    simp only [CheckpointPersistenceAdapter.save, if_neg refused]
    rw [saved]
    rfl

end repository
end Kitematic.CheckpointAdapter

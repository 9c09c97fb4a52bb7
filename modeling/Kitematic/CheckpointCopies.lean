import Kitematic.CheckpointFiles

/-! The readings of the file-system repository with their deep copies. A copy of what nests too
deep raises, and the more calls of the repository are open around it, the less room it has. The
readings come back where those without copies do and what they read can be copied. -/

namespace Kitematic.CheckpointCopies
open CheckpointFiles CheckpointStores Checkpoints FallibleOrder FilePaths Json KeyOrder PyText

/-- `copy.deepcopy` of a checkpoint inside so many calls of the repository. -/
structure DeepCopies (δ : Type) where
  deepcopy : Nat → Loaded δ → Except PyError (Loaded δ)
  same : ∀ {calls cp copy}, deepcopy calls cp = .ok copy → copy = cp
  raises : ∀ {calls cp e}, deepcopy calls cp = .error e → e = .recursionError
  fewer : ∀ {calls cp copy}, deepcopy (calls + 1) cp = .ok copy → deepcopy calls cp = .ok copy

def DeepCopies.Copyable {δ : Type} (C : DeepCopies δ) (calls : Nat) (cp : Loaded δ) : Prop :=
  C.deepcopy calls cp = .ok cp

section repository
variable {τ δ : Type} (C : DeepCopies δ) (F : TextFormats τ δ) (S : Surroundings)

def readCheckpoint (calls : Nat) (contents : τ) : Except PyError (Option (Loaded δ)) :=
  match ((F.load contents).bind (dictToCheckpoint F)).bind (C.deepcopy calls) with
  | .ok cp => .ok (some cp)
  | .error (.jsonDecodeError _) | .error (.keyError _) | .error .fileNotFoundError => .ok none
  | .error e => .error e

def get (calls : Nat) (disk : FileState τ) (checkpointId : String) :
    Except PyError (Option (Loaded δ)) :=
  match (S.dest checkpointId).bind disk.get with
  | none => .ok none
  | some contents => readCheckpoint C F calls contents

def gather (calls : Nat) (disk : FileState τ) (executionId : String) :
    Except PyError (List (Loaded δ)) := do
  let index ← loadIndex F S {} disk
  let ids ← idsOf index executionId
  let found ← ids.mapM fun id => get C F S (calls + 1) disk (S.text id)
  return found.filterMap id

def listByExecution (calls : Nat) (disk : FileState τ) (executionId : String) :
    Except PyError (List (Loaded δ)) := do
  let found ← gather C F S calls disk executionId
  let checkpoints ← sortM lessKey found
  checkpoints.mapM (C.deepcopy calls)

def getLatest (calls : Nat) (disk : FileState τ) (executionId : String) :
    Except PyError (Option (Loaded δ)) := do
  let checkpoints ← listByExecution C F S (calls + 1) disk executionId
  match ← firstMaxM (fun a b => less a.version b.version) checkpoints with
  | none => return none
  | some latest => return some (← C.deepcopy calls latest)

end repository

/-! Against the readings without copies. -/

section results
variable {τ δ : Type} {C : DeepCopies δ} {F : TextFormats τ δ} {S : Surroundings} {calls : Nat}
  {disk : FileState τ} {executionId checkpointId : String}

theorem deepcopy_ok_iff {cp copy : Loaded δ} :
    C.deepcopy calls cp = .ok copy ↔ cp = copy ∧ C.Copyable calls copy := by
  constructor
  · intro copied
    obtain rfl := C.same copied
    exact ⟨rfl, copied⟩
  · rintro ⟨rfl, copied⟩
    exact copied

theorem DeepCopies.Copyable.fewer {cp : Loaded δ} (copied : C.Copyable (calls + 1) cp) :
    C.Copyable calls cp := C.fewer copied

theorem readCheckpoint_ok_iff {contents : τ} {found : Option (Loaded δ)} :
    readCheckpoint C F calls contents = .ok found ↔
      CheckpointFiles.readCheckpoint F contents = .ok found ∧
        ∀ cp ∈ found, C.Copyable calls cp := by
  unfold readCheckpoint CheckpointFiles.readCheckpoint
  cases decoded : (F.load contents).bind (dictToCheckpoint F) with
  | error e => cases e <;> cases found <;> simp [Except.bind]
  | ok cp =>
    cases copied : C.deepcopy calls cp with
    | ok copy =>
      obtain ⟨rfl, copyable⟩ := deepcopy_ok_iff.mp copied
      simp only [Except.bind, copied, Except.ok.injEq]
      exact ⟨fun same => ⟨same, fun _ here => Option.some.inj (same.trans here) ▸ copyable⟩,
        And.left⟩
    | error e =>
      obtain rfl := C.raises copied
      simp only [Except.bind, copied, reduceCtorEq, Except.ok.injEq, false_iff, not_and]
      rintro rfl copyable
      cases copied.symm.trans (copyable cp rfl)

theorem get_ok_iff {found : Option (Loaded δ)} :
    get C F S calls disk checkpointId = .ok found ↔
      CheckpointFiles.get F S disk checkpointId = .ok found ∧
        ∀ cp ∈ found, C.Copyable calls cp := by
  unfold get CheckpointFiles.get
  cases (S.dest checkpointId).bind disk.get with
  | none => cases found <;> simp
  | some contents => exact readCheckpoint_ok_iff

theorem gather_ok_iff {found : List (Loaded δ)} :
    gather C F S calls disk executionId = .ok found ↔
      CheckpointFiles.gather F S disk executionId = .ok found ∧
        ∀ cp ∈ found, C.Copyable (calls + 1) cp := by
  unfold gather CheckpointFiles.gather
  cases loadIndex F S {} disk with
  | error e => simp [bind, Except.bind]
  | ok index =>
  cases listed : idsOf index executionId with
  | error e => simp [bind, Except.bind, listed]
  | ok ids =>
  have each : ∀ read : List (Option (Loaded δ)),
      ids.mapM (fun id => get C F S (calls + 1) disk (S.text id)) = .ok read ↔
        ids.mapM (fun id => CheckpointFiles.get F S disk (S.text id)) = .ok read ∧
          ∀ found ∈ read, ∀ cp ∈ found, C.Copyable (calls + 1) cp :=
    fun read => mapM_ok_and fun _ _ => get_ok_iff
  have members : ∀ read : List (Option (Loaded δ)),
      (∀ found ∈ read, ∀ cp ∈ found, C.Copyable (calls + 1) cp) ↔
        ∀ cp ∈ read.filterMap id, C.Copyable (calls + 1) cp := by
    intro read
    simp only [List.mem_filterMap, id, Option.mem_def]
    exact ⟨fun all cp ⟨_, member, same⟩ => all _ member cp same,
      fun all found member cp same => all cp ⟨found, member, same⟩⟩
  simp only [bind_ok_iff, pure, Except.pure, Except.ok.injEq, exists_eq_left', listed, each, members]
  constructor
  · rintro ⟨read, ⟨gets, copied⟩, rfl⟩
    exact ⟨⟨read, gets, rfl⟩, copied⟩
  · rintro ⟨⟨read, gets, rfl⟩, copied⟩
    exact ⟨read, ⟨gets, copied⟩, rfl⟩

theorem mapM_deepcopy {cps copies : List (Loaded δ)} :
    cps.mapM (C.deepcopy calls) = .ok copies ↔
      cps = copies ∧ ∀ cp ∈ copies, C.Copyable calls cp := by
  have pure_ok : ∀ cps : List (Loaded δ), cps.mapM (.ok : Loaded δ → Except PyError _) = .ok cps :=
    fun cps => (mapM_eq_ok fun _ _ => rfl).trans (congrArg _ (List.map_id cps))
  rw [mapM_ok_and (g := .ok) fun cp copy => deepcopy_ok_iff.trans (by rw [Except.ok.injEq]),
    pure_ok, Except.ok.injEq]

theorem listByExecution_ok_iff {cps : List (Loaded δ)} :
    listByExecution C F S calls disk executionId = .ok cps ↔
      CheckpointFiles.listByExecution F S disk executionId = .ok cps ∧
        ∀ cp ∈ cps, C.Copyable (calls + 1) cp := by
  simp only [listByExecution, CheckpointFiles.listByExecution, bind_ok_iff, except_bind_ok_iff,
    gather_ok_iff, mapM_deepcopy]
  constructor
  · rintro ⟨found, ⟨gathered, copied⟩, sorted, isSorted, rfl, _⟩
    exact ⟨⟨found, gathered, isSorted⟩, fun cp member =>
      copied cp ((sortM_perm isSorted).mem_iff.mp member)⟩
  · rintro ⟨⟨found, gathered, isSorted⟩, copied⟩
    exact ⟨found, ⟨gathered, fun cp member => copied cp ((sortM_perm isSorted).mem_iff.mpr member)⟩,
      cps, isSorted, rfl, fun cp member => (copied cp member).fewer⟩

theorem getLatest_ok_iff {best : Option (Loaded δ)} :
    getLatest C F S calls disk executionId = .ok best ↔
      CheckpointFiles.getLatest F S disk executionId = .ok best ∧
        ∃ cps, CheckpointFiles.listByExecution F S disk executionId = .ok cps ∧
          ∀ cp ∈ cps, C.Copyable (calls + 2) cp := by
  simp only [getLatest, CheckpointFiles.getLatest, bind_ok_iff, except_bind_ok_iff,
    listByExecution_ok_iff]
  constructor
  · rintro ⟨cps, ⟨listed, copied⟩, latest, found, returned⟩
    have same : latest = best := by
      cases latest with
      | none => cases returned; rfl
      | some top =>
        obtain ⟨copy, copied, given⟩ := bind_ok_iff.mp returned
        obtain rfl := C.same copied
        exact Except.ok.inj given
    exact ⟨⟨cps, listed, same ▸ found⟩, cps, listed, copied⟩
  · rintro ⟨⟨cps, listed, found⟩, cps', listed', copied⟩
    obtain rfl := Except.ok.inj (listed.symm.trans listed')
    refine ⟨cps, ⟨listed, copied⟩, best, found, ?_⟩
    cases best with
    | none => rfl
    | some top =>
      have own : C.deepcopy calls top = .ok top := (copied top (firstMaxM_mem found)).fewer.fewer
      exact bind_ok_iff.mpr ⟨top, own, rfl⟩

end results

/-! Copies that have room for so many levels. -/

mutual

/-- How many levels of lists and dictionaries a value has. -/
def levels : Value → Nat
  | .list items => itemLevels items + 1
  | .dict fields => fieldLevels fields + 1
  | _ => 0

def itemLevels : List Value → Nat
  | [] => 0
  | v :: items => max (levels v) (itemLevels items)

def fieldLevels : List (String × Value) → Nat
  | [] => 0
  | (_, v) :: fields => max (levels v) (fieldLevels fields)

end

def depth {δ : Type} (cp : Loaded δ) : Nat :=
  itemLevels (cp.checkpointId :: cp.executionId :: cp.version :: cp.checkpointHash ::
    cp.schemaVersion :: cp.parentCheckpointId :: cp.agentStateRef :: cp.memoryRefs ++
    cp.toolHistory.flatMap fun entries => entries.map Prod.snd)

def stacked (δ : Type) (room : Nat) : DeepCopies δ where
  deepcopy calls cp :=
    if calls + depth cp ≤ room then .ok cp else .error .recursionError
  same := by
    intro calls cp copy copied
    split at copied <;> cases copied
    rfl
  raises := by
    intro calls cp e failed
    split at failed <;> cases failed
    rfl
  fewer := by
    intro calls cp copy copied
    split at copied <;> cases copied
    next room => exact if_pos (by omega)

end Kitematic.CheckpointCopies

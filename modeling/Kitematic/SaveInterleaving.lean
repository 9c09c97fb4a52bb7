import Kitematic.CheckpointHistory
import Kitematic.Trace
import Mathlib.Logic.Function.Basic

/-! Any number of `save` calls on one directory, interleaved at their file steps, with
crashes between two of them. The renames are atomic, but the index is read, changed and
written back by each call on its own, over a temporary file all of them share. -/

namespace Kitematic.SaveInterleaving
open CheckpointHistory CheckpointStores Checkpoints Dictionary FileSystemCheckpointRepository Json
open KeyOrder PyText Trace
variable {τ δ : Type}

/-- How far a `save` has come; the index is the one it has read. -/
inductive Phase where
  | called
  | written
  | placed
  | indexRead (index : Index)
  | indexWritten (index : Index)

def Phase.isPlaced : Phase → Bool
  | .called | .written => false
  | .placed | .indexRead _ | .indexWritten _ => true

structure Progress (δ : Type) where
  checkpoint : Checkpoint δ
  phase : Phase := .called

def advance (F : TextFormats τ δ) (disk : Disk τ) (p : Progress δ) :
    Disk τ × Option (Progress δ) :=
  let cp := p.checkpoint
  match p.phase with
  | .called => (writeCheckpoint F disk cp, some ⟨cp, .written⟩)
  | .written =>
      match replace disk (.checkpointTmp cp.checkpointId) (.checkpoint cp.checkpointId) with
      | .ok disk => (disk, some ⟨cp, .placed⟩)
      | .error _ => (disk, none)
  | .placed =>
      match loadIndex F disk with
      | .ok index => (disk, some ⟨cp, .indexRead index⟩)
      | .error _ => (disk, none)
  | .indexRead index => (writeIndex F disk (indexed index cp), some ⟨cp, .indexWritten index⟩)
  | .indexWritten _ =>
      match replace disk .indexTmp .index with
      | .ok disk => (disk, none)
      | .error _ => (disk, none)

/-- The directory, the calls in progress by instance, the checkpoints whose file was put in
place, the newest first, and the indexes seen after each step. -/
structure World (τ δ : Type) where
  disk : Disk τ := .empty
  savers : Nat → Option (Progress δ) := fun _ => none
  placed : History δ := []
  seen : List (Except PyError Index) := []

inductive Event (δ : Type) where
  | save (saver : Nat) (cp : Checkpoint δ)
  | proceed (saver : Nat)
  | crash (saver : Nat)

def Event.saver : Event δ → Nat
  | .save saver _ | .proceed saver | .crash saver => saver

def justPlaced : Option (Progress δ) → List (Checkpoint δ)
  | some ⟨cp, .placed⟩ => [cp]
  | _ => []

def step (F : TextFormats τ δ) (w : World τ δ) : Event δ → Option (World τ δ)
  | .save saver cp =>
      match w.savers saver with
      | some _ => none
      | none => some { w with savers := Function.update w.savers saver (some ⟨cp, .called⟩) }
  | .proceed saver =>
      (w.savers saver).map fun p =>
        let (disk, next) := advance F w.disk p
        { w with
          disk := disk, savers := Function.update w.savers saver next
          placed := justPlaced next ++ w.placed, seen := loadIndex F disk :: w.seen }
  | .crash saver =>
      (w.savers saver).map fun _ => { w with savers := Function.update w.savers saver none }

def ids (index : Index) (executionId : String) : List String := (index.get executionId).getD []

/-- No save is in progress: each has returned, raised or crashed. -/
def Finished (w : World τ δ) : Prop := ∀ saver, w.savers saver = none

section index
variable {index : Index}

end index

/-- The index lists what is in place, but for the calls that still have to enter it, and
nothing else, and all it ever listed. -/
structure Complete (w : World τ δ) (index : Index) : Prop where
  entered : ∀ cp ∈ w.placed, cp.checkpointId ∈ ids index cp.executionId ∨
    ∃ saver p, w.savers saver = some p ∧ p.checkpoint = cp ∧ p.phase.isPlaced = true
  backed : ∀ executionId, ∀ id ∈ ids index executionId, ∃ cp ∈ w.placed, cp.checkpointId = id
  kept : ∀ old, .ok old ∈ w.seen → ∀ executionId, ∀ id ∈ ids old executionId,
    id ∈ ids index executionId

structure Orderly (F : TextFormats τ δ) (w : World τ δ) : Prop where
  index : ∃ index, loadIndex F w.disk = .ok index ∧ Complete w index
  native : ∀ cp ∈ w.placed, cp.IsNative
  files : ∀ id, w.disk.get (.checkpoint id) =
    (find w.placed id).map fun cp => F.dump (.dict (checkpointToDict F cp))
  savers : ∀ saver p, w.savers saver = some p →
    p.checkpoint.IsNative ∧ (p.phase.isPlaced = true → p.checkpoint ∈ w.placed)

section invariant
variable {F : TextFormats τ δ} {w w' : World τ δ}

end invariant

end Kitematic.SaveInterleaving

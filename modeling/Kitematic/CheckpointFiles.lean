import Kitematic.CheckpointStores
import Kitematic.FallibleOrder
import Kitematic.FilePaths

/-! The file-system repository with the paths that its ids become, with operations that the
operating system refuses, and with files that hold anything. What is written to is recorded.
Deep copies are the identity here. -/

namespace Kitematic.CheckpointFiles
open CheckpointStores Checkpoints Dictionary FallibleOrder FilePaths Json KeyOrder PyText

/-! Comparisons of values. -/

/-- The number that a value is; a truth value is one. -/
def number : Value → Option ℚ
  | .bool b => some (if b then 1 else 0)
  | .int i => some i
  | .float q => some q
  | _ => none

mutual

def equals : Value → Value → Bool
  | .list items, .list items' => equalItems items items'
  | .dict fields, .dict fields' => fields.length = fields'.length && equalFields fields fields'
  | .none, .none => true
  | .str s, .str s' => s = s'
  | v, w =>
      match number v, number w with
      | some p, some q => p = q
      | _, _ => false

def equalItems : List Value → List Value → Bool
  | [], [] => true
  | v :: items, w :: items' => equals v w && equalItems items items'
  | _, _ => false

def equalFields : List (String × Value) → List (String × Value) → Bool
  | [], _ => true
  | (key, v) :: fields, fields' =>
      (match fields'.lookup key with
        | some w => equals v w
        | none => false) && equalFields fields fields'

end

mutual

def less : Value → Value → Except PyError Bool
  | .list items, .list items' => lessItems items items'
  | .str s, .str s' => .ok (s < s')
  | v, w =>
      match number v, number w with
      | some p, some q => .ok (p < q)
      | _, _ => .error (.typeError v)

/-- Lists compare by the first items that differ. -/
def lessItems : List Value → List Value → Except PyError Bool
  | [], [] => .ok false
  | [], _ :: _ => .ok true
  | _ :: _, [] => .ok false
  | v :: items, w :: items' => if equals v w then lessItems items items' else less v w

end

def lessKey {δ : Type} (a b : Loaded δ) : Except PyError Bool :=
  if equals a.version b.version then
    if equals a.checkpointId b.checkpointId then .ok false else less a.checkpointId b.checkpointId
  else less a.version b.version

/-! Files. -/

abbrev osError : PyError := .fileNotFoundError

/-- The files by their paths, and the paths that were written to. -/
structure FileState (τ : Type) where
  files : Dict FilePath τ := .empty
  written : List FilePath := []

/-- What the operating system refuses during one `save`. A write that is refused may leave a
part of its text. -/
structure Faults (τ : Type) where
  write : Option (Option τ) := none
  place : Bool := false
  stat : Bool := false
  read : Bool := false
  writeIndex : Option (Option τ) := none
  placeIndex : Bool := false

namespace FileState
variable {τ : Type} (disk : FileState τ)

def get (path : FilePath) : Option τ := disk.files.get path

def write (path : FilePath) (contents : τ) : Option (Option τ) →
    FileState τ × Except PyError Unit
  | none => (⟨disk.files.set path contents, path :: disk.written⟩, .ok ())
  | some none => (disk, .error osError)
  | some (some torn) => (⟨disk.files.set path torn, path :: disk.written⟩, .error osError)

def replace (source : FilePath) (target : Option FilePath) (refused : Bool) :
    FileState τ × Except PyError Unit :=
  match target, disk.files.get source with
  | some target, some contents =>
      if refused then (disk, .error osError)
      else (⟨(disk.files.erase source).set target contents, target :: disk.written⟩, .ok ())
  | _, _ => (disk, .error osError)

end FileState

/-- What surrounds a repository: its directory, the directories there are, and the text of a
value. The two names of the index are no directories. -/
structure Surroundings where
  base : FilePath
  isDir : FilePath → Bool
  text : Value → String
  text_str : ∀ s, text (.str s) = s
  index_free : isDir (base ++ ["index.json".toList]) = false
  indexTmp_free : isDir (base ++ ["index.tmp".toList]) = false

namespace Surroundings
variable (S : Surroundings)

def checkpointsDir : FilePath := S.base ++ ["checkpoints".toList]

def indexPath : FilePath := S.base ++ ["index.json".toList]

/-- `_checkpoint_path`: the directory to start from and the names to follow. An id that
starts with a slash starts from the root. -/
def checkpointPath (checkpointId : String) : FilePath × List Name :=
  let file := checkpointId.toList ++ ".json".toList
  (if isAbsolute file then [] else S.checkpointsDir, parts file)

def dest (checkpointId : String) : Option FilePath :=
  locate S.isDir (S.checkpointPath checkpointId).1 (S.checkpointPath checkpointId).2

def tmp (checkpointId : String) : Option FilePath :=
  locate S.isDir (S.checkpointPath checkpointId).1
    (withSuffix (S.checkpointPath checkpointId).2 ".tmp".toList)

def indexTmp : FilePath := withSuffix S.indexPath ".tmp".toList

end Surroundings

/-! The index. -/

def setField (fields : List (String × Value)) (key : String) (value : Value) :
    List (String × Value) :=
  if key ∈ fields.map Prod.fst then fields.map fun e => if e.1 = key then (key, value) else e
  else fields ++ [(key, value)]

/-- The index with the id under its execution, whatever the index is. -/
def addToIndex (index : Value) (executionId checkpointId : String) : Except PyError Value :=
  match index with
  | .dict fields =>
      match fields.lookup executionId with
      | none => .ok (.dict (setField fields executionId (.list [.str checkpointId])))
      | some (.list items) =>
          if items.any (equals (.str checkpointId)) then .ok index
          else .ok (.dict (setField fields executionId (.list (items ++ [.str checkpointId]))))
      | some (.str s) =>
          if containsText s checkpointId then .ok index else .error (.attributeError (.str s))
      | some (.dict ids) =>
          if checkpointId ∈ ids.map Prod.fst then .ok index
          else .error (.attributeError (.dict ids))
      | some v => .error (.typeError v)
  | v => .error (.typeError v)

section repository
variable {τ δ : Type} (F : TextFormats τ δ) (S : Surroundings)

def placeCheckpoint (faults : Faults τ) (disk : FileState τ) (cp : Checkpoint δ) :
    FileState τ × Except PyError Unit :=
  match S.tmp cp.checkpointId with
  | none => (disk, .error osError)
  | some tmp =>
      match disk.write tmp (F.dump (.dict (checkpointToDict F cp))) faults.write with
      | (disk, .error e) => (disk, .error e)
      | (disk, .ok ()) => disk.replace tmp (S.dest cp.checkpointId) faults.place

/-- An index that cannot be read counts as empty. -/
def loadIndex (faults : Faults τ) (disk : FileState τ) : Except PyError Value :=
  if faults.stat then .error osError
  else
    match disk.get S.indexPath with
    | none => .ok (.dict [])
    | some contents =>
        if faults.read then .ok (.dict [])
        else
          match F.load contents with
          | .ok v => .ok v
          | .error (.jsonDecodeError _) => .ok (.dict [])
          | .error e => .error e

def saveIndex (faults : Faults τ) (disk : FileState τ) (index : Value) :
    FileState τ × Except PyError Unit :=
  match disk.write S.indexTmp (F.dump index) faults.writeIndex with
  | (disk, .error e) => (disk, .error e)
  | (disk, .ok ()) => disk.replace S.indexTmp (some S.indexPath) faults.placeIndex

def save (faults : Faults τ) (disk : FileState τ) (cp : Checkpoint δ) :
    FileState τ × Except PyError (Checkpoint δ) :=
  match placeCheckpoint F S faults disk cp with
  | (disk, .error e) => (disk, .error e)
  | (disk, .ok ()) =>
      match loadIndex F S faults disk with
      | .error e => (disk, .error e)
      | .ok index =>
          match addToIndex index cp.executionId cp.checkpointId with
          | .error e => (disk, .error e)
          | .ok index =>
              match saveIndex F S faults disk index with
              | (disk, .error e) => (disk, .error e)
              | (disk, .ok ()) => (disk, .ok cp)

/-- What the contents of a checkpoint file are read as. -/
def readCheckpoint (contents : τ) : Except PyError (Option (Loaded δ)) :=
  match (F.load contents).bind (dictToCheckpoint F) with
  | .ok cp => .ok (some cp)
  | .error (.jsonDecodeError _) | .error (.keyError _) | .error .fileNotFoundError => .ok none
  | .error e => .error e

def get (disk : FileState τ) (checkpointId : String) : Except PyError (Option (Loaded δ)) :=
  match (S.dest checkpointId).bind disk.get with
  | none => .ok none
  | some contents => readCheckpoint F contents

def idsOf (index : Value) (executionId : String) : Except PyError (List Value) :=
  match index with
  | .dict fields => iterate ((fields.lookup executionId).getD (.list []))
  | v => .error (.attributeError v)

/-- The checkpoints of an execution, in the order of the index. -/
def gather (disk : FileState τ) (executionId : String) : Except PyError (List (Loaded δ)) := do
  let index ← loadIndex F S {} disk
  let ids ← idsOf index executionId
  let found ← ids.mapM fun id => get F S disk (S.text id)
  return found.filterMap id

def listByExecution (disk : FileState τ) (executionId : String) :
    Except PyError (List (Loaded δ)) :=
  (gather F S disk executionId).bind (sortM lessKey)

def getLatest (disk : FileState τ) (executionId : String) : Except PyError (Option (Loaded δ)) :=
  (listByExecution F S disk executionId).bind (firstMaxM fun a b => less a.version b.version)

end repository

/-! Where checkpoints and their temporary files lie. -/

/-- The name that `with_suffix` makes of a checkpoint's. -/
def tmpName (stem : Name) : Name :=
  if stem = [] then ".json.tmp".toList else stem ++ ".tmp".toList

theorem swapSuffix_json (stem : Name) :
    swapSuffix (stem ++ ".json".toList) ".tmp".toList = tmpName stem := by
  have swapped : swapSuffix (stem ++ '.' :: "json".toList) ".tmp".toList =
      if stem = [] then '.' :: "json".toList ++ ".tmp".toList else stem ++ ".tmp".toList :=
    swapSuffix_append (by decide) (by decide)
  exact swapped

theorem tmpName_ne_json (stem stem' : Name) : tmpName stem ≠ stem' ++ ".json".toList := by
  intro same
  have last := congrArg List.getLast? same
  unfold tmpName at last
  split at last <;> simp at last

namespace Surroundings
variable (S : Surroundings)

theorem indexTmp_eq : S.indexTmp = S.base ++ ["index.tmp".toList] := by
  have swapped : swapSuffix "index.json".toList ".tmp".toList = "index.tmp".toList := by decide
  rw [indexTmp, indexPath, withSuffix_snoc, swapped]

theorem placed (checkpointId : String) :
    (S.dest checkpointId = none ∧ S.tmp checkpointId = none) ∨
      ∃ directory stem,
        S.dest checkpointId = (if S.isDir (directory ++ [stem ++ ".json".toList]) then none
          else some (directory ++ [stem ++ ".json".toList])) ∧
        S.tmp checkpointId = (if S.isDir (directory ++ [tmpName stem]) then none
          else some (directory ++ [tmpName stem])) := by
  obtain ⟨front, stem, names⟩ : ∃ front stem,
      (S.checkpointPath checkpointId).2 = front ++ [stem ++ ".json".toList] :=
    parts_append (by decide) (by decide) checkpointId.toList
  simp only [dest, tmp, names, withSuffix_snoc, swapSuffix_json, locate_snoc]
  cases walk S.isDir (S.checkpointPath checkpointId).1 front with
  | none => exact .inl ⟨rfl, rfl⟩
  | some directory => exact .inr ⟨directory, stem, rfl, rfl⟩

private theorem eq_of_free {path path' : FilePath} {blocked : Bool}
    (free : (if blocked then none else some path) = some path') : path' = path := by
  cases blocked <;> simp_all

theorem dest_json {checkpointId : String} {path : FilePath}
    (located : S.dest checkpointId = some path) :
    ∃ directory stem, path = directory ++ [stem ++ ".json".toList] := by
  cases S.placed checkpointId with
  | inl missing => cases missing.1.symm.trans located
  | inr placed =>
    obtain ⟨directory, stem, here, _⟩ := placed
    exact ⟨directory, stem, eq_of_free (here.symm.trans located)⟩

theorem tmp_tmp {checkpointId : String} {path : FilePath}
    (located : S.tmp checkpointId = some path) :
    ∃ directory stem, path = directory ++ [tmpName stem] := by
  cases S.placed checkpointId with
  | inl missing => cases missing.2.symm.trans located
  | inr placed =>
    obtain ⟨directory, stem, _, here⟩ := placed
    exact ⟨directory, stem, eq_of_free (here.symm.trans located)⟩

theorem tmp_ne_dest {i j : String} {source target : FilePath} (written : S.tmp i = some source)
    (stored : S.dest j = some target) : source ≠ target := by
  obtain ⟨directory, stem, rfl⟩ := S.tmp_tmp written
  obtain ⟨directory', stem', rfl⟩ := S.dest_json stored
  intro same
  exact tmpName_ne_json stem stem' (List.singleton_inj.mp (List.append_inj' same rfl).2)

theorem tmp_ne_index {i : String} {source : FilePath} (written : S.tmp i = some source) :
    source ≠ S.indexPath := by
  obtain ⟨directory, stem, rfl⟩ := S.tmp_tmp written
  intro same
  exact tmpName_ne_json stem "index".toList (List.singleton_inj.mp (List.append_inj' same rfl).2)

theorem indexTmp_ne_dest {j : String} {target : FilePath} (stored : S.dest j = some target) :
    S.indexTmp ≠ target := by
  obtain ⟨directory, stem, rfl⟩ := S.dest_json stored
  rw [indexTmp_eq]
  intro same
  exact tmpName_ne_json "index".toList stem (List.singleton_inj.mp (List.append_inj' same rfl).2)

theorem indexTmp_ne_index : S.indexTmp ≠ S.indexPath := by
  rw [indexTmp_eq]
  intro same
  exact absurd (List.singleton_inj.mp (List.append_inj' same rfl).2) (by decide)

end Surroundings

/-! The index that the repository writes. -/

section index

theorem lookup_mapped {μ ν : Type} (fields : List (String × μ)) (f : μ → ν) (key : String) :
    (fields.map fun e => (e.1, f e.2)).lookup key = (fields.lookup key).map f := by
  induction fields with
  | nil => rfl
  | cons e fields ih =>
    obtain ⟨first, value⟩ := e
    by_cases same : key = first
    · simp [same]
    · simp [List.lookup_cons, beq_false_of_ne same, ih]

theorem setField_map (index : Index) (key : String) (ids : List String) :
    setField (index.entries.map fun e => (e.1, .list (e.2.map .str))) key (.list (ids.map .str)) =
      (index.set key ids).entries.map fun e => (e.1, .list (e.2.map .str)) := by
  have keys : (index.entries.map fun e => (e.1, Value.list (e.2.map .str))).map Prod.fst =
      index.keys := by
    rw [List.map_map]
    rfl
  unfold setField Dict.set
  rw [keys]
  split
  next =>
    simp only [List.map_map]
    refine List.map_congr_left fun e _ => ?_
    by_cases same : e.1 = key
    · simp [same]
    · simp [same]
  next => simp

theorem set_of_get {index : Index} {key : String} {ids : List String}
    (stored : index.get key = some ids) : index.set key ids = index := by
  have present : key ∈ index.keys := by
    by_contra missing
    cases (Dict.get_eq_none.mpr missing).symm.trans stored
  have entries : (index.entries.map fun e => if e.1 = key then (key, ids) else e) =
      index.entries := by
    refine (List.map_congr_left fun e member => ?_).trans (List.map_id _)
    split
    next same =>
      have found := Dict.get_eq_some.mpr (same ▸ member : (key, e.2) ∈ index.entries)
      rw [stored] at found
      simp [← same, Option.some.inj found]
    next => rfl
  unfold Dict.set
  simp only [present, dif_pos]
  congr

theorem any_equals_str (ids : List String) (id : String) :
    (ids.map Value.str).any (equals (.str id)) = decide (id ∈ ids) := by
  induction ids with
  | nil => rfl
  | cons first ids ih =>
    have here : equals (.str id) (.str first) = decide (id = first) := by simp [equals]
    rw [List.map_cons, List.any_cons, here, ih]
    simp

theorem addToIndex_indexValue {δ : Type} (index : Index) (cp : Checkpoint δ) :
    addToIndex (indexValue index) cp.executionId cp.checkpointId =
      .ok (indexValue (indexed index cp)) := by
  have found : (index.entries.map fun e => (e.1, Value.list (e.2.map .str))).lookup
      cp.executionId = (index.get cp.executionId).map fun ids => .list (ids.map .str) :=
    lookup_mapped index.entries (fun ids => Value.list (ids.map .str)) cp.executionId
  unfold addToIndex indexValue indexed
  simp only [found]
  cases stored : index.get cp.executionId with
  | none =>
    have set := setField_map index cp.executionId [cp.checkpointId]
    simp only [List.map_cons, List.map_nil] at set
    simp [set, addId]
  | some ids =>
    simp only [Option.map_some, any_equals_str, Option.getD_some, addId]
    by_cases member : cp.checkpointId ∈ ids
    · simp [member, set_of_get stored]
    · have set := setField_map index cp.executionId (ids ++ [cp.checkpointId])
      simp only [List.map_append, List.map_cons, List.map_nil] at set
      simp [member, set]

theorem idsOf_indexValue (index : Index) (executionId : String) :
    idsOf (indexValue index) executionId =
      .ok (((index.get executionId).getD []).map .str) := by
  have found : (index.entries.map fun e => (e.1, Value.list (e.2.map .str))).lookup
      executionId = (index.get executionId).map fun ids => .list (ids.map .str) :=
    lookup_mapped index.entries (fun ids => Value.list (ids.map .str)) executionId
  unfold idsOf indexValue
  simp only [found]
  cases index.get executionId <;> rfl

end index

/-! What a `save` does that nothing gets in the way of. -/

section save
variable {τ δ : Type} (F : TextFormats τ δ) (S : Surroundings) {disk : FileState τ}
  {cp : Checkpoint δ} {index : Index} {source target : FilePath}

def textOf (cp : Checkpoint δ) : τ := F.dump (.dict (checkpointToDict F cp))

theorem FileState.replace_written (disk : FileState τ) (source target : FilePath) (contents : τ) :
    ∃ files, (disk.write source contents none).1.replace source (some target) false =
        (⟨files, target :: source :: disk.written⟩, .ok ()) ∧
      ∀ path, files.get path =
        if path = target then some contents else if path = source then none else disk.get path := by
  have stored : (disk.files.set source contents).get source = some contents := by simp
  refine ⟨_, by simp only [FileState.write, FileState.replace, stored]; rfl, fun path => ?_⟩
  rw [Dict.get_set, Dict.get_erase, Dict.get_set, FileState.get]
  split_ifs <;> rfl

/-! How a `save` ends, by the first of its parts that raises. -/

section parts
variable {F S} {after last : FileState τ} {faults : Faults τ} {found added : Value} {e : PyError}

theorem save_of_unplaced (stopped : placeCheckpoint F S faults disk cp = (after, .error e)) :
    save F S faults disk cp = (after, .error e) := by
  delta save
  rw [stopped]

theorem save_of_unloaded (moved : placeCheckpoint F S faults disk cp = (after, .ok ()))
    (failed : loadIndex F S faults after = .error e) :
    save F S faults disk cp = (after, .error e) := by
  delta save
  rw [moved]
  simp only [failed]

theorem save_of_unwritten (moved : placeCheckpoint F S faults disk cp = (after, .ok ()))
    (loaded : loadIndex F S faults after = .ok found)
    (adds : addToIndex found cp.executionId cp.checkpointId = .ok added)
    (stopped : saveIndex F S faults after added = (last, .error e)) :
    save F S faults disk cp = (last, .error e) := by
  delta save
  rw [moved]
  simp only [loaded, adds, stopped]

theorem save_of_done (moved : placeCheckpoint F S faults disk cp = (after, .ok ()))
    (loaded : loadIndex F S faults after = .ok found)
    (adds : addToIndex found cp.executionId cp.checkpointId = .ok added)
    (done : saveIndex F S faults after added = (last, .ok ())) :
    save F S faults disk cp = (last, .ok cp) := by
  delta save
  rw [moved]
  simp only [loaded, adds, done]

end parts

theorem save_unplaced (disk : FileState τ) (missing : S.tmp cp.checkpointId = none) :
    save F S {} disk cp = (disk, .error osError) := by
  exact save_of_unplaced (by simp only [placeCheckpoint, missing])

theorem save_stranded (disk : FileState τ) (written : S.tmp cp.checkpointId = some source)
    (missing : S.dest cp.checkpointId = none) : save F S {} disk cp =
      (⟨disk.files.set source (textOf F cp), source :: disk.written⟩, .error osError) := by
  exact save_of_unplaced (by simp only [placeCheckpoint, written, missing]; rfl)

theorem placeCheckpoint_located (disk : FileState τ)
    (written : S.tmp cp.checkpointId = some source)
    (stored : S.dest cp.checkpointId = some target) :
    ∃ files, placeCheckpoint F S {} disk cp =
        (⟨files, target :: source :: disk.written⟩, .ok ()) ∧
      ∀ path, files.get path = if path = target then some (textOf F cp)
        else if path = source then none else disk.get path := by
  obtain ⟨files, moved, got⟩ := disk.replace_written source target (textOf F cp)
  refine ⟨files, ?_, got⟩
  simp only [placeCheckpoint, written, stored]
  exact moved

theorem loadIndex_congr {disk disk' : FileState τ}
    (same : disk'.get S.indexPath = disk.get S.indexPath) (faults : Faults τ) :
    loadIndex F S faults disk' = loadIndex F S faults disk := by
  simp only [loadIndex, same]

theorem save_located (written : S.tmp cp.checkpointId = some source)
    (stored : S.dest cp.checkpointId = some target) (other : target ≠ S.indexPath)
    (loaded : loadIndex F S {} disk = .ok (indexValue index)) :
    (save F S {} disk cp).2 = .ok cp ∧
      (save F S {} disk cp).1.written =
        S.indexPath :: S.indexTmp :: target :: source :: disk.written ∧
      ∀ path, (save F S {} disk cp).1.get path =
        if path = S.indexPath then some (F.dump (indexValue (indexed index cp)))
        else if path = S.indexTmp then none
        else if path = target then some (textOf F cp)
        else if path = source then none
        else disk.get path := by
  obtain ⟨placed, moved, got⟩ := placeCheckpoint_located F S disk written stored
  have reloaded : loadIndex F S {} (⟨placed, target :: source :: disk.written⟩ : FileState τ) =
      .ok (indexValue index) := by
    refine (loadIndex_congr F S ?_ {}).trans loaded
    rw [FileState.get, got, if_neg other.symm, if_neg (S.tmp_ne_index written).symm]
  obtain ⟨files, moved', got'⟩ := FileState.replace_written
    (⟨placed, target :: source :: disk.written⟩ : FileState τ) S.indexTmp S.indexPath
    (F.dump (indexValue (indexed index cp)))
  have saved : saveIndex F S {} (⟨placed, target :: source :: disk.written⟩ : FileState τ)
      (indexValue (indexed index cp)) =
        (⟨files, S.indexPath :: S.indexTmp :: target :: source :: disk.written⟩, .ok ()) := moved'
  rw [save_of_done moved reloaded (addToIndex_indexValue index cp) saved]
  refine ⟨rfl, rfl, fun path => ?_⟩
  rw [FileState.get, got']
  simp only [FileState.get, got]

theorem loadIndex_written {disk : FileState τ}
    (stored : disk.get S.indexPath = some (F.dump (indexValue index))) :
    loadIndex F S {} disk = .ok (indexValue (sortedIndex index)) := by
  simp only [loadIndex, stored, F.load_dump _ (native_indexValue index), canonical_indexValue,
    Bool.false_eq_true, if_false]

theorem readCheckpoint_textOf (native : cp.IsNative) :
    readCheckpoint F (textOf F cp) = .ok (some cp.sorted.untyped) := by
  simp only [readCheckpoint, textOf, load_checkpoint F cp native]

theorem get_of_stored {id : String} (native : cp.IsNative) (located : S.dest id = some target)
    (stored : disk.get target = some (textOf F cp)) :
    get F S disk id = .ok (some cp.sorted.untyped) := by
  simp only [get, located, Option.bind_some, stored, readCheckpoint_textOf F native]

theorem get_congr {disk disk' : FileState τ} {id : String}
    (same : ∀ path, S.dest id = some path → disk'.get path = disk.get path) :
    get F S disk' id = get F S disk id := by
  unfold get
  cases located : S.dest id with
  | none => rfl
  | some path => simp only [Option.bind_some, same path located]

theorem gather_eq (loaded : loadIndex F S {} disk = .ok (indexValue index)) (executionId : String) :
    gather F S disk executionId =
      (((index.get executionId).getD []).mapM (get F S disk)).map
        fun found => found.filterMap id := by
  have ids : (((index.get executionId).getD []).map Value.str).mapM
      (fun id => get F S disk (S.text id)) =
        ((index.get executionId).getD []).mapM (get F S disk) := by
    rw [List.mapM_map]
    congr
    funext id
    simp [S.text_str]
  simp only [gather, loaded, idsOf_indexValue, bind, Except.bind, ids]
  cases ((index.get executionId).getD []).mapM (get F S disk) <;> rfl

theorem gather_of_gets {executionId : String} {g : String → Option (Loaded δ)}
    (loaded : loadIndex F S {} disk = .ok (indexValue index))
    (gets : ∀ id ∈ (index.get executionId).getD [], get F S disk id = .ok (g id)) :
    gather F S disk executionId = .ok (((index.get executionId).getD []).filterMap g) := by
  rw [gather_eq F S loaded, mapM_eq_ok gets]
  simp [Except.map, List.filterMap_map]

end save

/-! Checkpoints with versions that are numbers and ids that are strings compare. -/

section compare
variable {δ : Type}

theorem equals_int (i j : Int) : equals (.int i) (.int j) = decide (i = j) := by
  simp [equals, number]

theorem less_int (i j : Int) : less (.int i) (.int j) = .ok (decide (i < j)) := by
  simp [less, number]

theorem less_str (s s' : String) : less (.str s) (.str s') = .ok (decide (s < s')) := by
  simp [less]

theorem equals_number {v w : Value} {p q : ℚ} (first : number v = some p)
    (second : number w = some q) : equals v w = decide (p = q) := by
  cases v <;> cases first <;> cases w <;> cases second <;> simp [equals, number]

theorem less_number {v w : Value} {p q : ℚ} (first : number v = some p)
    (second : number w = some q) : less v w = .ok (decide (p < q)) := by
  cases v <;> cases first <;> cases w <;> cases second <;> simp [less, number]

theorem unlike_numbers {v w : Value} (unlike : (number v).isSome ≠ (number w).isSome) :
    equals v w = false ∧ ∃ e, less v w = .error e := by
  cases v <;> cases w <;> first
    | exact absurd rfl unlike
    | exact ⟨by simp only [equals, number], _, by simp only [less, number]; rfl⟩

def isStr : Value → Bool
  | .str _ => true
  | _ => false

theorem unlike_strings {v w : Value} (unlike : isStr v ≠ isStr w) :
    equals v w = false ∧ ∃ e, less v w = .error e := by
  cases v <;> cases w <;> first
    | exact absurd rfl unlike
    | exact ⟨by simp only [equals, number], _, by simp only [less, number]; rfl⟩

/-- Sorting by version and id fails for a version that is a number and one that is not. -/
theorem levelled_versions : Levelled (fun _ => True) (lessKey (δ := δ)) (fun _ => ())
    fun cp => (number cp.version).isSome := by
  refine ⟨fun _ _ _ _ other => absurd rfl other, fun a b _ _ _ unlike => ?_⟩
  obtain ⟨distinct, e, raised⟩ := unlike_numbers unlike
  exact ⟨e, by simp [lessKey, distinct, raised]⟩

theorem levelled_ids : Levelled (fun cp => (number cp.version).isSome) (lessKey (δ := δ))
    (fun cp => (number cp.version).getD 0) fun cp => isStr cp.checkpointId := by
  refine ⟨fun a b isNumber isNumber' other => ?_, fun a b isNumber isNumber' same unlike => ?_⟩
  all_goals
    obtain ⟨p, first⟩ := Option.isSome_iff_exists.mp isNumber
    obtain ⟨q, second⟩ := Option.isSome_iff_exists.mp isNumber'
  · have distinct : p ≠ q := by simpa [first, second] using other
    simp [lessKey, equals_number first second, less_number first second, first, second, distinct]
  · have equal : p = q := by simpa [first, second] using same
    obtain ⟨distinct, e, raised⟩ := unlike_strings unlike
    exact ⟨e, by simp [lessKey, equals_number first second, equal, distinct, raised]⟩

theorem lessKey_untyped (a b : Checkpoint δ) : lessKey a.untyped b.untyped =
    .ok (decide (InMemoryCheckpointRepository.key a < InMemoryCheckpointRepository.key b)) := by
  have ids : equals (.str a.checkpointId) (.str b.checkpointId) =
      decide (a.checkpointId = b.checkpointId) := by simp [equals]
  simp only [lessKey, Checkpoint.untyped, equals_int, ids, less_int, less_str,
    InMemoryCheckpointRepository.key, Prod.Lex.toLex_lt_toLex]
  by_cases version : a.version = b.version
  · by_cases same : a.checkpointId = b.checkpointId <;> simp [version, same]
  · simp [version]

end compare

end Kitematic.CheckpointFiles

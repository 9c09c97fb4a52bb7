import Kitematic.CheckpointOverwrites
import Kitematic.IndexLoss
import Kitematic.StorePaths

/-! Saves of the file-system repository that are refused or cut off at any of their file
operations. A process killed between two operations leaves the files that it would have left
had the second one been refused, and one killed while it writes leaves a torn file, so both
are faults here. The repository object holds nothing, so a restart changes nothing. -/

namespace Kitematic.CrashedSaves
open CheckpointFiles CheckpointHistory CheckpointOverwrites CheckpointPaths CheckpointStores
  Checkpoints Dictionary FallibleOrder FilePaths IndexLoss KeyOrder PyText StorePaths
open FileSystem (readBack)
variable {τ δ : Type}

structure Attempt (τ δ : Type) where
  checkpoint : Checkpoint δ
  faults : Faults τ := {}

/-- The files, with the checkpoints whose file was put in place and those whose `save` came to its
end, the newest first. -/
structure World (τ δ : Type) where
  disk : FileState τ
  placed : History δ := []
  returned : History δ := []

section world
variable (F : TextFormats τ δ) (S : Surroundings)

def note {α : Type} (h : History δ) (cp : Checkpoint δ) : Except PyError α → History δ
  | .ok _ => cp :: h
  | .error _ => h

def attempt (w : World τ δ) (a : Attempt τ δ) : World τ δ where
  disk := (save F S a.faults w.disk a.checkpoint).1
  placed := note w.placed a.checkpoint (placeCheckpoint F S a.faults w.disk a.checkpoint).2
  returned := note w.returned a.checkpoint (save F S a.faults w.disk a.checkpoint).2

def attempts (w : World τ δ) (tries : List (Attempt τ δ)) : World τ δ := tries.foldl (attempt F S) w

/-- Nothing is where a plain id or the index has its file. -/
structure Fresh (disk : FileState τ) : Prop where
  index : disk.get S.indexPath = none
  files : ∀ id, Plain id → (S.dest id).bind disk.get = none

/-- What is in place under the ids of the saves that returned. -/
def survivors (w : World τ δ) (executionId : String) : List (Checkpoint δ) :=
  (savedUnder w.returned executionId).filterMap (find w.placed)

/-- The answers: under an id what was put in place last, whole; and of an execution what is in
place under the ids that some `save` returned for. -/
structure Answered (w : World τ δ) : Prop where
  get : ∀ id, Plain id → get F S w.disk id = .ok ((find w.placed id).map readBack)
  listing : ∀ executionId, listByExecution F S w.disk executionId =
    .ok ((sortBy InMemoryCheckpointRepository.key (survivors w executionId)).map readBack)
  latest : ∀ executionId, ∃ best, Greatest (survivors w executionId) best ∧
    getLatest F S w.disk executionId = .ok (best.map readBack)
  durable : ∀ cp ∈ w.returned, ∃ inPlace ∈ survivors w cp.executionId,
    find w.placed cp.checkpointId = some inPlace

/-- Two directories that answer alike. -/
structure Alike (disk disk' : FileState τ) : Prop where
  get : ∀ id, Plain id → get F S disk id = get F S disk' id
  listing : ∀ executionId,
    listByExecution F S disk executionId = listByExecution F S disk' executionId
  latest : ∀ executionId, getLatest F S disk executionId = getLatest F S disk' executionId

/-- The checkpoint is tried with these faults, and then with nothing in the way. -/
def retried (w : World τ δ) (cp : Checkpoint δ) (faults : List (Faults τ)) : World τ δ :=
  attempt F S (attempts F S w (faults.map (⟨cp, ·⟩))) ⟨cp, {}⟩

/-- However often its `save` was cut off, the checkpoint is then there, and all answers are as if
it had been saved at once. -/
def Repairable (w : World τ δ) (cp : Checkpoint δ) : Prop :=
  ∀ faults : List (Faults τ), (∀ f ∈ faults, f.read = false) →
    cp ∈ survivors (retried F S w cp faults) cp.executionId ∧
      Alike F S (retried F S w cp faults).disk (retried F S w cp []).disk

/-- A `save` is of a checkpoint with a plain id, and is not refused the reading of the index. -/
structure Regular (a : Attempt τ δ) : Prop where
  native : a.checkpoint.IsNative
  plain : Plain a.checkpoint.checkpointId
  reads : a.faults.read = false

structure Holds (w : World τ δ) : Prop where
  files : ∀ id, Plain id → (S.dest id).bind w.disk.get = (find w.placed id).map (textOf F)
  native : ∀ cp ∈ w.placed, cp.IsNative
  plain : ∀ cp ∈ w.placed, Plain cp.checkpointId
  index : ∃ index : Index, loadIndex F S {} w.disk = .ok (indexValue index) ∧
    ∀ executionId, (index.get executionId).getD [] = savedUnder w.returned executionId
  returned : ∀ cp ∈ w.returned, cp ∈ w.placed

end world

/-! What the parts of a `save` do, whatever stops them. -/

section parts
variable {F : TextFormats τ δ} {S : Surroundings} {faults : Faults τ} {disk : FileState τ}
  {cp : Checkpoint δ}

theorem placeCheckpoint_effect (F : TextFormats τ δ) (S : Surroundings) (faults : Faults τ)
    (disk : FileState τ) (cp : Checkpoint δ) :
    (∃ after e, placeCheckpoint F S faults disk cp = (after, .error e) ∧
      ∀ path, S.tmp cp.checkpointId ≠ some path → after.get path = disk.get path) ∨
    ∃ after source target, placeCheckpoint F S faults disk cp = (after, .ok ()) ∧
      S.tmp cp.checkpointId = some source ∧ S.dest cp.checkpointId = some target ∧
      ∀ path, after.get path = if path = target then some (textOf F cp)
        else if path = source then none else disk.get path := by
  unfold placeCheckpoint
  cases written : S.tmp cp.checkpointId with
  | none => exact .inl ⟨disk, osError, rfl, fun _ _ => rfl⟩
  | some source =>
    have apart : ∀ {path}, some source ≠ some path → path ≠ source :=
      fun other same => other (same ▸ rfl)
    cases refused : faults.write with
    | some torn =>
      cases torn with
      | none => exact .inl ⟨disk, osError, rfl, fun _ _ => rfl⟩
      | some torn =>
        refine .inl ⟨_, osError, rfl, fun path other => ?_⟩
        rw [FileState.get, Dict.get_set, if_neg (apart other)]
        rfl
    | none =>
      by_cases fails : S.dest cp.checkpointId = none ∨ faults.place = true
      · exact .inl ⟨_, osError, replace_refused _ fails,
          fun path other => get_written disk _ (apart other)⟩
      · obtain ⟨located, places⟩ := not_or.mp fails
        obtain ⟨target, stored⟩ := Option.ne_none_iff_exists'.mp located
        obtain ⟨files, moved, got⟩ := disk.replace_written source target (textOf F cp)
        refine .inr ⟨⟨files, target :: source :: disk.written⟩, source, target, ?_, rfl, stored,
          got⟩
        rw [stored, Bool.eq_false_of_not_eq_true places]
        exact moved

theorem saveIndex_effect (F : TextFormats τ δ) (S : Surroundings) (faults : Faults τ)
    (disk : FileState τ) (index : Value) :
    (∃ after e, saveIndex F S faults disk index = (after, .error e) ∧
      ∀ path, path ≠ S.indexTmp → after.get path = disk.get path) ∨
    ∃ after, saveIndex F S faults disk index = (after, .ok ()) ∧
      ∀ path, after.get path = if path = S.indexPath then some (F.dump index)
        else if path = S.indexTmp then none else disk.get path := by
  unfold saveIndex
  cases refused : faults.writeIndex with
  | some torn =>
    cases torn with
    | none => exact .inl ⟨disk, osError, rfl, fun _ _ => rfl⟩
    | some torn =>
      refine .inl ⟨_, osError, rfl, fun path other => ?_⟩
      rw [FileState.get, Dict.get_set, if_neg other]
      rfl
  | none =>
    cases places : faults.placeIndex with
    | true =>
      exact .inl ⟨_, osError, replace_refused _ (.inr rfl),
        fun path other => get_written disk _ other⟩
    | false =>
      obtain ⟨files, moved, got⟩ := disk.replace_written S.indexTmp S.indexPath (F.dump index)
      exact .inr ⟨⟨files, S.indexPath :: S.indexTmp :: disk.written⟩, moved, got⟩

theorem loadIndex_effect (F : TextFormats τ δ) (S : Surroundings) (disk : FileState τ)
    (reads : faults.read = false) : loadIndex F S faults disk = .error osError ∨
      loadIndex F S faults disk = loadIndex F S {} disk := by
  cases stat : faults.stat <;> simp [loadIndex, stat, reads]

end parts

/-! What each part keeps. -/

section holds
variable {F : TextFormats τ δ} {S : Surroundings} {w : World τ δ} {disk : FileState τ}
  {cp : Checkpoint δ} {placed returned : History δ}

theorem holds_fresh (fresh : Fresh S disk) : Holds F S (⟨disk, [], []⟩ : World τ δ) where
  files := fresh.files
  native := fun _ none => nomatch none
  plain := fun _ none => nomatch none
  index := by
    refine ⟨.empty, ?_, fun _ => rfl⟩
    simp only [loadIndex, fresh.index]
    rfl
  returned := fun _ none => nomatch none

theorem Holds.congr (holds : Holds F S w)
    (sameIndex : disk.get S.indexPath = w.disk.get S.indexPath)
    (files : ∀ id path, S.dest id = some path → disk.get path = w.disk.get path) :
    Holds F S ⟨disk, w.placed, w.returned⟩ where
  files := by
    intro id plain
    rw [← holds.files id plain]
    exact Option.bind_congr fun path located => files id path located
  native := holds.native
  plain := holds.plain
  index := by
    obtain ⟨index, loaded, lists⟩ := holds.index
    exact ⟨index, (loadIndex_congr F S sameIndex {}).trans loaded, lists⟩
  returned := holds.returned

theorem Holds.place (holds : Holds F S w) (native : cp.IsNative) (plain : Plain cp.checkpointId)
    {source target : FilePath} (written : S.tmp cp.checkpointId = some source)
    (stored : S.dest cp.checkpointId = some target)
    (files : ∀ path, disk.get path = if path = target then some (textOf F cp)
      else if path = source then none else w.disk.get path) :
    Holds F S ⟨disk, cp :: w.placed, w.returned⟩ where
  files := by
    intro id flat
    rw [find_cons]
    by_cases same : id = cp.checkpointId
    · rw [same, stored, Option.bind_some, files, if_pos rfl, if_pos rfl, Option.map_some]
    · rw [if_neg same, ← holds.files id flat]
      refine Option.bind_congr fun path located => ?_
      have apart : path ≠ target := fun here =>
        same (dest_plain_inj flat plain (here ▸ located) stored)
      rw [files, if_neg apart, if_neg (S.tmp_ne_dest written located).symm]
  native := List.forall_mem_cons.mpr ⟨native, holds.native⟩
  plain := List.forall_mem_cons.mpr ⟨plain, holds.plain⟩
  index := by
    obtain ⟨index, loaded, lists⟩ := holds.index
    refine ⟨index, (loadIndex_congr F S ?_ {}).trans loaded, lists⟩
    have apart : S.indexPath ≠ target := fun here => dest_plain_ne_index plain (here ▸ stored)
    rw [files, if_neg apart, if_neg (S.tmp_ne_index written).symm]
  returned := fun cp member => List.mem_cons_of_mem _ (holds.returned cp member)

theorem Holds.enter (holds : Holds F S w) {index : Index}
    (lists : ∀ executionId, (index.get executionId).getD [] = savedUnder w.returned executionId)
    (member : cp ∈ w.placed)
    (files : ∀ path, disk.get path =
      if path = S.indexPath then some (F.dump (indexValue (indexed index cp)))
      else if path = S.indexTmp then none else w.disk.get path) :
    Holds F S ⟨disk, w.placed, cp :: w.returned⟩ where
  files := by
    intro id plain
    rw [← holds.files id plain]
    refine Option.bind_congr fun path located => ?_
    have apart : path ≠ S.indexPath := fun here => dest_plain_ne_index plain (here ▸ located)
    rw [files, if_neg apart, if_neg (S.indexTmp_ne_dest located).symm]
  native := holds.native
  plain := holds.plain
  index := by
    refine ⟨sortedIndex (indexed index cp), loadIndex_written F S (by rw [files, if_pos rfl]),
      fun executionId => ?_⟩
    rw [get_sortedIndex]
    exact savedUnder_indexed lists cp executionId
  returned := List.forall_mem_cons.mpr ⟨member, holds.returned⟩

/-- Wherever a `save` stops, what it leaves holds. -/
theorem Holds.attempt (holds : Holds F S w) {a : Attempt τ δ} (regular : Regular a) :
    Holds F S (attempt F S w a) := by
  obtain ⟨cp, faults⟩ := a
  obtain ⟨native, plain, reads⟩ := regular
  unfold CrashedSaves.attempt
  rcases placeCheckpoint_effect F S faults w.disk cp with
    ⟨after, e, stopped, kept⟩ | ⟨after, source, target, moved, written, stored, files⟩
  · simp only [stopped, save_of_unplaced stopped, note]
    refine holds.congr (kept _ fun here => S.tmp_ne_index here rfl) fun id path located => ?_
    exact kept path fun here => S.tmp_ne_dest here located rfl
  · have inPlace := holds.place native plain written stored files
    obtain ⟨index, loaded, lists⟩ := inPlace.index
    rcases loadIndex_effect F S after reads with failed | same
    · simpa only [moved, save_of_unloaded moved failed, note] using inPlace
    · have adds := addToIndex_indexValue index cp
      rcases saveIndex_effect F S faults after (indexValue (indexed index cp)) with
        ⟨last, e, stopped, kept⟩ | ⟨last, done, files'⟩
      · simp only [moved, save_of_unwritten moved (same.trans loaded) adds stopped, note]
        refine inPlace.congr (kept _ S.indexTmp_ne_index.symm) fun id path located => ?_
        exact kept path (S.indexTmp_ne_dest located).symm
      · simp only [moved, save_of_done moved (same.trans loaded) adds done, note]
        exact inPlace.enter lists List.mem_cons_self files'

theorem Holds.attempts (holds : Holds F S w) {tries : List (Attempt τ δ)}
    (regular : ∀ a ∈ tries, Regular a) : Holds F S (attempts F S w tries) := by
  induction tries generalizing w with
  | nil => exact holds
  | cons a tries ih =>
    obtain ⟨first, later⟩ := List.forall_mem_cons.mp regular
    exact ih (holds.attempt first) later

/-! What the repository answers. -/

theorem Holds.get (holds : Holds F S w) {id : String} (plain : Plain id) :
    CheckpointFiles.get F S w.disk id = .ok ((find w.placed id).map readBack) := by
  have stored := holds.files id plain
  unfold CheckpointFiles.get
  cases found : find w.placed id with
  | none => rw [stored, found]; rfl
  | some cp =>
    rw [stored, found]
    exact readCheckpoint_textOf F (holds.native cp (mem_of_find found))

theorem Holds.gather (holds : Holds F S w) (executionId : String) :
    CheckpointFiles.gather F S w.disk executionId =
      .ok ((survivors w executionId).map readBack) := by
  obtain ⟨index, loaded, lists⟩ := holds.index
  have gets : ∀ id ∈ (index.get executionId).getD [], CheckpointFiles.get F S w.disk id =
      .ok ((find w.placed id).map readBack) := by
    intro id member
    rw [lists] at member
    obtain ⟨cp, inside, rfl, _⟩ := mem_savedUnder.mp member
    exact holds.get (holds.plain cp (holds.returned cp inside))
  rw [gather_of_gets F S loaded gets, lists, survivors, List.map_filterMap]

section gathered
variable {executionId : String} {cps : List (Checkpoint δ)}
  (gathered : CheckpointFiles.gather F S disk executionId = .ok (cps.map readBack))
include gathered

theorem listByExecution_of_gather : listByExecution F S disk executionId =
    .ok ((sortBy InMemoryCheckpointRepository.key cps).map readBack) := by
  rw [listByExecution, gathered, Except.bind, sortM_map,
    sortM_eq fun a _ b _ => lessKey_untyped a.sorted b.sorted]
  rfl

theorem getLatest_of_gather : ∃ best, Greatest cps best ∧
    getLatest F S disk executionId = .ok (best.map readBack) := by
  have perm := sortBy_perm InMemoryCheckpointRepository.key cps
  rw [getLatest, listByExecution_of_gather gathered, Except.bind, firstMaxM_map]
  by_cases empty : cps = []
  · exact ⟨none, empty, by rw [empty]; rfl⟩
  · have filled : sortBy InMemoryCheckpointRepository.key cps ≠ [] :=
      fun none => empty (List.nil_perm.mp (none ▸ perm))
    obtain ⟨best, member, found, above⟩ := firstMaxM_eq filled
      fun a _ b _ => less_int a.version b.version
    refine ⟨some best, ⟨perm.mem_iff.mp member, fun cp inside => ?_⟩, ?_⟩
    · exact above cp (perm.mem_iff.mpr inside)
    · exact congrArg (Except.map (Option.map _)) found

end gathered

theorem Holds.answered (holds : Holds F S w) : Answered F S w where
  get := fun _ plain => holds.get plain
  listing := fun executionId => listByExecution_of_gather (holds.gather executionId)
  latest := fun executionId => getLatest_of_gather (holds.gather executionId)
  durable := by
    intro cp member
    obtain ⟨inPlace, found, _⟩ := find_isSome (holds.returned cp member)
    exact ⟨inPlace, List.mem_filterMap.mpr
      ⟨cp.checkpointId, mem_savedUnder.mpr ⟨cp, member, rfl, rfl⟩, found⟩, found⟩

/-! Trying again. -/

theorem Holds.alike {w' : World τ δ} (holds : Holds F S w) (holds' : Holds F S w')
    (placed : ∀ id, find w.placed id = find w'.placed id)
    (returned : ∀ executionId,
      savedUnder w.returned executionId = savedUnder w'.returned executionId) :
    Alike F S w.disk w'.disk := by
  have listing : ∀ executionId,
      listByExecution F S w.disk executionId = listByExecution F S w'.disk executionId := by
    intro executionId
    rw [listByExecution, listByExecution, holds.gather, holds'.gather, survivors, survivors,
      returned, funext placed]
  refine ⟨fun id plain => ?_, listing, fun executionId => ?_⟩
  · rw [holds.get plain, holds'.get plain, placed]
  · rw [getLatest, getLatest, listing]

theorem find_again (cp : Checkpoint δ) (n : Nat) (h : History δ) (id : String) :
    find (cp :: (List.replicate n cp ++ h)) id = find (cp :: h) id := by
  induction n with
  | zero => rfl
  | succ n ih =>
    rw [← ih, List.replicate_succ, List.cons_append, find_cons, find_cons]
    split <;> rfl

theorem addId_again (ids : List String) (id : String) : addId (addId ids id) id = addId ids id :=
  if_pos (mem_addId.mpr (.inl rfl))

theorem savedUnder_again (cp : Checkpoint δ) (n : Nat) (h : History δ) (executionId : String) :
    savedUnder (cp :: (List.replicate n cp ++ h)) executionId =
      savedUnder (cp :: h) executionId := by
  induction n with
  | zero => rfl
  | succ n ih =>
    rw [← ih, List.replicate_succ, List.cons_append, savedUnder, savedUnder]
    split
    · exact addId_again _ _
    · rfl

theorem note_eq {α : Type} (h : History δ) (cp : Checkpoint δ) (outcome : Except PyError α) :
    ∃ n, note h cp outcome = List.replicate n cp ++ h := by
  cases outcome with
  | ok _ => exact ⟨1, rfl⟩
  | error _ => exact ⟨0, rfl⟩

theorem attempts_again (F : TextFormats τ δ) (S : Surroundings) (w : World τ δ)
    (cp : Checkpoint δ) (faults : List (Faults τ)) :
    ∃ n m, (attempts F S w (faults.map (⟨cp, ·⟩))).placed = List.replicate n cp ++ w.placed ∧
      (attempts F S w (faults.map (⟨cp, ·⟩))).returned = List.replicate m cp ++ w.returned := by
  induction faults generalizing w with
  | nil => exact ⟨0, 0, rfl, rfl⟩
  | cons first faults ih =>
    obtain ⟨n, m, placed, returned⟩ := ih (attempt F S w ⟨cp, first⟩)
    obtain ⟨i, noted⟩ := note_eq w.placed cp (placeCheckpoint F S first w.disk cp).2
    obtain ⟨j, noted'⟩ := note_eq w.returned cp (save F S first w.disk cp).2
    refine ⟨n + i, m + j, placed.trans ?_, returned.trans ?_⟩
    · rw [List.replicate_add, List.append_assoc, ← noted]
      rfl
    · rw [List.replicate_add, List.append_assoc, ← noted']
      rfl

theorem Holds.attempt_done (holds : Holds F S w) (usable : Usable S cp.checkpointId) :
    (CrashedSaves.attempt F S w ⟨cp, {}⟩).placed = cp :: w.placed ∧
      (CrashedSaves.attempt F S w ⟨cp, {}⟩).returned = cp :: w.returned := by
  obtain ⟨source, written⟩ := usable.tmp
  obtain ⟨index, loaded, _⟩ := holds.index
  have other : filePath S cp.checkpointId ≠ S.indexPath :=
    fun named => dest_plain_ne_index usable.plain (named ▸ usable.dest)
  obtain ⟨files, moved, _⟩ := placeCheckpoint_located F S w.disk written usable.dest
  have answer := (save_located F S written usable.dest other loaded).1
  simp only [CrashedSaves.attempt, moved, answer, note, and_self]

theorem Holds.repairable (holds : Holds F S w) (native : cp.IsNative)
    (usable : Usable S cp.checkpointId) : Repairable F S w cp := by
  intro faults reads
  have regular : ∀ f : Faults τ, f.read = false → Regular ⟨cp, f⟩ :=
    fun f read => ⟨native, usable.plain, read⟩
  have tried : Holds F S (CrashedSaves.attempts F S w (faults.map (⟨cp, ·⟩))) := by
    refine holds.attempts fun a member => ?_
    obtain ⟨f, inside, rfl⟩ := List.mem_map.mp member
    exact regular f (reads f inside)
  have done := tried.attempt (regular {} rfl)
  obtain ⟨n, m, placed, returned⟩ := attempts_again F S w cp faults
  obtain ⟨last, last'⟩ := tried.attempt_done usable
  obtain ⟨once, once'⟩ : (retried F S w cp []).placed = cp :: w.placed ∧
      (retried F S w cp []).returned = cp :: w.returned := holds.attempt_done usable
  refine ⟨List.mem_filterMap.mpr ⟨cp.checkpointId, ?_, ?_⟩,
    done.alike (holds.attempt (regular {} rfl)) (fun id => ?_) fun executionId => ?_⟩
  · rw [retried, last', mem_savedUnder]
    exact ⟨cp, List.mem_cons_self, rfl, rfl⟩
  · rw [retried, last, find_cons, if_pos rfl]
  · rw [last, once, placed, find_again]
  · rw [last', once', returned, savedUnder_again]

end holds

/-- In an empty directory, whatever saves of checkpoints with plain ids are refused or cut off, at
whatever file operation but the reading of the index: every answer is of whole checkpoints, no
`save` that returned is lost, and one that did not can be made good. -/
theorem crash_safe (F : TextFormats τ δ) (S : Surroundings) {disk : FileState τ}
    (fresh : Fresh S disk) {tries : List (Attempt τ δ)} (regular : ∀ a ∈ tries, Regular a) :
    Answered F S (attempts F S ⟨disk, [], []⟩ tries) ∧
      ∀ cp : Checkpoint δ, cp.IsNative → Usable S cp.checkpointId →
        Repairable F S (attempts F S ⟨disk, [], []⟩ tries) cp := by
  have holds : Holds F S (attempts F S ⟨disk, [], []⟩ tries) :=
    (holds_fresh fresh).attempts regular
  exact ⟨holds.answered, fun cp native usable => holds.repairable native usable⟩

def killedTwice : List (Attempt (List Char) IsoDate.DateTime) :=
  [⟨checkpoint "a" 1, {}⟩, ⟨checkpoint "b" 2, { stat := true }⟩,
    ⟨checkpoint "b" 2, { write := some (some ['\x7b']) }⟩]

theorem crash_safe_killed :
    Answered (jsonFormats fun s => s) surroundings
        (attempts (jsonFormats fun s => s) surroundings ⟨{}, [], []⟩ killedTwice) ∧
      Repairable (jsonFormats fun s => s) surroundings
        (attempts (jsonFormats fun s => s) surroundings ⟨{}, [], []⟩ killedTwice)
        (checkpoint "b" 2) := by
  have fresh : Fresh surroundings ({} : FileState (List Char)) :=
    ⟨rfl, fun id _ => by cases surroundings.dest id <;> rfl⟩
  have regular : ∀ a ∈ killedTwice, Regular a := by
    intro a member
    simp only [killedTwice, List.mem_cons, List.not_mem_nil, or_false] at member
    rcases member with rfl | rfl | rfl
    all_goals exact ⟨by simp [checkpoint, Checkpoint.IsNative], by simp [checkpoint, Plain], rfl⟩
  have usable : Usable surroundings "b" :=
    usable_of_free (by simp [Plain]) (by decide) (by decide)
  obtain ⟨answered, repairable⟩ := crash_safe (jsonFormats fun s => s) surroundings fresh regular
  exact ⟨answered, repairable _ (by simp [checkpoint, Checkpoint.IsNative]) usable⟩

end Kitematic.CrashedSaves

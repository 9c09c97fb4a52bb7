import Kitematic.CheckpointHistory
import Kitematic.CheckpointPaths

/-! Checkpoints saved again. Both repositories put an id into the index of its execution and
never take it out of another, while the content under an id is the one saved last. Histories
are newest first here, so that what is found is what was saved last. -/

namespace Kitematic.CheckpointOverwrites
open CheckpointFiles CheckpointHistory CheckpointPaths CheckpointStores Checkpoints Dictionary
  FallibleOrder FilePaths KeyOrder PyText Trace

section history
variable {δ α : Type} {h : History δ} {cp : Checkpoint δ} {id executionId : String}

/-- The ids ever saved under an execution. -/
def savedUnder : History δ → String → List String
  | [], _ => []
  | cp :: h, executionId =>
      if cp.executionId = executionId then addId (savedUnder h executionId) cp.checkpointId
      else savedUnder h executionId

/-- What is held under these ids. -/
def held (h : History δ) (executionId : String) : List (Checkpoint δ) :=
  (savedUnder h executionId).filterMap (find h)

/-- Exactly the checkpoints whose content saved last is of the execution, each once and in
order. -/
structure IsListing (h : History δ) (executionId : String) (cps : List (Checkpoint δ)) : Prop where
  once : (cps.map Checkpoint.checkpointId).Nodup
  complete : ∀ cp, cp ∈ cps ↔ find h cp.checkpointId = some cp ∧ cp.executionId = executionId
  ordered : cps.Pairwise fun a b =>
    InMemoryCheckpointRepository.key a ≤ InMemoryCheckpointRepository.key b

/-- The last of a listing, up to equal versions. -/
def IsLast (cps : List (Checkpoint δ)) : Option (Checkpoint δ) → Prop
  | none => cps = []
  | some best => best ∈ cps ∧ cps.getLast?.map Checkpoint.version = some best.version

/-- A listing and a latest checkpoint that are right, as they are seen from outside. -/
def Reconciled (view : Checkpoint δ → α) (h : History δ) (executionId : String)
    (listing : Except PyError (List α)) (latest : Except PyError (Option α)) : Prop :=
  ∃ cps best, IsListing h executionId cps ∧ IsLast cps best ∧
    listing = .ok (cps.map view) ∧ latest = .ok (best.map view)

/-- No id was saved under two executions. -/
def Steady (h : History δ) : Prop :=
  ∀ a ∈ h, ∀ b ∈ h, a.checkpointId = b.checkpointId → a.executionId = b.executionId

/-- A checkpoint with the greatest version. -/
def Greatest (cps : List (Checkpoint δ)) : Option (Checkpoint δ) → Prop
  | none => cps = []
  | some best => best ∈ cps ∧ ∀ cp ∈ cps, cp.version ≤ best.version

/-- What the repositories answer, whatever was saved: what is held, in order. -/
structure Answers (view : Checkpoint δ → α) (h : History δ)
    (listing : String → Except PyError (List α))
    (latest : String → Except PyError (Option α)) : Prop where
  listing : ∀ executionId, listing executionId =
    .ok ((sortBy InMemoryCheckpointRepository.key (held h executionId)).map view)
  latest : ∀ executionId, ∃ best, Greatest (held h executionId) best ∧
    latest executionId = .ok (best.map view)

theorem mem_addId {ids : List String} {added : String} :
    id ∈ addId ids added ↔ id = added ∨ id ∈ ids := by
  unfold addId
  split
  next member =>
    refine ⟨.inr, fun either => ?_⟩
    cases either with
    | inl same => exact same ▸ member
    | inr old => exact old
  next => rw [List.mem_append, List.mem_singleton, or_comm]

theorem nodup_addId {ids : List String} (distinct : ids.Nodup) (added : String) :
    (addId ids added).Nodup := by
  unfold addId
  split
  next => exact distinct
  next fresh =>
    refine List.nodup_append.mpr ⟨distinct, List.nodup_singleton _, fun a inside b last same => ?_⟩
    exact fresh (List.mem_singleton.mp last ▸ same ▸ inside)

theorem mem_savedUnder :
    id ∈ savedUnder h executionId ↔
      ∃ cp ∈ h, cp.checkpointId = id ∧ cp.executionId = executionId := by
  induction h with
  | nil => simp [savedUnder]
  | cons cp h ih =>
    by_cases here : cp.executionId = executionId
    · rw [savedUnder, if_pos here, mem_addId, ih]
      simp [here, eq_comm]
    · rw [savedUnder, if_neg here, ih]
      simp [here]

theorem nodup_savedUnder (h : History δ) (executionId : String) :
    (savedUnder h executionId).Nodup := by
  induction h with
  | nil => exact List.nodup_nil
  | cons cp h ih =>
    unfold savedUnder
    split
    · exact nodup_addId ih _
    · exact ih

theorem find_id (found : find h id = some cp) : cp.checkpointId = id := by
  simpa using List.find?_some found

theorem find_savedUnder (member : id ∈ savedUnder h executionId) : ∃ cp, find h id = some cp := by
  obtain ⟨cp, inside, rfl, _⟩ := mem_savedUnder.mp member
  obtain ⟨inPlace, found, _⟩ := find_isSome inside
  exact ⟨inPlace, found⟩

theorem mem_held : cp ∈ held h executionId ↔
    find h cp.checkpointId = some cp ∧ cp.checkpointId ∈ savedUnder h executionId := by
  refine List.mem_filterMap.trans ⟨fun ⟨id, member, found⟩ => ?_, fun ⟨found, member⟩ => ?_⟩
  · rw [find_id found]
    exact ⟨found, member⟩
  · exact ⟨_, member, found⟩

theorem ids_held (h : History δ) (executionId : String) :
    (held h executionId).map Checkpoint.checkpointId = savedUnder h executionId := by
  rw [held, List.map_filterMap]
  refine (List.filterMap_congr fun id member => ?_).trans List.filterMap_some
  obtain ⟨cp, found⟩ := find_savedUnder member
  rw [found, Option.map_some, find_id found]

theorem mem_held_of_steady (steady : Steady h) : cp ∈ held h executionId ↔
    find h cp.checkpointId = some cp ∧ cp.executionId = executionId := by
  refine mem_held.trans (and_congr_right fun found => mem_savedUnder.trans ?_)
  refine ⟨fun ⟨other, member, same, owned⟩ => ?_, fun owned => ?_⟩
  · exact (steady cp (mem_of_find found) other member same.symm).trans owned
  · exact ⟨cp, mem_of_find found, rfl, owned⟩

theorem key_version_le {a b : Checkpoint δ}
    (below : InMemoryCheckpointRepository.key a ≤ InMemoryCheckpointRepository.key b) :
    a.version ≤ b.version := Prod.Lex.monotone_fst _ _ below

theorem isLast_of_greatest {cps : List (Checkpoint δ)} {best : Option (Checkpoint δ)}
    (ordered : cps.Pairwise fun a b =>
      InMemoryCheckpointRepository.key a ≤ InMemoryCheckpointRepository.key b)
    (greatest : Greatest cps best) : IsLast cps best := by
  cases best with
  | none => exact greatest
  | some best =>
    obtain ⟨member, above⟩ := greatest
    refine ⟨member, ?_⟩
    rcases List.eq_nil_or_concat cps with rfl | ⟨front, last, rfl⟩
    · exact absurd member List.not_mem_nil
    rw [List.concat_eq_append] at *
    have upper := above last (by simp)
    have lower : best.version ≤ last.version := by
      cases List.mem_append.mp member with
      | inl earlier =>
        exact key_version_le ((List.pairwise_append.mp ordered).2.2 _ earlier last (by simp))
      | inr same => rw [List.mem_singleton.mp same]
    simp [le_antisymm lower upper]

/-- The listings are right exactly when no id was saved under two executions. -/
theorem reconciled_iff_steady {view : Checkpoint δ → α} (name : α → String)
    (named : ∀ cp, name (view cp) = cp.checkpointId)
    {listing : String → Except PyError (List α)} {latest : String → Except PyError (Option α)}
    (answers : Answers view h listing latest) :
    (∀ executionId,
      Reconciled view h executionId (listing executionId) (latest executionId)) ↔ Steady h := by
  constructor
  · intro reconciled a insideA b insideB same
    obtain ⟨cp, found, owner⟩ := find_isSome insideA
    -- The listing of each execution names the ids ever saved under it.
    have owned : ∀ e, a.checkpointId ∈ savedUnder h e → cp.executionId = e := by
      intro e member
      obtain ⟨cps, _, right, _, listed, _⟩ := reconciled e
      have seen := Except.ok.inj ((answers.listing e).symm.trans listed)
      have names := congrArg (List.map name) seen
      simp only [List.map_map, Function.comp_def, named] at names
      have listedHere : a.checkpointId ∈ cps.map Checkpoint.checkpointId := by
        rw [← names]
        have perm := (sortBy_perm InMemoryCheckpointRepository.key (held h e)).map
          Checkpoint.checkpointId
        exact perm.mem_iff.mpr (ids_held h e ▸ member)
      obtain ⟨other, inside, sameId⟩ := List.mem_map.mp listedHere
      obtain ⟨last, mine⟩ := (right.complete other).mp inside
      rw [sameId, found] at last
      exact Option.some.inj last ▸ mine
    have first := owned a.executionId (mem_savedUnder.mpr ⟨a, insideA, rfl, rfl⟩)
    have second := owned b.executionId (mem_savedUnder.mpr ⟨b, insideB, same.symm, rfl⟩)
    exact first.symm.trans second
  · intro steady e
    obtain ⟨best, greatest, latest⟩ := answers.latest e
    have perm := sortBy_perm InMemoryCheckpointRepository.key (held h e)
    have ordered := sortBy_pairwise InMemoryCheckpointRepository.key (held h e)
    refine ⟨_, best, ⟨?_, fun cp => ?_, ordered⟩, isLast_of_greatest ordered ?_,
      answers.listing e, latest⟩
    · rw [(perm.map Checkpoint.checkpointId).nodup_iff, ids_held]
      exact nodup_savedUnder h e
    · exact perm.mem_iff.trans (mem_held_of_steady steady)
    · cases best with
      | none => exact List.perm_nil.mp ((show held h e = [] from greatest) ▸ perm)
      | some best =>
        exact ⟨perm.mem_iff.mpr greatest.1, fun cp member => greatest.2 cp (perm.mem_iff.mp member)⟩

theorem savedUnder_indexed {index : Index}
    (lists : ∀ executionId, (index.get executionId).getD [] = savedUnder h executionId)
    (cp : Checkpoint δ) (executionId : String) :
    ((indexed index cp).get executionId).getD [] = savedUnder (cp :: h) executionId := by
  rw [indexed, Dict.get_set, savedUnder, lists]
  by_cases here : executionId = cp.executionId
  · simp [here]
  · rw [if_neg here, if_neg (Ne.symm here), lists]

end history

structure Saved (σ δ : Type) where
  store : σ
  history : History δ := []

/-! The repository in memory. -/

section memory
variable {δ : Type} {repo : InMemoryCheckpointRepository δ} {h : History δ}

def saveInMemory (s : Saved (InMemoryCheckpointRepository δ) δ) (cp : Checkpoint δ) :
    Option (Saved (InMemoryCheckpointRepository δ) δ) :=
  some ⟨s.store.save cp, cp :: s.history⟩

structure InMemory (repo : InMemoryCheckpointRepository δ) (h : History δ) : Prop where
  store : ∀ id, repo.get id = find h id
  index : ∀ executionId, (repo.executionIndex.get executionId).getD [] = savedUnder h executionId

theorem inMemory_save (inMemory : InMemory repo h) (cp : Checkpoint δ) :
    InMemory (repo.save cp) (cp :: h) := by
  refine ⟨fun id => ?_, savedUnder_indexed inMemory.index cp⟩
  rw [find_cons, ← inMemory.store]
  exact repo.store.get_set cp.checkpointId id cp

theorem inMemory_gather (inMemory : InMemory repo h) (executionId : String) :
    ∃ found, repo.gather executionId = .ok found ∧ found.Perm (held h executionId) := by
  have contents : repo.store.get = find h := funext inMemory.store
  have stored : ∀ id ∈ (repo.executionIndex.get executionId).getD [],
      ∃ cp, repo.store.get id = some cp := by
    rw [inMemory.index, contents]
    exact fun id member => find_savedUnder member
  have gathered := repo.gather_perm stored
  rwa [inMemory.index, contents] at gathered

theorem inMemory_answers (inMemory : InMemory repo h) :
    Answers id h repo.listByExecution repo.getLatest := by
  have distinct : ∀ e, ((held h e).map InMemoryCheckpointRepository.key).Nodup := by
    intro e
    refine List.Nodup.of_map (fun key : SortKey => (ofLex key).2) ?_
    rw [List.map_map]
    exact (ids_held h e).symm ▸ nodup_savedUnder h e
  refine ⟨fun e => ?_, fun e => ?_⟩
  · obtain ⟨found, gathered, perm⟩ := inMemory_gather inMemory e
    rw [InMemoryCheckpointRepository.listByExecution, gathered, List.map_id]
    exact congrArg Except.ok (sortBy_eq_of_perm perm (distinct e))
  · obtain ⟨found, gathered, perm⟩ := inMemory_gather inMemory e
    rw [InMemoryCheckpointRepository.getLatest, inMemory.index, gathered]
    split
    next empty =>
      refine ⟨none, ?_, rfl⟩
      rw [Greatest, held, List.isEmpty_iff.mp empty]
      rfl
    next filled =>
      have nonempty : found ≠ [] := by
        rintro rfl
        have ids := congrArg (List.map Checkpoint.checkpointId) (List.nil_perm.mp perm)
        rw [ids_held] at ids
        exact filled (List.isEmpty_iff.mpr ids)
      obtain ⟨best, here⟩ := firstMax_isSome Checkpoint.version nonempty
      obtain ⟨member, above⟩ := firstMax_spec here
      refine ⟨some best, ⟨perm.mem_iff.mp member, fun cp inside => ?_⟩, ?_⟩
      · exact above cp (perm.mem_iff.mpr inside)
      · rw [Option.map_id]
        exact congrArg Except.ok here

theorem inMemory_run (new : repo.store = .empty ∧ repo.executionIndex = .empty)
    {cps : List (Checkpoint δ)} {s : Saved (InMemoryCheckpointRepository δ) δ}
    (ran : run saveInMemory { store := repo } cps = some s) : InMemory s.store s.history := by
  refine run_invariant (I := fun s => InMemory s.store s.history) ?_ ?_ ran
  · intro cp _ s s' kept stepped
    exact Option.some.inj stepped ▸ inMemory_save kept cp
  · exact ⟨fun _ => by rw [InMemoryCheckpointRepository.get, new.1]; rfl,
      fun _ => by rw [new.2]; rfl⟩

end memory

/-! The repository in files. -/

section files
variable {τ δ : Type} (F : TextFormats τ δ) (S : Surroundings)

/-- A save that raises saves nothing. -/
def saveInFiles (s : Saved (FileState τ) δ) (cp : Checkpoint δ) :
    Option (Saved (FileState τ) δ) :=
  match save F S {} s.store cp with
  | (disk, .ok _) => some ⟨disk, cp :: s.history⟩
  | (disk, .error _) => some ⟨disk, s.history⟩

/-- The ids name separate files, and none of them the index. -/
def Separate (cps : List (Checkpoint δ)) : Prop :=
  ∀ a ∈ cps, S.dest a.checkpointId ≠ some S.indexPath ∧ ∀ b ∈ cps, ∀ path,
    S.dest a.checkpointId = some path → S.dest b.checkpointId = some path →
      a.checkpointId = b.checkpointId

structure InFiles (disk : FileState τ) (h : History δ) : Prop where
  files : ∀ id cp, find h id = some cp → cp.IsNative ∧ ∃ path, S.dest id = some path ∧
    path ≠ S.indexPath ∧ disk.get path = some (textOf F cp)
  index : ∃ index : Index, loadIndex F S {} disk = .ok (indexValue index) ∧
    ∀ executionId, (index.get executionId).getD [] = savedUnder h executionId

variable {F S} {disk : FileState τ} {h : History δ} {cp : Checkpoint δ}

theorem inFiles_located {source target : FilePath} (inFiles : InFiles F S disk h)
    (native : cp.IsNative) (unnamed : S.dest cp.checkpointId ≠ some S.indexPath)
    (apart : ∀ old ∈ h, S.dest old.checkpointId = some target →
      old.checkpointId = cp.checkpointId)
    (written : S.tmp cp.checkpointId = some source)
    (stored : S.dest cp.checkpointId = some target) :
    (save F S {} disk cp).2 = .ok cp ∧ InFiles F S (save F S {} disk cp).1 (cp :: h) := by
  obtain ⟨index, loaded, lists⟩ := inFiles.index
  have other : target ≠ S.indexPath := fun named => unnamed (named ▸ stored)
  obtain ⟨answer, _, files⟩ := save_located F S written stored other loaded
  refine ⟨answer, fun id held found => ?_, sortedIndex (indexed index cp), ?_, fun e => ?_⟩
  · rw [find_cons] at found
    split at found
    next same =>
      cases found
      refine ⟨native, target, same ▸ stored, other, ?_⟩
      rw [files, if_neg other, if_neg (S.indexTmp_ne_dest stored).symm, if_pos rfl]
    next different =>
      obtain ⟨old, path, located, notIndex, contents⟩ := inFiles.files id held found
      have elsewhere : path ≠ target := by
        intro here
        have known := apart held (mem_of_find found) ((find_id found).symm ▸ here ▸ located)
        exact different ((find_id found).symm.trans known)
      refine ⟨old, path, located, notIndex, ?_⟩
      rw [files, if_neg notIndex, if_neg (S.indexTmp_ne_dest located).symm, if_neg elsewhere,
        if_neg (S.tmp_ne_dest written located).symm, contents]
  · exact loadIndex_written F S (by rw [files, if_pos rfl])
  · rw [get_sortedIndex]
    exact savedUnder_indexed lists cp e

theorem inFiles_step {s s' : Saved (FileState τ) δ} (inFiles : InFiles F S s.store s.history)
    (native : cp.IsNative) (unnamed : S.dest cp.checkpointId ≠ some S.indexPath)
    (apart : ∀ old ∈ s.history, ∀ path, S.dest old.checkpointId = some path →
      S.dest cp.checkpointId = some path → old.checkpointId = cp.checkpointId)
    (stepped : saveInFiles F S s cp = some s') :
    InFiles F S s'.store s'.history ∧ ∀ old ∈ s'.history, old = cp ∨ old ∈ s.history := by
  have kept : ∀ old ∈ s.history, old = cp ∨ old ∈ s.history := fun old member => .inr member
  unfold saveInFiles at stepped
  cases written : S.tmp cp.checkpointId with
  | none =>
    rw [save_unplaced F S s.store written] at stepped
    cases stepped
    exact ⟨inFiles, kept⟩
  | some source =>
    cases stored : S.dest cp.checkpointId with
    | none =>
      rw [save_stranded F S s.store written stored] at stepped
      cases stepped
      have files : ∀ path, path ≠ source → (⟨s.store.files.set source (textOf F cp),
          source :: s.store.written⟩ : FileState τ).get path = s.store.get path := by
        intro path other
        rw [FileState.get, Dict.get_set, if_neg other]
        rfl
      obtain ⟨index, loaded, lists⟩ := inFiles.index
      refine ⟨⟨fun id held found => ?_, index, ?_, lists⟩, kept⟩
      · obtain ⟨old, path, located, notIndex, contents⟩ := inFiles.files id held found
        exact ⟨old, path, located, notIndex,
          (files path (S.tmp_ne_dest written located).symm).trans contents⟩
      · exact (loadIndex_congr F S (files _ (S.tmp_ne_index written).symm) {}).trans loaded
    | some target =>
      obtain ⟨answer, next⟩ := inFiles_located inFiles native unnamed
        (fun old member here => apart old member target here stored) written stored
      have both : save F S {} s.store cp = ((save F S {} s.store cp).1, .ok cp) :=
        Prod.ext rfl answer
      rw [both] at stepped
      cases stepped
      exact ⟨next, fun old member => List.mem_cons.mp member⟩

theorem inFiles_fresh (fresh : disk.get S.indexPath = none) :
    InFiles F S disk ([] : History δ) := by
  refine ⟨fun _ _ found => (nomatch found), .empty, ?_, fun _ => rfl⟩
  simp only [loadIndex, fresh]
  rfl

theorem inFiles_run (fresh : disk.get S.indexPath = none) {cps : List (Checkpoint δ)}
    (native : ∀ cp ∈ cps, cp.IsNative) (separate : Separate S cps) {s : Saved (FileState τ) δ}
    (ran : run (saveInFiles F S) { store := disk } cps = some s) :
    InFiles F S s.store s.history ∧ ∀ cp ∈ s.history, cp ∈ cps := by
  refine run_invariant (I := fun s => InFiles F S s.store s.history ∧
    ∀ cp ∈ s.history, cp ∈ cps) ?_ ⟨inFiles_fresh fresh, ?_⟩ ran
  · rintro cp saved s s' ⟨kept, known⟩ stepped
    obtain ⟨next, grown⟩ := inFiles_step kept (native cp saved) (separate cp saved).1
      (fun old member path here there =>
        (separate old (known old member)).2 cp saved path here there) stepped
    refine ⟨next, fun old member => ?_⟩
    cases grown old member with
    | inl same => exact same ▸ saved
    | inr earlier => exact known old earlier
  · exact fun _ member => absurd member List.not_mem_nil

theorem inFiles_gather (inFiles : InFiles F S disk h) (executionId : String) :
    gather F S disk executionId =
      .ok ((held h executionId).map fun cp => cp.sorted.untyped) := by
  obtain ⟨index, loaded, lists⟩ := inFiles.index
  have gets : ∀ id ∈ (index.get executionId).getD [], get F S disk id =
      .ok ((find h id).map fun cp => cp.sorted.untyped) := by
    intro id member
    obtain ⟨cp, found⟩ := find_savedUnder (lists executionId ▸ member)
    obtain ⟨native, path, located, _, contents⟩ := inFiles.files id cp found
    rw [found]
    exact get_of_stored F S native located contents
  rw [gather_of_gets F S loaded gets, lists, held, List.map_filterMap]

theorem inFiles_answers (inFiles : InFiles F S disk h) :
    Answers (fun cp => cp.sorted.untyped) h (listByExecution F S disk)
      (getLatest F S disk) := by
  have listing : ∀ e, listByExecution F S disk e = .ok
      ((sortBy InMemoryCheckpointRepository.key (held h e)).map fun cp => cp.sorted.untyped) := by
    intro e
    rw [listByExecution, inFiles_gather inFiles, Except.bind, sortM_map,
      sortM_eq fun a _ b _ => lessKey_untyped a.sorted b.sorted]
    rfl
  refine ⟨listing, fun e => ?_⟩
  have perm := sortBy_perm InMemoryCheckpointRepository.key (held h e)
  rw [getLatest, listing, Except.bind, firstMaxM_map]
  by_cases empty : held h e = []
  · refine ⟨none, empty, ?_⟩
    rw [empty]
    rfl
  · have filled : sortBy InMemoryCheckpointRepository.key (held h e) ≠ [] :=
      fun none => empty (List.nil_perm.mp (none ▸ perm))
    have compared : ∀ a ∈ sortBy InMemoryCheckpointRepository.key (held h e),
        ∀ b ∈ sortBy InMemoryCheckpointRepository.key (held h e),
          less (.int a.version) (.int b.version) = .ok (decide (a.version < b.version)) :=
      fun a _ b _ => less_int a.version b.version
    obtain ⟨best, member, found, above⟩ := firstMaxM_eq filled compared
    refine ⟨some best, ⟨perm.mem_iff.mp member, fun cp inside => ?_⟩, ?_⟩
    · exact above cp (perm.mem_iff.mpr inside)
    · exact congrArg (Except.map (Option.map _)) found

end files

def nameOf {δ : Type} (cp : Loaded δ) : String :=
  match cp.checkpointId with
  | .str checkpointId => checkpointId
  | _ => ""

theorem separate_of_plain {δ : Type} {S : Surroundings} {cps : List (Checkpoint δ)}
    (plain : ∀ cp ∈ cps, Plain cp.checkpointId) : Separate S cps :=
  fun a insideA => ⟨dest_plain_ne_index (plain a insideA), fun b insideB _ here there =>
    dest_plain_inj (plain a insideA) (plain b insideB) here there⟩

/-- After every sequence of saves, the listings of both repositories are right exactly when no
id was saved under two executions; of the files, where the ids name separate ones. -/
theorem reconciled_iff {τ δ : Type} (F : TextFormats τ δ) (S : Surroundings)
    (repo : InMemoryCheckpointRepository δ)
    (new : repo.store = .empty ∧ repo.executionIndex = .empty)
    (disk : FileState τ) (fresh : disk.get S.indexPath = none) (cps : List (Checkpoint δ)) :
    (∀ s, run saveInMemory { store := repo } cps = some s →
      ((∀ executionId, Reconciled id s.history executionId (s.store.listByExecution executionId)
        (s.store.getLatest executionId)) ↔ Steady s.history)) ∧
    ((∀ cp ∈ cps, cp.IsNative) → Separate S cps →
      ∀ s, run (saveInFiles F S) { store := disk } cps = some s →
        ((∀ executionId, Reconciled (fun cp => cp.sorted.untyped) s.history executionId
          (listByExecution F S s.store executionId) (getLatest F S s.store executionId)) ↔
            Steady s.history)) := by
  refine ⟨fun s ran => ?_, fun native separate s ran => ?_⟩
  · exact reconciled_iff_steady Checkpoint.checkpointId (fun _ => rfl)
      (inMemory_answers (inMemory_run new ran))
  · exact reconciled_iff_steady nameOf (fun _ => rfl)
      (inFiles_answers (inFiles_run fresh native separate ran).1)

theorem reconciled_iff_two :
    ∃ s s', run saveInMemory { store := {} } [checkpoint "a" 1, checkpoint "b" 2] = some s ∧
      run (saveInFiles (jsonFormats fun s => s) surroundings) { store := {} }
        [checkpoint "a" 1, checkpoint "b" 2] = some s' ∧
      (∀ executionId, Reconciled id s.history executionId (s.store.listByExecution executionId)
        (s.store.getLatest executionId)) ∧
      ∀ executionId, Reconciled (fun cp => cp.sorted.untyped) s'.history executionId
        (listByExecution (jsonFormats fun s => s) surroundings s'.store executionId)
        (getLatest (jsonFormats fun s => s) surroundings s'.store executionId) := by
  obtain ⟨inMemory, inFiles⟩ := reconciled_iff (jsonFormats fun s => s) surroundings {} ⟨rfl, rfl⟩
    {} rfl [checkpoint "a" 1, checkpoint "b" 2]
  have steady : Steady [checkpoint "b" 2, checkpoint "a" 1] := by
    simp [Steady, checkpoint]
  refine ⟨_, _, rfl, rfl, (inMemory _ rfl).mpr steady, (inFiles ?_ ?_ _ rfl).mpr steady⟩
  · simp [checkpoint, Checkpoint.IsNative]
  · exact separate_of_plain (by simp [checkpoint, Plain])

def moved : Checkpoint IsoDate.DateTime := { checkpoint "a" 2 with executionId := "f" }

/-- A checkpoint that is saved again under another execution is listed under both. -/
theorem moved_checkpoint_listed_twice :
    ∃ s s', run saveInMemory { store := {} } [checkpoint "a" 1, moved] = some s ∧
      run (saveInFiles (jsonFormats fun s => s) surroundings) { store := {} }
        [checkpoint "a" 1, moved] = some s' ∧
      (s.store.listByExecution "e").toOption.map (List.map Checkpoint.executionId) = some ["f"] ∧
      ¬ (∀ executionId, Reconciled id s.history executionId (s.store.listByExecution executionId)
        (s.store.getLatest executionId)) ∧
      ¬ ∀ executionId, Reconciled (fun cp => cp.sorted.untyped) s'.history executionId
        (listByExecution (jsonFormats fun s => s) surroundings s'.store executionId)
        (getLatest (jsonFormats fun s => s) surroundings s'.store executionId) := by
  have unsteady : ¬ Steady [moved, checkpoint "a" 1] := by simp [Steady, moved, checkpoint]
  obtain ⟨s, ran, saved, listed⟩ : ∃ s, run saveInMemory { store := {} }
      [checkpoint "a" 1, moved] = some s ∧ s.history = [moved, checkpoint "a" 1] ∧
        (s.store.listByExecution "e").toOption.map (List.map Checkpoint.executionId) =
          some ["f"] := ⟨_, rfl, rfl, by decide +kernel⟩
  obtain ⟨s', ran', saved'⟩ : ∃ s', run (saveInFiles (jsonFormats fun s => s) surroundings)
      { store := {} } [checkpoint "a" 1, moved] = some s' ∧
        s'.history = [moved, checkpoint "a" 1] := ⟨_, rfl, rfl⟩
  have inMemory := inMemory_answers (inMemory_run ⟨rfl, rfl⟩ ran)
  have inFiles := inFiles_run rfl (by simp [checkpoint, moved, Checkpoint.IsNative])
    (separate_of_plain (by simp [checkpoint, moved, Plain])) ran'
  refine ⟨s, s', ran, ran', listed, fun reconciled => unsteady ?_, fun reconciled => unsteady ?_⟩
  · exact saved ▸ (reconciled_iff_steady _ (fun _ => rfl) inMemory).mp reconciled
  · exact saved' ▸ (reconciled_iff_steady nameOf (fun _ => rfl) (inFiles_answers inFiles.1)).mp reconciled

end Kitematic.CheckpointOverwrites

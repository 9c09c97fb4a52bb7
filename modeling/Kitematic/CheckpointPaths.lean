import Kitematic.CheckpointFiles
import Kitematic.Trace

/-! What a `save` of the file-system repository leaves as it was. Ids are paths: two of them
may name one file, one may name the index, and one may lead out of the directory. -/

namespace Kitematic.CheckpointPaths
open CheckpointFiles CheckpointStores Checkpoints Dictionary FilePaths KeyOrder PyText Trace

section paths
variable {τ δ : Type} (F : TextFormats τ δ) (S : Surroundings)

def step (disk : FileState τ) (cp : Checkpoint δ) : Option (FileState τ) :=
  some (save F S {} disk cp).1

def listedUnder (disk : FileState τ) (executionId : String) : List Value :=
  (((loadIndex F S {} disk).bind fun index => idsOf index executionId).toOption).getD []

/-- A save changes nothing that it is not about: not what the other ids of `J` give, not the
listings of other executions, not the index but for its own id, and nothing outside. -/
structure Framed (J : Set String) (disk : FileState τ) (cp : Checkpoint δ) : Prop where
  others : ∀ j ∈ J, j ≠ cp.checkpointId →
    get F S (save F S {} disk cp).1 j = get F S disk j
  listings : ∀ executionId, executionId ≠ cp.executionId →
    listByExecution F S (save F S {} disk cp).1 executionId =
      listByExecution F S disk executionId
  index : ∃ index index' : Index, loadIndex F S {} disk = .ok (indexValue index) ∧
    loadIndex F S {} (save F S {} disk cp).1 = .ok (indexValue index') ∧
      ((∀ e, index'.get e = index.get e) ∨ ∀ e, index'.get e = (indexed index cp).get e)
  inside : ∀ path ∈ (save F S {} disk cp).1.written, path ∈ disk.written ∨ S.base <+: path

/-- The id leads to a file inside the directory that is not the index, and that is no file of
another id of `J` or of one listed under another execution, unless it holds this checkpoint
already. Where an id of `J` names the index, the execution has no name by which an index
could be taken for a checkpoint. -/
def Clean (J : Set String) (disk : FileState τ) (cp : Checkpoint δ) : Prop :=
  ∀ source, S.tmp cp.checkpointId = some source → S.base <+: source ∧
    ∀ target, S.dest cp.checkpointId = some target → S.base <+: target ∧ target ≠ S.indexPath ∧
      (∀ j ∈ J, j ≠ cp.checkpointId → S.dest j = some target →
        disk.get target = some (textOf F cp)) ∧
      (∀ j ∈ J, S.dest j = some S.indexPath →
        cp.executionId ≠ "created_at" ∧ cp.executionId ≠ "checkpoint_id") ∧
      ∀ executionId, executionId ≠ cp.executionId → ∀ id ∈ listedUnder F S disk executionId,
        S.dest (S.text id) = some target → disk.get target = some (textOf F cp)

/-- The index can be read, lists no id that names it, and gives no checkpoint to an id of `J`
that does. -/
def Indexed (J : Set String) (disk : FileState τ) : Prop :=
  ∃ index : Index, loadIndex F S {} disk = .ok (indexValue index) ∧
    (∀ executionId, ∀ id ∈ (index.get executionId).getD [], S.dest id ≠ some S.indexPath) ∧
      ∀ j ∈ J, S.dest j = some S.indexPath →
        index.get "created_at" = none ∧ index.get "checkpoint_id" = none

variable {F S} {disk disk' : FileState τ} {index index' : Index} {executionId : String}

theorem mem_listedUnder (loaded : loadIndex F S {} disk = .ok (indexValue index)) {id : String}
    (member : id ∈ (index.get executionId).getD []) :
    .str id ∈ listedUnder F S disk executionId := by
  simp only [listedUnder, loaded, Except.bind, idsOf_indexValue, Except.toOption, Option.getD_some]
  exact List.mem_map_of_mem member

theorem listByExecution_congr (loaded : loadIndex F S {} disk = .ok (indexValue index))
    (loaded' : loadIndex F S {} disk' = .ok (indexValue index'))
    (ids : index'.get executionId = index.get executionId)
    (gets : ∀ id ∈ (index.get executionId).getD [], get F S disk' id = get F S disk id) :
    listByExecution F S disk' executionId = listByExecution F S disk executionId := by
  have found : ∀ ids : List String, (∀ id ∈ ids, get F S disk' id = get F S disk id) →
      ids.mapM (get F S disk') = ids.mapM (get F S disk) := by
    intro ids same
    induction ids with
    | nil => rfl
    | cons id ids ih =>
      rw [List.mapM_cons, List.mapM_cons, same id List.mem_cons_self,
        ih fun later member => same later (List.mem_cons_of_mem _ member)]
  rw [listByExecution, listByExecution, gather_eq F S loaded', gather_eq F S loaded, ids,
    found _ gets]

theorem get_index {j : String} (loaded : loadIndex F S {} disk = .ok (indexValue index))
    (named : S.dest j = some S.indexPath) (undated : index.get "created_at" = none)
    (anonymous : index.get "checkpoint_id" = none) : get F S disk j = .ok none := by
  have noDate : (index.entries.map fun e => (e.1, Value.list (e.2.map .str))).lookup
      "created_at" = none := by
    rw [lookup_mapped index.entries fun ids => Value.list (ids.map .str)]
    exact Option.map_eq_none_iff.mpr undated
  have noId : (index.entries.map fun e => (e.1, Value.list (e.2.map .str))).lookup
      "checkpoint_id" = none := by
    rw [lookup_mapped index.entries fun ids => Value.list (ids.map .str)]
    exact Option.map_eq_none_iff.mpr anonymous
  have missing : dictToCheckpoint F (indexValue index) = .error (.keyError "checkpoint_id") := by
    simp [dictToCheckpoint, indexValue, noDate, noId, readDate, truthy, item, bind, Except.bind]
  simp only [CheckpointFiles.get, named, Option.bind_some]
  simp only [loadIndex, Bool.false_eq_true, if_false] at loaded
  cases stored : disk.get S.indexPath with
  | none => rfl
  | some contents =>
    simp only [stored, readCheckpoint] at loaded ⊢
    cases read : F.load contents with
    | ok v =>
      simp only [read, Except.ok.injEq] at loaded
      simp [loaded, Except.bind, missing]
    | error e =>
      cases e with
      | jsonDecodeError text => rfl
      | _ => simp [read] at loaded

variable {cp : Checkpoint δ} {J : Set String} {source target : FilePath}

theorem framed_of_unplaced (start : Indexed F S J disk)
    (missing : S.tmp cp.checkpointId = none) :
    Framed F S J disk cp ∧ Indexed F S J (save F S {} disk cp).1 := by
  obtain ⟨index, loaded, apart⟩ := start
  have whole : (save F S {} disk cp).1 = disk := by rw [save_unplaced F S disk missing]
  refine ⟨⟨fun _ _ _ => ?_, fun _ _ => ?_, ⟨index, index, loaded, ?_, .inl fun _ => rfl⟩,
    fun _ member => ?_⟩, index, ?_, apart⟩
  · rw [whole]
  · rw [whole]
  · rw [whole, loaded]
  · exact .inl (whole ▸ member)
  · rw [whole, loaded]

theorem framed_of_stranded (start : Indexed F S J disk)
    (written : S.tmp cp.checkpointId = some source) (missing : S.dest cp.checkpointId = none)
    (inside : S.base <+: source) :
    Framed F S J disk cp ∧ Indexed F S J (save F S {} disk cp).1 := by
  obtain ⟨index, loaded, apart⟩ := start
  have whole := save_stranded F S disk written missing
  have files : ∀ path, path ≠ source →
      (save F S {} disk cp).1.get path = disk.get path := by
    intro path other
    rw [whole, FileState.get, Dict.get_set, if_neg other]
    rfl
  have gets : ∀ j, get F S (save F S {} disk cp).1 j = get F S disk j := fun j =>
    get_congr F S fun path located => files path (S.tmp_ne_dest written located).symm
  have reloaded : loadIndex F S {} (save F S {} disk cp).1 = .ok (indexValue index) :=
    (loadIndex_congr F S (files _ (S.tmp_ne_index written).symm) {}).trans loaded
  refine ⟨⟨fun j _ _ => gets j, fun e _ => ?_, ?_, ?_⟩, index, reloaded, apart⟩
  · exact listByExecution_congr loaded reloaded rfl fun id _ => gets id
  · exact ⟨index, index, loaded, reloaded, .inl fun _ => rfl⟩
  · intro path member
    rw [whole] at member
    cases List.mem_cons.mp member with
    | inl same => exact .inr (same ▸ inside)
    | inr old => exact .inl old

theorem get_saved (loaded : loadIndex F S {} disk = .ok (indexValue index))
    (written : S.tmp cp.checkpointId = some source)
    (stored : S.dest cp.checkpointId = some target) (other : target ≠ S.indexPath) {j : String}
    (unnamed : S.dest j ≠ some S.indexPath)
    (same : S.dest j = some target → disk.get target = some (textOf F cp)) :
    get F S (save F S {} disk cp).1 j = get F S disk j := by
  obtain ⟨_, _, files⟩ := save_located F S written stored other loaded
  refine get_congr F S fun path located => ?_
  have notIndex : path ≠ S.indexPath := fun index => unnamed (index ▸ located)
  rw [files, if_neg notIndex, if_neg (S.indexTmp_ne_dest located).symm]
  split
  next here =>
    subst here
    exact (same located).symm
  next => rw [if_neg (S.tmp_ne_dest written located).symm]

theorem framed_of_located (start : Indexed F S J disk) (clean : Clean F S J disk cp)
    (written : S.tmp cp.checkpointId = some source)
    (stored : S.dest cp.checkpointId = some target) :
    Framed F S J disk cp ∧ Indexed F S J (save F S {} disk cp).1 := by
  obtain ⟨index, loaded, apart, unread⟩ := start
  obtain ⟨beside, rest⟩ := clean source written
  obtain ⟨inside, other, alone, harmless, unlisted⟩ := rest target stored
  obtain ⟨_, log, files⟩ := save_located F S written stored other loaded
  have reloaded : loadIndex F S {} (save F S {} disk cp).1 =
      .ok (indexValue (sortedIndex (indexed index cp))) :=
    loadIndex_written F S (by rw [files, if_pos rfl])
  have after : ∀ e, e ≠ cp.executionId →
      (sortedIndex (indexed index cp)).get e = index.get e := by
    intro e different
    rw [get_sortedIndex, indexed, Dict.get_set, if_neg different]
  refine ⟨⟨fun j member distinct => ?_, fun e different => ?_, ?_, ?_⟩, _, reloaded, ?_, ?_⟩
  · by_cases named : S.dest j = some S.indexPath
    · obtain ⟨undated, anonymous⟩ := unread j member named
      obtain ⟨notDate, notId⟩ := harmless j member named
      rw [get_index loaded named undated anonymous]
      exact get_index reloaded named ((after _ notDate.symm).trans undated)
        ((after _ notId.symm).trans anonymous)
    · exact get_saved loaded written stored other named (alone j member distinct)
  · refine listByExecution_congr loaded reloaded (after e different) fun id member => ?_
    refine get_saved loaded written stored other (apart e id member) fun here => ?_
    exact unlisted e different _ (mem_listedUnder loaded member) ((S.text_str id).symm ▸ here)
  · exact ⟨index, _, loaded, reloaded, .inr fun e => get_sortedIndex _ e⟩
  · intro path member
    rw [log] at member
    have indexInside : S.base <+: S.indexPath := List.prefix_append _ _
    have tmpInside : S.base <+: S.indexTmp := by
      rw [S.indexTmp_eq]
      exact List.prefix_append _ _
    simp only [List.mem_cons] at member
    rcases member with rfl | rfl | rfl | rfl | old
    · exact .inr indexInside
    · exact .inr tmpInside
    · exact .inr inside
    · exact .inr beside
    · exact .inl old
  · intro e id member
    rw [get_sortedIndex, indexed, Dict.get_set] at member
    split at member
    next same =>
      rw [Option.getD_some, addId] at member
      split at member
      next => exact apart _ id member
      next =>
        cases List.mem_append.mp member with
        | inl old => exact apart _ id old
        | inr new =>
          rw [List.mem_singleton.mp new, stored]
          exact fun named => other (Option.some.inj named)
    next => exact apart e id member
  · intro j member named
    obtain ⟨undated, anonymous⟩ := unread j member named
    obtain ⟨notDate, notId⟩ := harmless j member named
    exact ⟨(after _ notDate.symm).trans undated, (after _ notId.symm).trans anonymous⟩

theorem framed_of_clean (start : Indexed F S J disk) (clean : Clean F S J disk cp) :
    Framed F S J disk cp ∧ Indexed F S J (save F S {} disk cp).1 := by
  cases written : S.tmp cp.checkpointId with
  | none => exact framed_of_unplaced start written
  | some source =>
    cases stored : S.dest cp.checkpointId with
    | none => exact framed_of_stranded start written stored (clean source written).1
    | some target => exact framed_of_located start clean written stored

/-- In every run of clean saves each save is framed. -/
theorem framed_of_cleans {cps : List (Checkpoint δ)} (start : Indexed F S J disk)
    (clean : EachStep (step F S) (fun _ disk cp => Clean F S J disk cp) [] disk cps) :
    EachStep (step F S) (fun _ disk cp => Framed F S J disk cp) [] disk cps := by
  refine eachStep_of_clean (I := Indexed F S J) ?_ ?_ start clean
  · intro past disk cp after start clean stepped
    exact Option.some.inj stepped ▸ (framed_of_clean start clean).2
  · exact fun past disk cp start clean => (framed_of_clean start clean).1

theorem indexed_of_fresh {J : Set String} (fresh : disk.get S.indexPath = none) :
    Indexed F S J disk := by
  refine ⟨.empty, ?_, fun _ _ member => absurd member List.not_mem_nil, fun _ _ _ => ⟨rfl, rfl⟩⟩
  simp only [loadIndex, fresh]
  rfl

/-! Ids without a slash name separate files in the directory of the checkpoints. -/

def Plain (checkpointId : String) : Prop := '/' ∉ checkpointId.toList

theorem checkpointPath_plain {id : String} (plain : Plain id) :
    S.checkpointPath id = (S.checkpointsDir, [id.toList ++ ".json".toList]) := by
  have flat : '/' ∉ id.toList ++ ".json".toList := by
    rw [List.mem_append]
    rintro (inside | inside)
    · exact plain inside
    · exact absurd inside (by decide)
  have long : 2 ≤ (id.toList ++ ".json".toList).length := by simp
  have relative : isAbsolute (id.toList ++ ".json".toList) = false := by
    refine decide_eq_false fun first => flat ?_
    exact List.mem_of_mem_head? first
  simp only [Surroundings.checkpointPath, relative, parts_flat flat long, Bool.false_eq_true,
    if_false]

theorem dest_plain {id : String} {path : FilePath} (plain : Plain id)
    (located : S.dest id = some path) : path = S.checkpointsDir ++ [id.toList ++ ".json".toList] := by
  rw [Surroundings.dest, checkpointPath_plain plain] at located
  exact locate_single located

theorem tmp_plain {id : String} {path : FilePath} (plain : Plain id)
    (located : S.tmp id = some path) : S.base <+: path := by
  rw [Surroundings.tmp, checkpointPath_plain plain] at located
  rw [locate_single located, Surroundings.checkpointsDir, List.append_assoc]
  exact List.prefix_append _ _

theorem dest_plain_inj {id id' : String} {path : FilePath} (plain : Plain id) (plain' : Plain id')
    (located : S.dest id = some path) (located' : S.dest id' = some path) : id = id' := by
  have same := (dest_plain plain located).symm.trans (dest_plain plain' located')
  have names := List.singleton_inj.mp (List.append_cancel_left same)
  exact String.toList_injective (List.append_cancel_right names)

theorem dest_plain_ne_index {id : String} (plain : Plain id) : S.dest id ≠ some S.indexPath := by
  intro named
  have same := dest_plain plain named
  rw [Surroundings.indexPath, Surroundings.checkpointsDir, List.append_assoc] at same
  exact absurd (congrArg List.length (List.append_cancel_left same)) (by simp)

theorem clean_of_plain (plain : Plain cp.checkpointId) (others : ∀ j ∈ J, Plain j)
    (apart : ∀ executionId, executionId ≠ cp.executionId →
      ∀ id ∈ listedUnder F S disk executionId, Plain (S.text id) ∧ S.text id ≠ cp.checkpointId) :
    Clean F S J disk cp := by
  intro source written
  refine ⟨tmp_plain plain written, fun target stored => ⟨?_, ?_, ?_, ?_, ?_⟩⟩
  · rw [dest_plain plain stored, Surroundings.checkpointsDir, List.append_assoc]
    exact List.prefix_append _ _
  · exact fun named => dest_plain_ne_index plain (named ▸ stored)
  · intro j member distinct here
    exact absurd (dest_plain_inj (others j member) plain here stored) distinct
  · exact fun j member named => absurd named (dest_plain_ne_index (others j member))
  · intro executionId different id listed here
    obtain ⟨flat, other⟩ := apart executionId different id listed
    exact absurd (dest_plain_inj flat plain here stored) other

end paths

/-! A directory with nothing in it. -/

def surroundings : Surroundings where
  base := ["data".toList]
  isDir path := path ∈ [["data".toList], ["data".toList, "checkpoints".toList]]
  text v := match v with
    | .str s => s
    | _ => ""
  text_str _ := rfl
  index_free := by decide
  indexTmp_free := by decide

def checkpoint (checkpointId : String) (version : Int) : Checkpoint IsoDate.DateTime :=
  { checkpointId := checkpointId, executionId := "e", version := version
    triggerReason := .stepComplete, checkpointHash := "h" }

def versionOf {δ : Type} : Except PyError (Option (Loaded δ)) → Option Int
  | .ok (some { version := .int version, .. }) => some version
  | _ => none

theorem framed_of_cleans_two :
    EachStep (step (jsonFormats fun s => s) surroundings)
      (fun _ disk cp => Framed (jsonFormats fun s => s) surroundings {"a", "b"} disk cp) [] {}
      [checkpoint "a" 1, checkpoint "b" 2] := by
  have others : ∀ j ∈ ({"a", "b"} : Set String), Plain j := by
    rintro j (rfl | rfl) <;> simp [Plain]
  refine framed_of_cleans (indexed_of_fresh rfl) ⟨?_, fun disk stepped => ⟨?_, fun _ _ => trivial⟩⟩
  · refine clean_of_plain (by simp [Plain, checkpoint]) others fun e _ id listed => ?_
    exact absurd listed List.not_mem_nil
  · refine clean_of_plain (by simp [Plain, checkpoint]) others fun e different id listed => ?_
    have loaded : loadIndex (jsonFormats fun s => s) surroundings {} disk =
        .ok (.dict [("e", .list [.str "a"])]) := Option.some.inj stepped ▸ rfl
    have none : (e == "e") = false := beq_false_of_ne different
    simp [listedUnder, loaded, idsOf, Except.bind, List.lookup_cons, none, iterate,
      Except.toOption] at listed

/-- A checkpoint `./b` takes the file of the checkpoint `b`, and one whose id starts with a
slash lies outside. -/
theorem same_file_overwritten :
    ∃ disk, run (step (jsonFormats fun s => s) surroundings) {} [checkpoint "b" 1] = some disk ∧
      versionOf (get (jsonFormats fun s => s) surroundings disk "b") = some 1 ∧
      versionOf (get (jsonFormats fun s => s) surroundings
        (save (jsonFormats fun s => s) surroundings {} disk (checkpoint "./b" 2)).1 "b") = some 2 ∧
      ¬ Framed (jsonFormats fun s => s) surroundings {"b", "./b"} disk (checkpoint "./b" 2) ∧
      ¬ Framed (jsonFormats fun s => s) surroundings {"b", "/c"} disk (checkpoint "/c" 3) := by
  obtain ⟨disk, ran, before, after, outside⟩ : ∃ disk,
      run (step (jsonFormats fun s => s) surroundings) {} [checkpoint "b" 1] = some disk ∧
      versionOf (get (jsonFormats fun s => s) surroundings disk "b") = some 1 ∧
      versionOf (get (jsonFormats fun s => s) surroundings
        (save (jsonFormats fun s => s) surroundings {} disk (checkpoint "./b" 2)).1 "b") = some 2 ∧
      ["c.json".toList] ∈
          (save (jsonFormats fun s => s) surroundings {} disk (checkpoint "/c" 3)).1.written ∧
        ["c.json".toList] ∉ disk.written :=
    ⟨_, rfl, by decide +kernel, by decide +kernel, by decide +kernel⟩
  refine ⟨disk, ran, before, after, fun framed => ?_, fun framed => ?_⟩
  · have same := framed.others "b" (by simp) (by decide)
    rw [same, before] at after
    exact absurd after (by decide)
  · cases framed.inside _ outside.1 with
    | inl old => exact outside.2 old
    | inr inside => exact absurd inside (by decide)

end Kitematic.CheckpointPaths

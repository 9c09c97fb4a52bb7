import Kitematic.CheckpointCopies
import Kitematic.CheckpointDecoding
import Kitematic.CheckpointOverwrites

/-! One checkpoint file that holds anything, among intact ones. `get` passes over what it cannot
parse and over missing keys, and nothing else; what it then gives has to be copied, and to compare
with the checkpoints it is listed with. -/

namespace Kitematic.CorruptCheckpoints
open CheckpointCopies CheckpointDecoding CheckpointHistory CheckpointOverwrites CheckpointPaths
open CheckpointStores Checkpoints Dictionary FallibleOrder FilePaths Json KeyOrder PyText Trace
open CheckpointFiles hiding readCheckpoint get gather listByExecution getLatest

section directory
variable {τ δ : Type} (C : DeepCopies δ) (F : TextFormats τ δ) (S : Surroundings)

/-- The ids listed under an execution, one of them with its file; the others are intact, as
`get_latest` has them read and copied, or have no checkpoint. -/
structure Directory (disk : FileState τ) (executionId : String) (ids : List String)
    (intact : String → Option (Checkpoint δ)) (checkpointId : String) (path : FilePath) : Prop where
  index : ∃ index : Index, loadIndex F S {} disk = .ok (indexValue index) ∧
    (index.get executionId).getD [] = ids
  distinct : ids.Nodup
  listed : checkpointId ∈ ids
  located : S.dest checkpointId = some path
  apart : path ≠ S.indexPath
  alone : ∀ id ∈ ids, S.dest id = some path → id = checkpointId
  gets : ∀ id ∈ ids, id ≠ checkpointId →
    get C F S 3 disk id = .ok ((intact id).map Checkpoint.untyped)

def others (ids : List String) (intact : String → Option (Checkpoint δ)) (checkpointId : String) :
    List (Checkpoint δ) :=
  (ids.erase checkpointId).filterMap intact

def spoil (disk : FileState τ) (path : FilePath) (contents : τ) : FileState τ :=
  { disk with files := disk.files.set path contents }

/-- `get` does not raise, all other checkpoints are listed, and none of them is later than the
latest. -/
def Survives (disk : FileState τ) (executionId checkpointId : String)
    (others : List (Checkpoint δ)) : Prop :=
  (∃ found, get C F S 1 disk checkpointId = .ok found) ∧
    ∃ cps best, listByExecution C F S 1 disk executionId = .ok cps ∧
      getLatest C F S 1 disk executionId = .ok best ∧ ∀ other ∈ others, other.untyped ∈ cps ∧
        ∃ top ∈ cps, best = some top ∧ less top.version (.int other.version) = .ok false

/-- The checkpoint that the contents are read as, if any, is copied inside three calls. -/
def Copied (contents : τ) : Prop :=
  ∀ cp, (F.load contents).bind (dictToCheckpoint F) = .ok cp → C.Copyable 3 cp

/-- What sorting a version and an id among the others asks for. -/
def Comparable (version checkpointId : Value) (others : List (Checkpoint δ)) : Prop :=
  ∀ other ∈ others, ∃ q, number version = some q ∧
    (q = other.version → isStr checkpointId = true)

variable {C F S} {disk : FileState τ} {executionId checkpointId : String} {ids : List String}
  {intact : String → Option (Checkpoint δ)} {path : FilePath} {contents : τ}

theorem get_spoiled (directory : Directory C F S disk executionId ids intact checkpointId path)
    (contents : τ) :
    CheckpointFiles.get F S (spoil disk path contents) checkpointId =
      CheckpointFiles.readCheckpoint F contents := by
  have stored : (spoil disk path contents).get path = some contents := Dict.get_set_self ..
  simp only [CheckpointFiles.get, directory.located, Option.bind_some, stored]

theorem gather_spoiled (directory : Directory C F S disk executionId ids intact checkpointId path)
    {read : Option (Loaded δ)} (decoded : CheckpointFiles.readCheckpoint F contents = .ok read) :
    ∃ items, CheckpointFiles.gather F S (spoil disk path contents) executionId = .ok items ∧
      items.Perm (read.toList ++ (others ids intact checkpointId).map Checkpoint.untyped) := by
  obtain ⟨index, loaded, listed⟩ := directory.index
  have files : ∀ elsewhere, elsewhere ≠ path →
      (spoil disk path contents).get elsewhere = disk.get elsewhere := by
    intro elsewhere other
    rw [FileState.get, spoil, Dict.get_set, if_neg other]
    rfl
  have gets : ∀ id ∈ (index.get executionId).getD [],
      CheckpointFiles.get F S (spoil disk path contents) id =
        .ok (if id = checkpointId then read else (intact id).map Checkpoint.untyped) := by
    intro id member
    rw [listed] at member
    split
    next same => rw [same, get_spoiled directory, decoded]
    next other =>
      rw [← (get_ok_iff.mp (directory.gets id member other)).1]
      refine get_congr F S fun elsewhere located => files elsewhere fun here => ?_
      exact other (directory.alone id member (here ▸ located))
  refine ⟨_, gather_of_gets F S ((loadIndex_congr F S
    (files _ directory.apart.symm) {}).trans loaded) gets, ?_⟩
  rw [listed]
  refine ((List.perm_cons_erase directory.listed).filterMap _).trans (.of_eq ?_)
  have beside : (ids.erase checkpointId).filterMap
      (fun id => if id = checkpointId then read else (intact id).map Checkpoint.untyped) =
        (others ids intact checkpointId).map Checkpoint.untyped := by
    rw [others, List.map_filterMap]
    exact List.filterMap_congr fun id member =>
      if_neg (directory.distinct.mem_erase_iff.mp member).1
  rw [List.filterMap_cons, if_pos rfl, beside]
  cases read <;> rfl

theorem copyable_others (directory : Directory C F S disk executionId ids intact checkpointId path)
    {other : Checkpoint δ} (member : other ∈ others ids intact checkpointId) :
    C.Copyable 3 other.untyped := by
  obtain ⟨id, inside, found⟩ := List.mem_filterMap.mp member
  have beside := directory.distinct.mem_erase_iff.mp inside
  refine (get_ok_iff.mp (directory.gets id beside.2 beside.1)).2 _ ?_
  rw [found]
  rfl

section sorting
variable {cp : Loaded δ} {cps : List (Checkpoint δ)} {items : List (Loaded δ)}

theorem less_comparable (comparable : Comparable cp.version cp.checkpointId cps)
    {other : Checkpoint δ} (member : other ∈ cps) :
    (∃ below, lessKey cp other.untyped = .ok below) ∧
      ∃ below, lessKey other.untyped cp = .ok below := by
  obtain ⟨q, isNumber, strings⟩ := comparable other member
  have isInt : number (.int other.version) = some (other.version : ℚ) := rfl
  by_cases same : q = other.version
  · obtain ⟨s, isString⟩ : ∃ s, cp.checkpointId = .str s := by
      have string := strings same
      cases named : cp.checkpointId <;> simp_all [isStr]
    simp only [lessKey, Checkpoint.untyped, isString, less_str, equals_number isNumber isInt,
      equals_number isInt isNumber, same, decide_true, if_true]
    constructor <;> split <;> exact ⟨_, rfl⟩
  · simp only [lessKey, Checkpoint.untyped, equals_number isNumber isInt,
      equals_number isInt isNumber, less_number isNumber isInt, less_number isInt isNumber, same,
      Ne.symm same, decide_false, Bool.false_eq_true, if_false]
    exact ⟨⟨_, rfl⟩, _, rfl⟩

theorem sort_comparable {read : Option (Loaded δ)}
    (perm : items.Perm (read.toList ++ cps.map Checkpoint.untyped))
    (comparable : ∀ cp ∈ read, Comparable cp.version cp.checkpointId cps) :
    ∃ out, sortM lessKey items = .ok out := by
  have both : (read.toList ++ cps.map Checkpoint.untyped).Pairwise fun a b =>
      (∃ below, lessKey a b = .ok below) ∧ ∃ below, lessKey b a = .ok below := by
    refine List.pairwise_append.mpr ⟨?_, List.pairwise_map.mpr (List.pairwise_of_forall ?_), ?_⟩
    · cases read with
      | none => exact List.Pairwise.nil
      | some cp => exact List.pairwise_singleton _ _
    · exact fun a b => ⟨⟨_, lessKey_untyped a b⟩, _, lessKey_untyped b a⟩
    · exact fun cp here => List.forall_mem_map.mpr fun other member =>
        less_comparable (comparable cp (Option.mem_toList.mp here)) member
  have here := (perm.pairwise_iff fun pair => pair.symm).mpr both
  exact sortM_ok (here.imp And.right)

theorem numbers_of_comparable {read : Option (Loaded δ)}
    (perm : items.Perm (read.toList ++ cps.map Checkpoint.untyped))
    (comparable : ∀ cp ∈ read, Comparable cp.version cp.checkpointId cps) :
    items.length ≤ 1 ∨ ∀ cp ∈ items, (number cp.version).isSome = true := by
  cases cps with
  | nil =>
    refine .inl (perm.length_eq.trans_le ?_)
    cases read <;> simp
  | cons first rest =>
    refine .inr fun cp member => ?_
    cases List.mem_append.mp (perm.mem_iff.mp member) with
    | inl here =>
      obtain ⟨q, isNumber, _⟩ := comparable cp (Option.mem_toList.mp here) first List.mem_cons_self
      exact Option.isSome_iff_exists.mpr ⟨q, isNumber⟩
    | inr typed =>
      obtain ⟨other, _, rfl⟩ := List.mem_map.mp typed
      rfl

theorem comparable_of_sort (perm : items.Perm (cp :: cps.map Checkpoint.untyped))
    {out : List (Loaded δ)} (sorted : sortM lessKey items = .ok out) :
    Comparable cp.version cp.checkpointId cps := by
  intro other member
  have first : cp ∈ items := perm.mem_iff.mpr List.mem_cons_self
  have second : other.untyped ∈ items :=
    perm.mem_iff.mpr (List.mem_cons_of_mem _ (List.mem_map_of_mem member))
  have versions := levelled_versions.unmixed (fun _ _ => trivial) sorted
  have numbers : ∀ item ∈ items, (number item.version).isSome = true := fun item inside =>
    versions item inside other.untyped second rfl
  obtain ⟨q, isNumber⟩ := Option.isSome_iff_exists.mp (numbers cp first)
  refine ⟨q, isNumber, fun same => ?_⟩
  refine levelled_ids.unmixed numbers sorted cp first other.untyped second ?_
  simp only [isNumber, same]
  rfl

theorem latest_of_numbers {out : List (Loaded δ)}
    (numbers : out.length ≤ 1 ∨ ∀ cp ∈ out, (number cp.version).isSome = true) :
    ∃ best, firstMaxM (fun a b : Loaded δ => less a.version b.version) out = .ok best ∧
      ∀ other : Checkpoint δ, other.untyped ∈ out → ∃ top ∈ out, best = some top ∧
        less top.version (.int other.version) = .ok false := by
  cases numbers with
  | inl short =>
    cases out with
    | nil => exact ⟨none, rfl, fun _ member => nomatch member⟩
    | cons cp rest =>
      obtain rfl : rest = [] := by simpa using short
      refine ⟨some cp, rfl, fun other member => ⟨cp, List.mem_singleton_self cp, rfl, ?_⟩⟩
      rw [← List.mem_singleton.mp member, Checkpoint.untyped, less_int]
      simp
  | inr numbers =>
    by_cases empty : out = []
    · subst empty
      exact ⟨none, rfl, fun _ member => nomatch member⟩
    · have compared : ∀ a ∈ out, ∀ b ∈ out, less a.version b.version =
          .ok (decide ((number a.version).getD 0 < (number b.version).getD 0)) := by
        intro a insideA b insideB
        obtain ⟨p, first⟩ := Option.isSome_iff_exists.mp (numbers a insideA)
        obtain ⟨q, second⟩ := Option.isSome_iff_exists.mp (numbers b insideB)
        simp [less_number first second, first, second]
      obtain ⟨top, member, found, above⟩ := firstMaxM_eq empty compared
      refine ⟨some top, found, fun other inside => ⟨top, member, rfl, ?_⟩⟩
      have least : ((other.version : Int) : ℚ) ≤ (number top.version).getD 0 :=
        above other.untyped inside
      obtain ⟨p, isNumber⟩ := Option.isSome_iff_exists.mp (numbers top member)
      have isInt : number (.int other.version) = some (other.version : ℚ) := rfl
      rw [isNumber, Option.getD_some] at least
      rw [less_number isNumber isInt]
      simp [least]

end sorting

theorem absent_or_present {found : Option (Loaded δ)}
    (read : CheckpointFiles.readCheckpoint F contents = .ok found) :
    Absent F contents ∨ ∃ version id, Present F contents version id := by
  by_contra neither
  obtain ⟨kept, spoiled⟩ := not_or.mp neither
  obtain ⟨e, raised⟩ := readCheckpoint_raises kept fun version id present =>
    spoiled ⟨version, id, present⟩
  cases raised.symm.trans read

theorem decoded_of_readCheckpoint {cp : Loaded δ}
    (read : CheckpointFiles.readCheckpoint F contents = .ok (some cp)) :
    (F.load contents).bind (dictToCheckpoint F) = .ok cp := by
  unfold CheckpointFiles.readCheckpoint at read
  split at read
  next decoded => exact decoded.trans (congrArg _ (Option.some.inj (Except.ok.inj read)))
  all_goals cases read

/-- Exactly when everything else survives what the file holds: it counts as no checkpoint, or it
is one that can be copied and compares with the others. -/
theorem survives_iff (directory : Directory C F S disk executionId ids intact checkpointId path)
    (contents : τ) :
    Survives C F S (spoil disk path contents) executionId checkpointId
        (others ids intact checkpointId) ↔
      Absent F contents ∨ ∃ version id, Present F contents version id ∧ Copied C F contents ∧
        Comparable version id (others ids intact checkpointId) := by
  have got := get_spoiled directory contents
  constructor
  · intro survives
    obtain ⟨⟨found, read⟩, _, _, _, latest, _⟩ := survives
    have kept := absent_or_present (got.symm.trans (get_ok_iff.mp read).1)
    refine kept.imp_right fun ⟨version, id, present⟩ => ⟨version, id, present, ?_⟩
    obtain ⟨cp, decoded, rfl, rfl⟩ := readCheckpoint_present present
    obtain ⟨items, gathered, perm⟩ := gather_spoiled directory decoded
    obtain ⟨_, cps, listed, copied⟩ := getLatest_ok_iff.mp latest
    rw [CheckpointFiles.listByExecution, gathered] at listed
    have here : cp ∈ cps := (sortM_perm listed).mem_iff.mpr (perm.mem_iff.mpr List.mem_cons_self)
    refine ⟨fun cp' same => ?_, comparable_of_sort perm listed⟩
    obtain rfl := Except.ok.inj (same.symm.trans (decoded_of_readCheckpoint decoded))
    exact copied cp' here
  · intro tolerated
    obtain ⟨read, decoded, comparable, copied⟩ : ∃ read,
        CheckpointFiles.readCheckpoint F contents = .ok read ∧
          (∀ cp ∈ read, Comparable cp.version cp.checkpointId (others ids intact checkpointId)) ∧
          ∀ cp ∈ read, C.Copyable 3 cp := by
      cases tolerated with
      | inl absent => exact ⟨none, readCheckpoint_absent absent, by simp, by simp⟩
      | inr present =>
        obtain ⟨version, id, present, copied, comparable⟩ := present
        obtain ⟨cp, decoded, rfl, rfl⟩ := readCheckpoint_present present
        exact ⟨some cp, decoded, fun _ same => Option.some.inj same ▸ comparable,
          fun _ same => Option.some.inj same ▸ copied cp (decoded_of_readCheckpoint decoded)⟩
    obtain ⟨items, gathered, perm⟩ := gather_spoiled directory decoded
    obtain ⟨out, sorted⟩ := sort_comparable perm comparable
    have perm' := (sortM_perm sorted).trans perm
    obtain ⟨best, latest, above⟩ := latest_of_numbers (numbers_of_comparable perm' comparable)
    have listed : CheckpointFiles.listByExecution F S (spoil disk path contents) executionId =
        .ok out := by
      rw [CheckpointFiles.listByExecution, gathered]
      exact sorted
    have copyable : ∀ cp ∈ out, C.Copyable 3 cp := by
      intro cp member
      cases List.mem_append.mp (perm'.mem_iff.mp member) with
      | inl here => exact copied cp (Option.mem_toList.mp here)
      | inr beside =>
        obtain ⟨other, inside, rfl⟩ := List.mem_map.mp beside
        exact copyable_others directory inside
    refine ⟨⟨read, get_ok_iff.mpr ⟨got.trans decoded, fun cp same => (copied cp same).fewer.fewer⟩⟩,
      out, best, listByExecution_ok_iff.mpr ⟨listed, fun cp member => (copyable cp member).fewer⟩,
      getLatest_ok_iff.mpr ⟨?_, out, listed, copyable⟩, fun other member => ?_⟩
    · rw [CheckpointFiles.getLatest, listed]
      exact latest
    · have inside : other.untyped ∈ out :=
        perm'.mem_iff.mpr (List.mem_append_right _ (List.mem_map_of_mem member))
      exact ⟨inside, above other inside⟩

theorem directory_of_run {cps : List (Checkpoint δ)} (fresh : disk.get S.indexPath = none)
    (native : ∀ cp ∈ cps, cp.IsNative) (separate : Separate S cps)
    (copyable : ∀ cp ∈ cps, C.Copyable 3 cp.sorted.untyped) {s : Saved (FileState τ) δ}
    (ran : run (saveInFiles F S) { store := disk } cps = some s)
    (saved : checkpointId ∈ savedUnder s.history executionId) :
    ∃ path, Directory C F S s.store executionId (savedUnder s.history executionId)
      (fun id => (find s.history id).map Checkpoint.sorted) checkpointId path := by
  obtain ⟨inFiles, known⟩ := inFiles_run fresh native separate ran
  obtain ⟨cp, found⟩ := find_savedUnder saved
  obtain ⟨_, path, located, apart, _⟩ := inFiles.files checkpointId cp found
  obtain ⟨index, loaded, lists⟩ := inFiles.index
  refine ⟨path, ⟨index, loaded, lists executionId⟩, nodup_savedUnder _ _, saved, located, apart,
    fun id member here => ?_, fun id member _ => ?_⟩
  · obtain ⟨a, insideA, rfl, _⟩ := mem_savedUnder.mp member
    obtain ⟨b, insideB, rfl, _⟩ := mem_savedUnder.mp saved
    exact (separate a (known a insideA)).2 b (known b insideB) path here located
  · obtain ⟨other, held⟩ := find_savedUnder member
    obtain ⟨native, elsewhere, there, _, stored⟩ := inFiles.files id other held
    rw [held]
    refine get_ok_iff.mpr ⟨get_of_stored F S native there stored, fun cp same => ?_⟩
    exact Option.some.inj same ▸ copyable other (known other (mem_of_find held))

end directory

theorem two_saved : ∃ s, run (saveInFiles (jsonFormats fun s => s) surroundings) { store := {} }
    [checkpoint "a" 1, checkpoint "b" 2] = some s ∧ ∃ path,
      Directory (stacked _ 10) (jsonFormats fun s => s) surroundings s.store "e" ["a", "b"]
        (fun id => (find s.history id).map Checkpoint.sorted) "b" path := by
  obtain ⟨s, ran, listed⟩ : ∃ s, run (saveInFiles (jsonFormats fun s => s) surroundings)
      { store := {} } [checkpoint "a" 1, checkpoint "b" 2] = some s ∧
        savedUnder s.history "e" = ["a", "b"] := ⟨_, rfl, rfl⟩
  refine ⟨s, ran, listed ▸ directory_of_run rfl ?_ (separate_of_plain ?_) ?_ ran (by simp [listed])⟩
  · simp [checkpoint, Checkpoint.IsNative]
  · simp [checkpoint, Plain]
  · simp only [List.forall_mem_cons, List.not_mem_nil, false_implies, implies_true, and_true]
    exact ⟨rfl, rfl⟩

theorem survives_iff_unparsed :
    ∃ (s : Saved (FileState (List Char)) IsoDate.DateTime) (path : FilePath),
      Survives (stacked _ 10) (jsonFormats fun s => s) surroundings (spoil s.store path ['[']) "e"
        "b" (others ["a", "b"] (fun id => (find s.history id).map Checkpoint.sorted) "b") := by
  obtain ⟨s, _, path, directory⟩ := two_saved
  exact ⟨s, path, (survives_iff directory ['[']).mpr (.inl (.inl ⟨_, rfl, trivial⟩))⟩

/-- A file that holds an empty list makes `get` raise. -/
theorem list_file_raises :
    ∃ s, run (saveInFiles (jsonFormats fun s => s) surroundings) { store := {} }
        [checkpoint "a" 1, checkpoint "b" 2] = some s ∧ ∃ path,
      surroundings.dest "b" = some path ∧
        get (stacked _ 10) (jsonFormats fun s => s) surroundings 1
            (spoil s.store path ['[', ']']) "b" = .error (.attributeError (.list [])) ∧
        ¬ Survives (stacked _ 10) (jsonFormats fun s => s) surroundings
          (spoil s.store path ['[', ']']) "e" "b"
          (others ["a", "b"] (fun id => (find s.history id).map Checkpoint.sorted) "b") := by
  obtain ⟨s, ran, path, directory⟩ := two_saved
  have stored : (spoil s.store path ['[', ']']).get path = some ['[', ']'] := Dict.get_set_self ..
  have raised : get (stacked _ 10) (jsonFormats fun s => s) surroundings 1
      (spoil s.store path ['[', ']']) "b" = .error (.attributeError (.list [])) := by
    simp only [CheckpointCopies.get, directory.located, Option.bind_some, stored]
    rfl
  refine ⟨s, ran, path, directory.located, raised, fun survives => ?_⟩
  obtain ⟨found, read⟩ := survives.1
  cases raised.symm.trans read

end Kitematic.CorruptCheckpoints

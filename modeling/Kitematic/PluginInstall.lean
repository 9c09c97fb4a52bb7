import Kitematic.FileTrees
import Kitematic.PluginDiscovery
import Mathlib.Data.List.Pairwise
import Mathlib.Data.List.TakeWhile

/-! Installing and removing plugins. Discovery looks at the directories right under
`agents/tools`, `agents/frameworks` and `agents/models`, and the installer goes where the name
and the type in a manifest lead. The root is a path without dots. -/

namespace Kitematic.Plugins
open FilePaths FileTrees KeyOrder

def agentsName : Name := "agents".toList
def manifestName : Name := "manifest.yaml".toList

def pluginDir (root : FilePath) (subdir : String) : FilePath := root ++ [agentsName, subdir.toList]

def slot (root : FilePath) (subdir name : String) : FilePath := pluginDir root subdir ++ [name.toList]

def slotManifest (root : FilePath) (subdir name : String) : FilePath :=
  slot root subdir name ++ [manifestName]

inductive InstallError where
  | load (e : LoadError)
  | attributeError (text : String)
  | osError

section installer
variable {κ : Type} (load : κ → Except ReadError Yaml) (text : Yaml → String)

/-- What discovery finds in a tree. -/
def pluginTree (t : FileTree κ) (root : FilePath) : PluginTree := fun subdir =>
  let dir := pluginDir root subdir
  if t.isDir dir then
    some <| (t.names dir).map fun name =>
      ⟨String.ofList name, t.isDir (dir ++ [name]), (t.fileAt (dir ++ [name] ++ [manifestName])).map load⟩
  else none

def typeDir (m : PluginManifest) : String :=
  let typeDir := m.pluginType.value ++ "s"
  if typeDir = "agents" then "tools" else typeDir

/-- `_plugin_dest`; a name that is an absolute path stands alone. -/
def pluginDest (root : FilePath) (m : PluginManifest) : List Name :=
  if isAbsolute m.name.toList then parts m.name.toList
  else pluginDir root (typeDir m) ++ parts m.name.toList

def installFromPath (t : FileTree κ) (root : FilePath) (sourceText : String)
    (source : SourceDir κ) : FileTree κ × Except InstallError PluginManifest :=
  match source.children.lookup manifestName with
  | some (.file content) =>
      match load content with
      | .error e => (t, .error (.load (.read e)))
      | .ok (.dict raw) =>
          match validateManifest text raw with
          | .error e => (t, .error (.load e))
          | .ok manifest =>
              match t.makeDirs [] (pluginDest root manifest) with
              | (made, none) => (made, .error .osError)
              | (made, some dest) =>
                  let copied := made.copyTree dest source.children
                  (copied.1, if copied.2 then .ok manifest else .error .osError)
      | .ok v => (t, .error (.attributeError ("'" ++ v.typeName ++ "' object has no attribute 'get'")))
  | _ => (t, .error (.load (.validation ["manifest.yaml not found in " ++ sourceText])))

def remove (t : FileTree κ) (root : FilePath) (name : String) : FileTree κ × Except InstallError Bool :=
  match discoverPlugins text (pluginTree load t root) with
  | .error e => (t, .error (.load e))
  | .ok found =>
      match found.plugins.find? fun m => m.name = name with
      | none => (t, .ok false)
      | some target =>
          if (walk t.isDir [] (pluginDest root target)).isSome then
            let removed := t.rmtree (pluginDest root target)
            (removed.1, if removed.2 then .ok true else .error .osError)
          else (t, .ok false)

end installer

/-! The manifests that discovery comes to. -/

section scan
variable {κ : Type}

def slotFiles (t : FileTree κ) (root : FilePath) (subdir : String) : List (String × κ) :=
  (sortBy id ((t.names (pluginDir root subdir)).map String.ofList)).filterMap fun name =>
    (t.fileAt (slotManifest root subdir name)).map fun content => (name, content)

/-- The manifest files that discovery loads, with the directories they are in. -/
def scan (t : FileTree κ) (root : FilePath) : List (String × String × κ) :=
  pluginDirs.flatMap fun subdir => (slotFiles t root subdir).map fun e => (subdir, e)

def Before (subdir' name' subdir name : String) : Prop :=
  subdir' ∈ pluginDirs.takeWhile (fun s => s ≠ subdir) ∨ subdir' = subdir ∧ name' < name

theorem slot_inj {root : FilePath} {subdir subdir' name name' : String}
    (same : slot root subdir name = slot root subdir' name') : subdir = subdir' ∧ name = name' := by
  simpa [slot, pluginDir, String.toList_inj] using same

theorem isDir_slot {t : FileTree κ} {root : FilePath} {subdir name : String} {content : κ}
    (there : t.fileAt (slotManifest root subdir name) = some content) :
    t.isDir (slot root subdir name) = true ∧ name.toList ∈ t.names (pluginDir root subdir) := by
  have inside := FileTree.isDir_parent (FileTree.fileAt_eq_some.mp there)
  exact ⟨inside, FileTree.mem_names.mpr ⟨_, FileTree.isDir_iff.mp inside⟩⟩

theorem mem_slotFiles {t : FileTree κ} {root : FilePath} {subdir name : String} {content : κ} :
    (name, content) ∈ slotFiles t root subdir ↔
      t.fileAt (slotManifest root subdir name) = some content := by
  simp only [slotFiles, List.mem_filterMap, (sortBy_perm ..).mem_iff, List.mem_map,
    Option.map_eq_some_iff, Prod.mk.injEq]
  constructor
  · rintro ⟨_, _, _, there, rfl, rfl⟩
    exact there
  · intro there
    exact ⟨name, ⟨_, (isDir_slot there).2, String.ofList_toList⟩, content, there, rfl, rfl⟩

theorem mem_scan {t : FileTree κ} {root : FilePath} {subdir name : String} {content : κ} :
    (subdir, name, content) ∈ scan t root ↔
      subdir ∈ pluginDirs ∧ t.fileAt (slotManifest root subdir name) = some content := by
  rw [← mem_slotFiles]
  simp [scan]

theorem slotFiles_sorted (t : FileTree κ) (root : FilePath) (subdir : String) :
    (slotFiles t root subdir).Pairwise fun a b => a.1 < b.1 := by
  have distinct : (sortBy id ((t.names (pluginDir root subdir)).map String.ofList)).Nodup :=
    (sortBy_perm ..).nodup_iff.mpr ((t.names_nodup _).map fun a b same => String.ofList_inj.mp same)
  have strict := ((sortBy_pairwise id _).and distinct).imp fun {a b} both =>
    lt_of_le_of_ne both.1 both.2
  refine strict.filterMap _ fun a b less e inE e' inE' => ?_
  obtain ⟨_, _, rfl⟩ := Option.map_eq_some_iff.mp inE
  obtain ⟨_, _, rfl⟩ := Option.map_eq_some_iff.mp inE'
  exact less

theorem before_asymm {subdir name subdir' name' : String}
    (before : Before subdir name subdir' name') : ¬ Before subdir' name' subdir name := by
  have dirs : ∀ s ∈ pluginDirs, ∀ s' ∈ pluginDirs, s ∈ pluginDirs.takeWhile (fun x => x ≠ s') →
      s' ∉ pluginDirs.takeWhile fun x => x ≠ s := by decide
  have other : ∀ s, s ∉ pluginDirs.takeWhile fun x => x ≠ s := fun s member => by
    simpa using List.mem_takeWhile_imp member
  rintro (after | ⟨rfl, more⟩)
  · rcases before with before | ⟨rfl, _⟩
    · have listed := (List.takeWhile_sublist _).subset before
      exact dirs subdir listed subdir' ((List.takeWhile_sublist _).subset after) before after
    · exact other _ after
  · rcases before with before | ⟨_, less⟩
    · exact other _ before
    · exact lt_asymm less more

theorem scan_sorted (t : FileTree κ) (root : FilePath) :
    (scan t root).Pairwise fun a b => Before a.1 a.2.1 b.1 b.2.1 := by
  have dirs : pluginDirs.Pairwise fun s s' => s ∈ pluginDirs.takeWhile fun x => x ≠ s' := by decide
  rw [scan, List.pairwise_flatMap]
  refine ⟨fun subdir _ => ?_, dirs.imp fun {s s'} before x inX y inY => ?_⟩
  · rw [List.pairwise_map]
    exact (slotFiles_sorted t root subdir).imp fun less => .inr ⟨rfl, less⟩
  · obtain ⟨_, _, rfl⟩ := List.mem_map.mp inX
    obtain ⟨_, _, rfl⟩ := List.mem_map.mp inY
    exact .inl before

theorem scan_trichotomy {t : FileTree κ} {root : FilePath} {e e' : String × String × κ}
    (member : e ∈ scan t root) (member' : e' ∈ scan t root) :
    e = e' ∨ Before e.1 e.2.1 e'.1 e'.2.1 ∨ Before e'.1 e'.2.1 e.1 e.2.1 := by
  have symm : Std.Symm fun a b : String × String × κ =>
      Before a.1 a.2.1 b.1 b.2.1 ∨ Before b.1 b.2.1 a.1 a.2.1 := ⟨fun _ _ => Or.symm⟩
  have apart : (scan t root).Pairwise fun a b =>
      Before a.1 a.2.1 b.1 b.2.1 ∨ Before b.1 b.2.1 a.1 a.2.1 := (scan_sorted t root).imp Or.inl
  by_cases same : e = e'
  · exact .inl same
  · exact .inr (apart.forall member member' same)

theorem eq_slotFiles {t : FileTree κ} {root : FilePath} {subdir : String} {files : List (String × κ)}
    (sorted : files.Pairwise fun a b => a.1 < b.1)
    (same : ∀ name content, (name, content) ∈ files ↔
      t.fileAt (slotManifest root subdir name) = some content) :
    slotFiles t root subdir = files := by
  have distinct : ∀ {files : List (String × κ)}, files.Pairwise (fun a b => a.1 < b.1) →
      files.Nodup := fun sorted => sorted.imp fun less same => (ne_of_lt less) (congrArg Prod.fst same)
  have perm : (slotFiles t root subdir).Perm files :=
    (List.perm_ext_iff_of_nodup (distinct (slotFiles_sorted t root subdir)) (distinct sorted)).mpr
      fun e => mem_slotFiles.trans (same e.1 e.2).symm
  refine perm.eq_of_pairwise (fun a b _ _ less more => ?_) (slotFiles_sorted t root subdir) sorted
  exact absurd (less.trans more) (lt_irrefl _)

end scan

section discovers
variable {κ : Type} {load : κ → Except ReadError Yaml} {text : Yaml → String}

theorem manifestFiles_eq (t : FileTree κ) (root : FilePath) :
    (manifestFiles (pluginTree load t root)).map Prod.snd = (scan t root).map fun e => load e.2.2 := by
  unfold manifestFiles scan
  rw [List.map_flatMap, List.map_flatMap]
  refine List.flatMap_congr fun subdir _ => ?_
  rw [List.map_map, List.map_filterMap]
  unfold pluginTree slotFiles
  cases dir : t.isDir (pluginDir root subdir) with
  | false =>
    have none : t.names (pluginDir root subdir) = [] := by
      refine List.eq_nil_iff_forall_not_mem.mpr fun name inside => ?_
      obtain ⟨entry, there⟩ := FileTree.mem_names.mp inside
      rw [FileTree.isDir_parent there] at dir
      cases dir
    simp [dir, none, sortBy]
  | true =>
    simp only [dir, if_true, Option.getD_some, sortBy_map]
    rw [List.filterMap_map, List.filterMap_map, List.map_filterMap]
    refine List.filterMap_congr fun name _ => ?_
    have place : slotManifest root subdir (String.ofList name) =
        pluginDir root subdir ++ [name] ++ [manifestName] := by simp [slotManifest, slot]
    simp only [Function.comp_apply, place]
    cases there : t.fileAt (pluginDir root subdir ++ [name] ++ [manifestName]) with
    | none => simp
    | some content =>
      have inside := FileTree.isDir_parent (FileTree.fileAt_eq_some.mp there)
      simp [inside]

theorem discoverPlugin_eq_ok {tree : PluginTree} {name : String} {found : Option PluginManifest} :
    discoverPlugin text name tree = .ok found ↔
      (∀ loaded ∈ (manifestFiles tree).map Prod.snd, ReadableFile loaded) ∧
        ((((manifestFiles tree).map Prod.snd).filterMap fun loaded =>
          (loadManifest text loaded).toOption).find? fun m => m.name = name) = found := by
  unfold discoverPlugin discoverPlugins
  rw [List.forall_mem_map, List.filterMap_map]
  by_cases readable : ∀ file ∈ manifestFiles tree, ReadableFile file.2
  · obtain ⟨errors, returned⟩ := discoverFrom_caught
      (fun file member => (caught_iff_readable text file.2).mpr (readable file member)) {}
    simp only [returned, Except.map, Except.ok.injEq, List.nil_append, eq_true readable, true_and]
    rfl
  · have raises : ∃ e, discoverFrom text {} (manifestFiles tree) = .error e := by
      simp only [not_forall] at readable
      obtain ⟨file, member, unreadable⟩ := readable
      rw [← caught_iff_readable text] at unreadable
      simp only [not_forall] at unreadable
      obtain ⟨e, raised, uncaught⟩ := unreadable
      exact discoverFrom_uncaught member raised (Bool.not_eq_true _ ▸ uncaught) {}
    obtain ⟨e, raised⟩ := raises
    rw [raised]
    exact ⟨fun same => absurd same (by simp [Except.map]), fun right => absurd right.1 readable⟩

variable (load text)

def taken (content : κ) : Option PluginManifest := (loadManifest text (load content)).toOption

def firstNamed (name : String) (files : List κ) : Option PluginManifest :=
  (files.filterMap (taken load text)).find? fun m => m.name = name

theorem discoverPlugin_iff {t : FileTree κ} {root : FilePath} {name : String}
    {found : Option PluginManifest} :
    discoverPlugin text name (pluginTree load t root) = .ok found ↔
      (∀ e ∈ scan t root, ReadableFile (load e.2.2)) ∧
        firstNamed load text name ((scan t root).map fun e => e.2.2) = found := by
  rw [discoverPlugin_eq_ok, manifestFiles_eq, List.forall_mem_map, firstNamed, List.filterMap_map,
    List.filterMap_map]
  rfl

end discovers

end Kitematic.Plugins

import Kitematic.InstalledPlugins

/-! What the installer is for: a shelf that holds one plugin for each directory of plugins
and each name. Over a tree that starts without plugins, and for manifests whose names are
single parts of a path, installing, removing and listing answer as the shelf does. -/

namespace Kitematic.Plugins
open Dictionary FilePaths FileTrees KeyOrder

abbrev Shelf := Dict (String × String) PluginManifest

namespace Shelf

def install (s : Shelf) (m : PluginManifest) : Shelf := s.set (typeDir m, m.name) m

def first (s : Shelf) (name : String) : Option PluginManifest :=
  pluginDirs.findSome? fun subdir => s.get (subdir, name)

def remove (s : Shelf) (name : String) : Shelf × Bool :=
  match s.first name with
  | none => (s, false)
  | some m => (s.erase (typeDir m, m.name), true)

def namesIn (s : Shelf) (subdir : String) : List String :=
  s.keys.filterMap fun key => if key.1 = subdir then some key.2 else none

/-- Directory after directory, in the order of the names. -/
def listed (s : Shelf) : List PluginManifest :=
  pluginDirs.flatMap fun subdir =>
    (sortBy id (s.namesIn subdir)).filterMap fun name => s.get (subdir, name)

theorem mem_namesIn {s : Shelf} {subdir name : String} :
    name ∈ s.namesIn subdir ↔ (s.get (subdir, name)).isSome = true := by
  have listed : name ∈ s.namesIn subdir ↔ (subdir, name) ∈ s.keys := by
    simp only [namesIn, List.mem_filterMap, Option.ite_none_right_eq_some, Option.some.injEq]
    constructor
    · rintro ⟨key, member, rfl, rfl⟩
      exact member
    · exact fun member => ⟨_, member, rfl, rfl⟩
  exact listed.trans Dict.mem_keys

theorem namesIn_nodup (s : Shelf) (subdir : String) : (s.namesIn subdir).Nodup := by
  refine s.nodup.filterMap fun p q name inP inQ => ?_
  simp only [Option.mem_def, Option.ite_none_right_eq_some, Option.some.injEq] at inP inQ
  exact Prod.ext (inP.1.trans inQ.1.symm) (inP.2.trans inQ.2.symm)

/-- Every plugin is where its manifest says. -/
def Named (s : Shelf) : Prop :=
  ∀ subdir name m, s.get (subdir, name) = some m → typeDir m = subdir ∧ m.name = name

theorem find?_listed {s : Shelf} (named : s.Named) (name : String) :
    (s.listed.find? fun m => m.name = name) = s.first name := by
  have inDir (subdir : String) :
      (((sortBy id (s.namesIn subdir)).filterMap fun name => s.get (subdir, name)).find?
        fun m => m.name = name) = s.get (subdir, name) := by
    rw [find?_filterMap_keyed fun name m stored => (named subdir name m stored).2]
    split
    next => rfl
    next absent =>
      rw [(sortBy_perm ..).mem_iff, mem_namesIn, Option.not_isSome_iff_eq_none] at absent
      exact absent.symm
  simp only [listed, first, List.find?_flatMap, inDir]

theorem Named.install {s : Shelf} (named : s.Named) (m : PluginManifest) :
    (s.install m).Named := by
  intro subdir name m' stored
  rw [Shelf.install, Dict.get_set] at stored
  split at stored
  next same =>
    obtain rfl := Option.some.inj stored
    exact ⟨(congrArg Prod.fst same).symm, (congrArg Prod.snd same).symm⟩
  · exact named subdir name m' stored

theorem Named.erase {s : Shelf} (named : s.Named) (key : String × String) :
    Shelf.Named (s.erase key) :=
  fun _ _ m stored => named _ _ m (Dict.get_of_get_erase stored)

theorem get_of_first {s : Shelf} (named : s.Named) {name : String} {m : PluginManifest}
    (found : s.first name = some m) :
    typeDir m ∈ pluginDirs ∧ m.name = name ∧ s.get (typeDir m, name) = some m := by
  obtain ⟨subdir, listed, stored⟩ := List.exists_of_findSome?_eq_some found
  obtain ⟨rfl, rfl⟩ := named _ _ _ stored
  exact ⟨listed, rfl, stored⟩

end Shelf

/-- A name that is one part of a path, and no dots. -/
structure PlainName (name : String) : Prop where
  flat : '/' ∉ name.toList
  filled : name ≠ ""
  dot : name ≠ "."
  dots : name ≠ ".."

inductive Op (κ : Type) where
  | install (sourceText : String) (source : SourceDir κ)
  | remove (name : String)
  | listInstalled

/-- The disk may fail an installation halfway. -/
inductive Answer where
  | installed (m : PluginManifest)
  | removed (found : Bool)
  | listed (plugins : List PluginManifest)
  | interrupted
  | raised (e : InstallError)

def Answer.isSettled : Answer → Bool
  | interrupted => false
  | _ => true

section serving
variable {κ : Type} (load : κ → Except ReadError Yaml) (text : Yaml → String)

def verdict (sourceText : String) (source : SourceDir κ) : Except InstallError PluginManifest :=
  match source.children.lookup manifestName with
  | some (.file content) =>
      match load content with
      | .error e => .error (.load (.read e))
      | .ok (.dict raw) => (validateManifest text raw).mapError .load
      | .ok v => .error (.attributeError ("'" ++ v.typeName ++ "' object has no attribute 'get'"))
  | _ => .error (.load (.validation ["manifest.yaml not found in " ++ sourceText]))

/-- `list_installed` gives what discovery gives. -/
def serve (root : FilePath) (t : FileTree κ) : Op κ → FileTree κ × Answer
  | .install sourceText source =>
      let (t', answer) := installFromPath load text t root sourceText source
      (t', match answer with
        | .ok m => .installed m
        | .error .osError => .interrupted
        | .error e => .raised e)
  | .remove name =>
      let (t', answer) := Plugins.remove load text t root name
      (t', match answer with
        | .ok found => .removed found
        | .error e => .raised e)
  | .listInstalled =>
      (t, match discoverPlugins text (pluginTree load t root) with
        | .ok found => .listed found.plugins
        | .error e => .raised (.load e))

def Shelf.serve (s : Shelf) : Op κ → Shelf × Answer
  | .install sourceText source =>
      match verdict load text sourceText source with
      | .ok m => (s.install m, .installed m)
      | .error e => (s, .raised e)
  | .remove name => ((s.remove name).1, .removed (s.remove name).2)
  | .listInstalled => (s, .listed s.listed)

variable {load text}

theorem installFromPath_turned_down {t : FileTree κ} {root : FilePath} {sourceText : String}
    {source : SourceDir κ} {e : InstallError}
    (turned : verdict load text sourceText source = .error e) :
    installFromPath load text t root sourceText source = (t, .error e) ∧ e ≠ .osError := by
  cases there : source.children.lookup manifestName with
  | none =>
    simp only [verdict, there, Except.error.injEq] at turned
    subst turned
    simp [installFromPath, there]
  | some entry =>
    cases entry with
    | dir children =>
      simp only [verdict, there, Except.error.injEq] at turned
      subst turned
      simp [installFromPath, there]
    | file content =>
      cases read : load content with
      | error e' =>
        simp only [verdict, there, read, Except.error.injEq] at turned
        subst turned
        simp [installFromPath, there, read]
      | ok v =>
        cases v with
        | dict raw =>
          cases valid : validateManifest text raw with
          | ok m => simp [verdict, there, read, valid, Except.mapError] at turned
          | error e' =>
            simp only [verdict, there, read, valid, Except.mapError, Except.error.injEq] at turned
            subst turned
            simp [installFromPath, there, read, valid]
        | _ =>
          simp only [verdict, there, read, Except.error.injEq] at turned
          subst turned
          simp [installFromPath, there, read]

theorem installFromPath_accepted {t : FileTree κ} {root : FilePath} {sourceText : String}
    {source : SourceDir κ} {m : PluginManifest}
    (accepted : verdict load text sourceText source = .ok m) :
    (installFromPath load text t root sourceText source).2 = .ok m ∨
      (installFromPath load text t root sourceText source).2 = .error .osError := by
  cases there : source.children.lookup manifestName with
  | none => simp [verdict, there] at accepted
  | some entry =>
    cases entry with
    | dir children => simp [verdict, there] at accepted
    | file content =>
      cases read : load content with
      | error e => simp [verdict, there, read] at accepted
      | ok v =>
        cases v with
        | dict raw =>
          cases valid : validateManifest text raw with
          | error e => simp [verdict, there, read, valid, Except.mapError] at accepted
          | ok m' =>
            simp only [verdict, there, read, valid, Except.mapError, Except.ok.injEq] at accepted
            subst accepted
            rcases dirs : t.makeDirs [] (pluginDest root m') with ⟨made, dest⟩
            cases dest with
            | none => simp [installFromPath, there, read, valid, dirs]
            | some dest =>
              simp only [installFromPath, there, read, valid, dirs]
              cases (made.copyTree dest source.children).2 <;> simp
        | _ => simp [verdict, there, read] at accepted

end serving

section holding
variable {κ : Type} {load : κ → Except ReadError Yaml} {text : Yaml → String} {t : FileTree κ}
  {root : FilePath} {s : Shelf}

variable (load text t root s) in
/-- The manifest files under the directories of plugins are those of the shelf. -/
structure Holds : Prop where
  files : ∀ subdir ∈ pluginDirs, ∀ name,
    (t.fileAt (slotManifest root subdir name)).map (taken load text) =
      (s.get (subdir, name)).map some
  named : s.Named
  plain : ∀ subdir name m, s.get (subdir, name) = some m → PlainName name
  free : ∀ subdir ∈ pluginDirs, ∀ name, t.isDir (slotManifest root subdir name) = false

namespace Holds

theorem taken_of_file (holds : Holds load text t root s) {subdir name : String}
    (listed : subdir ∈ pluginDirs) {content : κ}
    (there : t.fileAt (slotManifest root subdir name) = some content) :
    ∃ m, taken load text content = some m ∧ s.get (subdir, name) = some m := by
  have same := holds.files subdir listed name
  rw [there, Option.map_some] at same
  obtain ⟨m, stored, taken⟩ := Option.map_eq_some_iff.mp same.symm
  exact ⟨m, taken.symm, stored⟩

theorem file_of_get (holds : Holds load text t root s) {subdir name : String} {m : PluginManifest}
    (listed : subdir ∈ pluginDirs) (stored : s.get (subdir, name) = some m) :
    ∃ content, t.fileAt (slotManifest root subdir name) = some content ∧
      taken load text content = some m := by
  have same := holds.files subdir listed name
  rw [stored, Option.map_some] at same
  exact Option.map_eq_some_iff.mp same

theorem names (holds : Holds load text t root s) {subdir : String} (listed : subdir ∈ pluginDirs) :
    (slotFiles t root subdir).map Prod.fst = sortBy id (s.namesIn subdir) := by
  have sorted : ((slotFiles t root subdir).map Prod.fst).Pairwise (· < ·) :=
    List.pairwise_map.mpr (slotFiles_sorted t root subdir)
  have perm : ((slotFiles t root subdir).map Prod.fst).Perm (sortBy id (s.namesIn subdir)) := by
    refine (List.perm_ext_iff_of_nodup (sorted.imp ne_of_lt)
      ((sortBy_perm ..).nodup_iff.mpr (s.namesIn_nodup subdir))).mpr fun name => ?_
    rw [(sortBy_perm ..).mem_iff, Shelf.mem_namesIn, List.mem_map]
    constructor
    · rintro ⟨⟨_, content⟩, member, rfl⟩
      obtain ⟨m, _, stored⟩ := holds.taken_of_file listed (mem_slotFiles.mp member)
      rw [stored]
      rfl
    · intro isSome
      obtain ⟨m, stored⟩ := Option.isSome_iff_exists.mp isSome
      obtain ⟨content, there, _⟩ := holds.file_of_get listed stored
      exact ⟨(name, content), mem_slotFiles.mpr there, rfl⟩
  exact perm.eq_of_pairwise (fun a b _ _ le ge => le_antisymm le ge) (sorted.imp le_of_lt)
    (sortBy_pairwise id _)

theorem accepted (holds : Holds load text t root s) :
    ((scan t root).map fun e => e.2.2).filterMap (taken load text) = s.listed := by
  rw [scan, List.map_flatMap, List.filterMap_flatMap, Shelf.listed]
  refine List.flatMap_congr fun subdir listed => ?_
  rw [← holds.names listed, List.filterMap_map, List.filterMap_map, List.filterMap_map]
  refine List.filterMap_congr fun e member => ?_
  obtain ⟨m, taken, stored⟩ := holds.taken_of_file listed (mem_slotFiles.mp member)
  exact taken.trans stored.symm

theorem readable (holds : Holds load text t root s) :
    ∀ e ∈ scan t root, ReadableFile (load e.2.2) := by
  rintro ⟨subdir, name, content⟩ member
  obtain ⟨listed, there⟩ := mem_scan.mp member
  obtain ⟨m, taken, _⟩ := holds.taken_of_file listed there
  rw [← caught_iff_readable text]
  intro e raised
  rw [Plugins.taken, raised] at taken
  cases taken

theorem discovers (holds : Holds load text t root s) :
    ∃ errors, discoverPlugins text (pluginTree load t root) = .ok ⟨s.listed, errors⟩ := by
  have files := @manifestFiles_eq _ load t root
  have caught : ∀ file ∈ manifestFiles (pluginTree load t root), ∀ e,
      loadManifest text file.2 = .error e → e.caught = true := by
    intro file member
    rw [caught_iff_readable]
    have loaded := List.mem_map_of_mem (f := Prod.snd) member
    rw [files, List.mem_map] at loaded
    obtain ⟨e, inside, same⟩ := loaded
    exact same ▸ holds.readable e inside
  obtain ⟨errors, returned⟩ := discoverFrom_caught caught {}
  refine ⟨errors, returned.trans ?_⟩
  have plugins : (manifestFiles (pluginTree load t root)).filterMap
      (fun file => (loadManifest text file.2).toOption) = s.listed := by
    rw [← holds.accepted, ← Function.comp_def (fun loaded => (loadManifest text loaded).toOption)
      Prod.snd, ← List.filterMap_map, files, List.filterMap_map, List.filterMap_map]
    rfl
  rw [plugins]
  rfl

theorem remove_first (holds : Holds load text t root s) (resolved : dotdot ∉ root) {name : String}
    {m : PluginManifest} (first : s.first name = some m) :
    (Plugins.remove load text t root name).2 = .ok true ∧
      ∀ q, (Plugins.remove load text t root name).1.get q =
        if slot root (typeDir m) m.name <+: q then none else t.get q := by
  obtain ⟨listed, rfl, stored⟩ := Shelf.get_of_first holds.named first
  obtain ⟨content, there, _⟩ := holds.file_of_get listed stored
  have name := holds.plain _ _ m stored
  obtain ⟨way, plain⟩ := pluginDest_plain resolved name.flat name.filled name.dot name.dots
  obtain ⟨errors, returned⟩ := holds.discovers
  have found : discoverPlugin text m.name (pluginTree load t root) = .ok (some m) := by
    rw [discoverPlugin, returned, Except.map, Shelf.find?_listed holds.named, first]
  have dir := (isDir_slot there).1
  have walked : walk t.isDir [] (pluginDest root m) = some (slot root (typeDir m) m.name) := by
    rw [way, FileTree.walk_eq_some t.isDir_nil, follow_plain plain]
    refine ⟨List.nil_append _, fun place passed => ?_⟩
    exact FileTree.isDir_of_prefix dir (steps_plain plain place passed)
  refine (remove_iff found dir (by simp [slot])).mpr ⟨walked, fun q passed below => ?_⟩
  rw [way] at passed
  exact (steps_plain plain q passed).eq_of_length_le below.length_le

theorem remove_missing (holds : Holds load text t root s) {name : String}
    (missing : s.first name = none) :
    Plugins.remove load text t root name = (t, .ok false) := by
  obtain ⟨errors, returned⟩ := holds.discovers
  simp only [Plugins.remove, returned, Shelf.find?_listed holds.named, missing]

theorem slot_of_above {subdir subdir' name name' : String}
    (below : slot root subdir name <+: slotManifest root subdir' name') :
    subdir = subdir' ∧ name = name' := by
  rcases List.prefix_concat_iff.mp below with same | inside
  · exact absurd (congrArg List.length same) (by simp [slot, pluginDir])
  · exact slot_inj (inside.eq_of_length (by simp [slot, pluginDir]))

theorem removed (holds : Holds load text t root s) {t' : FileTree κ} {m : PluginManifest}
    (gone : ∀ q, t'.get q = if slot root (typeDir m) m.name <+: q then none else t.get q) :
    Holds load text t' root (s.erase (typeDir m, m.name)) where
  files subdir listed name := by
    rw [Dict.get_erase]
    by_cases same : (subdir, name) = (typeDir m, m.name)
    · obtain ⟨rfl, rfl⟩ := Prod.mk.inj same
      have none : t'.get (slotManifest root (typeDir m) m.name) = none := by
        rw [gone, slotManifest, if_pos (List.prefix_append _ _)]
      simp [FileTree.fileAt, none]
    · have kept : t'.get (slotManifest root subdir name) =
          t.get (slotManifest root subdir name) := by
        rw [gone, if_neg fun below => same ?_]
        obtain ⟨rfl, rfl⟩ := slot_of_above below
        rfl
      rw [if_neg same, FileTree.fileAt_congr kept, holds.files subdir listed name]
  named := holds.named.erase _
  plain subdir name m' stored := holds.plain subdir name m' (Dict.get_of_get_erase stored)
  free subdir listed name := by
    have after := gone (slotManifest root subdir name)
    split at after
    next => simp [FileTree.isDir, after]
    next => rw [FileTree.isDir_congr after, holds.free subdir listed name]

theorem installed (holds : Holds load text t root s) (resolved : dotdot ∉ root)
    {t' made : FileTree κ} {source : SourceDir κ} {m : PluginManifest} {content : κ}
    (done : Installed load text t t' root source m content made) (name : PlainName m.name) :
    Holds load text t' root (s.install m) := by
  have lands := lands_of_plain resolved name.flat name.filled name.dot name.dots
    (holds.free _ (typeDir_listed m) m.name)
  obtain ⟨way, plain⟩ := pluginDest_plain resolved name.flat name.filled name.dot name.dots
  have arrived := fileAt_of_lands done lands
  have taken : taken load text content = some m := by
    rw [Plugins.taken, done.loaded]
    rfl
  have others : ∀ subdir ∈ pluginDirs, ∀ name, ¬ (subdir, name) = (typeDir m, m.name) →
      t'.fileAt (slotManifest root subdir name) = t.fileAt (slotManifest root subdir name) := by
    refine fun subdir listed name other =>
      fileAt_of_not_lands done (not_above_of_lands lands) listed fun lands' => other ?_
    obtain ⟨rfl, rfl⟩ := slot_inj (lands'.place.symm.trans lands.place)
    rfl
  refine ⟨fun subdir listed name' => ?_, holds.named.install m, fun subdir name' m' stored => ?_,
    fun subdir listed name' => ?_⟩
  · rw [Shelf.install, Dict.get_set]
    split
    next same =>
      obtain ⟨rfl, rfl⟩ := Prod.mk.inj same
      rw [arrived, Option.map_some, taken, Option.map_some]
    next other => rw [others subdir listed name' other, holds.files subdir listed name']
  · rw [Shelf.install, Dict.get_set] at stored
    split at stored
    next same =>
      obtain ⟨rfl, rfl⟩ := Prod.mk.inj same
      exact name
    next => exact holds.plain subdir name' m' stored
  · by_cases same : (subdir, name') = (typeDir m, m.name)
    · obtain ⟨rfl, rfl⟩ := Prod.mk.inj same
      by_contra dir
      rw [FileTree.fileAt_of_isDir (Bool.not_eq_false _ ▸ dir)] at arrived
      cases arrived
    · obtain ⟨_, _, dirs⟩ := FileTree.makeDirs_eq t.isDir_nil done.dirs
      have outside : ∀ e ∈ source.children,
          ¬ destDir root m ++ [e.1] <+: slotManifest root subdir name' := by
        intro e _ below
        rw [lands.place] at below
        obtain ⟨rfl, rfl⟩ := slot_of_above ((List.prefix_append _ _).trans below)
        exact same rfl
      rw [done.result, FileTree.isDir_congr (FileTree.copyTree_same _ _ _ _ outside)]
      by_contra dir
      rcases (dirs _).mp (Bool.not_eq_false _ ▸ dir) with before | passed
      · rw [holds.free subdir listed name'] at before
        cases before
      · rw [way] at passed
        have shorter := (steps_plain plain _ passed).length_le
        simp [slotManifest, slot, pluginDir] at shorter

end Holds
end holding

section runs
variable {κ : Type}

variable (load : κ → Except ReadError Yaml) (text : Yaml → String) in
def Op.Plain : Op κ → Prop
  | .install sourceText source =>
      ∀ m, verdict load text sourceText source = .ok m → PlainName m.name
  | _ => True

def served {σ : Type} (serve : σ → Op κ → σ × Answer) : σ → List (Op κ) → List Answer
  | _, [] => []
  | s, op :: ops => (serve s op).2 :: served serve (serve s op).1 ops

variable {load : κ → Except ReadError Yaml} {text : Yaml → String} {t : FileTree κ}
  {root : FilePath} {s : Shelf}

/-- One call: equal answers, and the tree goes on with what is on the shelf. -/
theorem serve_holds (holds : Holds load text t root s) (resolved : dotdot ∉ root) {op : Op κ}
    (plain : op.Plain load text) (settled : (serve load text root t op).2.isSettled = true) :
    (serve load text root t op).2 = (s.serve load text op).2 ∧
      Holds load text (serve load text root t op).1 root (s.serve load text op).1 := by
  cases op with
  | install sourceText source =>
    cases ruled : verdict load text sourceText source with
    | error e =>
      obtain ⟨returned, other⟩ := @installFromPath_turned_down _ _ _ t root _ _ _ ruled
      simp only [serve, returned, Shelf.serve, ruled]
      cases e with
      | osError => exact absurd rfl other
      | _ => exact ⟨trivial, holds⟩
    | ok m =>
      rcases @installFromPath_accepted _ _ _ t root _ _ _ ruled with returned | failed
      · obtain ⟨content, made, done⟩ := installFromPath_eq_ok (Prod.ext rfl returned)
        simp only [serve, returned, Shelf.serve, ruled, true_and]
        exact holds.installed resolved done (plain m ruled)
      · simp [serve, failed, Answer.isSettled] at settled
  | remove name =>
    cases first : s.first name with
    | none =>
      simp only [serve, holds.remove_missing first, Shelf.serve, Shelf.remove, first, true_and]
      exact holds
    | some m =>
      obtain ⟨returned, gone⟩ := holds.remove_first resolved first
      simp only [serve, returned, Shelf.serve, Shelf.remove, first, true_and]
      exact holds.removed gone
  | listInstalled =>
    obtain ⟨errors, returned⟩ := holds.discovers
    simp only [serve, returned, Shelf.serve, true_and]
    exact holds

theorem served_eq (holds : Holds load text t root s) (resolved : dotdot ∉ root) {ops : List (Op κ)}
    (plain : ∀ op ∈ ops, op.Plain load text)
    (settled : ∀ answer ∈ served (serve load text root) t ops, answer.isSettled = true) :
    served (serve load text root) t ops = served (Shelf.serve load text) s ops := by
  induction ops generalizing t s with
  | nil => rfl
  | cons op ops ih =>
    obtain ⟨here, later⟩ := List.forall_mem_cons.mp settled
    obtain ⟨same, kept⟩ := serve_holds holds resolved (plain op List.mem_cons_self) here
    rw [served, served, same,
      ih kept (fun op member => plain op (List.mem_cons_of_mem _ member)) later]

theorem holds_empty (bare : ∀ subdir ∈ pluginDirs, ∀ name,
    t.get (slotManifest root subdir name) = none) : Holds load text t root .empty where
  files subdir listed name := by simp [FileTree.fileAt, bare subdir listed name]
  named _ _ _ stored := by cases stored
  plain _ _ _ stored := by cases stored
  free subdir listed name := by simp [FileTree.isDir, bare subdir listed name]

/-- Over any tree without plugins, and as long as the disk does not fail an installation,
every series of calls is answered as by the shelf: nothing raises but for what a source says,
a removal finds what was installed and not yet removed, and the listing shows exactly that. -/
theorem installer_refines_shelf (load : κ → Except ReadError Yaml) (text : Yaml → String)
    {t : FileTree κ} {root : FilePath} (resolved : dotdot ∉ root)
    (bare : ∀ subdir ∈ pluginDirs, ∀ name, t.get (slotManifest root subdir name) = none)
    {ops : List (Op κ)} (plain : ∀ op ∈ ops, op.Plain load text)
    (settled : ∀ answer ∈ served (serve load text root) t ops, answer.isSettled = true) :
    served (serve load text root) t ops = served (Shelf.serve load text) .empty ops :=
  served_eq (holds_empty bare) resolved plain settled

end runs

def sampleSource : SourceDir Yaml :=
  ⟨[(manifestName, .file (.dict sampleManifest))], by simp [Source.Distinct, Source.DistinctAll]⟩

def reinstalled : List (Op Yaml) :=
  [.install "plugin" sampleSource, .listInstalled, .install "plugin" sampleSource,
    .remove "claude-code", .remove "claude-code", .listInstalled]

theorem installer_refines_shelf_reinstalled :
    served (serve .ok (fun _ => "") []) (.empty Yaml) reinstalled =
      served (Shelf.serve .ok fun _ => "") .empty reinstalled := by
  have plain : (Op.install "plugin" sampleSource).Plain .ok fun _ => "" := by
    intro m ruled
    have named : (verdict .ok (fun _ => "") "plugin" sampleSource).toOption.map
        PluginManifest.name = some "claude-code" := by decide +kernel
    rw [ruled] at named
    rw [Option.some.inj named]
    exact ⟨by decide +kernel, by decide +kernel, by decide +kernel, by decide +kernel⟩
  refine installer_refines_shelf .ok (fun _ => "") (by decide) (fun _ _ _ => ?_) ?_
    (List.all_eq_true.mp (by decide +kernel))
  · rw [FileTree.get, FileTree.empty, Dict.get_set, if_neg (by simp [slotManifest])]
    rfl
  · simp only [reinstalled, List.forall_mem_cons, List.not_mem_nil, false_implies, implies_true,
      and_true]
    exact ⟨plain, trivial, plain, trivial, trivial, trivial⟩

end Kitematic.Plugins

import Kitematic.KeyOrder
import Kitematic.PluginManifests
import Mathlib.Data.String.Basic

/-! Discovery of plugins. Every directory is gone through in the order of its names; a
manifest that is turned down is passed over and logged, and any other exception ends the
whole discovery. -/

namespace Kitematic.Plugins
open KeyOrder

/-- A name in a plugin directory: whether it is a directory, and what opening and parsing
its `manifest.yaml` comes to where that is a file. -/
structure PluginPath where
  name : String
  isDir : Bool
  manifest : Option (Except ReadError Yaml)

/-- The plugin directories that exist under `agents`, with what is in them. -/
abbrev PluginTree := String → Option (List PluginPath)

def pluginDirs : List String := ["tools", "frameworks", "models"]

def manifestFiles (tree : PluginTree) : List (String × Except ReadError Yaml) :=
  pluginDirs.flatMap fun subdir =>
    (sortBy PluginPath.name ((tree subdir).getD [])).filterMap fun plugin =>
      if plugin.isDir then
        plugin.manifest.map fun loaded =>
          ("agents/" ++ subdir ++ "/" ++ plugin.name ++ "/manifest.yaml", loaded)
      else none

section discovery
variable (text : Yaml → String)

def loadManifest : Except ReadError Yaml → Except LoadError PluginManifest
  | .ok (.dict raw) => validateManifest text raw
  | .ok _ => .error (.validation ["manifest must be a YAML mapping"])
  | .error e => .error (.read e)

/-- The plugins found, and the errors logged with the paths they are about. -/
structure Discovered where
  plugins : List PluginManifest := []
  errors : List (String × String) := []

def discoverFrom (found : Discovered) :
    List (String × Except ReadError Yaml) → Except LoadError Discovered
  | [] => .ok found
  | (path, loaded) :: files =>
      match loadManifest text loaded with
      | .ok manifest => discoverFrom { found with plugins := found.plugins ++ [manifest] } files
      | .error e =>
          if e.caught then
            discoverFrom { found with errors := found.errors ++ [(path, e.message)] } files
          else .error e

def discoverPlugins (tree : PluginTree) : Except LoadError Discovered :=
  discoverFrom text {} (manifestFiles tree)

def discoverPlugin (name : String) (tree : PluginTree) :
    Except LoadError (Option PluginManifest) :=
  (discoverPlugins text tree).map fun found => found.plugins.find? fun m => m.name = name

/-- The manifests that the validator accepts, in directory order. -/
def accepted (tree : PluginTree) : List PluginManifest :=
  (manifestFiles tree).filterMap fun file => (loadManifest text file.2).toOption

/-- Discovery comes back with exactly the accepted manifests, all of them valid. -/
def DiscoversAccepted (tree : PluginTree) : Prop :=
  ∃ found, discoverPlugins text tree = .ok found ∧ found.plugins = accepted text tree ∧
    ∀ manifest ∈ found.plugins, manifest.isValid = true

end discovery

/-- Reading the file raises nothing that discovery does not pass over, and a mapping is readable. -/
def ReadableFile : Except ReadError Yaml → Prop
  | .error (.other _) => False
  | .ok (.dict raw) => Readable raw
  | _ => True

section loops
variable {text : Yaml → String}

theorem isValid_of_loadManifest {loaded : Except ReadError Yaml} {manifest : PluginManifest}
    (taken : loadManifest text loaded = .ok manifest) : manifest.isValid = true := by
  unfold loadManifest at taken
  split at taken
  next => exact isValid_of_validateManifest taken
  next => cases taken
  next => cases taken

theorem caught_iff_readable (text : Yaml → String) (loaded : Except ReadError Yaml) :
    (∀ e, loadManifest text loaded = .error e → e.caught = true) ↔ ReadableFile loaded := by
  cases loaded with
  | error e => cases e <;> simp [loadManifest, LoadError.caught, ReadableFile]
  | ok v =>
    cases v with
    | dict raw =>
      simp only [loadManifest, ReadableFile]
      constructor
      · intro caught
        by_contra unreadable
        obtain ⟨e, raised, uncaught⟩ := validateManifest_unreadable text unreadable
        exact Bool.false_ne_true (uncaught.symm.trans (caught e raised))
      · intro readable e raised
        rcases validateManifest_readable text readable with ⟨manifest, ok⟩ | ⟨errors, bad⟩
        · cases ok.symm.trans raised
        · cases bad.symm.trans raised
          rfl
    | _ => simp [loadManifest, LoadError.caught, ReadableFile]

theorem discoverFrom_caught {files : List (String × Except ReadError Yaml)}
    (caught : ∀ file ∈ files, ∀ e, loadManifest text file.2 = .error e → e.caught = true)
    (found : Discovered) : ∃ errors, discoverFrom text found files = .ok
      ⟨found.plugins ++ files.filterMap fun file => (loadManifest text file.2).toOption, errors⟩ := by
  induction files generalizing found with
  | nil => exact ⟨found.errors, by simp [discoverFrom]⟩
  | cons file files ih =>
    have later := ih fun file' member => caught file' (List.mem_cons_of_mem _ member)
    cases taken : loadManifest text file.2 with
    | ok manifest =>
      obtain ⟨errors, rest⟩ := later { found with plugins := found.plugins ++ [manifest] }
      refine ⟨errors, ?_⟩
      simp only [discoverFrom, taken, rest]
      simp [taken, Except.toOption]
    | error e =>
      obtain ⟨errors, rest⟩ := later { found with errors := found.errors ++ [(file.1, e.message)] }
      refine ⟨errors, ?_⟩
      simp only [discoverFrom, taken, caught file List.mem_cons_self e taken, if_true, rest]
      simp [taken, Except.toOption]

theorem discoverFrom_uncaught {files : List (String × Except ReadError Yaml)}
    {file : String × Except ReadError Yaml} (member : file ∈ files) {e : LoadError}
    (raised : loadManifest text file.2 = .error e) (uncaught : e.caught = false)
    (found : Discovered) : ∃ e, discoverFrom text found files = .error e := by
  induction files generalizing found with
  | nil => cases member
  | cons first files ih =>
    rcases List.mem_cons.mp member with rfl | later
    · exact ⟨e, by simp [discoverFrom, raised, uncaught]⟩
    · unfold discoverFrom
      split
      next => exact ih later _
      next e' _ =>
        split
        next => exact ih later _
        next => exact ⟨e', rfl⟩

end loops

/-- Over any plugin tree, whatever its manifests hold, discovery does not raise and returns
exactly the accepted manifests, in directory order and valid, if and only if every manifest
is readable. -/
theorem discovers_iff_readable (text : Yaml → String) (tree : PluginTree) :
    DiscoversAccepted text tree ↔ ∀ file ∈ manifestFiles tree, ReadableFile file.2 := by
  constructor
  · intro discovers file member
    rw [← caught_iff_readable text]
    intro e raised
    by_contra uncaught
    obtain ⟨found, returned, _⟩ := discovers
    obtain ⟨e', ended⟩ := discoverFrom_uncaught member raised (Bool.not_eq_true _ ▸ uncaught) {}
    cases returned.symm.trans ended
  · intro readable
    obtain ⟨errors, returned⟩ := discoverFrom_caught
      (fun file member => (caught_iff_readable text file.2).mpr (readable file member)) {}
    refine ⟨_, returned, List.nil_append _, fun manifest member => ?_⟩
    obtain ⟨file, _, taken⟩ := List.mem_filterMap.mp member
    cases run : loadManifest text file.2 with
    | error e => simp [run, Except.toOption] at taken
    | ok manifest' =>
      simp only [run, Except.toOption, Option.some.injEq] at taken
      exact taken ▸ isValid_of_loadManifest run

def sampleManifest : Mapping :=
  [(.str "name", .str "claude-code"), (.str "version", .str "1.0.0"),
    (.str "plugin_type", .str "tool"), (.str "runtime_type", .str "coding-agent"),
    (.str "author", .str "Test Author"),
    (.str "entrypoint", .dict [(.str "module", .str "adapter"), (.str "class", .str "Adapter")])]

def sampleTree : PluginTree := fun subdir =>
  if subdir = "tools" then
    some [⟨"claude-code", true, some (.ok (.dict sampleManifest))⟩,
      ⟨"unfinished", true, some (.ok (.dict [(.str "capabilities", .null)]))⟩]
  else none

/-- The empty key raises, and no plugin is found. -/
theorem empty_capabilities_hide_plugins :
    (discoverPlugins (fun _ => "") sampleTree).isOk = false ∧
      (accepted (fun _ => "") sampleTree).map PluginManifest.name = ["claude-code"] ∧
        ¬ DiscoversAccepted (fun _ => "") sampleTree := by
  have raises : (discoverPlugins (fun _ => "") sampleTree).isOk = false := by decide +kernel
  refine ⟨raises, by decide +kernel, fun discovers => ?_⟩
  obtain ⟨found, returned, _⟩ := discovers
  rw [returned] at raises
  cases raises

end Kitematic.Plugins

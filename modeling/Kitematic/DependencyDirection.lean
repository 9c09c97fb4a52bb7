import Kitematic.KeyOrder
import Kitematic.PyText
import Kitematic.PythonSources
import Mathlib.Data.String.Basic

/-! The check of the architecture script that a layer imports only the layers its row of the
table allows, against the imports that the files of a source tree hold. -/

namespace Kitematic.DependencyDirection
open KeyOrder PyText PythonSources

inductive Layer where
  | core
  | kernel
  | controlPlane
  | agents
  | aiGateway
  | infrastructure
  | api
  | config
  | runtime
  | services
deriving DecidableEq

namespace Layer

def name : Layer → String
  | core => "core"
  | kernel => "kernel"
  | controlPlane => "control_plane"
  | agents => "agents"
  | aiGateway => "ai_gateway"
  | infrastructure => "infrastructure"
  | api => "api"
  | config => "config"
  | runtime => "runtime"
  | services => "services"

def all : List Layer :=
  [core, kernel, controlPlane, agents, aiGateway, infrastructure, api, config, runtime, services]

/-- A row of `LAYER_ALLOWED_IMPORTS`. -/
def allowedImports : Layer → List Layer
  | core => [core]
  | kernel => [core, kernel]
  | controlPlane => [core, kernel, controlPlane]
  | agents => [core, kernel, agents, aiGateway]
  | aiGateway => [core, aiGateway]
  | infrastructure => [core, infrastructure]
  | api => [core, kernel, controlPlane, api]
  | config => [core, config]
  | runtime => [core, kernel, runtime]
  | services => [core, kernel, controlPlane, services]

def ofName (part : String) : Option Layer := all.find? fun layer => layer.name = part

end Layer

/-! The functions of the script. -/

def discoverPythonFiles (tree : SourceTree) (excludeTests : Bool) : List SourceFile :=
  sortBy SourceFile.parts <| (tree.rglob []).filter fun file =>
    "__pycache__" ∉ file.parts && !(excludeTests && file.parts.head? = some "tests")

def getLayer (file : SourceFile) : Option Layer := file.parts.head?.bind Layer.ofName

/-- The names that an import statement gives, of whatever level. -/
def importsOf : Node → List ModuleName
  | .importNames names => names
  | .importFrom (some module) _ => [module]
  | _ => []

def extractImports (file : SourceFile) : List ModuleName :=
  match file.source with
  | none => []
  | some tree => tree.walk.flatMap importsOf

/-- `module.split(".")[0]` -/
def head (module : ModuleName) : String :=
  String.ofList (module.text.toList.takeWhile fun c => c ≠ '.')

def isProjectImport (module : ModuleName) : Bool := head module ∈ ["runtime", "services"]

def classifyImport (module : ModuleName) : Option Layer :=
  if head module = "runtime" then some .runtime
  else if head module = "services" then some .services
  else none

def detail (file : SourceFile) (imp : ModuleName) : String :=
  "  " ++ pathText file.parts ++ "\n    imports " ++ imp.text

def violations (file : SourceFile) : List String :=
  match getLayer file with
  | none => []
  | some layer =>
      (extractImports file).flatMap fun imp =>
        if !isProjectImport imp then []
        else
          match classifyImport imp with
          | none => []
          | some target => if target ∈ layer.allowedImports then [] else [detail file imp]

def checkDependencyDirection (tree : SourceTree) : CheckResult :=
  let details := (discoverPythonFiles tree true).flatMap violations
  ⟨"Dependency Direction", details.length = 0, details⟩

/-! What the table says about a tree. -/

def absoluteImports : Node → List ModuleName
  | .importNames names => names
  | .importFrom (some module) 0 => [module]
  | _ => []

def relativeImports : Node → List ModuleName
  | .importFrom (some module) (_ + 1) => [module]
  | _ => []

/-- A statement somewhere in the file gives the name. -/
def Holds (imports : Node → List ModuleName) (file : SourceFile) (imp : ModuleName) : Prop :=
  ∃ tree, file.source = some tree ∧ ∃ node, node.Within tree ∧ imp ∈ imports node

/-- The Python files outside caches and the tests. -/
def Checked (tree : SourceTree) (file : SourceFile) : Prop :=
  file ∈ tree.files ∧ isPython file.parts = true ∧ "__pycache__" ∉ file.parts ∧
    file.parts.head? ≠ some "tests"

/-- The file is of a layer whose row lacks the layer of the module. -/
def Forbidden (file : SourceFile) (imp : ModuleName) : Prop :=
  ∃ layer target, getLayer file = some layer ∧ Layer.ofName (head imp) = some target ∧
    target ∉ layer.allowedImports

def Violating (tree : SourceTree) (file : SourceFile) (imp : ModuleName) : Prop :=
  Checked tree file ∧ Holds absoluteImports file imp ∧ Forbidden file imp

/-- The check passes exactly where no import violates the table, and lists all that do. -/
def Sound (tree : SourceTree) : Prop :=
  ((checkDependencyDirection tree).passed = true ↔ ¬ ∃ file imp, Violating tree file imp) ∧
    ∀ file imp, Violating tree file imp → detail file imp ∈ (checkDependencyDirection tree).details

/-- One of the two packages that the script knows. -/
def Known (imp : ModuleName) : Prop := head imp = "runtime" ∨ head imp = "services"

/-! What each function gives. -/

theorem mem_discoverPythonFiles {tree : SourceTree} {file : SourceFile} :
    file ∈ discoverPythonFiles tree true ↔ Checked tree file := by
  rw [discoverPythonFiles, (sortBy_perm ..).mem_iff, List.mem_filter, SourceTree.mem_rglob]
  simp [Checked, and_assoc]

theorem importsOf_eq (node : Node) : ∀ imp, imp ∈ importsOf node ↔
    imp ∈ absoluteImports node ∨ imp ∈ relativeImports node := by
  intro imp
  cases node with
  | importFrom module level =>
    cases module with
    | none => simp [importsOf, absoluteImports, relativeImports]
    | some module => cases level <;> simp [importsOf, absoluteImports, relativeImports]
  | _ => simp [importsOf, absoluteImports, relativeImports]

theorem mem_extractImports {file : SourceFile} {imp : ModuleName} : imp ∈ extractImports file ↔
    Holds absoluteImports file imp ∨ Holds relativeImports file imp := by
  unfold extractImports Holds
  cases file.source with
  | none => simp
  | some tree =>
    simp [Node.mem_walk, importsOf_eq, and_or_left, exists_or]

theorem classifyImport_eq (imp : ModuleName) :
    classifyImport imp = if isProjectImport imp then Layer.ofName (head imp) else none := by
  unfold classifyImport isProjectImport
  by_cases runtime : head imp = "runtime"
  · rw [runtime]
    decide
  · by_cases services : head imp = "services"
    · rw [services]
      decide
    · simp [runtime, services]

theorem isProjectImport_iff {imp : ModuleName} : isProjectImport imp = true ↔ Known imp := by
  simp [isProjectImport, Known]

theorem mem_violations {file : SourceFile} {text : String} : text ∈ violations file ↔
    ∃ imp ∈ extractImports file, Known imp ∧ Forbidden file imp ∧ text = detail file imp := by
  unfold violations Forbidden
  cases getLayer file with
  | none => simp
  | some layer =>
    simp only [List.mem_flatMap, classifyImport_eq, ← isProjectImport_iff]
    refine exists_congr fun imp => and_congr_right fun _ => ?_
    cases isProjectImport imp with
    | false => simp
    | true =>
      cases Layer.ofName (head imp) with
      | none => simp
      | some target =>
        by_cases fine : target ∈ layer.allowedImports <;> simp [fine]

theorem mem_details {tree : SourceTree} {text : String} :
    text ∈ (checkDependencyDirection tree).details ↔ ∃ file, Checked tree file ∧
      ∃ imp ∈ extractImports file, Known imp ∧ Forbidden file imp ∧ text = detail file imp := by
  simp [checkDependencyDirection, mem_discoverPythonFiles, mem_violations]

theorem passed_iff {tree : SourceTree} : (checkDependencyDirection tree).passed = true ↔
    ∀ text, text ∉ (checkDependencyDirection tree).details := by
  rw [← List.eq_nil_iff_forall_not_mem]
  simp only [checkDependencyDirection, decide_eq_true_eq, List.length_eq_zero_iff]

/-! A detail names one import: what follows its last line break. -/

theorem detail_inj {file file' : SourceFile} {imp imp' : ModuleName}
    (same : detail file imp = detail file' imp') : imp.text = imp'.text := by
  have letters := congrArg String.toList same
  have indent : "\n    imports ".toList = '\n' :: "    imports ".toList := by decide
  simp only [detail, String.toList_append, List.append_assoc, indent, List.cons_append] at letters
  simp only [← List.append_assoc "  ".toList] at letters
  have rest := lastSplit_inj (by simp [imp.oneLine]) (by simp [imp'.oneLine]) letters
  exact String.toList_inj.mp (List.append_cancel_left rest.2)

/-- The check is right about a tree if and only if every import that violates the table is of
one of the two known packages, and where there is none, no file has a relative import that
looks like a forbidden one of them. -/
theorem direction_sound_iff (tree : SourceTree) : Sound tree ↔
    (∀ file imp, Violating tree file imp → Known imp) ∧
      ((∃ file imp, Violating tree file imp) ∨ ∀ file imp, Checked tree file →
        Holds relativeImports file imp → Known imp → ¬ Forbidden file imp) := by
  have listed : ∀ file imp, Violating tree file imp → Known imp →
      detail file imp ∈ (checkDependencyDirection tree).details := by
    intro file imp violating known
    obtain ⟨checked, absolute, forbidden⟩ := violating
    exact mem_details.mpr ⟨file, checked, imp, mem_extractImports.mpr (.inl absolute), known,
      forbidden, rfl⟩
  constructor
  · intro sound
    have known : ∀ file imp, Violating tree file imp → Known imp := by
      intro file imp violating
      obtain ⟨file', _, imp', _, known, _, same⟩ := mem_details.mp (sound.2 file imp violating)
      unfold Known head at *
      rwa [detail_inj same]
    refine ⟨known, or_iff_not_imp_left.mpr fun clean file imp checked relative package forbidden => ?_⟩
    exact passed_iff.mp (sound.1.mpr clean) (detail file imp) <| mem_details.mpr
      ⟨file, checked, imp, mem_extractImports.mpr (.inr relative), package, forbidden, rfl⟩
  · intro right
    obtain ⟨known, clean⟩ := right
    refine ⟨⟨fun passed => ?_, fun none => ?_⟩, fun file imp violating =>
      listed file imp violating (known file imp violating)⟩
    · rintro ⟨file, imp, violating⟩
      exact passed_iff.mp passed _ (listed file imp violating (known file imp violating))
    · have relative := clean.resolve_left none
      refine passed_iff.mpr fun text member => ?_
      obtain ⟨file, checked, imp, extracted, package, forbidden, _⟩ := mem_details.mp member
      rcases mem_extractImports.mp extracted with absolute | dotted
      · exact none ⟨file, imp, checked, absolute, forbidden⟩
      · exact relative file imp checked dotted package forbidden

def databaseModule : ModuleName := ⟨"infrastructure.database", by decide, by decide⟩

def coreFile : SourceFile := ⟨["core", "store.py"], some (.block [.importNames [databaseModule]])⟩

def coreTree : SourceTree :=
  ⟨[coreFile], [[], ["core"]], by simp only [List.forall_mem_singleton]; decide, by decide⟩

/-- The core imports the infrastructure, and the check passes. -/
theorem core_imports_infrastructure :
    (checkDependencyDirection coreTree).passed = true ∧ ¬ Sound coreTree := by
  have passed : (checkDependencyDirection coreTree).passed = true := by decide +kernel
  refine ⟨passed, fun sound => sound.1.mp passed ⟨coreFile, databaseModule, ?_, ?_, ?_⟩⟩
  · exact ⟨List.mem_singleton_self _, by decide, by decide, by decide⟩
  · exact ⟨_, rfl, _, .deeper List.mem_cons_self (.here _), List.mem_cons_self⟩
  · exact ⟨.core, .infrastructure, by decide, by decide +kernel, by decide⟩

end Kitematic.DependencyDirection

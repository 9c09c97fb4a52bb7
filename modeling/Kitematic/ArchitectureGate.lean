import Kitematic.ImportCycles
import Kitematic.InterfaceCompliance
import Kitematic.PyText
import Mathlib.Data.List.TakeWhile

/-! The run of all checks of the architecture script, and what a tree is like that it accepts: the
chains of imports between its files stay within one layer and never come back to their start. -/

namespace Kitematic.ArchitectureGate
open DepthFirst DependencyDirection Dictionary ImportCycles InterfaceCompliance KeyOrder PyText
open PythonSources Relation

/-! The checks that look at one file after the other. -/

def fileCheck (name : String) (violations : SourceFile → List String) (tree : SourceTree) :
    CheckResult :=
  let details := (discoverPythonFiles tree true).flatMap violations
  ⟨name, details.length = 0, details⟩

/-- The loop of a check, which parses some of the files, until one of these raises. -/
def reading (reads : SourceFile → Bool) (check : SourceTree → CheckResult) (s : Sources) :
    Except String CheckResult := do
  let _ ← ((discoverPythonFiles s.tree true).filter reads).mapM s.parse
  return check s.tree

def inLayer (file : SourceFile) : Bool := (getLayer file).isSome

def importDetail (file : SourceFile) (note : String) (imp : ModuleName) : String :=
  "  " ++ pathText file.parts ++ "\n    imports '" ++ imp.text ++ "'" ++ note

def namesServices (imp : ModuleName) : Bool := "services".toList.isPrefixOf imp.text.toList

def inRuntime (file : SourceFile) : Bool := file.parts.head? = some "runtime"

def isolationViolations (file : SourceFile) : List String :=
  if inRuntime file then
    ((extractImports file).filter namesServices).map (importDetail file "")
  else []

def checkLayerIsolation : SourceTree → CheckResult :=
  fileCheck "Layer Isolation" isolationViolations

def forbiddenImports : List (String × List String) :=
  [("control_plane",
    ["sqlite3", "psycopg", "psycopg2", "sqlalchemy", "pymongo", "redis", "requests", "httpx",
      "aiohttp", "urllib", "http.client", "websockets"])]

def belongsTo (imp : ModuleName) (fb : String) : Bool :=
  imp.text = fb || (fb ++ ".").toList.isPrefixOf imp.text.toList

/-- In whatever order a set gives its members: the text does not name the one that matches. -/
def forbiddenViolations (file : SourceFile) : List String :=
  forbiddenImports.flatMap fun row =>
    if row.1 ∈ file.parts then
      (extractImports file).flatMap fun imp =>
        (row.2.filter (belongsTo imp)).map fun _ => importDetail file " (forbidden)" imp
    else []

def inForbidden (file : SourceFile) : Bool := forbiddenImports.any fun row => row.1 ∈ file.parts

def checkForbiddenImports : SourceTree → CheckResult :=
  fileCheck "Forbidden Imports" forbiddenViolations

def dunderWhitelist : List String := ["__future__", "__main__", "__init__"]

def isPrivate (part : String) : Bool := part.toList.head? = some '_' && part ∉ dunderWhitelist

def boundaryViolations (file : SourceFile) : List String :=
  ((extractImports file).filter fun imp => (parts imp).any isPrivate).map
    (importDetail file " (private package)")

def checkPackageBoundaries : SourceTree → CheckResult :=
  fileCheck "Package Boundaries" boundaryViolations

/-- Of the nodes that a walk over a file comes to, those that the check of hygiene looks at. -/
inductive Mark where
  | pass (lineno : Nat)
  | text (value : String) (lineno : Nat)
  | raiseCall (func : Expr) (lineno : Nat)

def place (file : SourceFile) (lineno : Nat) : String :=
  "  " ++ pathText file.parts ++ ":" ++ toString lineno

def markViolations (file : SourceFile) : Mark → List String
  | .pass lineno => [place file lineno]
  | .text value lineno =>
      match ["TODO", "FIXME", "HACK"].find? fun pat => containsText value pat with
      | none => []
      | some pat => [place file lineno ++ " — contains '" ++ pat ++ "'"]
  | .raiseCall func lineno =>
      if isName func "NotImplementedError" then [place file lineno] else []

def finished (file : SourceFile) : Bool :=
  file.parts.head? ≠ some "scripts" && file.parts.getLast? ≠ some "__init__.py"

def hygieneViolations (marks : SourceFile → List Mark) (file : SourceFile) : List String :=
  if finished file then
    match file.source with
    | none => []
    | some _ => (marks file).flatMap (markViolations file)
  else []

def checkHygiene (marks : SourceFile → List Mark) : SourceTree → CheckResult :=
  fileCheck "Hygiene" (hygieneViolations marks)

/-! The check that asks the interpreter. -/

/-- A row of `KNOWN_CONTRACTS`. -/
structure Contract where
  abcModule : String
  abcClass : String
  implModule : String
  implClass : String

def knownContracts : List Contract :=
  [⟨"control_plane.registry.template_repository", "TemplateRepository",
      "control_plane.registry.memory_template_repository", "MemoryTemplateRepository"⟩,
    ⟨"control_plane.registry.instance_repository", "InstanceRepository",
      "control_plane.registry.memory_instance_repository", "MemoryInstanceRepository"⟩,
    ⟨"core.policies.evaluator", "PolicyEvaluator", "control_plane.policy.engine", "PolicyEngine"⟩]

/-- What the interpreter raises: an error that the check catches there, as its text, or another. -/
inductive LoadError where
  | caught (text : String)
  | other (e : String)

/-- What the interpreter shows of a class: its `__abstractmethods__`, and of the attribute with a
name, where it has one, what `inspect.signature` gives or raises, of which a `ValueError` or
`TypeError` is caught. -/
structure LoadedClass where
  abstractMethods : Except String (List String)
  getattr : String → Except String (Option (Except LoadError String))

/-- `import_module` and `getattr`, of which an `ImportError` or `AttributeError` is caught. -/
abbrev Loader := String → String → Except LoadError LoadedClass

def inspectionFailed (implMethod e : String) : List String :=
  [implMethod ++ ": signature inspection failed (" ++ e ++ ")"]

def compareSignatures (implMethod : String) (abc impl : Except LoadError String) :
    Except String (List String) :=
  match abc, impl with
  | .error (.other e), _ => .error e
  | .error (.caught e), _ => .ok (inspectionFailed implMethod e)
  | .ok _, .error (.other e) => .error e
  | .ok _, .error (.caught e) => .ok (inspectionFailed implMethod e)
  | .ok abcSig, .ok implSig =>
      if abcSig = implSig then .ok []
      else
        .ok [implMethod ++ ": signature mismatch\n    ABC:   " ++ abcSig ++ "\n    Found: " ++
          implSig]

def methodViolations (contract : Contract) (abc impl : LoadedClass) (method : String) :
    Except String (List String) := do
  let abcMethod ← abc.getattr method
  let implMethod ← impl.getattr method
  match abcMethod, implMethod with
  | none, _ => .ok ["  " ++ contract.abcClass ++ "." ++ method ++ ": ABC method not found"]
  | some _, none => .ok ["  " ++ contract.implClass ++ "." ++ method ++ ": implementation not found"]
  | some abcSig, some implSig =>
      compareSignatures ("  " ++ contract.implClass ++ "." ++ method) abcSig implSig

def importFailed (modulePath cls e : String) : List String :=
  ["  " ++ modulePath ++ "." ++ cls ++ ": import failed (" ++ e ++ ")"]

def contractViolations (load : Loader) (contract : Contract) : Except String (List String) :=
  match load contract.abcModule contract.abcClass with
  | .error (.other e) => .error e
  | .error (.caught e) => .ok (importFailed contract.abcModule contract.abcClass e)
  | .ok abc =>
      match load contract.implModule contract.implClass with
      | .error (.other e) => .error e
      | .error (.caught e) => .ok (importFailed contract.implModule contract.implClass e)
      | .ok impl => abc.abstractMethods.bind (concatM (methodViolations contract abc impl))

def checkContractConsistency (load : Loader) : Except String CheckResult := do
  let details ← concatM (contractViolations load) knownContracts
  return ⟨"Contract Consistency", details.length = 0, details⟩

/-! All checks. -/

/-- What the script asks the interpreter: how deep `dfs` may call itself, how it shows a set, the
classes it loads, and the marks of a file. -/
structure Interpreter where
  depth : Nat
  shown : Finset String → String
  load : Loader
  marks : SourceFile → List Mark

def exitCode (results : List CheckResult) : Nat :=
  let failed := results.countP fun r => !r.passed
  if failed > 0 then 1 else 0

def searchCycles (depth : Nat) (s : Sources) : Except String CheckResult := do
  let _ ← ((discoverPythonFiles s.tree true).filter inLayer).mapM s.parse
  (checkImportCycles s.tree depth).mapError fun _ => "maximum recursion depth exceeded"

def checks (py : Interpreter) : List (Sources → Except String CheckResult) :=
  [reading inLayer checkDependencyDirection, reading inRuntime checkLayerIsolation,
    reading inForbidden checkForbiddenImports, searchCycles py.depth,
    checkInterfaceCompliance py.shown, fun _ => checkContractConsistency py.load,
    reading (fun _ => true) checkPackageBoundaries, reading finished (checkHygiene py.marks)]

def runVerification (py : Interpreter) (s : Sources) : Except String (List CheckResult × Nat) := do
  let results ← (checks py).mapM fun check => check s
  return (results, exitCode results)

/-! What ends a run. -/

inductive Escapes (abc impl : LoadedClass) (method : String) : Prop
  | abcAttribute (e : String) (raised : abc.getattr method = .error e)
  | implAttribute {abcMethod : Option (Except LoadError String)} (e : String)
      (given : abc.getattr method = .ok abcMethod) (raised : impl.getattr method = .error e)
  | abcSignature {implSig : Except LoadError String} (e : String)
      (raised : abc.getattr method = .ok (some (.error (.other e))))
      (given : impl.getattr method = .ok (some implSig))
  | implSignature {abcSig : String} (e : String)
      (given : abc.getattr method = .ok (some (.ok abcSig)))
      (raised : impl.getattr method = .ok (some (.error (.other e))))

/-- What the interpreter raises at a contract is not caught. -/
inductive Broken (load : Loader) (contract : Contract) : Prop
  | abc (e : String) (raised : load contract.abcModule contract.abcClass = .error (.other e))
  | impl {abc : LoadedClass} (e : String)
      (loaded : load contract.abcModule contract.abcClass = .ok abc)
      (raised : load contract.implModule contract.implClass = .error (.other e))
  | methods {abc impl : LoadedClass} (e : String)
      (loaded : load contract.abcModule contract.abcClass = .ok abc)
      (loaded' : load contract.implModule contract.implClass = .ok impl)
      (raised : abc.abstractMethods = .error e)
  | method {abc impl : LoadedClass} {methods : List String} {method : String}
      (loaded : load contract.abcModule contract.abcClass = .ok abc)
      (loaded' : load contract.implModule contract.implClass = .ok impl)
      (given : abc.abstractMethods = .ok methods) (member : method ∈ methods)
      (escapes : Escapes abc impl method)

/-- A file that is read raises something else than a `SyntaxError`, or the interpreter something
that the check of the contracts does not catch. -/
def Raises (py : Interpreter) (s : Sources) : Prop :=
  (∃ file, Checked s.tree file ∧ (s.raises file).isSome = true) ∨ Stops s ∨
    ∃ contract ∈ knownContracts, Broken py.load contract

/-! What an accepted tree is like. -/

def PathsApart (tree : SourceTree) : Prop :=
  Set.InjOn (fun file => pathText file.parts) {file : SourceFile | file ∈ tree.files}

def Layered (tree : SourceTree) (file : SourceFile) : Prop :=
  Checked tree file ∧ (getLayer file).isSome = true

/-- A file of a layer has an import that the other one answers. -/
def Depends (tree : SourceTree) (file file' : SourceFile) : Prop :=
  Layered tree file ∧ Layered tree file' ∧
    ∃ imp ∈ extractImports file, dep tree imp = some (pathText file'.parts)

/-- Where the interface is in the tree, some class of the directory names it, and each that does
has a statement for every method seen in it. -/
def Implemented (tree : SourceTree) (known : KnownInterface) : Prop :=
  ∀ abcClass dir, Examined tree known abcClass → known.implDir = some dir →
    (∃ cls ∈ classesBelow tree dir, NamedPlainly known cls) ∧
      ∀ cls ∈ classesBelow tree dir, NamedPlainly known cls → ¬ Short abcClass cls

/-- Both classes load, and the abstract methods have the same signature in both. -/
def Kept (load : Loader) (contract : Contract) : Prop :=
  ∃ abc impl methods, load contract.abcModule contract.abcClass = .ok abc ∧
    load contract.implModule contract.implClass = .ok impl ∧ abc.abstractMethods = .ok methods ∧
      ∀ method ∈ methods, ∃ signature, abc.getattr method = .ok (some (.ok signature)) ∧
        impl.getattr method = .ok (some (.ok signature))

def Inspected (tree : SourceTree) (file : SourceFile) : Prop :=
  Checked tree file ∧ file.parts.head? ≠ some "scripts" ∧
    file.parts.getLast? ≠ some "__init__.py" ∧ file.source.isSome = true

def Unfinished : Mark → Prop
  | .pass _ => True
  | .text value _ => ∃ pat ∈ ["TODO", "FIXME", "HACK"], pat.toList <:+: value.toList
  | .raiseCall func _ => func = .name "NotImplementedError"

structure Accepted (py : Interpreter) (tree : SourceTree) : Prop where
  directed : ∀ file, Checked tree file → ∀ imp ∈ extractImports file, Known imp →
    ¬ Forbidden file imp
  isolated : ∀ file, Checked tree file → file.parts.head? = some "runtime" →
    ∀ imp ∈ extractImports file, ¬ "services".toList <+: imp.text.toList
  clients : ∀ file, Checked tree file → ∀ row ∈ forbiddenImports, row.1 ∈ file.parts →
    ∀ imp ∈ extractImports file, ∀ fb ∈ row.2,
      imp.text ≠ fb ∧ ¬ (fb ++ ".").toList <+: imp.text.toList
  acyclic : ¬ Cyclic (Depends tree)
  implemented : ∀ known ∈ knownAbcImplementations, Implemented tree known
  kept : ∀ contract ∈ knownContracts, Kept py.load contract
  bounded : ∀ file, Checked tree file → ∀ imp ∈ extractImports file, ∀ part ∈ parts imp,
    part.toList.head? = some '_' → part ∈ dunderWhitelist
  clean : ∀ file, Inspected tree file → ∀ mark ∈ py.marks file, ¬ Unfinished mark

/-! When each check passes. -/

theorem fileCheck_passed_iff {name : String} {violations : SourceFile → List String}
    {tree : SourceTree} : (fileCheck name violations tree).passed = true ↔
      ∀ file, Checked tree file → violations file = [] := by
  simp only [fileCheck, decide_eq_true_eq, List.length_eq_zero_iff, List.flatMap_eq_nil_iff,
    mem_discoverPythonFiles]

theorem checkDependencyDirection_passed_iff {tree : SourceTree} :
    (checkDependencyDirection tree).passed = true ↔ ∀ file, Checked tree file →
      ∀ imp ∈ extractImports file, Known imp → ¬ Forbidden file imp := by
  have same : checkDependencyDirection tree =
      fileCheck "Dependency Direction" DependencyDirection.violations tree := rfl
  rw [same, fileCheck_passed_iff]
  refine forall₂_congr fun file _ => ?_
  rw [List.eq_nil_iff_forall_not_mem]
  constructor
  · intro none imp member known forbidden
    exact none _ (mem_violations.mpr ⟨imp, member, known, forbidden, rfl⟩)
  · intro directed text listed
    obtain ⟨imp, member, known, forbidden, _⟩ := mem_violations.mp listed
    exact directed imp member known forbidden

theorem checkLayerIsolation_passed_iff {tree : SourceTree} :
    (checkLayerIsolation tree).passed = true ↔ ∀ file, Checked tree file →
      file.parts.head? = some "runtime" → ∀ imp ∈ extractImports file,
        ¬ "services".toList <+: imp.text.toList := by
  rw [checkLayerIsolation, fileCheck_passed_iff]
  refine forall₂_congr fun file _ => ?_
  by_cases runtime : file.parts.head? = some "runtime" <;>
    simp [isolationViolations, inRuntime, runtime, namesServices]

theorem belongsTo_iff {imp : ModuleName} {fb : String} : belongsTo imp fb = false ↔
    imp.text ≠ fb ∧ ¬ (fb ++ ".").toList <+: imp.text.toList := by
  rw [belongsTo, Bool.or_eq_false_iff, decide_eq_false_iff_not, ← List.isPrefixOf_iff_prefix,
    Bool.not_eq_true]

theorem checkForbiddenImports_passed_iff {tree : SourceTree} :
    (checkForbiddenImports tree).passed = true ↔ ∀ file, Checked tree file →
      ∀ row ∈ forbiddenImports, row.1 ∈ file.parts → ∀ imp ∈ extractImports file, ∀ fb ∈ row.2,
        imp.text ≠ fb ∧ ¬ (fb ++ ".").toList <+: imp.text.toList := by
  rw [checkForbiddenImports, fileCheck_passed_iff]
  refine forall₂_congr fun file _ => ?_
  rw [forbiddenViolations, List.flatMap_eq_nil_iff]
  refine forall₂_congr fun row _ => ?_
  by_cases inside : row.1 ∈ file.parts
  · simp only [inside, if_true, forall_const, List.flatMap_eq_nil_iff, List.map_eq_nil_iff,
      List.filter_eq_nil_iff, Bool.not_eq_true, belongsTo_iff]
  · simp [inside]

theorem checkPackageBoundaries_passed_iff {tree : SourceTree} :
    (checkPackageBoundaries tree).passed = true ↔ ∀ file, Checked tree file →
      ∀ imp ∈ extractImports file, ∀ part ∈ parts imp, part.toList.head? = some '_' →
        part ∈ dunderWhitelist := by
  rw [checkPackageBoundaries, fileCheck_passed_iff]
  simp [boundaryViolations, isPrivate]

theorem markViolations_eq_nil {file : SourceFile} {mark : Mark} :
    markViolations file mark = [] ↔ ¬ Unfinished mark := by
  cases mark with
  | pass lineno => simp [markViolations, Unfinished]
  | text value lineno =>
    rw [markViolations]
    cases found : ["TODO", "FIXME", "HACK"].find? fun pat => containsText value pat with
    | none => simpa [Unfinished, containsText] using found
    | some pat =>
      have member := List.mem_of_find?_eq_some found
      have contained := List.find?_some found
      simp only [reduceCtorEq, false_iff, not_not]
      exact ⟨pat, member, by simpa [containsText] using contained⟩
  | raiseCall func lineno => simp [markViolations, Unfinished, ← isName_iff]

theorem checkHygiene_passed_iff {marks : SourceFile → List Mark} {tree : SourceTree} :
    (checkHygiene marks tree).passed = true ↔ ∀ file, Inspected tree file →
      ∀ mark ∈ marks file, ¬ Unfinished mark := by
  rw [checkHygiene, fileCheck_passed_iff]
  refine forall_congr' fun file => ?_
  simp only [Inspected, and_imp]
  refine imp_congr_right fun _ => ?_
  unfold hygieneViolations finished
  by_cases scripts : file.parts.head? = some "scripts"
  · simp [scripts]
  · by_cases init : file.parts.getLast? = some "__init__.py"
    · simp [init]
    · cases file.source with
      | none => simp
      | some _ => simp [scripts, init, markViolations_eq_nil]

theorem checkInterface_eq_nil {s : Sources} {known : KnownInterface} :
    checkInterface s known = .ok [] ↔ ¬ Breaks s known ∧ Implemented s.tree known := by
  have looked := checkInterface_looked s known
  generalize checkInterface s known = outcome at looked
  cases looked with
  | breaks e broken => simp [broken]
  | nothing whole none =>
    refine iff_of_true rfl ⟨whole, fun abcClass dir examined row => ?_⟩
    exact absurd row (none abcClass dir examined)
  | noDirectory _ examined row missing =>
    refine iff_of_false (by simp) fun ⟨_, implemented⟩ => ?_
    obtain ⟨⟨cls, inside, _⟩, _⟩ := implemented _ _ examined row
    simp [classesBelow_of_missing missing] at inside
  | @compared whole abcClass dir examined row there =>
    have named : (classesBelow s.tree dir).filter (inherits known.abcName) = [] ↔
        ¬ ∃ cls ∈ classesBelow s.tree dir, NamedPlainly known cls := by
      simp [List.filter_eq_nil_iff, ← inherits_iff]
    have short : ∀ cls, missingIn known.abcName abcClass cls = [] ↔ ¬ Short abcClass cls := by
      intro cls
      rw [← short_iff, not_not, missingIn]
      split <;> simp_all
    simp only [Except.ok.injEq, checkImplementations, List.append_eq_nil_iff,
      List.flatMap_eq_nil_iff, List.mem_filter, inherits_iff, short, ite_eq_right_iff,
      reduceCtorEq, imp_false, named, not_not, and_imp]
    constructor
    · rintro ⟨full, some⟩
      refine ⟨whole, fun other dir' examined' row' => ?_⟩
      obtain rfl := examined.unique examined'
      obtain rfl := Option.some.inj (row.symm.trans row')
      exact ⟨some, full⟩
    · rintro ⟨_, implemented⟩
      exact (implemented abcClass dir examined row).symm

/-- The check comes to an end, and passes. -/
def Passes (check : Sources → Except String CheckResult) (s : Sources) : Prop :=
  ∃ result, check s = .ok result ∧ result.passed = true

theorem checkInterfaceCompliance_passes_iff {shown : Finset String → String} {s : Sources} :
    Passes (checkInterfaceCompliance shown) s ↔
      ¬ Stops s ∧ ∀ known ∈ knownAbcImplementations, Implemented s.tree known := by
  have nothing : Passes (checkInterfaceCompliance shown) s ↔
      InterfaceCompliance.violations s = .ok [] := by
    unfold Passes checkInterfaceCompliance
    cases InterfaceCompliance.violations s <;> simp [bind, Except.bind, pure, Except.pure]
  have split : (∀ known ∈ knownAbcImplementations, checkInterface s known = .ok []) ↔
      ¬ Stops s ∧ ∀ known ∈ knownAbcImplementations, Implemented s.tree known := by
    simp only [checkInterface_eq_nil, forall_and, Stops, not_exists, not_and]
  rw [nothing, ← split, InterfaceCompliance.violations, concatM_eq_nil_iff]

theorem compareSignatures_eq_nil {implMethod : String} {abc impl : Except LoadError String} :
    compareSignatures implMethod abc impl = .ok [] ↔ ∃ signature, abc = .ok signature ∧
      impl = .ok signature := by
  rcases abc with (_ | _) | abcSig
  · simp [compareSignatures, inspectionFailed]
  · simp [compareSignatures]
  · rcases impl with (_ | _) | implSig
    · simp [compareSignatures, inspectionFailed]
    · simp [compareSignatures]
    · by_cases same : abcSig = implSig
      · simp [compareSignatures, same]
      · simp [compareSignatures, same, Ne.symm same]

theorem methodViolations_eq_nil {contract : Contract} {abc impl : LoadedClass} {method : String} :
    methodViolations contract abc impl method = .ok [] ↔ ∃ signature,
      abc.getattr method = .ok (some (.ok signature)) ∧
        impl.getattr method = .ok (some (.ok signature)) := by
  unfold methodViolations
  rcases abc.getattr method with _ | _ | abcSig <;>
    rcases impl.getattr method with _ | _ | implSig <;>
      simp [bind, Except.bind, compareSignatures_eq_nil]

theorem contractViolations_eq_nil {load : Loader} {contract : Contract} :
    contractViolations load contract = .ok [] ↔ Kept load contract := by
  unfold contractViolations Kept
  rcases load contract.abcModule contract.abcClass with (_ | _) | abc
  · simp [importFailed]
  · simp
  · rcases load contract.implModule contract.implClass with (_ | _) | impl
    · simp [importFailed]
    · simp
    · cases given : abc.abstractMethods with
      | error e => simp [given, Except.bind]
      | ok methods => simp [given, Except.bind, concatM_eq_nil_iff, methodViolations_eq_nil]

theorem checkContractConsistency_passes_iff {load : Loader} {s : Sources} :
    Passes (fun _ => checkContractConsistency load) s ↔
      ∀ contract ∈ knownContracts, Kept load contract := by
  have nothing : Passes (fun _ => checkContractConsistency load) s ↔
      concatM (contractViolations load) knownContracts = .ok [] := by
    unfold Passes checkContractConsistency
    cases concatM (contractViolations load) knownContracts <;>
      simp [bind, Except.bind, pure, Except.pure]
  simp only [nothing, concatM_eq_nil_iff, contractViolations_eq_nil]

/-! When each check raises. -/

theorem compareSignatures_raises_iff {implMethod : String} {abc impl : Except LoadError String} :
    (∃ e, compareSignatures implMethod abc impl = .error e) ↔ (∃ e, abc = .error (.other e)) ∨
      ∃ abcSig e, abc = .ok abcSig ∧ impl = .error (.other e) := by
  rcases abc with (_ | _) | abcSig
  · simp [compareSignatures]
  · simp [compareSignatures]
  · rcases impl with (_ | _) | implSig
    · simp [compareSignatures]
    · simp [compareSignatures]
    · by_cases same : abcSig = implSig <;> simp [compareSignatures, same]

theorem methodViolations_raises_iff {contract : Contract} {abc impl : LoadedClass}
    {method : String} : (∃ e, methodViolations contract abc impl method = .error e) ↔
      Escapes abc impl method := by
  unfold methodViolations
  constructor
  · rintro ⟨e, raised⟩
    cases given : abc.getattr method with
    | error e => exact .abcAttribute e given
    | ok abcMethod =>
      cases given' : impl.getattr method with
      | error e => exact .implAttribute e given given'
      | ok implMethod =>
        rw [given, given'] at raised
        cases abcMethod with
        | none => cases raised
        | some abcSig =>
          cases implMethod with
          | none => cases raised
          | some implSig =>
            rcases compareSignatures_raises_iff.mp ⟨e, raised⟩ with ⟨e, rfl⟩ | ⟨abcSig, e, rfl, rfl⟩
            · exact .abcSignature e given given'
            · exact .implSignature e given given'
  · rintro (⟨e, raised⟩ | ⟨e, given, raised⟩ | ⟨e, raised, given⟩ | ⟨e, given, raised⟩)
    · exact ⟨e, by rw [raised]; rfl⟩
    · exact ⟨e, by rw [given, raised]; rfl⟩
    · exact ⟨e, by rw [raised, given]; rfl⟩
    · exact ⟨e, by rw [given, raised]; rfl⟩

theorem contractViolations_raises_iff {load : Loader} {contract : Contract} :
    (∃ e, contractViolations load contract = .error e) ↔ Broken load contract := by
  unfold contractViolations
  constructor
  · rintro ⟨e, raised⟩
    rcases loaded : load contract.abcModule contract.abcClass with (_ | e) | abc
    · simp [loaded] at raised
    · exact .abc e loaded
    · rcases loaded' : load contract.implModule contract.implClass with (_ | e) | impl
      · simp [loaded, loaded'] at raised
      · exact .impl e loaded loaded'
      · cases given : abc.abstractMethods with
        | error e => exact .methods e loaded loaded' given
        | ok methods =>
          simp only [loaded, loaded', given, Except.bind] at raised
          obtain ⟨method, member, escapes⟩ := concatM_raises_iff.mp ⟨e, raised⟩
          exact .method loaded loaded' given member (methodViolations_raises_iff.mp escapes)
  · rintro (⟨e, raised⟩ | ⟨e, loaded, raised⟩ | ⟨e, loaded, loaded', raised⟩ |
      ⟨loaded, loaded', given, member, escapes⟩)
    · exact ⟨e, by rw [raised]⟩
    · exact ⟨e, by rw [loaded]; simp only [raised]⟩
    · exact ⟨e, by rw [loaded]; simp only [loaded', raised, Except.bind]⟩
    · rw [loaded]
      simp only [loaded', given, Except.bind]
      exact concatM_raises_iff.mpr ⟨_, member, methodViolations_raises_iff.mpr escapes⟩

theorem readingLoop_raises_iff {reads : SourceFile → Bool} {s : Sources} :
    (∃ e, ((discoverPythonFiles s.tree true).filter reads).mapM s.parse = .error e) ↔
      ∃ file, Checked s.tree file ∧ reads file = true ∧ (s.raises file).isSome = true := by
  have parsed : ∀ file, (∃ e, s.parse file = .error e) ↔ (s.raises file).isSome = true := by
    intro file
    cases raised : s.raises file <;> simp [Sources.parse, raised]
  simp only [mapM_raises_iff, parsed, List.mem_filter, mem_discoverPythonFiles, and_assoc]

theorem readingLoop_ends (reads : SourceFile → Bool) {s : Sources}
    (whole : ¬ ∃ file, Checked s.tree file ∧ (s.raises file).isSome = true) :
    ∃ nodes, ((discoverPythonFiles s.tree true).filter reads).mapM s.parse = .ok nodes := by
  cases ran : ((discoverPythonFiles s.tree true).filter reads).mapM s.parse with
  | error e =>
    obtain ⟨file, checked, _, raised⟩ := readingLoop_raises_iff.mp ⟨e, ran⟩
    exact absurd ⟨file, checked, raised⟩ whole
  | ok nodes => exact ⟨nodes, rfl⟩

theorem reading_raises_iff {reads : SourceFile → Bool} {check : SourceTree → CheckResult}
    {s : Sources} : (∃ e, reading reads check s = .error e) ↔
      ∃ file, Checked s.tree file ∧ reads file = true ∧ (s.raises file).isSome = true := by
  rw [reading, bind_raises_iff, readingLoop_raises_iff]
  simp [pure, Except.pure]

theorem checkInterfaceCompliance_raises_iff {shown : Finset String → String} {s : Sources} :
    (∃ e, checkInterfaceCompliance shown s = .error e) ↔ Stops s := by
  rw [checkInterfaceCompliance, bind_raises_iff, violations_raises_iff]
  simp [pure, Except.pure]

theorem checkContractConsistency_raises_iff {load : Loader} :
    (∃ e, checkContractConsistency load = .error e) ↔
      ∃ contract ∈ knownContracts, Broken load contract := by
  rw [checkContractConsistency, bind_raises_iff, concatM_raises_iff]
  simp [pure, Except.pure, contractViolations_raises_iff]

theorem reading_passes_iff {reads : SourceFile → Bool} {check : SourceTree → CheckResult}
    {s : Sources} (whole : ¬ ∃ file, Checked s.tree file ∧ (s.raises file).isSome = true) :
    Passes (reading reads check) s ↔ (check s.tree).passed = true := by
  obtain ⟨nodes, ran⟩ := readingLoop_ends reads whole
  simp [Passes, reading, ran, bind, Except.bind, pure, Except.pure]

/-! The graph of the search, as the imports between files. -/

theorem get_foldl_addFile {tree : SourceTree} {file : SourceFile}
    (layered : (getLayer file).isSome = true) (files : List SourceFile) :
    ∀ graph : Dict String (List String),
      (∀ other ∈ files, pathText other.parts = pathText file.parts → other = file) →
      (file ∈ files ∨
        graph.get (pathText file.parts) = some ((extractImports file).filterMap (dep tree))) →
      (files.foldl (addFile tree) graph).get (pathText file.parts) =
        some ((extractImports file).filterMap (dep tree)) := by
  induction files with
  | nil => simp
  | cons other files ih =>
    intro graph apart listed
    obtain ⟨here, later⟩ := List.forall_mem_cons.mp apart
    refine ih _ later ?_
    by_cases same : other = file
    · right
      obtain ⟨layer, found⟩ := Option.isSome_iff_exists.mp layered
      rw [addFile, same, found, Dict.get_set_self]
    · have elsewhere : pathText file.parts ≠ pathText other.parts := fun path =>
        same (here path.symm)
      refine listed.imp (fun member => ?_) fun stored => ?_
      · exact (List.mem_cons.mp member).resolve_left fun first => same first.symm
      · unfold addFile
        cases getLayer other with
        | none => exact stored
        | some _ => rwa [Dict.get_set, if_neg elsewhere]

theorem neighbors_importGraph {tree : SourceTree} (apart : PathsApart tree) {file : SourceFile}
    (layered : Layered tree file) : neighbors (importGraph tree) (pathText file.parts) =
      (extractImports file).filterMap (dep tree) := by
  have checked := mem_discoverPythonFiles.mpr layered.1
  have distinct : ∀ other ∈ discoverPythonFiles tree true,
      pathText other.parts = pathText file.parts → other = file := fun other member =>
    apart (mem_discoverPythonFiles.mp member).1 layered.1.1
  have stored : (importGraph tree).get (pathText file.parts) =
      some ((extractImports file).filterMap (dep tree)) :=
    get_foldl_addFile layered.2 _ _ distinct (.inl checked)
  rw [neighbors, stored, Option.getD_some]

theorem edge_importGraph {tree : SourceTree} (apart : PathsApart tree) :
    Edge (importGraph tree) = Relation.Map (Depends tree)
      (fun file => pathText file.parts) fun file => pathText file.parts := by
  funext a b
  apply propext
  constructor
  · intro edge
    obtain ⟨file, checked, layer, rfl⟩ := contains_importGraph.mp edge.contains
    obtain ⟨file', checked', layer', rfl⟩ := contains_importGraph.mp edge.2
    have listed := edge.1
    rw [neighbors_importGraph apart ⟨checked, layer⟩, List.mem_filterMap] at listed
    exact ⟨file, file', ⟨⟨checked, layer⟩, ⟨checked', layer'⟩, listed⟩, rfl, rfl⟩
  · rintro ⟨file, file', ⟨layered, layered', listed⟩, rfl, rfl⟩
    refine ⟨?_, contains_importGraph.mpr ⟨file', layered'.1, layered'.2, rfl⟩⟩
    rwa [neighbors_importGraph apart layered, List.mem_filterMap]

theorem cyclic_importGraph_iff {tree : SourceTree} (apart : PathsApart tree) :
    Cyclic (Edge (importGraph tree)) ↔ Cyclic (Depends tree) := by
  rw [edge_importGraph apart]
  exact cyclic_map_iff apart fun _ _ depends => ⟨depends.1.1.1, depends.2.1.1.1⟩

/-! The layers of the files that an import joins. -/

theorem takeWhile_pathText {first : String} (plain : '/' ∉ first.toList) (rest : List String) :
    (pathText (first :: rest)).toList.takeWhile (fun c => c ≠ '/') = first.toList := by
  have whole : first.toList.takeWhile (fun c => c ≠ '/') = first.toList :=
    List.takeWhile_eq_self_iff.mpr fun c member => by
      rw [decide_eq_true_eq]
      rintro rfl
      exact plain member
  rw [pathText, String.toList_intercalate, List.map_cons]
  cases rest with
  | nil => rw [List.map_nil, List.intercalate_singleton, whole]
  | cons next rest =>
    have slash : "/".toList = ['/'] := by decide
    rw [List.map_cons, List.intercalate_cons_cons, slash, List.append_assoc,
      List.takeWhile_append_of_pos (List.takeWhile_eq_self_iff.mp whole)]
    simp

theorem first_of_pathText {first first' : String} {rest rest' : List String}
    (plain : '/' ∉ first.toList) (plain' : '/' ∉ first'.toList)
    (same : pathText (first :: rest) = pathText (first' :: rest')) : first = first' := by
  rw [← String.toList_inj, ← takeWhile_pathText plain rest, same, takeWhile_pathText plain']

theorem head?_splitOn {α : Type*} [DecidableEq α] (sep : α) (l : List α) :
    (l.splitOn sep).head? = some (l.takeWhile fun c => c ≠ sep) := by
  induction l with
  | nil => simp
  | cons x l ih =>
    rw [List.splitOn_cons_eq_if_modifyHead]
    by_cases same : x = sep
    · simp [same]
    · simp [same, ih]

theorem parts_eq (imp : ModuleName) : ∃ more, parts imp = head imp :: more := by
  have first := head?_splitOn '.' imp.text.toList
  obtain ⟨more, split⟩ := List.head?_eq_some_iff.mp first
  exact ⟨more.map String.ofList, by rw [parts, split, List.map_cons, head]⟩

/-- The file that an import is answered by is below the directory of the import's first name, or
is that name itself with a suffix. -/
theorem dep_first {tree : SourceTree} {imp : ModuleName} {path : String} (known : Known imp)
    (answered : dep tree imp = some path) :
    ∃ first rest, path = pathText (first :: rest) ∧
      (first = head imp ∨ first = head imp ++ ".py") := by
  obtain ⟨more, split⟩ := parts_eq imp
  have filled : head imp ≠ "" := by
    rcases known with package | package <;> simp [package]
  have names : (parts imp).filter (fun part => part ≠ "") =
      head imp :: more.filter fun part => part ≠ "" := by
    rw [split, List.filter_cons_of_pos (by simp [filled])]
  have package : isProjectImport imp = true := isProjectImport_iff.mpr known
  simp only [dep, package, Bool.not_true, Bool.false_eq_true, if_false] at answered
  split at answered
  · obtain rfl := Option.some.inj answered
    rw [candidate, names]
    cases more.filter fun part => part ≠ "" with
    | nil => exact ⟨_, [], rfl, .inr rfl⟩
    | cons next rest => exact ⟨head imp, _, rfl, .inl rfl⟩
  · split at answered
    · obtain rfl := Option.some.inj answered
      rw [candidatePkg, names]
      exact ⟨head imp, _, rfl, .inl rfl⟩
    · cases answered

theorem name_of_ofName {part : String} {layer : Layer} (named : Layer.ofName part = some layer) :
    layer.name = part := by simpa using List.find?_some named

theorem slash_not_mem_name (layer : Layer) : '/' ∉ layer.name.toList := by
  cases layer <;> decide

theorem parts_of_getLayer {file : SourceFile} {layer : Layer}
    (layered : getLayer file = some layer) : ∃ rest, file.parts = layer.name :: rest := by
  obtain ⟨first, heads, named⟩ := Option.bind_eq_some_iff.mp layered
  obtain ⟨rest, whole⟩ := List.head?_eq_some_iff.mp heads
  exact ⟨rest, by rw [whole, name_of_ofName named]⟩

theorem known_layer {imp : ModuleName} (known : Known imp) : ∃ target ∈ [Layer.runtime, .services],
    head imp = target.name ∧ Layer.ofName (head imp) = some target ∧
      ∀ layer : Layer, layer.name ≠ head imp ++ ".py" ∧
        (layer.name = head imp → layer = target) ∧
          (target ∈ layer.allowedImports → layer = target) := by
  rcases known with package | package
  · refine ⟨.runtime, by simp, package, by rw [package]; decide +kernel, fun layer => ?_⟩
    rw [package]
    cases layer <;> decide
  · refine ⟨.services, by simp, package, by rw [package]; decide +kernel, fun layer => ?_⟩
    rw [package]
    cases layer <;> decide

theorem Depends.layer {tree : SourceTree} {file file' : SourceFile}
    (depends : Depends tree file file')
    (directed : ∀ file, Checked tree file → ∀ imp ∈ extractImports file, Known imp →
      ¬ Forbidden file imp) : ∃ layer ∈ [Layer.runtime, .services],
        getLayer file = some layer ∧ getLayer file' = some layer := by
  obtain ⟨⟨checked, layered⟩, ⟨_, layered'⟩, imp, member, answered⟩ := depends
  obtain ⟨layer, found⟩ := Option.isSome_iff_exists.mp layered
  obtain ⟨layer', found'⟩ := Option.isSome_iff_exists.mp layered'
  have known : Known imp := by
    by_contra unknown
    have other : isProjectImport imp = false := 
      Bool.eq_false_iff.mpr fun package => unknown (isProjectImport_iff.mp package)
    simp [dep, other] at answered
  obtain ⟨target, package, same, named, only⟩ := known_layer known
  have allowed : target ∈ layer.allowedImports := by
    by_contra against
    exact directed file checked imp member known ⟨layer, target, found, named, against⟩
  have first : layer'.name = head imp := by
    obtain ⟨first, rest, path, below⟩ := dep_first known answered
    obtain ⟨rest', whole⟩ := parts_of_getLayer found'
    have plain : '/' ∉ first.toList := by
      rcases below with rfl | rfl
      · rw [same]
        exact slash_not_mem_name target
      · rw [String.toList_append, List.mem_append, same]
        exact fun slash => slash.elim (slash_not_mem_name target) (by decide)
    have meet := first_of_pathText (slash_not_mem_name layer') plain (whole ▸ path)
    rw [meet]
    exact below.resolve_right fun suffixed => (only layer').1 (meet.trans suffixed)
  obtain rfl := (only layer).2.2 allowed
  obtain rfl := (only layer').2.1 first
  exact ⟨_, package, found, found'⟩

theorem layer_of_chain {tree : SourceTree} {file file' : SourceFile}
    (directed : ∀ file, Checked tree file → ∀ imp ∈ extractImports file, Known imp →
      ¬ Forbidden file imp) (chain : TransGen (Depends tree) file file') :
    ∃ layer ∈ [Layer.runtime, .services],
      getLayer file = some layer ∧ getLayer file' = some layer := by
  induction chain with
  | single depends => exact depends.layer directed
  | tail _ depends ih =>
    obtain ⟨layer, package, found, between⟩ := ih
    obtain ⟨layer', _, between', found'⟩ := depends.layer directed
    obtain rfl := Option.some.inj (between.symm.trans between')
    exact ⟨layer, package, found, found'⟩

/-! The run. -/

theorem exitCode_eq (results : List CheckResult) :
    exitCode results = 0 ∧ (∀ r ∈ results, r.passed = true) ∨
      exitCode results = 1 ∧ ¬ ∀ r ∈ results, r.passed = true := by
  have none : results.countP (fun r => !r.passed) = 0 ↔ ∀ r ∈ results, r.passed = true := by
    simp [List.countP_eq_zero]
  rw [← none, exitCode]
  by_cases failed : 0 < results.countP fun r => !r.passed
  · exact .inr ⟨if_pos failed, by omega⟩
  · exact .inl ⟨if_neg failed, by omega⟩

theorem searchCycles_raises_iff {depth : Nat} {s : Sources}
    (deep : (discoverPythonFiles s.tree true).length ≤ depth) :
    (∃ e, searchCycles depth s = .error e) ↔
      ∃ file, Checked s.tree file ∧ inLayer file = true ∧ (s.raises file).isSome = true := by
  obtain ⟨cycles, ran, _⟩ := checkImportCycles_passed_iff deep
  rw [searchCycles, bind_raises_iff, readingLoop_raises_iff, ran]
  simp [Except.mapError]

theorem searchCycles_passes_iff {depth : Nat} {s : Sources} (apart : PathsApart s.tree)
    (deep : (discoverPythonFiles s.tree true).length ≤ depth)
    (whole : ¬ ∃ file, Checked s.tree file ∧ (s.raises file).isSome = true) :
    Passes (searchCycles depth) s ↔ ¬ Cyclic (Depends s.tree) := by
  obtain ⟨cycles, ran, acyclic⟩ := checkImportCycles_passed_iff deep
  rw [cyclic_importGraph_iff apart] at acyclic
  obtain ⟨nodes, parsed⟩ := readingLoop_ends inLayer whole
  simp [Passes, searchCycles, parsed, ran, bind, Except.bind, Except.mapError, acyclic]

/-- Every Python file outside the tests is read: by the check of package boundaries, if by none
before. -/
theorem checks_raise_iff {py : Interpreter} {s : Sources}
    (deep : (discoverPythonFiles s.tree true).length ≤ py.depth) :
    (∃ check ∈ checks py, ∃ e, check s = .error e) ↔ Raises py s := by
  simp only [checks, List.exists_mem_cons_iff, List.not_mem_nil, false_and, exists_false, or_false,
    reading_raises_iff, searchCycles_raises_iff deep, checkInterfaceCompliance_raises_iff,
    checkContractConsistency_raises_iff, true_and]
  constructor
  · rintro (⟨file, checked, _, raised⟩ | ⟨file, checked, _, raised⟩ | ⟨file, checked, _, raised⟩ |
      ⟨file, checked, _, raised⟩ | stops | broken | ⟨file, checked, raised⟩ |
      ⟨file, checked, _, raised⟩)
    · exact .inl ⟨file, checked, raised⟩
    · exact .inl ⟨file, checked, raised⟩
    · exact .inl ⟨file, checked, raised⟩
    · exact .inl ⟨file, checked, raised⟩
    · exact .inr (.inl stops)
    · exact .inr (.inr broken)
    · exact .inl ⟨file, checked, raised⟩
    · exact .inl ⟨file, checked, raised⟩
  · rintro (unread | stops | broken)
    · exact .inr (.inr (.inr (.inr (.inr (.inr (.inl unread))))))
    · exact .inr (.inr (.inr (.inr (.inl stops))))
    · exact .inr (.inr (.inr (.inr (.inr (.inl broken)))))

theorem checks_pass_iff {py : Interpreter} {s : Sources} (apart : PathsApart s.tree)
    (deep : (discoverPythonFiles s.tree true).length ≤ py.depth) (quiet : ¬ Raises py s) :
    (∀ check ∈ checks py, Passes check s) ↔ Accepted py s.tree := by
  have whole : ¬ ∃ file, Checked s.tree file ∧ (s.raises file).isSome = true := fun unread =>
    quiet (.inl unread)
  have ends : ¬ Stops s := fun stops => quiet (.inr (.inl stops))
  simp only [checks, List.forall_mem_cons, List.not_mem_nil, false_imp_iff, implies_true, and_true,
    reading_passes_iff whole, searchCycles_passes_iff apart deep whole,
    checkDependencyDirection_passed_iff, checkLayerIsolation_passed_iff,
    checkForbiddenImports_passed_iff, checkInterfaceCompliance_passes_iff,
    checkContractConsistency_passes_iff, checkPackageBoundaries_passed_iff,
    checkHygiene_passed_iff, not_false_eq_true, ends, true_and]
  constructor
  · rintro ⟨directed, isolated, clients, acyclic, implemented, kept, bounded, clean⟩
    exact ⟨directed, isolated, clients, acyclic, implemented, kept, bounded, clean⟩
  · intro accepted
    exact ⟨accepted.directed, accepted.isolated, accepted.clients, accepted.acyclic,
      accepted.implemented, accepted.kept, accepted.bounded, accepted.clean⟩

/-- Where `dfs` may call itself as often as there are files, the run comes to its end unless what
it reads or imports raises. It gives 0 exactly for an accepted tree, in which no chain of imports
leaves the layer it began in, which is the runtime or the services, or comes back to its first
file. -/
theorem runVerification_accepts {py : Interpreter} {s : Sources} (apart : PathsApart s.tree)
    (deep : (discoverPythonFiles s.tree true).length ≤ py.depth) :
    (Raises py s ∧ ∃ e, runVerification py s = .error e) ∨
      ¬ Raises py s ∧ ∃ results code, runVerification py s = .ok (results, code) ∧
        (code = 1 ∧ ¬ Accepted py s.tree ∨ code = 0 ∧ Accepted py s.tree ∧
          ∀ file file', TransGen (Depends s.tree) file file' → file ≠ file' ∧
            ∃ layer ∈ [Layer.runtime, .services],
              getLayer file = some layer ∧ getLayer file' = some layer) := by
  have raises := mapM_raises_iff.trans (checks_raise_iff deep)
  cases ran : (checks py).mapM fun check => check s with
  | error e =>
    refine .inl ⟨raises.mp ⟨e, ran⟩, e, ?_⟩
    rw [runVerification, ran]
    rfl
  | ok results =>
    have quiet : ¬ Raises py s := by
      rw [← raises, ran]
      simp
    refine .inr ⟨quiet, results, exitCode results, by rw [runVerification, ran]; rfl, ?_⟩
    obtain ⟨forth, back⟩ := mapM_ok ran
    have passed : (∀ r ∈ results, r.passed = true) ↔ ∀ check ∈ checks py, Passes check s := by
      constructor
      · intro all check member
        obtain ⟨r, listed, given⟩ := forth check member
        exact ⟨r, given, all r listed⟩
      · intro each r listed
        obtain ⟨check, member, given⟩ := back r listed
        obtain ⟨r', given', passed⟩ := each check member
        rwa [Except.ok.inj (given.symm.trans given')]
    have code := exitCode_eq results
    rw [passed, checks_pass_iff apart deep quiet] at code
    refine code.symm.imp_right fun ⟨zero, accepted⟩ => ⟨zero, accepted, fun file file' chain => ?_⟩
    refine ⟨?_, layer_of_chain accepted.directed chain⟩
    rintro rfl
    exact accepted.acyclic ⟨file, chain⟩

def storeModule : ModuleName := ⟨"runtime.store", by decide, by decide⟩

def evaluate : Node := .functionDef false "evaluate" [.name "abstractmethod"] []

def runtimeTree : SourceTree :=
  ⟨[⟨["runtime", "app.py"], some (.block [.importNames [storeModule]])⟩,
    ⟨["runtime", "store.py"], some (.block [])⟩,
    ⟨["core", "policies", "evaluator.py"],
      some (.block [.classDef "PolicyEvaluator" [.name "ABC"] [evaluate]])⟩,
    ⟨["control_plane", "policy", "engine.py"],
      some (.block [.classDef "PolicyEngine" [.name "PolicyEvaluator"]
        [.functionDef false "evaluate" [] []]])⟩],
    [[], ["runtime"], ["core"], ["core", "policies"], ["control_plane"], ["control_plane", "policy"]],
    by simp only [List.forall_mem_cons]; decide, by decide⟩

def plainInterpreter : Interpreter :=
  ⟨1000, fun _ => "set()", fun _ _ => .ok ⟨.ok ["evaluate"], fun _ => .ok (some (.ok "(self)"))⟩,
    fun _ => []⟩

theorem runVerification_accepts_runtime : PathsApart runtimeTree ∧
    (discoverPythonFiles runtimeTree true).length ≤ plainInterpreter.depth ∧
    ∃ results, runVerification plainInterpreter (readable runtimeTree) = .ok (results, 0) ∧
      Accepted plainInterpreter runtimeTree ∧
        ∀ file file', TransGen (Depends runtimeTree) file file' → file ≠ file' ∧
          ∃ layer ∈ [Layer.runtime, .services],
            getLayer file = some layer ∧ getLayer file' = some layer := by
  have distinct : (runtimeTree.files.map fun file => pathText file.parts).Nodup := by decide
  have apart : PathsApart runtimeTree := fun file member file' member' same =>
    List.inj_on_of_nodup_map distinct member member' same
  have deep : (discoverPythonFiles runtimeTree true).length ≤ plainInterpreter.depth := by
    decide +kernel
  have zero : (runVerification plainInterpreter (readable runtimeTree)).toOption.map Prod.snd =
      some 0 := by decide +kernel
  refine ⟨apart, deep, ?_⟩
  rcases runVerification_accepts (s := readable runtimeTree) apart deep with
    ⟨_, e, ran⟩ | ⟨_, results, code, ran, ⟨rfl, _⟩ | ⟨rfl, accepted⟩⟩
  · rw [ran] at zero
    cases zero
  · rw [ran] at zero
    cases zero
  · exact ⟨results, ran, accepted⟩

end Kitematic.ArchitectureGate

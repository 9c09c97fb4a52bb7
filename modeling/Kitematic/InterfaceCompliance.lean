import Kitematic.KeyOrder
import Kitematic.PythonSources
import Mathlib.Data.Finset.SDiff
import Mathlib.Data.Finset.Dedup

/-! The check of the architecture script that the classes which implement a known interface
have its abstract methods. -/

namespace Kitematic.InterfaceCompliance
open KeyOrder PythonSources Node

/-- A row of `KNOWN_ABC_IMPLEMENTATIONS`, with directories as their parts. -/
structure KnownInterface where
  abcName : String
  abcDir : List String
  implDir : Option (List String)
deriving DecidableEq

def templateRepository : KnownInterface :=
  ⟨"TemplateRepository", ["control_plane", "registry"], some ["control_plane", "registry"]⟩

def instanceRepository : KnownInterface :=
  ⟨"InstanceRepository", ["control_plane", "registry"], some ["control_plane", "registry"]⟩

def policyEvaluator : KnownInterface :=
  ⟨"PolicyEvaluator", ["core", "policies"], some ["control_plane", "policy"]⟩

def orchestrator : KnownInterface := ⟨"Orchestrator", ["control_plane", "orchestrator"], none⟩

def knownAbcImplementations : List KnownInterface :=
  [templateRepository, instanceRepository, policyEvaluator, orchestrator]

/-- A class statement of a file. -/
structure ClassDef where
  file : List String
  name : String
  bases : List Expr
  body : List Node

def asClass (file : List String) : Node → Option ClassDef
  | .classDef name bases body => some ⟨file, name, bases, body⟩
  | _ => none

def ClassDef.node (cls : ClassDef) : Node := .classDef cls.name cls.bases cls.body

def classesOf (file : List String) : Option Node → List ClassDef
  | none => []
  | some root => root.walk.filterMap (asClass file)

def classesBelow (tree : SourceTree) (dir : List String) : List ClassDef :=
  (tree.rglob dir).flatMap fun file => classesOf file.parts file.source

/-! The functions of the script. -/

def baseName : Expr → String
  | .name id => id
  | .attribute _ attr => attr
  | _ => ""

def isName (e : Expr) (id : String) : Bool :=
  match e with
  | .name id' => id' = id
  | _ => false

def isAbc (cls : ClassDef) : Bool :=
  cls.bases.any fun base => baseName base = "ABC" || cls.bases.any fun b => isName b "ABC"

/-- The last class that is found stays. -/
def findAbc (abcName : String) (classes : List ClassDef) : Option ClassDef :=
  (classes.filter fun cls => isAbc cls && cls.name = abcName).getLast?

def inherits (abcName : String) (cls : ClassDef) : Bool :=
  cls.bases.any fun base => baseName base = abcName

/-- The name of a function with the decorator; of an asynchronous one there is none. -/
def abstractMethod : Node → Option String
  | .functionDef false name decorators _ =>
      if decorators.any fun dec => isName dec "abstractmethod" then some name else none
  | _ => none

def abstractMethods (cls : ClassDef) : Finset String :=
  (cls.node.walk.filterMap abstractMethod).toFinset

def functionName : Node → Option String
  | .functionDef _ name _ _ => some name
  | _ => none

def implMethods (cls : ClassDef) : Finset String := (cls.body.filterMap functionName).toFinset

inductive Violation where
  | noDirectory (abcName : String) (dir : List String)
  | missing (abcName : String) (cls : ClassDef) (methods : Finset String)
  | noImplementation (abcName : String) (dir : List String)

/-- How a set is shown depends on the hashes of its texts. -/
def Violation.text (shown : Finset String → String) : Violation → String
  | .noDirectory abcName dir =>
      "  " ++ abcName ++ ": no implementation directory " ++ pathText dir
  | .missing abcName cls methods =>
      "  " ++ abcName ++ " → " ++ cls.name ++ ": missing " ++ shown methods
  | .noImplementation abcName dir =>
      "  " ++ abcName ++ ": no implementation found in " ++ pathText dir

def missingIn (abcName : String) (abcClass cls : ClassDef) : List Violation :=
  let missing := abstractMethods abcClass \ implMethods cls
  if missing = ∅ then [] else [.missing abcName cls missing]

def checkImplementations (abcName : String) (dir : List String) (abcClass : ClassDef)
    (classes : List ClassDef) : List Violation :=
  let found := classes.filter (inherits abcName)
  found.flatMap (missingIn abcName abcClass) ++
    if found = [] then [.noImplementation abcName dir] else []

/-- The classes that the walks over the files below a directory come to. -/
def readClasses (s : Sources) (dir : List String) : Except String (List ClassDef) :=
  concatM (fun file => (s.parse file).map (classesOf file.parts)) (s.tree.rglob dir)

def checkInterface (s : Sources) (known : KnownInterface) : Except String (List Violation) :=
  if !s.tree.pathExists known.abcDir then .ok []
  else do
    let classes ← readClasses s known.abcDir
    match findAbc known.abcName classes, known.implDir with
    | some abcClass, some dir =>
        if !s.tree.pathExists dir then .ok [.noDirectory known.abcName dir]
        else (readClasses s dir).map (checkImplementations known.abcName dir abcClass)
    | _, _ => .ok []

def violations (s : Sources) : Except String (List Violation) :=
  concatM (checkInterface s) knownAbcImplementations

def checkInterfaceCompliance (shown : Finset String → String) (s : Sources) :
    Except String CheckResult := do
  let found ← violations s
  return ⟨"Interface Compliance", found.length = 0, found.map (Violation.text shown)⟩

/-! What the sources say. -/

structure Function where
  name : String
  decorators : List Expr

mutual

/-- The functions of the scope that a statement stands in: those of inner classes and
functions are not among them. -/
def scope : Node → List Function
  | .functionDef _ name decorators _ => [⟨name, decorators⟩]
  | .classDef _ _ _ => []
  | .importNames _ => []
  | .importFrom _ _ => []
  | .block body => scopes body

def scopes : List Node → List Function
  | [] => []
  | node :: nodes => scope node ++ scopes nodes

end

/-- `abstractmethod` or a qualified form of it. -/
def Marks (dec : Expr) : Prop := baseName dec = "abstractmethod"

def MarksAbstract (abcClass : ClassDef) (method : String) : Prop :=
  ∃ f ∈ scopes abcClass.body, f.name = method ∧ ∃ dec ∈ f.decorators, Marks dec

def Defines (cls : ClassDef) (method : String) : Prop := ∃ f ∈ scopes cls.body, f.name = method

/-- A base without its subscripts. -/
def bare : Expr → Expr
  | .subscript value => bare value
  | e => e

/-- Among the bases of the class is the interface. -/
def Implementing (tree : SourceTree) (known : KnownInterface) (cls : ClassDef) : Prop :=
  cls ∈ classesBelow tree [] ∧ ∃ base ∈ cls.bases, baseName (bare base) = known.abcName

/-- A class of the interface's name and directory marks the method. -/
def Marked (tree : SourceTree) (known : KnownInterface) (method : String) : Prop :=
  ∃ abcClass ∈ classesBelow tree known.abcDir, abcClass.name = known.abcName ∧
    MarksAbstract abcClass method

def Lacks (tree : SourceTree) (known : KnownInterface) (cls : ClassDef) : Prop :=
  ∃ method, Marked tree known method ∧ ¬ Defines cls method

def Reported (s : Sources) (known : KnownInterface) (cls : ClassDef) : Prop :=
  ∃ found methods, violations s = .ok found ∧ .missing known.abcName cls methods ∈ found

/-- The classes that are reported for an interface are those that lack one of its methods. -/
def Sound (s : Sources) (known : KnownInterface) : Prop :=
  ∀ cls, Reported s known cls ↔ Implementing s.tree known cls ∧ Lacks s.tree known cls

/-! What the walks come to. -/

def HasAbc (known : KnownInterface) (cls : ClassDef) : Prop :=
  cls.name = known.abcName ∧ ∃ base ∈ cls.bases, baseName base = "ABC"

/-- The last class of the interface's name that has `ABC` among its bases. -/
def Examined (tree : SourceTree) (known : KnownInterface) (abcClass : ClassDef) : Prop :=
  HasAbc known abcClass ∧ ∃ before after,
    classesBelow tree known.abcDir = before ++ abcClass :: after ∧ ∀ cls ∈ after, ¬ HasAbc known cls

/-- A plain function with the bare mark stands somewhere in the class. -/
def SeenIn (abcClass : ClassDef) (method : String) : Prop :=
  ∃ decorators body, (Node.functionDef false method decorators body).Within abcClass.node ∧
    .name "abstractmethod" ∈ decorators

def Seen (tree : SourceTree) (known : KnownInterface) (method : String) : Prop :=
  ∃ abcClass, Examined tree known abcClass ∧ SeenIn abcClass method

/-- A statement of the body itself defines the method. -/
def Direct (cls : ClassDef) (method : String) : Prop :=
  ∃ isAsync decorators body, .functionDef isAsync method decorators body ∈ cls.body

theorem isName_iff {e : Expr} {id : String} : isName e id = true ↔ e = .name id := by
  cases e <;> simp [isName]

theorem isAbc_iff {cls : ClassDef} : isAbc cls = true ↔ ∃ base ∈ cls.bases, baseName base = "ABC" := by
  simp only [isAbc, List.any_eq_true, Bool.or_eq_true, decide_eq_true_eq]
  constructor
  · rintro ⟨base, member, named | ⟨b, member', named⟩⟩
    · exact ⟨base, member, named⟩
    · exact ⟨b, member', by rw [isName_iff.mp named]; rfl⟩
  · rintro ⟨base, member, named⟩
    exact ⟨base, member, .inl named⟩

theorem findAbc_eq_some {tree : SourceTree} {known : KnownInterface} {abcClass : ClassDef} :
    findAbc known.abcName (classesBelow tree known.abcDir) = some abcClass ↔
      Examined tree known abcClass := by
  have picked : ∀ cls, (isAbc cls && decide (cls.name = known.abcName)) = true ↔ HasAbc known cls := by
    intro cls
    rw [Bool.and_eq_true, decide_eq_true_eq, isAbc_iff, and_comm, HasAbc]
  simp only [findAbc, List.getLast?_eq_some_iff, List.filter_eq_append_iff, List.filter_eq_cons_iff,
    List.filter_eq_nil_iff, picked, Examined]
  constructor
  · rintro ⟨_, front, _, whole, _, between, after, rfl, _, abstract, none⟩
    exact ⟨abstract, front ++ between, after, by rw [whole, List.append_assoc], none⟩
  · rintro ⟨abstract, before, after, whole, none⟩
    exact ⟨_, before, abcClass :: after, whole, rfl, [], after, rfl, by simp, abstract, none⟩

theorem abstractMethod_eq_some {node : Node} {method : String} :
    abstractMethod node = some method ↔ ∃ decorators body,
      node = .functionDef false method decorators body ∧ .name "abstractmethod" ∈ decorators := by
  cases node with
  | functionDef isAsync name decorators body =>
    cases isAsync with
    | true => simp [abstractMethod]
    | false => simp [abstractMethod, isName_iff, and_comm, and_assoc]
  | _ => simp [abstractMethod]

theorem mem_abstractMethods {abcClass : ClassDef} {method : String} :
    method ∈ abstractMethods abcClass ↔ SeenIn abcClass method := by
  simp only [abstractMethods, List.mem_toFinset, List.mem_filterMap, mem_walk,
    abstractMethod_eq_some, SeenIn]
  constructor
  · rintro ⟨_, within, decorators, body, rfl, marked⟩
    exact ⟨decorators, body, within, marked⟩
  · rintro ⟨decorators, body, within, marked⟩
    exact ⟨_, within, decorators, body, rfl, marked⟩

theorem functionName_eq_some {node : Node} {method : String} : functionName node = some method ↔
    ∃ isAsync decorators body, node = .functionDef isAsync method decorators body := by
  cases node <;> simp [functionName]

theorem mem_implMethods {cls : ClassDef} {method : String} :
    method ∈ implMethods cls ↔ Direct cls method := by
  simp only [implMethods, List.mem_toFinset, List.mem_filterMap, functionName_eq_some, Direct]
  constructor
  · rintro ⟨_, member, isAsync, decorators, body, rfl⟩
    exact ⟨isAsync, decorators, body, member⟩
  · rintro ⟨isAsync, decorators, body, member⟩
    exact ⟨_, member, isAsync, decorators, body, rfl⟩

def Unreadable (s : Sources) (dir : List String) : Prop :=
  ∃ file ∈ s.tree.rglob dir, (s.raises file).isSome = true

/-- The look at an interface comes to a file that raises. -/
def Breaks (s : Sources) (known : KnownInterface) : Prop :=
  Unreadable s known.abcDir ∨ ∃ abcClass dir, Examined s.tree known abcClass ∧
    known.implDir = some dir ∧ Unreadable s dir

def Stops (s : Sources) : Prop := ∃ known ∈ knownAbcImplementations, Breaks s known

theorem readClasses_readable {s : Sources} {dir : List String} (readable : ¬ Unreadable s dir) :
    readClasses s dir = .ok (classesBelow s.tree dir) := by
  refine concatM_eq_ok fun file member => ?_
  have read : s.raises file = none :=
    Option.not_isSome_iff_eq_none.mp fun raised => readable ⟨file, member, raised⟩
  rw [Sources.parse_eq read, Except.map]

theorem readClasses_unreadable {s : Sources} {dir : List String} (unreadable : Unreadable s dir) :
    ∃ e, readClasses s dir = .error e := by
  obtain ⟨file, member, raised⟩ := unreadable
  obtain ⟨e, parsed⟩ := Sources.parse_raises raised
  exact concatM_raises_iff.mpr ⟨file, member, e, by rw [parsed, Except.map]⟩

theorem classesBelow_of_missing {tree : SourceTree} {dir : List String}
    (missing : tree.pathExists dir = false) : classesBelow tree dir = [] := by
  simp [classesBelow, SourceTree.rglob_of_missing missing]

theorem not_unreadable_of_missing {s : Sources} {dir : List String}
    (missing : s.tree.pathExists dir = false) : ¬ Unreadable s dir := by
  simp [Unreadable, SourceTree.rglob_of_missing missing]

theorem not_examined_of_missing {tree : SourceTree} {known : KnownInterface}
    (missing : tree.pathExists known.abcDir = false) (abcClass : ClassDef) :
    ¬ Examined tree known abcClass := by
  rintro ⟨_, before, after, whole, _⟩
  simp [classesBelow_of_missing missing] at whole

theorem Examined.unique {tree : SourceTree} {known : KnownInterface} {abcClass other : ClassDef}
    (examined : Examined tree known abcClass) (examined' : Examined tree known other) :
    abcClass = other :=
  Option.some.inj ((findAbc_eq_some.mpr examined).symm.trans (findAbc_eq_some.mpr examined'))

/-- What the look at one interface gives. -/
inductive Looked (s : Sources) (known : KnownInterface) : Except String (List Violation) → Prop
  | breaks (e : String) (broken : Breaks s known) : Looked s known (.error e)
  | nothing (whole : ¬ Breaks s known)
      (none : ∀ abcClass dir, Examined s.tree known abcClass → known.implDir ≠ some dir) :
      Looked s known (.ok [])
  | noDirectory (whole : ¬ Breaks s known) {abcClass : ClassDef} {dir : List String}
      (examined : Examined s.tree known abcClass) (row : known.implDir = some dir)
      (missing : s.tree.pathExists dir = false) :
      Looked s known (.ok [.noDirectory known.abcName dir])
  | compared (whole : ¬ Breaks s known) {abcClass : ClassDef} {dir : List String}
      (examined : Examined s.tree known abcClass) (row : known.implDir = some dir)
      (there : s.tree.pathExists dir = true) :
      Looked s known
        (.ok (checkImplementations known.abcName dir abcClass (classesBelow s.tree dir)))

theorem Looked.silent {s : Sources} {known : KnownInterface}
    (read : ¬ Unreadable s known.abcDir)
    (none : ∀ abcClass dir, Examined s.tree known abcClass → known.implDir ≠ some dir) :
    Looked s known (.ok []) := by
  refine .nothing ?_ none
  rintro (unreadable | ⟨abcClass, dir, examined, row, _⟩)
  · exact read unreadable
  · exact none abcClass dir examined row

theorem checkInterface_looked (s : Sources) (known : KnownInterface) :
    Looked s known (checkInterface s known) := by
  unfold checkInterface
  cases there : s.tree.pathExists known.abcDir with
  | false =>
    exact .silent (not_unreadable_of_missing there) fun abcClass _ examined =>
      absurd examined (not_examined_of_missing there abcClass)
  | true =>
    by_cases unreadable : Unreadable s known.abcDir
    · obtain ⟨e, read⟩ := readClasses_unreadable unreadable
      simp only [Bool.not_true, Bool.false_eq_true, if_false, read]
      exact .breaks e (.inl unreadable)
    simp only [Bool.not_true, Bool.false_eq_true, if_false, readClasses_readable unreadable]
    change Looked s known (match findAbc known.abcName (classesBelow s.tree known.abcDir),
      known.implDir with | some abcClass, some dir => _ | _, _ => _)
    cases found : findAbc known.abcName (classesBelow s.tree known.abcDir) with
    | none =>
      refine .silent unreadable fun abcClass _ examined => ?_
      rw [findAbc_eq_some.mpr examined] at found
      cases found
    | some abcClass =>
      have examined := findAbc_eq_some.mp found
      cases row : known.implDir with
      | none =>
        exact .silent unreadable fun _ _ _ => by simp [row]
      | some dir =>
        have broken : Breaks s known ↔ Unreadable s dir := by
          constructor
          · rintro (unreadable' | ⟨_, _, _, row', unreadable'⟩)
            · exact absurd unreadable' unreadable
            · rwa [Option.some.inj (row.symm.trans row')]
          · exact fun unreadable' => .inr ⟨abcClass, dir, examined, row, unreadable'⟩
        cases there' : s.tree.pathExists dir with
        | false =>
          have whole := fun h => not_unreadable_of_missing there' (broken.mp h)
          simp only [there', Bool.not_false, if_true]
          exact .noDirectory whole examined row there'
        | true =>
          simp only [there', Bool.not_true, Bool.false_eq_true, if_false]
          by_cases unreadable' : Unreadable s dir
          · obtain ⟨e, read⟩ := readClasses_unreadable unreadable'
            rw [read]
            exact .breaks e (broken.mpr unreadable')
          · rw [readClasses_readable unreadable']
            exact .compared (mt broken.mp unreadable') examined row there'

/-! Which classes are reported. -/

/-- The class names the interface among its bases, outside a subscript. -/
def NamedPlainly (known : KnownInterface) (cls : ClassDef) : Prop :=
  ∃ base ∈ cls.bases, baseName base = known.abcName

theorem inherits_iff {known : KnownInterface} {cls : ClassDef} :
    inherits known.abcName cls = true ↔ NamedPlainly known cls := by
  simp [inherits, NamedPlainly]

/-- Some method that is seen in the interface has no statement in the body. -/
def Short (abcClass cls : ClassDef) : Prop := ∃ method, SeenIn abcClass method ∧ ¬ Direct cls method

theorem short_iff {abcClass cls : ClassDef} :
    abstractMethods abcClass \ implMethods cls ≠ ∅ ↔ Short abcClass cls := by
  simp [Finset.sdiff_eq_empty_iff_subset, Finset.subset_iff, mem_abstractMethods,
    mem_implMethods, Short]

theorem checkInterface_raises_iff {s : Sources} {known : KnownInterface} :
    (∃ e, checkInterface s known = .error e) ↔ Breaks s known := by
  have outcome := checkInterface_looked s known
  generalize checkInterface s known = result at outcome
  cases outcome with
  | breaks e broken => exact ⟨fun _ => broken, fun _ => ⟨e, rfl⟩⟩
  | nothing whole _ => simp [whole]
  | noDirectory whole _ _ _ => simp [whole]
  | compared whole _ _ _ => simp [whole]

theorem violations_raises_iff {s : Sources} : (∃ e, violations s = .error e) ↔ Stops s := by
  simp only [violations, concatM_raises_iff, checkInterface_raises_iff, Stops]

/-- The check comes to an end, and to the class in the row's directory. -/
def Visited (s : Sources) (known : KnownInterface) (cls : ClassDef) : Prop :=
  ¬ Stops s ∧ NamedPlainly known cls ∧
    ∃ dir, known.implDir = some dir ∧ cls ∈ classesBelow s.tree dir

/-- What the script sees of an implementing class and its interface comes to the same as what is
there: a class it does not come to lacks nothing, and where the two sides differ in one method,
the class falls short in another on the other side. -/
structure Fair (s : Sources) (known : KnownInterface) (cls : ClassDef) : Prop where
  unvisited : ¬ Visited s known cls → ∀ method, Marked s.tree known method → Defines cls method
  unseen : Visited s known cls → ∀ method, Marked s.tree known method →
    ¬ Seen s.tree known method → ¬ Defines cls method →
      ∃ other, Seen s.tree known other ∧ ¬ Direct cls other
  unmarked : Visited s known cls → ∀ method, Seen s.tree known method →
    ¬ Marked s.tree known method → ¬ Direct cls method →
      ∃ other, Marked s.tree known other ∧ ¬ Defines cls other
  indirect : Visited s known cls → ∀ method, Seen s.tree known method → Defines cls method →
    ¬ Direct cls method → ∃ other, Marked s.tree known other ∧ ¬ Defines cls other

/-- The script is fair where it comes to the class, the marks it sees are those that are there, and
the class defines its methods by statements of the body itself. -/
theorem fair_of_plain {s : Sources} {known : KnownInterface} {cls : ClassDef}
    (visited : Visited s known cls)
    (plain : ∀ method, Marked s.tree known method ↔ Seen s.tree known method)
    (direct : ∀ method, Defines cls method → Direct cls method) : Fair s known cls where
  unvisited := fun other => absurd visited other
  unseen := fun _ method marked unseen => absurd ((plain method).mp marked) unseen
  unmarked := fun _ method seen unmarked => absurd ((plain method).mpr seen) unmarked
  indirect := fun _ method _ defined absent => absurd (direct method defined) absent

/-- All files of a tree can be read. -/
def readable (tree : SourceTree) : Sources := ⟨tree, fun _ => none, by simp⟩

end Kitematic.InterfaceCompliance

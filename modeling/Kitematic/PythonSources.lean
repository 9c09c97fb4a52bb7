import Mathlib.Data.List.Infix

/-! Source trees of Python files, and of each file the statements that checks look at. An
expression holds no statement, so of the expressions only bases and decorators are kept. -/

namespace Kitematic.PythonSources

inductive Expr where
  | name (id : String)
  | attribute (value : Expr) (attr : String)
  | subscript (value : Expr)
  | other

structure ModuleName where
  text : String
  filled : text ≠ ""
  oneLine : '\n' ∉ text.toList

/-- A module is a block, and so is every other statement or clause with its statements. -/
inductive Node where
  | classDef (name : String) (bases : List Expr) (body : List Node)
  | functionDef (isAsync : Bool) (name : String) (decorators : List Expr) (body : List Node)
  | importNames (names : List ModuleName)
  | importFrom (module : Option ModuleName) (level : Nat)
  | block (body : List Node)

/-! The walk over a tree. -/

namespace Node

def children : Node → List Node
  | .classDef _ _ body => body
  | .functionDef _ _ _ body => body
  | .importNames _ => []
  | .importFrom _ _ => []
  | .block body => body

mutual

def size : Node → Nat
  | .classDef _ _ body => 1 + sizes body
  | .functionDef _ _ _ body => 1 + sizes body
  | .importNames _ => 1
  | .importFrom _ _ => 1
  | .block body => 1 + sizes body

def sizes : List Node → Nat
  | [] => 0
  | node :: nodes => node.size + sizes nodes

end

theorem size_eq (node : Node) : node.size = 1 + sizes node.children := by
  cases node <;> simp [size, sizes, children]

theorem sizes_append (front back : List Node) : sizes (front ++ back) = sizes front + sizes back := by
  induction front with
  | nil => simp [sizes]
  | cons node front ih => simp only [List.cons_append, sizes, ih]; omega

/-- The loop of `ast.walk`: the first node of the queue is given, its children join the end. -/
def walkQueue : Nat → List Node → List Node
  | 0, _ => []
  | _ + 1, [] => []
  | fuel + 1, node :: queue => node :: walkQueue fuel (queue ++ node.children)

def walk (node : Node) : List Node := walkQueue node.size [node]

inductive Within : Node → Node → Prop
  | here (node : Node) : Within node node
  | deeper {inner child outer : Node} (inside : child ∈ outer.children)
      (within : Within inner child) : Within inner outer

theorem within_iff {inner outer : Node} :
    Within inner outer ↔ inner = outer ∨ ∃ child ∈ outer.children, Within inner child := by
  constructor
  · intro within
    cases within with
    | here => exact .inl rfl
    | deeper inside within => exact .inr ⟨_, inside, within⟩
  · rintro (rfl | ⟨child, inside, within⟩)
    · exact .here _
    · exact .deeper inside within

theorem mem_walkQueue {fuel : Nat} {queue : List Node} (enough : sizes queue ≤ fuel) (node : Node) :
    node ∈ walkQueue fuel queue ↔ ∃ outer ∈ queue, Within node outer := by
  induction fuel generalizing queue with
  | zero =>
    cases queue with
    | nil => simp [walkQueue]
    | cons first rest =>
      have positive := size_eq first
      simp only [sizes] at enough
      omega
  | succ fuel ih =>
    cases queue with
    | nil => simp [walkQueue]
    | cons first rest =>
      have remaining : sizes (rest ++ first.children) ≤ fuel := by
        have taken := size_eq first
        simp only [sizes] at enough
        rw [sizes_append]
        omega
      have top : Node.Within node first ↔
          node = first ∨ ∃ child ∈ first.children, Within node child := within_iff
      rw [walkQueue, List.mem_cons, ih remaining]
      simp only [List.mem_cons, List.mem_append, or_and_right, exists_or, exists_eq_left, top]
      rw [or_assoc]
      exact or_congr_right or_comm

theorem mem_walk {node root : Node} : node ∈ root.walk ↔ Within node root := by
  have enough : sizes [root] ≤ root.size := by simp [sizes]
  simp [walk, mem_walkQueue enough]

end Node

/-! Source trees. -/

/-- A file below the root, and what `ast.parse` makes of it: nothing where it is no Python. -/
structure SourceFile where
  parts : List String
  source : Option Node

def isPython (parts : List String) : Bool :=
  parts.getLast?.any fun name => ".py".toList.isSuffixOf name.toList

/-- The files stand in the order in which directories are read. -/
structure SourceTree where
  files : List SourceFile
  directories : List (List String)
  parents : ∀ file ∈ files, ∀ directory ∈ file.parts.dropLast.inits, directory ∈ directories
  folders : ∀ directory ∈ directories, isPython directory = false

namespace SourceTree

def pathExists (tree : SourceTree) (path : List String) : Bool :=
  path ∈ tree.directories || tree.files.any fun file => file.parts = path

def rglob (tree : SourceTree) (path : List String) : List SourceFile :=
  tree.files.filter fun file => path.isPrefixOf file.parts.dropLast && isPython file.parts

theorem mem_rglob {tree : SourceTree} {path : List String} {file : SourceFile} :
    file ∈ tree.rglob path ↔
      file ∈ tree.files ∧ path <+: file.parts.dropLast ∧ isPython file.parts = true := by
  simp [rglob]

theorem rglob_of_missing {tree : SourceTree} {path : List String}
    (missing : tree.pathExists path = false) : tree.rglob path = [] := by
  refine List.eq_nil_iff_forall_not_mem.mpr fun file found => ?_
  obtain ⟨member, below, _⟩ := mem_rglob.mp found
  have there := tree.parents file member path ((List.mem_inits _ _).mpr below)
  simp [SourceTree.pathExists, there] at missing

end SourceTree

/-- A tree where a file may also raise something else than a `SyntaxError` when it is read and
parsed, such as a `UnicodeDecodeError`. -/
structure Sources where
  tree : SourceTree
  raises : SourceFile → Option String
  unparsed : ∀ file, (raises file).isSome = true → file.source = none

/-- `ast.parse(filepath.read_text())`, with nothing for a `SyntaxError`. -/
def Sources.parse (s : Sources) (file : SourceFile) : Except String (Option Node) :=
  match s.raises file with
  | some e => .error e
  | none => .ok file.source

theorem Sources.parse_eq {s : Sources} {file : SourceFile} (read : s.raises file = none) :
    s.parse file = .ok file.source := by
  rw [parse, read]

theorem Sources.parse_raises {s : Sources} {file : SourceFile}
    (raised : (s.raises file).isSome = true) : ∃ e, s.parse file = .error e := by
  obtain ⟨e, raised⟩ := Option.isSome_iff_exists.mp raised
  exact ⟨e, by rw [parse, raised]⟩

structure CheckResult where
  name : String
  passed : Bool
  details : List String

def pathText (parts : List String) : String := "/".intercalate parts

end Kitematic.PythonSources

import Kitematic.DependencyDirection
import Kitematic.DepthFirst
import Kitematic.Dict

/-! The check of the architecture script for import cycles: the graph of the files that import
one another, and the depth-first search of it with three colours. The search calls itself, so it
has a limit on how deep its calls may be nested, and raises beyond it. -/

namespace Kitematic.ImportCycles
open DepthFirst DependencyDirection Dictionary PythonSources

inductive Color where
  | white
  | gray
  | black
deriving DecidableEq

inductive RecursionError where
  | maximumDepthExceeded
deriving DecidableEq

section graph
variable {ν : Type*} [DecidableEq ν]

/-- The variables of the check that `dfs` writes. -/
structure Colored (ν : Type*) where
  color : Dict ν Color
  cyclePath : List ν := []

def unlessFound (found : Except RecursionError (Colored ν × Bool))
    (next : Colored ν → Except RecursionError (Colored ν × Bool)) :
    Except RecursionError (Colored ν × Bool) :=
  match found with
  | .error e => .error e
  | .ok (s, true) => .ok (s, true)
  | .ok (s, false) => next s

def tryNeighbors (search : Colored ν → ν → Except RecursionError (Colored ν × Bool)) :
    Colored ν → List ν → Except RecursionError (Colored ν × Bool)
  | s, [] => .ok (s, false)
  | s, neighbor :: rest =>
      match s.color.get neighbor with
      | none => tryNeighbors search s rest
      | some .gray => .ok ({ s with cyclePath := s.cyclePath ++ [neighbor] }, true)
      | some .white => unlessFound (search s neighbor) fun s' => tryNeighbors search s' rest
      | some .black => tryNeighbors search s rest

def neighbors (graph : Dict ν (List ν)) (node : ν) : List ν := (graph.get node).getD []

def enter (s : Colored ν) (node : ν) : Colored ν :=
  ⟨s.color.set node .gray, s.cyclePath ++ [node]⟩

def leave (s : Colored ν) (node : ν) : Colored ν :=
  ⟨s.color.set node .black, s.cyclePath.dropLast⟩

/-- `dfs`, where so many calls of it fit on the stack. -/
def dfs (graph : Dict ν (List ν)) : Nat → Colored ν → ν → Except RecursionError (Colored ν × Bool)
  | 0, _, _ => .error .maximumDepthExceeded
  | depth + 1, s, node =>
      unlessFound (tryNeighbors (dfs graph depth) (enter s node) (neighbors graph node)) fun s' =>
        .ok (leave s' node, false)

/-- The loop over the nodes: the state it ends in, and `found_cycle`. -/
def searchNodes (graph : Dict ν (List ν)) (depth : Nat) :
    Colored ν → List ν → Except RecursionError (Colored ν × Bool)
  | s, [] => .ok (s, false)
  | s, node :: rest =>
      if s.color.get node = some .white then
        unlessFound (dfs graph depth s node) fun s' => searchNodes graph depth s' rest
      else searchNodes graph depth s rest

def allWhite (graph : Dict ν (List ν)) : Colored ν := { color := graph.mapValues fun _ => .white }

def findCycle (graph : Dict ν (List ν)) (depth : Nat) : Except RecursionError (Colored ν × Bool) :=
  searchNodes graph depth (allWhite graph) graph.keys

end graph

def report (s : Colored String) (foundCycle : Bool) : CheckResult where
  name := "Import Cycles"
  passed := !foundCycle
  details := if foundCycle then ["  Cycle detected: " ++ " → ".intercalate s.cyclePath] else []

/-- The check, once it has the graph. -/
def checkGraph (graph : Dict String (List String)) (depth : Nat) :
    Except RecursionError CheckResult :=
  (findCycle graph depth).map fun outcome => report outcome.1 outcome.2

/-! The graph. -/

def parts (imp : ModuleName) : List String :=
  (imp.text.toList.splitOn '.').map String.ofList

/-- `Path("/".join(parts)).with_suffix(".py")`, which no part gives another suffix. -/
def candidate (imp : ModuleName) : List String :=
  let names := (parts imp).filter fun part => part ≠ ""
  names.dropLast ++ [names.getLastD "" ++ ".py"]

def candidatePkg (imp : ModuleName) : List String :=
  (parts imp).filter (fun part => part ≠ "") ++ ["__init__.py"]

def dep (tree : SourceTree) (imp : ModuleName) : Option String :=
  if !isProjectImport imp then none
  else if tree.pathExists (candidate imp) then some (pathText (candidate imp))
  else if tree.pathExists (candidatePkg imp) then some (pathText (candidatePkg imp))
  else none

def addFile (tree : SourceTree) (graph : Dict String (List String)) (file : SourceFile) :
    Dict String (List String) :=
  match getLayer file with
  | none => graph
  | some _ => graph.set (pathText file.parts) ((extractImports file).filterMap (dep tree))

def importGraph (tree : SourceTree) : Dict String (List String) :=
  (discoverPythonFiles tree true).foldl (addFile tree) .empty

def checkImportCycles (tree : SourceTree) (depth : Nat) : Except RecursionError CheckResult :=
  checkGraph (importGraph tree) depth

/-! The search. -/

section search
variable {ν : Type*} [DecidableEq ν] {graph : Dict ν (List ν)} {s s' s'' : Colored ν} {node : ν}
  {visited : List ν} {depth : Nat}

variable (graph) in
/-- An edge of the graph restricted to its own nodes. -/
def Edge (a b : ν) : Prop := b ∈ neighbors graph a ∧ graph.contains b = true

theorem Edge.contains {a b : ν} (edge : Edge graph a b) : graph.contains a = true := by
  have listed := edge.1
  unfold neighbors at listed
  cases found : graph.get a with
  | none => simp [found] at listed
  | some deps => simp [Dict.contains, found]

def whites (s : Colored ν) : Nat := s.color.count fun c => c = .white

variable (graph) in
/-- The gray nodes are those of the current path, and the search is done with the black ones. -/
structure Sound (s : Colored ν) : Prop where
  nodes : ∀ a, s.color.contains a = graph.contains a
  grays : ∀ a, s.color.get a = some .gray ↔ a ∈ s.cyclePath
  search : Search (Edge graph) s.cyclePath fun a => s.color.get a = some .black

variable (graph) in
structure Finished (s : Colored ν) (visited : List ν) (s' : Colored ν) : Prop where
  sound : Sound graph s'
  path : s'.cyclePath = s.cyclePath
  kept : ∀ a, s.color.get a = some .black → s'.color.get a = some .black
  reached : ∀ a ∈ visited, graph.contains a = true → s'.color.get a = some .black
  fewer : whites s' ≤ whites s

variable (graph) in
inductive Outcome (s : Colored ν) (visited : List ν) (depth : Nat) :
    Except RecursionError (Colored ν × Bool) → Prop
  | finished (s' : Colored ν) (done : Finished graph s visited s') :
      Outcome s visited depth (.ok (s', false))
  | found (s' : Colored ν) (ends : EndsInCycle (Edge graph) s'.cyclePath) :
      Outcome s visited depth (.ok (s', true))
  | tooDeep (e : RecursionError) (deep : depth < whites s) : Outcome s visited depth (.error e)

theorem Finished.stay (sound : Sound graph s)
    (known : graph.contains node = true → s.color.get node = some .black) :
    Finished graph s [node] s where
  sound := sound
  path := rfl
  kept := fun _ black => black
  reached := by simpa using known
  fewer := le_refl _

theorem Finished.trans (first : Finished graph s [node] s')
    (rest : Finished graph s' visited s'') : Finished graph s (node :: visited) s'' where
  sound := rest.sound
  path := rest.path.trans first.path
  kept := fun a black => rest.kept a (first.kept a black)
  reached := by
    intro a member inside
    rcases List.mem_cons.mp member with rfl | later
    · exact rest.kept a (first.reached a (List.mem_singleton_self a) inside)
    · exact rest.reached a later inside
  fewer := rest.fewer.trans first.fewer

theorem Finished.outcome (first : Finished graph s [node] s')
    {r : Except RecursionError (Colored ν × Bool)} (rest : Outcome graph s' visited depth r) :
    Outcome graph s (node :: visited) depth r := by
  cases rest with
  | finished s'' done => exact .finished s'' (first.trans done)
  | found s'' ends => exact .found s'' ends
  | tooDeep e deep => exact .tooDeep e (Nat.lt_of_lt_of_le deep first.fewer)

theorem Outcome.unlessFound {t : Colored ν} {visited' : List ν} {depth' : Nat}
    {found : Except RecursionError (Colored ν × Bool)}
    {next : Colored ν → Except RecursionError (Colored ν × Bool)}
    (outcome : Outcome graph s visited depth found) (deeper : depth < whites s → depth' < whites t)
    (after : ∀ s', Finished graph s visited s' → Outcome graph t visited' depth' (next s')) :
    Outcome graph t visited' depth' (unlessFound found next) := by
  cases outcome with
  | finished s' done => exact after s' done
  | found s' ends => exact .found s' ends
  | tooDeep e deep => exact .tooDeep e (deeper deep)

theorem Sound.contains (sound : Sound graph s) {c : Color} (colored : s.color.get node = some c) :
    graph.contains node = true := by
  rw [← sound.nodes, Dict.contains, colored]
  rfl

theorem Sound.color (sound : Sound graph s) (inside : graph.contains node = true) :
    ∃ c, s.color.get node = some c := by
  rw [← sound.nodes] at inside
  exact Option.isSome_iff_exists.mp inside

theorem contains_set {color : Dict ν Color} {c c' : Color} (present : color.get node = some c)
    (a : ν) : (color.set node c').contains a = color.contains a := by
  unfold Dict.contains
  rw [Dict.get_set]
  by_cases same : a = node <;> simp [same, present]

theorem enter_sound (sound : Sound graph s) (white : s.color.get node = some .white)
    (leads : ∀ last ∈ s.cyclePath.getLast?, Edge graph last node) : Sound graph (enter s node) where
  nodes := fun a => (contains_set white a).trans (sound.nodes a)
  grays := by
    intro a
    simp only [enter, Dict.get_set, List.mem_append, List.mem_singleton, ← sound.grays]
    by_cases same : a = node <;> simp [same]
  search := by
    have fresh : node ∉ s.cyclePath := fun member => by
      cases white.symm.trans ((sound.grays node).mpr member)
    have unfinished : s.color.get node ≠ some .black := by simp [white]
    have black : (fun a => (enter s node).color.get a = some .black) =
        fun a => s.color.get a = some .black := by
      funext a
      simp only [enter, Dict.get_set]
      by_cases same : a = node <;> simp [same, white]
    rw [black]
    exact sound.search.enter fresh unfinished leads

theorem whites_enter (white : s.color.get node = some .white) :
    whites (enter s node) + 1 = whites s := by
  unfold whites enter
  rw [Dict.count_set, Dict.count_of_get white]
  rfl

theorem leave_sound (sound : Sound graph s) {front : List ν} (path : s.cyclePath = front ++ [node])
    (successors : ∀ b, Edge graph node b → s.color.get b = some .black) :
    Sound graph (leave s node) where
  nodes := by
    have gray := (sound.grays node).mpr (by simp [path])
    exact fun a => (contains_set gray a).trans (sound.nodes a)
  grays := by
    intro a
    have search := path ▸ sound.search
    have fresh : node ∉ front := search.last_not_mem
    have others := sound.grays a
    rw [path, List.mem_append, List.mem_singleton] at others
    simp only [leave, Dict.get_set, path, List.dropLast_concat]
    by_cases same : a = node
    · simp [same, fresh]
    · simpa [same] using others
  search := by
    have search := path ▸ sound.search
    simp only [leave, path, List.dropLast_concat]
    refine search.leave successors fun b => ?_
    rw [Dict.get_set]
    by_cases same : b = node <;> simp [same]

theorem whites_leave (gray : s.color.get node = some .gray) : whites (leave s node) = whites s := by
  unfold whites leave
  rw [Dict.count_set, Dict.count_of_get gray]
  rfl

theorem tryNeighbors_outcome {search : Colored ν → ν → Except RecursionError (Colored ν × Bool)}
    (each : ∀ s neighbor, Sound graph s → s.color.get neighbor = some .white →
      (∀ last ∈ s.cyclePath.getLast?, Edge graph last neighbor) →
        Outcome graph s [neighbor] depth (search s neighbor)) {front : List ν} (rest : List ν) :
    ∀ s, Sound graph s → s.cyclePath = front ++ [node] → (∀ b ∈ rest, b ∈ neighbors graph node) →
      Outcome graph s rest depth (tryNeighbors search s rest) := by
  induction rest with
  | nil =>
    intro s sound _ _
    exact .finished s ⟨sound, rfl, fun _ black => black, by simp, le_refl _⟩
  | cons neighbor rest ih =>
    intro s sound path listed
    obtain ⟨here, later⟩ := List.forall_mem_cons.mp listed
    rw [tryNeighbors]
    cases colored : s.color.get neighbor with
    | none =>
      have outside : ¬ graph.contains neighbor = true := by
        rw [← sound.nodes, Dict.contains, colored]
        simp
      exact (Finished.stay sound fun inside => absurd inside outside).outcome
        (ih s sound path later)
    | some c =>
      have edge : Edge graph node neighbor := ⟨here, sound.contains colored⟩
      cases c with
      | gray =>
        have member := (sound.grays neighbor).mp colored
        have search := sound.search
        rw [path] at member search
        refine .found _ ?_
        rw [path]
        exact search.returned edge member
      | black => exact (Finished.stay sound fun _ => colored).outcome (ih s sound path later)
      | white =>
        have leads : ∀ last ∈ s.cyclePath.getLast?, Edge graph last neighbor := by
          simpa [path] using edge
        exact (each s neighbor sound colored leads).unlessFound id fun s' done =>
          done.outcome (ih s' done.sound (done.path.trans path) later)

/-- A call of `dfs` comes to its end where the stack holds the nodes not yet entered. -/
theorem dfs_outcome (depth : Nat) : ∀ (s : Colored ν) (node : ν), Sound graph s →
    s.color.get node = some .white → (∀ last ∈ s.cyclePath.getLast?, Edge graph last node) →
      Outcome graph s [node] depth (dfs graph depth s node) := by
  induction depth with
  | zero =>
    intro s node _ white _
    refine .tooDeep _ ?_
    rw [← whites_enter white]
    exact Nat.succ_pos _
  | succ depth ih =>
    intro s node sound white leads
    have fewer := whites_enter white
    have loop := tryNeighbors_outcome ih (neighbors graph node) (enter s node)
      (enter_sound sound white leads) rfl fun _ member => member
    rw [dfs]
    refine loop.unlessFound (by omega) fun s' done => ?_
    have gray := (done.sound.grays node).mpr (by simp [done.path, enter])
    refine .finished _ ⟨leave_sound done.sound done.path ?_, ?_, ?_, ?_, ?_⟩
    · exact fun b edge => done.reached b edge.1 edge.2
    · simp [leave, done.path, enter]
    · intro a black
      have other : a ≠ node := by
        rintro rfl
        cases white.symm.trans black
      have entered : (enter s node).color.get a = some .black := by
        simpa [enter, Dict.get_set, other] using black
      simpa [leave, Dict.get_set, other] using done.kept a entered
    · intro a member _
      simp [leave, List.mem_singleton.mp member]
    · have after := whites_leave gray
      have inner := done.fewer
      omega

theorem searchNodes_outcome (nodes : List ν) : ∀ s, Sound graph s → s.cyclePath = [] →
    (∀ node ∈ nodes, graph.contains node = true) →
      Outcome graph s nodes depth (searchNodes graph depth s nodes) := by
  induction nodes with
  | nil =>
    intro s sound _ _
    exact .finished s ⟨sound, rfl, fun _ black => black, by simp, le_refl _⟩
  | cons node rest ih =>
    intro s sound path listed
    obtain ⟨here, later⟩ := List.forall_mem_cons.mp listed
    rw [searchNodes]
    split
    next white =>
      have call := dfs_outcome depth s node sound white (by simp [path])
      exact call.unlessFound id fun s' done =>
        done.outcome (ih s' done.sound (done.path.trans path) later)
    next other =>
      obtain ⟨c, colored⟩ := sound.color here
      have black : s.color.get node = some .black := by
        cases c with
        | white => exact absurd colored other
        | gray => simpa [path] using (sound.grays node).mp colored
        | black => exact colored
      exact (Finished.stay sound fun _ => black).outcome (ih s sound path later)

theorem allWhite_get (graph : Dict ν (List ν)) (a : ν) :
    (allWhite graph).color.get a = (graph.get a).map fun _ => .white :=
  Dict.get_mapValues ..

theorem allWhite_sound (graph : Dict ν (List ν)) : Sound graph (allWhite graph) where
  nodes := by simp [Dict.contains, allWhite_get]
  grays := fun a => by
    rw [allWhite_get]
    simp [allWhite]
  search := .start fun a => by simp [allWhite_get]

omit [DecidableEq ν] in
theorem whites_allWhite (graph : Dict ν (List ν)) :
    whites (allWhite graph) = graph.entries.length := by
  simp [whites, allWhite, Dict.count, Dict.mapValues]

theorem findCycle_outcome (graph : Dict ν (List ν)) (depth : Nat) :
    Outcome graph (allWhite graph) graph.keys depth (findCycle graph depth) :=
  searchNodes_outcome graph.keys (allWhite graph) (allWhite_sound graph) rfl fun _ member =>
    Dict.mem_keys.mp member

/-- Whatever the limit, a search that ends is right. -/
theorem findCycle_right {found : Bool} (ran : findCycle graph depth = .ok (s, found)) :
    (found = true ↔ Cyclic (Edge graph)) ∧
      (found = true → EndsInCycle (Edge graph) s.cyclePath) := by
  cases ran ▸ findCycle_outcome graph depth with
  | found _ ends => exact ⟨⟨fun _ => ends.cyclic, fun _ => rfl⟩, fun _ => ends⟩
  | finished _ done =>
    have acyclic : ¬ Cyclic (Edge graph) := done.sound.search.not_cyclic fun a b edge =>
      done.reached a (Dict.mem_keys.mpr edge.contains) edge.contains
    simp [acyclic]

theorem findCycle_ends (deep : graph.entries.length ≤ depth) :
    ∃ s found, findCycle graph depth = .ok (s, found) := by
  cases result : findCycle graph depth with
  | ok outcome => exact ⟨outcome.1, outcome.2, rfl⟩
  | error e =>
    cases result ▸ findCycle_outcome graph depth with
    | tooDeep _ short => exact absurd (whites_allWhite graph ▸ short) (Nat.not_lt.mpr deep)

end search

/-- The check finds a cycle exactly where the graph has one among its own nodes, and the path it
reports runs into one. -/
theorem cycles_reported_iff (graph : Dict String (List String)) (depth : Nat)
    (deep : graph.entries.length ≤ depth) :
    ∃ s found, findCycle graph depth = .ok (s, found) ∧
      checkGraph graph depth = .ok (report s found) ∧ (found = true ↔ Cyclic (Edge graph)) ∧
        (found = true → EndsInCycle (Edge graph) s.cyclePath) := by
  obtain ⟨s, found, ran⟩ := findCycle_ends deep
  refine ⟨s, found, ran, ?_, findCycle_right ran⟩
  rw [checkGraph, ran]
  rfl

def tangled : Dict String (List String) := .ofList
  [("runtime/a.py", ["runtime/b.py", "runtime/c.py"]),
    ("runtime/b.py", ["services/gone.py", "runtime/c.py", "runtime/c.py"]),
    ("runtime/c.py", ["runtime/b.py"])]

theorem cycles_reported_iff_tangled : tangled.entries.length ≤ 3 ∧
    ∃ s found, findCycle tangled 3 = .ok (s, found) ∧
      checkGraph tangled 3 = .ok (report s found) ∧ (found = true ↔ Cyclic (Edge tangled)) ∧
        (found = true → EndsInCycle (Edge tangled) s.cyclePath) :=
  ⟨by decide +kernel, cycles_reported_iff tangled 3 (by decide +kernel)⟩

theorem length_addFile (tree : SourceTree) (graph : Dict String (List String))
    (file : SourceFile) : (addFile tree graph file).entries.length ≤ graph.entries.length + 1 := by
  unfold addFile
  cases getLayer file with
  | none => exact Nat.le_succ _
  | some _ =>
    rw [Dict.length_set]
    split <;> omega

theorem contains_addFile (tree : SourceTree) (graph : Dict String (List String))
    (file : SourceFile) (rel : String) : (addFile tree graph file).contains rel = true ↔
      graph.contains rel = true ∨ (getLayer file).isSome = true ∧ pathText file.parts = rel := by
  unfold addFile
  cases getLayer file with
  | none => simp
  | some _ =>
    rw [← Dict.mem_keys, ← Dict.mem_keys, Dict.mem_keys_set]
    simp [or_comm, eq_comm]

theorem foldl_addFile (tree : SourceTree) (files : List SourceFile) :
    ∀ graph, (files.foldl (addFile tree) graph).entries.length ≤
        graph.entries.length + files.length ∧
      ∀ rel, (files.foldl (addFile tree) graph).contains rel = true ↔
        graph.contains rel = true ∨
          ∃ file ∈ files, (getLayer file).isSome = true ∧ pathText file.parts = rel := by
  induction files with
  | nil => simp
  | cons file files ih =>
    intro graph
    obtain ⟨length, nodes⟩ := ih (addFile tree graph file)
    have first := length_addFile tree graph file
    refine ⟨?_, fun rel => ?_⟩
    · rw [List.foldl_cons, List.length_cons]
      omega
    · rw [List.foldl_cons, nodes, contains_addFile, List.exists_mem_cons_iff, or_assoc]

theorem contains_importGraph {tree : SourceTree} {rel : String} :
    (importGraph tree).contains rel = true ↔
      ∃ file, Checked tree file ∧ (getLayer file).isSome = true ∧ pathText file.parts = rel := by
  rw [importGraph, (foldl_addFile tree _ _).2]
  simp [Dict.contains, mem_discoverPythonFiles]

theorem length_importGraph (tree : SourceTree) :
    (importGraph tree).entries.length ≤ (discoverPythonFiles tree true).length := by
  have grown := (foldl_addFile tree (discoverPythonFiles tree true) .empty).1
  rwa [show (Dict.empty : Dict String (List String)).entries.length = 0 from rfl,
    Nat.zero_add] at grown

theorem checkImportCycles_passed_iff {tree : SourceTree} {depth : Nat}
    (deep : (discoverPythonFiles tree true).length ≤ depth) :
    ∃ result, checkImportCycles tree depth = .ok result ∧
      (result.passed = true ↔ ¬ Cyclic (Edge (importGraph tree))) := by
  obtain ⟨s, found, ran⟩ := findCycle_ends ((length_importGraph tree).trans deep)
  refine ⟨report s found, by rw [checkImportCycles, checkGraph, ran]; rfl, ?_⟩
  rw [← (findCycle_right ran).1]
  simp [report]

end Kitematic.ImportCycles

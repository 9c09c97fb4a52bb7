import Kitematic.Dict
import Kitematic.FilePaths
import Mathlib.Data.List.Infix

/-! Trees of directories and files, and what the library functions that make, copy and remove
them do to a tree. There are no links, and names have no limits. -/

namespace Kitematic.FileTrees
open Dictionary FilePaths

inductive Entry (κ : Type) where
  | dir
  | file (content : κ)

/-- What lies at the paths from the root of the file system on. Above every entry there is a
directory. -/
structure FileTree (κ : Type) where
  entries : Dict FilePath (Entry κ)
  top : entries.get [] = some .dir
  parents : ∀ (path : FilePath) (name : Name) (entry : Entry κ),
    entries.get (path ++ [name]) = some entry → entries.get path = some .dir

namespace FileTree
variable {κ : Type}

def get (t : FileTree κ) (path : FilePath) : Option (Entry κ) := t.entries.get path

def isDir (t : FileTree κ) (path : FilePath) : Bool :=
  match t.get path with
  | some .dir => true
  | _ => false

def fileAt (t : FileTree κ) (path : FilePath) : Option κ :=
  match t.get path with
  | some (.file content) => some content
  | _ => none

theorem isDir_iff {t : FileTree κ} {path : FilePath} :
    t.isDir path = true ↔ t.get path = some .dir := by
  unfold isDir
  split <;> simp_all

theorem fileAt_eq_some {t : FileTree κ} {path : FilePath} {content : κ} :
    t.fileAt path = some content ↔ t.get path = some (.file content) := by
  unfold fileAt
  split <;> simp_all

theorem fileAt_of_isDir {t : FileTree κ} {path : FilePath} (dir : t.isDir path = true) :
    t.fileAt path = none := by
  simp [fileAt, isDir_iff.mp dir]

theorem isDir_nil (t : FileTree κ) : t.isDir [] = true := isDir_iff.mpr t.top

theorem isDir_parent {t : FileTree κ} {path : FilePath} {name : Name} {entry : Entry κ}
    (there : t.get (path ++ [name]) = some entry) : t.isDir path = true :=
  isDir_iff.mpr (t.parents path name entry there)

theorem isDir_dropLast {t : FileTree κ} {path : FilePath} (dir : t.isDir path = true) :
    t.isDir path.dropLast = true := by
  induction path using List.reverseRecOn with
  | nil => exact dir
  | append_singleton path name _ =>
    rw [List.dropLast_concat]
    exact isDir_parent (isDir_iff.mp dir)

theorem isDir_of_prefix {t : FileTree κ} {path above : FilePath} (dir : t.isDir path = true)
    (shorter : above <+: path) : t.isDir above = true := by
  induction path using List.reverseRecOn with
  | nil => exact List.prefix_nil.mp shorter ▸ dir
  | append_singleton path name ih =>
    rcases List.prefix_concat_iff.mp shorter with rfl | shorter
    · exact dir
    · exact ih (isDir_parent (isDir_iff.mp dir)) shorter

def names (t : FileTree κ) (path : FilePath) : List Name :=
  t.entries.keys.filterMap fun q => if q.dropLast = path then q.getLast? else none

theorem mem_names {t : FileTree κ} {path : FilePath} {name : Name} :
    name ∈ t.names path ↔ ∃ entry, t.get (path ++ [name]) = some entry := by
  have listed : name ∈ t.names path ↔ path ++ [name] ∈ t.entries.keys := by
    simp only [names, List.mem_filterMap]
    constructor
    · rintro ⟨q, member, last⟩
      split at last
      next same =>
        rwa [← same, List.dropLast_append_getLast? name last]
      next => cases last
    · intro member
      exact ⟨_, member, by simp⟩
  rw [listed, Dict.mem_keys, Dict.contains, Option.isSome_iff_exists]
  rfl

theorem names_nodup (t : FileTree κ) (path : FilePath) : (t.names path).Nodup := by
  refine t.entries.nodup.filterMap fun p q name inP inQ => ?_
  simp only [Option.mem_def, Option.ite_none_right_eq_some] at inP inQ
  rw [← List.dropLast_append_getLast? name inP.2, ← List.dropLast_append_getLast? name inQ.2,
    inP.1, inQ.1]

def put (t : FileTree κ) (path : FilePath) (name : Name) (entry : Entry κ)
    (inside : t.isDir path = true) (free : t.isDir (path ++ [name]) = false) : FileTree κ where
  entries := t.entries.set (path ++ [name]) entry
  top := by
    rw [Dict.get_set, if_neg (by simp)]
    exact t.top
  parents := by
    intro path' name' entry' there
    have other : path' ≠ path ++ [name] → t.entries.get path' = some .dir →
        (t.entries.set (path ++ [name]) entry).get path' = some .dir := by
      intro different dir
      rw [Dict.get_set, if_neg different, dir]
    rw [Dict.get_set] at there
    split at there
    next same =>
      obtain ⟨rfl, _⟩ := List.append_inj' same rfl
      exact other (by simp) (isDir_iff.mp inside)
    next =>
      have dir := t.parents path' name' entry' there
      refine other (fun same => ?_) dir
      rw [same] at dir
      rw [isDir_iff.mpr dir] at free
      cases free

@[simp] theorem get_put (t : FileTree κ) (path : FilePath) (name : Name) (entry : Entry κ)
    (inside : t.isDir path = true) (free : t.isDir (path ++ [name]) = false) (q : FilePath) :
    (t.put path name entry inside free).get q = if q = path ++ [name] then some entry else t.get q :=
  Dict.get_set ..

/-- `os.mkdir`, where a directory that exists is fine. -/
def mkdir (t : FileTree κ) (path : FilePath) (name : Name) : Option (FileTree κ) :=
  if t.isDir (path ++ [name]) then some t
  else if here : t.isDir path = true ∧ t.isDir (path ++ [name]) = false ∧
      t.fileAt (path ++ [name]) = none then some (t.put path name .dir here.1 here.2.1)
  else none

/-- Writing a file in a directory: a directory of its name is no place for it. -/
def write (t : FileTree κ) (path : FilePath) (name : Name) (content : κ) : Option (FileTree κ) :=
  if here : t.isDir path = true ∧ t.isDir (path ++ [name]) = false then
    some (t.put path name (.file content) here.1 here.2)
  else none

theorem mkdir_eq_some {t t' : FileTree κ} {path : FilePath} {name : Name}
    (made : t.mkdir path name = some t') : t.fileAt (path ++ [name]) = none ∧
      ∀ q, t'.get q = if q = path ++ [name] then some .dir else t.get q := by
  unfold mkdir at made
  split at made
  next dir =>
    obtain rfl := Option.some.inj made
    refine ⟨fileAt_of_isDir dir, fun q => ?_⟩
    split
    next same => rw [same, isDir_iff.mp dir]
    next => rfl
  next =>
    split at made
    next here =>
      obtain rfl := Option.some.inj made
      exact ⟨here.2.2, fun q => get_put ..⟩
    next => cases made

theorem fileAt_mkdir {t t' : FileTree κ} {path : FilePath} {name : Name}
    (made : t.mkdir path name = some t') (q : FilePath) : t'.fileAt q = t.fileAt q := by
  obtain ⟨missing, after⟩ := mkdir_eq_some made
  by_cases new : q = path ++ [name]
  · have dir : t'.isDir q = true := isDir_iff.mpr (by rw [after, if_pos new])
    rw [fileAt_of_isDir dir, new, missing]
  · simp [fileAt, after, new]

theorem write_eq_some {t t' : FileTree κ} {path : FilePath} {name : Name} {content : κ}
    (written : t.write path name content = some t') :
    ∀ q, t'.get q = if q = path ++ [name] then some (.file content) else t.get q := by
  unfold write at written
  split at written
  next here =>
    obtain rfl := Option.some.inj written
    exact fun q => get_put ..
  next => cases written

/-! Ways through the tree. -/

end FileTree

def steps (here : FilePath) : List Name → List FilePath
  | [] => []
  | name :: names =>
      let next := if name = dotdot then here.dropLast else here ++ [name]
      next :: steps next names

def follow (here : FilePath) : List Name → FilePath
  | [] => here
  | name :: names => follow (if name = dotdot then here.dropLast else here ++ [name]) names

theorem follow_plain {here : FilePath} {names : List Name} (plain : dotdot ∉ names) :
    follow here names = here ++ names := by
  induction names generalizing here with
  | nil => simp [follow]
  | cons name names ih =>
    simp only [List.mem_cons, not_or] at plain
    simp [follow, Ne.symm plain.1, ih plain.2]

theorem steps_plain {here : FilePath} {names : List Name} (plain : dotdot ∉ names) :
    ∀ place ∈ steps here names, place <+: here ++ names := by
  induction names generalizing here with
  | nil => simp [steps]
  | cons name names ih =>
    simp only [List.mem_cons, not_or] at plain
    intro place member
    have split : here ++ name :: names = here ++ [name] ++ names := by simp
    simp only [steps, Ne.symm plain.1, if_false, List.mem_cons] at member
    rw [split]
    rcases member with rfl | later
    · exact List.prefix_append _ _
    · exact ih plain.2 place later

namespace FileTree
variable {κ : Type}

variable (κ) in
def empty : FileTree κ where
  entries := Dict.empty.set [] .dir
  top := Dict.get_set_self ..
  parents := by
    intro path name entry there
    rw [Dict.get_set, if_neg (by simp)] at there
    cases there

theorem walk_eq_some {t : FileTree κ} {here there : FilePath} {names : List Name}
    (dir : t.isDir here = true) : walk t.isDir here names = some there ↔
      follow here names = there ∧ ∀ place ∈ steps here names, t.isDir place = true := by
  induction names generalizing here with
  | nil => simp [walk, follow, steps]
  | cons name names ih =>
    by_cases up : name = dotdot
    · have above := isDir_dropLast dir
      simp [walk, follow, steps, up, ih above, above]
    · cases next : t.isDir (here ++ [name]) with
      | false => simp [walk, follow, steps, up, next]
      | true => simp [walk, follow, steps, up, next, ih next]

theorem isDir_of_walk {t : FileTree κ} {here there : FilePath} {names : List Name}
    (dir : t.isDir here = true) (walked : walk t.isDir here names = some there) :
    t.isDir there = true := by
  induction names generalizing here with
  | nil =>
    obtain rfl := Option.some.inj walked
    exact dir
  | cons name names ih =>
    unfold walk at walked
    split at walked
    next => exact ih (isDir_dropLast dir) walked
    next =>
      split at walked
      next next => exact ih next walked
      next => cases walked

/-- `path.mkdir(parents=True, exist_ok=True)`: the directories that are missing on a way are
made, and the way is lost at a file. -/
def makeDirs (t : FileTree κ) (here : FilePath) : List Name → FileTree κ × Option FilePath
  | [] => (t, some here)
  | name :: names =>
      if name = dotdot then t.makeDirs here.dropLast names
      else
        match t.mkdir here name with
        | some t' => t'.makeDirs (here ++ [name]) names
        | none => (t, none)

theorem makeDirs_eq {t t' : FileTree κ} {here there : FilePath} {names : List Name}
    (dir : t.isDir here = true) (made : t.makeDirs here names = (t', some there)) :
    there = follow here names ∧ (∀ q, t'.fileAt q = t.fileAt q) ∧
      ∀ q, t'.isDir q = true ↔ t.isDir q = true ∨ q ∈ steps here names := by
  induction names generalizing t here with
  | nil =>
    obtain ⟨rfl, rfl⟩ : t = t' ∧ here = there := by simpa [makeDirs] using made
    simp [follow, steps]
  | cons name names ih =>
    unfold makeDirs at made
    split at made
    next up =>
      obtain ⟨same, files, dirs⟩ := ih (isDir_dropLast dir) made
      refine ⟨by simp [follow, up, same], files, fun q => ?_⟩
      simp only [dirs, steps, up, if_true, List.mem_cons]
      constructor
      · tauto
      · rintro (old | rfl | later)
        · exact .inl old
        · exact .inl (isDir_dropLast dir)
        · exact .inr later
    next down =>
      split at made
      next t₁ first =>
        obtain ⟨_, after⟩ := mkdir_eq_some first
        have here' : t₁.isDir (here ++ [name]) = true := isDir_iff.mpr (by rw [after, if_pos rfl])
        obtain ⟨same, files, dirs⟩ := ih here' made
        refine ⟨by simp [follow, down, same], fun q => ?_, fun q => ?_⟩
        · rw [files, fileAt_mkdir first]
        · simp only [dirs, steps, down, if_false, List.mem_cons]
          by_cases new : q = here ++ [name]
          · simp [new, here']
          · simp [isDir, after, new]
      next => cases congrArg Prod.snd made

end FileTree

/-! Copies. What is copied lies elsewhere and stays as it is. -/

inductive Source (κ : Type) where
  | file (content : κ)
  | dir (children : List (Name × Source κ))

namespace Source
variable {κ : Type}

mutual

def Distinct : Source κ → Prop
  | .file _ => True
  | .dir children => (children.map Prod.fst).Nodup ∧ DistinctAll children

def DistinctAll : List (Name × Source κ) → Prop
  | [] => True
  | (_, entry) :: entries => entry.Distinct ∧ DistinctAll entries

end

end Source

structure SourceDir (κ : Type) where
  children : List (Name × Source κ)
  distinct : (Source.dir children).Distinct

namespace FileTree
variable {κ : Type}

/-- `shutil.copy2`: a directory in the file's place gets the file into it. -/
def copyFile (t : FileTree κ) (dst : FilePath) (name : Name) (content : κ) : FileTree κ × Bool :=
  match if t.isDir (dst ++ [name]) then t.write (dst ++ [name]) name content
    else t.write dst name content with
  | some t' => (t', true)
  | none => (t, false)

mutual

def copyEntry (t : FileTree κ) (dst : FilePath) (name : Name) : Source κ → FileTree κ × Bool
  | .file content => t.copyFile dst name content
  | .dir children =>
      match t.mkdir dst name with
      | some t' => t'.copyTree (dst ++ [name]) children
      | none => (t, false)

/-- `shutil.copytree` into a directory: an error does not keep it from the other entries, and
is raised in the end. -/
def copyTree (t : FileTree κ) (dst : FilePath) : List (Name × Source κ) → FileTree κ × Bool
  | [] => (t, true)
  | (name, entry) :: entries =>
      let first := t.copyEntry dst name entry
      let rest := first.1.copyTree dst entries
      (rest.1, first.2 && rest.2)

end

def SameBut (place : FilePath) (t t' : FileTree κ) : Prop := ∀ q, ¬ place <+: q → t'.get q = t.get q

theorem ne_of_outside {place q : FilePath} (outside : ¬ place <+: q) : q ≠ place := by
  rintro rfl
  exact outside (List.prefix_refl _)

theorem copyFile_same (t : FileTree κ) (dst : FilePath) (name : Name) (content : κ) :
    SameBut (dst ++ [name]) t (t.copyFile dst name content).1 := by
  intro q outside
  unfold copyFile
  split
  next t' written =>
    split at written
    next =>
      rw [write_eq_some written, if_neg fun same => outside ⟨[name], same.symm⟩]
    next =>
      rw [write_eq_some written, if_neg (ne_of_outside outside)]
  next => rfl

mutual

theorem copyEntry_same (t : FileTree κ) (dst : FilePath) (name : Name) (entry : Source κ) :
    SameBut (dst ++ [name]) t (t.copyEntry dst name entry).1 := by
  cases entry with
  | file content =>
    unfold copyEntry
    exact copyFile_same t dst name content
  | dir children =>
    intro q outside
    unfold copyEntry
    split
    next t' made =>
      have inner := copyTree_same t' (dst ++ [name]) children q fun e _ below =>
        outside ((List.prefix_append _ _).trans below)
      rw [inner, (mkdir_eq_some made).2, if_neg (ne_of_outside outside)]
    next => rfl

theorem copyTree_same (t : FileTree κ) (dst : FilePath) (entries : List (Name × Source κ)) (q : FilePath)
    (outside : ∀ e ∈ entries, ¬ dst ++ [e.1] <+: q) : (t.copyTree dst entries).1.get q = t.get q := by
  cases entries with
  | nil =>
    unfold copyTree
    rfl
  | cons e entries =>
    unfold copyTree
    rw [copyTree_same _ dst entries q fun e' member => outside e' (List.mem_cons_of_mem _ member)]
    exact copyEntry_same t dst e.1 e.2 q (outside e List.mem_cons_self)

end

theorem not_below {dst : FilePath} {name name' : Name} (other : name' ≠ name) (rest : FilePath) :
    ¬ dst ++ [name'] <+: dst ++ name :: rest := by
  rintro ⟨tail, same⟩
  simp only [List.append_assoc, List.append_cancel_left_eq, List.singleton_append,
    List.cons.injEq] at same
  exact other same.1

/-- The file that comes to a path below the destination, where some places have directories: a
file goes into a directory in its place. -/
def arrives (dirs : FilePath → Bool) (dst : FilePath) (entries : List (Name × Source κ)) :
    FilePath → Option κ
  | [] => none
  | name :: rest =>
      match entries.lookup name with
      | none => none
      | some (.file content) =>
          if rest = if dirs (dst ++ [name]) then [name] else [] then some content else none
      | some (.dir children) => arrives dirs (dst ++ [name]) children rest

theorem arrives_congr {dirs dirs' : FilePath → Bool} {dst : FilePath} {name : Name} {rest : FilePath}
    (same : ∀ q, dst ++ [name] <+: q → dirs q = dirs' q) (entries : List (Name × Source κ)) :
    arrives dirs dst entries (name :: rest) = arrives dirs' dst entries (name :: rest) := by
  induction rest generalizing dst name entries with
  | nil =>
    unfold arrives
    rw [same _ (List.prefix_refl _)]
    rfl
  | cons next rest ih =>
    unfold arrives
    rw [same _ (List.prefix_refl _)]
    split
    next => rfl
    next => rfl
    next children _ => exact ih (fun q below => same q ((List.prefix_append _ _).trans below)) children

theorem fileAt_write {t t' : FileTree κ} {path : FilePath} {name : Name} {content : κ}
    (written : t.write path name content = some t') (q : FilePath) :
    t'.fileAt q = if q = path ++ [name] then some content else t.fileAt q := by
  have after := write_eq_some written q
  by_cases here : q = path ++ [name]
  · rw [if_pos here] at after ⊢
    exact fileAt_eq_some.mpr after
  · rw [if_neg here] at after ⊢
    simp only [fileAt, after]

theorem copyFile_fileAt {t : FileTree κ} {dst : FilePath} {name : Name} {content : κ}
    (copied : (t.copyFile dst name content).2 = true) (rest : FilePath) :
    (t.copyFile dst name content).1.fileAt (dst ++ name :: rest) =
      (arrives t.isDir dst [(name, .file content)] (name :: rest)).or
        (t.fileAt (dst ++ name :: rest)) := by
  have place : ∀ path, dst ++ name :: rest = dst ++ name :: path ↔ rest = path := by simp
  unfold copyFile arrives at *
  simp only [List.lookup_cons, beq_self_eq_true]
  cases dir : t.isDir (dst ++ [name]) with
  | true =>
    simp only [dir, if_true] at copied ⊢
    split at copied
    next t' written =>
      rw [fileAt_write written, List.append_assoc, List.singleton_append]
      simp only [place [name]]
      split <;> rfl
    next => cases copied
  | false =>
    simp only [dir, Bool.false_eq_true, if_false] at copied ⊢
    split at copied
    next t' written =>
      rw [fileAt_write written]
      simp only [place []]
      split <;> rfl
    next => cases copied

mutual

theorem fileAt_congr {t t' : FileTree κ} {q : FilePath} (same : t'.get q = t.get q) :
    t'.fileAt q = t.fileAt q := by
  simp only [fileAt, same]

theorem isDir_congr {t t' : FileTree κ} {q : FilePath} (same : t'.get q = t.get q) :
    t'.isDir q = t.isDir q := by
  simp only [isDir, same]

theorem copyEntry_fileAt {t : FileTree κ} {dst : FilePath} {name : Name} {entry : Source κ}
    (distinct : entry.Distinct) (copied : (t.copyEntry dst name entry).2 = true) (rest : FilePath) :
    (t.copyEntry dst name entry).1.fileAt (dst ++ name :: rest) =
      (arrives t.isDir dst [(name, entry)] (name :: rest)).or (t.fileAt (dst ++ name :: rest)) := by
  cases entry with
  | file content =>
    unfold copyEntry at copied ⊢
    exact copyFile_fileAt copied rest
  | dir children =>
    unfold Source.Distinct at distinct
    unfold copyEntry at copied ⊢
    split at copied
    next t' made =>
      obtain ⟨missing, after⟩ := mkdir_eq_some made
      have inner := copyTree_fileAt distinct.1 distinct.2 copied rest
      have shift : dst ++ name :: rest = dst ++ [name] ++ rest := by simp
      have own : arrives t.isDir dst [(name, .dir children)] (name :: rest) =
          arrives t.isDir (dst ++ [name]) children rest := by simp [arrives]
      have dirs : arrives t'.isDir (dst ++ [name]) children rest =
          arrives t.isDir (dst ++ [name]) children rest := by
        cases rest with
        | nil => rfl
        | cons next rest =>
          refine arrives_congr (fun q below => isDir_congr ?_) children
          rw [after, if_neg]
          rintro rfl
          have shorter := below.length_le
          simp at shorter
      rw [shift, inner, ← shift, own, dirs, fileAt_mkdir made]
    next => cases copied

theorem copyTree_fileAt {t : FileTree κ} {dst : FilePath} {entries : List (Name × Source κ)}
    (names : (entries.map Prod.fst).Nodup) (distinct : Source.DistinctAll entries)
    (copied : (t.copyTree dst entries).2 = true) (rest : FilePath) :
    (t.copyTree dst entries).1.fileAt (dst ++ rest) =
      (arrives t.isDir dst entries rest).or (t.fileAt (dst ++ rest)) := by
  cases entries with
  | nil =>
    unfold copyTree
    cases rest <;> simp [arrives]
  | cons e entries =>
    obtain ⟨name, entry⟩ := e
    obtain ⟨fresh, names⟩ := List.nodup_cons.mp names
    unfold Source.DistinctAll at distinct
    cases rest with
    | nil =>
      refine fileAt_congr (copyTree_same t dst _ _ fun e _ below => ?_)
      have shorter := below.length_le
      simp only [List.length_append, List.length_singleton, List.length_nil] at shorter
      omega
    | cons next rest =>
      unfold copyTree at copied ⊢
      obtain ⟨first, others⟩ := (Bool.and_eq_true _ _).mp copied
      by_cases here : next = name
      · subst here
        have frame : ∀ e ∈ entries, ¬ dst ++ [e.1] <+: dst ++ next :: rest := fun e member =>
          not_below (fun same => fresh (List.mem_map.mpr ⟨e, member, same⟩)) rest
        rw [fileAt_congr (copyTree_same _ dst entries _ frame), copyEntry_fileAt distinct.1 first]
        simp [arrives]
      · have frame : ∀ q, dst ++ [next] <+: q →
            (t.copyEntry dst name entry).1.get q = t.get q := by
          intro q below
          obtain ⟨tail, rfl⟩ := below
          rw [List.append_assoc, List.singleton_append]
          exact copyEntry_same t dst name entry _ (not_below (Ne.symm here) tail)
        rw [copyTree_fileAt names distinct.2 others, fileAt_congr (frame _ (by simp)),
          arrives_congr fun q below => isDir_congr (frame q below)]
        simp [arrives, List.lookup_cons, beq_eq_false_iff_ne.mpr here]

end

/-! Removals. -/

/-- What is kept is closed under directories above, the root among it. -/
def keepOnly (t : FileTree κ) (keep : FilePath → Bool) (top : keep [] = true)
    (closed : ∀ path name, keep (path ++ [name]) = true → keep path = true) : FileTree κ where
  entries := t.entries.restrict keep
  top := by rw [Dict.get_restrict, if_pos top, t.top]
  parents := by
    intro path name entry there
    rw [Dict.get_restrict] at there ⊢
    split at there
    next kept => rw [if_pos (closed path name kept), t.parents path name entry there]
    next => cases there

@[simp] theorem get_keepOnly (t : FileTree κ) (keep : FilePath → Bool) (top : keep [] = true)
    (closed : ∀ path name, keep (path ++ [name]) = true → keep path = true) (q : FilePath) :
    (t.keepOnly keep top closed).get q = if keep q then t.get q else none :=
  Dict.get_restrict ..

theorem prefix_snoc {place path : FilePath} {name : Name} (above : place <+: path) :
    place <+: path ++ [name] := above.trans (List.prefix_append path [name])

def clear (t : FileTree κ) (place : FilePath) : FileTree κ :=
  t.keepOnly (fun q => q = place ∨ ¬ place <+: q)
    (by cases place <;> simp)
    (by
      intro path name kept
      simp only [decide_eq_true_eq] at kept ⊢
      rcases kept with rfl | outside
      · refine .inr fun above => ?_
        have shorter := above.length_le
        rw [List.length_append, List.length_singleton] at shorter
        omega
      · exact .inr fun above => outside (prefix_snoc above))

def removeBelow (t : FileTree κ) (place : FilePath) (inner : place ≠ []) : FileTree κ :=
  t.keepOnly (fun q => ¬ place <+: q)
    (by cases place with
      | nil => exact absurd rfl inner
      | cons => simp)
    (by
      intro path name kept
      simp only [decide_eq_true_eq] at kept ⊢
      exact fun above => kept (prefix_snoc above))

/-- `shutil.rmtree`: once its contents are gone, the directory is removed by the same way, which
must not have gone through them. -/
def rmtree (t : FileTree κ) (way : List Name) : FileTree κ × Bool :=
  match walk t.isDir [] way with
  | none => (t, false)
  | some place =>
      if inner : place ≠ [] ∧ walk (t.clear place).isDir [] way = some place then
        ((t.clear place).removeBelow place inner.1, true)
      else (t.clear place, false)

theorem isDir_clear (t : FileTree κ) (place q : FilePath) :
    (t.clear place).isDir q = true ↔ t.isDir q = true ∧ (place <+: q → q = place) := by
  simp only [isDir_iff, clear, get_keepOnly, decide_eq_true_eq]
  by_cases same : q = place <;> by_cases below : place <+: q <;> simp [same, below]

/-- What a way comes to lies outside of a place, or is the place. -/
def Avoids (way : List Name) (place : FilePath) : Prop :=
  ∀ q ∈ steps [] way, place <+: q → q = place

theorem rmtree_iff {t : FileTree κ} {way : List Name} : (t.rmtree way).2 = true ↔
    ∃ place, walk t.isDir [] way = some place ∧ place ≠ [] ∧ Avoids way place := by
  unfold rmtree
  split
  next lost => simp [lost]
  next place found =>
    obtain ⟨same, dirs⟩ := (walk_eq_some t.isDir_nil).mp found
    have again : walk (t.clear place).isDir [] way = some place ↔ Avoids way place := by
      rw [walk_eq_some (t.clear place).isDir_nil]
      simp only [isDir_clear, same, true_and, Avoids]
      exact ⟨fun both q step => (both q step).2, fun avoids q step => ⟨dirs q step, avoids q step⟩⟩
    split
    next inner => simp [found, inner.1, again.mp inner.2]
    next outer =>
      rw [again] at outer
      simpa [found] using outer

theorem rmtree_get {t : FileTree κ} {way : List Name} {place : FilePath}
    (found : walk t.isDir [] way = some place) (removed : (t.rmtree way).2 = true) (q : FilePath) :
    (t.rmtree way).1.get q = if place <+: q then none else t.get q := by
  unfold rmtree at removed ⊢
  simp only [found] at removed ⊢
  split at removed
  next inner =>
    rw [dif_pos inner]
    simp only [removeBelow, clear, get_keepOnly]
    by_cases below : place <+: q <;> simp [below]
  next => cases removed

theorem prefix_of_gone {t : FileTree κ} {place other : FilePath} (dir : t.isDir place = true)
    (gone : ∀ q, (if other <+: q then none else t.get q) = if place <+: q then none else t.get q) :
    other <+: place := by
  by_contra apart
  have kept := gone place
  rw [if_neg apart, if_pos (List.prefix_refl _), isDir_iff.mp dir] at kept
  cases kept

end FileTree

end Kitematic.FileTrees

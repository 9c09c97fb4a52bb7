import Mathlib.Data.List.Basic

/-! Absolute paths, as the library of paths makes them from texts and as the operating system
follows them. A text is cut at its slashes, and parts that are empty or a dot are dropped, but
two dots stay: they are followed through the directories that exist. There are no links. -/

namespace Kitematic.FilePaths

abbrev Name := List Char

abbrev FilePath := List Name

def dotdot : Name := ['.', '.']

def segments : List Char → Name × List Name
  | [] => ([], [])
  | c :: text =>
      let rest := segments text
      if c = '/' then ([], rest.1 :: rest.2) else (c :: rest.1, rest.2)

def parts (text : List Char) : List Name :=
  ((segments text).1 :: (segments text).2).filter fun part => part ≠ [] ∧ part ≠ ['.']

def isAbsolute (text : List Char) : Bool := text.head? = some '/'

/-- The last name with its suffix replaced. A dot that starts or ends a name starts no suffix. -/
def swapSuffix (name suffix : Name) : Name :=
  let extension := name.reverse.takeWhile fun c => c ≠ '.'
  let stem := (name.reverse.dropWhile fun c => c ≠ '.').drop 1
  if extension = [] ∨ stem = [] then name ++ suffix else stem.reverse ++ suffix

def withSuffix (path : List Name) (suffix : Name) : List Name :=
  match path.getLast? with
  | none => path
  | some name => path.dropLast ++ [swapSuffix name suffix]

def walk (isDir : FilePath → Bool) : FilePath → List Name → Option FilePath
  | here, [] => some here
  | here, name :: names =>
      if name = dotdot then walk isDir here.dropLast names
      else if isDir (here ++ [name]) then walk isDir (here ++ [name]) names
      else none

def locate (isDir : FilePath → Bool) (here : FilePath) (names : List Name) : Option FilePath :=
  match names.getLast? with
  | none => none
  | some name =>
      (walk isDir here names.dropLast).bind fun directory =>
        if isDir (directory ++ [name]) then none else some (directory ++ [name])

theorem locate_snoc (isDir : FilePath → Bool) (here : FilePath) (names : List Name) (name : Name) :
    locate isDir here (names ++ [name]) = (walk isDir here names).bind fun directory =>
      if isDir (directory ++ [name]) then none else some (directory ++ [name]) := by
  simp [locate]

theorem locate_snoc_eq {isDir : FilePath → Bool} {here path : FilePath} {names : List Name}
    {name : Name} (located : locate isDir here (names ++ [name]) = some path) :
    ∃ directory, walk isDir here names = some directory ∧ path = directory ++ [name] := by
  rw [locate_snoc] at located
  obtain ⟨directory, walked, inside⟩ := Option.bind_eq_some_iff.mp located
  split at inside
  next => cases inside
  next => exact ⟨directory, walked, (Option.some.inj inside).symm⟩

theorem locate_single {isDir : FilePath → Bool} {here path : FilePath} {name : Name}
    (located : locate isDir here [name] = some path) : path = here ++ [name] := by
  obtain ⟨directory, walked, same⟩ :=
    locate_snoc_eq (show locate isDir here ([] ++ [name]) = some path from located)
  rw [same, ← Option.some.inj walked]

theorem withSuffix_snoc (names : List Name) (name suffix : Name) :
    withSuffix (names ++ [name]) suffix = names ++ [swapSuffix name suffix] := by
  simp [withSuffix]

theorem segments_append {tail : List Char} (flat : '/' ∉ tail) (text : List Char) :
    ∃ front last, (segments text).1 :: (segments text).2 = front ++ [last] ∧
      (segments (text ++ tail)).1 :: (segments (text ++ tail)).2 = front ++ [last ++ tail] := by
  have alone : ∀ tail : List Char, '/' ∉ tail → segments tail = (tail, []) := by
    intro tail
    induction tail with
    | nil => exact fun _ => rfl
    | cons c tail ih =>
      intro flat
      have other : c ≠ '/' := fun same => flat (same ▸ List.mem_cons_self)
      simp [segments, other, ih fun member => flat (List.mem_cons_of_mem _ member)]
  induction text with
  | nil => exact ⟨[], [], rfl, by simp [alone tail flat]⟩
  | cons c text ih =>
    obtain ⟨front, last, before, after⟩ := ih
    by_cases slash : c = '/'
    · refine ⟨[] :: front, last, ?_, ?_⟩
      · simp [segments, slash, before]
      · simp [segments, slash, after]
    · cases front with
      | nil =>
        simp only [List.nil_append, List.cons.injEq] at before after
        exact ⟨[], c :: last, by simp [segments, slash, before], by simp [segments, slash, after]⟩
      | cons first front =>
        simp only [List.cons_append, List.cons.injEq] at before after
        exact ⟨(c :: first) :: front, last, by simp [segments, slash, before],
          by simp [segments, slash, after]⟩

theorem parts_append {extension : List Char} (flat : '/' ∉ extension)
    (long : 2 ≤ extension.length) (text : List Char) :
    ∃ front stem, parts (text ++ extension) = front ++ [stem ++ extension] := by
  obtain ⟨front, last, _, after⟩ := segments_append flat text
  refine ⟨front.filter fun part => part ≠ [] ∧ part ≠ ['.'], last, ?_⟩
  have lengths : 2 ≤ (last ++ extension).length := by
    rw [List.length_append]
    omega
  have filled : last ++ extension ≠ [] := by
    intro empty
    simp [empty] at lengths
  have named : last ++ extension ≠ ['.'] := by
    intro dot
    simp [dot] at lengths
  rw [parts, after, List.filter_append]
  simp [filled, named]

theorem parts_flat {text : List Char} (flat : '/' ∉ text) (long : 2 ≤ text.length) :
    parts text = [text] := by
  obtain ⟨front, last, before, after⟩ := segments_append flat []
  have empty : front = [] ∧ last = [] := by
    cases front with
    | nil => simpa [segments] using before.symm
    | cons first front => simp [segments] at before
  have filled : text ≠ [] := by
    intro none
    simp [none] at long
  have named : text ≠ ['.'] := by
    intro dot
    simp [dot] at long
  rw [parts, ← List.nil_append text, after, empty.1, empty.2]
  simp [filled, named]

/-- A suffix that starts with its only dot is what is replaced, unless it is the whole name. -/
theorem swapSuffix_append {letters stem suffix : Name} (word : '.' ∉ letters)
    (filled : letters ≠ []) : swapSuffix (stem ++ '.' :: letters) suffix =
      if stem = [] then '.' :: letters ++ suffix else stem ++ suffix := by
  have plain : ∀ c ∈ letters.reverse, decide (c ≠ '.') = true := by
    intro c member
    exact decide_eq_true fun same => word (same ▸ List.mem_reverse.mp member)
  have reversed : (stem ++ '.' :: letters).reverse = letters.reverse ++ '.' :: stem.reverse := by
    simp
  have extension : (letters.reverse ++ '.' :: stem.reverse).takeWhile (fun c => c ≠ '.') =
      letters.reverse := by
    rw [List.takeWhile_append_of_pos plain]
    simp
  have rest : (letters.reverse ++ '.' :: stem.reverse).dropWhile (fun c => c ≠ '.') =
      '.' :: stem.reverse := by
    rw [List.dropWhile_append_of_pos plain]
    simp
  rw [swapSuffix, reversed, extension, rest]
  simp [filled]
  split
  next empty => simp [empty]
  next => rfl

end Kitematic.FilePaths

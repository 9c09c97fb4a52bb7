import Kitematic.Dict
import Kitematic.PluginManifests
import Mathlib.Data.List.DropRight
import Mathlib.Data.String.Basic

/-! Secrets from the environment and from a file of `key=value` lines. A value in the
environment goes before the file, and in the file the first line of a field counts. -/

namespace Kitematic.Secrets
open Dictionary PyText
open Plugins (isSpace strip)

inductive Field where
  | adminApiKey
  | apiKeySalt
deriving DecidableEq

namespace Field

def name : Field → String
  | adminApiKey => "admin_api_key"
  | apiKeySalt => "api_key_salt"

def upper : Field → String
  | adminApiKey => "ADMIN_API_KEY"
  | apiKeySalt => "API_KEY_SALT"

def all : List Field := [adminApiKey, apiKeySalt]

def ofName (fieldName : String) : Option Field := all.find? fun field => field.name = fieldName

end Field

structure SecretsModel where
  adminApiKey : String := ""
  apiKeySalt : String := ""

namespace SecretsModel

def ofData (data : Dict Field String) : SecretsModel where
  adminApiKey := (data.get .adminApiKey).getD ""
  apiKeySalt := (data.get .apiKeySalt).getD ""

def get (m : SecretsModel) : Field → String
  | .adminApiKey => m.adminApiKey
  | .apiKeySalt => m.apiKeySalt

@[simp] theorem get_ofData (data : Dict Field String) (field : Field) :
    (ofData data).get field = (data.get field).getD "" := by
  cases field <;> rfl

end SecretsModel

inductive OpenError where
  | fileNotFound
  | other (text : String)

/-- The line breaks of a text file as its reader gets them. -/
def translate : List Char → List Char
  | '\r' :: '\n' :: cs => '\n' :: translate cs
  | '\r' :: cs => '\n' :: translate cs
  | c :: cs => c :: translate cs
  | [] => []

def fileLines (text : List Char) : List (List Char) := (translate text).splitOn '\n'

def readLine (line : List Char) : Option (Field × String) :=
  let line := (strip (String.ofList line)).toList
  if line = [] ∨ line.head? = some '#' ∨ '=' ∉ line then none
  else
    let key := String.ofList (line.takeWhile (· ≠ '='))
    let value := String.ofList ((line.dropWhile (· ≠ '=')).drop 1)
    (Field.ofName (lower (strip key))).map fun field => (field, strip value)

/-- A field keeps the value it has. -/
def addLine (data : Dict Field String) (line : List Char) : Dict Field String :=
  match readLine line with
  | none => data
  | some (field, value) => if data.contains field then data else data.set field value

def addVariable (environ : String → Option String) (envPrefix : String)
    (data : Dict Field String) (field : Field) : Dict Field String :=
  match environ (envPrefix ++ field.upper) with
  | none => data
  | some value => if value = "" then data else data.set field value

def createSecretsProvider (environ : String → Option String)
    (openFile : String → Except OpenError (List Char)) (envPrefix secretsFile : String) :
    Except OpenError SecretsModel :=
  let data := Field.all.foldl (addVariable environ envPrefix) .empty
  if secretsFile = "" then .ok (.ofData data)
  else
    match openFile secretsFile with
    | .ok text => .ok (.ofData ((fileLines text).foldl addLine data))
    | .error .fileNotFound => .ok (.ofData data)
    | .error (.other text) => .error (.other text)

/-! Where a secret comes from. -/

def reads (field : Field) (line : List Char) : Option String :=
  (readLine line).bind fun entry => if entry.1 = field then some entry.2 else none

def assigned (lines : List (List Char)) (field : Field) : Option String :=
  lines.findSome? (reads field)

theorem assigned_cons (line : List Char) (lines : List (List Char)) (field : Field) :
    assigned (line :: lines) field = (reads field line).or (assigned lines field) := by
  rw [assigned, List.findSome?_cons, assigned]
  cases reads field line <;> rfl

def fromEnvironment (environ : String → Option String) (envPrefix : String) (field : Field) :
    Option String :=
  (environ (envPrefix ++ field.upper)).filter (· ≠ "")

theorem get_addLine (data : Dict Field String) (line : List Char) (field : Field) :
    (addLine data line).get field = (data.get field).or (reads field line) := by
  unfold addLine reads
  cases readLine line with
  | none => simp
  | some entry =>
    obtain ⟨other, value⟩ := entry
    by_cases same : other = field
    · subst same
      cases stored : data.get other <;> simp [Dict.contains, stored]
    · have kept : (if data.contains other then data else data.set other value).get field =
          data.get field := by
        split
        next => rfl
        next => rw [Dict.get_set, if_neg (Ne.symm same)]
      simp [kept, same]

theorem get_foldl_addLine (data : Dict Field String) (lines : List (List Char)) (field : Field) :
    (lines.foldl addLine data).get field = (data.get field).or (assigned lines field) := by
  induction lines generalizing data with
  | nil => simp [assigned]
  | cons line lines ih =>
    rw [List.foldl_cons, ih, get_addLine, Option.or_assoc, assigned_cons]

theorem get_variables (environ : String → Option String) (envPrefix : String) (field : Field) :
    (Field.all.foldl (addVariable environ envPrefix) .empty).get field =
      fromEnvironment environ envPrefix field := by
  have added (data : Dict Field String) (other : Field) :
      (addVariable environ envPrefix data other).get field =
        if other = field then (fromEnvironment environ envPrefix field).or (data.get field)
        else data.get field := by
    unfold addVariable fromEnvironment
    by_cases same : other = field
    · subst same
      cases environ (envPrefix ++ other.upper) with
      | none => simp
      | some value => by_cases empty : value = "" <;> simp [empty, Option.filter]
    · cases environ (envPrefix ++ other.upper) with
      | none => simp [same]
      | some value =>
        by_cases empty : value = "" <;> simp [empty, same, Dict.get_set, Ne.symm same]
  simp only [Field.all, List.foldl_cons, List.foldl_nil, added]
  cases field <;> simp

def linesOf (openFile : String → Except OpenError (List Char)) (secretsFile : String) :
    List (List Char) :=
  if secretsFile = "" then []
  else
    match openFile secretsFile with
    | .ok text => fileLines text
    | .error _ => []

/-- Each secret is the variable's value where it is set to something, else what the first line
of its field says, else empty. -/
theorem provides {environ : String → Option String}
    {openFile : String → Except OpenError (List Char)} {envPrefix secretsFile : String}
    {m : SecretsModel}
    (provided : createSecretsProvider environ openFile envPrefix secretsFile = .ok m)
    (field : Field) :
    m.get field = (((fromEnvironment environ envPrefix field).or
      (assigned (linesOf openFile secretsFile) field)).getD "") := by
  unfold createSecretsProvider at provided
  unfold linesOf
  split at provided
  next named =>
    cases provided
    simp [named, get_variables, assigned]
  next named =>
    rw [if_neg named]
    split at provided
    next text opened =>
      cases provided
      simp [get_foldl_addLine, get_variables, opened]
    next missing =>
      cases provided
      simp [get_variables, assigned, missing]
    next => cases provided

/-! Files that hold what their lines say. -/

inductive Entry where
  | comment (text : List Char)
  | assign (field : Field) (value : String)

namespace Entry

def line : Entry → List Char
  | comment text => '#' :: text
  | assign field value => field.upper.toList ++ '=' :: value.toList

/-- One line, and a value without white space around it. -/
def Clean : Entry → Prop
  | comment text => '\n' ∉ text ∧ '\r' ∉ text
  | assign _ value => '\n' ∉ value.toList ∧ '\r' ∉ value.toList ∧ strip value = value

instance : (e : Entry) → Decidable e.Clean
  | comment _ => inferInstanceAs (Decidable (_ ∧ _))
  | assign _ _ => inferInstanceAs (Decidable (_ ∧ _ ∧ _))

def value (field : Field) : Entry → Option String
  | comment _ => none
  | assign other value => if other = field then some value else none

theorem Clean.plain {e : Entry} (clean : e.Clean) : '\n' ∉ e.line ∧ '\r' ∉ e.line := by
  cases e with
  | comment text => simpa [line, Clean] using clean
  | assign field value =>
    have name : '\n' ∉ field.upper.toList ∧ '\r' ∉ field.upper.toList := by
      cases field <;> decide
    simp [line, name, clean.1, clean.2.1]

end Entry

def render (entries : List Entry) : List Char := entries.flatMap fun e => e.line ++ ['\n']

theorem translate_plain {cs : List Char} (plain : '\r' ∉ cs) : translate cs = cs := by
  fun_induction translate cs with
  | case1 cs => simp at plain
  | case2 cs => simp at plain
  | case3 c cs _ _ ih => rw [ih fun member => plain (List.mem_cons_of_mem _ member)]
  | case4 => rfl

theorem fileLines_render {entries : List Entry} (clean : ∀ e ∈ entries, e.Clean) :
    fileLines (render entries) = entries.map Entry.line ++ [[]] := by
  have plain : '\r' ∉ render entries := by
    simp only [render, List.mem_flatMap, List.mem_append, List.mem_singleton, not_exists, not_and]
    rintro e member (inside | same)
    · exact (clean e member).plain.2 inside
    · cases same
  rw [fileLines, translate_plain plain]
  clear plain
  induction entries with
  | nil => rfl
  | cons e entries ih =>
    obtain ⟨first, rest⟩ := List.forall_mem_cons.mp clean
    rw [render, List.flatMap_cons, List.append_assoc, List.singleton_append,
      List.splitOn_append_cons_self_of_not_mem first.plain.1, ← render, ih rest]
    rfl

theorem toList_strip (cs : List Char) :
    (strip (String.ofList cs)).toList = (cs.dropWhile isSpace).rdropWhile isSpace := by
  simp [strip, List.rdropWhile]

theorem strip_eq_self {cs : List Char} (first : ∀ c, cs.head? = some c → isSpace c = false)
    (last : ∀ c, cs.getLast? = some c → isSpace c = false) :
    (cs.dropWhile isSpace).rdropWhile isSpace = cs := by
  have front : cs.dropWhile isSpace = cs := by
    cases cs with
    | nil => rfl
    | cons c cs => exact List.dropWhile_cons_of_neg (by simp [first c rfl])
  rw [front, List.rdropWhile_eq_self_iff]
  intro filled
  simp [last _ (List.getLast?_eq_some_getLast filled)]

theorem last_of_strip {value : String} (clean : strip value = value) {c : Char}
    (last : value.toList.getLast? = some c) : isSpace c = false := by
  have same := toList_strip value.toList
  rw [String.ofList_toList, clean] at same
  have filled : (value.toList.dropWhile isSpace).rdropWhile isSpace ≠ [] := by
    intro none
    rw [same, none] at last
    cases last
  have ends := List.rdropWhile_last_not isSpace _ filled
  rw [same, List.getLast?_eq_some_getLast filled, Option.some.injEq] at last
  simpa [last] using ends

theorem readLine_assign (field : Field) {value : String} (clean : strip value = value) :
    readLine (Entry.assign field value).line = some (field, value) := by
  have name : '=' ∉ field.upper.toList ∧ field.upper.toList.head?.any isSpace = false ∧
      field.upper.toList ≠ [] ∧ field.upper.toList.head? ≠ some '#' := by
    cases field <;> decide +kernel
  have head : (field.upper.toList ++ '=' :: value.toList).head? = field.upper.toList.head? :=
    List.head?_append_of_ne_nil _ name.2.2.1
  have whole : (strip (String.ofList (Entry.assign field value).line)).toList =
      field.upper.toList ++ '=' :: value.toList := by
    rw [toList_strip]
    refine strip_eq_self (fun c first => ?_) fun c last => ?_
    · rw [Entry.line, head] at first
      simpa [first] using name.2.1
    · rw [Entry.line, List.getLast?_append_of_ne_nil _ (List.cons_ne_nil _ _),
        List.getLast?_cons] at last
      cases ends : value.toList.getLast? with
      | none =>
        rw [ends] at last
        cases last
        decide
      | some c' =>
        rw [ends] at last
        cases last
        exact last_of_strip clean ends
  have key : ∀ c ∈ field.upper.toList, decide (c ≠ '=') = true :=
    fun c member => decide_eq_true fun same => name.1 (same ▸ member)
  have found : Field.ofName (lower (strip field.upper)) = some field := by
    cases field <;> decide +kernel
  simp only [readLine, whole, head]
  rw [if_neg (by simp [name]), List.takeWhile_append_of_pos key, List.dropWhile_append_of_pos key]
  simp [found, clean]

theorem readLine_comment (text : List Char) : readLine (Entry.comment text).line = none := by
  have stripped := toList_strip (Entry.comment text).line
  have space : isSpace '#' = false := by decide
  rw [Entry.line, List.dropWhile_cons_of_neg (by simp [space])] at stripped
  have filled : ('#' :: text).rdropWhile isSpace ≠ [] := by
    rw [ne_eq, List.rdropWhile_eq_nil_iff]
    exact fun all => by simp [space] at all
  have head : (('#' :: text).rdropWhile isSpace).head? = some '#' := by
    obtain ⟨rest, same⟩ := List.rdropWhile_prefix isSpace ('#' :: text)
    rw [← List.head?_append_of_ne_nil _ filled, same]
    rfl
  rw [readLine, Entry.line, stripped]
  exact if_pos (.inr (.inl head))

theorem reads_line {e : Entry} (clean : e.Clean) (field : Field) :
    reads field e.line = e.value field := by
  cases e with
  | comment text => rw [reads, readLine_comment]; rfl
  | assign other value => rw [reads, readLine_assign other clean.2.2]; rfl

theorem assigned_render {entries : List Entry} (clean : ∀ e ∈ entries, e.Clean) (field : Field) :
    assigned (fileLines (render entries)) field = entries.findSome? (Entry.value field) := by
  have last : reads field [] = none := by
    rw [reads, show readLine [] = none by decide +kernel, Option.bind_none]
  rw [fileLines_render clean, assigned, List.findSome?_append, List.findSome?_singleton, last,
    Option.or_none]
  induction entries with
  | nil => rfl
  | cons e entries ih =>
    obtain ⟨first, rest⟩ := List.forall_mem_cons.mp clean
    rw [List.map_cons, List.findSome?_cons, List.findSome?_cons, reads_line first, ih rest]

/-- A file that was written from entries is read back: over any environment, each secret is the
variable's value where it is set to something, else the value of its first entry. -/
theorem reads_back {entries : List Entry} (clean : ∀ e ∈ entries, e.Clean)
    {openFile : String → Except OpenError (List Char)} {secretsFile : String}
    (named : secretsFile ≠ "") (opened : openFile secretsFile = .ok (render entries))
    (environ : String → Option String) (envPrefix : String) :
    ∃ m, createSecretsProvider environ openFile envPrefix secretsFile = .ok m ∧
      ∀ field, m.get field = ((fromEnvironment environ envPrefix field).or
        (entries.findSome? (Entry.value field))).getD "" := by
  have lines : linesOf openFile secretsFile = fileLines (render entries) := by
    rw [linesOf, if_neg named, opened]
  have provided : ∃ m, createSecretsProvider environ openFile envPrefix secretsFile = .ok m := by
    rw [createSecretsProvider, if_neg named, opened]
    exact ⟨_, rfl⟩
  obtain ⟨m, provided⟩ := provided
  refine ⟨m, provided, fun field => ?_⟩
  rw [provides provided, lines, assigned_render clean]

def sampleEntries : List Entry :=
  [.comment " rotated = monthly".toList, .assign .apiKeySalt "s=1", .assign .adminApiKey "file-key",
    .assign .apiKeySalt "later"]

theorem reads_back_sample : ∃ m,
    createSecretsProvider (fun name => if name = "APP_ADMIN_API_KEY" then some "env-key" else none)
      (fun _ => .ok (render sampleEntries)) "APP_" ".env" = .ok m ∧
      ∀ field, m.get field = ((fromEnvironment
        (fun name => if name = "APP_ADMIN_API_KEY" then some "env-key" else none) "APP_" field).or
          (sampleEntries.findSome? (Entry.value field))).getD "" := by
  refine reads_back ?_ (by decide) rfl _ "APP_"
  simp only [sampleEntries, List.forall_mem_cons, List.not_mem_nil, false_implies, implies_true,
    and_true]
  exact ⟨by decide +kernel, by decide +kernel, by decide +kernel, by decide +kernel⟩

end Kitematic.Secrets

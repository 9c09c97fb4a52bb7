import Mathlib.Data.List.Basic

/-! The part of Python's `re` that escaped texts with `.*` in them use: literal
characters, the dot, the star after one of them, `^` in front and `$` behind. A
text outside that part has no meaning here. -/

namespace Kitematic.Regex

inductive Atom where
  | any
  | char (c : Char)
  deriving DecidableEq

/-- Without flags the dot stands for any character but a newline. -/
def Atom.accepts : Atom → Char → Bool
  | .any, d => d ≠ '\n'
  | .char c, d => c = d

structure Item where
  atom : Atom
  starred : Bool := false
  deriving DecidableEq

/-- `$` holds at the end and before a newline that ends the text. -/
def atEnd (rest : List Char) : Bool := rest = [] || rest = ['\n']

def matchAtom (a : Atom) (next : List Char → Bool) : List Char → Bool
  | [] => false
  | c :: rest => a.accepts c && next rest

def matchStar (a : Atom) (next : List Char → Bool) : List Char → Bool
  | [] => next []
  | c :: rest => next (c :: rest) || (a.accepts c && matchStar a next rest)

def isMatch : List Item → List Char → Bool
  | [] => atEnd
  | ⟨a, false⟩ :: items => matchAtom a (isMatch items)
  | ⟨a, true⟩ :: items => matchStar a (isMatch items)

/-- What `re.escape` puts a backslash before. -/
def special : List Char := "()[]\x7b\x7d?*+-|^$\\.&~# \t\n\r\x0b\x0c".toList

def escaped (c : Char) : List Char := if c ∈ special then ['\\', c] else [c]

def escape (s : List Char) : List Char := s.flatMap escaped

def operators : List Char := "^$+?\x7b\x7d[]|()".toList

def flush (pending : Option Atom) : List Item := (pending.map fun a => ⟨a, false⟩).toList

/-- The items of a text; `pending` is the atom a star would be about. -/
def parseFrom (pending : Option Atom) : List Char → Option (List Item)
  | [] => some (flush pending)
  | c :: rest =>
      if c = '*' then
        match pending with
        | none => none
        | some a => (parseFrom none rest).map (⟨a, true⟩ :: ·)
      else if c = '.' then (parseFrom (some .any) rest).map (flush pending ++ ·)
      else if c = '\\' then
        match rest with
        | [] => none
        | d :: rest =>
            if d.isAlphanum then none
            else (parseFrom (some (.char d)) rest).map (flush pending ++ ·)
      else if c ∈ operators then none
      else (parseFrom (some (.char c)) rest).map (flush pending ++ ·)

def compile : List Char → Option (List Item)
  | [] => none
  | c :: body =>
      if c = '^' ∧ body.getLast? = some '$' then parseFrom none body.dropLast else none

theorem compile_anchored (body : List Char) :
    compile ('^' :: (body ++ ['$'])) = parseFrom none body := by
  simp [compile]

theorem parseFrom_star (a : Atom) (s : List Char) :
    parseFrom (some a) ('*' :: s) = (parseFrom none s).map (⟨a, true⟩ :: ·) := by
  rw [parseFrom.eq_def]
  rfl

theorem escape_cons (c : Char) (s : List Char) : escape (c :: s) = escaped c ++ escape s :=
  List.flatMap_cons

/-- No escaped text begins with a bare dot, and one that begins with an escaped
character comes from a text that begins with that character. -/
theorem prefix_escape {c : Char} {s : List Char} :
    (¬ ['.'] <+: escape s) ∧ (['\\', c] <+: escape s → [c] <+: s) := by
  cases s with
  | nil => simp [escape]
  | cons d rest =>
    rw [escape_cons, escaped]
    by_cases inside : d ∈ special
    · simp only [inside, if_true, List.cons_append, List.nil_append, List.cons_prefix_cons]
      exact ⟨by simp, fun same => ⟨same.2.1, List.nil_prefix⟩⟩
    · have dot : '.' ≠ d := by rintro rfl; exact inside (by decide +kernel)
      have backslash : '\\' ≠ d := by rintro rfl; exact inside (by decide +kernel)
      simp [inside, List.cons_prefix_cons, dot, backslash]

theorem not_isAlphanum_of_special {c : Char} (inside : c ∈ special) : c.isAlphanum = false := by
  have all : special.all (fun d => !d.isAlphanum) = true := by decide +kernel
  simpa using List.all_eq_true.mp all c inside

theorem parseFrom_escaped (pending : Option Atom) (c : Char) (s : List Char) :
    parseFrom pending (escaped c ++ s) =
      (parseFrom (some (.char c)) s).map (flush pending ++ ·) := by
  by_cases inside : c ∈ special
  · simp [escaped, inside, parseFrom, not_isAlphanum_of_special inside]
  · have star : c ≠ '*' := by rintro rfl; exact inside (by decide +kernel)
    have dot : c ≠ '.' := by rintro rfl; exact inside (by decide +kernel)
    have backslash : c ≠ '\\' := by rintro rfl; exact inside (by decide +kernel)
    have operator : c ∉ operators := by
      intro member
      have all : operators.all (fun d => special.contains d) = true := by decide +kernel
      exact inside (List.contains_iff_mem.mp (List.all_eq_true.mp all c member))
    rw [escaped, if_neg inside, List.singleton_append, parseFrom.eq_def]
    simp only [star, dot, backslash, operator, if_false]

end Kitematic.Regex

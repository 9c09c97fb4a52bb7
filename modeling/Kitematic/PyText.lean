import Mathlib.Data.List.Infix
import Mathlib.Data.Rat.Floor

/-! Python values and the few text conversions that end up in messages. A float is
an exact rational, a string is a list of code points. -/

namespace Kitematic.PyText

/-- A JSON-native value, the payload type of parameters and tool data. -/
inductive Value where
  | none
  | bool (b : Bool)
  | int (i : Int)
  | float (q : ℚ)
  | str (s : String)
  | list (items : List Value)
  | dict (fields : List (String × Value))

abbrev Payload := List (String × Value)

def hexDigit (n : Nat) : Char := "0123456789abcdef".toList.getD n '0'

def escapeChar (quote c : Char) : List Char :=
  if c = quote ∨ c = '\\' then ['\\', c]
  else if c = '\n' then ['\\', 'n']
  else if c = '\r' then ['\\', 'r']
  else if c = '\t' then ['\\', 't']
  else if c.toNat < 32 ∨ c.toNat = 127 then
    ['\\', 'x', hexDigit (c.toNat / 16), hexDigit (c.toNat % 16)]
  else [c]

/-- `repr` of a string, with every non-ASCII character taken as printable. -/
def pyRepr (s : String) : String :=
  let quote := if '\'' ∈ s.toList ∧ '"' ∉ s.toList then '"' else '\''
  String.ofList ([quote] ++ s.toList.flatMap (escapeChar quote) ++ [quote])

def pyReprList (items : List String) : String :=
  "[" ++ ", ".intercalate (items.map pyRepr) ++ "]"

def roundHalfEven (q : ℚ) : Int :=
  let low := ⌊q⌋
  if q - low < 1 / 2 then low
  else if 1 / 2 < q - low then low + 1
  else if low % 2 = 0 then low else low + 1

def fixed1 (q : ℚ) : String :=
  let tenths := roundHalfEven (q * 10)
  (if tenths < 0 then "-" else "") ++ toString (tenths.natAbs / 10) ++ "." ++
    toString (tenths.natAbs % 10)

/-- `value or default` on an optional string: `None` and `""` are falsy. -/
def orElse (value : Option String) (default : String) : String :=
  match value with
  | some s => if s = "" then default else s
  | none => default

/-- `str.lower` of one character, exact wherever the result is in ASCII. -/
def lowerChar (c : Char) : List Char :=
  if c = '\u0130' then ['i', '\u0307']
  else if c = '\u212A' then ['k']
  else [c.toLower]

def lower (s : String) : String := String.ofList (s.toList.flatMap lowerChar)

def replaceFrom (old new : List Char) : Nat → List Char → List Char
  | _, [] => []
  | skip + 1, _ :: rest => replaceFrom old new skip rest
  | 0, c :: rest =>
      if old <+: c :: rest then new ++ replaceFrom old new (old.length - 1) rest
      else c :: replaceFrom old new 0 rest

/-- `str.replace` for a non-empty `old`: occurrences from the left that do not overlap. -/
def replace (s old new : List Char) : List Char := replaceFrom old new 0 s

/-- The test `sub in s`. -/
def containsText (s sub : String) : Bool := sub.toList <:+: s.toList

theorem lower_append (s t : String) : lower (s ++ t) = lower s ++ lower t := by
  simp [lower]

theorem containsText_append {s t word : String} {c : Char} (seam : s.toList.getLast? = some c)
    (apart : c ∉ word.toList) :
    containsText (s ++ t) word = (containsText s word || containsText t word) := by
  rw [Bool.eq_iff_iff]
  simp only [containsText, String.toList_append, Bool.or_eq_true, decide_eq_true_eq]
  rw [List.infix_append_iff_ne_nil]
  constructor
  · rintro (left | right | ⟨first, last, nonempty, -, same, ends, -⟩)
    · exact .inl left
    · exact .inr right
    · have tail : first.getLast? = some c := by
        rw [List.getLast?_eq_some_getLast nonempty, ends.getLast nonempty,
          ← List.getLast?_eq_some_getLast, seam]
      exact absurd (same ▸ List.mem_append_left last (List.mem_of_getLast? tail)) apart
  · rintro (left | right)
    · exact .inl left
    · exact .inr (.inl right)

/-- A text falls into two at the last of its separators in one way only. -/
theorem lastSplit_inj {separator : Char} {front front' back back' : List Char}
    (clear : separator ∉ back) (clear' : separator ∉ back')
    (same : front ++ separator :: back = front' ++ separator :: back') :
    front = front' ∧ back = back' := by
  rcases List.append_eq_append_iff.mp same with ⟨between, rfl, rest⟩ | ⟨between, rfl, rest⟩
  · cases between with
    | nil => exact ⟨(List.append_nil _).symm, (List.cons.inj rest).2⟩
    | cons c between => exact absurd ((List.cons.inj rest).2 ▸ by simp) clear
  · cases between with
    | nil => exact ⟨List.append_nil _, (List.cons.inj rest).2.symm⟩
    | cons c between => exact absurd ((List.cons.inj rest).2 ▸ by simp) clear'

example : pyRepr "it's" = "\"it's\"" := by decide +kernel
example : fixed1 (1 / 4) = "0.2" := by decide +kernel

end Kitematic.PyText

import Kitematic.JsonScan
import Mathlib.Data.List.Basic

/-! Dates in the extended ISO form. Every field has a fixed width; the microseconds
and the zone are left out where they are zero or missing, and reading tells the
forms apart by the character that comes next. -/

namespace Kitematic.IsoDate
open JsonScan

/-- A `datetime`, either naive or in UTC. -/
structure DateTime where
  year : Fin 10000
  month : Fin 13
  day : Fin 32
  hour : Fin 24 := 0
  minute : Fin 60 := 0
  second : Fin 60 := 0
  microsecond : Fin 1000000 := 0
  utc : Bool := true
  deriving DecidableEq

def epoch : DateTime where
  year := ⟨1970, by decide⟩
  month := ⟨1, by decide⟩
  day := ⟨1, by decide⟩

def civil (days : Nat) : Nat × Nat × Nat :=
  let shifted := days + 719468
  let era := shifted / 146097
  let dayOfEra := shifted % 146097
  let yearOfEra :=
    (dayOfEra - dayOfEra / 1460 + dayOfEra / 36524 - dayOfEra / 146096) / 365
  let dayOfYear := dayOfEra - (365 * yearOfEra + yearOfEra / 4 - yearOfEra / 100)
  let fromMarch := (5 * dayOfYear + 2) / 153
  let month := if fromMarch < 10 then fromMarch + 3 else fromMarch - 9
  (yearOfEra + era * 400 + (if month ≤ 2 then 1 else 0), month,
    dayOfYear - (153 * fromMarch + 2) / 5 + 1)

def now (seconds : ℚ) : DateTime :=
  let micros := ⌊seconds * 1000000⌋.toNat
  let (year, month, day) := civil (micros / 86400000000)
  { year := .ofNat _ year, month := .ofNat _ month, day := .ofNat _ day
    hour := .ofNat _ (micros / 3600000000), minute := .ofNat _ (micros / 60000000)
    second := .ofNat _ (micros / 1000000), microsecond := .ofNat _ micros }

def isoformat (d : DateTime) : List Char :=
  lastDigits 4 d.year ++ '-' :: lastDigits 2 d.month ++ '-' :: lastDigits 2 d.day ++
    'T' :: lastDigits 2 d.hour ++ ':' :: lastDigits 2 d.minute ++ ':' :: lastDigits 2 d.second ++
      (if d.microsecond = 0 then [] else '.' :: lastDigits 6 d.microsecond) ++
        if d.utc then ['+', '0', '0', ':', '0', '0'] else []

def readField (separator : List Char) (width bound : Nat) (text : List Char) :
    Option (Fin bound × List Char) :=
  match text.dropPrefix? separator with
  | none => none
  | some text =>
      let digits := text.take width
      let n := Nat.ofDigitChars 10 digits 0
      if fits : n < bound then
        if digits.length = width ∧ digits.all Char.isDigit then some (⟨n, fits⟩, text.drop width)
        else none
      else none

/-- Of the layouts that Python reads, the one that `isoformat` writes. -/
def fromisoformat (text : List Char) : Option DateTime := do
  let (year, text) ← readField [] 4 10000 text
  let (month, text) ← readField ['-'] 2 13 text
  let (day, text) ← readField ['-'] 2 32 text
  let (hour, text) ← readField ['T'] 2 24 text
  let (minute, text) ← readField [':'] 2 60 text
  let (second, text) ← readField [':'] 2 60 text
  let (microsecond, text) ←
    if text.head? = some '.' then readField ['.'] 6 1000000 text else some (0, text)
  if text = [] then
    return ⟨year, month, day, hour, minute, second, microsecond, false⟩
  else if text = ['+', '0', '0', ':', '0', '0'] then
    return ⟨year, month, day, hour, minute, second, microsecond, true⟩
  else none

theorem readField_lastDigits {width bound : Nat} (wide : bound ≤ 10 ^ width)
    (separator rest : List Char) (n : Fin bound) :
    readField separator width bound (separator ++ (lastDigits width n ++ rest)) =
      some (n, rest) := by
  have length := lastDigits_length width n
  have taken : (lastDigits width n ++ rest).take width = lastDigits width n :=
    List.take_left' length
  have dropped : (lastDigits width n ++ rest).drop width = rest := List.drop_left' length
  have value : Nat.ofDigitChars 10 (lastDigits width n) 0 = n := by
    rw [ofDigitChars_lastDigits, Nat.mod_eq_of_lt (Nat.lt_of_lt_of_le n.isLt wide)]
  have digits : (lastDigits width n).all Char.isDigit = true :=
    List.all_eq_true.mpr lastDigits_isDigit
  simp only [readField, List.dropPrefix?_append_of_beq _ (beq_self_eq_true separator), taken,
    dropped, value, digits, length, n.isLt, dif_pos, and_self, if_true]

theorem fromisoformat_isoformat (d : DateTime) : fromisoformat (isoformat d) = some d := by
  obtain ⟨year, month, day, hour, minute, second, microsecond, utc⟩ := d
  have text : isoformat ⟨year, month, day, hour, minute, second, microsecond, utc⟩ =
      [] ++ (lastDigits 4 year ++ (['-'] ++ (lastDigits 2 month ++ (['-'] ++ (lastDigits 2 day ++
        (['T'] ++ (lastDigits 2 hour ++ ([':'] ++ (lastDigits 2 minute ++ ([':'] ++
          (lastDigits 2 second ++
            ((if microsecond = 0 then [] else '.' :: lastDigits 6 microsecond) ++
              if utc then ['+', '0', '0', ':', '0', '0'] else [])))))))))))) := by
    simp only [isoformat, List.append_assoc, List.cons_append, List.nil_append]
  rw [text]
  simp only [fromisoformat, readField_lastDigits (show 10000 ≤ 10 ^ 4 by decide),
    readField_lastDigits (show 13 ≤ 10 ^ 2 by decide),
    readField_lastDigits (show 32 ≤ 10 ^ 2 by decide),
    readField_lastDigits (show 24 ≤ 10 ^ 2 by decide),
    readField_lastDigits (show 60 ≤ 10 ^ 2 by decide), Option.bind_eq_bind, Option.bind_some]
  by_cases whole : microsecond = 0
  · subst whole
    cases utc <;> rfl
  · have fraction := readField_lastDigits (show 1000000 ≤ 10 ^ 6 by decide) ['.']
      (if utc then ['+', '0', '0', ':', '0', '0'] else []) microsecond
    rw [List.cons_append, List.nil_append] at fraction
    simp only [whole, if_false, List.cons_append, List.head?_cons, if_true, fraction,
      Option.bind_some]
    cases utc <;> rfl

theorem isoformat_ne_nil (d : DateTime) : isoformat d ≠ [] := by
  simp [isoformat, lastDigits]

example : String.ofList (isoformat (now 951827696)) = "2000-02-29T12:34:56+00:00" := by
  decide +kernel

end Kitematic.IsoDate

import Kitematic.PyText
import Mathlib.Algebra.Order.Field.Rat
import Mathlib.Tactic.FieldSimp

/-! The two scanners of JSON text: string literals in the ASCII form with `\u` escapes,
and numbers. Each is proved to read back what the writer writes, in front of any
rest that does not continue it. -/

namespace Kitematic.JsonScan
open PyText

/-! Runs of characters. -/

theorem takeWhile_run {p : Char → Bool} {run rest : List Char} (inside : ∀ c ∈ run, p c = true)
    (outside : ∀ c, rest.head? = some c → p c = false) :
    (run ++ rest).takeWhile p = run ∧ (run ++ rest).dropWhile p = rest := by
  induction run with
  | nil =>
    cases rest with
    | nil => exact ⟨rfl, rfl⟩
    | cons c rest => simp [outside c rfl]
  | cons c run ih =>
    obtain ⟨taken, dropped⟩ := ih fun c member => inside c (List.mem_cons_of_mem _ member)
    simp [inside c List.mem_cons_self, taken, dropped]

/-! String literals. -/

def hexValue (c : Char) : Option Nat := "0123456789abcdef".toList.idxOf? c

def hex4 (n : Nat) : List Char :=
  [hexDigit (n / 4096 % 16), hexDigit (n / 256 % 16), hexDigit (n / 16 % 16), hexDigit (n % 16)]

def readHex4 : List Char → Option (Nat × List Char)
  | a :: b :: c :: d :: rest =>
      match hexValue a, hexValue b, hexValue c, hexValue d with
      | some a, some b, some c, some d => some (((a * 16 + b) * 16 + c) * 16 + d, rest)
      | _, _, _, _ => none
  | _ => none

def shortEscapes : List (Char × Char) :=
  [('"', '"'), ('\\', '\\'), ('\n', 'n'), ('\r', 'r'), ('\t', 't'), ('\x08', 'b'), ('\x0c', 'f')]

/-- One character of a literal; above the basic plane it is a surrogate pair. -/
def writeChar (c : Char) : List Char :=
  match shortEscapes.find? fun entry => entry.1 = c with
  | some (_, short) => ['\\', short]
  | none =>
      if 32 ≤ c.toNat ∧ c.toNat < 127 then [c]
      else if c.toNat < 65536 then '\\' :: 'u' :: hex4 c.toNat
      else
        '\\' :: 'u' :: hex4 (55296 + (c.toNat - 65536) / 1024) ++
          '\\' :: 'u' :: hex4 (56320 + (c.toNat - 65536) % 1024)

def unescape (short : Char) : Option Char :=
  (shortEscapes.find? fun entry => entry.2 = short).map Prod.fst

def readChar : List Char → Option (Char × List Char)
  | '\\' :: 'u' :: rest =>
      match readHex4 rest with
      | none => none
      | some (high, rest) =>
          if 55296 ≤ high ∧ high < 56320 then
            match rest with
            | '\\' :: 'u' :: rest =>
                match readHex4 rest with
                | none => none
                | some (low, rest) =>
                    some (Char.ofNat (65536 + (high - 55296) * 1024 + (low - 56320)), rest)
            | _ => none
          else some (Char.ofNat high, rest)
  | '\\' :: short :: rest => (unescape short).map fun c => (c, rest)
  | c :: rest => some (c, rest)
  | [] => none

def writeString (s : List Char) : List Char := s.flatMap writeChar ++ ['"']

/-- Reads up to the closing quote, which has at most `fuel` characters before it. -/
def readString : Nat → List Char → Option (List Char × List Char)
  | _, '"' :: rest => some ([], rest)
  | 0, _ => none
  | fuel + 1, cs =>
      match readChar cs with
      | none => none
      | some (c, rest) => (readString fuel rest).map fun (s, rest) => (c :: s, rest)

theorem hexValue_hexDigit {n : Nat} (small : n < 16) : hexValue (hexDigit n) = some n := by
  revert n
  decide

theorem readHex4_hex4 {n : Nat} (small : n < 65536) (rest : List Char) :
    readHex4 (hex4 n ++ rest) = some (n, rest) := by
  simp only [hex4, List.cons_append, List.nil_append, readHex4]
  rw [hexValue_hexDigit (by omega), hexValue_hexDigit (by omega), hexValue_hexDigit (by omega),
    hexValue_hexDigit (by omega)]
  simp only [Option.some.injEq, Prod.mk.injEq, and_true]
  omega

theorem readChar_writeChar (c : Char) (rest : List Char) :
    readChar (writeChar c ++ rest) = some (c, rest) := by
  unfold writeChar
  cases escaped : shortEscapes.find? fun entry => entry.1 = c with
  | some entry =>
    obtain rfl : entry.1 = c := by simpa using List.find?_some escaped
    have member := List.mem_of_find?_eq_some escaped
    obtain ⟨c, short⟩ := entry
    simp only [shortEscapes, List.mem_cons, Prod.mk.injEq, List.not_mem_nil, or_false] at member
    rcases member with ⟨rfl, rfl⟩ | ⟨rfl, rfl⟩ | ⟨rfl, rfl⟩ | ⟨rfl, rfl⟩ | ⟨rfl, rfl⟩ | ⟨rfl, rfl⟩ |
      ⟨rfl, rfl⟩ <;> rfl
  | none =>
    have scalar := c.valid
    simp only [UInt32.isValidChar, Nat.isValidChar] at scalar
    have range : c.val.toNat = c.toNat := rfl
    simp only
    split
    next plain =>
      have ordinary : c ≠ '\\' := by
        rintro rfl
        cases escaped
      simp only [List.cons_append, List.nil_append]
      unfold readChar
      split
      next same => exact absurd (List.cons.inj same).1 ordinary
      next same => exact absurd (List.cons.inj same).1 ordinary
      next same => rw [(List.cons.inj same).1, (List.cons.inj same).2]
      next same => cases same
    split
    next basic =>
      have single : ¬ (55296 ≤ c.toNat ∧ c.toNat < 56320) := by omega
      simp only [List.cons_append, readChar, readHex4_hex4 basic, if_neg single, Char.ofNat_toNat]
    next wide =>
      have pair : 55296 ≤ 55296 + (c.toNat - 65536) / 1024 ∧
          55296 + (c.toNat - 65536) / 1024 < 56320 := by omega
      have value : 65536 + (55296 + (c.toNat - 65536) / 1024 - 55296) * 1024 +
          (56320 + (c.toNat - 65536) % 1024 - 56320) = c.toNat := by omega
      simp only [List.cons_append, List.append_assoc, readChar]
      rw [readHex4_hex4 (by omega)]
      simp only [if_pos pair]
      rw [readHex4_hex4 (by omega)]
      simp only [value, Char.ofNat_toNat]

private theorem writeChar_head (c : Char) : ∃ a as, writeChar c = a :: as ∧ a ≠ '"' := by
  unfold writeChar
  cases escaped : shortEscapes.find? fun entry => entry.1 = c with
  | some entry => exact ⟨'\\', [entry.2], rfl, by decide⟩
  | none =>
    simp only
    split
    next plain =>
      refine ⟨c, [], rfl, ?_⟩
      rintro rfl
      cases escaped
    split
    · exact ⟨'\\', _, rfl, by decide⟩
    · exact ⟨'\\', _, rfl, by decide⟩

theorem length_le_writeString (s : List Char) : s.length ≤ (writeString s).length := by
  have each : s.length ≤ (s.flatMap writeChar).length := by
    induction s with
    | nil => exact Nat.le_refl 0
    | cons c s ih =>
      obtain ⟨a, as, written, _⟩ := writeChar_head c
      simp only [List.flatMap_cons, List.length_append, written, List.length_cons]
      omega
  simp only [writeString, List.length_append]
  omega

theorem readString_writeString (s rest : List Char) {fuel : Nat} (enough : s.length ≤ fuel) :
    readString fuel (writeString s ++ rest) = some (s, rest) := by
  induction s generalizing fuel with
  | nil => cases fuel <;> rfl
  | cons c s ih =>
    cases fuel with
    | zero => cases enough
    | succ fuel =>
      have later := ih (Nat.le_of_succ_le_succ enough)
      have char := readChar_writeChar c (writeString s ++ rest)
      obtain ⟨a, as, written, opens⟩ := writeChar_head c
      have text : writeString (c :: s) ++ rest = a :: (as ++ (writeString s ++ rest)) := by
        simp [writeString, written]
      rw [written] at char
      rw [text]
      unfold readString
      split
      next same => exact absurd (List.cons.inj same).1 opens
      next spent _ => cases spent
      next fuel' same _ =>
        cases same
        rw [List.cons_append] at char
        simp only [char, later, Option.map_some]

/-! Numbers. -/

def lastDigits : Nat → Nat → List Char
  | 0, _ => []
  | places + 1, n => lastDigits places (n / 10) ++ [Nat.digitChar (n % 10)]

def signed (negative : Bool) (n : List Char) : List Char := if negative then '-' :: n else n

def writeInt (i : Int) : List Char := signed (i < 0) (Nat.toDigits 10 i.natAbs)

def places (q : ℚ) : Nat := max 1 (Nat.log2 q.den)

def scaled (q : ℚ) : Nat := q.num.natAbs * (10 ^ places q / q.den)

/-- The exact decimal expansion, where Python writes the shortest one that reads back. -/
def writeFloat (q : ℚ) : List Char :=
  signed (q < 0) (Nat.toDigits 10 (scaled q / 10 ^ places q) ++
    '.' :: lastDigits (places q) (scaled q))

def isNumberChar (c : Char) : Bool := c.isDigit || c = '-' || c = '.'

def readUnsigned (negative : Bool) (text : List Char) : Option Value :=
  let whole := text.takeWhile Char.isDigit
  match whole, text.dropWhile Char.isDigit with
  | [], _ => none
  | _, [] =>
      let n := Nat.ofDigitChars 10 whole 0
      some (.int (if negative then -n else n))
  | _, '.' :: fraction =>
      if fraction.isEmpty || !fraction.all Char.isDigit then none
      else
        let n : ℚ := Nat.ofDigitChars 10 (whole ++ fraction) 0 / 10 ^ fraction.length
        some (.float (if negative then -n else n))
  | _, _ => none

def readNumber : List Char → Option Value
  | '-' :: text => readUnsigned true text
  | text => readUnsigned false text

theorem lastDigits_length (p n : Nat) : (lastDigits p n).length = p := by
  induction p generalizing n with
  | zero => rfl
  | succ p ih => simp [lastDigits, ih]

theorem lastDigits_isDigit {p n : Nat} : ∀ c ∈ lastDigits p n, c.isDigit = true := by
  induction p generalizing n with
  | zero => simp [lastDigits]
  | succ p ih =>
    intro c member
    rcases List.mem_append.mp member with earlier | last
    · exact ih c earlier
    · rw [List.mem_singleton.mp last, Nat.isDigit_digitChar, decide_eq_true_eq]
      exact Nat.mod_lt n (by decide)

theorem ofDigitChars_lastDigits (p n : Nat) :
    Nat.ofDigitChars 10 (lastDigits p n) 0 = n % 10 ^ p := by
  induction p generalizing n with
  | zero => simp [lastDigits, Nat.mod_one]
  | succ p ih =>
    rw [lastDigits, Nat.ofDigitChars_append, ih,
      Nat.ofDigitChars_cons_digitChar_of_lt_ten (Nat.mod_lt n (by decide)), Nat.ofDigitChars_nil,
      Nat.pow_succ', Nat.mod_mul]
    omega

theorem ofDigitChars_split (p n : Nat) :
    Nat.ofDigitChars 10 (Nat.toDigits 10 (n / 10 ^ p) ++ lastDigits p n) 0 = n := by
  rw [Nat.ofDigitChars_append, Nat.ofDigitChars_ten_toDigits, Nat.ofDigitChars_eq_ofDigitChars_zero,
    ofDigitChars_lastDigits, lastDigits_length, Nat.div_add_mod]

private theorem toDigits_cons (n : Nat) : ∃ d ds, Nat.toDigits 10 n = d :: ds ∧ d.isDigit = true := by
  cases digits : Nat.toDigits 10 n with
  | nil => exact absurd digits Nat.toDigits_ne_nil
  | cons d ds =>
    refine ⟨d, ds, rfl, ?_⟩
    exact Nat.isDigit_of_mem_toDigits (by decide) (by decide) (digits ▸ List.mem_cons_self)

theorem readNumber_signed (negative : Bool) (n : Nat) (tail : List Char) :
    readNumber (signed negative (Nat.toDigits 10 n ++ tail)) =
      readUnsigned negative (Nat.toDigits 10 n ++ tail) := by
  obtain ⟨d, ds, digits, isDigit⟩ := toDigits_cons n
  cases negative with
  | true => rfl
  | false =>
    have unsigned : d ≠ '-' := by
      rintro rfl
      cases isDigit
    simp only [signed, digits, List.cons_append, Bool.false_eq_true, if_false]
    unfold readNumber
    split
    next same => exact absurd (List.cons.inj same).1 unsigned
    next => rfl

private theorem digits_run (n : Nat) {tail : List Char}
    (outside : ∀ c, tail.head? = some c → c.isDigit = false) :
    (Nat.toDigits 10 n ++ tail).takeWhile Char.isDigit = Nat.toDigits 10 n ∧
      (Nat.toDigits 10 n ++ tail).dropWhile Char.isDigit = tail :=
  takeWhile_run (fun _ => Nat.isDigit_of_mem_toDigits (by decide) (by decide)) outside

theorem readNumber_writeInt (i : Int) : readNumber (writeInt i) = some (.int i) := by
  have read := readNumber_signed (i < 0) i.natAbs []
  rw [List.append_nil] at read
  rw [writeInt, read]
  obtain ⟨taken, dropped⟩ := @digits_run i.natAbs [] (by simp)
  rw [List.append_nil] at taken dropped
  obtain ⟨d, ds, digits, _⟩ := toDigits_cons i.natAbs
  unfold readUnsigned
  rw [taken, dropped]
  simp only [digits]
  rw [← digits, Nat.ofDigitChars_ten_toDigits]
  refine congrArg (fun i => some (Value.int i)) ?_
  by_cases negative : i < 0
  · simp only [negative, decide_true, if_true]
    omega
  · simp only [negative, decide_false, Bool.false_eq_true, if_false]
    omega

def IsDyadic (q : ℚ) : Prop := ∃ e, q.den = 2 ^ e

theorem den_dvd_places {q : ℚ} (dyadic : IsDyadic q) : q.den ∣ 10 ^ places q := by
  obtain ⟨e, den⟩ := dyadic
  have enough : e ≤ places q := by
    unfold places
    rw [den, Nat.log2_two_pow]
    exact Nat.le_max_right 1 e
  rw [den]
  exact (Nat.pow_dvd_pow 2 enough).trans (pow_dvd_pow_of_dvd (by decide) _)

theorem scaled_div {q : ℚ} (dyadic : IsDyadic q) :
    (scaled q : ℚ) / 10 ^ places q = |q| := by
  obtain ⟨k, factor⟩ := den_dvd_places dyadic
  have power : (10 : ℚ) ^ places q = q.den * k := by exact_mod_cast factor
  have k_pos : (k : ℚ) ≠ 0 := by
    rintro zero
    rw [zero, mul_zero] at power
    exact absurd power (by positivity)
  calc (scaled q : ℚ) / 10 ^ places q = q.num.natAbs * k / (q.den * k) := by
        rw [scaled, factor, Nat.mul_div_cancel_left k q.den_pos, power, Nat.cast_mul]
    _ = |(q.num : ℚ)| / q.den := by
        rw [mul_div_mul_right _ _ k_pos, Nat.cast_natAbs, Int.cast_abs]
    _ = |q| := by
        rw [← Nat.abs_cast q.den, ← abs_div, Rat.num_div_den]

theorem readNumber_writeFloat {q : ℚ} (dyadic : IsDyadic q) :
    readNumber (writeFloat q) = some (.float q) := by
  have read := readNumber_signed (q < 0) (scaled q / 10 ^ places q)
    ('.' :: lastDigits (places q) (scaled q))
  rw [writeFloat, read]
  obtain ⟨taken, dropped⟩ := @digits_run (scaled q / 10 ^ places q)
    ('.' :: lastDigits (places q) (scaled q)) (by simp)
  obtain ⟨d, ds, digits, _⟩ := toDigits_cons (scaled q / 10 ^ places q)
  unfold readUnsigned
  have filled : (lastDigits (places q) (scaled q)).isEmpty = false := by
    have some_place : 0 < places q := Nat.lt_of_lt_of_le Nat.one_pos (Nat.le_max_left 1 _)
    rw [← lastDigits_length (places q) (scaled q)] at some_place
    exact List.isEmpty_eq_false_iff.mpr (List.ne_nil_of_length_pos some_place)
  have all : (lastDigits (places q) (scaled q)).all Char.isDigit = true :=
    List.all_eq_true.mpr lastDigits_isDigit
  rw [taken, dropped]
  simp only [digits]
  rw [← digits]
  simp only [filled, all, ofDigitChars_split, lastDigits_length, scaled_div dyadic, Bool.not_true,
    Bool.or_self, Bool.false_eq_true, if_false]
  refine congrArg (fun q => some (Value.float q)) ?_
  by_cases negative : q < 0
  · simp [negative, abs_of_neg negative]
  · simp [negative, abs_of_nonneg (not_lt.mp negative)]

private theorem isNumberChar_of_isDigit {c : Char} (digit : c.isDigit = true) :
    isNumberChar c = true := by
  simp [isNumberChar, digit]

private theorem signed_isNumberChar {negative : Bool} {text : List Char}
    (inside : ∀ c ∈ text, isNumberChar c = true) :
    ∀ c ∈ signed negative text, isNumberChar c = true := by
  intro c member
  cases negative with
  | false => exact inside c member
  | true =>
    rcases List.mem_cons.mp member with rfl | member
    · rfl
    · exact inside c member

theorem writeInt_isNumberChar (i : Int) : ∀ c ∈ writeInt i, isNumberChar c = true :=
  signed_isNumberChar fun _ member =>
    isNumberChar_of_isDigit (Nat.isDigit_of_mem_toDigits (by decide) (by decide) member)

theorem writeFloat_isNumberChar (q : ℚ) : ∀ c ∈ writeFloat q, isNumberChar c = true := by
  refine signed_isNumberChar fun c member => ?_
  rcases List.mem_append.mp member with whole | fraction
  · exact isNumberChar_of_isDigit (Nat.isDigit_of_mem_toDigits (by decide) (by decide) whole)
  rcases List.mem_cons.mp fraction with rfl | fraction
  · rfl
  · exact isNumberChar_of_isDigit (lastDigits_isDigit c fraction)

private theorem signed_ne_nil {negative : Bool} {text : List Char} (filled : text ≠ []) :
    signed negative text ≠ [] := by
  cases negative with
  | false => exact filled
  | true => exact List.cons_ne_nil _ _

theorem writeInt_ne_nil (i : Int) : writeInt i ≠ [] := signed_ne_nil Nat.toDigits_ne_nil

theorem writeFloat_ne_nil (q : ℚ) : writeFloat q ≠ [] :=
  signed_ne_nil (List.append_ne_nil_of_left_ne_nil Nat.toDigits_ne_nil _)

/-! The text is one line of plain ASCII. -/

def IsPrintable (c : Char) : Prop := 32 ≤ c.toNat ∧ c.toNat < 127

instance (c : Char) : Decidable (IsPrintable c) := inferInstanceAs (Decidable (_ ∧ _))

theorem hexDigit_isPrintable {n : Nat} (small : n < 16) : IsPrintable (hexDigit n) := by
  revert n
  decide

theorem hex4_isPrintable (n : Nat) : ∀ c ∈ hex4 n, IsPrintable c := by
  have digit : ∀ m, IsPrintable (hexDigit (m % 16)) := fun m =>
    hexDigit_isPrintable (Nat.mod_lt m (by decide))
  simp only [hex4, List.forall_mem_cons]
  exact ⟨digit _, digit _, digit _, digit _, List.forall_mem_nil _⟩

theorem short_isPrintable : ∀ entry ∈ shortEscapes, IsPrintable entry.2 := by decide

theorem writeChar_isPrintable (c : Char) : ∀ c' ∈ writeChar c, IsPrintable c' := by
  have escape : ∀ n, ∀ c' ∈ '\\' :: 'u' :: hex4 n, IsPrintable c' := fun n =>
    List.forall_mem_cons.mpr ⟨by decide, List.forall_mem_cons.mpr ⟨by decide, hex4_isPrintable n⟩⟩
  unfold writeChar
  split
  next escaped short found =>
    have member := short_isPrintable _ (List.mem_of_find?_eq_some found)
    simpa using ⟨by decide, member⟩
  · split
    next plain =>
      have printable : IsPrintable c := plain
      simpa using printable
    · split
      · exact escape _
      · intro c' member
        exact (List.mem_append.mp member).elim (escape _ c') (escape _ c')

theorem writeString_isPrintable (s : List Char) : ∀ c ∈ writeString s, IsPrintable c := by
  intro c member
  rcases List.mem_append.mp member with inside | last
  · obtain ⟨c', _, written⟩ := List.mem_flatMap.mp inside
    exact writeChar_isPrintable c' c written
  · obtain rfl := List.mem_singleton.mp last
    decide

theorem isPrintable_of_isNumberChar {c : Char} (inside : isNumberChar c = true) :
    IsPrintable c := by
  simp only [isNumberChar, Bool.or_eq_true, decide_eq_true_eq] at inside
  rcases inside with (digit | rfl) | rfl
  · have bounds : 48 ≤ c.toNat ∧ c.toNat ≤ 57 := Char.isDigit_iff_toNat.mp digit
    exact ⟨by omega, by omega⟩
  · decide
  · decide

end Kitematic.JsonScan

import Kitematic.Dict
import Kitematic.JsonScan
import Mathlib.Data.List.Sort
import Mathlib.Data.Nat.Prime.Basic
import Mathlib.Data.String.Basic

/-! JSON text of values, and the canonical value with sorted keys that is written.
Reading inverts writing on every value whose dictionaries have distinct keys and
whose floats are binary64 numbers. The reader knows the layout the writer writes. -/

namespace Kitematic.Json
open Dictionary JsonScan PyText

/-- The induction over a value, with its members as sub-values. -/
theorem valueInduction {P : Value → Prop} (none : P .none) (bool : ∀ b, P (.bool b))
    (int : ∀ i, P (.int i)) (float : ∀ q, P (.float q)) (str : ∀ s, P (.str s))
    (list : ∀ items, (∀ v ∈ items, P v) → P (.list items))
    (dict : ∀ fields, (∀ e ∈ fields, P e.2) → P (.dict fields)) (v : Value) : P v := by
  refine Value.rec (motive_1 := P) (motive_2 := fun items => ∀ v ∈ items, P v)
    (motive_3 := fun fields => ∀ e ∈ fields, P e.2) (motive_4 := fun e => P e.2)
    none bool int float str list dict ?_ ?_ ?_ ?_ ?_ v
  · simp
  · exact fun v items head tail => List.forall_mem_cons.mpr ⟨head, tail⟩
  · simp
  · exact fun e fields head tail => List.forall_mem_cons.mpr ⟨head, tail⟩
  · exact fun _ _ value => value

/-! Sorted keys. -/

def sortKeys {ν : Type} (fields : List (String × ν)) : List (String × ν) :=
  fields.insertionSort fun a b => a.1 ≤ b.1

mutual
def canonical : Value → Value
  | .list items => .list (canonicalItems items)
  | .dict fields => .dict (sortKeys (canonicalFields fields))
  | v => v

def canonicalItems : List Value → List Value
  | [] => []
  | v :: items => canonical v :: canonicalItems items

def canonicalFields : List (String × Value) → List (String × Value)
  | [] => []
  | (k, v) :: fields => (k, canonical v) :: canonicalFields fields
end

theorem canonicalItems_eq_map (items : List Value) :
    canonicalItems items = items.map canonical := by
  induction items with
  | nil => rfl
  | cons v items ih => rw [canonicalItems, ih, List.map_cons]

theorem canonicalFields_eq_map (fields : List (String × Value)) :
    canonicalFields fields = fields.map fun e => (e.1, canonical e.2) := by
  induction fields with
  | nil => rfl
  | cons e fields ih => rw [canonicalFields, ih, List.map_cons]

theorem keys_canonicalFields (fields : List (String × Value)) :
    (canonicalFields fields).map Prod.fst = fields.map Prod.fst := by
  rw [canonicalFields_eq_map, List.map_map]
  rfl

theorem lookup_canonicalFields (fields : List (String × Value)) (k : String) :
    (canonicalFields fields).lookup k = (fields.lookup k).map canonical := by
  induction fields with
  | nil => rfl
  | cons e fields ih =>
    rw [canonicalFields, List.lookup_cons, List.lookup_cons, ih]
    split <;> rfl

theorem lookup_sortKeys {fields : List (String × Value)} (distinct : (fields.map Prod.fst).Nodup)
    (k : String) :
    (sortKeys (canonicalFields fields)).lookup k = (fields.lookup k).map canonical := by
  rw [← lookup_canonicalFields]
  refine Dict.lookup_perm ?_ (List.perm_insertionSort ..) k
  rwa [keys_canonicalFields]

/-! The values that have a JSON text. -/

/-- The finite numbers of the binary64 format. -/
def IsBinary64 (q : ℚ) : Prop :=
  ∃ m e : Int, |m| < 2 ^ 53 ∧ -1074 ≤ e ∧ e ≤ 971 ∧ q = m * 2 ^ e

theorem IsBinary64.dyadic {q : ℚ} (float : IsBinary64 q) : IsDyadic q := by
  obtain ⟨m, e, _, _, _, rfl⟩ := float
  cases e with
  | ofNat n =>
    refine ⟨0, ?_⟩
    have whole : (m * 2 ^ Int.ofNat n : ℚ) = (m * 2 ^ n : Int) := by
      rw [Int.ofNat_eq_natCast, zpow_natCast]
      push_cast
      rfl
    rw [whole, Rat.den_intCast, pow_zero]
  | negSucc n =>
    have quotient : (m * 2 ^ Int.negSucc n : ℚ) = Rat.divInt m (2 ^ (n + 1) : Int) := by
      rw [zpow_negSucc, Rat.divInt_eq_div]
      push_cast
      rfl
    have divides : (Rat.divInt m (2 ^ (n + 1) : Int)).den ∣ 2 ^ (n + 1) := by
      exact_mod_cast Rat.den_dvd m (2 ^ (n + 1))
    obtain ⟨k, _, power⟩ := (Nat.dvd_prime_pow Nat.prime_two).mp divides
    exact ⟨k, quotient ▸ power⟩

mutual
/-- Dictionaries have distinct keys and floats are binary64. -/
def Native : Value → Prop
  | .float q => IsBinary64 q
  | .list items => NativeItems items
  | .dict fields => (fields.map Prod.fst).Nodup ∧ NativeFields fields
  | _ => True

def NativeItems : List Value → Prop
  | [] => True
  | v :: items => Native v ∧ NativeItems items

def NativeFields : List (String × Value) → Prop
  | [] => True
  | (_, v) :: fields => Native v ∧ NativeFields fields
end

theorem nativeItems_iff {items : List Value} : NativeItems items ↔ ∀ v ∈ items, Native v := by
  induction items with
  | nil => simp [NativeItems]
  | cons v items ih => simp [NativeItems, ih]

theorem nativeFields_iff {fields : List (String × Value)} :
    NativeFields fields ↔ ∀ e ∈ fields, Native e.2 := by
  induction fields with
  | nil => simp [NativeFields]
  | cons e fields ih => simp [NativeFields, ih]

theorem native_canonical {v : Value} : Native v → Native (canonical v) := by
  induction v using valueInduction with
  | none => exact id
  | bool => exact id
  | int => exact id
  | float => exact id
  | str => exact id
  | list items ih =>
    intro native
    rw [canonical, canonicalItems_eq_map]
    refine nativeItems_iff.mpr (List.forall_mem_map.mpr fun v member => ?_)
    exact ih v member (nativeItems_iff.mp native v member)
  | dict fields ih =>
    rintro ⟨distinct, native⟩
    have perm := List.perm_insertionSort (fun a b : String × Value => a.1 ≤ b.1)
      (canonicalFields fields)
    refine ⟨?_, nativeFields_iff.mpr fun e member => ?_⟩
    · exact (perm.map Prod.fst).nodup_iff.mpr (by rwa [keys_canonicalFields])
    · have member := perm.mem_iff.mp member
      rw [canonicalFields_eq_map] at member
      obtain ⟨f, inside, rfl⟩ := List.mem_map.mp member
      exact ih f inside (nativeFields_iff.mp native f inside)

/-! Writing. -/

def quoted (s : String) : List Char := '"' :: writeString s.toList

mutual
def write : Value → List Char
  | .none => ['n', 'u', 'l', 'l']
  | .bool true => ['t', 'r', 'u', 'e']
  | .bool false => ['f', 'a', 'l', 's', 'e']
  | .int i => writeInt i
  | .float q => writeFloat q
  | .str s => quoted s
  | .list items => '[' :: writeItems [] items
  | .dict fields => '\x7b' :: writeFields [] fields

def writeItems (separator : List Char) : List Value → List Char
  | [] => [']']
  | v :: items => separator ++ write v ++ writeItems [',', ' '] items

def writeFields (separator : List Char) : List (String × Value) → List Char
  | [] => ['\x7d']
  | (k, v) :: fields =>
      separator ++ quoted k ++ [':', ' '] ++ write v ++ writeFields [',', ' '] fields
end

/-! Reading. -/

def literals : List (List Char × Value) :=
  [(['n', 'u', 'l', 'l'], .none), (['t', 'r', 'u', 'e'], .bool true),
    (['f', 'a', 'l', 's', 'e'], .bool false)]

def readLiteral (text : List Char) : Option (Value × List Char) :=
  literals.findSome? fun (literal, v) => (text.dropPrefix? literal).map fun rest => (v, rest)

def readQuoted : List Char → Option (String × List Char)
  | '"' :: rest =>
      (readString rest.length rest).map fun (s, rest) => (String.ofList s, rest)
  | _ => none

mutual
/-- Reads one value; each nested one takes a unit of fuel. -/
def readValue : Nat → List Char → Option (Value × List Char)
  | 0, _ => none
  | _, [] => none
  | fuel + 1, c :: rest =>
      if c = '"' then (readQuoted (c :: rest)).map fun (s, rest) => (.str s, rest)
      else if c = '[' then
        (readItems fuel [] rest).map fun (items, rest) => (.list items, rest)
      else if c = '\x7b' then
        (readFields fuel [] rest).map fun (fields, rest) =>
          (.dict (Dict.ofList fields).entries, rest)
      else if isNumberChar c then
        (readNumber ((c :: rest).takeWhile isNumberChar)).map fun v =>
          (v, (c :: rest).dropWhile isNumberChar)
      else readLiteral (c :: rest)

def readItems : Nat → List Char → List Char → Option (List Value × List Char)
  | 0, _, _ => none
  | fuel + 1, separator, text =>
      if text.head? = some ']' then some ([], text.tail)
      else do
        let text ← text.dropPrefix? separator
        let (v, text) ← readValue fuel text
        let (items, text) ← readItems fuel [',', ' '] text
        return (v :: items, text)

def readFields : Nat → List Char → List Char → Option (List (String × Value) × List Char)
  | 0, _, _ => none
  | fuel + 1, separator, text =>
      if text.head? = some '\x7d' then some ([], text.tail)
      else do
        let text ← text.dropPrefix? separator
        let (k, text) ← readQuoted text
        let text ← text.dropPrefix? [':', ' ']
        let (v, text) ← readValue fuel text
        let (fields, text) ← readFields fuel [',', ' '] text
        return ((k, v) :: fields, text)
end

theorem readQuoted_quoted (s : String) (rest : List Char) :
    readQuoted (quoted s ++ rest) = some (s, rest) := by
  have enough : s.toList.length ≤ (writeString s.toList ++ rest).length := by
    have := length_le_writeString s.toList
    simp only [List.length_append]
    omega
  simp only [quoted, List.cons_append, readQuoted, readString_writeString _ _ enough,
    Option.map_some, String.ofList_toList]

/-- A text that does not go on with a number. -/
def Ends (rest : List Char) : Prop := ∀ c, rest.head? = some c → isNumberChar c = false

theorem ends_writeItems (items : List Value) (rest : List Char) :
    Ends (writeItems [',', ' '] items ++ rest) := by
  cases items <;> simp [Ends, writeItems, isNumberChar]

theorem ends_writeFields (fields : List (String × Value)) (rest : List Char) :
    Ends (writeFields [',', ' '] fields ++ rest) := by
  cases fields <;> simp [Ends, writeFields, isNumberChar]

private theorem number_head {text : List Char} (filled : text ≠ [])
    (inside : ∀ c ∈ text, isNumberChar c = true) :
    ∃ a as, text = a :: as ∧ isNumberChar a = true := by
  cases text with
  | nil => exact absurd rfl filled
  | cons a as => exact ⟨a, as, rfl, inside a List.mem_cons_self⟩

theorem write_head (v : Value) : ∃ a as, write v = a :: as ∧ a ≠ ']' := by
  have number : ∀ text : List Char, text ≠ [] → (∀ c ∈ text, isNumberChar c = true) →
      ∃ a as, text = a :: as ∧ a ≠ ']' := by
    intro text filled inside
    obtain ⟨a, as, starts, isNumber⟩ := number_head filled inside
    refine ⟨a, as, starts, ?_⟩
    rintro rfl
    cases isNumber
  cases v with
  | none => exact ⟨'n', _, rfl, by decide⟩
  | bool b =>
    cases b with
    | true => exact ⟨'t', _, rfl, by decide⟩
    | false => exact ⟨'f', _, rfl, by decide⟩
  | int i => exact number _ (writeInt_ne_nil i) (writeInt_isNumberChar i)
  | float q => exact number _ (writeFloat_ne_nil q) (writeFloat_isNumberChar q)
  | str s => exact ⟨'"', _, rfl, by decide⟩
  | list items => exact ⟨'[', _, rfl, by decide⟩
  | dict fields => exact ⟨'\x7b', _, rfl, by decide⟩

theorem readValue_number {text : List Char} {v : Value} (filled : text ≠ [])
    (inside : ∀ c ∈ text, isNumberChar c = true) (read : readNumber text = some v) (fuel : Nat)
    {rest : List Char} (ends : Ends rest) :
    readValue (fuel + 1) (text ++ rest) = some (v, rest) := by
  obtain ⟨taken, dropped⟩ := takeWhile_run inside ends
  obtain ⟨a, as, rfl, isNumber⟩ := number_head filled inside
  have no_quote : a ≠ '"' := by
    rintro rfl
    cases isNumber
  have no_bracket : a ≠ '[' := by
    rintro rfl
    cases isNumber
  have no_brace : a ≠ '\x7b' := by
    rintro rfl
    cases isNumber
  rw [List.cons_append] at taken dropped ⊢
  simp only [readValue, if_neg no_quote, if_neg no_bracket, if_neg no_brace, isNumber, if_true,
    taken, dropped, read, Option.map_some]

def Reads (v : Value) : Prop :=
  ∀ fuel rest, (write v).length ≤ fuel → Ends rest →
    readValue fuel (write v ++ rest) = some (v, rest)

def IsSeparator (separator : List Char) : Prop := separator = [] ∨ separator = [',', ' ']

theorem readItems_writeItems {items : List Value} (reads : ∀ v ∈ items, Reads v) :
    ∀ fuel separator rest, IsSeparator separator → (writeItems separator items).length ≤ fuel →
      readItems fuel separator (writeItems separator items ++ rest) = some (items, rest) := by
  induction items with
  | nil =>
    intro fuel separator rest _ enough
    cases fuel with
    | zero => cases enough
    | succ fuel => rfl
  | cons v items ih =>
    intro fuel separator rest separates enough
    obtain ⟨a, as, starts, opens⟩ := write_head v
    have head : (writeItems separator (v :: items) ++ rest).head? ≠ some ']' := by
      rcases separates with rfl | rfl <;> simp [writeItems, starts, opens]
    have lengths : separator.length + (as.length + 1) +
        (writeItems [',', ' '] items).length ≤ fuel := by
      simp only [writeItems, List.length_append, starts, List.length_cons] at enough
      omega
    have closed : 1 ≤ (writeItems [',', ' '] items).length := by
      cases items <;> simp [writeItems]
    have text : writeItems separator (v :: items) ++ rest =
        separator ++ (write v ++ (writeItems [',', ' '] items ++ rest)) := by
      simp [writeItems]
    cases fuel with
    | zero => omega
    | succ fuel =>
      have first := reads v List.mem_cons_self fuel (writeItems [',', ' '] items ++ rest)
        (by rw [starts, List.length_cons]; omega) (ends_writeItems items rest)
      have later := ih (fun v member => reads v (List.mem_cons_of_mem _ member)) fuel [',', ' '] rest
        (.inr rfl) (by omega)
      rw [readItems, if_neg head, text]
      simp [List.dropPrefix?_append_of_beq _ (beq_self_eq_true separator), first, later]

theorem readFields_writeFields {fields : List (String × Value)} (reads : ∀ e ∈ fields, Reads e.2) :
    ∀ fuel separator rest, IsSeparator separator →
      (writeFields separator fields).length ≤ fuel →
      readFields fuel separator (writeFields separator fields ++ rest) = some (fields, rest) := by
  induction fields with
  | nil =>
    intro fuel separator rest _ enough
    cases fuel with
    | zero => cases enough
    | succ fuel => rfl
  | cons e fields ih =>
    obtain ⟨k, v⟩ := e
    intro fuel separator rest separates enough
    have head : (writeFields separator ((k, v) :: fields) ++ rest).head? ≠ some '\x7d' := by
      rcases separates with rfl | rfl <;> simp [writeFields, quoted]
    have lengths : separator.length + (quoted k).length + 2 + (write v).length +
        (writeFields [',', ' '] fields).length ≤ fuel := by
      simp only [writeFields, List.length_append, List.length_cons, List.length_nil] at enough
      omega
    have text : writeFields separator ((k, v) :: fields) ++ rest = separator ++ (quoted k ++
        ([':', ' '] ++ (write v ++ (writeFields [',', ' '] fields ++ rest)))) := by
      simp [writeFields]
    cases fuel with
    | zero => omega
    | succ fuel =>
      have first := reads (k, v) List.mem_cons_self fuel (writeFields [',', ' '] fields ++ rest)
        (by dsimp only; omega) (ends_writeFields fields rest)
      have later := ih (fun e member => reads e (List.mem_cons_of_mem _ member)) fuel [',', ' ']
        rest (.inr rfl) (by omega)
      rw [readFields, if_neg head, text]
      have colon := List.dropPrefix?_append_of_beq
        (write v ++ (writeFields [',', ' '] fields ++ rest)) (beq_self_eq_true [':', ' '])
      simp only [List.dropPrefix?_append_of_beq _ (beq_self_eq_true separator), readQuoted_quoted,
        colon, first, later, Option.bind_eq_bind, Option.bind_some]
      rfl

theorem reads {v : Value} : Native v → Reads v := by
  induction v using valueInduction with
  | none =>
    rintro - (_ | fuel) rest enough _
    · cases enough
    · simp [write, readValue, isNumberChar, readLiteral, literals, List.dropPrefix?]
  | bool b =>
    rintro - (_ | fuel) rest enough _
    · cases b <;> cases enough
    · cases b <;> simp [write, readValue, isNumberChar, readLiteral, literals, List.dropPrefix?]
  | int i =>
    rintro - (_ | fuel) rest enough ends
    · exact absurd (List.length_eq_zero_iff.mp (Nat.le_zero.mp enough)) (writeInt_ne_nil i)
    · exact readValue_number (writeInt_ne_nil i) (writeInt_isNumberChar i) (readNumber_writeInt i)
        fuel ends
  | float q =>
    rintro float (_ | fuel) rest enough ends
    · exact absurd (List.length_eq_zero_iff.mp (Nat.le_zero.mp enough)) (writeFloat_ne_nil q)
    · exact readValue_number (writeFloat_ne_nil q) (writeFloat_isNumberChar q)
        (readNumber_writeFloat (IsBinary64.dyadic float)) fuel ends
  | str s =>
    rintro - (_ | fuel) rest enough _
    · cases enough
    · have read := readQuoted_quoted s rest
      simp only [quoted, List.cons_append] at read
      simp only [write, quoted, List.cons_append, readValue, if_true, read, Option.map_some]
  | list items ih =>
    rintro native (_ | fuel) rest enough _
    · cases enough
    · have read := readItems_writeItems
        (fun v member => ih v member (nativeItems_iff.mp native v member))
        fuel [] rest (.inl rfl) (Nat.le_of_succ_le_succ enough)
      simp [write, readValue, read]
  | dict fields ih =>
    rintro ⟨distinct, native⟩ (_ | fuel) rest enough _
    · cases enough
    · have read := readFields_writeFields
        (fun e member => ih e member (nativeFields_iff.mp native e member))
        fuel [] rest (.inl rfl) (Nat.le_of_succ_le_succ enough)
      simp [write, readValue, read, Dict.ofList_entries distinct]

def read (text : List Char) : Option Value :=
  match readValue text.length text with
  | some (v, []) => some v
  | _ => none

theorem read_write {v : Value} (native : Native v) : read (write v) = some v := by
  have taken := reads native (write v).length [] (Nat.le_refl _) (by simp [Ends])
  rw [List.append_nil] at taken
  rw [read, taken]

/-! The text is one line of plain ASCII. -/

theorem quoted_isPrintable (s : String) : ∀ c ∈ quoted s, IsPrintable c :=
  List.forall_mem_cons.mpr ⟨by decide, writeString_isPrintable s.toList⟩

theorem isPrintable_of_all {text : List Char}
    (all : text.all (fun c => decide (IsPrintable c)) = true) : ∀ c ∈ text, IsPrintable c :=
  fun c member => of_decide_eq_true (List.all_eq_true.mp all c member)

theorem write_isPrintable (v : Value) : ∀ c ∈ write v, IsPrintable c := by
  have comma : ∀ c ∈ [',', ' '], IsPrintable c := isPrintable_of_all rfl
  have colon : ∀ c ∈ [':', ' '], IsPrintable c := isPrintable_of_all rfl
  induction v using valueInduction with
  | none => exact isPrintable_of_all rfl
  | bool b => cases b <;> exact isPrintable_of_all rfl
  | int i => exact fun c member => isPrintable_of_isNumberChar (writeInt_isNumberChar i c member)
  | float q => exact fun c member => isPrintable_of_isNumberChar (writeFloat_isNumberChar q c member)
  | str s => exact quoted_isPrintable s
  | list items ih =>
    have rest : ∀ separator : List Char, (∀ c ∈ separator, IsPrintable c) →
        ∀ c ∈ writeItems separator items, IsPrintable c := by
      induction items with
      | nil => exact fun _ _ => List.forall_mem_singleton.mpr (by decide)
      | cons v items later =>
        intro separator plain c member
        rw [writeItems] at member
        rcases List.mem_append.mp member with front | back
        · exact (List.mem_append.mp front).elim (plain c) (ih v List.mem_cons_self c)
        · exact later (fun v member => ih v (List.mem_cons_of_mem _ member)) _ comma c back
    exact List.forall_mem_cons.mpr ⟨by decide, rest [] (List.forall_mem_nil _)⟩
  | dict fields ih =>
    have rest : ∀ separator : List Char, (∀ c ∈ separator, IsPrintable c) →
        ∀ c ∈ writeFields separator fields, IsPrintable c := by
      induction fields with
      | nil => exact fun _ _ => List.forall_mem_singleton.mpr (by decide)
      | cons e fields later =>
        intro separator plain c member
        rw [writeFields] at member
        simp only [List.mem_append] at member
        rcases member with (((front | key) | mark) | value) | back
        · exact plain c front
        · exact quoted_isPrintable _ c key
        · exact colon c mark
        · exact ih e List.mem_cons_self c value
        · exact later (fun e member => ih e (List.mem_cons_of_mem _ member)) _ comma c back
    exact List.forall_mem_cons.mpr ⟨by decide, rest [] (List.forall_mem_nil _)⟩

/-- A written text has no line break, so texts can be kept line by line. -/
theorem newline_notMem_write (v : Value) : '\n' ∉ write v :=
  fun member => absurd (write_isPrintable v _ member).1 (by decide)

end Kitematic.Json

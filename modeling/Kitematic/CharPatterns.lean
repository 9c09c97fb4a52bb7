import Mathlib.Data.List.Basic

/-! Regular expressions over classes of characters, matched with backtracking as Python's
`re` does, and the texts they stand for. -/

namespace Kitematic.CharPatterns

inductive Pattern where
  | set (accepts : Char → Bool)
  | many (accepts : Char → Bool)
  | seq (first second : Pattern)
  | either (first second : Pattern)
  | maybe (part : Pattern)

namespace Pattern

def some (accepts : Char → Bool) : Pattern := .seq (.set accepts) (.many accepts)

def char (c : Char) : Pattern := .set fun d => d = c

def matchMany (accepts : Char → Bool) (next : List Char → Bool) : List Char → Bool
  | [] => next []
  | c :: rest => next (c :: rest) || (accepts c && matchMany accepts next rest)

/-- Whether a beginning of the text fits, and what is left satisfies `next`. -/
def matchThen : Pattern → (List Char → Bool) → List Char → Bool
  | .set accepts, next => fun text =>
      match text with
      | [] => false
      | c :: rest => accepts c && next rest
  | .many accepts, next => matchMany accepts next
  | .seq first second, next => first.matchThen (second.matchThen next)
  | .either first second, next => fun text => first.matchThen next text || second.matchThen next text
  | .maybe part, next => fun text => part.matchThen next text || next text

/-- The texts that a pattern stands for. -/
def Accepts : Pattern → List Char → Prop
  | .set accepts => fun text => ∃ c, accepts c = true ∧ text = [c]
  | .many accepts => fun text => ∀ c ∈ text, accepts c = true
  | .seq first second => fun text =>
      ∃ front back, text = front ++ back ∧ first.Accepts front ∧ second.Accepts back
  | .either first second => fun text => first.Accepts text ∨ second.Accepts text
  | .maybe part => fun text => part.Accepts text ∨ text = []

theorem matchMany_iff {accepts : Char → Bool} {next : List Char → Bool} {text : List Char} :
    matchMany accepts next text = true ↔
      ∃ front back, text = front ++ back ∧ (∀ c ∈ front, accepts c = true) ∧ next back = true := by
  induction text with
  | nil => simp [matchMany]
  | cons c rest ih =>
    rw [matchMany, Bool.or_eq_true, Bool.and_eq_true, ih]
    constructor
    · rintro (here | ⟨inside, front, back, rfl, all, after⟩)
      · exact ⟨[], c :: rest, rfl, by simp, here⟩
      · exact ⟨c :: front, back, rfl, List.forall_mem_cons.mpr ⟨inside, all⟩, after⟩
    · rintro ⟨front, back, same, all, after⟩
      cases front with
      | nil => exact .inl (same ▸ after)
      | cons d front =>
        obtain ⟨rfl, rfl⟩ := List.cons.inj same
        obtain ⟨inside, all⟩ := List.forall_mem_cons.mp all
        exact .inr ⟨inside, front, back, rfl, all, after⟩

/-- Backtracking finds a beginning that fits whenever there is one. -/
theorem matchThen_iff {p : Pattern} {next : List Char → Bool} {text : List Char} :
    p.matchThen next text = true ↔
      ∃ front back, text = front ++ back ∧ p.Accepts front ∧ next back = true := by
  induction p generalizing next text with
  | set accepts =>
    cases text with
    | nil => simp [matchThen, Accepts]
    | cons c rest =>
      simp only [matchThen, Bool.and_eq_true, Accepts]
      constructor
      · rintro ⟨inside, after⟩
        exact ⟨[c], rest, rfl, ⟨c, inside, rfl⟩, after⟩
      · rintro ⟨front, back, same, ⟨d, inside, rfl⟩, after⟩
        obtain ⟨rfl, rfl⟩ := List.cons.inj same
        exact ⟨inside, after⟩
  | many accepts => exact matchMany_iff
  | seq first second firstIh secondIh =>
    simp only [matchThen, Accepts, firstIh, secondIh]
    constructor
    · rintro ⟨front, _, rfl, head, middle, back, rfl, tail, after⟩
      exact ⟨front ++ middle, back, by simp, ⟨front, middle, rfl, head, tail⟩, after⟩
    · rintro ⟨_, back, rfl, ⟨front, middle, rfl, head, tail⟩, after⟩
      exact ⟨front, middle ++ back, by simp, head, middle, back, rfl, tail, after⟩
  | either first second firstIh secondIh =>
    simp only [matchThen, Accepts, Bool.or_eq_true, firstIh, secondIh]
    constructor
    · rintro (⟨front, back, same, fits, after⟩ | ⟨front, back, same, fits, after⟩)
      · exact ⟨front, back, same, .inl fits, after⟩
      · exact ⟨front, back, same, .inr fits, after⟩
    · rintro ⟨front, back, same, fits | fits, after⟩
      · exact .inl ⟨front, back, same, fits, after⟩
      · exact .inr ⟨front, back, same, fits, after⟩
  | maybe part ih =>
    simp only [matchThen, Accepts, Bool.or_eq_true, ih]
    constructor
    · rintro (⟨front, back, same, fits, after⟩ | after)
      · exact ⟨front, back, same, .inl fits, after⟩
      · exact ⟨[], text, rfl, .inr rfl, after⟩
    · rintro ⟨front, back, same, fits | rfl, after⟩
      · exact .inl ⟨front, back, same, fits, after⟩
      · exact .inr (same ▸ after)

end Pattern
end Kitematic.CharPatterns

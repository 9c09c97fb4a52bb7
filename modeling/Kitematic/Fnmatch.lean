import Mathlib.Data.List.Basic

/-! Shell patterns as Python's `fnmatch` reads them where names keep their case: the
star for any text, the question mark for one character and brackets for a set of
characters, with ranges and a leading exclamation mark for the complement. -/

namespace Kitematic.Fnmatch

inductive Token where
  | star
  | question
  | literal (c : Char)
  | oneOf (negated : Bool) (ranges : List (Char × Char))
  deriving DecidableEq

/-- The ranges between brackets; a single character is a range of its own. -/
def rangesOf : List Char → List (Char × Char)
  | low :: '-' :: high :: rest => (low, high) :: rangesOf rest
  | c :: rest => (c, c) :: rangesOf rest
  | [] => []

/-- What follows an opening bracket: a set and the rest, unless no bracket closes it.
A closing bracket that comes first belongs to the set. -/
def bracket (text : List Char) : Option (Token × List Char) :=
  let negated := text.head? = some '!'
  let inside := if negated then text.tail else text
  let first := inside.takeWhile (· = ']') |>.take 1
  let body := (inside.drop first.length).takeWhile (· ≠ ']')
  match inside.drop (first.length + body.length) with
  | _ :: rest => some (.oneOf negated (rangesOf (first ++ body)), rest)
  | [] => none

/-- Each token takes a character at least, so the length of the text is fuel enough. -/
def tokensFrom : Nat → List Char → List Token
  | 0, _ => []
  | _, [] => []
  | fuel + 1, '*' :: rest => .star :: tokensFrom fuel rest
  | fuel + 1, '?' :: rest => .question :: tokensFrom fuel rest
  | fuel + 1, '[' :: rest =>
      match bracket rest with
      | some (token, rest) => token :: tokensFrom fuel rest
      | none => .literal '[' :: tokensFrom fuel rest
  | fuel + 1, c :: rest => .literal c :: tokensFrom fuel rest

def tokens (pattern : List Char) : List Token := tokensFrom pattern.length pattern

def Token.accepts : Token → Char → Bool
  | .star, _ => true
  | .question, _ => true
  | .literal c, d => c = d
  | .oneOf negated ranges, d =>
      (ranges.any fun range => range.1 ≤ d && d ≤ range.2) != negated

def matchTokens : List Token → List Char → Bool
  | [], text => text = []
  | .star :: rest, text => text.tails.any (matchTokens rest)
  | _ :: _, [] => false
  | token :: rest, c :: text => token.accepts c && matchTokens rest text

def fnmatch (name pattern : String) : Bool := matchTokens (tokens pattern.toList) name.toList

example : fnmatch "v1|read|agent-7|db" "v1|*|agent-[0-9]|d?" = true := by decide +kernel
example : fnmatch "v1|read|agent-7|db" "v1|*|agent-[!0-9]|d?" = false := by decide +kernel

end Kitematic.Fnmatch

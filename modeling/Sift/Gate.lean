/-!
# Gates

The gate of a group says how its conditions are joined.
-/

namespace Sift

/-- How the conditions of a group are joined. -/
inductive Gate where
  | and
  | or
deriving Repr, DecidableEq, Inhabited

/-- Equal up to the case of ASCII letters. -/
def sameLetters (s t : String) : Bool := s.toList.map Char.toLower == t.toList.map Char.toLower

namespace Gate

/-- The word for the gate. -/
def word : Gate → String
  | .and => "and"
  | .or => "or"

/-- The gate that a word names, in either case. -/
def ofWord? (s : String) : Option Gate :=
  if sameLetters s "and" then some .and
  else if sameLetters s "or" then some .or
  else none

/-- The gate with exactly this word. -/
def ofExactWord? (s : String) : Option Gate := [Gate.and, Gate.or].find? fun g => g.word == s

end Gate

end Sift

/-!
# Splitting texts

* `splitOnChar`: the pieces between all occurrences of a character.
* `splitUnquoted`: the pieces between its occurrences outside double quotes.
-/

namespace Sift.Text

/-- Puts a character in front of the first piece. -/
def consFirst (c : Char) : List (List Char) → List (List Char)
  | piece :: rest => (c :: piece) :: rest
  | [] => [[c]]

/-- The pieces of a text between occurrences of a character; there is always at least one. -/
def splitOnChar (separator : Char) : List Char → List (List Char)
  | [] => [[]]
  | c :: cs =>
    if c = separator then [] :: splitOnChar separator cs
    else consFirst c (splitOnChar separator cs)

/-- The pieces of a text between occurrences of a character outside double quotes; `inQuotes` tells
whether the text starts inside. Every quote opens or closes, so a quote may stay open to the end. -/
def splitUnquoted (separator : Char) (inQuotes : Bool) : List Char → List (List Char)
  | [] => [[]]
  | c :: cs =>
    if c = '"' then consFirst c (splitUnquoted separator (!inQuotes) cs)
    else if c = separator ∧ ¬inQuotes then [] :: splitUnquoted separator inQuotes cs
    else consFirst c (splitUnquoted separator inQuotes cs)

end Sift.Text

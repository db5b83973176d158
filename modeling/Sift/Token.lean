import Sift.Operator
import Sift.Gate
import Sift.Text.Alphanumeric
import Sift.Text.Blank

/-!
# Tokens of a filter

A filter text is a sequence of words, quoted texts, operators, gates and parentheses. Blanks
separate tokens, and a character that starts no token is passed over.

* `Token`: the six kinds.
* `Token.value?`: the text that a token stands for as a value.
* `Token.ofText`: the tokens of a text.
* `lexeme?_rest_length`: a token leaves no more text than follows its first character.
-/

namespace Sift

/-- A token of a filter. -/
inductive Token where
  | word (text : String)
  /-- A text in quotes, given without them. The scanner takes no other, so a quoted token whose text
  has no quotes around it, to be read as the bare text, cannot be written. -/
  | quoted (text : String)
  | operator (operator : Operator)
  | gate (gate : Gate)
  | openGroup
  | closeGroup
deriving Repr, DecidableEq

namespace Token

/-- How a token is written. -/
def shown : Token → String
  | .word s => s
  | .quoted s => "\"" ++ s ++ "\""
  | .operator op => op.symbol
  | .gate g => g.word
  | .openGroup => "("
  | .closeGroup => ")"

/-- A text without the quotes around it, if it stands in quotes. -/
def unquoted (s : String) : String :=
  match s.toList with
  | '"' :: cs => if cs.getLast? = some '"' then String.ofList cs.dropLast else s
  | _ => s

/-- The text of a token where the value of a condition stands: a word or a quoted text. -/
def value? : Token → Option String
  | .word s => some (unquoted s)
  | .quoted s => some s
  | _ => none

/-- Characters of words: letters and numbers of any script, and the signs of paths and numbers. -/
def isWordChar (c : Char) : Bool :=
  Text.isAlphanumeric c || c == '_' || c == '.' || c == '/' || c == '-' || c == '+'

/-- A word by itself, or the gate that it names. -/
def ofWord (s : String) : Token :=
  match Gate.ofWord? s with
  | some g => .gate g
  | none => .word s

/-- Characters up to the next quote. -/
def isUnquoted (c : Char) : Bool := c != '"'

/-- The token that starts with the character `c` when the text `cs` follows, and the text after it.
A quote starts a token only if another quote follows. Of two operators the longer is taken. -/
def lexeme? (c : Char) (cs : List Char) : Option (Token × List Char) :=
  match c, cs with
  | '"', cs =>
    match cs.dropWhile isUnquoted with
    | [] => none
    | _ :: rest => some (.quoted (String.ofList (cs.takeWhile isUnquoted)), rest)
  | '>', '=' :: rest => some (.operator .ge, rest)
  | '<', '=' :: rest => some (.operator .le, rest)
  | '!', '=' :: rest => some (.operator .ne, rest)
  | '=', rest => some (.operator .eq, rest)
  | '>', rest => some (.operator .gt, rest)
  | '<', rest => some (.operator .lt, rest)
  | ':', rest => some (.operator .present, rest)
  | '(', rest => some (.openGroup, rest)
  | ')', rest => some (.closeGroup, rest)
  | c, cs =>
    if isWordChar c then
      some (ofWord (String.ofList (c :: cs.takeWhile isWordChar)), cs.dropWhile isWordChar)
    else none

theorem length_dropWhile_le {α : Type} (p : α → Bool) (l : List α) :
    (l.dropWhile p).length ≤ l.length := (List.dropWhile_suffix p).length_le

/-- A token leaves no more text than follows its first character. -/
theorem lexeme?_rest_length {c : Char} {cs rest : List Char} {t : Token}
    (h : lexeme? c cs = some (t, rest)) : rest.length ≤ cs.length := by
  unfold lexeme? at h
  split at h
  · have hle := length_dropWhile_le isUnquoted cs
    split at h
    · simp at h
    next hd =>
      simp only [hd, List.length_cons, Option.some.injEq, Prod.mk.injEq] at h hle
      obtain ⟨-, rfl⟩ := h
      omega
  all_goals try (simp only [Option.some.injEq, Prod.mk.injEq] at h; obtain ⟨-, rfl⟩ := h; simp)
  split at h
  · simp only [Option.some.injEq, Prod.mk.injEq] at h
    obtain ⟨-, rfl⟩ := h
    exact length_dropWhile_le _ _
  · simp at h

/-- The tokens of a text, blanks and characters that start no token left out. -/
def scan : List Char → List Token
  | [] => []
  | c :: cs =>
    if Text.isBlank c then scan cs
    else
      match _h : lexeme? c cs with
      | some (t, rest) => t :: scan rest
      | none => scan cs
termination_by cs => cs.length
decreasing_by
  · simp
  · have := lexeme?_rest_length _h
    simp only [List.length_cons]
    omega
  · simp

/-- The tokens of a text. -/
def ofText (s : String) : List Token := scan s.toList

end Token

end Sift

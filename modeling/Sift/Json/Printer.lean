import Sift.Json.Basic
import Sift.Decimal.Layout

/-!
# Writing JSON text

* `Json.number`: how doubles are written.
* `Json.compact`: a value on one line without spaces.
* `Json.pretty`: a value with one item or field per line, indented by two spaces.
-/

namespace Sift.Json

/-- Numbers from `0.00001` up to sixteen whole digits are written positionally, whole ones with
`.0`; others have a signed exponent. -/
def number : Decimal.Layout where
  positional lead := -5 ≤ lead && lead ≤ 15
  pointZero := true
  tie := .even

/-- How one character stands inside a string. -/
def escapedChar (c : Char) : List Char :=
  match c with
  | '"' => ['\\', '"']
  | '\\' => ['\\', '\\']
  | '\x08' => ['\\', 'b']
  | '\t' => ['\\', 't']
  | '\n' => ['\\', 'n']
  | '\x0c' => ['\\', 'f']
  | '\r' => ['\\', 'r']
  | c =>
    if c.toNat < 0x20 then
      ['\\', 'u', '0', '0', Nat.digitChar (c.toNat / 16), Nat.digitChar (c.toNat % 16)]
    else [c]

/-- A string between quotes. Only quotes, backslashes and control characters are escaped. -/
def quotedText (s : String) : String :=
  String.ofList ('"' :: (s.toList.flatMap escapedChar ++ ['"']))

/-- The text of a value that has no parts. -/
def scalarText : Json → String
  | .null => "null"
  | .bool true => "true"
  | .bool false => "false"
  | .int n => toString n
  | .float x => if x.isFinite then number.render x else "null"
  | .str s => quotedText s
  | .arr _ => "[]"
  | .obj _ => "\x7b\x7d"

mutual

/-- The text of a value on one line, without spaces. -/
def compact : Json → String
  | .arr items => "[" ++ ",".intercalate (compactItems items) ++ "]"
  | .obj fields => "\x7b" ++ ",".intercalate (compactFields fields) ++ "\x7d"
  | v => scalarText v

/-- The texts of the items of an array. -/
def compactItems : List Json → List String
  | [] => []
  | v :: rest => compact v :: compactItems rest

/-- The texts of the fields of an object. -/
def compactFields : List (String × Json) → List String
  | [] => []
  | (k, v) :: rest => (quotedText k ++ ":" ++ compact v) :: compactFields rest

end

/-- A line break and the indentation of the given level. -/
def newline (level : Nat) : String := String.ofList ('\n' :: List.replicate (2 * level) ' ')

mutual

/-- The text of a value at an indentation level. -/
def prettyAt (level : Nat) : Json → String
  | .arr [] => "[]"
  | .arr (v :: rest) =>
    "[" ++ ",".intercalate (prettyItems (level + 1) (v :: rest)) ++ newline level ++ "]"
  | .obj [] => "\x7b\x7d"
  | .obj (f :: rest) =>
    "\x7b" ++ ",".intercalate (prettyFields (level + 1) (f :: rest)) ++ newline level ++ "\x7d"
  | v => scalarText v

/-- The items of an array, each on a line of its own. -/
def prettyItems (level : Nat) : List Json → List String
  | [] => []
  | v :: rest => (newline level ++ prettyAt level v) :: prettyItems level rest

/-- The fields of an object, each on a line of its own. -/
def prettyFields (level : Nat) : List (String × Json) → List String
  | [] => []
  | (k, v) :: rest =>
    (newline level ++ quotedText k ++ ": " ++ prettyAt level v) :: prettyFields level rest

end

/-- The text of a value, one item or field per line. -/
def pretty (v : Json) : String := prettyAt 0 v

end Sift.Json

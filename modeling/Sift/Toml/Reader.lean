import Sift.Toml.Document
import Sift.Toml.Lexical

/-!
# Reading TOML

* `Toml.value?`: a value.
* `Toml.statements?`: the statements of a document.
* `Toml.read?`: the table written in a text.
-/

namespace Sift.Toml

open Text (Reader)

/-- The parts of a dotted key before its last. -/
def splitKey? (keys : List String) : Option (List String × String) :=
  match keys.reverse with
  | [] => none
  | key :: path => some (path.reverse, key)

/-- A dotted key, an equals sign and a value. -/
def assignment? (value : Reader Value) (cs : List Char) :
    Option ((List String × String × Value) × List Char) := do
  let (keys, rest) ← keyPath? cs
  let (path, key) ← splitKey? keys
  match rest with
  | '=' :: rest => do
    let (v, rest) ← value (skipSpace rest)
    some ((path, key, v), rest)
  | _ => none

/-- The items of an array after its opening bracket. Line breaks and comments may stand around them,
and a comma after the last. -/
def arrayItems? (length : Nat) (value : Reader Value) : Nat → List Value → Reader Value
  | 0, _, _ => none
  | rounds + 1, acc, cs =>
    match skipLines length cs with
    | ']' :: rest => some (.array acc.reverse, rest)
    | cs => do
      let (v, rest) ← value cs
      match skipLines length rest with
      | ',' :: rest => arrayItems? length value rounds (v :: acc) rest
      | ']' :: rest => some (.array (v :: acc).reverse, rest)
      | _ => none

/-- The assignments of an inline table after its opening brace, the first of which has to be
there. -/
def inlineFields? (value : Reader Value) :
    Nat → List (List String × String × Value) → Reader Value
  | 0, _, _ => none
  | rounds + 1, acc, cs => do
    let (a, rest) ← assignment? value cs
    match skipSpace rest with
    | ',' :: rest => inlineFields? value rounds (a :: acc) rest
    | '\x7d' :: rest => do
      let fields ← assembleInline? (a :: acc).reverse
      some (.table fields, rest)
    | _ => none

/-- A date, a floating-point number or a whole number. -/
def number? (cs : List Char) : Option (Value × List Char) :=
  match afterDateTime? cs with
  | some rest => some (.datetime, rest)
  | none =>
    match afterFloat? cs with
    | some rest => some (.float, rest)
    | none => (wholeNumber? cs).map fun (n, rest) => (.integer n, rest)

/-- A value in which arrays and inline tables nest at most `depth` deep; `length` bounds the length
of the text. -/
def value? (length : Nat) : Nat → Reader Value
  | depth, cs =>
    match cs with
    | '"' :: _ => (stringValue? cs).map fun (s, rest) => (.string s, rest)
    | '\'' :: _ => (stringValue? cs).map fun (s, rest) => (.string s, rest)
    | '[' :: rest =>
      match depth with
      | 0 => none
      | depth + 1 => arrayItems? length (value? length depth) length [] rest
    | '\x7b' :: rest =>
      match depth with
      | 0 => none
      | depth + 1 =>
        match skipSpace rest with
        | '\x7d' :: rest => some (.table [], rest)
        | rest => inlineFields? (value? length depth) length [] rest
    | 't' :: 'r' :: 'u' :: 'e' :: rest => some (.boolean true, rest)
    | 'f' :: 'a' :: 'l' :: 's' :: 'e' :: rest => some (.boolean false, rest)
    | cs => number? cs

/-- A header after its opening bracket or brackets. -/
def header? (double : Bool) (cs : List Char) : Option (Statement × List Char) := do
  let (keys, rest) ← keyPath? cs
  let (parents, key) ← splitKey? keys
  match double, rest with
  | false, ']' :: rest => some (.header parents key false, rest)
  | true, ']' :: ']' :: rest => some (.header parents key true, rest)
  | _, _ => none

/-- A header, or a key and its value. -/
def statement? (length : Nat) : Reader Statement
  | '[' :: '[' :: cs => header? true cs
  | '[' :: cs => header? false cs
  | cs => do
    let ((path, key, v), rest) ← assignment? (value? length maxDepth) cs
    some (.assign path key v, rest)

/-- The statements of a document, each on lines of its own. -/
def statements? (length : Nat) : Nat → List Statement → List Char → Option (List Statement)
  | 0, _, _ => none
  | rounds + 1, acc, cs =>
    match skipLines length cs with
    | [] => some acc.reverse
    | cs => do
      let (s, rest) ← statement? length cs
      let rest ← lineEnd? rest
      statements? length rounds (s :: acc) rest

/-- The text without a byte order mark in front. -/
def skipMark : List Char → List Char
  | '\uFEFF' :: cs => cs
  | cs => cs

/-- The table written in a text. -/
def read? (s : String) : Option Table := do
  let cs := skipMark s.toList
  let length := cs.length + 1
  let statements ← statements? length length [] cs
  assemble? statements

end Sift.Toml

import Sift.Options.Basic
import Sift.Text.Blank
import Sift.Text.Split

/-!
# Option clauses

An option clause is a sequence of pairs `key = value` separated by commas. A value stands in double
quotes or consists of letters, digits and a few signs; commas in quotes do not separate.

* `Options.pairs`: the pairs of a clause.
* `Options.ofClause`: the options that a clause sets on top of others.
-/

namespace Sift.Options

/-- Characters of keys. -/
def isKeyChar (c : Char) : Bool := c.isAlphanum || c == '_' || c == '-'

/-- Characters of values without quotes. -/
def isBareChar (c : Char) : Bool :=
  c.isAlphanum || c == '_' || c == '+' || c == '-' || c == '.' || c == ':'

/-- The value at the front of a text, and the text after it. -/
def readValue? : List Char → Option (List Char × List Char)
  | '"' :: cs =>
    match cs.dropWhile (· != '"') with
    | _ :: rest => some (cs.takeWhile (· != '"'), rest)
    | [] => none
  | cs =>
    let bare := cs.takeWhile isBareChar
    if bare = [] then none else some (bare, cs.dropWhile isBareChar)

/-- A key, an equals sign and a value, with blanks around each. -/
def readPair? (fragment : List Char) : Option (String × String) :=
  let text := Text.trimStart fragment
  let key := text.takeWhile isKeyChar
  if key = [] then none
  else
    match Text.trimStart (text.dropWhile isKeyChar) with
    | '=' :: rest => do
      let (value, rest) ← readValue? (Text.trimStart rest)
      if Text.trimStart rest = [] then some (String.ofList key, String.ofList value) else none
    | _ => none

/-- The pair of a fragment, or the error that names the fragment. -/
def pair (fragment : List Char) : QueryResult (String × String) :=
  match readPair? fragment with
  | some p => .ok p
  | none => .error (.invalidOption (String.ofList (Text.trim fragment)))

/-- The pairs of a clause in order. A blank clause has none. -/
def pairs (clause : String) : QueryResult (List (String × String)) :=
  if Text.trim clause.toList = [] then .ok []
  else (Text.splitUnquoted ',' false clause.toList).mapM pair

/-- Sets the options of several pairs, up to the first error. -/
def setAll (o : Options) (ps : List (String × String)) : QueryResult Options :=
  ps.foldlM (fun o p => o.set p.1 p.2) o

/-- The options that a clause sets on top of others. -/
def ofClause (clause : String) (base : Options) : QueryResult Options := do
  base.setAll (← pairs clause)

end Sift.Options

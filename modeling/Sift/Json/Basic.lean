import Sift.Sorted

/-!
# JSON values

A JSON value as this library holds it: whole numbers and doubles are kept apart, and the fields of
an object are listed in increasing order of their keys.
-/

namespace Sift

/-- A JSON value. -/
inductive Json where
  | null
  | bool (b : Bool)
  /-- A whole number written without point and exponent that fits 64 bits. -/
  | int (n : Int)
  /-- Any other number. -/
  | float (x : Float)
  | str (s : String)
  | arr (items : List Json)
  | obj (fields : List (String × Json))
deriving Repr, Inhabited

namespace Json

/-- The value of a field, if the value is an object that has it. -/
def get? (key : String) : Json → Option Json
  | .obj fields => fields.lookup key
  | _ => none

/-- The text, if the value is a string. -/
def text? : Json → Option String
  | .str s => some s
  | _ => none

/-- The fields, if the value is an object. -/
def fields? : Json → Option (List (String × Json))
  | .obj fields => some fields
  | _ => none

/-- The items, if the value is an array. -/
def items? : Json → Option (List Json)
  | .arr items => some items
  | _ => none

/-- An object with the given fields, sorted by key; of two fields with one key the later counts. -/
def ofFields (fields : List (String × Json)) : Json := .obj (insertAll fields [])

/-- The text, or null. -/
def ofText? : Option String → Json
  | some s => .str s
  | none => .null

end Json

end Sift

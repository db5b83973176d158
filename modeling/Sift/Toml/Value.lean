import Sift.Sorted

/-!
# TOML values

Only what settings can depend on is kept: a floating-point number and a date are known to be there,
but not what they are.
-/

namespace Sift.Toml

/-- A value of a TOML document. -/
inductive Value where
  | string (s : String)
  | integer (n : Int)
  | float
  | boolean (b : Bool)
  | datetime
  | array (items : List Value)
  | table (fields : List (String × Value))
deriving Repr, Inhabited

/-- The fields of a table. -/
abbrev Table := List (String × Value)

end Sift.Toml

import Sift.Json.Basic
import Sift.Decimal.Basic

/-!
# Names and numbers in JSON

* `name?`: a choice among names.
* `double?`: a number of either kind as a double.
* `int64?`: a whole number that fits 64 bits with a sign.
-/

namespace Sift.Json

/-- A name out of a fixed choice: a string, or an object whose one field is null and has that
name. -/
def name? : Json → Option String
  | .str s => some s
  | .obj [(s, .null)] => some s
  | _ => none

/-- The double nearest to a whole number. -/
def doubleOfInt (n : Int) : Float :=
  let x := Decimal.toFloat ⟨n.natAbs, 0⟩
  if n < 0 then -x else x

/-- A number as a double. -/
def double? : Json → Option Float
  | .int n => some (doubleOfInt n)
  | .float x => some x
  | _ => none

/-- A whole number that fits 64 bits with a sign. -/
def int64? : Json → Option Int
  | .int n => if n < 0x8000000000000000 then some n else none
  | _ => none

/-- A double, or null for one that is not finite. -/
def ofDouble (x : Float) : Json := if x.isFinite then .float x else .null

end Sift.Json

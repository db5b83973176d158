/-!
# Comparison operators

* `Operator`: the seven operators of a condition.
* `Bound`: the side of a range that an ordering operator bounds.
-/

namespace Sift

/-- A comparison operator. -/
inductive Operator where
  | eq
  | ne
  | gt
  | ge
  | lt
  | le
  /-- Asks whether the field is present or missing. -/
  | present
deriving Repr, DecidableEq

/-- The side of a range and whether the bound itself belongs to it. -/
inductive Bound where
  | gt
  | gte
  | lt
  | lte
deriving Repr, DecidableEq

/-- The key of the bound in a range clause. -/
def Bound.key : Bound → String
  | .gt => "gt"
  | .gte => "gte"
  | .lt => "lt"
  | .lte => "lte"

namespace Operator

/-- All operators, in the order of their listing. -/
def all : List Operator := [.eq, .ne, .gt, .ge, .lt, .le, .present]

/-- How the operator is written. -/
def symbol : Operator → String
  | .eq => "="
  | .ne => "!="
  | .gt => ">"
  | .ge => ">="
  | .lt => "<"
  | .le => "<="
  | .present => ":"

/-- The operator written so. -/
def ofSymbol? (s : String) : Option Operator := all.find? fun op => op.symbol == s

/-- Whether several values separated by `/` may follow the operator. -/
def acceptsList : Operator → Bool
  | .eq | .ne => true
  | _ => false

/-- The bound that an ordering operator sets. -/
def bound? : Operator → Option Bound
  | .gt => some .gt
  | .ge => some .gte
  | .lt => some .lt
  | .le => some .lte
  | _ => none

end Operator

end Sift

import Sift.Operator
import Sift.Gate
import Sift.Decimal.Layout

/-!
# Condition trees

A filter is a tree of conditions. A leaf compares one field with a value or with several values, a
group joins conditions by a gate.

* `Scalar`, `Operand`: what a field is compared with.
* `Leaf`, `Condition`: the tree.
* `splitPath?`: the parent path of a dotted field.
-/

namespace Sift

/-- A single value. -/
inductive Scalar where
  | bool (b : Bool)
  | number (x : Float)
  | text (s : String)
deriving Repr, BEq, Inhabited

/-- The right-hand side of a condition: one value, or a list of values of which one has to match. -/
inductive Operand where
  | single (value : Scalar)
  | list (values : List Scalar)
deriving Repr, BEq, Inhabited

/-- One comparison. -/
structure Leaf where
  field : String
  operator : Operator
  operand : Operand
deriving Repr, BEq

/-- A condition: a comparison, or conditions joined by a gate. -/
inductive Condition where
  | leaf (leaf : Leaf)
  | group (gate : Gate) (children : List Condition)
deriving Repr, Inhabited

namespace Scalar

/-- Numbers in messages are written positionally, whole ones without a point. -/
def numberLayout : Decimal.Layout where
  positional _ := true
  pointZero := false
  tie := .up

/-- The text of a value in messages. -/
def shown : Scalar → String
  | .bool true => "true"
  | .bool false => "false"
  | .number x => numberLayout.render x
  | .text s => s

end Scalar

namespace Operand

/-- The values, one or several. -/
def values : Operand → List Scalar
  | .single v => [v]
  | .list vs => vs

/-- Whether the operand is a list. -/
def isList : Operand → Bool
  | .single _ => false
  | .list _ => true

end Operand

/-- Splits a text at its last dot. -/
def splitLastDot? (cs : List Char) : Option (List Char × List Char) :=
  match cs.reverse.dropWhile (· != '.') with
  | [] => none
  | _ :: before => some (before.reverse, (cs.reverse.takeWhile (· != '.')).reverse)

/-- The parent path and the last name of a dotted path. -/
def splitPath? (path : String) : Option (String × String) :=
  (splitLastDot? path.toList).map fun (parent, name) => (String.ofList parent, String.ofList name)

namespace Condition

mutual

/-- The number of comparisons in a condition. -/
def leafCount : Condition → Nat
  | .leaf _ => 1
  | .group _ children => leafCountAll children

/-- The number of comparisons in several conditions. -/
def leafCountAll : List Condition → Nat
  | [] => 0
  | c :: rest => leafCount c + leafCountAll rest

end

end Condition

end Sift

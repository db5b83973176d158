import Sift.Condition.Basic
import Sift.Json.Named

/-!
# Condition trees as JSON

A leaf is an object with the fields `field`, `operator` and `value`, a group one with `conditions`
and `logicGate`. Nothing marks which of the two an object is: it is read as a leaf if it can be,
else as a group. Further fields are ignored. A leaf may also be the array of its three parts, a
group the array of its two.

* `Condition.toJson`, `Condition.ofJson?`: writing and reading a tree.
-/

namespace Sift

/-- The JSON value of a scalar. -/
def Scalar.toJson : Scalar → Json
  | .bool b => .bool b
  | .number x => Json.ofDouble x
  | .text s => .str s

/-- Booleans, numbers and strings are scalars. -/
def Scalar.ofJson? : Json → Option Scalar
  | .bool b => some (.bool b)
  | .int n => some (.number (Json.doubleOfInt n))
  | .float x => some (.number x)
  | .str s => some (.text s)
  | _ => none

/-- One value stands alone, several in an array. -/
def Operand.toJson : Operand → Json
  | .single v => v.toJson
  | .list vs => .arr (vs.map Scalar.toJson)

/-- An array is a list of scalars, anything else has to be a scalar. -/
def Operand.ofJson? : Json → Option Operand
  | .arr items => (items.mapM Scalar.ofJson?).map .list
  | v => (Scalar.ofJson? v).map .single

/-- An operator is named by its symbol. -/
def Operator.ofJson? (v : Json) : Option Operator := v.name?.bind Operator.ofSymbol?

/-- A gate is named by its word in lower case. -/
def Gate.ofJson? (v : Json) : Option Gate := v.name?.bind Gate.ofExactWord?

namespace Leaf

/-- The object with the three parts of a leaf. -/
def toJson (l : Leaf) : Json :=
  .obj [("field", .str l.field), ("operator", .str l.operator.symbol), ("value", l.operand.toJson)]

/-- A leaf from its three parts. -/
def ofParts? (field operator value : Json) : Option Leaf := do
  let field ← field.text?
  let operator ← Operator.ofJson? operator
  let operand ← Operand.ofJson? value
  some ⟨field, operator, operand⟩

/-- A leaf from the fields of an object. -/
def ofFields? (fields : List (String × Json)) : Option Leaf := do
  ofParts? (← fields.lookup "field") (← fields.lookup "operator") (← fields.lookup "value")

end Leaf

namespace Condition

mutual

/-- The JSON value of a condition. -/
def toJson : Condition → Json
  | .leaf l => l.toJson
  | .group gate children =>
    .obj [("conditions", .arr (toJsonAll children)), ("logicGate", .str gate.word)]

/-- The JSON values of several conditions. -/
def toJsonAll : List Condition → List Json
  | [] => []
  | c :: rest => toJson c :: toJsonAll rest

end

/-- A group from its gate and children. -/
def groupOf? (children : Option (List Condition)) (gate : Option Json) : Option Condition := do
  some (.group (← Gate.ofJson? (← gate)) (← children))

mutual

/-- The condition that a JSON value stands for. -/
def ofJson? : Json → Option Condition
  | .obj fields =>
    match Leaf.ofFields? fields with
    | some l => some (.leaf l)
    | none => groupOf? (childrenField? fields) (fields.lookup "logicGate")
  | .arr [field, operator, value] => (Leaf.ofParts? field operator value).map .leaf
  | .arr [children, gate] => groupOf? (children? children) (some gate)
  | _ => none

/-- The conditions of an array. -/
def children? : Json → Option (List Condition)
  | .arr items => ofJsonAll? items
  | _ => none

/-- The conditions that several JSON values stand for. -/
def ofJsonAll? : List Json → Option (List Condition)
  | [] => some []
  | v :: rest => do
    let c ← ofJson? v
    let cs ← ofJsonAll? rest
    some (c :: cs)

/-- The conditions of the field `conditions`. -/
def childrenField? : List (String × Json) → Option (List Condition)
  | [] => none
  | (key, v) :: rest => if key = "conditions" then children? v else childrenField? rest

end

end Condition

end Sift

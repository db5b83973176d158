import Sift.Operator

/-!
# Field types

The types a field may be declared with, and which operators conditions on them may use.

* `FieldType.allows`: the operators of a type.
-/

namespace Sift

/-- The type of a field. -/
inductive FieldType where
  | keyword
  | text
  | long
  | integer
  | short
  | byte
  | double
  | float
  | halfFloat
  | scaledFloat
  | date
  | boolean
  | nested
deriving Repr, DecidableEq

namespace FieldType

/-- All types, in the order of their listing. -/
def all : List FieldType :=
  [.keyword, .text, .long, .integer, .short, .byte, .double, .float, .halfFloat, .scaledFloat,
   .date, .boolean, .nested]

/-- The declared name of the type. -/
def name : FieldType → String
  | .keyword => "keyword"
  | .text => "text"
  | .long => "long"
  | .integer => "integer"
  | .short => "short"
  | .byte => "byte"
  | .double => "double"
  | .float => "float"
  | .halfFloat => "half_float"
  | .scaledFloat => "scaled_float"
  | .date => "date"
  | .boolean => "boolean"
  | .nested => "nested"

/-- The type declared by this name. -/
def ofName? (s : String) : Option FieldType := all.find? fun t => t.name == s

/-- Types whose values are numbers. -/
def isNumeric : FieldType → Bool
  | .long | .integer | .short | .byte | .double | .float | .halfFloat | .scaledFloat => true
  | _ => false

/-- Types that conditions can be put on: all but containers of nested documents. -/
def isFilterable : FieldType → Bool
  | .nested => false
  | _ => true

/-- Types whose values are ordered. -/
def isOrdered (t : FieldType) : Bool := t.isNumeric || t == .date

/-- Ordered types allow every operator, the other filterable types equality and presence only. -/
def allows (t : FieldType) (op : Operator) : Bool :=
  t.isFilterable && (t.isOrdered || op.bound?.isNone)

end FieldType

end Sift

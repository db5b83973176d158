import Sift.Condition.Basic
import Sift.Decimal.Read
import Sift.Error
import Sift.Field.Catalog
import Sift.Text.Split
import Sift.Time.Literal

/-!
# From the text of a value to a leaf

A condition needs a field with a declared type, indexed, of a type that can be filtered, and an
operator that the type allows. The text of the value is then read by the type: numbers for numeric
types, dates for date fields, the text itself for the others; the presence operator takes `true` or
`false`. A text with slashes is a list, which not every operator takes.

* `Context`: what the reading of a filter depends on.
* `Context.operand`: the value or the values written in a text.
* `Context.leaf`: the leaf of a condition.
-/

namespace Sift

/-- What the reading of a filter depends on: the fields, the zone of its dates, and the present
instant. -/
structure Context where
  lookup : Lookup
  zone : Time.Zone
  now : Time.Instant

/-- `true` or `false`, in either case. -/
def readFlag? (s : String) : Option Bool :=
  if sameLetters s "true" then some true
  else if sameLetters s "false" then some false
  else none

/-- The result, or the error if there is none. -/
def orError {α : Type} (e : QueryError) : Option α → QueryResult α
  | some a => .ok a
  | none => .error e

/-- The error, unless the requirement is met. -/
def require (e : QueryError) (met : Bool) : QueryResult Unit := if met then .ok () else .error e

namespace Context

/-- One value of a condition. -/
def scalar (ctx : Context) (field : String) (type : FieldType) (op : Operator) (text : String) :
    QueryResult Scalar :=
  if op = .present then
    orError (.invalidValue text field .notBoolean) ((readFlag? text).map .bool)
  else if type = .date then
    orError .invalidDate ((Time.resolveDate? ctx.now ctx.zone text).map .text)
  else if type.isNumeric then
    orError (.invalidValue text field (.notNumber type)) ((Decimal.readFinite? text).map .number)
  else .ok (.text text)

/-- One item of the list `text`. -/
def item (ctx : Context) (field : String) (type : FieldType) (op : Operator) (text : String)
    (piece : List Char) : QueryResult Scalar :=
  match Text.trim piece with
  | [] => .error (.invalidValue text field .emptyItem)
  | cs => ctx.scalar field type op (String.ofList cs)

/-- Whether the text of a value is a list. -/
def isListText (text : String) : Bool := text.toList.contains '/'

/-- The value or the values written in a text, if the operator takes as many. -/
def operand (ctx : Context) (field : String) (type : FieldType) (op : Operator) (text : String) :
    QueryResult Operand :=
  if isListText text then do
    require (.listNotAllowed op) op.acceptsList
    let items ← (Text.splitOnChar '/' text.toList).mapM (ctx.item field type op text)
    return .list items
  else do
    let value ← ctx.scalar field type op text
    return .single value

/-- **The leaf that compares a known field** with the value written in a text. -/
def leaf (ctx : Context) (field : String) (op : Operator) (text : String) : QueryResult Leaf := do
  let declared ← orError (.untypedField field) (ctx.lookup.declared field)
  require (.unindexedField field) (ctx.lookup.indexed field)
  let type ← orError (.unfilterableField declared field)
    ((FieldType.ofName? declared).filter FieldType.isFilterable)
  require (.operatorNotAllowed op declared) (type.allows op)
  let operand ← ctx.operand field type op text
  return ⟨field, op, operand⟩

end Context

end Sift

import Sift.Field.Catalog
import Sift.Error

/-!
# Checking a leaf

Trees need not come from a filter text, so a leaf is checked against the fields before it is
lowered. It needs a known field with a declared type, indexed, of a type that can be filtered, an
operator that the type allows, and one value unless the operator takes several. The first
requirement that is not met decides the error.

* `Lookup.check`: the type of the field, or that error.
-/

namespace Sift

/-- **Checks a leaf** with the given field and operator, and with one or several values. -/
def Lookup.check (lookup : Lookup) (field : String) (op : Operator) (isList : Bool) :
    QueryResult FieldType :=
  if ¬lookup.contains field then .error (.unknownField field)
  else
    match lookup.declared field with
    | none => .error (.untypedField field)
    | some declared =>
      if ¬lookup.indexed field then .error (.unindexedField field)
      else
        match (FieldType.ofName? declared).filter FieldType.isFilterable with
        | none => .error (.unfilterableField declared field)
        | some type =>
          if ¬type.allows op then .error (.operatorNotAllowed op declared)
          else if isList ∧ ¬op.acceptsList then .error (.listNotAllowed op)
          else .ok type

end Sift

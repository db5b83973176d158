import Sift.Clause.Basic
import Sift.Condition.Filter
import Sift.Field.Check

/-!
# From conditions to clauses

A group becomes a boolean clause over its conditions. A leaf becomes a boolean clause with one part,
around which a nested clause stands if the field is dotted. Trees need not come from a filter text,
so every leaf is checked against the fields, and the depth of groups against the limit of filters.

* `Leaf.lower`, `Condition.lower`: the clause of a leaf and of a tree.
-/

namespace Sift

namespace Leaf

/-- The error of a leaf whose value does not tell presence. -/
def notBoolean (l : Leaf) : QueryError :=
  .invalidValue ("/".intercalate (l.operand.values.map Scalar.shown)) l.field .notBoolean

/-- The test on the field of a known type, and how it counts. -/
def test (l : Leaf) (type : FieldType) : QueryResult (Occur × Clause) :=
  match l.operator with
  | .present =>
    match l.operand.values with
    | [.bool true] => .ok (.must, .present l.field)
    | [.bool false] => .ok (.mustNot, .present l.field)
    | _ => .error l.notBoolean
  | .eq => .ok (.must, equality)
  | .ne => .ok (.mustNot, equality)
  | .gt => range .gt
  | .ge => range .gte
  | .lt => range .lt
  | .le => range .lte
where
  /-- One value of an unordered type is a term, anything else a choice of terms. -/
  equality : Clause :=
    match l.operand with
    | .single v => if type.isOrdered then .terms l.field [v] else .term l.field v
    | .list vs => .terms l.field vs
  /-- A range bounded by a single value. -/
  range (bound : Bound) : QueryResult (Occur × Clause) :=
    match l.operand with
    | .single v => .ok (.must, .range l.field bound v)
    | .list _ => .error (.listNotAllowed l.operator)

/-- Puts a clause on a dotted field inside the nested documents of its parent path. -/
def nest (l : Leaf) (query : Clause) : Clause :=
  match splitPath? l.field with
  | some (path, _) => .nested path query
  | none => query

/-- The clause of a leaf. -/
def lower (lookup : Lookup) (l : Leaf) : QueryResult Clause := do
  let type ← lookup.check l.field l.operator l.operand.isList
  let (occur, clause) ← l.test type
  return l.nest (.bool occur [clause])

end Leaf

/-- How the conditions of a group count. -/
def Gate.occur : Gate → Occur
  | .and => .must
  | .or => .should

namespace Condition

mutual

/-- The clause of a condition that lies in `depth` groups. -/
def lowerAt (lookup : Lookup) (depth : Nat) : Condition → QueryResult Clause
  | .leaf l => l.lower lookup
  | .group gate children =>
    if depth ≤ Filter.maxDepth then do
      let parts ← lowerAll lookup (depth + 1) children
      return .bool gate.occur parts
    else .error .tooDeep

/-- The clauses of several conditions, up to the first error. -/
def lowerAll (lookup : Lookup) (depth : Nat) : List Condition → QueryResult (List Clause)
  | [] => .ok []
  | c :: rest => do
    let part ← lowerAt lookup depth c
    let parts ← lowerAll lookup depth rest
    return part :: parts

end

/-- **The clause of a condition tree.** -/
def lower (lookup : Lookup) (c : Condition) : QueryResult Clause := c.lowerAt lookup 0

end Condition

end Sift

import Sift.Clause.Lower

/-!
# From clauses back to conditions

A clause shows which tree it was made from. A boolean clause around a single test is a comparison,
with or without a nested clause around it; any other boolean clause is a group. No catalog is
needed.

* `Clause.ofJson?`: the clause that a JSON value stands for.
* `Condition.ofClause?`, `Condition.ofClauseJson?`: the condition that a clause was made from.
-/

namespace Sift

/-- The bound with this key. -/
def Bound.ofKey? : String → Option Bound
  | "gt" => some .gt
  | "gte" => some .gte
  | "lt" => some .lt
  | "lte" => some .lte
  | _ => none

/-- The ordering operator that sets a bound. -/
def Bound.operator : Bound → Operator
  | .gt => .gt
  | .gte => .ge
  | .lt => .lt
  | .lte => .le

/-- How the parts under this key count. -/
def Occur.ofKey? : String → Option Occur
  | "must" => some .must
  | "must_not" => some .mustNot
  | "should" => some .should
  | _ => none

/-- The gate of a group whose conditions count so. -/
def Occur.gate? : Occur → Option Gate
  | .must => some .and
  | .should => some .or
  | .mustNot => none

namespace Clause

mutual

/-- The clause that a JSON value stands for. -/
def ofJson? : Json → Option Clause
  | .obj [("term", .obj [(field, .obj [("value", v)])])] => (Scalar.ofJson? v).map (.term field)
  | .obj [("terms", .obj [(field, .arr vs)])] => (vs.mapM Scalar.ofJson?).map (.terms field)
  | .obj [("range", .obj [(field, .obj [(key, v)])])] => do
    some (.range field (← Bound.ofKey? key) (← Scalar.ofJson? v))
  | .obj [("exists", .obj [("field", .str field)])] => some (.present field)
  | .obj [("nested", .obj [("path", .str path), ("query", query)])] =>
    (ofJson? query).map (.nested path)
  | .obj [("bool", .obj [(key, .arr parts)])] => do
    let occur ← Occur.ofKey? key
    let clauses ← ofJsonAll? parts
    some (.bool occur clauses)
  | _ => none

/-- The clauses that several JSON values stand for. -/
def ofJsonAll? : List Json → Option (List Clause)
  | [] => some []
  | v :: rest => do
    let clause ← ofJson? v
    let clauses ← ofJsonAll? rest
    some (clause :: clauses)

end

end Clause

/-- One value stands alone. -/
def Operand.ofValues : List Scalar → Operand
  | [v] => .single v
  | vs => .list vs

/-- The comparison made by a test that counts in the given way. -/
def Leaf.ofTest? : Occur → Clause → Option Leaf
  | .must, .term field v => some ⟨field, .eq, .single v⟩
  | .mustNot, .term field v => some ⟨field, .ne, .single v⟩
  | .must, .terms field vs => some ⟨field, .eq, .ofValues vs⟩
  | .mustNot, .terms field vs => some ⟨field, .ne, .ofValues vs⟩
  | .must, .range field bound v => some ⟨field, bound.operator, .single v⟩
  | .must, .present field => some ⟨field, .present, .single (.bool true)⟩
  | .mustNot, .present field => some ⟨field, .present, .single (.bool false)⟩
  | _, _ => none

/-- The comparison that a boolean clause around a single test stands for. -/
def Leaf.ofClause? : Clause → Option Leaf
  | .bool occur [test] => Leaf.ofTest? occur test
  | _ => none

namespace Condition

mutual

/-- **The condition that a clause was made from.** -/
def ofClause? : Clause → Option Condition
  | .nested _ query => (Leaf.ofClause? query).map .leaf
  | .bool occur parts =>
    match Leaf.ofClause? (.bool occur parts) with
    | some l => some (.leaf l)
    | none => do
      let gate ← occur.gate?
      let children ← ofClauses? parts
      some (.group gate children)
  | _ => none

/-- The conditions that several clauses were made from. -/
def ofClauses? : List Clause → Option (List Condition)
  | [] => some []
  | clause :: rest => do
    let c ← ofClause? clause
    let cs ← ofClauses? rest
    some (c :: cs)

end

/-- The condition that a clause given as JSON was made from. -/
def ofClauseJson? (v : Json) : Option Condition := (Clause.ofJson? v).bind ofClause?

end Condition

end Sift

import Sift.Condition.Json

/-!
# Search clauses

The query language of the search engine, as far as filters need it.

* `Clause`: the clauses.
* `Clause.toJson`: a clause as the engine takes it.
-/

namespace Sift

/-- How the parts of a boolean clause count. -/
inductive Occur where
  /-- All have to hold. -/
  | must
  /-- None may hold. -/
  | mustNot
  /-- At least one has to hold. -/
  | should
deriving Repr, DecidableEq

/-- The key of the parts in a boolean clause. -/
def Occur.key : Occur → String
  | .must => "must"
  | .mustNot => "must_not"
  | .should => "should"

/-- A clause of a query. -/
inductive Clause where
  /-- The field has the value. -/
  | term (field : String) (value : Scalar)
  /-- The field has one of the values. -/
  | terms (field : String) (values : List Scalar)
  /-- The field lies on one side of the value. -/
  | range (field : String) (bound : Bound) (value : Scalar)
  /-- The field is there. -/
  | present (field : String)
  /-- Some nested document at the path matches. -/
  | nested (path : String) (query : Clause)
  /-- A boolean combination. -/
  | bool (occur : Occur) (parts : List Clause)
deriving Repr, Inhabited

namespace Clause

mutual

/-- The JSON value of a clause. -/
def toJson : Clause → Json
  | .term field value => .obj [("term", .obj [(field, .obj [("value", value.toJson)])])]
  | .terms field values => .obj [("terms", .obj [(field, .arr (values.map Scalar.toJson))])]
  | .range field bound value => .obj [("range", .obj [(field, .obj [(bound.key, value.toJson)])])]
  | .present field => .obj [("exists", .obj [("field", .str field)])]
  | .nested path query => .obj [("nested", .obj [("path", .str path), ("query", toJson query)])]
  | .bool occur parts => .obj [("bool", .obj [(occur.key, .arr (toJsonAll parts))])]

/-- The JSON values of several clauses. -/
def toJsonAll : List Clause → List Json
  | [] => []
  | c :: rest => toJson c :: toJsonAll rest

end

end Clause

end Sift

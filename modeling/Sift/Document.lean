import Sift.Aggregation
import Sift.Clause.Lower
import Sift.Options.Basic

/-!
# Request documents

The document sent to the search engine holds the clause of the filter and what the options ask for
besides.

* `Document`: the three shapes.
* `Document.ofCondition`: the document of a condition tree.
-/

namespace Sift

/-- The aggregation of a document. -/
structure AggregationBody where
  kind : Aggregation
  field : String
  fixedInterval : String
  histogramInterval : Int
deriving Repr, DecidableEq

/-- A document for the search engine. -/
inductive Document where
  | count (query : Clause)
  | search (query : Clause) (size : Int)
  | aggregation (query : Clause) (body : AggregationBody) (size : Int)
deriving Repr

/-- The aggregation under its name in the answer. Only histograms have a bucket width. -/
def AggregationBody.toJson (b : AggregationBody) : Json :=
  let width : List (String × Json) :=
    match b.kind with
    | .dateHistogram => [("fixed_interval", .str b.fixedInterval)]
    | .histogram => [("interval", .int b.histogramInterval)]
    | _ => []
  .obj [("agg_name", .obj [(b.kind.name, .obj (("field", .str b.field) :: width))])]

namespace Document

/-- The clause of the filter. -/
def query : Document → Clause
  | .count q => q
  | .search q _ => q
  | .aggregation q _ _ => q

/-- The JSON value of a document. -/
def toJson : Document → Json
  | .count q => .obj [("query", q.toJson)]
  | .search q size => .obj [("query", q.toJson), ("size", .int size)]
  | .aggregation q body size =>
    .obj [("aggs", body.toJson), ("query", q.toJson), ("size", .int size)]

end Document

namespace Options

/-- A text that is there and not empty. -/
def nonempty? (s : Option String) : Option String := s.filter fun s => !s.isEmpty

/-- The aggregation that the options ask for. -/
def aggregationBody (o : Options) (lookup : Lookup) : QueryResult AggregationBody :=
  match nonempty? o.aggregationType, nonempty? o.aggregationField with
  | some name, some field => do
    let kind ← lookup.checkAggregation name field
    return ⟨kind, field, o.fixedInterval, o.histogramInterval⟩
  | _, _ => .error .incompleteAggregation

end Options

/-- **The document of a condition tree.** Options are checked first, then the tree, then the
aggregation. -/
def Document.ofCondition (lookup : Lookup) (o : Options) (c : Condition) :
    QueryResult Document := do
  o.validate
  let query ← c.lower lookup
  match o.queryType with
  | .count => return .count query
  | .search => return .search query o.size
  | .aggregation =>
    let body ← o.aggregationBody lookup
    return .aggregation query body o.size

end Sift

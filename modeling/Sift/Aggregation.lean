import Sift.Field.Catalog
import Sift.Error

/-!
# Aggregations

* `Aggregation`: the kinds, and the field types each can run on.
* `Lookup.checkAggregation`: whether an aggregation can run on a field.
-/

namespace Sift

/-- A kind of aggregation. -/
inductive Aggregation where
  | avg
  | sum
  | min
  | max
  | stats
  | extendedStats
  | valueCount
  | percentiles
  | cardinality
  | terms
  | histogram
  | dateHistogram
  | nested
deriving Repr, DecidableEq

namespace Aggregation

/-- All kinds. -/
def all : List Aggregation :=
  [.avg, .sum, .min, .max, .stats, .extendedStats, .valueCount, .percentiles, .cardinality, .terms,
   .histogram, .dateHistogram, .nested]

/-- The name of the kind. -/
def name : Aggregation → String
  | .avg => "avg"
  | .sum => "sum"
  | .min => "min"
  | .max => "max"
  | .stats => "stats"
  | .extendedStats => "extended_stats"
  | .valueCount => "value_count"
  | .percentiles => "percentiles"
  | .cardinality => "cardinality"
  | .terms => "terms"
  | .histogram => "histogram"
  | .dateHistogram => "date_histogram"
  | .nested => "nested"

/-- The kind with this name. -/
def ofName? (s : String) : Option Aggregation := all.find? fun a => a.name == s

/-- Whether the aggregation can run on fields of the type. -/
def supports (a : Aggregation) (type : FieldType) : Bool :=
  match a with
  | .avg | .sum | .stats | .extendedStats | .percentiles | .histogram => type.isNumeric
  | .min | .max => type.isOrdered
  | .valueCount | .cardinality | .terms => type.isFilterable
  | .dateHistogram => type == .date
  | .nested => type == .nested

end Aggregation

/-- The aggregation of that name, if it can run on the field. -/
def Lookup.checkAggregation (lookup : Lookup) (name field : String) : QueryResult Aggregation :=
  match lookup.declared field with
  | none => .error (.fieldNotFound field)
  | some declared =>
    match Aggregation.ofName? name with
    | none => .error (.unknownAggregation name)
    | some a =>
      if (FieldType.ofName? declared).any a.supports then .ok a
      else .error (.aggregationNotAllowed name declared)

end Sift

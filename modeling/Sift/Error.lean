import Sift.Token
import Sift.Field.Type

/-!
# Query errors

Every way in which a filter, its options or its dates can be refused. Reading stops at the first
error, so a request has at most one.

* `QueryError`: the causes.
* `QueryError.code`, `QueryError.message`: what the caller is told.
-/

namespace Sift

/-- Why a value does not fit its field. -/
inductive ValueProblem where
  | emptyItem
  | notBoolean
  | notNumber (type : FieldType)
deriving Repr, DecidableEq

/-- The problem in words. -/
def ValueProblem.reason : ValueProblem → String
  | .emptyItem => "empty item in value list"
  | .notBoolean => "expected true or false"
  | .notNumber type => "expected a number for " ++ type.name

/-- The cause for which a request is refused. -/
inductive QueryError where
  /-- More than one semicolon outside quotes. -/
  | manySeparators
  /-- A closing parenthesis without an opening one. -/
  | unmatchedClose
  /-- The text ends inside a group. -/
  | unclosedGroup
  /-- Groups nest beyond the limit. -/
  | tooDeep
  /-- Something else stands where the operator of a condition has to be. -/
  | operatorExpected (field : String) (found : Token)
  /-- Something else stands where the value of a condition has to be. -/
  | valueExpected (field : String) (operator : Operator) (found : Token)
  /-- The text ends after the field of a condition. -/
  | operatorMissing (field : String)
  /-- The text ends after the operator of a condition. -/
  | valueMissing (field : String) (operator : Operator)
  /-- A part of an option clause that is no `key = value`. -/
  | invalidOption (fragment : String)
  /-- A field the catalog does not have. -/
  | unknownField (field : String)
  /-- A condition that starts with its operator. -/
  | fieldMissing (operator : Operator)
  /-- A word or quoted text where the operator of a condition has to be. -/
  | invalidOperator
  | operatorNotAllowed (operator : Operator) (declared : String)
  /-- Several values after an operator that takes one. -/
  | listNotAllowed (operator : Operator)
  | untypedField (field : String)
  | unindexedField (field : String)
  | unfilterableField (declared field : String)
  | invalidValue (value field : String) (problem : ValueProblem)
  | invalidDate
  | invalidZone
  | invalidFixedInterval
  | invalidSize
  | invalidInterval
  | incompleteAggregation
  | unknownAggregation (name : String)
  | aggregationNotAllowed (name declared : String)
  /-- An aggregation over a field without a declared type. -/
  | fieldNotFound (field : String)
  | unknownQueryType (name : String)
deriving Repr, DecidableEq

namespace QueryError

/-- The stable code of an error. -/
def code : QueryError → String
  | .manySeparators | .unmatchedClose | .unclosedGroup | .tooDeep => "INVALID_QUERY_FORMAT"
  | .operatorExpected .. | .valueExpected .. => "INVALID_QUERY_FORMAT"
  | .operatorMissing _ | .valueMissing .. => "INVALID_QUERY_FORMAT"
  | .invalidOption _ => "INVALID_OPTION"
  | .unknownField _ => "INVALID_FIELD"
  | .fieldMissing _ => "MISSING_FIELD"
  | .invalidOperator => "INVALID_OPERATOR"
  | .operatorNotAllowed .. => "OPERATOR_NOT_ALLOWED"
  | .listNotAllowed _ => "INVALID_OPERATOR_FOR_VALUE"
  | .untypedField _ => "FIELD_TYPE_NOT_DEFINED"
  | .unindexedField _ => "FIELD_NOT_INDEXED"
  | .unfilterableField .. => "INVALID_FIELD_TYPE"
  | .invalidValue .. => "INVALID_VALUE"
  | .invalidDate => "INVALID_DATE_FORMAT"
  | .invalidZone => "INVALID_TIMEZONE_FORMAT"
  | .invalidFixedInterval => "INVALID_FIXED_INTERVAL"
  | .invalidSize => "INVALID_SIZE"
  | .invalidInterval => "INVALID_INTERVAL"
  | .incompleteAggregation => "MISSING_PARAMETERS"
  | .unknownAggregation _ => "INVALID_AGGREGATION_TYPE"
  | .aggregationNotAllowed .. => "AGGREGATION_NOT_ALLOWED"
  | .fieldNotFound _ => "FIELD_NOT_FOUND"
  | .unknownQueryType _ => "INVALID_QUERY_TYPE"

/-- The error in words. -/
def message : QueryError → String
  | .manySeparators => "Only one ';' separating filter and options is allowed."
  | .unmatchedClose => "Unexpected ')' without a matching '('."
  | .unclosedGroup => "Unterminated '(' at end of input."
  | .tooDeep => "Parentheses nested too deeply."
  | .operatorExpected field found => s!"Expected an operator after {field}, found {found.shown}."
  | .valueExpected field op found =>
    s!"Expected a value after {field} {op.symbol}, found {found.shown}."
  | .operatorMissing field => s!"Condition on {field} is missing an operator and value."
  | .valueMissing field op => s!"Condition {field} {op.symbol} is missing a value."
  | .invalidOption fragment =>
    s!"Invalid option '{fragment}'. Options should be key=value pairs separated by ','."
  | .unknownField field => s!"Invalid field {field} found."
  | .fieldMissing op => s!"Field is missing before operator {op.symbol}."
  | .invalidOperator => "Invalid operator found."
  | .operatorNotAllowed op declared =>
    s!"Operator {op.symbol} is not allowed for field type {declared}."
  | .listNotAllowed op => s!"Operator {op.symbol} cannot be used with multiple values."
  | .untypedField field => s!"Field type for {field} is not defined."
  | .unindexedField field => s!"Field {field} is present but not indexed."
  | .unfilterableField declared field => s!"Invalid field type {declared} for field {field}."
  | .invalidValue value field problem =>
    s!"Invalid value {value} for field {field}: {problem.reason}."
  | .invalidDate =>
    "Date format should be YYYY-MM-DD HH:mm:ss.SSS, now or today with an optional offset like now-2d."
  | .invalidZone => "Time zone format should be Z or ±HH:MM."
  | .invalidFixedInterval =>
    "fixed_interval format should be a number followed by s (seconds), m (minutes), h (hours), " ++
      "d (days), w (weeks), M (months), or y (years)."
  | .invalidSize => "Size must be a non-negative integer."
  | .invalidInterval => "Interval must be a positive integer and greater than 0."
  | .incompleteAggregation => "Missing aggregation type or field."
  | .unknownAggregation name => s!"Aggregation type {name} is not valid."
  | .aggregationNotAllowed name declared =>
    s!"Aggregation type {name} is not allowed on field type {declared}."
  | .fieldNotFound field => s!"Field {field} not found in the mapping."
  | .unknownQueryType name => s!"Invalid query type {name}."

end QueryError

/-- A result, or the error for which a request is refused. -/
abbrev QueryResult (α : Type) := Except QueryError α

end Sift

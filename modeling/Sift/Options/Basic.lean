import Sift.Error
import Sift.Text.DecimalDigit
import Sift.Text.Number

/-!
# Request options

* `QueryType`: the shape of the document a request asks for.
* `Options`: the options of a request and their defaults.
* `Options.set`: one option set by its key.
* `Options.validate`: the options a document can be made with.
-/

namespace Sift

/-- The shape of a document. -/
inductive QueryType where
  | search
  | count
  | aggregation
deriving Repr, DecidableEq, Inhabited

namespace QueryType

/-- All shapes. -/
def all : List QueryType := [.search, .count, .aggregation]

/-- The name of the shape. -/
def name : QueryType → String
  | .search => "search"
  | .count => "count"
  | .aggregation => "aggregation"

/-- The shape with this name. -/
def ofName? (s : String) : Option QueryType := all.find? fun t => t.name == s

end QueryType

/-- The options of a request. -/
structure Options where
  queryType : QueryType := .search
  aggregationType : Option String := none
  aggregationField : Option String := none
  /-- The bucket width of date histograms. -/
  fixedInterval : String := "1d"
  /-- The bucket width of histograms. -/
  histogramInterval : Int := 10
  /-- The number of hits. -/
  size : Int := 10
  /-- The zone of date literals, not yet read. -/
  timeZone : String := "Z"
deriving Repr, DecidableEq

namespace Options

/-- The options when nothing is set. -/
def default : Options := {}

instance : Inhabited Options := ⟨default⟩

/-- Sets the option with the given key. An unknown key changes nothing. -/
def set (o : Options) (key value : String) : QueryResult Options :=
  match key with
  | "queryType" =>
    match QueryType.ofName? value with
    | some t => .ok { o with queryType := t }
    | none => .error (.unknownQueryType value)
  | "aggregationType" => .ok { o with aggregationType := some value }
  | "aggregationField" => .ok { o with aggregationField := some value }
  | "fixed_interval" => .ok { o with fixedInterval := value }
  | "interval" =>
    match Text.readInt64? value with
    | some n => .ok { o with histogramInterval := n }
    | none => .error .invalidInterval
  | "size" =>
    match Text.readInt64? value with
    | some n => .ok { o with size := n }
    | none => .error .invalidSize
  | "timeZone" => .ok { o with timeZone := value }
  | _ => .ok o

/-- Digits of any script and the letter of a unit. -/
def isFixedInterval (s : String) : Bool :=
  let digits := s.toList.takeWhile Text.isDecimalDigit
  match s.toList.dropWhile Text.isDecimalDigit with
  | [unit] => !digits.isEmpty && ['s', 'm', 'h', 'd', 'w', 'M', 'y'].contains unit
  | _ => false

/-- Whether a document can be made with the options. -/
def validate (o : Options) : QueryResult Unit :=
  if ¬isFixedInterval o.fixedInterval then .error .invalidFixedInterval
  else if o.size < 0 then .error .invalidSize
  else if o.histogramInterval ≤ 0 then .error .invalidInterval
  else .ok ()

end Options

end Sift

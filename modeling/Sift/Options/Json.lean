import Sift.Options.Basic
import Sift.Json.Named

/-!
# Options as JSON

Options are an object in which every field may be missing and takes its default, or an array of the
values in order that may stop early.

* `Options.toJson`, `Options.ofJson?`: writing and reading options.
-/

namespace Sift

/-- A shape is named. -/
def QueryType.ofJson? (v : Json) : Option QueryType := v.name?.bind QueryType.ofName?

/-- Null, or a text. -/
def Json.nullableText? : Json → Option (Option String)
  | .null => some none
  | .str s => some (some s)
  | _ => none

namespace Options

/-- All options as an object. -/
def toJson (o : Options) : Json :=
  .obj
    [("aggregation_field", .ofText? o.aggregationField),
     ("aggregation_type", .ofText? o.aggregationType),
     ("fixed_interval", .str o.fixedInterval),
     ("histogram_interval", .int o.histogramInterval),
     ("query_type", .str o.queryType.name),
     ("size", .int o.size),
     ("time_zone", .str o.timeZone)]

/-- A part that may be missing and then takes a default. -/
def part? {α : Type} (read : Json → Option α) (fallback : α) : Option Json → Option α
  | some v => read v
  | none => some fallback

/-- Options from parts found by name and position. -/
def ofParts? (find : String → Nat → Option Json) : Option Options := do
  let queryType ← part? QueryType.ofJson? default.queryType (find "query_type" 0)
  let aggregationType ← part? Json.nullableText? default.aggregationType (find "aggregation_type" 1)
  let aggregationField ← part? Json.nullableText? default.aggregationField
    (find "aggregation_field" 2)
  let fixedInterval ← part? Json.text? default.fixedInterval (find "fixed_interval" 3)
  let histogramInterval ← part? Json.int64? default.histogramInterval (find "histogram_interval" 4)
  let size ← part? Json.int64? default.size (find "size" 5)
  let timeZone ← part? Json.text? default.timeZone (find "time_zone" 6)
  return ⟨queryType, aggregationType, aggregationField, fixedInterval, histogramInterval, size,
    timeZone⟩

/-- Options from an object or from an array of at most seven values. -/
def ofJson? : Json → Option Options
  | .obj fields => ofParts? fun key _ => fields.lookup key
  | .arr items => if items.length ≤ 7 then ofParts? fun _ i => items[i]? else none
  | _ => none

end Options

end Sift

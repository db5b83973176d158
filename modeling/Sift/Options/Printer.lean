import Sift.Options.Basic

/-!
# Writing option clauses

* `Options.toPairs`: the options that are set, by their keys.
* `Options.clauseText`: the clause with these pairs, all values in double quotes.
-/

namespace Sift.Options

/-- The options by their keys, those of aggregations only where they are set. -/
def toPairs (o : Options) : List (String × String) :=
  [("queryType", o.queryType.name), ("fixed_interval", o.fixedInterval),
   ("interval", toString o.histogramInterval), ("size", toString o.size),
   ("timeZone", o.timeZone)] ++
  (o.aggregationType.map fun s => ("aggregationType", s)).toList ++
  (o.aggregationField.map fun s => ("aggregationField", s)).toList

/-- A pair with its value in double quotes. -/
def pairText (p : String × String) : String := p.1 ++ " = \"" ++ p.2 ++ "\""

/-- **The option clause that sets these options.** -/
def clauseText (o : Options) : String := ",".intercalate (o.toPairs.map pairText)

end Sift.Options

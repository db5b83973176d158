import Sift.Document
import Sift.Options.Clause

/-!
# Requests

A request is a filter and, after a semicolon, an option clause. Compiling it gives the condition
tree of the filter and the document for the search engine.

* `splitRequest`: the two parts of a request.
* `Engine.compile`: the tree and the document.
-/

namespace Sift

/-- The filter and the option clause of a request, without the blanks around them. At most one
semicolon may stand outside quotes. -/
def splitRequest (input : String) : QueryResult (String × String) :=
  match Text.splitUnquoted ';' false input.toList with
  | [filter] => .ok (String.ofList (Text.trim filter), "")
  | [filter, clause] => .ok (String.ofList (Text.trim filter), String.ofList (Text.trim clause))
  | _ => .error .manySeparators

/-- The zone of date literals. -/
def Options.zone (o : Options) : QueryResult Time.Zone :=
  orError .invalidZone (Time.Zone.read? o.timeZone)

/-- What requests are compiled against: the fields, and the options a request starts from. -/
structure Engine where
  lookup : Lookup
  defaults : Options

/-- A compiled request. -/
structure Compiled where
  tree : Condition
  document : Document

/-- **Compiles a request** at an instant. -/
def Engine.compile (e : Engine) (now : Time.Instant) (input : String) : QueryResult Compiled := do
  let (filter, clause) ← splitRequest input
  let options ← Options.ofClause clause e.defaults
  let zone ← options.zone
  let tree ← Filter.ofText ⟨e.lookup, zone, now⟩ filter
  let document ← Document.ofCondition e.lookup options tree
  return ⟨tree, document⟩

end Sift

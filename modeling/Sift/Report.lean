import Sift.Json.Basic
import Sift.Request

/-!
# Answers as JSON

* `Report`: a condition tree and a document, which need not be one of ours.
* `Compiled.report`: what a compiled request answers.
* `QueryError.toJson`: what a refused request answers.
-/

namespace Sift

/-- A condition tree together with the JSON value of a document. -/
structure Report where
  tree : Condition
  document : Json

namespace Report

/-- The object with the two parts. -/
def toJson (r : Report) : Json := .obj [("conditionTree", r.tree.toJson), ("query", r.document)]

/-- A report from its two parts. -/
def ofParts? (tree document : Json) : Option Report :=
  (Condition.ofJson? tree).map fun t => ⟨t, document⟩

/-- A report from an object that has both parts, or from the array of the two. -/
def ofJson? : Json → Option Report
  | .obj fields => do ofParts? (← fields.lookup "conditionTree") (← fields.lookup "query")
  | .arr [tree, document] => ofParts? tree document
  | _ => none

end Report

/-- The report of a compiled request. -/
def Compiled.report (c : Compiled) : Report := ⟨c.tree, c.document.toJson⟩

/-- The code and the message of an error. -/
def QueryError.toJson (e : QueryError) : Json :=
  .obj [("errorCode", .str e.code), ("message", .str e.message)]

end Sift

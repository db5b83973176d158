import Sift.Clause.Basic

/-!
# What conditions and clauses mean

Conditions and clauses are statements about documents. An interpretation says what the tests on
single fields mean and which documents are nested in which; the rest follows. A clause is sent as
JSON, and there its keys say what it means.

* `Interpretation`: the meaning of tests.
* `Condition.Holds`, `Clause.Holds`: the meaning of condition trees and of clauses.
* `Json.Holds`: the meaning of a clause that is given as JSON.
-/

namespace Sift

/-- The value that a test is made with. Of a number that is not finite nothing is left, as JSON does
not have it. -/
def Scalar.written? : Scalar → Option Scalar
  | .bool b => some (.bool b)
  | .number x => if x.isFinite then some (.number x) else none
  | .text s => some (.text s)

/-- The meaning of tests on documents. -/
structure Interpretation (Doc : Type) where
  /-- The field has the value. -/
  Equals : Doc → String → Option Scalar → Prop
  /-- The field lies on that side of the value. -/
  Within : Doc → String → Bound → Option Scalar → Prop
  /-- The field is there. -/
  Present : Doc → String → Prop
  /-- The second document is nested in the first at the path. -/
  Nested : Doc → String → Doc → Prop
  /-- What it means to ask for one of no clauses: this is left open. -/
  EmptyChoice : Doc → Prop

variable {Doc : Type}

namespace Leaf

/-- The comparison on a document that has the field itself. -/
def Tests (I : Interpretation Doc) (l : Leaf) (d : Doc) : Prop :=
  match l.operator, l.operand with
  | .eq, operand => ∃ v ∈ operand.values, I.Equals d l.field v.written?
  | .ne, operand => ¬∃ v ∈ operand.values, I.Equals d l.field v.written?
  | .gt, .single v => I.Within d l.field .gt v.written?
  | .ge, .single v => I.Within d l.field .gte v.written?
  | .lt, .single v => I.Within d l.field .lt v.written?
  | .le, .single v => I.Within d l.field .lte v.written?
  | .present, .single (.bool true) => I.Present d l.field
  | .present, .single (.bool false) => ¬I.Present d l.field
  | _, _ => False

/-- The comparison: on a dotted field, some document nested at the parent path has to pass. -/
def Holds (I : Interpretation Doc) (l : Leaf) (d : Doc) : Prop :=
  match splitPath? l.field with
  | some (path, _) => ∃ e, I.Nested d path e ∧ l.Tests I e
  | none => l.Tests I d

end Leaf

namespace Condition

mutual

/-- **The meaning of a condition.** -/
def Holds (I : Interpretation Doc) : Condition → Doc → Prop
  | .leaf l, d => l.Holds I d
  | .group .and children, d => AllHold I children d
  | .group .or children, d => SomeHold I children d

/-- All conditions hold. -/
def AllHold (I : Interpretation Doc) : List Condition → Doc → Prop
  | [], _ => True
  | c :: rest, d => Holds I c d ∧ AllHold I rest d

/-- At least one condition holds. -/
def SomeHold (I : Interpretation Doc) : List Condition → Doc → Prop
  | [], _ => False
  | c :: rest, d => Holds I c d ∨ SomeHold I rest d

end

end Condition

namespace Clause

mutual

/-- **The meaning of a clause.** -/
def Holds (I : Interpretation Doc) : Clause → Doc → Prop
  | .term field v, d => I.Equals d field v.written?
  | .terms field vs, d => ∃ v ∈ vs, I.Equals d field v.written?
  | .range field bound v, d => I.Within d field bound v.written?
  | .present field, d => I.Present d field
  | .nested path query, d => ∃ e, I.Nested d path e ∧ Holds I query e
  | .bool .must parts, d => AllHold I parts d
  | .bool .mustNot parts, d => ¬SomeHold I parts d
  | .bool .should parts, d => (parts = [] ∧ I.EmptyChoice d) ∨ SomeHold I parts d

/-- All clauses hold. -/
def AllHold (I : Interpretation Doc) : List Clause → Doc → Prop
  | [], _ => True
  | c :: rest, d => Holds I c d ∧ AllHold I rest d

/-- At least one clause holds. -/
def SomeHold (I : Interpretation Doc) : List Clause → Doc → Prop
  | [], _ => False
  | c :: rest, d => Holds I c d ∨ SomeHold I rest d

end

end Clause

namespace Json

mutual

/-- **The meaning of a clause that is given as JSON**, by its keys. A value of any other form holds
of nothing. -/
def Holds (I : Interpretation Doc) : Json → Doc → Prop
  | .obj [("term", .obj [(field, .obj [("value", v)])])], d => I.Equals d field (Scalar.ofJson? v)
  | .obj [("terms", .obj [(field, .arr vs)])], d => ∃ v ∈ vs, I.Equals d field (Scalar.ofJson? v)
  | .obj [("range", .obj [(field, .obj [("gt", v)])])], d => I.Within d field .gt (Scalar.ofJson? v)
  | .obj [("range", .obj [(field, .obj [("gte", v)])])], d =>
    I.Within d field .gte (Scalar.ofJson? v)
  | .obj [("range", .obj [(field, .obj [("lt", v)])])], d => I.Within d field .lt (Scalar.ofJson? v)
  | .obj [("range", .obj [(field, .obj [("lte", v)])])], d =>
    I.Within d field .lte (Scalar.ofJson? v)
  | .obj [("exists", .obj [("field", .str field)])], d => I.Present d field
  | .obj [("nested", .obj [("path", .str path), ("query", query)])], d =>
    ∃ e, I.Nested d path e ∧ Holds I query e
  | .obj [("bool", .obj [("must", .arr parts)])], d => AllHold I parts d
  | .obj [("bool", .obj [("must_not", .arr parts)])], d => ¬SomeHold I parts d
  | .obj [("bool", .obj [("should", .arr parts)])], d =>
    (parts = [] ∧ I.EmptyChoice d) ∨ SomeHold I parts d
  | _, _ => False

/-- All clauses hold. -/
def AllHold (I : Interpretation Doc) : List Json → Doc → Prop
  | [], _ => True
  | v :: rest, d => Holds I v d ∧ AllHold I rest d

/-- At least one clause holds. -/
def SomeHold (I : Interpretation Doc) : List Json → Doc → Prop
  | [], _ => False
  | v :: rest, d => Holds I v d ∨ SomeHold I rest d

end

end Json

end Sift

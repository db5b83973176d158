import Sift.Sorted
import Sift.Field.Type

/-!
# Field catalogs

A catalog knows the fields of an index by their dotted paths: the declared type of each, if it has
one, and whether it is indexed. Filters are read and lowered against the three questions of a
`Lookup`, which a catalog answers.

* `Lookup`: what a filter asks about a field.
* `Catalog`: fields sorted by path.
-/

namespace Sift

/-- What is known of one field. -/
structure FieldEntry where
  /-- The declared type, which need not be one this library knows. -/
  declared : Option String
  /-- Whether the field can be searched. -/
  indexed : Bool
deriving Repr, DecidableEq

/-- The questions a filter asks about fields. -/
structure Lookup where
  /-- Whether the path names a field. -/
  contains : String → Bool
  /-- The declared type of the field. -/
  declared : String → Option String
  /-- Whether the field can be searched. -/
  indexed : String → Bool

/-- The fields of an index, sorted by path. -/
structure Catalog where
  fields : List (String × FieldEntry)
  sorted : SortedKeys fields

namespace Catalog

/-- The catalog without fields. -/
def empty : Catalog := ⟨[], List.Pairwise.nil⟩

instance : Inhabited Catalog := ⟨empty⟩

/-- Sets the entry of a path; an earlier entry of the path is replaced. -/
def insert (c : Catalog) (path : String) (entry : FieldEntry) : Catalog :=
  ⟨insertSorted path entry c.fields, sortedKeys_insertSorted c.sorted⟩

/-- Adds a field of a declared type. -/
def addField (c : Catalog) (path declared : String) : Catalog := c.insert path ⟨some declared, true⟩

/-- Adds a field of a declared type that cannot be searched. -/
def addUnindexed (c : Catalog) (path declared : String) : Catalog :=
  c.insert path ⟨some declared, false⟩

/-- Adds a field without a declared type. -/
def addUntyped (c : Catalog) (path : String) : Catalog := c.insert path ⟨none, true⟩

/-- The number of fields. -/
def size (c : Catalog) : Nat := c.fields.length

/-- The entry of a path. -/
def get? (c : Catalog) (path : String) : Option FieldEntry := c.fields.lookup path

/-- The answers a catalog gives: a path it does not have has no type and is not indexed. -/
def lookup (c : Catalog) : Lookup where
  contains path := (c.get? path).isSome
  declared path := (c.get? path).bind FieldEntry.declared
  indexed path := ((c.get? path).map FieldEntry.indexed).getD false

end Catalog

end Sift

import Sift.Field.Catalog
import Sift.Files.Error
import Sift.Json.Reader

/-!
# Index mappings

A mapping document lists indices, and for each the properties of its documents under
`mappings.properties`. A property has a type, or properties of its own, or both; its fields are
listed under dotted paths. Where two properties have one path, the later in the order of keys
counts.

* `Mapping.ofJson`, `Mapping.ofText`: the catalog of a mapping document.
* `Mapping.load`: the catalog of a mapping file.
-/

namespace Sift

/-- Why a mapping document is refused. -/
inductive MappingError where
  /-- The file cannot be read. -/
  | unreadable (cause : FileError)
  /-- The text is no JSON. -/
  | notJson
  /-- The entry of an index has no properties. -/
  | noProperties (index : String)
deriving Repr, DecidableEq

/-- The error in words. A text that is no JSON has no further explanation. -/
def MappingError.message : MappingError → String
  | .unreadable cause => s!"Failed to read mapping: {cause.message}"
  | .notJson => "Failed to parse mapping"
  | .noProperties index => s!"Invalid mapping structure for index '{index}'"

namespace Mapping

/-- Whether a property says `false` under the key. -/
def isOff (key : String) (property : List (String × Json)) : Bool :=
  match property.lookup key with
  | some (.bool false) => true
  | _ => false

/-- The entry of a property: it needs a type or properties of its own. -/
def entry? (property : List (String × Json)) : Option FieldEntry :=
  let indexed := !isOff "index" property && !isOff "enabled" property
  match property.lookup "type", property.lookup "properties" with
  | some (.str declared), _ => some ⟨some declared, indexed⟩
  | _, some (.obj _) => some ⟨none, indexed⟩
  | _, _ => none

/-- The entries of a property that is an object. -/
def ownEntries (path : String) (property : List (String × Json)) : List (String × FieldEntry) :=
  match entry? property with
  | some e => [(path, e)]
  | none => []

mutual

/-- The entries of a property and of the properties below it. -/
def entries (path : String) : Json → List (String × FieldEntry)
  | .obj property => ownEntries path property ++ entriesBelow path property
  | _ => []

/-- The entries of the properties that a property has of its own. -/
def entriesBelow (path : String) : List (String × Json) → List (String × FieldEntry)
  | [] => []
  | (key, v) :: rest =>
    if key = "properties" then entriesOfProperties (path ++ ".") v else entriesBelow path rest

/-- The entries of the properties in an object; `lead` stands before each name. -/
def entriesOfProperties (lead : String) : Json → List (String × FieldEntry)
  | .obj properties => entriesOfAll lead properties
  | _ => []

/-- The entries of several properties. -/
def entriesOfAll (lead : String) : List (String × Json) → List (String × FieldEntry)
  | [] => []
  | (name, v) :: rest => entries (lead ++ name) v ++ entriesOfAll lead rest

end

/-- The properties of an index. -/
def properties? (index : Json) : Option (List (String × Json)) := do
  (← (← index.get? "mappings").get? "properties").fields?

/-- The entries of all indices, or the error of the first without properties. -/
def entriesOfIndices : List (String × Json) → Except MappingError (List (String × FieldEntry))
  | [] => .ok []
  | (name, index) :: rest =>
    match properties? index with
    | none => .error (.noProperties name)
    | some properties => do
      let later ← entriesOfIndices rest
      return entriesOfAll "" properties ++ later

/-- The catalog with entries set one after the other. -/
def catalogOf (entries : List (String × FieldEntry)) : Catalog :=
  entries.foldl (fun c e => c.insert e.1 e.2) .empty

/-- The catalog of a mapping document. -/
def ofJson : Json → Except MappingError Catalog
  | .obj indices => (entriesOfIndices indices).map catalogOf
  | _ => .error (.noProperties "<root>")

/-- The catalog of the text of a mapping document. -/
def ofText (text : String) : Except MappingError Catalog :=
  match Json.read? text with
  | some v => ofJson v
  | none => .error .notJson

/-- The catalog of a mapping file. -/
def load (read : FileReader) (path : String) : Except MappingError Catalog :=
  match read path with
  | .ok text => ofText text
  | .error cause => .error (.unreadable cause)

end Mapping

end Sift

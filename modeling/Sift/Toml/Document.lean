import Sift.Toml.Value

/-!
# Assembling TOML documents

A document is a sequence of headers and of keys with values. Keys and headers may be dotted and then
open the tables on their way. A table may be opened by one header only, a table opened by dotted
keys cannot be opened again by a header, and no key may be set twice.

* `Item`: what stands under a key while a document is assembled.
* `Statement`, `assemble?`: the table of a document.
-/

namespace Sift.Toml

/-- How a table came about. -/
inductive Form where
  /-- By a header of its own. -/
  | header
  /-- On the way of a longer header. -/
  | onTheWay
  /-- By dotted keys. -/
  | dotted
deriving Repr, DecidableEq

/-- What stands under a key. -/
inductive Item where
  | value (v : Value)
  | table (form : Form) (entries : List (String × Item))
  /-- Tables opened one after the other by double brackets, the last one first. -/
  | tables (reversed : List (List (String × Item)))
deriving Inhabited

/-- The entries of a table. -/
abbrev Entries := List (String × Item)

/-- Puts a new item under a key, in the place of the old one. -/
def replace (key : String) (item : Item) (entries : Entries) : Entries :=
  entries.map fun e => if e.1 = key then (key, item) else e

/-- Sets a value under a dotted key. The tables on the way must not have a header, and the last of
them has to come from dotted keys. -/
def insertAt? (v : Value) : (path : List String) → (key : String) → Entries → Option Entries
  | [], key, entries =>
    if (entries.lookup key).isSome then none else some (entries ++ [(key, .value v)])
  | k :: path, key, entries =>
    match entries.lookup k with
    | none => do
      let inner ← insertAt? v path key []
      some (entries ++ [(k, .table .dotted inner)])
    | some (.table form inner) =>
      if form = .header ∨ (path = [] ∧ form ≠ .dotted) then none
      else do
        let inner ← insertAt? v path key inner
        some (replace k (.table form inner) entries)
    | some (.tables (last :: earlier)) =>
      if path = [] then none
      else do
        let last ← insertAt? v path key last
        some (replace k (.tables (last :: earlier)) entries)
    | some _ => none

/-- Changes the table that a header path leads to; a path through several tables leads through the
last. -/
def modifyAt? (f : Entries → Option Entries) : (path : List String) → Entries → Option Entries
  | [], entries => f entries
  | k :: path, entries =>
    match entries.lookup k with
    | some (.table form inner) => do
      let inner ← modifyAt? f path inner
      some (replace k (.table form inner) entries)
    | some (.tables (last :: earlier)) => do
      let last ← modifyAt? f path last
      some (replace k (.tables (last :: earlier)) entries)
    | _ => none

/-- Changes the table before the last part of a header path, opening tables on the way. -/
def openParent? (f : Entries → Option Entries) : (parents : List String) → Entries → Option Entries
  | [], entries => f entries
  | k :: path, entries =>
    match entries.lookup k with
    | none => do
      let inner ← openParent? f path []
      some (entries ++ [(k, .table .onTheWay inner)])
    | some (.table form inner) => do
      let inner ← openParent? f path inner
      some (replace k (.table form inner) entries)
    | some (.tables (last :: earlier)) => do
      let last ← openParent? f path last
      some (replace k (.tables (last :: earlier)) entries)
    | some _ => none

/-- Opens the table of a header. -/
def openTable? (key : String) (entries : Entries) : Option Entries :=
  match entries.lookup key with
  | none => some (entries ++ [(key, .table .header [])])
  | some (.table .onTheWay inner) => some (replace key (.table .header inner) entries)
  | some _ => none

/-- Opens one more table of a header in double brackets. -/
def openNextTable? (key : String) (entries : Entries) : Option Entries :=
  match entries.lookup key with
  | none => some (entries ++ [(key, .tables [[]])])
  | some (.tables earlier) => some (replace key (.tables ([] :: earlier)) entries)
  | some _ => none

/-- A statement of a document. -/
inductive Statement where
  /-- A header: the tables on its way, its last part, and whether it is in double brackets. -/
  | header (parents : List String) (key : String) (double : Bool)
  /-- A value under a dotted key. -/
  | assign (path : List String) (key : String) (v : Value)

/-- The table so far and the path of the last header. -/
structure Assembly where
  root : Entries
  current : List String

/-- What one statement does. -/
def Assembly.step? (a : Assembly) : Statement → Option Assembly
  | .header parents key double => do
    let root ← openParent? (if double then openNextTable? key else openTable? key) parents a.root
    some ⟨root, parents ++ [key]⟩
  | .assign path key v => do
    let root ← modifyAt? (insertAt? v path key) a.current a.root
    some { a with root }

mutual

/-- The finished value of an item. -/
def Item.toValue : Item → Value
  | .value v => v
  | .table _ entries => .table (finished entries)
  | .tables reversed => .array (finishedTables reversed).reverse

/-- The finished fields of a table. -/
def finished : List (String × Item) → List (String × Value)
  | [] => []
  | (k, item) :: rest => (k, item.toValue) :: finished rest

/-- The finished tables of a list. -/
def finishedTables : List (List (String × Item)) → List Value
  | [] => []
  | entries :: rest => .table (finished entries) :: finishedTables rest

end

/-- The table of a document. -/
def assemble? (statements : List Statement) : Option Table :=
  (statements.foldlM Assembly.step? ⟨[], []⟩).map fun a => finished a.root

/-- The table of assignments alone, as inside braces. -/
def assembleInline? (assignments : List (List String × String × Value)) : Option Table :=
  (assignments.foldlM (fun entries (path, key, v) => insertAt? v path key entries) []).map finished

end Sift.Toml

import Sift.Files.Error
import Sift.Text.Split

/-!
# Directories in memory

A directory of text files held in memory, with the rules by which paths are followed, files read and
files written together with the folders on their way. Commands can run on it in place of a disk.

* `Directory`: files and folders by the names on their way.
* `Directory.read`: the text of a file.
* `Directory.write`: the directory with one more file.
-/

namespace Sift

/-- The files and the folders of a directory, each by the names that lead to it. -/
structure Directory where
  files : List (List String × String)
  folders : List (List String) := []

/-- What a path leads to. -/
inductive Place where
  | file (text : String)
  | folder
  | nothing
deriving Repr, DecidableEq

/-- The parts of a path between slashes. -/
def pathParts (path : String) : List String := (Text.splitOnChar '/' path.toList).map String.ofList

namespace Directory

/-- The directory with the given files, named by paths of plain names. -/
def ofFiles (files : List (String × String)) : Directory :=
  ⟨files.map fun (path, text) => (pathParts path, text), []⟩

/-- What is at the end of a way of plain names. -/
def placeAt (d : Directory) (way : List String) : Place :=
  match d.files.lookup way with
  | some text => .file text
  | none =>
    if way = [] ∨ d.files.any (fun f => way.isPrefixOf f.1) ∨ d.folders.any (way.isPrefixOf ·)
    then .folder else .nothing

/-- Follows the parts of a path from a folder. The result is the way to its end; `none` stands for a
folder outside the directory. Every part but the last has to lead to a folder. -/
def follow (d : Directory) :
    (here : Option (List String)) → List String → Except FileError (Option (List String))
  | here, [] => .ok here
  | here, part :: rest =>
    if part = "" ∨ part = "." then d.follow here rest
    else if part = ".." then
      match here with
      | none | some [] => d.follow none rest
      | some way => d.follow (some way.dropLast) rest
    else
      match here with
      | none => .error .missing
      | some way =>
        let next := way ++ [part]
        match d.placeAt next, rest with
        | .folder, _ => d.follow (some next) rest
        | _, [] => .ok (some next)
        | .file _, _ :: _ => .error .notFolder
        | .nothing, _ :: _ => .error .missing

/-- The way to the end of a path. Paths from the root of the disk lead nowhere. -/
def wayOf (d : Directory) (path : String) : Except FileError (Option (List String)) :=
  if path.isEmpty ∨ path.startsWith "/" then .error .missing
  else d.follow (some []) (pathParts path)

/-- The text of a file. -/
def read (d : Directory) : FileReader := fun path => do
  match ← d.wayOf path with
  | none => .error .isFolder
  | some way =>
    match d.placeAt way with
    | .file text => return text
    | .folder => .error .isFolder
    | .nothing => .error .missing

/-- Makes the folders of a path that are not there. A file on the way is an error, and another one
at the end of the path. -/
def makeFolders (d : Directory) :
    (here : Option (List String)) → List String → Except FileError Directory
  | _, [] => .ok d
  | here, part :: rest =>
    if part = "" ∨ part = "." then d.makeFolders here rest
    else if part = ".." then
      match here with
      | none | some [] => d.makeFolders none rest
      | some way => d.makeFolders (some way.dropLast) rest
    else
      match here with
      | none => .error .missing
      | some way =>
        let next := way ++ [part]
        match d.placeAt next with
        | .file _ => .error (if rest.isEmpty then .occupied else .notFolder)
        | .folder => d.makeFolders (some next) rest
        | .nothing => makeFolders { d with folders := next :: d.folders } (some next) rest

/-- The parts of a path before its last name. Slashes and single dots at the end do not count. -/
def parentParts (path : String) : List String :=
  let isPlain (part : String) : Bool := part != "" && part != "."
  ((pathParts path).filter isPlain).dropLast

/-- The path without slashes at its end. -/
def withoutEndSlash (path : String) : String :=
  String.ofList (path.toList.reverse.dropWhile (· == '/')).reverse

/-- The directory with a file written, after the folders on its way have been made. A path that ends
in a slash asks for a folder. -/
def write (d : Directory) (path text : String) : Except FileError Directory := do
  if path.isEmpty ∨ path.startsWith "/" then .error .missing
  let d ← d.makeFolders (some []) (parentParts path)
  match ← d.wayOf (withoutEndSlash path) with
  | none => .error .isFolder
  | some way =>
    match d.placeAt way, path.endsWith "/" with
    | .folder, _ => .error .isFolder
    | .nothing, true => .error .isFolder
    | .file _, true => .error .notFolder
    | _, false => return { d with files := (d.files.filter fun f => f.1 != way) ++ [(way, text)] }

end Directory

end Sift

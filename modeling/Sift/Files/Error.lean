/-!
# File errors

Why a file could not be read or written, in the words and numbers of the operating system.
-/

namespace Sift

/-- Why a file could not be read or written. -/
inductive FileError where
  /-- Nothing is there. -/
  | missing
  /-- A file is where a folder has to be made. -/
  | occupied
  /-- A file is on the way to the file. -/
  | notFolder
  /-- A folder is there. -/
  | isFolder
  /-- Anything else. -/
  | other (text : String)
deriving Repr, DecidableEq

/-- The error in words. -/
def FileError.message : FileError → String
  | .missing => "No such file or directory (os error 2)"
  | .occupied => "File exists (os error 17)"
  | .notFolder => "Not a directory (os error 20)"
  | .isFolder => "Is a directory (os error 21)"
  | .other text => text

/-- Reads files by their paths. -/
abbrev FileReader := String → Except FileError String

end Sift

import Offside.Text.Lines
import Offside.Text.Utf8

/-!
# Files

Files are named by paths and read as bytes, which a source text comes from. What can be read is
given as a function of the path, so that the files of a disk and those of a table serve alike.
-/

namespace Offside

/-- A path without empty parts and without parts `.`. -/
structure Path where
  /-- The slashes at the start: none, one, or two. -/
  root : String
  /-- The names from there on. -/
  names : List String
  deriving DecidableEq

namespace Path

/-- The slashes at the start of a path: two are kept, any other number is one. -/
def rootOf (slashes : Nat) : String :=
  match slashes with
  | 0 => ""
  | 2 => "//"
  | _ => "/"

/-- A path from its text. -/
def ofText (text : String) : Path :=
  let slashes := (text.toList.takeWhile (· = '/')).length
  ⟨rootOf slashes, (text.splitOn "/").filter fun name => !name.isEmpty && name != "."⟩

/-- The text of a path; the path with no names at all is `.`. -/
def text (path : Path) : String :=
  let text := path.root ++ String.intercalate "/" path.names
  if text.isEmpty then "." else text

/-- The path of a name within the directory at a path. -/
def within (path : Path) (name : String) : Path := { path with names := path.names ++ [name] }

end Path

/-- Why nothing can be read at a path. -/
inductive Files.Problem where
  /-- There is nothing. -/
  | missing
  /-- The path leads through something that is no directory. -/
  | notDirectory
  /-- There is a directory. -/
  | directory
  /-- Reading is not permitted. -/
  | denied
  deriving DecidableEq

namespace Files.Problem

/-- The number and the name of a problem. -/
def reason : Problem → String
  | missing => "[Errno 2] No such file or directory"
  | notDirectory => "[Errno 20] Not a directory"
  | directory => "[Errno 21] Is a directory"
  | denied => "[Errno 13] Permission denied"

/-- What is said about a problem at a path. -/
def message (problem : Problem) (path : Path) : String :=
  problem.reason ++ ": " ++ Text.quoted path.text

/-- Whether there is something at the path, though it cannot be read. -/
def isPresent : Problem → Bool
  | missing | notDirectory => false
  | directory | denied => true

end Files.Problem

/-- The files at hand. -/
structure Files where
  /-- The directory from which relative paths start. -/
  directory : Path
  /-- The bytes of the file at a path. -/
  read : Path → Except Files.Problem ByteArray

namespace Files

/-- Why no source text can be read at a path. -/
inductive Unreadable where
  | problem (problem : Problem)
  | flaw (flaw : Text.Utf8Flaw)

/-- What is said about a path without a source text. -/
def Unreadable.message (path : Path) : Unreadable → String
  | .problem trouble => trouble.message path
  | .flaw wrong => wrong.message

/-- Whether there is something at a path. -/
def holds (files : Files) (path : Path) : Bool :=
  match files.read path with
  | .ok _ => true
  | .error problem => problem.isPresent

/-- The text at a path. -/
def text (files : Files) (path : Path) : Except Unreadable String :=
  match files.read path with
  | .error problem => .error (.problem problem)
  | .ok bytes =>
    match Text.ofUtf8 bytes with
    | .error flaw => .error (.flaw flaw)
    | .ok chars => .ok (String.ofList chars)

/-- The source text at a path: every line ends with a line feed. -/
def source (files : Files) (path : Path) : Except Unreadable String := do
  let text ← files.text path
  return String.ofList (Text.unifyNewlines text.toList)

end Files

end Offside

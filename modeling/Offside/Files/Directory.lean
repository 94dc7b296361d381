import Offside.Files

/-!
# Directories as tables

A directory with everything below it, as a table from paths to contents. A path leads through it
name by name, and `..` leads back.
-/

namespace Offside

/-- A directory: the files and directories below it, by the names that lead to them. -/
structure Directory where
  /-- Each with its bytes if it is a file. -/
  entries : List (List String × Option ByteArray)

namespace Directory

/-- What is where some names lead to. -/
inductive Place where
  | file (bytes : ByteArray)
  | directory
  | nothing

/-- What the names lead to. -/
def place (directory : Directory) (names : List String) : Place :=
  match directory.entries.lookup names with
  | some (some bytes) => .file bytes
  | some none => .directory
  | none =>
    if names.isEmpty || directory.entries.any (names.isPrefixOf ·.1) then .directory else .nothing

/-- Follow names from a directory below this one, or from a directory outside if `position` is
`none`: nothing is known of that. -/
def walk (directory : Directory) (position : Option (List String)) :
    List String → Except Files.Problem (Option (List String))
  | [] => .ok position
  | name :: rest =>
    match position with
    | none => if name = ".." then walk directory none rest else .error .missing
    | some names =>
      match directory.place names with
      | .nothing => .error .missing
      | .file _ => .error .notDirectory
      | .directory =>
        if name = ".." then
          walk directory (if names.isEmpty then none else some names.dropLast) rest
        else walk directory (some (names ++ [name])) rest

/-- The bytes of the file at a path. -/
def read (directory : Directory) (path : Path) : Except Files.Problem ByteArray := do
  match ← directory.walk (if path.root.isEmpty then some [] else none) path.names with
  | none => .error .directory
  | some names =>
    match directory.place names with
    | .file bytes => .ok bytes
    | .directory => .error .directory
    | .nothing => .error .missing

/-- The files of a directory, which itself has the path `path`. -/
def files (directory : Directory) (path : Path) : Files := ⟨path, directory.read⟩

end Directory

end Offside

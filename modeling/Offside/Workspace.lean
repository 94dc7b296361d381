import Offside.Document

/-!
# Workspaces

A workspace holds the documents that an editor has open and, for each, the last text of it that was
a program. The outline of a document comes from that program, so it stays while the document is
being edited.
-/

namespace Offside

/-- The documents of an editor, by name. -/
structure Workspace where
  /-- The texts of the open documents. -/
  texts : List (String × String)
  /-- The last programs of the documents. -/
  programs : List (String × Program)

namespace Workspace

/-- The workspace without documents. -/
def empty : Workspace := ⟨[], []⟩

/-- The notices to show on a document, in place of those before. -/
abbrev Published := String × List Document.Notice

/-- The text of an open document. -/
def text? (workspace : Workspace) (name : String) : Option String := workspace.texts.lookup name

/-- The last program of a document. -/
def program? (workspace : Workspace) (name : String) : Option Program :=
  workspace.programs.lookup name

/-- The names of the documents with a program, in alphabetical order. -/
def known (workspace : Workspace) : List String :=
  Scopes.sorted (workspace.programs.map (·.1))

/-- Check a text as the document `name`, and remember its program if it has one. -/
def check (workspace : Workspace) (name text : String) :
    Except Overflow (List Document.Notice × Workspace) := do
  match ← Document.check name text with
  | (notices, some program) =>
    return (notices, { workspace with programs := Scope.bind name program workspace.programs })
  | (notices, none) => return (notices, workspace)

/-- Check a text as the document `name`, and publish the notices on it. -/
def refresh (workspace : Workspace) (name text : String) :
    Except Overflow (List Published × Workspace) := do
  let (notices, checked) ← workspace.check name text
  return ([(name, notices)], checked)

/-- The document `name` has the given text from now on. -/
def hold (workspace : Workspace) (name text : String) : Workspace :=
  { workspace with texts := Scope.bind name text workspace.texts }

/-- Give the document `name` a new text. -/
def edit (workspace : Workspace) (name text : String) :
    Except Overflow (List Published × Workspace) :=
  (workspace.hold name text).refresh name text

/-- Check an open document once more. -/
def recheck (workspace : Workspace) (name : String) :
    Except Overflow (List Published × Workspace) :=
  match workspace.text? name with
  | none => return ([], workspace)
  | some text => workspace.refresh name text

/-- Forget a document, and clear its notices. -/
def close (workspace : Workspace) (name : String) : List Published × Workspace :=
  ([(name, [])],
    ⟨workspace.texts.filter (·.1 != name), workspace.programs.filter (·.1 != name)⟩)

/-- The outline of a document, if a text of it was a program. -/
def symbols (workspace : Workspace) (name : String) : Option (List Document.Symbol) :=
  (workspace.program? name).map Document.symbols

/-- What an editor tells about a document. -/
inductive Event where
  /-- It was opened with a text, or it has a new text. -/
  | edit (name text : String)
  /-- It was saved. -/
  | save (name : String)
  /-- It was closed. -/
  | close (name : String)

/-- What comes of a check in a workspace, which stays as it is if the text cannot be checked. -/
def settle (workspace : Workspace) :
    Except Overflow (List Published × Workspace) → Except Overflow (List Published) × Workspace
  | .ok (published, checked) => (.ok published, checked)
  | .error overflow => (.error overflow, workspace)

/-- What is published on an event, unless a text cannot be checked, and the workspace after it. A
document keeps a text that cannot be checked. -/
def handle (workspace : Workspace) : Event → Except Overflow (List Published) × Workspace
  | .edit name text => (workspace.hold name text).settle (workspace.edit name text)
  | .save name => workspace.settle (workspace.recheck name)
  | .close name =>
    let (published, closed) := workspace.close name
    (.ok published, closed)

end Workspace

end Offside

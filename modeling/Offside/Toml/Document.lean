import Offside.Scope
import Offside.Toml.Number

/-!
# Reading configuration texts

A configuration text is a row of lines. A line binds a key to a value in the current table, or
declares the table that is current from there on: one that it names, or a new element of an array of
tables.

A table may be declared once, and a value between brackets or braces is complete as it stands. Marks
on keys keep track of both.
-/

namespace Offside.Toml

/-- Why an entry cannot be made. -/
inductive Clash where
  /-- The way leads through a value that is no table. -/
  | noTable
  /-- The name is taken. -/
  | taken

/-- Change the table that a key leads to, with the tables on the way as needed. An array of tables
is entered at its last element if `throughArrays`. -/
def Table.change (throughArrays : Bool) (f : Table → Except Clash Table) :
    Key → Table → Except Clash Table
  | [], table => f table
  | name :: rest, table =>
    match table.lookup name with
    | none => do
      let inner ← Table.change throughArrays f rest []
      return table ++ [(name, .table inner)]
    | some (.table entries) => do
      let inner ← Table.change throughArrays f rest entries
      return Scope.bind name (.table inner) table
    | some (.array items) =>
      match throughArrays, items.getLast? with
      | true, some (.table entries) => do
        let inner ← Table.change throughArrays f rest entries
        return Scope.bind name (.array (items.dropLast ++ [.table inner])) table
      | _, _ => .error .noTable
    | some _ => .error .noTable

/-- Bind a name that is not bound. -/
def Table.insert (name : String) (value : Value) (table : Table) : Except Clash Table :=
  if (table.lookup name).isSome then .error .taken else .ok (table ++ [(name, value)])

/-- Add an empty table to the array of a name. -/
def Table.append (name : String) (table : Table) : Except Clash Table :=
  match table.lookup name with
  | none => .ok (table ++ [(name, .array [.table []])])
  | some (.array items) => .ok (Scope.bind name (.array (items ++ [.table []])) table)
  | some _ => .error .noTable

/-- What a mark says about a key. -/
inductive Mark where
  /-- Nothing can be added, here and further down. -/
  | complete
  /-- The table is declared. -/
  | declared
  deriving DecidableEq

/-- Marks on keys. -/
abbrev Marks := List (Key × Mark)

namespace Marks

/-- Whether a key is complete: it or a key on the way to it has the mark. -/
def isComplete (marks : Marks) (key : Key) : Bool :=
  marks.any fun (marked, mark) => mark == .complete && marked.isPrefixOf key

/-- Whether the table of a key is declared. -/
def isDeclared (marks : Marks) (key : Key) : Bool :=
  marks.any fun (marked, mark) => mark == .declared && marked == key

/-- The marks without those on a key and further down. -/
def clear (marks : Marks) (key : Key) : Marks :=
  marks.filter fun (marked, _) => !key.isPrefixOf marked

end Marks

/-- Whether a value is an array or a table. -/
def Value.isContainer : Value → Bool
  | .array _ | .table _ => true
  | _ => false

namespace Reader

/-- Enter a binding into a table between braces. -/
def insertInline (key : Key) (value : Value) (table : Table) (marks : Marks) : Reader Table := do
  if marks.isComplete key then fail (.frozen key)
  match Table.change false (Table.insert (key.getLastD "") value) key.dropLast table with
  | .ok table => return table
  | .error .noTable => fail .overwrite
  | .error .taken => fail (.duplicate (key.getLastD ""))

mutual

/-- A value. -/
def value : Nat → Reader Value
  | 0 => fail .value
  | fuel + 1 => do
    if ← sees "\"\"\"" then return .string (← longBasicString)
    else if ← sees "\"" then return .string (← basicString)
    else if ← sees "'''" then return .string (← longLiteralString)
    else if ← sees "'" then return .string (← literalString)
    else if ← accept "true" then return .boolean true
    else if ← accept "false" then return .boolean false
    else if ← accept "[" then
      space
      if ← accept "]" then return .array []
      else return .array (← arrayItems fuel)
    else if ← accept "\x7b" then
      skip isBlank
      if ← accept "\x7d" then return .table []
      else return .table (← inlineEntries fuel [] [])
    else
      let (result, later) ← scalar (← get)
      set later
      return result

/-- The items of an array that is not closed yet. -/
def arrayItems : Nat → Reader (List Value)
  | 0 => fail .unclosedArray
  | fuel + 1 => do
    let first ← value fuel
    space
    if ← accept "]" then return [first]
    else if ← accept "," then
      space
      if ← accept "]" then return [first]
      else return first :: (← arrayItems fuel)
    else fail .unclosedArray

/-- The entries of a table between braces that is not closed yet. -/
def inlineEntries : Nat → Table → Marks → Reader Table
  | 0, _, _ => fail .unclosedTable
  | fuel + 1, table, marks => do
    let name ← key
    if !(← accept "=") then fail .equalsSign
    skip isBlank
    let content ← value fuel
    let table ← insertInline name content table marks
    skip isBlank
    if ← accept "\x7d" then return table
    else if ← accept "," then
      skip isBlank
      inlineEntries fuel table
        (if content.isContainer then (name, .complete) :: marks else marks)
    else fail .unclosedTable

end

end Reader

/-- A configuration text read in part. -/
structure Document where
  /-- The values so far. -/
  table : Table
  /-- The marks on keys. -/
  marks : Marks
  /-- The keys that are declared once the current table ends. -/
  pending : List Key
  /-- The key of the current table. -/
  header : Key

namespace Document

/-- The document before its first line. -/
def empty : Document := ⟨[], [], [], []⟩

/-- End the current table: what dotted keys led through counts as declared. -/
def endTable (document : Document) : Document :=
  { document with
    marks := document.pending.map (·, .declared) ++ document.marks
    pending := [] }

/-- The keys of the tables that a dotted key leads through, below the current table. -/
def keysOnTheWay (header key : Key) : List Key :=
  (List.range (key.length - 1)).map fun count => header ++ key.take (count + 1)

/-- Bind a key of the current table. -/
def bind (document : Document) (key : Key) (value : Value) : Reader Document := do
  let way := keysOnTheWay document.header key
  match way.find? document.marks.isDeclared with
  | some declared => Reader.fail (.redefined declared)
  | none => pure ()
  let parent := document.header ++ key.dropLast
  if document.marks.isComplete parent then Reader.fail (.frozen parent)
  match Table.change true (Table.insert (key.getLastD "") value) parent document.table with
  | .error _ => Reader.fail .overwrite
  | .ok table =>
    return { document with
      table := table
      pending := way ++ document.pending
      marks :=
        if value.isContainer then (document.header ++ key, .complete) :: document.marks
        else document.marks }

/-- Declare the table of a key, which is current from here on. -/
def declare (document : Document) (key : Key) : Reader Document := do
  let document := document.endTable
  if document.marks.isDeclared key || document.marks.isComplete key then
    Reader.fail (.twice key)
  match Table.change true .ok key document.table with
  | .error _ => Reader.fail .overwrite
  | .ok table =>
    return { document with
      table := table, marks := (key, .declared) :: document.marks, header := key }

/-- Declare a new element of the array of a key; it is current from here on. -/
def declareElement (document : Document) (key : Key) : Reader Document := do
  let document := document.endTable
  if document.marks.isComplete key then Reader.fail (.frozen key)
  match Table.change true (Table.append (key.getLastD "")) key.dropLast document.table with
  | .error _ => Reader.fail .overwrite
  | .ok table =>
    return { document with
      table := table, marks := (key, .declared) :: document.marks.clear key, header := key }

/-- Read the binding or the declaration that a line starts with. -/
def statement (document : Document) : Reader Document := do
  if ← Reader.accept "[[" then
    Reader.skip isBlank
    let key ← Reader.key
    let document ← document.declareElement key
    if !(← Reader.accept "]]") then Reader.fail .elementEnd
    return document
  else if ← Reader.accept "[" then
    Reader.skip isBlank
    let key ← Reader.key
    let document ← document.declare key
    if !(← Reader.accept "]") then Reader.fail .tableEnd
    return document
  else
    let key ← Reader.key
    if !(← Reader.accept "=") then Reader.fail .equalsSign
    Reader.skip isBlank
    let rest ← get
    let value ← Reader.value (2 * rest.length + 2)
    document.bind key value

/-- Read the lines from here on. -/
def lines : Nat → Document → Reader Document
  | 0, document => return document
  | fuel + 1, document => do
    Reader.skip isBlank
    match ← Reader.peek with
    | none => return document
    | some c =>
      let document ←
        if c = '\n' || c = '#' then pure document
        else if c = '[' || c = '"' || c = '\'' || Reader.isBare c then document.statement
        else Reader.fail .statement
      Reader.skip isBlank
      Reader.comment
      match ← Reader.peek with
      | none => return document
      | some '\n' =>
        Reader.drop 1
        lines fuel document
      | some _ => Reader.fail .trailing

end Document

/-- A text with single line feeds in place of carriage returns before line feeds. -/
def joinLineEnds : List Char → List Char
  | [] => []
  | '\r' :: '\n' :: rest => '\n' :: joinLineEnds rest
  | c :: rest => c :: joinLineEnds rest

/-- The values of a configuration text, whose line ends are line feeds. -/
def parse (text : List Char) : Except Failure Table :=
  match (Document.lines (text.length + 1) .empty).run text with
  | .ok (document, _) => .ok document.table
  | .error failure => .error failure

end Offside.Toml

/-!
# Locations in a source text

A location names a character of a source text by line, column and offset. Reading a character moves
the location on: a line feed starts the next line, a tab goes to the next tab stop, and any other
character takes one column.
-/

namespace Offside

/-- A place in a source text. -/
structure Location where
  /-- Line number, counted from one. -/
  line : Int
  /-- Column number, counted from one, with tabs expanded. -/
  column : Int
  /-- Number of characters before the place. -/
  offset : Nat
  /-- Name of the file, if the text has one. -/
  file : Option String
  deriving DecidableEq

namespace Location

/-- Distance between two tab stops. -/
def tabWidth : Int := 4

/-- The first character of a text. -/
def start (file : Option String) : Location := ⟨1, 1, 0, file⟩

/-- The place after the character `c`. -/
def advance (location : Location) (c : Char) : Location :=
  let after := { location with offset := location.offset + 1 }
  if c = '\n' then { after with line := location.line + 1, column := 1 }
  else if c = '\t' then
    { after with column := ((location.column - 1) / tabWidth + 1) * tabWidth + 1 }
  else { after with column := location.column + 1 }

/-- The place after the characters `chars`. -/
def advanceAll (location : Location) (chars : List Char) : Location :=
  chars.foldl advance location

@[simp]
theorem advanceAll_nil (location : Location) : location.advanceAll [] = location := rfl

@[simp]
theorem advanceAll_cons (location : Location) (c : Char) (chars : List Char) :
    location.advanceAll (c :: chars) = (location.advance c).advanceAll chars := rfl

theorem advanceAll_append (location : Location) (before after : List Char) :
    location.advanceAll (before ++ after) = (location.advanceAll before).advanceAll after :=
  List.foldl_append

/-- Line and column, after the file name if there is one. -/
def text (location : Location) : String :=
  let place := toString location.line ++ ":" ++ toString location.column
  match location.file with
  | none => place
  | some file => if file.isEmpty then place else file ++ ":" ++ place

end Location

end Offside

import Offside.Location

/-!
# Spans

A span is a stretch of source text that a report points to.
-/

namespace Offside

/-- A stretch of source text from a start to an end, the end excluded. -/
structure Span where
  /-- Line of the first character, counted from one. -/
  startLine : Int
  /-- Column of the first character, counted from one. -/
  startColumn : Int
  /-- Line of the end. -/
  endLine : Int
  /-- Column of the end. -/
  endColumn : Int
  /-- Name of the file. -/
  file : String
  deriving DecidableEq

namespace Span

/-- The name of a text that is no file. -/
def unnamed : String := "<input>"

/-- The span of `length` columns, at least one, from a place on. -/
def ofLength (line column length : Int) (file : String) : Span :=
  ⟨line, column, line, column + max 1 length, if file.isEmpty then unnamed else file⟩

/-- The span of `length` columns from a location on. -/
def ofLocation (location : Location) (length : Int) (file : String) : Span :=
  ofLength location.line location.column length file

/-- File, line and column of the start. -/
def text (span : Span) : String :=
  span.file ++ ":" ++ toString span.startLine ++ ":" ++ toString span.startColumn

/-- The number of columns that a span takes on its first line, at least one. -/
def length (span : Span) : Int :=
  if span.startLine ≠ span.endLine then 1 else max 1 (span.endColumn - span.startColumn)

end Span

end Offside

/-!
# Locations

Where a token or an error sits in its source.
-/

namespace WasmText

/-- The columns that a lexeme covers on a line. Lines and columns count from one, columns count
bytes, and `lastColumn` is one past the lexeme. -/
structure Location where
  /-- The name of the source. -/
  filename : String
  /-- The line. -/
  line : Nat
  /-- The column of the first byte. -/
  firstColumn : Nat
  /-- The column after the last byte. -/
  lastColumn : Nat
  deriving DecidableEq, Repr

namespace Location

/-- The number of columns covered, zero if the columns are reversed. -/
def width (location : Location) : Nat :=
  location.lastColumn - location.firstColumn

/-- The place of the first byte, as messages begin. -/
def display (location : Location) : String :=
  s!"{location.filename}:{location.line}:{location.firstColumn}"

/-- The line and its columns, as dumps show them. -/
def span (location : Location) : String :=
  s!"{location.line}:{location.firstColumn}-{location.lastColumn}"

end Location

end WasmText

import WasmText.Ascii
import WasmText.Bytes.Lossy
import WasmText.Location
import WasmText.Source.Search

/-!
# Source lines

The line of a location is looked up in the source itself, from the nearest line whose start is
known. A line wider than asked for is cut down to a window around the location's columns, and dots
stand where it was cut.
-/

namespace WasmText

/-- A source line as it is shown. -/
structure SourceLine where
  /-- The text of the line, or of the part of it that is shown. -/
  text : String
  /-- The number of bytes left out at the front. -/
  columnOffset : Nat
  deriving DecidableEq, Repr

/-- A line whose start is known. -/
structure LineAnchor where
  /-- The number of the line. -/
  line : Nat
  /-- The offset of its first byte. -/
  offset : Nat
  deriving DecidableEq, Repr

/-- The part of a line that is shown, from offset `first` up to `last`. -/
structure LineWindow where
  /-- The offset of the first byte shown. -/
  first : Nat
  /-- The offset after the last byte shown. -/
  last : Nat
  deriving DecidableEq, Repr

namespace LineWindow

/-- The column that a window is centred on, counted from zero: the middle of the columns if they
fit, else the first of them. -/
def center (firstColumn lastColumn width : Nat) : Nat :=
  if width < lastColumn - firstColumn then
    firstColumn - 1
  else
    (firstColumn + lastColumn) / 2 - 1

/-- The window of at most `width` bytes onto the line between two offsets. It never runs past the
end of the line, and a width of zero stands for any width. -/
def around (lineStart lineEnd firstColumn lastColumn width : Nat) : LineWindow :=
  if width = 0 || lineEnd - lineStart ≤ width then
    ⟨lineStart, lineEnd⟩
  else
    let centered := lineStart + (center firstColumn lastColumn width - width / 2)
    let first := min centered (lineEnd - width)
    ⟨first, first + width⟩

end LineWindow

namespace SourceLine

/-- Three dots, or as many as there is room for. -/
def dots (room : Nat) : Bytes :=
  Array.replicate (min room 3) Ascii.dot

/-- Writes dots over the first bytes of a text. -/
def dotFront (bytes : Bytes) : Bytes :=
  dots bytes.size ++ bytes.extract (min bytes.size 3) bytes.size

/-- Writes dots over the last bytes of a text. -/
def dotBack (bytes : Bytes) : Bytes :=
  bytes.extract 0 (bytes.size - 3) ++ dots bytes.size

/-- The bytes of a window onto a line, with dots at each side where the line goes on. -/
def clip (lineStart lineEnd : Nat) (window : LineWindow) (bytes : Bytes) : Bytes :=
  let bytes := if lineStart < window.first then dotFront bytes else bytes
  if window.last < lineEnd then dotBack bytes else bytes

/-- The offset at which a line starts. A line after the anchor is counted from there, any other
from the first line. -/
def startOf (anchor : LineAnchor) (line : Nat) : Search Nat :=
  if line = anchor.line then
    return anchor.offset
  else if line = 1 then
    return 0
  else if anchor.line < line then
    Source.lineStart anchor.line anchor.offset line
  else
    Source.lineStart 1 0 line

/-- The line of a location, at most `width` bytes of it. -/
def search (anchor : LineAnchor) (location : Location) (width : Nat) : Search SourceLine := do
  let lineStart ← startOf anchor location.line
  let lineEnd ← Source.lineEnd lineStart
  let window :=
    LineWindow.around lineStart lineEnd location.firstColumn location.lastColumn width
  let bytes ← Source.range window.first (window.last - window.first)
  return {
    text := (clip lineStart lineEnd window bytes).toText
    columnOffset := window.first - lineStart }

end SourceLine

end WasmText

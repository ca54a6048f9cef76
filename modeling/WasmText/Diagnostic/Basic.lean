import WasmText.Diagnostic.SourceLine
import WasmText.Diagnostic.LexError
import WasmText.Location

/-!
# Diagnostics

A diagnostic is an error with its location and, where it was asked for and could be read back, the
source line that it is on.
-/

namespace WasmText

/-- An error as it is reported. -/
structure Diagnostic where
  /-- Where the error is. -/
  location : Location
  /-- What the error is. -/
  message : String
  /-- The line that the error is on. -/
  sourceLine : Option SourceLine
  deriving DecidableEq, Repr

/-- The width of source lines that are asked for unless another is chosen. -/
def defaultLineWidth : Nat := 80

end WasmText

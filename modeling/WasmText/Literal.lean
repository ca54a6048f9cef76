/-!
# Numeric literals

The forms in which a number may be written. The lexer tells them apart but never converts them.
-/

namespace WasmText

/-- The form of a numeric literal. -/
inductive LiteralForm where
  /-- A decimal or hexadecimal integer. -/
  | int
  /-- A decimal float with a fraction, an exponent or both. -/
  | float
  /-- A hexadecimal float, which always has an exponent. -/
  | hexFloat
  /-- An infinity. -/
  | infinity
  /-- A NaN, with or without a payload. -/
  | nan
  deriving DecidableEq, Repr

/-- The name of a form in dumps. -/
def LiteralForm.name : LiteralForm → String
  | int => "Int"
  | float => "Float"
  | hexFloat => "HexFloat"
  | infinity => "Infinity"
  | nan => "Nan"

end WasmText

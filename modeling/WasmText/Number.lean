import WasmText.Ascii
import WasmText.Literal

/-!
# Numbers

The written forms of numbers, each accepted as a whole or not at all:

* naturals: digits, or `0x` and hexadecimal digits;
* integers: a sign and a natural;
* floats: an optional sign, digits, and then a fraction, an exponent or both;
* hexadecimal floats: an optional sign, `0x`, hexadecimal digits, an optional point with further
  hexadecimal digits, and an exponent after `p`;
* infinities: an optional sign and `inf` or `infinity`;
* NaNs: an optional sign and `nan`, which `:0x` and hexadecimal digits may follow.

The part before a fraction is never empty, the fraction after a point may be.
-/

namespace WasmText.Number

/-- The bytes of an ASCII word. -/
def spelled (word : String) : List UInt8 :=
  word.toList.map Ascii.ofChar

/-- Digits, at least one. -/
def isDigits (bytes : List UInt8) : Bool :=
  !bytes.isEmpty && bytes.all Ascii.isDigit

/-- Hexadecimal digits, at least one. -/
def isHexDigits (bytes : List UInt8) : Bool :=
  !bytes.isEmpty && bytes.all Ascii.isHexDigit

/-- Whether a byte is a sign. -/
def isSign (byte : UInt8) : Bool :=
  byte == Ascii.plus || byte == Ascii.minus

/-- What follows an optional sign. -/
def unsigned : List UInt8 → List UInt8
  | [] => []
  | byte :: rest => if isSign byte then rest else byte :: rest

/-- Naturals. -/
def isNat (bytes : List UInt8) : Bool :=
  match (spelled "0x").isPrefixOf? bytes with
  | some digits => isHexDigits digits
  | none => isDigits bytes

/-- What follows an exponent's mark: an optional sign and digits. -/
def isExponent (bytes : List UInt8) : Bool :=
  isDigits (unsigned bytes)

/-- Whether a byte marks the exponent of a float. -/
def isExponentMark (byte : UInt8) : Bool :=
  byte == Ascii.ofChar 'e' || byte == Ascii.ofChar 'E'

/-- An optional exponent; without one, the float must have had a fraction. -/
def isFloatEnd (hasFraction : Bool) : List UInt8 → Bool
  | [] => hasFraction
  | byte :: exponent => isExponentMark byte && isExponent exponent

/-- Floats without their sign. -/
def isFloat (bytes : List UInt8) : Bool :=
  let rest := bytes.dropWhile Ascii.isDigit
  (bytes.takeWhile Ascii.isDigit) != [] &&
    match rest with
    | [] => isFloatEnd false []
    | byte :: fraction =>
      if byte = Ascii.dot then
        isFloatEnd true (fraction.dropWhile Ascii.isDigit)
      else
        isFloatEnd false (byte :: fraction)

/-- What follows the digits of a hexadecimal float: an optional point with further digits, and the
exponent. -/
def isHexFloatEnd (bytes : List UInt8) : Bool :=
  let rest :=
    match bytes with
    | [] => []
    | byte :: fraction => if byte = Ascii.dot then fraction else byte :: fraction
  match rest.dropWhile Ascii.isHexDigit with
  | [] => false
  | byte :: exponent => byte == Ascii.ofChar 'p' && isExponent exponent

/-- Hexadecimal floats without their sign. -/
def isHexFloat (bytes : List UInt8) : Bool :=
  match (spelled "0x").isPrefixOf? bytes with
  | none => false
  | some digits =>
    (digits.takeWhile Ascii.isHexDigit) != [] && isHexFloatEnd (digits.dropWhile Ascii.isHexDigit)

/-- Infinities without their sign. -/
def isInfinity (bytes : List UInt8) : Bool :=
  bytes == spelled "inf" || bytes == spelled "infinity"

/-- NaNs without their sign. -/
def isNan (bytes : List UInt8) : Bool :=
  bytes == spelled "nan" ||
    match (spelled "nan:0x").isPrefixOf? bytes with
    | none => false
    | some digits => isHexDigits digits

/-- The form of a float without its sign. -/
def floatForm? (bytes : List UInt8) : Option LiteralForm :=
  if isHexFloat bytes then some .hexFloat
  else if isFloat bytes then some .float
  else if isInfinity bytes then some .infinity
  else if isNan bytes then some .nan
  else none

end WasmText.Number

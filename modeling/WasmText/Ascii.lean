/-!
# ASCII characters

The bytes of the characters that the text format gives a role, and the classes of bytes that its
grammar names.
-/

namespace WasmText

namespace Ascii

/-- Horizontal tab. -/
abbrev tab : UInt8 := 0x09
/-- Line feed, which ends a line. -/
abbrev newline : UInt8 := 0x0a
/-- Carriage return. -/
abbrev carriageReturn : UInt8 := 0x0d
/-- Space. -/
abbrev space : UInt8 := 0x20
/-- Double quote, which delimits strings. -/
abbrev quote : UInt8 := 0x22
/-- Dollar sign, which begins names. -/
abbrev dollar : UInt8 := 0x24
/-- Single quote. -/
abbrev apostrophe : UInt8 := 0x27
/-- Left parenthesis. -/
abbrev leftParen : UInt8 := 0x28
/-- Right parenthesis. -/
abbrev rightParen : UInt8 := 0x29
/-- Plus sign. -/
abbrev plus : UInt8 := 0x2b
/-- Minus sign. -/
abbrev minus : UInt8 := 0x2d
/-- Full stop. -/
abbrev dot : UInt8 := 0x2e
/-- Semicolon, which begins comments. -/
abbrev semicolon : UInt8 := 0x3b
/-- Backslash, which begins escapes. -/
abbrev backslash : UInt8 := 0x5c
/-- Delete, the one control character above the printable ones. -/
abbrev delete : UInt8 := 0x7f

/-- The byte of an ASCII character. -/
def ofChar (character : Char) : UInt8 :=
  character.toNat.toUInt8

/-- Decimal digits. -/
def isDigit (byte : UInt8) : Bool :=
  0x30 ≤ byte && byte ≤ 0x39

/-- Hexadecimal digits of either case. -/
def isHexDigit (byte : UInt8) : Bool :=
  isDigit byte || (0x41 ≤ byte && byte ≤ 0x46) || (0x61 ≤ byte && byte ≤ 0x66)

/-- Capital letters. -/
def isCapitalLetter (byte : UInt8) : Bool :=
  0x41 ≤ byte && byte ≤ 0x5a

/-- Small letters. -/
def isSmallLetter (byte : UInt8) : Bool :=
  0x61 ≤ byte && byte ≤ 0x7a

/-- Letters of either case. -/
def isLetter (byte : UInt8) : Bool :=
  isCapitalLetter byte || isSmallLetter byte

end Ascii

end WasmText

/-!
# Byte strings

Input, lexemes and payloads are byte strings: they may hold anything, and only some of them are
text.
-/

namespace WasmText

/-- A byte string. -/
abbrev Bytes := Array UInt8

namespace Bytes

/-- The UTF-8 form of a text. -/
def ofString (text : String) : Bytes :=
  text.toUTF8.data

/-- Whether the bytes begin with the UTF-8 form of `text`. -/
def startsWith (bytes : Bytes) (text : String) : Bool :=
  (ofString text).isPrefixOf bytes

/-- What follows the UTF-8 form of `text` at the front of the bytes, if they begin with it. -/
def stripPrefix? (bytes : Bytes) (text : String) : Option Bytes :=
  if bytes.startsWith text then
    some (bytes.extract (ofString text).size bytes.size)
  else
    none

/-- The byte at a position, or zero past the end. -/
def getOrZero (bytes : Bytes) (index : Nat) : UInt8 :=
  bytes[index]?.getD 0

/-- The indices at which a byte stands, in order. -/
def indicesOf (byte : UInt8) (bytes : Bytes) : List Nat :=
  (List.range bytes.size).filter fun index => bytes[index]? = some byte

end Bytes

end WasmText

import WasmText.Keyword
import WasmText.Number

/-!
# Atoms

Every lexeme other than parentheses, strings and comments is a run of atom bytes, as long as it can
be. The run is then classified as a whole: a keyword, a name, an offset, an alignment or a number.
-/

namespace WasmText

/-- What a run of atom bytes is. -/
inductive Atom where
  /-- A word with a meaning. -/
  | keyword (keyword : Keyword)
  /-- A dollar sign and at least one byte. -/
  | var
  /-- An offset's word and a natural. -/
  | offset
  /-- An alignment's word and a natural. -/
  | align
  /-- A number: its kind and its form. -/
  | number (kind : TokenKind) (form : LiteralForm)
  /-- None of these. -/
  | unknown
  deriving DecidableEq, Repr

namespace Atom

/-- The bytes of atoms that are neither letters nor digits. -/
def symbols : List UInt8 :=
  Number.spelled "_'+-*/\\^~=<>!?@#$%&|:\x60."

/-- The bytes that atoms are made of. -/
def isAtomByte (byte : UInt8) : Bool :=
  Ascii.isLetter byte || Ascii.isDigit byte || symbols.contains byte

/-- The word before the number of an offset. -/
def offsetWord : String := "offset="

/-- The word before the number of an alignment. -/
def alignWord : String := "align="

/-- Whether the bytes are a word and a natural after it. -/
def isWordAndNat (word : String) (bytes : List UInt8) : Bool :=
  match (Number.spelled word).isPrefixOf? bytes with
  | none => false
  | some digits => Number.isNat digits

/-- The number that the bytes are. -/
def ofNumber? (bytes : List UInt8) : Option Atom :=
  if Number.isNat bytes then
    some (.number .nat .int)
  else if bytes.head?.any Number.isSign && Number.isNat (Number.unsigned bytes) then
    some (.number .int .int)
  else
    (Number.floatForm? (Number.unsigned bytes)).map (.number .float)

/-- What a run of bytes is as a whole. -/
def classify (bytes : Bytes) : Atom :=
  match Keyword.ofBytes? bytes with
  | some meaning => .keyword meaning
  | none =>
    let bytes := bytes.toList
    if 1 < bytes.length && bytes.head? == some Ascii.dollar then .var
    else if isWordAndNat offsetWord bytes then .offset
    else if isWordAndNat alignWord bytes then .align
    else (ofNumber? bytes).getD .unknown

end Atom

end WasmText

import WasmText.Bytes

/-!
# Reading bytes as text

Every byte string has a text: well-formed UTF-8 is decoded, and each maximal ill-formed part, the
longest beginning of a character that its next byte cannot continue, becomes one U+FFFD. The
decoder takes one byte at a time and keeps the character it is in the middle of.
-/

namespace WasmText

/-- The character that stands for an ill-formed part. -/
def replacementCharacter : Char :=
  '\uFFFD'

/-- A character of several bytes whose beginning has been read. -/
structure OpenCharacter where
  /-- Bytes still owed. -/
  owed : Nat
  /-- The least byte that may come next. -/
  low : UInt8
  /-- The greatest byte that may come next. -/
  high : UInt8
  /-- The code point's bits read so far. -/
  bits : Nat

/-- What the first byte of a character settles. -/
inductive LeadByte where
  /-- The byte is a character of its own. -/
  | whole (character : Char)
  /-- The byte begins a longer character. -/
  | opening (character : OpenCharacter)
  /-- No character begins with the byte. -/
  | illFormed

/-- The role of a byte between characters. The ranges of second bytes leave out overlong forms,
surrogates and code points above U+10FFFF. -/
def LeadByte.ofByte (byte : UInt8) : LeadByte :=
  if byte < 0x80 then .whole (Char.ofNat byte.toNat)
  else if byte < 0xc2 then .illFormed
  else if byte < 0xe0 then .opening ⟨1, 0x80, 0xbf, byte.toNat - 0xc0⟩
  else if byte = 0xe0 then .opening ⟨2, 0xa0, 0xbf, 0⟩
  else if byte = 0xed then .opening ⟨2, 0x80, 0x9f, 0xd⟩
  else if byte < 0xf0 then .opening ⟨2, 0x80, 0xbf, byte.toNat - 0xe0⟩
  else if byte = 0xf0 then .opening ⟨3, 0x90, 0xbf, 0⟩
  else if byte < 0xf4 then .opening ⟨3, 0x80, 0xbf, byte.toNat - 0xf0⟩
  else if byte = 0xf4 then .opening ⟨3, 0x80, 0x8f, 4⟩
  else .illFormed

/-- A text decoded so far, and the character it may be in the middle of. -/
structure LossyDecoder where
  /-- The text decoded so far. -/
  text : String := ""
  /-- The unfinished character, if there is one. -/
  unfinished : Option OpenCharacter := none

namespace LossyDecoder

/-- Reads a byte between characters. -/
def begin (text : String) (byte : UInt8) : LossyDecoder :=
  match LeadByte.ofByte byte with
  | .whole character => ⟨text.push character, none⟩
  | .opening character => ⟨text, some character⟩
  | .illFormed => ⟨text.push replacementCharacter, none⟩

/-- Reads the next byte. A byte that cannot continue the unfinished character closes it as
ill-formed and begins the next. -/
def feed (decoder : LossyDecoder) (byte : UInt8) : LossyDecoder :=
  match decoder.unfinished with
  | none => begin decoder.text byte
  | some character =>
    if character.low ≤ byte && byte ≤ character.high then
      let bits := character.bits * 64 + (byte.toNat - 0x80)
      if character.owed ≤ 1 then
        ⟨decoder.text.push (Char.ofNat bits), none⟩
      else
        ⟨decoder.text, some ⟨character.owed - 1, 0x80, 0xbf, bits⟩⟩
    else
      begin (decoder.text.push replacementCharacter) byte

/-- The text once the input has ended, which leaves an unfinished character ill-formed. -/
def finish (decoder : LossyDecoder) : String :=
  match decoder.unfinished with
  | none => decoder.text
  | some _ => decoder.text.push replacementCharacter

end LossyDecoder

namespace Bytes

/-- The text of a byte string, with U+FFFD for each maximal ill-formed part. -/
def toText (bytes : Bytes) : String :=
  (bytes.foldl LossyDecoder.feed {}).finish

/-- Whether a byte string is well-formed UTF-8, and so is the UTF-8 form of its text. -/
def isText (bytes : Bytes) : Bool :=
  ofString bytes.toText == bytes

end Bytes

end WasmText

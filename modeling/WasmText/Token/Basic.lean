import WasmText.Bytes.Lossy
import WasmText.Literal
import WasmText.Location
import WasmText.Opcode.Table
import WasmText.Token.Kind

/-!
# Tokens

A token is the kind of a lexeme, what the lexeme says beyond its kind, and where it sits.
-/

namespace WasmText

/-- What a lexeme says beyond its kind. -/
inductive Payload where
  /-- Nothing. -/
  | none
  /-- The bytes of a string, of a name, or of the number after an offset or alignment. -/
  | text (bytes : Bytes)
  /-- The form and the bytes of a number. -/
  | literal (form : LiteralForm) (bytes : Bytes)
  /-- A value type, or the type of a scalar constant. -/
  | valueType (type : ValueType)
  /-- An instruction. -/
  | instruction (opcode : Opcode)
  deriving DecidableEq, Repr

/-- What a payload says, in words. -/
def Payload.display : Payload → String
  | none => ""
  | text bytes => bytes.toText
  | literal form bytes => s!"{form.name} {bytes.toText}"
  | valueType type => type.name
  | instruction opcode => opcode.mnemonic

/-- A classified lexeme. -/
structure Token where
  /-- The kind of the lexeme. -/
  kind : TokenKind
  /-- What it says beyond its kind. -/
  payload : Payload
  /-- Where it sits. -/
  location : Location
  deriving DecidableEq, Repr

namespace Token

/-- The bytes of a text or number. -/
def text? (token : Token) : Option Bytes :=
  match token.payload with
  | .text bytes | .literal _ bytes => some bytes
  | _ => none

/-- The form of a number. -/
def literalForm? (token : Token) : Option LiteralForm :=
  match token.payload with
  | .literal form _ => some form
  | _ => none

/-- The type that the token names. -/
def valueType? (token : Token) : Option ValueType :=
  match token.payload with
  | .valueType type => some type
  | _ => none

/-- The instruction that the token names. A scalar constant carries its type, which tells the
instruction. -/
def opcode? (token : Token) : Option Opcode :=
  match token.payload with
  | .instruction opcode => some opcode
  | .valueType type => if token.kind = .const then Opcode.scalarConst? type else none
  | _ => none

/-- Whether the token is the end of the input. -/
def isEof (token : Token) : Bool :=
  token.kind = .eof

/-- The token on one line: kind, payload if there is one, and span. -/
def display (token : Token) : String :=
  match token.payload with
  | .none => s!"{token.kind.name} @ {token.location.span}"
  | payload => s!"{token.kind.name} {payload.display} @ {token.location.span}"

end Token

end WasmText

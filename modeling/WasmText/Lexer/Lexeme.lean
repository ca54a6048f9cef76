import WasmText.Atom
import WasmText.Lexer.Basic

/-!
# Scanning lexemes

A scanner takes one step at a time. A step consumes a lexeme, or a piece of one that is in error or
to be skipped, and says in which mode to go on.

In normal mode a step takes a parenthesis, an atom, a string, white space or a comment's opening.
A string whose content is valid is one step. The first invalid byte hands over to the mode for bad
texts, each of whose steps takes one piece of the string, until the string is closed or given up.
Block comments nest, and each step takes the bytes up to a delimiter or a line's end.
-/

namespace WasmText

/-- A lexeme whose bytes lie between the token's start and the cursor. -/
structure Lexeme where
  /-- The kind of the token. -/
  kind : TokenKind
  /-- What the token says beyond its kind. -/
  payload : Payload
  deriving DecidableEq, Repr

/-- How a step of the scanner ended. -/
structure Step where
  /-- The mode to go on in. -/
  mode : Mode
  /-- The lexeme that the step completed, if any. -/
  lexeme : Option Lexeme
  deriving DecidableEq, Repr

namespace Step

/-- A step that completes a lexeme, after which any other may come. -/
def token (kind : TokenKind) (payload : Payload) : Step :=
  ⟨.normal, some ⟨kind, payload⟩⟩

/-- A step that completes nothing. -/
def enter (mode : Mode) : Step :=
  ⟨mode, none⟩

end Step

/-- The white space within a line. -/
def isBlank (byte : UInt8) : Bool :=
  byte == Ascii.space || byte == Ascii.tab || byte == Ascii.carriageReturn

/-- The bytes that stand for themselves in a string. -/
def isPlainStringByte (byte : UInt8) : Bool :=
  0x20 ≤ byte && byte != Ascii.delete && byte != Ascii.quote && byte != Ascii.backslash

/-- The bytes that make an escape of their own after a backslash. -/
def isEscaped (byte : UInt8) : Bool :=
  byte == Ascii.ofChar 'n' || byte == Ascii.ofChar 't' || byte == Ascii.backslash ||
    byte == Ascii.apostrophe || byte == Ascii.quote

/-- The bytes that a step inside a block comment stops at. -/
def stopsBlockComment (byte : UInt8) : Bool :=
  byte == Ascii.leftParen || byte == Ascii.semicolon || byte == Ascii.newline

namespace Scan

variable {τ : Type} [Tape τ]

/-- The end of the input, an empty lexeme at the cursor. -/
def eof : Scan τ Lexeme := do
  move Tape.beginToken
  return ⟨.eof, .none⟩

/-! ### Normal mode -/

/-- A lexeme of one byte. -/
def single (kind : TokenKind) : Scan τ Step := do
  advance 1
  return .token kind .none

/-- Skips a byte that no lexeme begins with. -/
def unexpectedChar : Scan τ Step := do
  advance 1
  report .unexpectedChar
  return .enter .normal

/-- The lexeme of a run of atom bytes, or nothing for an unknown atom. -/
def atomLexeme? (bytes : Bytes) : Option Lexeme :=
  match Atom.classify bytes with
  | .keyword (.plain kind) => some ⟨kind, .none⟩
  | .keyword (.typed kind type) => some ⟨kind, .valueType type⟩
  | .keyword (.instruction kind opcode) => some ⟨kind, .instruction opcode⟩
  | .var => some ⟨.var, .text bytes⟩
  | .offset =>
    some ⟨.offsetEqNat, .text (bytes.extract Atom.offsetWord.utf8ByteSize bytes.size)⟩
  | .align =>
    some ⟨.alignEqNat, .text (bytes.extract Atom.alignWord.utf8ByteSize bytes.size)⟩
  | .number kind form => some ⟨kind, .literal form bytes⟩
  | .unknown => none

/-- Takes the longest run of atom bytes. -/
def atom : Scan τ Step := do
  eatWhile Atom.isAtomByte
  let bytes ← view Tape.tokenBytes
  match atomLexeme? bytes with
  | some lexeme => return ⟨.normal, some lexeme⟩
  | none =>
    report (.unexpectedToken bytes.toText)
    return .enter .normal

/-- The length of the valid escape whose backslash is at the cursor, or zero. -/
def escapeLength : Scan τ Nat := do
  let first ← peek 1
  if isEscaped first then
    return 2
  else if Ascii.isHexDigit first then
    let second ← peek 2
    return if Ascii.isHexDigit second then 3 else 0
  else
    return 0

/-- Closes a string with the quote at the cursor. -/
def closeText : Scan τ Step := do
  advance 1
  return .token .text (.text (← view Tape.tokenBytes))

/-- Takes the valid content of a string, at most so many escapes of it, up to the closing quote or
the first invalid byte. -/
def textWithin : Nat → Scan τ Step
  | 0 => return .enter .badText
  | escapes + 1 => do
    eatWhile isPlainStringByte
    let byte ← peek 0
    if byte = Ascii.quote then
      closeText
    else if byte = Ascii.backslash then
      let length ← escapeLength
      if length = 0 then
        return .enter .badText
      else
        advance length
        textWithin escapes
    else
      return .enter .badText

/-- Takes a string from its opening quote on. There are fewer escapes than bytes. -/
def text : Scan τ Step := do
  advance 1
  textWithin ((← view Tape.remaining) + 1)

/-- A step in normal mode. -/
def normal : Scan τ Step := do
  let byte ← peek 0
  if byte = 0 then
    if ← isEndAt 0 then
      return .token .eof .none
    else
      unexpectedChar
  else if byte = Ascii.leftParen then
    if (← peek 1) = Ascii.semicolon then
      advance 2
      nest fun _ => 1
      return .enter .blockComment
    else
      single .lpar
  else if byte = Ascii.rightParen then
    single .rpar
  else if byte = Ascii.semicolon then
    if (← peek 1) = Ascii.semicolon then
      advance 2
      return .enter .lineComment
    else
      unexpectedChar
  else if byte = Ascii.quote then
    text
  else if isBlank byte then
    eatWhile isBlank
    return .enter .normal
  else if byte = Ascii.newline then
    advance 1
    startLine
    return .enter .normal
  else if Atom.isAtomByte byte then
    atom
  else
    unexpectedChar

/-! ### Bad texts -/

/-- Takes a backslash in a bad text. Without a byte after it on its line it is an illegal
character; with one, the two are an escape, a bad one unless it is valid. -/
def badTextEscape : Scan τ Step := do
  let length ← escapeLength
  if length = 0 then
    if (← peek 1) = Ascii.newline then
      lone
    else if ← isEndAt 1 then
      lone
    else
      advance 2
      report (.badEscape (← view Tape.markedBytes).toText)
      return .enter .badText
  else
    advance length
    return .enter .badText
where
  /-- Reports a backslash that has nothing after it. -/
  lone : Scan τ Step := do
    advance 1
    report .illegalCharInString
    return .enter .badText

/-- A step in a bad text. A closing quote completes the string from its opening quote on; the end
of its line gives it up. -/
def badText : Scan τ Step := do
  let byte ← peek 0
  if byte = 0 then
    if ← isEndAt 0 then
      report .unexpectedEofInString
      return ⟨.normal, some (← eof)⟩
    else
      illegalChar
  else if byte = Ascii.quote then
    closeText
  else if byte = Ascii.newline then
    advance 1
    report .newlineInString
    startLine
    return .enter .normal
  else if byte = Ascii.backslash then
    badTextEscape
  else if isPlainStringByte byte then
    eatWhile isPlainStringByte
    return .enter .badText
  else
    illegalChar
where
  /-- Reports a byte that may not stand in a string. -/
  illegalChar : Scan τ Step := do
    advance 1
    report .illegalCharInString
    return .enter .badText

/-! ### Comments -/

/-- A step in a line comment, which takes all of it. -/
def lineComment : Scan τ Step := do
  match ← skipUntil (· == Ascii.newline) with
  | some _ =>
    advance 1
    startLine
    return .enter .normal
  | none => return ⟨.lineComment, some (← eof)⟩

/-- A step in a block comment, which takes the bytes up to a delimiter or the end of a line. -/
def blockComment : Scan τ Step := do
  match ← skipUntil stopsBlockComment with
  | none =>
    report .unterminatedBlockComment
    return ⟨.blockComment, some (← eof)⟩
  | some byte =>
    if byte = Ascii.newline then
      advance 1
      startLine
      return .enter .blockComment
    else if byte = Ascii.leftParen then
      if (← peek 1) = Ascii.semicolon then
        advance 2
        nest (· + 1)
      else
        advance 1
      return .enter .blockComment
    else if (← peek 1) = Ascii.rightParen then
      advance 2
      nest (· - 1)
      return .enter (if (← get).nesting = 0 then .normal else .blockComment)
    else
      advance 1
      return .enter .blockComment

end Scan

end WasmText

import WasmText.Diagnostic.Basic
import WasmText.Tape
import WasmText.Token.Basic

/-!
# Lexers

A lexer is a tape with what must be remembered between lexemes: the line, the mode of scanning and
the depth of nested comments. Scanning is a state computation over it, and errors are reported as
they are found.
-/

namespace WasmText

/-- What a lexer is in the middle of. -/
inductive Mode where
  /-- Nothing, so that any lexeme may come. -/
  | normal
  /-- A string with something invalid in it. -/
  | badText
  /-- A comment that ends with its line. -/
  | lineComment
  /-- A comment between delimiters, which may be nested. -/
  | blockComment
  deriving DecidableEq, Repr

/-- A scanner's state over an input tape. -/
structure Lexer (τ : Type) where
  /-- The input. -/
  tape : τ
  /-- The name of the source. -/
  filename : String
  /-- The line that the cursor is on. Lines are counted without a bound, and a counter of 32 bits
  agrees below `2 ^ 32` only. -/
  line : Nat
  /-- The offset of the first byte of that line. -/
  lineOffset : Nat
  /-- The number of block comments that the cursor is inside of, counted without a bound as well. -/
  nesting : Nat
  /-- What the cursor is in the middle of. -/
  mode : Mode
  /-- Whether a fatal error has been reported. -/
  finished : Bool
  /-- The width of the source lines that diagnostics carry, zero for none. -/
  lineWidth : Nat
  /-- The errors reported since a token was last handed out. -/
  reported : Array Diagnostic

/-- A step of a scanner. -/
abbrev Scan (τ α : Type) : Type :=
  StateM (Lexer τ) α

/-- The greatest column, `2 ^ 32 - 1`. Columns further on are given this one. -/
def maximalColumn : Nat := 0xffff_ffff

namespace Lexer

variable {τ : Type}

/-- A lexer at the start of its input. -/
def ofTape (filename : String) (lineWidth : Nat) (tape : τ) : Lexer τ where
  tape := tape
  filename := filename
  line := 1
  lineOffset := 0
  nesting := 0
  mode := .normal
  finished := false
  lineWidth := lineWidth
  reported := #[]

/-- A lexer over a source. -/
def ofSource (filename : String) (lineWidth : Nat) (source : Source) : Lexer Buffer :=
  ofTape filename lineWidth (.ofSource source)

/-- A lexer over a source, with the capacity that its buffer first allocates. -/
def withInitialCapacity (size : Nat) (lexer : Lexer Buffer) : Lexer Buffer :=
  { lexer with tape := lexer.tape.setInitialCapacity size }

/-- The column of an offset on the current line. -/
def column (lexer : Lexer τ) (offset : Nat) : Nat :=
  min (offset - lexer.lineOffset + 1) maximalColumn

/-- The location between two offsets on the current line. -/
def location (lexer : Lexer τ) (first last : Nat) : Location where
  filename := lexer.filename
  line := lexer.line
  firstColumn := lexer.column first
  lastColumn := lexer.column last

/-- The current line, whose start is known. -/
def anchor (lexer : Lexer τ) : LineAnchor where
  line := lexer.line
  offset := lexer.lineOffset

/-- The source line of a location, at most `width` bytes of it or all of it for a width of zero. -/
def sourceLine [Tape τ] (location : Location) (width : Nat) (lexer : Lexer τ) :
    Except SourceError SourceLine × Lexer τ :=
  let (outcome, tape) := Tape.search (SourceLine.search lexer.anchor location width) lexer.tape
  (outcome, { lexer with tape })

end Lexer

namespace Scan

variable {τ : Type} [Tape τ]

/-- An operation of the tape that gives an answer. -/
def ask {α : Type} (operation : τ → α × τ) : Scan τ α := fun lexer =>
  let (answer, tape) := operation lexer.tape
  (answer, { lexer with tape })

/-- An operation of the tape that gives no answer. -/
def move (operation : τ → τ) : Scan τ Unit :=
  modify fun lexer => { lexer with tape := operation lexer.tape }

/-- What the tape shows without being changed. -/
def view {α : Type} (operation : τ → α) : Scan τ α := do
  return operation (← get).tape

/-- The byte so far ahead of the cursor, or zero past the end. -/
def peek (ahead : Nat) : Scan τ UInt8 :=
  ask (Tape.peek ahead)

/-- Whether there is no byte so far ahead of the cursor. -/
def isEndAt (ahead : Nat) : Scan τ Bool :=
  ask (Tape.isEndAt ahead)

/-- Steps over so many bytes. -/
def advance (count : Nat) : Scan τ Unit :=
  move (Tape.advance count)

/-- Steps over bytes as long as they satisfy a predicate. -/
def eatWhile (accepts : UInt8 → Bool) : Scan τ Unit :=
  move (Tape.eatWhile accepts)

/-- Moves to the next byte that satisfies a predicate and gives it, or to the end. -/
def skipUntil (wanted : UInt8 → Bool) : Scan τ (Option UInt8) :=
  ask (Tape.skipUntil wanted)

/-- Begins a line at the cursor. -/
def startLine : Scan τ Unit :=
  modify fun lexer =>
    { lexer with line := lexer.line + 1, lineOffset := Tape.cursorOffset lexer.tape }

/-- Changes the number of block comments that the cursor is inside of. -/
def nest (change : Nat → Nat) : Scan τ Unit :=
  modify fun lexer => { lexer with nesting := change lexer.nesting }

/-- The source line for a diagnostic, if source lines are asked for and it can be read back. -/
def lineFor (location : Location) : Scan τ (Option SourceLine) := do
  let width := (← get).lineWidth
  if width = 0 then
    return none
  else
    let outcome ← fun lexer => lexer.sourceLine location width
    return outcome.toOption

/-- Reports an error that covers the bytes from the marker to the cursor. -/
def report (error : LexError) : Scan τ Unit := do
  let lexer ← get
  let location := lexer.location (Tape.markerOffset lexer.tape) (Tape.cursorOffset lexer.tape)
  let sourceLine ← lineFor location
  modify fun lexer =>
    { lexer with
      reported := lexer.reported.push { location, message := error.message, sourceLine }
      finished := lexer.finished || error.isFatal }

end Scan

end WasmText

import WasmText.Lexer.Reading

/-!
# Sessions

A lexer whose errors are collected as tokens are read.
-/

namespace WasmText

/-- A lexer and the errors collected from it. -/
structure Session where
  /-- The lexer. -/
  lexer : Lexer Buffer
  /-- The errors reported since the collection began. -/
  collected : Array Diagnostic

namespace Session

/-- A session that has read nothing. -/
def ofLexer (lexer : Lexer Buffer) : Session where
  lexer := lexer
  collected := #[]

/-- The next token and the errors found on the way to it. -/
def next (session : Session) : Reading × Session :=
  let (reading, lexer) := session.lexer.next
  (reading, { lexer, collected := session.collected ++ reading.diagnostics })

/-- Reads tokens after those already skipped, at most so many and none after the end of the input.
Gives how many have been skipped. -/
def skipFrom (skipped : Nat) : Nat → Session → Nat × Session
  | 0, session => (skipped, session)
  | count + 1, session =>
    let (reading, session) := session.next
    if reading.token.isEof then (skipped, session) else skipFrom (skipped + 1) count session

/-- Reads tokens, at most so many and none after the end of the input. Gives how many were read
before the end. -/
def skip (count : Nat) (session : Session) : Nat × Session :=
  skipFrom 0 count session

/-- The messages collected, in the order in which they were reported. -/
def messages (session : Session) : Array String :=
  session.collected.map Diagnostic.message

/-- Whether errors have been collected. -/
def hasErrors (session : Session) : Bool :=
  !session.collected.isEmpty

/-- Begins a new collection, of diagnostics with source lines of another width. -/
def restart (lineWidth : Nat) (session : Session) : Session where
  lexer := { session.lexer with lineWidth }
  collected := #[]

/-- Chooses the capacity that the buffer first allocates. -/
def configure (size : Nat) (session : Session) : Session :=
  { session with lexer := session.lexer.withInitialCapacity size }

/-- The source line of a location. -/
def sourceLine (location : Location) (width : Nat) (session : Session) :
    Except SourceError SourceLine × Session :=
  let (outcome, lexer) := session.lexer.sourceLine location width
  (outcome, { session with lexer })

end Session

end WasmText

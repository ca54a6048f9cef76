import WasmText.Lexer.Lexeme

/-!
# Reading tokens

`Lexer.next` takes steps until one completes a lexeme. A failure of the tape is looked for after
each step, is reported as an error, and ends the input. After the end of the input every further
token is the end of the input.
-/

namespace WasmText

/-- A token with the errors found on the way to it. -/
structure Reading where
  /-- The token. -/
  token : Token
  /-- The errors reported since the token before. -/
  diagnostics : Array Diagnostic
  deriving DecidableEq, Repr

namespace Scan

variable {τ : Type} [Tape τ]

/-- Begins a step: the marker moves to the cursor, and so does the token's start unless a bad text
is to be completed. -/
def beginStep : Scan τ Unit := do
  if (← get).mode ≠ .badText then
    move Tape.beginToken
  move Tape.mark

/-- A step in the current mode. -/
def step : Scan τ Step := do
  match (← get).mode with
  | .normal => normal
  | .badText => badText
  | .lineComment => lineComment
  | .blockComment => blockComment

/-- The error that a failure of the tape is reported as. -/
def failureError : RefillError → Option LexError
  | .exhausted => none
  | .outOfMemory | .capacityOverflow => some .bufferAllocation
  | .unreadable error => some (.sourceRead error.message)

/-- Reports a failure of the tape if there is one, and says whether there was. -/
def stopOnFailure : Scan τ Bool := do
  match (← ask Tape.takeFailure).bind failureError with
  | none => return false
  | some error =>
    report error
    return true

/-- Takes steps until one completes a lexeme, at most so many. -/
def lexemeWithin : Nat → Scan τ Lexeme
  | 0 => eof
  | steps + 1 => do
    if (← get).finished then
      eof
    else
      beginStep
      let taken ← step
      modify fun lexer => { lexer with mode := taken.mode }
      if ← stopOnFailure then
        eof
      else
        match taken.lexeme with
        | some lexeme => return lexeme
        | none => lexemeWithin steps

/-- The next lexeme. A step that completes none consumes a byte, so one step more than there are
bytes is enough. -/
def lexeme : Scan τ Lexeme := do
  lexemeWithin ((← view Tape.remaining) + 1)

end Scan

namespace Lexer

variable {τ : Type} [Tape τ]

/-- The next token and the errors found on the way to it. -/
def next (lexer : Lexer τ) : Reading × Lexer τ :=
  let (lexeme, after) := Scan.lexeme.run lexer
  let location :=
    after.location (Tape.tokenOffset after.tape) (Tape.cursorOffset after.tape)
  ({ token := { kind := lexeme.kind, payload := lexeme.payload, location }
     diagnostics := after.reported },
    { after with reported := #[] })

/-- The tokens up to the end of the input, at most so many before it. -/
def readingsWithin : Nat → Lexer τ → Array Reading → Array Reading × Lexer τ
  | 0, lexer, readings => (readings, lexer)
  | tokens + 1, lexer, readings =>
    let (reading, lexer) := lexer.next
    if reading.token.isEof then
      (readings.push reading, lexer)
    else
      readingsWithin tokens lexer (readings.push reading)

/-- The tokens up to and including the end of the input. A token takes at least one byte. -/
def readings (lexer : Lexer τ) : Array Reading × Lexer τ :=
  readingsWithin (Tape.remaining lexer.tape + 1) lexer #[]

end Lexer

end WasmText

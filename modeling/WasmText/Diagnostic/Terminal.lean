import WasmText.Diagnostic.Basic

/-!
# Diagnostics on a terminal

A diagnostic is written as its location and message on one line, the source line below, and a
marker under the columns it is about:

    test.wast:2:9: error: unexpected token "i32.addd"
      (func i32.addd)
            ^~~~~~~~
-/

namespace WasmText

/-- When to write in colour. -/
inductive ColorMode where
  /-- On a terminal. -/
  | auto
  /-- Everywhere. -/
  | always
  /-- Nowhere. -/
  | never
  deriving DecidableEq, Repr

/-- Whether to write in colour, knowing whether the output is a terminal. -/
def ColorMode.isColored (isTerminal : Bool) : ColorMode → Bool
  | auto => isTerminal
  | always => true
  | never => false

/-- When to write a header. -/
inductive HeaderMode where
  /-- Not at all. -/
  | never
  /-- On a line of its own before the first diagnostic. -/
  | once
  /-- In front of every diagnostic. -/
  | always
  deriving DecidableEq, Repr

/-- How diagnostics are to be written. -/
structure TerminalStyle where
  /-- The width of source lines, zero for none. -/
  lineWidth : Nat := defaultLineWidth
  /-- When to write the header. -/
  headerMode : HeaderMode := .never
  /-- The header. -/
  header : String := ""
  /-- When to write in colour. -/
  color : ColorMode := .auto
  deriving DecidableEq, Repr

/-- A terminal with the diagnostics written to it so far. -/
structure Terminal where
  /-- How diagnostics are written. -/
  style : TerminalStyle
  /-- Whether they are written in colour. -/
  colored : Bool
  /-- Whether the header is still to be written once. -/
  headerPending : Bool
  /-- The number of diagnostics written. -/
  errorCount : Nat
  deriving DecidableEq, Repr

namespace Terminal

/-- A terminal to which nothing has been written. -/
def ofStyle (style : TerminalStyle) (isTerminal : Bool) : Terminal where
  style := style
  colored := style.color.isColored isTerminal
  headerPending := style.headerMode = .once
  errorCount := 0

/-! ### Colours -/

/-- The sequence that begins bold red text. -/
def errorColor : String := "\x1b[1;31m"

/-- The sequence that begins bold text. -/
def boldText : String := "\x1b[1m"

/-- The sequence that begins bold green text. -/
def markerColor : String := "\x1b[1;32m"

/-- The sequence that ends colours and bold text. -/
def plainText : String := "\x1b[0m"

/-- A text between a colour's sequences, if there are colours. -/
def inColor (colored : Bool) (color text : String) : String :=
  if colored then color ++ text ++ plainText else text

/-! ### Writing -/

/-- The header, where one is due before the next diagnostic. -/
def headerText (terminal : Terminal) : String :=
  match terminal.style.headerMode with
  | .never => ""
  | .once => if terminal.headerPending then terminal.style.header ++ ":\n" else ""
  | .always => terminal.style.header ++ ":"

/-- The line with the location and the message. -/
def headline (colored : Bool) (diagnostic : Diagnostic) : String :=
  inColor colored boldText (diagnostic.location.display ++ ":") ++ " " ++
    inColor colored errorColor "error" ++ ": " ++ diagnostic.message ++ "\n"

/-- The number of columns left of the marker. The marker starts no further right than just after
the text. -/
def markerIndent (location : Location) (sourceLine : SourceLine) : Nat :=
  min (location.firstColumn - 1 - sourceLine.columnOffset) sourceLine.text.length

/-- The width of the marker, at least one column. It ends no further right than the text. -/
def markerWidth (location : Location) (sourceLine : SourceLine) : Nat :=
  max (min location.width (sourceLine.text.length - markerIndent location sourceLine)) 1

/-- A caret that is drawn out to a width. -/
def marker (width : Nat) : String :=
  "^".pushn '~' (width - 1)

/-- The source line and the marker below it. Nothing is written for an empty line. -/
def sourceText (colored : Bool) (location : Location) (sourceLine : SourceLine) : String :=
  if sourceLine.text.isEmpty then
    ""
  else
    sourceLine.text ++ "\n" ++ "".pushn ' ' (markerIndent location sourceLine) ++
      inColor colored markerColor (marker (markerWidth location sourceLine)) ++ "\n"

/-- What is written for a diagnostic. -/
def text (terminal : Terminal) (diagnostic : Diagnostic) : String :=
  terminal.headerText ++ headline terminal.colored diagnostic ++
    (diagnostic.sourceLine.elim "" (sourceText terminal.colored diagnostic.location))

/-- Writes a diagnostic. -/
def write (terminal : Terminal) (diagnostic : Diagnostic) : String × Terminal :=
  (terminal.text diagnostic,
    { terminal with headerPending := false, errorCount := terminal.errorCount + 1 })

/-- Writes diagnostics one after the other. -/
def writeAll (terminal : Terminal) (diagnostics : Array Diagnostic) : String × Terminal :=
  diagnostics.foldl
    (fun (written, terminal) diagnostic =>
      let (text, terminal) := terminal.write diagnostic
      (written ++ text, terminal))
    ("", terminal)

end Terminal

end WasmText

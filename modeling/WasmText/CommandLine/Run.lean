import WasmText.CommandLine.Command
import WasmText.Lexer.Reading

/-!
# Running commands

What the program writes and how it exits, as a function of its arguments, of the files that it can
open and of whether its errors go to a terminal.
-/

namespace WasmText

/-- What a run of the program leaves behind. -/
structure Outcome where
  /-- The exit code, zero for success. -/
  exitCode : Nat
  /-- What was written to standard output. -/
  output : String
  /-- What was written to standard error. -/
  errors : String
  deriving DecidableEq, Repr

namespace Outcome

/-- A successful run. -/
def success (output : String) : Outcome :=
  ⟨0, output, ""⟩

/-- A failed run that wrote nothing but a line about the failure. -/
def failure (line : String) : Outcome :=
  ⟨1, "", line ++ "\n"⟩

end Outcome

namespace Command

/-- The lines of a text, each ended by a newline. -/
def ofLines (lines : List String) : String :=
  String.join (lines.map (· ++ "\n"))

/-- The explanation of the program. -/
def usage : String := ofLines
  ["WebAssembly text tooling",
    "",
    "Usage: wastc <command> [options]",
    "",
    "Commands:",
    "  lex <file.wast>          Tokenize and display tokens",
    "  opcodes                  List every defined opcode",
    "  line <file.wast> <n>     Print line <n> as diagnostics show it",
    "  help                     Show this help message",
    "  version                  Show version information",
    "",
    "Options:",
    "  --color=<mode>      Color errors: auto (default), always, never",
    "  --max-line=<n>      Widest source line to show (default: 80, 0: no limit)",
    "  --header=<text>     Print <text> before the first error",
    "",
    "Examples:",
    "  wastc lex testsuite/i32.wast",
    "  wastc lex broken.wast --color=never --max-line=0",
    "  wastc line testsuite/i32.wast 12 --max-line=40",
    "  RUST_LOG=wast_lexer=debug wastc lex testsuite/i32.wast"]

/-- The name of the program and its version. -/
def versionLine : String :=
  "wastc 0.1.0-alpha.8\n"

/-- The opcode table, one instruction a line. -/
def opcodeTable : String :=
  ofLines (Opcode.all.map Opcode.display)

/-- The lines of a token dump: how many tokens there are, and then each of them. -/
def tokenLines (path : String) (readings : Array Reading) : String :=
  readings.foldl (fun written reading => written ++ "  " ++ reading.token.display ++ "\n")
    s!"Tokens for '{path}' ({readings.size} tokens):\n"

/-- Dumps the tokens of a source and writes its errors. -/
def runLex (path : String) (style : TerminalStyle) (isTerminal : Bool) (source : Source) :
    Outcome :=
  let (readings, _) := (Lexer.ofSource path style.lineWidth source).readings
  let (errors, terminal) :=
    (Terminal.ofStyle style isTerminal).writeAll (readings.flatMap Reading.diagnostics)
  { exitCode := if terminal.errorCount = 0 then 0 else 1
    output := tokenLines path readings
    errors }

/-- Prints a line of a source as diagnostics show it at its first column. -/
def runLine (path : String) (number : Nat) (style : TerminalStyle) (source : Source) : Outcome :=
  let lexer := Lexer.ofSource path style.lineWidth source
  match (lexer.sourceLine ⟨path, number, 1, 1⟩ style.lineWidth).1 with
  | .ok sourceLine => .success (sourceLine.text ++ "\n")
  | .error error => .failure ("error: " ++ error.message)

/-- Runs an action on the source that a path leads to, if it can be opened. -/
def withSource (path : String) (openFile : String → Except SystemError File)
    (action : Source → Outcome) : Outcome :=
  match Source.ofOpened path (openFile path) with
  | .ok source => action source
  | .error error => .failure ("error: " ++ error.message)

/-- Runs a command. -/
def run (openFile : String → Except SystemError File) (style : TerminalStyle)
    (isTerminal : Bool) : Command → Outcome
  | lex path => withSource path openFile (runLex path style isTerminal)
  | line path number => withSource path openFile (runLine path number style)
  | opcodes => .success opcodeTable
  | help => .success usage
  | version => .success versionLine

end Command

/-- What is written when the arguments name no command. -/
def CommandError.outcome : CommandError → Outcome
  | wrongOption error => .failure ("error: " ++ error.message)
  | lexArguments => .failure "Usage: wastc lex <file.wast> [options]"
  | lineArguments => .failure "Usage: wastc line <file.wast> <line> [--max-line=<n>]"
  | invalidLineNumber number => .failure s!"error: invalid line number '{number}'"
  | unknownCommand name => ⟨1, Command.usage, s!"Unknown command: {name}\n\n"⟩

/-- Runs the command that the arguments name. -/
def runArguments (arguments : List String) (openFile : String → Except SystemError File)
    (isTerminal : Bool) : Outcome :=
  match Command.ofArguments arguments with
  | .ok (command, style) => command.run openFile style isTerminal
  | .error error => error.outcome

end WasmText

import WasmText.CommandLine.Options

/-!
# Commands

The arguments of a program name one command. Options are looked at before the command is, so a
wrong option is an error whatever the command.
-/

namespace WasmText

/-- What the program is asked to do. -/
inductive Command where
  /-- Dump the tokens of a file. -/
  | lex (path : String)
  /-- Print a line of a file. -/
  | line (path : String) (number : Nat)
  /-- Dump the opcode table. -/
  | opcodes
  /-- Explain the program. -/
  | help
  /-- Name the program's version. -/
  | version
  deriving DecidableEq, Repr

/-- Why arguments name no command. -/
inductive CommandError where
  /-- An option is wrong. -/
  | wrongOption (error : OptionError)
  /-- The tokens of exactly one file can be dumped. -/
  | lexArguments
  /-- A line of exactly one file can be printed. -/
  | lineArguments
  /-- The number of a line is no number, or too large a one. -/
  | invalidLineNumber (number : String)
  /-- There is no such command. -/
  | unknownCommand (name : String)
  deriving DecidableEq, Repr

namespace Command

/-- Line numbers are words of 32 bits, so they lie below `2 ^ 32`. -/
def lineBound : Nat := 0x1_0000_0000

/-- The command of a name with its positional arguments. -/
def ofName (name : String) (positional : List String) : Except CommandError Command :=
  match name with
  | "lex" =>
    match positional with
    | [path] => .ok (.lex path)
    | _ => .error .lexArguments
  | "line" =>
    match positional with
    | [path, number] =>
      match boundedDecimal? lineBound number with
      | some number => .ok (.line path number)
      | none => .error (.invalidLineNumber number)
    | _ => .error .lineArguments
  | "opcodes" => .ok .opcodes
  | "help" | "--help" | "-h" => .ok .help
  | "version" | "--version" | "-v" => .ok .version
  | _ => .error (.unknownCommand name)

/-- The command that the arguments name, and how its diagnostics are to be written. Without
arguments the program explains itself. -/
def ofArguments : List String → Except CommandError (Command × TerminalStyle)
  | [] => .ok (.help, {})
  | name :: arguments =>
    match Options.ofArguments arguments with
    | .error error => .error (.wrongOption error)
    | .ok options => (ofName name options.positional).map (·, options.style)

/-- The file that a command is about. -/
def path? : Command → Option String
  | lex path | line path _ => some path
  | opcodes | help | version => none

end Command

end WasmText

import WasmText.AddressSpace
import WasmText.Diagnostic.Terminal

/-!
# Command line options

Options may stand anywhere among the arguments, and a later one replaces an earlier one of the same
name. Everything else that does not begin with two hyphens is a positional argument.
-/

namespace WasmText

/-- What a number on the command line may look like: an optional plus sign and digits. -/
def decimal? (digits : String) : Option Nat :=
  let digits := if digits.startsWith "+" then (digits.drop 1).copy else digits
  if digits.isEmpty || !digits.all Char.isDigit then
    none
  else
    some (digits.foldl (fun number digit => 10 * number + (digit.toNat - '0'.toNat)) 0)

/-- A number below a bound. -/
def boundedDecimal? (bound : Nat) (digits : String) : Option Nat :=
  (decimal? digits).filter (· < bound)

/-- What is wrong with an argument. -/
inductive OptionError where
  /-- There is no such option. -/
  | unknownOption (argument : String)
  /-- There is no such colour mode. -/
  | unknownColorMode (mode : String)
  /-- The width of source lines is no number, or too large a one. -/
  | invalidLineWidth (width : String)
  deriving DecidableEq, Repr

/-- The error in words. -/
def OptionError.message : OptionError → String
  | unknownOption argument => s!"unknown option '{argument}'"
  | unknownColorMode mode => s!"unknown color mode '{mode}'"
  | invalidLineWidth width => s!"invalid line width '{width}'"

/-- The arguments after the command. -/
structure Options where
  /-- How diagnostics are to be written. -/
  style : TerminalStyle := {}
  /-- The arguments that are no options, in order. -/
  positional : List String := []
  deriving DecidableEq, Repr

namespace Options

/-- What follows the name of an option that is written with its value. -/
def value? (name argument : String) : Option String :=
  if argument.startsWith name then some (argument.drop name.length).copy else none

/-- The colour mode of a name. -/
def colorMode? : String → Option ColorMode
  | "auto" => some .auto
  | "always" => some .always
  | "never" => some .never
  | _ => none

/-- Adds an argument to those before it. -/
def add (options : Options) (argument : String) : Except OptionError Options :=
  if let some mode := value? "--color=" argument then
    match colorMode? mode with
    | some color => .ok { options with style := { options.style with color } }
    | none => .error (.unknownColorMode mode)
  else if let some width := value? "--max-line=" argument then
    match boundedDecimal? addressSpace width with
    | some lineWidth => .ok { options with style := { options.style with lineWidth } }
    | none => .error (.invalidLineWidth width)
  else if let some header := value? "--header=" argument then
    .ok { options with style := { options.style with header, headerMode := .once } }
  else if argument.startsWith "--" then
    .error (.unknownOption argument)
  else
    .ok { options with positional := options.positional ++ [argument] }

/-- The options and positional arguments among the arguments. The first wrong one decides the
error. -/
def ofArguments (arguments : List String) : Except OptionError Options :=
  arguments.foldlM add {}

end Options

end WasmText

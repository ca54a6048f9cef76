import WasmText.CommandLine.Run

/-!
# The program

The outer layer of the command line tool: it opens the one file that a command is about, runs the
command and writes what it leaves behind.
-/

namespace WasmText

/-- The system error behind a failed file operation. -/
def systemErrorOf : IO.Error → SystemError
  | .noFileOrDirectory _ code details | .permissionDenied _ code details
  | .inappropriateType _ code details | .invalidArgument _ code details
  | .resourceExhausted _ code details | .noSuchThing _ code details =>
    ⟨code.toNat, details⟩
  | error => ⟨0, toString error⟩

/-- Reads an open file ahead. One that cannot be read is kept as one that refuses every request. -/
def readAhead (path : String) (handle : IO.FS.Handle) : IO File := do
  try
    return .regular path (← handle.readBinToEnd).data
  catch error =>
    return .refusing path (systemErrorOf error)

/-- Opens a file. -/
def openFile (path : String) : IO (Except SystemError File) := do
  try
    return .ok (← readAhead path (← IO.FS.Handle.mk path .read))
  catch error =>
    return .error (systemErrorOf error)

/-- Opens the file that the arguments name, if they name one. -/
def openNamedFile (arguments : List String) : IO (Except SystemError File) :=
  match Command.ofArguments arguments with
  | .ok (command, _) => (command.path?.map openFile).getD (return .error .noSuchFile)
  | .error _ => return .error .noSuchFile

end WasmText

/-- Runs the command that the arguments name. -/
def main (arguments : List String) : IO UInt32 := do
  let opened ← WasmText.openNamedFile arguments
  let isTerminal ← (← IO.getStderr).isTty
  let outcome := WasmText.runArguments arguments (fun _ => opened) isTerminal
  (← IO.getStderr).putStr outcome.errors
  (← IO.getStdout).putStr outcome.output
  return outcome.exitCode.toUInt32

/-!
# System errors

The reasons an operating system gives for refusing to open or read a file.
-/

namespace WasmText

/-- An error number and its description. -/
structure SystemError where
  /-- The error number. -/
  code : Nat
  /-- The description of the error number. -/
  description : String
  deriving DecidableEq, Repr

namespace SystemError

/-- Nothing has the name. -/
def noSuchFile : SystemError := ⟨2, "No such file or directory"⟩

/-- A part of the path that should be a directory is a file. -/
def notADirectory : SystemError := ⟨20, "Not a directory"⟩

/-- The bytes of a directory were asked for. -/
def isADirectory : SystemError := ⟨21, "Is a directory"⟩

/-- An offset is out of the range that the system can address. -/
def invalidArgument : SystemError := ⟨22, "Invalid argument"⟩

/-- A name or a path is longer than the system allows. -/
def nameTooLong : SystemError := ⟨36, "File name too long"⟩

/-- The error in words, with its number. -/
def message (error : SystemError) : String :=
  s!"{error.description} (os error {error.code})"

end SystemError

end WasmText

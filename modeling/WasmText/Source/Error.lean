import WasmText.AddressSpace
import WasmText.SystemError

/-!
# Source errors

What can go wrong when a source is opened, or when a part of it is looked up.
-/

namespace WasmText

/-- A failure to open a source or to find a part of it. -/
inductive SourceError where
  /-- The file could not be opened. -/
  | unopened (path : String) (error : SystemError)
  /-- The source has no such line. -/
  | lineOutOfRange (line : Nat)
  /-- The source ends before the bytes asked for. -/
  | rangeOutOfBounds (first last : Nat)
  /-- The file refused to be read. -/
  | unreadable (error : SystemError)
  deriving DecidableEq, Repr

namespace SourceError

/-- The error for a range that passes the end of the source. The end of the range stays within the
address space. -/
def outOfBounds (start count : Nat) : SourceError :=
  .rangeOutOfBounds start (min (start + count) (addressSpace - 1))

/-- The error in words. -/
def message : SourceError → String
  | unopened path error => s!"unable to open {path}: {error.message}"
  | lineOutOfRange line => s!"line {line} is past the end of the source"
  | rangeOutOfBounds first last => s!"bytes {first}..{last} are past the end of the source"
  | unreadable error => s!"I/O error: {error.message}"

end SourceError

end WasmText

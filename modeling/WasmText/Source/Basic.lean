import WasmText.Source.Error
import WasmText.Source.File

/-!
# Sources

The input of a lexer: bytes in memory or an open file. It is read in order by `Source.read`. What
an error message needs of it is searched for by a `Search`, and a search leaves the position of the
next read where it was.
-/

namespace WasmText

/-- The input of a lexer. -/
inductive Source where
  /-- Bytes in memory, the ones before `position` already read. -/
  | memory (contents : Bytes) (position : Nat)
  /-- An open file. -/
  | file (file : File)

/-- A computation that looks parts of a source up and may fail. -/
abbrev Search (α : Type) : Type :=
  ExceptT SourceError (StateM Source) α

namespace Source

/-- A source over bytes in memory, none of them read. -/
def ofBytes (contents : Bytes) : Source :=
  .memory contents 0

/-- A source over the file that opening `path` gave. -/
def ofOpened (path : String) (opened : Except SystemError File) : Except SourceError Source :=
  match opened with
  | .ok handle => .ok (.file handle)
  | .error error => .error (.unopened path error)

/-- Whether the source is a file. -/
def isFile : Source → Bool
  | memory _ _ => false
  | .file _ => true

/-- The path of a file. -/
def path? : Source → Option String
  | memory _ _ => none
  | file opened => some opened.path

/-- Every byte of the source. -/
def contents : Source → Bytes
  | memory contents _ => contents
  | file opened => opened.contents

/-- The offset of the next byte to be read. -/
def position : Source → Nat
  | memory _ position => position
  | file opened => opened.position

/-- The number of bytes not yet read. -/
def remaining (source : Source) : Nat :=
  source.contents.size - source.position

/-- Reads `count` bytes, fewer only at the end of the source. -/
def read (count : Nat) : Source → Except SystemError Bytes × Source
  | memory contents position =>
    let bytes := contents.extract position (position + count)
    (.ok bytes, memory contents (position + bytes.size))
  | file opened =>
    let (outcome, opened) := opened.read count
    (outcome, .file opened)

end Source

end WasmText

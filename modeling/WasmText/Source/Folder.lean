import WasmText.Source.File

/-!
# Folders

The files and directories that paths lead to, for a program that works in one folder and knows
nothing of what lies outside of it. A path is walked name by name, and the first name that leads
nowhere decides what is wrong with the path.
-/

namespace WasmText

/-- Entries by their paths: the bytes of a file, or nothing for a directory. A directory with an
entry in it needs no entry of its own. -/
structure Folder where
  /-- Each entry's path and contents. -/
  entries : List (String × Option Bytes)

/-- A place that a path leads to. -/
inductive Place where
  /-- The folder itself, or the directory in it that these names lead to. -/
  | inside (names : List String)
  /-- A directory outside of the folder. -/
  | outside
  /-- A file with its bytes. -/
  | file (contents : Bytes)

namespace Folder

/-- A name that leads from a directory to the directory itself. -/
def isIdle (name : String) : Bool :=
  name == "" || name == "."

/-- The names that lead from the folder to the entry with a path. -/
def namesOf (path : String) : List String :=
  (path.splitOn "/").filter fun name => !isIdle name

/-- The most bytes that a name may have. -/
def nameBound : Nat := 255

/-- The number of bytes from which on a path is too long. -/
def pathBound : Nat := 4096

/-- The place that names lead to, each of which is the name of an entry in a directory. -/
def lookUp (folder : Folder) (names : List String) : Except SystemError Place :=
  match folder.entries.find? fun (path, _) => namesOf path == names with
  | some (_, some contents) => .ok (.file contents)
  | some (_, none) => .ok (.inside names)
  | none =>
    if folder.entries.any fun (path, _) => names.isPrefixOf (namesOf path) then
      .ok (.inside names)
    else
      .error .noSuchFile

/-- The place that the next name of a path leads to. Nothing leads on from a file, and `..` leads
from a directory to the one that it lies in. -/
def step (folder : Folder) : Place → String → Except SystemError Place
  | .file _, _ => .error .notADirectory
  | .outside, name =>
    if isIdle name || name == ".." then .ok .outside
    else if nameBound < name.utf8ByteSize then .error .nameTooLong
    else .error .noSuchFile
  | .inside names, name =>
    if isIdle name then .ok (.inside names)
    else if name == ".." then .ok (if names.isEmpty then .outside else .inside names.dropLast)
    else if nameBound < name.utf8ByteSize then .error .nameTooLong
    else folder.lookUp (names ++ [name])

/-- The place that a path leads to. A path with a slash in front starts outside of the folder, and
one with a slash at the end has an empty last name, so that it leads to a directory only. -/
def find (folder : Folder) (path : String) : Except SystemError Place :=
  if path == "" then
    .error .noSuchFile
  else if pathBound ≤ path.utf8ByteSize then
    .error .nameTooLong
  else
    (path.splitOn "/").foldlM folder.step (if path.startsWith "/" then .outside else .inside [])

/-- Opens the file or directory that a path leads to. -/
def openFile (folder : Folder) (path : String) : Except SystemError File :=
  (folder.find path).map fun
    | .file contents => .regular path contents
    | .inside _ | .outside => .directory path

end Folder

end WasmText

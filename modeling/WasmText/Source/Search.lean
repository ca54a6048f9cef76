import WasmText.Ascii
import WasmText.Source.Basic

/-!
# Searching a source

Searches start at any offset and go forward: to the start of a line, to the end of a line, or over
a range of bytes. Bytes in memory are shown at once and files piece by piece, so a visitor carries
over from one piece to the next what it has to know of the bytes before.
-/

namespace WasmText

/-- The number of bytes that a search asks a file for at once. -/
def searchChunk : Nat := 8 * 1024

/-- How a search ended. -/
inductive SearchEnd where
  /-- The visitor found what it looks for at an offset. -/
  | found (offset : Nat)
  /-- The source ended at an offset. -/
  | exhausted (offset : Nat)

/-- A visitor is shown pieces, each with the offset of its first byte, and finds an offset or goes on
in a new state. -/
abbrev Visitor (σ : Type) : Type :=
  Nat → σ → Bytes → Except Nat σ

/-- Shows a file's bytes from its position on, the first of which is at the given offset. -/
@[specialize]
def File.search {σ : Type} (visitor : Visitor σ) (base : Nat) (state : σ) (file : File) :
    Except SystemError SearchEnd × File :=
  match outcome : file.request searchChunk with
  | (.error error, after) => (.error error, after)
  | (.ok piece, after) =>
    if empty : piece.size = 0 then
      (.ok (.exhausted base), after)
    else
      have := File.remaining_request_lt outcome empty
      match visitor base state piece with
      | .error offset => (.ok (.found offset), after)
      | .ok state => File.search visitor (base + piece.size) state after
termination_by file.remaining

namespace Source

/-- Moves a file to `start`, runs an action on it and puts it back. -/
def visiting {α : Type} (start : Nat) (action : File → Except SystemError α × File)
    (file : File) : Except SourceError α × Source :=
  let (outcome, file) := file.restoring fun file =>
    match file.seek start with
    | (.error error, file) => (.error error, file)
    | (.ok (), file) => action file
  (outcome.mapError .unreadable, .file file)

/-- Shows the source's bytes from `start` on to a visitor. A start past the end of bytes in memory
counts as the end, while a file's counts as it is. -/
@[specialize]
def search {σ : Type} (visitor : Visitor σ) (state : σ) (start : Nat) : Search SearchEnd
  | memory contents position =>
    let start := min start contents.size
    match visitor start state (contents.extract start contents.size) with
    | .error offset => (.ok (.found offset), memory contents position)
    | .ok _ => (.ok (.exhausted contents.size), memory contents position)
  | file opened => visiting start (File.search visitor start state) opened

/-- Counts lines up from an anchor, newline by newline, until the target line starts. -/
@[inline]
def lineStartVisitor (target : Nat) : Visitor Nat := fun base line piece =>
  (piece.indicesOf Ascii.newline).foldlM (fun line index =>
    if line + 1 = target then .error (base + index + 1) else .ok (line + 1)) line

/-- Looks for the end of the line that starts at `start`, knowing the last byte of the piece before.
A carriage return before the newline belongs to the line's end, if the line has come so far. -/
@[inline]
def lineEndVisitor (start : Nat) : Visitor (Option UInt8) := fun base previous piece =>
  match piece.findIdx? (· == Ascii.newline) with
  | some index =>
    let before := if 0 < index then piece[index - 1]? else previous
    let newline := base + index
    .error (if before = some Ascii.carriageReturn ∧ start < newline then newline - 1 else newline)
  | none => .ok piece.back?

/-- The offset at which a line starts, found forward from the start of a line that is known. -/
def lineStart (anchorLine anchorOffset target : Nat) : Search Nat :=
  if target < anchorLine || target == 0 then
    throw (.lineOutOfRange target)
  else if target = anchorLine then
    return anchorOffset
  else do
    match ← search (lineStartVisitor target) anchorLine anchorOffset with
    | .found offset => return offset
    | .exhausted _ => throw (.lineOutOfRange target)

/-- The offset at which the line starting at `start` ends, its terminator excluded. -/
def lineEnd (start : Nat) : Search Nat := do
  match ← search (lineEndVisitor start) none start with
  | .found offset | .exhausted offset => return offset

/-- The `count` bytes from `start` on. -/
def range (start count : Nat) : Search Bytes := do
  let bytes ← fetch
  if bytes.size = count then return bytes else throw (.outOfBounds start count)
where
  /-- Bytes in memory are looked up only where the whole range exists. -/
  fetch : Search Bytes
    | memory contents position =>
      if start + count ≤ contents.size then
        (.ok (contents.extract start (start + count)), memory contents position)
      else
        (.error (.outOfBounds start count), memory contents position)
    | file opened => visiting start (File.read count) opened

end Source

end WasmText

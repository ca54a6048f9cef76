import WasmText.Bytes
import WasmText.SystemError

/-!
# Open files

A file is read from its current position in pieces whose sizes the system chooses, and any request
may be refused. `File.read` asks until it has what it wants or the file ends. A file that was moved
for a search is put back where it was by `File.restoring`.
-/

namespace WasmText

/-- What the system makes of one request for bytes. -/
inductive Reply where
  /-- Bytes are delivered, at most so many and at least one as long as there are any. -/
  | delivered (most : Nat)
  /-- No bytes are delivered. -/
  | refused (error : SystemError)

/-- An open file. It can always be asked for its position and moved to any offset below `2 ^ 63`;
unlike requests for bytes, neither fails. -/
structure File where
  /-- The path that the file was opened by. -/
  path : String
  /-- The bytes of the file. -/
  contents : Bytes
  /-- The offset of the next byte to be delivered. -/
  position : Nat
  /-- The number of requests made so far. -/
  requests : Nat
  /-- The system's reply to each request. -/
  replies : Nat → Reply

namespace File

/-- A regular file, each request to which is met in full. -/
def regular (path : String) (contents : Bytes) : File :=
  { path, contents, position := 0, requests := 0, replies := fun _ => .delivered contents.size }

/-- A file that can be opened but not read. -/
def refusing (path : String) (error : SystemError) : File :=
  { path, contents := #[], position := 0, requests := 0, replies := fun _ => .refused error }

/-- A directory, which can be opened but not read. -/
def directory (path : String) : File :=
  refusing path .isADirectory

/-- Offsets below `2 ^ 63` can be moved to. -/
def offsetBound : Nat := 0x8000_0000_0000_0000

/-- The number of bytes from the position to the end. -/
def remaining (file : File) : Nat :=
  file.contents.size - file.position

/-- Makes one request for at most `count` bytes. No bytes are delivered at the end of the file. -/
def request (count : Nat) (file : File) : Except SystemError Bytes × File :=
  match file.replies file.requests with
  | .refused error => (.error error, { file with requests := file.requests + 1 })
  | .delivered most =>
    let piece :=
      file.contents.extract file.position (file.position + min count (max most 1))
    (.ok piece,
      { file with position := file.position + piece.size, requests := file.requests + 1 })

/-- Makes requests until `count` bytes have been delivered after `gathered`, or the file ends.
A refusal loses what was gathered, but the file has moved past it. -/
def gather (count : Nat) (gathered : Bytes) (file : File) : Except SystemError Bytes × File :=
  if count = 0 then
    (.ok gathered, file)
  else
    match file.request count with
    | (.error error, file) => (.error error, file)
    | (.ok piece, file) =>
      if piece.size = 0 then
        (.ok gathered, file)
      else
        gather (count - piece.size) (gathered ++ piece) file
termination_by count

/-- Reads `count` bytes from the position on, fewer only at the end of the file. -/
def read (count : Nat) (file : File) : Except SystemError Bytes × File :=
  file.gather count #[]

/-- Moves the position. -/
def seek (offset : Nat) (file : File) : Except SystemError Unit × File :=
  if offset < offsetBound then
    (.ok (), { file with position := offset })
  else
    (.error .invalidArgument, file)

/-- Runs an action and puts the file back where it was, whatever became of the action. Nothing goes
wrong on the way back, so the outcome is that of the action. -/
def restoring {α : Type} (action : File → α × File) (file : File) : α × File :=
  let (outcome, moved) := action file
  (outcome, { moved with position := file.position })

/-- A request that delivers something brings the end of the file closer. -/
theorem remaining_request_lt {count : Nat} {file after : File} {piece : Bytes}
    (delivered : file.request count = (.ok piece, after)) (nonempty : piece.size ≠ 0) :
    after.remaining < file.remaining := by
  unfold request at delivered
  split at delivered
  · simp at delivered
  · simp only [Prod.mk.injEq, Except.ok.injEq] at delivered
    obtain ⟨rfl, rfl⟩ := delivered
    simp only [Array.size_extract] at nonempty
    simp only [remaining, Array.size_extract]
    omega

end File

end WasmText

import WasmText.Buffer.Refill

/-!
# Moving over a buffer

Looking ahead and moving refill the buffer as they need to. Nothing moves past the end of input.
-/

namespace WasmText.Buffer

/-- Starts a token at the cursor. -/
def beginToken (buffer : Buffer) : Buffer :=
  { buffer with token := buffer.cursor, marker := buffer.cursor }

/-- Moves the marker to the cursor. -/
def mark (buffer : Buffer) : Buffer :=
  { buffer with marker := buffer.cursor }

/-- The byte `ahead` of the cursor, or zero past the end. -/
def peek (ahead : Nat) (buffer : Buffer) : UInt8 × Buffer :=
  let buffer := buffer.reach ahead
  (buffer.byteAt (buffer.cursor + ahead), buffer)

/-- Whether there is no byte `ahead` of the cursor. -/
def isEndAt (ahead : Nat) (buffer : Buffer) : Bool × Buffer :=
  let buffer := buffer.reach ahead
  (decide (buffer.dataEnd ≤ buffer.cursor + ahead), buffer)

/-- Steps over `count` bytes, or as many as there are. -/
def advance : Nat → Buffer → Buffer
  | 0, buffer => buffer
  | count + 1, buffer =>
    match buffer.isEndAt 0 with
    | (true, buffer) => buffer
    | (false, buffer) => advance count { buffer with cursor := buffer.cursor + 1 }

/-- Steps over bytes as long as they satisfy a predicate, at most `count` of them. -/
def eatAtMost (accepts : UInt8 → Bool) : Nat → Buffer → Buffer
  | 0, buffer => buffer
  | count + 1, buffer =>
    match buffer.isEndAt 0 with
    | (true, buffer) => buffer
    | (false, buffer) =>
      if accepts (buffer.byteAt buffer.cursor) then
        eatAtMost accepts count { buffer with cursor := buffer.cursor + 1 }
      else
        buffer

/-- Steps over bytes as long as they satisfy a predicate. -/
def eatWhile (accepts : UInt8 → Bool) (buffer : Buffer) : Buffer :=
  eatAtMost accepts (buffer.remaining + 1) buffer

/-- Moves to the next byte that satisfies a predicate and gives it, or to the end. -/
def skipUntil (wanted : UInt8 → Bool) (buffer : Buffer) : Option UInt8 × Buffer :=
  let buffer := buffer.eatWhile fun byte => !wanted byte
  match buffer.isEndAt 0 with
  | (true, buffer) => (none, buffer)
  | (false, buffer) => (some (buffer.byteAt buffer.cursor), buffer)

/-- Takes the failure that stalled the buffer, which is thereby forgotten. -/
def takeFailure (buffer : Buffer) : Option RefillError × Buffer :=
  (buffer.failure, { buffer with failure := none })

/-- Searches the source underneath. -/
def search {α : Type} (query : Search α) (buffer : Buffer) : Except SourceError α × Buffer :=
  let (outcome, source) := query.run buffer.source
  (outcome, { buffer with source })

end WasmText.Buffer

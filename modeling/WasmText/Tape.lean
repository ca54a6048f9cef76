import WasmText.Buffer.Movement
import WasmText.Source.Search

/-!
# Tapes

A tape is what a scanner asks of its input: three offsets, looking ahead, moving forward, and
searching the source for error messages. A `Buffer` is a tape that holds a window of its source. A
`Cursor` is a tape that holds all of it, and says in the plainest way what a tape does.
-/

namespace WasmText

/-- The operations of a scanner's input. -/
class Tape (τ : Type) where
  /-- Starts a token, and its marker, at the cursor. -/
  beginToken : τ → τ
  /-- Moves the marker to the cursor. -/
  mark : τ → τ
  /-- The byte so far ahead of the cursor, or zero past the end. -/
  peek : Nat → τ → UInt8 × τ
  /-- Whether there is no byte so far ahead of the cursor. -/
  isEndAt : Nat → τ → Bool × τ
  /-- Steps over so many bytes, or as many as there are. -/
  advance : Nat → τ → τ
  /-- Steps over bytes as long as they satisfy a predicate. -/
  eatWhile : (UInt8 → Bool) → τ → τ
  /-- Moves to the next byte that satisfies a predicate and gives it, or to the end. -/
  skipUntil : (UInt8 → Bool) → τ → Option UInt8 × τ
  /-- The bytes of the token up to the cursor. -/
  tokenBytes : τ → Bytes
  /-- The bytes from the marker up to the cursor. -/
  markedBytes : τ → Bytes
  /-- The offset of the token's start. -/
  tokenOffset : τ → Nat
  /-- The offset of the marker. -/
  markerOffset : τ → Nat
  /-- The offset of the cursor. -/
  cursorOffset : τ → Nat
  /-- A bound on the number of bytes that the cursor can still pass. -/
  remaining : τ → Nat
  /-- Takes the failure that keeps further input from the tape, if there is one. -/
  takeFailure : τ → Option RefillError × τ
  /-- Searches the source underneath. -/
  search : {α : Type} → Search α → τ → Except SourceError α × τ

instance : Tape Buffer where
  beginToken := Buffer.beginToken
  mark := Buffer.mark
  peek := Buffer.peek
  isEndAt := Buffer.isEndAt
  advance := Buffer.advance
  eatWhile := Buffer.eatWhile
  skipUntil := Buffer.skipUntil
  tokenBytes := Buffer.tokenBytes
  markedBytes := Buffer.markedBytes
  tokenOffset := Buffer.token
  markerOffset := Buffer.marker
  cursorOffset := Buffer.cursor
  remaining := Buffer.remaining
  takeFailure := Buffer.takeFailure
  search := Buffer.search

/-- A place in a byte string, with the starts of the current token and of a part of it. -/
structure Cursor where
  /-- Every byte of the input. -/
  bytes : Bytes
  /-- The offset at which the current token starts. -/
  token : Nat
  /-- The offset at which a part of the token starts. -/
  marker : Nat
  /-- The offset of the next byte. -/
  offset : Nat
  deriving DecidableEq, Repr

namespace Cursor

/-- The place before the first byte. -/
def ofBytes (bytes : Bytes) : Cursor :=
  { bytes, token := 0, marker := 0, offset := 0 }

/-- The number of bytes from the cursor on that satisfy a predicate, before the first that does
not. -/
def runLength (accepts : UInt8 → Bool) (cursor : Cursor) : Nat :=
  ((cursor.bytes.toList.drop cursor.offset).takeWhile accepts).length

/-- Steps over `count` bytes, or as many as there are. -/
def advance (count : Nat) (cursor : Cursor) : Cursor :=
  { cursor with offset := cursor.offset + min count (cursor.bytes.size - cursor.offset) }

/-- Steps over bytes as long as they satisfy a predicate. -/
def eatWhile (accepts : UInt8 → Bool) (cursor : Cursor) : Cursor :=
  { cursor with offset := cursor.offset + cursor.runLength accepts }

/-- Moves to the next byte that satisfies a predicate and gives it, or to the end. -/
def skipUntil (wanted : UInt8 → Bool) (cursor : Cursor) : Option UInt8 × Cursor :=
  let cursor := cursor.eatWhile fun byte => !wanted byte
  (cursor.bytes[cursor.offset]?, cursor)

end Cursor

instance : Tape Cursor where
  beginToken cursor := { cursor with token := cursor.offset, marker := cursor.offset }
  mark cursor := { cursor with marker := cursor.offset }
  peek ahead cursor := (cursor.bytes.getOrZero (cursor.offset + ahead), cursor)
  isEndAt ahead cursor := (decide (cursor.bytes.size ≤ cursor.offset + ahead), cursor)
  advance := Cursor.advance
  eatWhile := Cursor.eatWhile
  skipUntil := Cursor.skipUntil
  tokenBytes cursor := cursor.bytes.extract cursor.token cursor.offset
  markedBytes cursor := cursor.bytes.extract cursor.marker cursor.offset
  tokenOffset := Cursor.token
  markerOffset := Cursor.marker
  cursorOffset := Cursor.offset
  remaining cursor := cursor.bytes.size - cursor.offset
  takeFailure cursor := (none, cursor)
  search query cursor := ((query.run (Source.ofBytes cursor.bytes)).1, cursor)

end WasmText

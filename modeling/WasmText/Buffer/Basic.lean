import WasmText.Source.Basic

/-!
# Buffers

A buffer shows a source through a window. The window holds the bytes from `base` on, and everything
from the start of the current token on stays in it. Offsets into the source count from its first
byte, so that moving the window changes none of them.

When the source has ended and there is room, zero bytes follow its last byte as padding. A zero is
the end of input only where the source has ended; elsewhere it is a byte like any other.
-/

namespace WasmText

/-- The capacity first allocated unless another is asked for. -/
def defaultCapacity : Nat := 64 * 1024

/-- The number of zero bytes that follow the last byte of the source. -/
def paddingSize : Nat := 16

/-- Allocations of `2 ^ 61` bytes and more always fail. -/
def defaultAllocationBound : Nat := 0x2000_0000_0000_0000

/-- Why a refill brought no bytes. -/
inductive RefillError where
  /-- The source has ended, which is no failure. -/
  | exhausted
  /-- A larger window could not be allocated. -/
  | outOfMemory
  /-- The size of a larger window passes the end of the address space. -/
  | capacityOverflow
  /-- The source refused to be read. -/
  | unreadable (error : SystemError)
  deriving DecidableEq, Repr

/-- The error in words. -/
def RefillError.message : RefillError → String
  | exhausted => "end of input"
  | outOfMemory => "unable to reallocate lexer buffer"
  | capacityOverflow => "lexer buffer size overflows the address space"
  | unreadable error => s!"unable to read source: {error.message}"

/-- A window over a source, with the three offsets that a scanner works with. -/
structure Buffer where
  /-- The source, read as far as the window's end. -/
  source : Source
  /-- The bytes in the window, padding included. -/
  window : Bytes
  /-- The offset of the window's first byte. -/
  base : Nat
  /-- The number of bytes that the window has room for. -/
  capacity : Nat
  /-- The offset at which the current token starts. -/
  token : Nat
  /-- The offset at which a part of the token starts. -/
  marker : Nat
  /-- The offset of the next byte. -/
  cursor : Nat
  /-- Whether the source has ended and the padding is in place. -/
  ended : Bool
  /-- Whether a refill has failed, after which none is tried any more. -/
  stalled : Bool
  /-- The failure that stalled the buffer, until it is taken. -/
  failure : Option RefillError
  /-- The capacity to allocate first. -/
  initialCapacity : Nat
  /-- The size from which on allocations fail. -/
  allocationBound : Nat

namespace Buffer

/-- A buffer over a source from which nothing has been read yet. -/
def ofSource (source : Source) : Buffer where
  source := source
  window := #[]
  base := 0
  capacity := 0
  token := 0
  marker := 0
  cursor := 0
  ended := false
  stalled := false
  failure := none
  initialCapacity := defaultCapacity
  allocationBound := defaultAllocationBound

/-- Chooses the capacity to allocate first, at least one byte. Once something has been allocated
the choice is made. -/
def setInitialCapacity (size : Nat) (buffer : Buffer) : Buffer :=
  if buffer.capacity = 0 then { buffer with initialCapacity := max size 1 } else buffer

/-- The offset of the window's end. -/
def limit (buffer : Buffer) : Nat :=
  buffer.base + buffer.window.size

/-- The offset of the end of what has been read, padding excluded. -/
def dataEnd (buffer : Buffer) : Nat :=
  if buffer.ended then buffer.limit - paddingSize else buffer.limit

/-- The number of bytes that the cursor can still pass, read or not. -/
def remaining (buffer : Buffer) : Nat :=
  (buffer.dataEnd - buffer.cursor) + buffer.source.remaining

/-- The byte at an offset, or zero outside the window. -/
def byteAt (buffer : Buffer) (offset : Nat) : UInt8 :=
  buffer.window.getOrZero (offset - buffer.base)

/-- The bytes of the window between two offsets. -/
def slice (buffer : Buffer) (first last : Nat) : Bytes :=
  buffer.window.extract (first - buffer.base) (last - buffer.base)

/-- The bytes of the current token up to the cursor. -/
def tokenBytes (buffer : Buffer) : Bytes :=
  buffer.slice buffer.token buffer.cursor

/-- The bytes from the marker up to the cursor. -/
def markedBytes (buffer : Buffer) : Bytes :=
  buffer.slice buffer.marker buffer.cursor

end Buffer

end WasmText

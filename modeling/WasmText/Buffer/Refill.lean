import WasmText.Buffer.Basic

/-!
# Refilling a buffer

A refill drops what lies before the current token. If that alone makes enough room, the rest moves
to the front of the window; otherwise the window grows by doubling. Then the source is read into
all of the room there is.
-/

namespace WasmText.Buffer

/-- Doubles a capacity until it has `shortage` bytes more than `old`, at most `doublings` times. -/
def doubled (old shortage : Nat) : Nat → Nat → Option Nat
  | 0, _ => none
  | doublings + 1, capacity =>
    if capacity - old < shortage then
      if 2 * capacity < addressSpace then
        doubled old shortage doublings (2 * capacity)
      else
        none
    else
      some capacity

/-- As many doublings take one byte to the end of the address space. -/
def maximalDoublings : Nat := 64

/-- The capacity that a window grows to, so that `need` bytes and the padding fit behind what stays
when `free` bytes are dropped, or nothing if that passes the end of the address space. -/
def grownCapacity? (buffer : Buffer) (need free : Nat) : Option Nat :=
  let shortage := need + paddingSize - free
  if buffer.capacity = 0 then
    doubled 0 shortage maximalDoublings buffer.initialCapacity
  else if 2 * buffer.capacity < addressSpace then
    doubled buffer.capacity shortage maximalDoublings (2 * buffer.capacity)
  else
    none

/-- Drops what lies before the current token, and grows the window if that is not enough room for
`need` more bytes. -/
def makeRoom (need : Nat) (buffer : Buffer) : Except RefillError Buffer :=
  let free := buffer.token - buffer.base
  let kept := buffer.window.extract free buffer.window.size
  if free < need then
    match buffer.grownCapacity? need free with
    | none => .error .capacityOverflow
    | some capacity =>
      if capacity < buffer.allocationBound then
        .ok { buffer with window := kept, base := buffer.base + free, capacity }
      else
        .error .outOfMemory
  else
    .ok { buffer with window := kept, base := buffer.base + free }

/-- Reads the source into all of the room behind the window. If the source ends short of it and the
padding still fits, the buffer has ended. -/
def readBehind (buffer : Buffer) : Except RefillError Unit × Buffer :=
  let room := buffer.capacity - buffer.window.size
  match buffer.source.read room with
  | (.error error, source) => (.error (.unreadable error), { buffer with source })
  | (.ok bytes, source) =>
    let window := buffer.window ++ bytes
    if bytes.size < room && paddingSize ≤ buffer.capacity - window.size then
      (.ok (), { buffer with
        source, window := window ++ Array.replicate paddingSize 0, ended := true })
    else
      (.ok (), { buffer with source, window })

/-- Makes room for at least `need` bytes behind the window and reads into it. -/
def refill (need : Nat) (buffer : Buffer) : Except RefillError Unit × Buffer :=
  if buffer.ended then
    (.error .exhausted, buffer)
  else
    match buffer.makeRoom need with
    | .error error => (.error error, buffer)
    | .ok roomy => roomy.readBehind

/-- Refills until the byte `ahead` of the cursor is in the window, at most `attempts` times. The
first refill that fails stalls the buffer and is kept for the scanner to find. -/
def reachWithin (ahead : Nat) : Nat → Buffer → Buffer
  | 0, buffer => buffer
  | attempts + 1, buffer =>
    if buffer.cursor + ahead < buffer.limit || buffer.ended || buffer.stalled then
      buffer
    else
      match buffer.refill (buffer.cursor + ahead + 1 - buffer.limit) with
      | (.ok (), refilled) => reachWithin ahead attempts refilled
      | (.error .exhausted, refilled) => refilled
      | (.error failure, refilled) => { refilled with stalled := true, failure := some failure }

/-- Refills until the byte `ahead` of the cursor is in the window or no refill can bring it there.
A refill that reads nothing is followed by one that settles the matter, so two more attempts than
there are bytes left to read are enough. -/
def reach (ahead : Nat) (buffer : Buffer) : Buffer :=
  reachWithin ahead (buffer.source.remaining + 2) buffer

end WasmText.Buffer

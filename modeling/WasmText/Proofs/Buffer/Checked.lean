import WasmText.Proofs.Buffer.Layout

/-!
# Checked refills

A window is an array, so what a refill does with the offsets it does with indices: it subtracts,
slices and writes. Here is the same refill once more, with every one of these operations checked. A
difference below zero, a slice that is not inside its array and a write that does not fit give
nothing, and so does a loop that runs out of attempts. In the layout that a buffer always has, no
check fails and what comes out is what the refill gives.
-/

namespace WasmText

/-- A difference, unless it is below zero. -/
def difference? (minuend subtrahend : Nat) : Option Nat :=
  if subtrahend ≤ minuend then some (minuend - subtrahend) else none

theorem difference?_of_le {minuend subtrahend : Nat} (ordered : subtrahend ≤ minuend) :
    difference? minuend subtrahend = some (minuend - subtrahend) :=
  if_pos ordered

/-- The bytes between two indices, unless these are out of order or past the end. -/
def Bytes.slice? (bytes : Bytes) (first last : Nat) : Option Bytes :=
  if first ≤ last ∧ last ≤ bytes.size then some (bytes.extract first last) else none

theorem Bytes.slice?_of_le {bytes : Bytes} {first last : Nat} (ordered : first ≤ last)
    (inside : last ≤ bytes.size) : bytes.slice? first last = some (bytes.extract first last) :=
  if_pos ⟨ordered, inside⟩

namespace Buffer

namespace Checked

/-- The index of an offset in the window. -/
def index (offset : Nat) (buffer : Buffer) : Option Nat :=
  difference? offset buffer.base

/-- The bytes of the window between two offsets. -/
def slice (first last : Nat) (buffer : Buffer) : Option Bytes := do
  buffer.window.slice? (← index first buffer) (← index last buffer)

/-- The offset of the end of what has been read, padding excluded. -/
def dataEnd (buffer : Buffer) : Option Nat :=
  if buffer.ended then do
    return buffer.base + (← difference? buffer.window.size paddingSize)
  else
    return buffer.limit

/-- Doubles a capacity until what it has more than `old` makes up `required` bytes with `free` ones
that are there. -/
def doubled (old free required : Nat) : Nat → Nat → Option (Option Nat)
  | 0, _ => none
  | doublings + 1, capacity => do
    if (← difference? capacity old) + free < required then
      if 2 * capacity < addressSpace then
        doubled old free required doublings (2 * capacity)
      else
        return none
    else
      return some capacity

/-- The capacity that a window grows to, or that there is none. -/
def grownCapacity (need free : Nat) (buffer : Buffer) : Option (Option Nat) :=
  if buffer.capacity = 0 then
    doubled 0 free (need + paddingSize) maximalDoublings buffer.initialCapacity
  else if 2 * buffer.capacity < addressSpace then
    doubled buffer.capacity free (need + paddingSize) maximalDoublings (2 * buffer.capacity)
  else
    return none

/-- The window from an index on. All indices become less by as much, and the offset of the first
byte becomes so much more. -/
def shifted (free : Nat) (buffer : Buffer) : Option Buffer := do
  let window ← buffer.window.slice? free buffer.window.size
  let token ← difference? (← index buffer.token buffer) free
  let marker ← difference? (← index buffer.marker buffer) free
  let cursor ← difference? (← index buffer.cursor buffer) free
  let base := buffer.base + free
  return { buffer with
    window, base, token := base + token, marker := base + marker, cursor := base + cursor }

/-- Drops what lies before the current token, and grows the window if that is not enough room for
`need` more bytes. -/
def makeRoom (need : Nat) (buffer : Buffer) : Option (Except RefillError Buffer) := do
  let free ← index buffer.token buffer
  if free < need then
    match ← grownCapacity need free buffer with
    | none => return .error .capacityOverflow
    | some capacity =>
      if capacity < buffer.allocationBound then
        return .ok (← shifted free { buffer with capacity })
      else
        return .error .outOfMemory
  else
    return .ok (← shifted free buffer)

/-- Writes bytes behind the window. -/
def written (bytes : Bytes) (buffer : Buffer) : Option Buffer :=
  if buffer.window.size + bytes.size ≤ buffer.capacity then
    some { buffer with window := buffer.window ++ bytes }
  else
    none

/-- Reads the source into all of the room behind the window, and writes the padding behind its last
byte. -/
def readBehind (buffer : Buffer) : Option (Except RefillError Unit × Buffer) := do
  let room ← difference? buffer.capacity buffer.window.size
  match buffer.source.read room with
  | (.error error, source) => return (.error (.unreadable error), { buffer with source })
  | (.ok bytes, source) =>
    let filled ← written bytes { buffer with source }
    if bytes.size < room && paddingSize ≤ (← difference? filled.capacity filled.window.size) then
      return (.ok (), { ← written (Array.replicate paddingSize 0) filled with ended := true })
    else
      return (.ok (), filled)

/-- Makes room for at least `need` bytes behind the window and reads into it. -/
def refill (need : Nat) (buffer : Buffer) : Option (Except RefillError Unit × Buffer) :=
  if buffer.ended then
    return (.error .exhausted, buffer)
  else do
    match ← makeRoom need buffer with
    | .error error => return (.error error, buffer)
    | .ok roomy => readBehind roomy

/-- Refills until the byte `ahead` of the cursor is in the window or no refill can bring it there. -/
def reachWithin (ahead : Nat) : Nat → Buffer → Option Buffer
  | 0, _ => none
  | attempts + 1, buffer =>
    if buffer.cursor + ahead < buffer.limit || buffer.ended || buffer.stalled then
      return buffer
    else do
      match ← refill (← difference? (buffer.cursor + ahead + 1) buffer.limit) buffer with
      | (.ok (), refilled) => reachWithin ahead attempts refilled
      | (.error .exhausted, refilled) => return refilled
      | (.error failure, refilled) =>
        return { refilled with stalled := true, failure := some failure }

/-- Refills until the byte `ahead` of the cursor is in the window, with one attempt more than the
refill itself makes, to see that it is. -/
def reach (ahead : Nat) (buffer : Buffer) : Option Buffer :=
  reachWithin ahead (buffer.source.remaining + 3) buffer

end Checked

variable {buffer : Buffer}

/-! ### The checks of a refill hold -/

theorem index_eq {offset : Nat} (inside : buffer.base ≤ offset) :
    Checked.index offset buffer = some (offset - buffer.base) :=
  difference?_of_le inside

/-- Doubling checks out if it starts from a capacity that is not smaller and soon passes the end of
the address space. -/
theorem doubled_eq {old free required doublings capacity : Nat} (scarce : free < required)
    (larger : old ≤ capacity) (enough : addressSpace ≤ 2 ^ (doublings + 1) * capacity) :
    Checked.doubled old free required (doublings + 1) capacity =
      some (doubled old (required - free) (doublings + 1) capacity) := by
  have short_iff : capacity - old + free < required ↔ capacity - old < required - free := by omega
  induction doublings generalizing capacity with
  | zero =>
      have no_room : ¬ 2 * capacity < addressSpace := Nat.not_lt.mpr enough
      rw [Checked.doubled, doubled, difference?_of_le larger]
      simp only [Option.bind_eq_bind, Option.bind_some, short_iff, if_neg no_room]
      split <;> rfl
  | succ doublings induction =>
      have further_enough : addressSpace ≤ 2 ^ (doublings + 1) * (2 * capacity) := by
        rwa [← Nat.mul_assoc, ← Nat.pow_succ]
      rw [Checked.doubled, doubled, difference?_of_le larger]
      simp only [Option.bind_eq_bind, Option.bind_some, short_iff]
      split
      · split
        · exact induction (by omega) further_enough (by omega)
        · rfl
      · rfl

namespace Sound

theorem grownCapacity_eq (sound : buffer.Sound) {need free : Nat} (scarce : free < need) :
    Checked.grownCapacity need free buffer = some (buffer.grownCapacity? need free) := by
  have positive := sound.positive
  have short : free < need + paddingSize := Nat.lt_add_right _ scarce
  unfold Checked.grownCapacity grownCapacity?
  dsimp only
  split
  · exact doubled_eq short (Nat.zero_le _) (Nat.le_mul_of_pos_right _ positive)
  · rename_i allocated
    split
    · exact doubled_eq short (Nat.le_mul_of_pos_left _ Nat.two_pos)
        (Nat.le_mul_of_pos_right _ (by omega))
    · rfl

/-- Shifting the indices leaves the offsets alone. -/
theorem shifted_eq (sound : buffer.Sound) (capacity : Nat) :
    Checked.shifted (buffer.token - buffer.base) { buffer with capacity } =
      some (buffer.dropped capacity) := by
  have base_le := sound.base_le_token
  have token_le := sound.token_le_marker
  have marker_le := sound.marker_le_cursor
  have inside := sound.token_le_limit
  rw [limit] at inside
  have offset_eq {offset : Nat} (behind : buffer.token ≤ offset) :
      buffer.base + (buffer.token - buffer.base) +
        (offset - buffer.base - (buffer.token - buffer.base)) = offset := by omega
  rw [Checked.shifted, Bytes.slice?_of_le (by dsimp only; omega) (Nat.le_refl _),
    index_eq (by exact base_le), index_eq (by dsimp only; omega), index_eq (by dsimp only; omega)]
  simp only [Option.bind_eq_bind, Option.bind_some]
  rw [difference?_of_le (Nat.le_refl _), difference?_of_le (by omega), difference?_of_le (by omega)]
  simp only [Option.bind_some, offset_eq (Nat.le_refl _), offset_eq token_le,
    offset_eq (Nat.le_trans token_le marker_le)]
  rfl

theorem makeRoom_eq (sound : buffer.Sound) (need : Nat) :
    Checked.makeRoom need buffer = some (buffer.makeRoom need) := by
  rw [Checked.makeRoom, index_eq sound.base_le_token]
  simp only [Option.bind_eq_bind, Option.bind_some]
  split
  · rename_i scarce
    rw [sound.grownCapacity_eq scarce, makeRoom_of_scarce scarce, Option.bind_some]
    cases buffer.grownCapacity? need (buffer.token - buffer.base) with
    | none => rfl
    | some capacity =>
        dsimp only
        split
        · rw [sound.shifted_eq]
          rfl
        · rfl
  · rename_i spare
    rw [makeRoom, if_neg spare, sound.shifted_eq buffer.capacity]
    rfl

end Sound

theorem written_eq {bytes : Bytes} (fits : buffer.window.size + bytes.size ≤ buffer.capacity) :
    Checked.written bytes buffer = some { buffer with window := buffer.window ++ bytes } :=
  if_pos fits

/-- What the source delivers fits into the room that it is asked to fill. -/
theorem readBehind_checked (window_le : buffer.window.size ≤ buffer.capacity) :
    Checked.readBehind buffer = some buffer.readBehind := by
  rw [Checked.readBehind, readBehind, difference?_of_le window_le]
  simp only [Option.bind_eq_bind, Option.bind_some]
  cases delivered : buffer.source.read (buffer.capacity - buffer.window.size) with
  | mk outcome moved =>
  cases outcome with
  | error error => rfl
  | ok bytes =>
      have bytes_size := congrArg Array.size (Source.read_ok delivered).1
      rw [Array.size_extract] at bytes_size
      dsimp only
      rw [written_eq (by dsimp only; omega)]
      simp only [Option.bind_some, Array.size_append]
      rw [difference?_of_le (by omega)]
      simp only [Option.bind_some]
      split
      · rename_i short
        simp only [Bool.and_eq_true, decide_eq_true_eq] at short
        rw [written_eq]
        · rfl
        · simp only [Array.size_append, Array.size_replicate]
          omega
      · rfl

theorem Sound.refill_checked (sound : buffer.Sound) (need : Nat) :
    Checked.refill need buffer = some (buffer.refill need) := by
  rw [Checked.refill, Buffer.refill]
  split
  · rfl
  rename_i running
  rw [Bool.not_eq_true] at running
  rw [sound.makeRoom_eq, Option.bind_eq_bind, Option.bind_some]
  cases made : buffer.makeRoom need with
  | error error => rfl
  | ok roomy =>
      have window_le := sound.window_le_capacity
      obtain ⟨capacity, rfl, enough⟩ := makeRoom_ok made
      have larger : buffer.capacity ≤ capacity := by
        rcases enough with ⟨-, same⟩ | ⟨scarce, grown⟩ <;> omega
      exact readBehind_checked (sound.dropped running larger).window_le_capacity

theorem checked_of_settled {ahead : Nat} (settled : buffer.Settled ahead) (attempts : Nat) :
    Checked.reachWithin ahead (attempts + 1) buffer = some buffer := by
  rw [Checked.reachWithin, if_pos]
  · rfl
  · simpa [Settled, or_assoc] using settled

/-- With one attempt more than it takes, the checked refills end. -/
theorem Sound.reachWithin_checked (sound : buffer.Sound) {ahead attempts : Nat}
    (enough : (Buffer.reachWithin ahead attempts buffer).Settled ahead) :
    Checked.reachWithin ahead (attempts + 1) buffer =
      some (Buffer.reachWithin ahead attempts buffer) := by
  induction attempts generalizing buffer with
  | zero => exact checked_of_settled enough 0
  | succ attempts induction =>
      by_cases settled : buffer.Settled ahead
      · rw [checked_of_settled settled, reachWithin_of_settled settled]
      have refilled_sound := sound.refill (buffer.cursor + ahead + 1 - buffer.limit)
      have checked := sound.refill_checked (buffer.cursor + ahead + 1 - buffer.limit)
      have goes_on : ¬ (decide (buffer.cursor + ahead < buffer.limit) || buffer.ended ||
          buffer.stalled) = true := by
        simpa [Settled, or_assoc] using settled
      have short : buffer.limit ≤ buffer.cursor + ahead + 1 :=
        Nat.le_succ_of_le (Nat.le_of_not_lt fun inside => settled (.inl inside))
      rw [reachWithin_succ attempts settled] at enough ⊢
      rw [Checked.reachWithin, if_neg goes_on, difference?_of_le short]
      simp only [Option.bind_eq_bind, Option.bind_some, checked]
      generalize buffer.refill (buffer.cursor + ahead + 1 - buffer.limit) = result at *
      obtain ⟨outcome, refilled⟩ := result
      match outcome with
      | .ok () => exact induction refilled_sound enough
      | .error .exhausted | .error .outOfMemory | .error .capacityOverflow |
        .error (.unreadable _) => rfl

theorem Sound.reach_checked (sound : buffer.Sound) (ahead : Nat) :
    Checked.reach ahead buffer = some (buffer.reach ahead) :=
  sound.reachWithin_checked (sound.fits.settled_reach ahead)

/-! ### The checks of a view hold -/

theorem slice_checked {first last : Nat} (inside : buffer.base ≤ first) (ordered : first ≤ last)
    (before_end : last ≤ buffer.limit) :
    Checked.slice first last buffer = some (buffer.slice first last) := by
  rw [limit] at before_end
  rw [Checked.slice, index_eq inside, index_eq (Nat.le_trans inside ordered)]
  exact Bytes.slice?_of_le (by omega) (by omega)

theorem Sound.dataEnd_checked (sound : buffer.Sound) :
    Checked.dataEnd buffer = some buffer.dataEnd := by
  rw [Checked.dataEnd, Buffer.dataEnd]
  split
  · rename_i ended
    have padded := sound.padding_le
    rw [padding, if_pos ended] at padded
    rw [difference?_of_le padded, Option.bind_eq_bind, Option.bind_some, limit,
      Nat.add_sub_assoc padded]
    rfl
  · rfl

end Buffer

end WasmText

import WasmText.Tape

/-!
# What lies ahead of a cursor

A cursor sees the rest of its bytes as a list. Looking ahead indexes the list and moving drops from
its front, so that a scanner over a cursor is a function of the list.
-/

namespace WasmText

namespace Cursor

/-- The bytes from the cursor on. -/
def ahead (cursor : Cursor) : List UInt8 :=
  cursor.bytes.toList.drop cursor.offset

/-- The cursor so many bytes further on. -/
def moved (count : Nat) (cursor : Cursor) : Cursor :=
  { cursor with offset := cursor.offset + count }

/-- The bytes of the token up to the cursor. -/
def pending (cursor : Cursor) : List UInt8 :=
  (Tape.tokenBytes cursor).toList

theorem length_ahead (cursor : Cursor) :
    cursor.ahead.length = cursor.bytes.size - cursor.offset := by
  rw [ahead, List.length_drop, Array.length_toList]

theorem ahead_moved (count : Nat) (cursor : Cursor) :
    (cursor.moved count).ahead = cursor.ahead.drop count := by
  rw [ahead, ahead, moved, List.drop_drop]

theorem getElem?_ahead (cursor : Cursor) (index : Nat) :
    cursor.ahead[index]? = cursor.bytes[cursor.offset + index]? := by
  rw [ahead, List.getElem?_drop, Array.getElem?_toList]

theorem peek_eq (distance : Nat) (cursor : Cursor) :
    Tape.peek distance cursor = (cursor.ahead[distance]?.getD 0, cursor) := by
  rw [getElem?_ahead]
  rfl

theorem isEndAt_eq (distance : Nat) (cursor : Cursor) :
    Tape.isEndAt distance cursor = (decide (cursor.ahead.length ≤ distance), cursor) := by
  rw [length_ahead]
  change (decide (cursor.bytes.size ≤ cursor.offset + distance), cursor) = _
  congr 2
  exact propext (by omega)

theorem advance_eq (count : Nat) (cursor : Cursor) :
    cursor.advance count = cursor.moved (min count cursor.ahead.length) := by
  rw [length_ahead]
  rfl

theorem advance_of_le {count : Nat} {cursor : Cursor} (inside : count ≤ cursor.ahead.length) :
    cursor.advance count = cursor.moved count := by
  rw [advance_eq, Nat.min_eq_left inside]

theorem eatWhile_eq (accepts : UInt8 → Bool) (cursor : Cursor) :
    cursor.eatWhile accepts = cursor.moved (cursor.ahead.takeWhile accepts).length :=
  rfl

theorem ahead_eatWhile (accepts : UInt8 → Bool) (cursor : Cursor) :
    (cursor.eatWhile accepts).ahead = cursor.ahead.dropWhile accepts := by
  rw [eatWhile_eq, ahead_moved]
  calc
    cursor.ahead.drop (cursor.ahead.takeWhile accepts).length =
        (cursor.ahead.takeWhile accepts ++ cursor.ahead.dropWhile accepts).drop
          (cursor.ahead.takeWhile accepts).length := by
      rw [List.takeWhile_append_dropWhile]
    _ = cursor.ahead.dropWhile accepts := List.drop_left

theorem skipUntil_eq (wanted : UInt8 → Bool) (cursor : Cursor) :
    cursor.skipUntil wanted =
      ((cursor.ahead.dropWhile fun byte => !wanted byte).head?,
        cursor.eatWhile fun byte => !wanted byte) := by
  rw [skipUntil, ← ahead_eatWhile, List.head?_eq_getElem?, getElem?_ahead]
  rfl

theorem extract_ahead (cursor : Cursor) (count : Nat) :
    cursor.bytes.extract cursor.offset (cursor.offset + count) =
      (cursor.ahead.take count).toArray := by
  apply Array.toList_inj.mp
  rw [Array.toList_extract, List.extract_eq_take_drop, Nat.add_sub_cancel_left]
  rfl

/-- A token grows by what is moved over. -/
theorem tokenBytes_moved {cursor : Cursor} (ordered : cursor.token ≤ cursor.offset) (count : Nat) :
    Tape.tokenBytes (cursor.moved count) = (cursor.pending ++ cursor.ahead.take count).toArray := by
  have split : cursor.bytes.extract cursor.token (cursor.offset + count) =
      cursor.bytes.extract cursor.token cursor.offset ++
        cursor.bytes.extract cursor.offset (cursor.offset + count) := by
    rw [Array.extract_append_extract, Nat.min_eq_left ordered, Nat.max_eq_right (by omega)]
  change cursor.bytes.extract cursor.token (cursor.offset + count) = _
  rw [split, extract_ahead, ← List.append_toArray]
  rfl

theorem markedBytes_moved {cursor : Cursor} (marked : cursor.marker = cursor.offset)
    (count : Nat) : Tape.markedBytes (cursor.moved count) = (cursor.ahead.take count).toArray := by
  change cursor.bytes.extract cursor.marker (cursor.offset + count) = _
  rw [marked, extract_ahead]

theorem advance_zero (cursor : Cursor) : cursor.advance 0 = cursor := by
  rw [advance_eq, Nat.zero_min]
  rfl

theorem advance_of_end (count : Nat) {cursor : Cursor}
    (at_end : cursor.bytes.size ≤ cursor.offset) : cursor.advance count = cursor := by
  rw [advance_eq, length_ahead, Nat.sub_eq_zero_of_le at_end, Nat.min_zero]
  rfl

/-- Steps are taken one by one. -/
theorem advance_of_lt (count : Nat) {cursor : Cursor}
    (inside : cursor.offset < cursor.bytes.size) :
    cursor.advance (count + 1) = (cursor.moved 1).advance count := by
  simp only [advance, moved]
  congr 1
  omega

/-- At the end nothing is eaten. -/
theorem eatWhile_of_end (accepts : UInt8 → Bool) {cursor : Cursor}
    (at_end : cursor.bytes.size ≤ cursor.offset) : cursor.eatWhile accepts = cursor := by
  have empty : cursor.ahead = [] := List.length_eq_zero_iff.mp (by rw [length_ahead]; omega)
  rw [eatWhile_eq, empty]
  rfl

/-- Eating goes byte by byte. -/
theorem eatWhile_of_lt (accepts : UInt8 → Bool) (cursor : Cursor)
    (inside : cursor.offset < cursor.bytes.size) :
    cursor.eatWhile accepts =
      if accepts (cursor.bytes.getOrZero cursor.offset) then
        (cursor.moved 1).eatWhile accepts
      else
        cursor := by
  have here : cursor.ahead =
      cursor.bytes.getOrZero cursor.offset :: (cursor.moved 1).ahead := by
    rw [ahead_moved, ahead, List.drop_eq_getElem_cons (by simpa using inside), List.drop_one,
      List.tail_cons, Bytes.getOrZero, Array.getElem?_eq_getElem inside]
    rfl
  rw [eatWhile_eq, here, List.takeWhile_cons]
  split
  · rw [eatWhile_eq]
    simp only [moved, List.length_cons]
    congr 1
    omega
  · rfl

end Cursor

end WasmText

import WasmText.Ascii
import WasmText.Proofs.Buffer.Refinement

/-!
# What is taken without a look at failures

Some of what a buffer does is right even after a refill has failed: only accepted bytes are eaten,
reaching ahead a second time changes nothing, and a source that serves its contents is never the
reason for a failure. A byte that is seen was there before any failure.
-/

namespace WasmText

namespace Buffer

variable {contents : Bytes} {buffer : Buffer}

/-! ### Eating -/

theorem Shows.accepted_eatAtMost (shows : buffer.Shows contents) (accepts : UInt8 → Bool)
    (count : Nat) {offset : Nat} (behind : buffer.cursor ≤ offset)
    (eaten : offset < (buffer.eatAtMost accepts count).cursor) :
    accepts (contents.getOrZero offset) = true := by
  induction count generalizing buffer with
  | zero => exact absurd eaten (Nat.not_lt.mpr behind)
  | succ count induction =>
      rw [Buffer.eatAtMost] at eaten
      split at eaten
      · rename_i after tested
        rw [(shows.isEndAt_zero tested).2.1.cursor] at eaten
        exact absurd eaten (Nat.not_lt.mpr behind)
      · rename_i after tested
        obtain ⟨after_shows, same, inside, -⟩ := shows.isEndAt_zero tested
        have byte_eq : some (after.byteAt after.cursor) = contents[buffer.cursor]? := by
          rw [← after_shows.byteAt_cursor (inside rfl), same.cursor]
        split at eaten
        · rename_i accepted
          rcases Nat.eq_or_lt_of_le behind with rfl | further
          · rw [Bytes.getOrZero, ← byte_eq]
            exact accepted
          · refine induction (after_shows.step (inside rfl)) ?_ eaten
            change after.cursor + 1 ≤ offset
            rwa [same.cursor]
        · rw [same.cursor] at eaten
          exact absurd eaten (Nat.not_lt.mpr behind)

theorem lasts_token (token : Nat) : Lasts fun buffer => buffer.token = token where
  reach := fun ahead same => (samePlace_reach _ ahead).token.trans same
  step := id

theorem lasts_marker (marker : Nat) : Lasts fun buffer => buffer.marker = marker where
  reach := fun ahead same => (samePlace_reach _ ahead).marker.trans same
  step := id

/-- A token that begins at the cursor holds accepted bytes only. -/
theorem Shows.accepted_tokenBytes (shows : buffer.Shows contents) (accepts : UInt8 → Bool)
    (started : buffer.token = buffer.cursor) :
    ∀ byte ∈ (buffer.eatWhile accepts).tokenBytes.toList, accepts byte = true := by
  have eaten_shows := (shows.eatWhile accepts).shows
  have token_eq : (buffer.eatWhile accepts).token = buffer.cursor :=
    (lasts_token buffer.cursor).eatWhile started accepts
  have bounded := Nat.le_trans eaten_shows.cursor_le_dataEnd eaten_shows.dataEnd_le_size
  change (buffer.eatWhile accepts).cursor ≤ contents.size at bounded
  intro byte present
  rw [eaten_shows.tokenBytes_eq, Array.mem_toList_iff] at present
  change byte ∈ contents.extract (buffer.eatWhile accepts).token _ at present
  rw [token_eq, Array.mem_extract_iff_getElem] at present
  obtain ⟨index, inside, byte_eq⟩ := present
  change index < min (buffer.eatWhile accepts).cursor contents.size - buffer.cursor at inside
  have eaten : buffer.cursor + index < (buffer.eatAtMost accepts (buffer.remaining + 1)).cursor := by
    change _ < (buffer.eatWhile accepts).cursor
    omega
  have accepted := shows.accepted_eatAtMost accepts _ (Nat.le_add_right _ _) eaten
  rw [Bytes.getOrZero, Array.getElem?_eq_getElem (by omega)] at accepted
  rw [← byte_eq]
  exact accepted

/-! ### Stepping -/

theorem advance_cursor_le (count : Nat) :
    (buffer.advance count).cursor ≤ buffer.cursor + count := by
  induction count generalizing buffer with
  | zero => exact Nat.le_refl _
  | succ count induction =>
      have reached := reach_cursor buffer 0
      rw [Buffer.advance]
      split
      · rename_i after tested
        obtain ⟨-, rfl⟩ := Prod.mk.inj tested
        omega
      · rename_i after tested
        obtain ⟨-, rfl⟩ := Prod.mk.inj tested
        refine Nat.le_trans induction ?_
        change (buffer.reach 0).cursor + 1 + count ≤ _
        omega

/-- The bytes from a marker at the cursor on are among those stepped over. -/
theorem Shows.mem_markedBytes (shows : buffer.Shows contents)
    (marked : buffer.marker = buffer.cursor) {count : Nat} {byte : UInt8}
    (present : byte ∈ (buffer.advance count).markedBytes.toList) :
    ∃ index < count, contents[buffer.cursor + index]? = some byte := by
  have stepped_shows := (shows.advance count).shows
  have marker_eq : (buffer.advance count).marker = buffer.cursor :=
    (lasts_marker buffer.cursor).advance marked count
  have cursor_le := buffer.advance_cursor_le count
  rw [stepped_shows.markedBytes_eq, Array.mem_toList_iff] at present
  change byte ∈ contents.extract (buffer.advance count).marker (buffer.advance count).cursor
    at present
  rw [marker_eq, Array.mem_extract_iff_getElem] at present
  obtain ⟨index, inside, byte_eq⟩ := present
  refine ⟨index, by omega, ?_⟩
  rw [Array.getElem?_eq_getElem (by omega), byte_eq]

theorem Shows.newline_not_mem_markedBytes (shows : buffer.Shows contents)
    (marked : buffer.marker = buffer.cursor) {first second : UInt8}
    (first_eq : contents[buffer.cursor]? = some first) (first_on_line : first ≠ Ascii.newline)
    (second_eq : contents[buffer.cursor + 1]? = some second)
    (second_on_line : second ≠ Ascii.newline) :
    Ascii.newline ∉ (buffer.advance 2).markedBytes.toList := by
  intro newline
  obtain ⟨index, below, newline_eq⟩ := shows.mem_markedBytes marked newline
  rcases Nat.lt_succ_iff_lt_or_eq.mp below with front | rfl
  · rw [Nat.lt_one_iff.mp front] at newline_eq
    exact first_on_line (Option.some.inj (first_eq.symm.trans newline_eq))
  · exact second_on_line (Option.some.inj (second_eq.symm.trans newline_eq))

/-! ### Looking ahead -/

/-- A byte that is seen and is not past the end of the data is one of the contents. -/
theorem Shows.getElem?_of_peek (shows : buffer.Shows contents) {ahead : Nat}
    (inside : buffer.cursor + ahead < (buffer.reach ahead).dataEnd) :
    contents[buffer.cursor + ahead]? = some (buffer.peek ahead).1 := by
  have reach_shows := shows.reach ahead
  have base_le := reach_shows.base_le_token
  have token_le := reach_shows.token_le_marker
  have marker_le := reach_shows.marker_le_cursor
  have bounded := reach_shows.dataEnd_le_size
  have behind : (buffer.reach ahead).base ≤ buffer.cursor + ahead := by
    rw [reach_cursor] at marker_le
    omega
  rw [Buffer.peek, reach_cursor, reach_shows.byteAt_eq behind inside, Bytes.getOrZero,
    Array.getElem?_eq_getElem (by omega)]
  rfl

/-- Once the window has been looked ahead in, the data tells where the end is. -/
theorem Shows.isEndAt_reach (shows : buffer.Shows contents) (ahead : Nat) :
    (buffer.reach ahead).isEndAt ahead =
      (decide ((buffer.reach ahead).dataEnd ≤ buffer.cursor + ahead), buffer.reach ahead) := by
  rw [Buffer.isEndAt, shows.fits.reach_reach, reach_cursor]

/-! ### Stalling -/

/-- A refill that fails brings no bytes. -/
theorem Shows.dataEnd_refill_error (shows : buffer.Shows contents) {need : Nat}
    {error : RefillError} {after : Buffer} (refilled : buffer.refill need = (.error error, after)) :
    after.dataEnd = buffer.dataEnd := by
  rcases refill_cases need buffer with
    ⟨-, unchanged⟩ | ⟨_, -, -, unchanged⟩ | ⟨capacity, running, -, larger, refill_eq⟩
  · cases unchanged.symm.trans refilled
    rfl
  · cases unchanged.symm.trans refilled
    rfl
  · have still_running : (buffer.dropped capacity).ended = false := running
    obtain ⟨-, -, dataEnd_eq⟩ := shows.dropped running larger
    obtain ⟨-, -, rfl⟩ := readBehind_error still_running (refill_eq.symm.trans refilled)
    exact dataEnd_eq

/-- Reaching ahead stalls only where the data ends. -/
theorem Shows.past_of_reachWithin (shows : buffer.Shows contents)
    (flowing : buffer.stalled = false) {ahead attempts : Nat}
    (stalled : (Buffer.reachWithin ahead attempts buffer).stalled = true) :
    (Buffer.reachWithin ahead attempts buffer).dataEnd ≤ buffer.cursor + ahead := by
  induction attempts generalizing buffer with
  | zero => exact Bool.noConfusion (stalled.symm.trans flowing)
  | succ attempts induction =>
      by_cases settled : buffer.Settled ahead
      · rw [reachWithin_of_settled settled] at stalled
        exact Bool.noConfusion (stalled.symm.trans flowing)
      rw [reachWithin_succ attempts settled] at stalled ⊢
      simp only [Settled, not_or, Bool.not_eq_true] at settled
      obtain ⟨short, running, -⟩ := settled
      split
      · rename_i refilled outcome
        have kept := kept_refill (buffer.cursor + ahead + 1 - buffer.limit) buffer
        rw [outcome] at stalled kept
        rw [← kept.cursor]
        exact induction (shows.refill flowing outcome).1 (kept.stalled.trans flowing) stalled
      · rename_i refilled outcome
        rw [ended_of_refill outcome] at running
        cases running
      · rename_i failure refilled _ outcome
        change refilled.dataEnd ≤ _
        rw [shows.dataEnd_refill_error outcome, dataEnd, running, if_neg Bool.false_ne_true]
        exact Nat.not_lt.mp short

/-- Whether the data ends ahead is known without a failed refill if it does not. -/
theorem Shows.flowing_of_reach (shows : buffer.Shows contents) (flowing : buffer.stalled = false)
    {ahead : Nat} (inside : buffer.cursor + ahead < (buffer.reach ahead).dataEnd) :
    (buffer.reach ahead).stalled = false := by
  rw [← Bool.not_eq_true]
  intro stalled
  exact Nat.not_le.mpr inside (shows.past_of_reachWithin flowing stalled)

/-- Eating stalls only where the data ends. -/
theorem Shows.past_of_eatAtMost (shows : buffer.Shows contents) (flowing : buffer.stalled = false)
    {accepts : UInt8 → Bool} {count : Nat}
    (stalled : (buffer.eatAtMost accepts count).stalled = true) :
    (buffer.eatAtMost accepts count).dataEnd ≤ (buffer.eatAtMost accepts count).cursor := by
  induction count generalizing buffer with
  | zero => exact Bool.noConfusion (stalled.symm.trans flowing)
  | succ count induction =>
      rw [Buffer.eatAtMost] at stalled ⊢
      split
      · rename_i after tested
        obtain ⟨at_end, rfl⟩ := Prod.mk.inj tested
        simpa using at_end
      · rename_i after tested
        obtain ⟨after_shows, -, inside, -⟩ := shows.isEndAt_zero tested
        have before_end := inside rfl
        have after_flowing : after.stalled = false := by
          obtain ⟨-, rfl⟩ := Prod.mk.inj tested
          rw [reach_cursor, ← Nat.add_zero buffer.cursor] at before_end
          exact shows.flowing_of_reach flowing before_end
        rw [tested] at stalled
        dsimp only at stalled
        split
        · rename_i accepted
          rw [if_pos accepted] at stalled
          exact induction (after_shows.step before_end) after_flowing stalled
        · rename_i rejected
          rw [if_neg rejected] at stalled
          exact Bool.noConfusion (stalled.symm.trans after_flowing)

/-- A byte that is looked for is found without a failed refill. -/
theorem Shows.flowing_of_skipUntil (shows : buffer.Shows contents)
    (flowing : buffer.stalled = false) {wanted : UInt8 → Bool} {byte : UInt8} {after : Buffer}
    (found : buffer.skipUntil wanted = (some byte, after)) :
    after.stalled = false ∧ after.cursor < after.dataEnd := by
  have eaten_shows := (shows.eatWhile fun byte => !wanted byte).shows
  have eaten_past := @Shows.past_of_eatAtMost contents buffer shows flowing
    (fun byte => !wanted byte) (buffer.remaining + 1)
  change (buffer.eatWhile fun byte => !wanted byte).stalled = true → _ at eaten_past
  unfold Buffer.skipUntil at found
  change Buffer.Shows contents (buffer.eatWhile fun byte => !wanted byte) at eaten_shows
  change _ → (buffer.eatWhile fun byte => !wanted byte).dataEnd ≤
    (buffer.eatWhile fun byte => !wanted byte).cursor at eaten_past
  generalize (buffer.eatWhile fun byte => !wanted byte) = eaten at eaten_shows eaten_past found
  dsimp only at found
  split at found
  · cases found
  rename_i reached tested
  cases found
  have inside := (eaten_shows.isEndAt_zero tested).2.2.1 rfl
  refine ⟨?_, inside⟩
  obtain ⟨-, rfl⟩ := Prod.mk.inj tested
  cases eaten_stalled : eaten.stalled with
  | true =>
      rw [Buffer.reach, reachWithin_of_settled (.inr (.inr eaten_stalled))] at inside
      exact absurd inside (Nat.not_lt.mpr (eaten_past eaten_stalled))
  | false =>
      rw [reach_cursor, ← Nat.add_zero eaten.cursor] at inside
      exact eaten_shows.flowing_of_reach eaten_stalled inside

/-- A step over a byte that is there needs no refill. -/
theorem Shows.stalled_advance_one (shows : buffer.Shows contents)
    (inside : buffer.cursor < buffer.dataEnd) :
    (buffer.advance 1).stalled = buffer.stalled := by
  have in_window : buffer.cursor + 0 < buffer.limit := by
    rw [shows.limit_eq]
    exact Nat.lt_of_lt_of_le inside (Nat.le_add_right _ _)
  have tested : buffer.isEndAt 0 = (false, buffer) := by
    rw [Buffer.isEndAt, Buffer.reach, reachWithin_of_settled (.inl in_window)]
    simpa using inside
  rw [Buffer.advance, tested]
  rfl

/-! ### Failures -/

/-- A source that serves its contents, and has not been the reason for a failure. -/
structure Willing (contents : Bytes) (buffer : Buffer) : Prop where
  /-- The source serves the contents. -/
  serves : buffer.source.Serves contents
  /-- The failure is another one. -/
  readable : ∀ error, buffer.failure ≠ some (.unreadable error)

theorem refill_ne_unreadable (serves : buffer.source.Serves contents) {need : Nat}
    {refilled : Buffer} (error : SystemError) :
    buffer.refill need ≠ (.error (.unreadable error), refilled) := by
  intro outcome
  rcases refill_cases need buffer with
    ⟨-, unchanged⟩ | ⟨_, -, error_eq, unchanged⟩ | ⟨capacity, running, -, -, refill_eq⟩
  · cases unchanged.symm.trans outcome
  · cases unchanged.symm.trans outcome
    rcases error_eq with same | same <;> cases same
  · have still_running : (buffer.dropped capacity).ended = false := running
    obtain ⟨bytes, after, delivered⟩ :=
      serves.exists_read (capacity - (buffer.dropped capacity).window.size)
    rcases readBehind_eq still_running with
      ⟨refusal, source, refused, -⟩ | ⟨bytes, source, ended, -, read_eq, -⟩
    · cases refused.symm.trans delivered
    · cases read_eq.symm.trans (refill_eq.symm.trans outcome)

theorem lasts_willing : Lasts (Willing contents) where
  reach := fun ahead willing => by
    refine reachWithin_keeps (Willing contents) ?_ ?_ willing ahead _
    · intro buffer need willing
      exact ⟨serves_refill willing.serves need, (kept_refill need buffer).failure ▸ willing.readable⟩
    · intro buffer refilled need failure _ willing outcome refilled_willing
      refine ⟨refilled_willing.serves, fun error same => ?_⟩
      cases same
      exact refill_ne_unreadable willing.serves error outcome
  step := fun willing => ⟨willing.serves, willing.readable⟩

end Buffer

end WasmText

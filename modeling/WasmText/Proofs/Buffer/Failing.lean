import WasmText.Proofs.Buffer.Operations

/-!
# Failed refills

A refill that fails does no harm. Without room for a larger window nothing happens at all, and a
source that cannot be read costs only what lies before the token. A failure that is met on the way
freezes the window: what is in it can be read as before, behind it the input ends, and the failure
waits to be taken.
-/

namespace WasmText

namespace Buffer

variable {buffer before after : Buffer} {need ahead : Nat}

/-! ### What a refill comes to -/

/-- All that can become of a refill. -/
inductive Refilled (buffer : Buffer) : Except RefillError Unit × Buffer → Prop
  /-- There is nothing left to read. -/
  | exhausted (ended : buffer.ended = true) : Refilled buffer (.error .exhausted, buffer)
  /-- There is no larger window to be had. -/
  | cramped {error : RefillError} (running : buffer.ended = false)
      (error_eq : error = .outOfMemory ∨ error = .capacityOverflow) :
      Refilled buffer (.error error, buffer)
  /-- Room is made, but the source refuses to be read. -/
  | refused {capacity : Nat} {error : SystemError} {source : Source}
      (running : buffer.ended = false) :
      Refilled buffer (.error (.unreadable error), { buffer.dropped capacity with source })
  /-- Room is made and bytes are read into it. -/
  | read {capacity : Nat} {source : Source} {bytes : Bytes} {ended : Bool}
      (running : buffer.ended = false) :
      Refilled buffer (.ok (), (buffer.dropped capacity).extended source bytes ended)

theorem refilled (need : Nat) (buffer : Buffer) : Refilled buffer (buffer.refill need) := by
  rcases refill_cases need buffer with
    ⟨ended, unchanged⟩ | ⟨error, running, error_eq, unchanged⟩ | ⟨capacity, running, -, -, refill_eq⟩
  · exact unchanged ▸ .exhausted ended
  · exact unchanged ▸ .cramped running error_eq
  have roomy_running : (buffer.dropped capacity).ended = false := running
  rw [refill_eq]
  rcases readBehind_eq roomy_running with
    ⟨error, source, -, read_eq⟩ | ⟨bytes, source, ended, -, read_eq, -⟩
  · rw [read_eq]
    exact .refused running
  · rw [read_eq]
    exact .read running

/-! ### Dropping and extending -/

/-- Behind the window every byte is zero. -/
theorem byteAt_of_limit_le {offset : Nat} (past : buffer.limit ≤ offset) :
    buffer.byteAt offset = 0 := by
  rw [limit] at past
  rw [byteAt, Bytes.getOrZero, Array.getElem?_eq_none (by omega)]
  rfl

section Dropped

variable (capacity : Nat)

/-- No byte from the token on is dropped. -/
theorem byteAt_dropped {offset : Nat} (behind : buffer.token ≤ offset) :
    (buffer.dropped capacity).byteAt offset = buffer.byteAt offset := by
  have index_eq : buffer.token - buffer.base +
      (offset - (buffer.base + (buffer.token - buffer.base))) = offset - buffer.base := by omega
  simp only [byteAt, Bytes.getOrZero, dropped, Array.getElem?_extract, Nat.min_self, index_eq]
  split
  · rfl
  · rw [Array.getElem?_eq_none (by omega)]

theorem slice_dropped {first : Nat} (behind : buffer.token ≤ first) (last : Nat) :
    (buffer.dropped capacity).slice first last = buffer.slice first last := by
  simp only [slice, dropped, Array.extract_extract]
  have first_eq : buffer.token - buffer.base +
      (first - (buffer.base + (buffer.token - buffer.base))) = first - buffer.base := by omega
  rw [first_eq]
  by_cases ordered : first ≤ last
  · apply Array.extract_eq_extract_right.mpr
    omega
  · rw [Array.extract_eq_empty_of_le (by omega), Array.extract_eq_empty_of_le (by omega)]

end Dropped

/-! ### Bytes stay -/

/-- The offsets are in order, and there is no failure without a stall. -/
structure Framed (buffer : Buffer) : Prop where
  /-- Nothing of the current token has been dropped. -/
  base_le_token : buffer.base ≤ buffer.token
  /-- The marker is inside the token. -/
  token_le_marker : buffer.token ≤ buffer.marker
  /-- The marker is not ahead of the cursor. -/
  marker_le_cursor : buffer.marker ≤ buffer.cursor
  /-- The cursor is not ahead of what has been read. -/
  cursor_le_dataEnd : buffer.cursor ≤ buffer.dataEnd
  /-- As long as no refill has failed, there is no failure to be taken. -/
  failure_eq : buffer.stalled = false → buffer.failure = none

theorem Framed.token_le_limit (framed : buffer.Framed) : buffer.token ≤ buffer.limit := by
  have limit_le := buffer.dataEnd_le_limit
  obtain ⟨-, token_le, marker_le, cursor_le, -⟩ := framed
  omega

theorem Framed.dataEnd_dropped (framed : buffer.Framed) (running : buffer.ended = false)
    (capacity : Nat) : (buffer.dropped capacity).dataEnd = buffer.dataEnd :=
  Buffer.dataEnd_dropped capacity running framed.token_le_limit

/-- The token goes on, and none of the bytes from its start on is lost. -/
structure Grown (before after : Buffer) : Prop where
  /-- The token's start stays. -/
  token : after.token = before.token
  /-- The marker stays. -/
  marker : after.marker = before.marker
  /-- The cursor does not go back. -/
  cursor_le : before.cursor ≤ after.cursor
  /-- What has been read does not become less. -/
  dataEnd_le : before.dataEnd ≤ after.dataEnd
  /-- The bytes are the same. -/
  byteAt_eq : ∀ offset, before.token ≤ offset → offset < before.dataEnd →
    after.byteAt offset = before.byteAt offset

theorem Grown.refl (buffer : Buffer) : Grown buffer buffer :=
  ⟨rfl, rfl, Nat.le_refl _, Nat.le_refl _, fun _ _ _ => rfl⟩

theorem Grown.trans {first second third : Buffer} (left : Grown first second)
    (right : Grown second third) : Grown first third where
  token := right.token.trans left.token
  marker := right.marker.trans left.marker
  cursor_le := Nat.le_trans left.cursor_le right.cursor_le
  dataEnd_le := Nat.le_trans left.dataEnd_le right.dataEnd_le
  byteAt_eq := fun offset behind inside =>
    (right.byteAt_eq offset (left.token ▸ behind) (Nat.lt_of_lt_of_le inside left.dataEnd_le)).trans
      (left.byteAt_eq offset behind inside)

theorem Framed.grown_dropped (framed : buffer.Framed) (running : buffer.ended = false)
    (capacity : Nat) : Grown buffer (buffer.dropped capacity) where
  token := rfl
  marker := rfl
  cursor_le := Nat.le_refl _
  dataEnd_le := Nat.le_of_eq (framed.dataEnd_dropped running capacity).symm
  byteAt_eq := fun _ behind _ => byteAt_dropped capacity behind

theorem grown_extended (running : buffer.ended = false) (base_le : buffer.base ≤ buffer.token)
    (source : Source) (bytes : Bytes) (ended : Bool) :
    Grown buffer (buffer.extended source bytes ended) where
  token := rfl
  marker := rfl
  cursor_le := Nat.le_refl _
  dataEnd_le := by
    rw [dataEnd_extended running]
    exact Nat.le_add_right _ _
  byteAt_eq := by
    intro offset behind inside
    rw [dataEnd_of_running running, limit] at inside
    have in_window : offset - buffer.base < buffer.window.size := by omega
    simp only [byteAt, Bytes.getOrZero, extended]
    rw [Array.append_assoc, Array.getElem?_append_left in_window]

/-- Whatever comes of a refill, no byte from the token on is lost. -/
theorem Refilled.grown {outcome : Except RefillError Unit × Buffer}
    (refilled : Refilled buffer outcome) (framed : buffer.Framed) : Grown buffer outcome.2 := by
  cases refilled with
  | exhausted | cramped => exact Grown.refl buffer
  | @refused capacity _ _ running =>
      obtain ⟨token, marker, cursor_le, dataEnd_le, byteAt_eq⟩ :=
        framed.grown_dropped running capacity
      exact ⟨token, marker, cursor_le, dataEnd_le, byteAt_eq⟩
  | @read capacity source bytes ended running =>
      have after_running : (buffer.dropped capacity).ended = false := running
      have base_le : (buffer.dropped capacity).base ≤ (buffer.dropped capacity).token := by
        have before_base := framed.base_le_token
        simp only [dropped]
        omega
      exact (framed.grown_dropped running capacity).trans
        (grown_extended after_running base_le source bytes ended)

theorem Refilled.base_le {outcome : Except RefillError Unit × Buffer}
    (refilled : Refilled buffer outcome) (framed : buffer.Framed) :
    outcome.2.base ≤ buffer.token := by
  have before_base := framed.base_le_token
  cases refilled with
  | exhausted | cramped => exact before_base
  | refused | read =>
      simp only [dropped, extended]
      omega

/-- A refill keeps the offsets in order. -/
theorem Framed.refill (framed : buffer.Framed) (need : Nat) :
    (buffer.refill need).2.Framed := by
  have refilled := refilled need buffer
  obtain ⟨token, marker, cursor_le, dataEnd_le, -⟩ := refilled.grown framed
  have kept := kept_refill need buffer
  have before_cursor := framed.cursor_le_dataEnd
  refine ⟨?_, ?_, ?_, ?_, ?_⟩
  · rw [token]
    exact refilled.base_le framed
  · rw [token, marker]
    exact framed.token_le_marker
  · rw [marker, kept.cursor]
    exact framed.marker_le_cursor
  · rw [kept.cursor]
    exact Nat.le_trans before_cursor dataEnd_le
  · rw [kept.stalled, kept.failure]
    exact framed.failure_eq

/-! ### Meeting a failure -/

/-- Two states of a buffer that show the same bytes and have read as far. -/
structure SameWindow (before after : Buffer) : Prop where
  /-- The source stays as it is. -/
  source : after.source = before.source
  /-- The bytes stay as they are. -/
  window : after.window = before.window
  /-- They stay where they are. -/
  base : after.base = before.base
  /-- There is as much room for them. -/
  capacity : after.capacity = before.capacity
  /-- The source has ended if it had. -/
  ended : after.ended = before.ended

theorem SameWindow.refl (buffer : Buffer) : SameWindow buffer buffer :=
  ⟨rfl, rfl, rfl, rfl, rfl⟩

theorem SameWindow.trans {first second third : Buffer} (left : SameWindow first second)
    (right : SameWindow second third) : SameWindow first third :=
  ⟨right.source.trans left.source, right.window.trans left.window, right.base.trans left.base,
    right.capacity.trans left.capacity, right.ended.trans left.ended⟩

theorem SameWindow.byteAt_eq (same : SameWindow before after) (offset : Nat) :
    after.byteAt offset = before.byteAt offset := by
  rw [byteAt, byteAt, same.window, same.base]

theorem SameWindow.dataEnd_eq (same : SameWindow before after) : after.dataEnd = before.dataEnd := by
  rw [dataEnd, dataEnd, limit, limit, same.window, same.base, same.ended]

/-- A refill on the way has failed, and it was the last one. -/
structure Meets (before after : Buffer) (error : RefillError) : Prop where
  /-- It is no failure that the source has ended. -/
  no_end : error ≠ .exhausted
  /-- The failure is kept. -/
  failure_eq : after.failure = some error
  /-- The refill failed on the way, and left the window that is there. -/
  last_refill : ∃ (middle : Buffer) (need : Nat) (refilled : Buffer), Grown before middle ∧
    middle.refill need = (.error error, refilled) ∧ SameWindow refilled after

/-- A failure is met before the source has ended. -/
theorem Meets.running {error : RefillError} (meets : Meets before after error) :
    after.ended = false := by
  obtain ⟨no_end, -, middle, need, last, -, outcome, same⟩ := meets
  have refilled := refilled need middle
  rw [outcome] at refilled
  rw [same.ended]
  cases refilled with
  | exhausted => exact absurd rfl no_end
  | cramped running | refused running => exact running

/-- What a buffer comes to by looking ahead and moving. -/
structure Course (before after : Buffer) : Prop where
  /-- The offsets are in order. -/
  framed : after.Framed
  /-- No byte from the token on is lost. -/
  grown : Grown before after
  /-- Where the buffer stalls, it has met a failure. -/
  meets : before.stalled = false → after.stalled = true → ∃ error, Meets before after error

theorem Framed.course (framed : buffer.Framed) : Course buffer buffer :=
  ⟨framed, Grown.refl buffer, fun flowing stalled => nomatch flowing.symm.trans stalled⟩

theorem reach_of_stalled (stalled : buffer.stalled = true) : buffer.reach ahead = buffer :=
  reachWithin_of_settled (.inr (.inr stalled)) _

theorem Course.reachWithin (course : Course before buffer) (ahead attempts : Nat) :
    Course before (Buffer.reachWithin ahead attempts buffer) := by
  induction attempts generalizing buffer with
  | zero => exact course
  | succ attempts induction =>
      by_cases settled : buffer.Settled ahead
      · rw [reachWithin_of_settled settled]
        exact course
      rw [reachWithin_succ attempts settled]
      simp only [Settled, not_or, Bool.not_eq_true] at settled
      obtain ⟨-, -, flowing⟩ := settled
      generalize buffer.cursor + ahead + 1 - buffer.limit = need
      have framed := course.framed.refill need
      have grown := course.grown.trans ((refilled need buffer).grown course.framed)
      have kept := kept_refill need buffer
      split
      · rename_i refilled outcome
        rw [outcome] at framed grown kept
        refine induction ⟨framed, grown, fun _ stalled => ?_⟩
        cases (kept.stalled.trans flowing).symm.trans stalled
      · rename_i refilled outcome
        rw [refill_of_ended (ended_of_refill outcome)] at outcome
        cases outcome
        exact course
      · rename_i failure refilled no_end outcome
        rw [outcome] at framed grown
        refine ⟨{ framed with failure_eq := Bool.noConfusion }, ?_, fun _ _ => ?_⟩
        · exact ⟨grown.token, grown.marker, grown.cursor_le, grown.dataEnd_le, grown.byteAt_eq⟩
        · exact ⟨failure, no_end, rfl, buffer, need, refilled, course.grown, outcome,
            ⟨rfl, rfl, rfl, rfl, rfl⟩⟩

theorem Course.step (course : Course before buffer) (inside : buffer.cursor < buffer.dataEnd) :
    Course before { buffer with cursor := buffer.cursor + 1 } := by
  obtain ⟨framed, grown, meets⟩ := course
  refine ⟨?_, ?_, fun flowing stalled => ?_⟩
  · exact { framed with
      marker_le_cursor := Nat.le_succ_of_le framed.marker_le_cursor
      cursor_le_dataEnd := inside }
  · exact { grown with cursor_le := Nat.le_succ_of_le grown.cursor_le }
  · obtain ⟨error, no_end, failure_eq, middle, need, last, earlier, outcome, same⟩ :=
      meets flowing stalled
    exact ⟨error, no_end, failure_eq, middle, need, last, earlier, outcome,
      same.trans ⟨rfl, rfl, rfl, rfl, rfl⟩⟩

theorem endures_course (before : Buffer) : Endures (Course before) where
  reach := fun ahead course => course.reachWithin ahead _
  step := Course.step

end Buffer

namespace Operation

/-- Whether an operation only looks ahead, moves or asks for something, rather than manage the
window. -/
def scans : Operation → Bool
  | setInitialCapacity _ | refill _ => false
  | _ => true

/-- Whether an operation looks ahead or steps on, for which it may have to refill. -/
def looksAhead : Operation → Bool
  | advance _ | peek _ | isEndAt _ | eatWhile _ | skipUntil _ => true
  | _ => false

end Operation

namespace Buffer

variable {buffer before after : Buffer} {need ahead : Nat}

theorem Course.onBuffer (course : Course before buffer) {operation : Operation}
    (looks : operation.looksAhead = true) : Course before (operation.onBuffer buffer).2 := by
  cases operation with
  | advance count => exact (endures_course before).advance course count
  | peek ahead | isEndAt ahead => exact (endures_course before).reach ahead course
  | eatWhile accepts => exact (endures_course before).eatWhile course accepts
  | skipUntil wanted => exact (endures_course before).skipUntil course wanted
  | beginToken | mark | tokenBytes | markedBytes | tokenOffset | markerOffset | cursorOffset |
    setInitialCapacity | refill => cases looks

/-- Only an operation that looks ahead can stall a buffer. -/
theorem looksAhead_of_stalled {operation : Operation} (flowing : buffer.stalled = false)
    (stalled : (operation.onBuffer buffer).2.stalled = true) : operation.looksAhead = true := by
  cases operation with
  | advance | peek | isEndAt | eatWhile | skipUntil => rfl
  | beginToken | mark | tokenBytes | markedBytes | tokenOffset | markerOffset | cursorOffset =>
      cases flowing.symm.trans stalled
  | setInitialCapacity size =>
      cases (flowing.symm.trans (stalled_setInitialCapacity size).symm).trans stalled
  | refill need => cases (flowing.symm.trans (kept_refill need buffer).stalled.symm).trans stalled

/-! ### Reachable buffers -/

/-- What a buffer over a source comes to by operations. Between them its failure may be taken, and
its source be used for anything else. -/
inductive Reached : Buffer → Prop
  | opened (source : Source) (size bound : Nat) : Reached (opened source size bound)
  | operation {buffer : Buffer} (operation : Operation) (reached : Reached buffer) :
      Reached (operation.onBuffer buffer).2
  | takeFailure {buffer : Buffer} (reached : Reached buffer) : Reached buffer.takeFailure.2
  | source {buffer : Buffer} (source : Source) (reached : Reached buffer) :
      Reached { buffer with source }

theorem Framed.beginToken (framed : buffer.Framed) : buffer.beginToken.Framed := by
  obtain ⟨base_le, token_le, marker_le, cursor_le, failure_eq⟩ := framed
  exact ⟨Nat.le_trans base_le (Nat.le_trans token_le marker_le), Nat.le_refl _, Nat.le_refl _,
    cursor_le, failure_eq⟩

theorem Framed.mark (framed : buffer.Framed) : buffer.mark.Framed := by
  obtain ⟨base_le, token_le, marker_le, cursor_le, failure_eq⟩ := framed
  exact ⟨base_le, Nat.le_trans token_le marker_le, Nat.le_refl _, cursor_le, failure_eq⟩

theorem Framed.setInitialCapacity (framed : buffer.Framed) (size : Nat) :
    (buffer.setInitialCapacity size).Framed := by
  rw [Buffer.setInitialCapacity]
  split
  · exact { framed with }
  · exact framed

theorem framed_opened (source : Source) (size bound : Nat) : (opened source size bound).Framed := by
  have empty : (ofSource source).Framed :=
    ⟨Nat.le_refl _, Nat.le_refl _, Nat.le_refl _, Nat.le_refl _, fun _ => rfl⟩
  exact { empty.setInitialCapacity size with }

theorem Framed.onBuffer (framed : buffer.Framed) (operation : Operation) :
    (operation.onBuffer buffer).2.Framed := by
  cases operation with
  | advance | peek | isEndAt | eatWhile | skipUntil => exact (framed.course.onBuffer rfl).framed
  | tokenBytes | markedBytes | tokenOffset | markerOffset | cursorOffset => exact framed
  | beginToken => exact framed.beginToken
  | mark => exact framed.mark
  | setInitialCapacity size => exact framed.setInitialCapacity size
  | refill need => exact framed.refill need

theorem Reached.framed (reached : Reached buffer) : buffer.Framed := by
  induction reached with
  | opened source size bound => exact framed_opened source size bound
  | operation operation _ framed => exact framed.onBuffer operation
  | takeFailure _ framed => exact { framed with failure_eq := fun _ => rfl }
  | source source _ framed => exact { framed with }

/-- What a buffer comes to as long as nobody manages its window. Its failure may be taken. -/
inductive Scanned (buffer : Buffer) : Buffer → Prop
  | here : Scanned buffer buffer
  | operation {later : Buffer} (operation : Operation) (scans : operation.scans = true)
      (scanned : Scanned buffer later) : Scanned buffer (operation.onBuffer later).2
  | takeFailure {later : Buffer} (scanned : Scanned buffer later) :
      Scanned buffer later.takeFailure.2

/-! ### After a failure -/

theorem peek_of_stalled (stalled : buffer.stalled = true) (ahead : Nat) :
    buffer.peek ahead = (buffer.byteAt (buffer.cursor + ahead), buffer) := by
  rw [peek, reach_of_stalled stalled]

theorem isEndAt_of_stalled (stalled : buffer.stalled = true) (ahead : Nat) :
    buffer.isEndAt ahead = (decide (buffer.dataEnd ≤ buffer.cursor + ahead), buffer) := by
  rw [isEndAt, reach_of_stalled stalled]

/-- A window that is not refilled any more. -/
structure Frozen (before after : Buffer) : Prop extends SameWindow before after where
  /-- No refill is tried. -/
  stalled : after.stalled = true
  /-- The failure is not touched. -/
  failure : after.failure = before.failure

theorem lasts_frozen (before : Buffer) : Lasts (Frozen before) where
  reach := fun ahead frozen => by
    rw [reach_of_stalled frozen.stalled]
    exact frozen
  step := fun frozen =>
    ⟨frozen.toSameWindow.trans ⟨rfl, rfl, rfl, rfl, rfl⟩, frozen.stalled, frozen.failure⟩

theorem Frozen.onBuffer (frozen : Frozen before buffer) {operation : Operation}
    (scans : operation.scans = true) : Frozen before (operation.onBuffer buffer).2 := by
  cases operation with
  | advance count => exact (lasts_frozen before).advance frozen count
  | peek ahead | isEndAt ahead => exact (lasts_frozen before).reach ahead frozen
  | eatWhile accepts => exact (lasts_frozen before).eatWhile frozen accepts
  | skipUntil wanted => exact (lasts_frozen before).skipUntil frozen wanted
  | tokenBytes | markedBytes | tokenOffset | markerOffset | cursorOffset => exact frozen
  | beginToken | mark =>
      exact ⟨frozen.toSameWindow.trans ⟨rfl, rfl, rfl, rfl, rfl⟩, frozen.stalled, frozen.failure⟩
  | setInitialCapacity | refill => cases scans

theorem Scanned.same_of_stalled {later : Buffer} (scanned : Scanned buffer later)
    (stalled : buffer.stalled = true) : SameWindow buffer later ∧ later.stalled = true := by
  induction scanned with
  | here => exact ⟨SameWindow.refl buffer, stalled⟩
  | @operation later operation scans _ induction =>
      obtain ⟨same, later_stalled⟩ := induction
      have frozen : Frozen later (operation.onBuffer later).2 :=
        Frozen.onBuffer ⟨SameWindow.refl later, later_stalled, rfl⟩ scans
      exact ⟨same.trans frozen.toSameWindow, frozen.stalled⟩
  | takeFailure _ induction =>
      exact ⟨induction.1.trans ⟨rfl, rfl, rfl, rfl, rfl⟩, induction.2⟩

/-- A stalled buffer keeps its failure, or has none any more, whatever it is asked to do. -/
theorem failure_onBuffer (stalled : buffer.stalled = true) (operation : Operation) :
    (operation.onBuffer buffer).2.failure = buffer.failure := by
  have scanned (scans : operation.scans = true) :
      (operation.onBuffer buffer).2.failure = buffer.failure :=
    (Frozen.onBuffer ⟨SameWindow.refl buffer, stalled, rfl⟩ scans).failure
  cases operation with
  | setInitialCapacity size =>
      change (buffer.setInitialCapacity size).failure = _
      rw [Buffer.setInitialCapacity]
      split <;> rfl
  | refill need => exact (kept_refill need buffer).failure
  | advance | peek | isEndAt | eatWhile | skipUntil | tokenBytes | markedBytes | tokenOffset |
    markerOffset | cursorOffset | beginToken | mark => exact scanned rfl

theorem failure_runAll (stalled : buffer.stalled = true) (operations : List Operation) :
    (Operation.runAll Operation.onBuffer operations buffer).2.failure = buffer.failure := by
  induction operations generalizing buffer with
  | nil => rfl
  | cons operation operations induction =>
      exact (induction (stalled_onBuffer operation stalled)).trans
        (failure_onBuffer stalled operation)

/-- What a refill leaves as it was though the source could not be read. -/
structure Intact (before after : Buffer) : Prop extends SamePlace before after where
  /-- The source has not ended. -/
  ended : after.ended = before.ended
  /-- As much has been read. -/
  dataEnd : after.dataEnd = before.dataEnd
  /-- The token is the same. -/
  tokenBytes : after.tokenBytes = before.tokenBytes
  /-- The part from the marker on is the same. -/
  markedBytes : after.markedBytes = before.markedBytes
  /-- All bytes from the token's start on are the same. -/
  byteAt_eq : ∀ offset, before.token ≤ offset → after.byteAt offset = before.byteAt offset

theorem Framed.intact (framed : buffer.Framed) {refusal : SystemError}
    (outcome : buffer.refill need = (.error (.unreadable refusal), after)) :
    Intact buffer after := by
  have refilled := refilled need buffer
  rw [outcome] at refilled
  cases refilled with
  | cramped _ error_eq => rcases error_eq with same | same <;> cases same
  | @refused capacity _ source running =>
      refine ⟨⟨rfl, rfl, rfl⟩, rfl, framed.dataEnd_dropped running capacity, ?_, ?_,
        fun offset => byteAt_dropped capacity⟩
      · exact slice_dropped capacity (Nat.le_refl _) buffer.cursor
      · exact slice_dropped capacity framed.token_le_marker buffer.cursor

/-- What becomes of a buffer after an operation that has met a failure. -/
structure Weathers (before after : Buffer) (error : RefillError) : Prop where
  /-- The failure is that of the last refill. -/
  meets : Meets before after error
  /-- No byte from the token on is lost. -/
  grown : Grown before after
  /-- As long as nobody manages the window, it is not refilled, whether the failure has been taken or
  not. The bytes in it can still be seen, and behind them the input ends. -/
  frozen : ∀ later, Scanned after later →
    SameWindow after later ∧
      (∀ ahead, later.cursor + ahead < after.dataEnd →
        later.peek ahead = (after.byteAt (later.cursor + ahead), later) ∧
          later.isEndAt ahead = (false, later)) ∧
      ∀ ahead, after.dataEnd ≤ later.cursor + ahead →
        later.peek ahead = (0, later) ∧ later.isEndAt ahead = (true, later)
  /-- Whatever the buffer is asked to do, the failure can be taken, and then never again. -/
  once : ∀ operations : List Operation,
    let later := (Operation.runAll Operation.onBuffer operations after).2
    later.takeFailure.1 = some error ∧
      ∀ others : List Operation,
        (Operation.runAll Operation.onBuffer others later.takeFailure.2).2.takeFailure.1 = none

theorem Meets.weathers {error : RefillError} (meets : Meets before after error)
    (grown : Grown before after) (stalled : after.stalled = true) :
    Weathers before after error where
  meets := meets
  grown := grown
  frozen := by
    intro later scanned
    obtain ⟨same, later_stalled⟩ := scanned.same_of_stalled stalled
    refine ⟨same, fun ahead inside => ?_, fun ahead past => ?_⟩
    · rw [peek_of_stalled later_stalled, isEndAt_of_stalled later_stalled, same.dataEnd_eq,
        same.byteAt_eq, decide_eq_false (Nat.not_le_of_lt inside)]
      exact ⟨rfl, rfl⟩
    · have zero : after.byteAt (later.cursor + ahead) = 0 :=
        byteAt_of_limit_le (dataEnd_of_running meets.running ▸ past)
      rw [peek_of_stalled later_stalled, isEndAt_of_stalled later_stalled, same.dataEnd_eq,
        same.byteAt_eq, zero, decide_eq_true past]
      exact ⟨rfl, rfl⟩
  once := by
    intro operations later
    have later_stalled : later.takeFailure.2.stalled = true := stalled_runAll operations stalled
    exact ⟨(failure_runAll stalled operations).trans meets.failure_eq,
      fun others => failure_runAll later_stalled others⟩

/-- A refill that fails leaves the stream intact. For want of room, or at the end of the source,
nothing is changed at all; a source that cannot be read changes neither the offsets nor a byte from
the token on. A failure that an operation meets on the way costs no byte, ends the input behind the
bytes that are there, keeps further refills from being tried and can be taken once. -/
theorem intact_of_failure (reached : Reached buffer) :
    (∀ need error after, buffer.refill need = (.error error, after) →
        (∀ refusal, error ≠ .unreadable refusal) → after = buffer) ∧
      (∀ need refusal after, buffer.refill need = (.error (.unreadable refusal), after) →
        Intact buffer after) ∧
      (buffer.stalled = false → buffer.takeFailure.1 = none ∧
        ∀ operation : Operation, (operation.onBuffer buffer).2.stalled = true →
          ∃ error, Weathers buffer (operation.onBuffer buffer).2 error) := by
  have framed := reached.framed
  refine ⟨fun need error after outcome readable => ?_, fun need refusal after => framed.intact,
    fun flowing => ⟨framed.failure_eq flowing, fun operation stalled => ?_⟩⟩
  · have refilled := refilled need buffer
    rw [outcome] at refilled
    cases refilled with
    | exhausted | cramped => rfl
    | refused => exact absurd rfl (readable _)
  · obtain ⟨-, grown, meets⟩ := framed.course.onBuffer (looksAhead_of_stalled flowing stalled)
    obtain ⟨error, meets⟩ := meets flowing stalled
    exact ⟨error, meets.weathers grown stalled⟩

/-- A file of forty bytes that can be read once only. -/
def readableOnce : File :=
  { File.regular "a.wast" (Array.replicate 40 0x61) with
    replies := fun request => if request = 0 then .delivered 40 else .refused .isADirectory }

/-- Looking past the bytes that have been read meets a failure. -/
theorem intact_of_failure_refused :
    let buffer := ((Operation.advance 5).onBuffer (opened (.file readableOnce) 1 4096)).2
    ∃ error, Weathers buffer ((Operation.peek 40).onBuffer buffer).2 error :=
  ((intact_of_failure (.operation (.advance 5) (.opened (.file readableOnce) 1 4096))).2.2
    (by decide +kernel)).2 (.peek 40) (by decide +kernel)

end Buffer

end WasmText

import WasmText.Proofs.Buffer.Refinement

/-!
# Runs of operations on a buffer

Any sequence of operations, refills and choices of a capacity among them, gives the answers that a
cursor over the contents gives, on which refills and capacities mean nothing.
-/

namespace WasmText

/-- An operation that a buffer offers to a scanner. -/
inductive Operation where
  /-- Starts a token. -/
  | beginToken
  /-- Moves the marker. -/
  | mark
  /-- Steps over so many bytes. -/
  | advance (count : Nat)
  /-- Looks at the byte so far ahead. -/
  | peek (ahead : Nat)
  /-- Asks whether there is no byte so far ahead. -/
  | isEndAt (ahead : Nat)
  /-- Steps over the bytes that satisfy a predicate. -/
  | eatWhile (accepts : UInt8 → Bool)
  /-- Looks for a byte that satisfies a predicate. -/
  | skipUntil (wanted : UInt8 → Bool)
  /-- Asks for the bytes of the token. -/
  | tokenBytes
  /-- Asks for the bytes from the marker on. -/
  | markedBytes
  /-- Asks where the token starts. -/
  | tokenOffset
  /-- Asks where the marker is. -/
  | markerOffset
  /-- Asks where the cursor is. -/
  | cursorOffset
  /-- Chooses the capacity to allocate first. -/
  | setInitialCapacity (size : Nat)
  /-- Reads on, with room for so many bytes at least. -/
  | refill (need : Nat)

/-- What an operation answers. -/
inductive Answer where
  /-- Nothing. -/
  | done
  /-- The byte looked at. -/
  | byte (byte : UInt8)
  /-- Whether the end is there. -/
  | flag (flag : Bool)
  /-- The byte looked for, unless the end came first. -/
  | found (byte : Option UInt8)
  /-- The bytes asked for. -/
  | bytes (bytes : Bytes)
  /-- The offset asked for. -/
  | offset (offset : Nat)
  /-- A refill has failed. -/
  | failed (error : RefillError)
  deriving DecidableEq

/-- Whether an answer is a failure. -/
def Answer.isFailed : Answer → Bool
  | failed _ => true
  | _ => false

namespace Operation

/-- An operation on any tape. Refills and capacities are a buffer's own affair. -/
def onTape {τ : Type} [Tape τ] : Operation → τ → Answer × τ
  | beginToken, tape => (.done, Tape.beginToken tape)
  | mark, tape => (.done, Tape.mark tape)
  | advance count, tape => (.done, Tape.advance count tape)
  | peek ahead, tape => (Tape.peek ahead tape).map .byte id
  | isEndAt ahead, tape => (Tape.isEndAt ahead tape).map .flag id
  | eatWhile accepts, tape => (.done, Tape.eatWhile accepts tape)
  | skipUntil wanted, tape => (Tape.skipUntil wanted tape).map .found id
  | tokenBytes, tape => (.bytes (Tape.tokenBytes tape), tape)
  | markedBytes, tape => (.bytes (Tape.markedBytes tape), tape)
  | tokenOffset, tape => (.offset (Tape.tokenOffset tape), tape)
  | markerOffset, tape => (.offset (Tape.markerOffset tape), tape)
  | cursorOffset, tape => (.offset (Tape.cursorOffset tape), tape)
  | setInitialCapacity _, tape | refill _, tape => (.done, tape)

/-- What a refill answers. The end of the source is no failure. -/
def refillAnswer : Except RefillError Unit → Answer
  | .ok () | .error .exhausted => .done
  | .error error => .failed error

/-- An operation on a buffer. -/
def onBuffer : Operation → Buffer → Answer × Buffer
  | setInitialCapacity size, buffer => (.done, buffer.setInitialCapacity size)
  | refill need, buffer => (buffer.refill need).map refillAnswer id
  | operation, buffer => operation.onTape buffer

/-- The answers of a sequence of operations and the state after the last of them. -/
def runAll {σ : Type} (perform : Operation → σ → Answer × σ) : List Operation → σ → List Answer × σ
  | [], state => ([], state)
  | operation :: operations, state =>
    let (answer, state) := perform operation state
    let (answers, state) := runAll perform operations state
    (answer :: answers, state)

end Operation

namespace Buffer

variable {contents : Bytes} {buffer : Buffer}

/-- An answer may be put in other words. -/
theorem Follows.map {α β : Type} {result : α × Buffer} {plain : α × Cursor}
    (follows : Follows contents buffer result plain) (word : α → β) :
    Follows contents buffer (result.map word id) (plain.map word id) := by
  refine ⟨follows.shows, fun flowing => ?_⟩
  obtain ⟨before_flowing, plain_eq⟩ := follows.agrees flowing
  exact ⟨before_flowing, by rw [plain_eq]; rfl⟩

/-- What a buffer answers without being changed. -/
theorem Shows.follows_same {α : Type} (shows : buffer.Shows contents) (answer : α) :
    Follows contents buffer (answer, buffer) (answer, buffer.place contents) :=
  ⟨shows, fun flowing => ⟨flowing, rfl⟩⟩

theorem Shows.setInitialCapacity (shows : buffer.Shows contents) (size : Nat) :
    Follows contents buffer (Answer.done, buffer.setInitialCapacity size)
      (.done, buffer.place contents) := by
  rw [Buffer.setInitialCapacity]
  split
  · exact ⟨{ shows with }, fun flowing => ⟨flowing, rfl⟩⟩
  · exact shows.follows_same _

/-- A refill that succeeds, or finds the source at its end, does not show. -/
theorem Shows.refill_follows (shows : buffer.Shows contents) (flowing : buffer.stalled = false)
    (need : Nat) (succeeds : (Operation.refillAnswer (buffer.refill need).1).isFailed = false) :
    Follows contents buffer ((buffer.refill need).map Operation.refillAnswer id)
      (.done, buffer.place contents) := by
  have kept := kept_refill need buffer
  generalize refilled : buffer.refill need = result at succeeds kept ⊢
  obtain ⟨outcome, after⟩ := result
  match outcome with
  | .ok () =>
    refine ⟨(shows.refill flowing refilled).1, fun _ => ⟨flowing, ?_⟩⟩
    rw [← place_eq_of_samePlace kept.toSamePlace]
    rfl
  | .error .exhausted =>
    rw [refill_of_ended (ended_of_refill refilled)] at refilled
    cases refilled
    exact shows.follows_same _
  | .error .outOfMemory | .error .capacityOverflow | .error (.unreadable _) =>
    exact absurd succeeds Bool.noConfusion

/-- Every operation follows the cursor unless it fails. -/
theorem Shows.follows_operation (shows : buffer.Shows contents) (flowing : buffer.stalled = false)
    (operation : Operation) (succeeds : (operation.onBuffer buffer).1.isFailed = false) :
    Follows contents buffer (operation.onBuffer buffer)
      (operation.onTape (buffer.place contents)) := by
  cases operation with
  | beginToken => exact ⟨shows.beginToken, fun flowing => ⟨flowing, rfl⟩⟩
  | mark => exact ⟨shows.mark, fun flowing => ⟨flowing, rfl⟩⟩
  | advance count => exact (shows.advance count).map fun _ => Answer.done
  | peek ahead => exact (shows.peek ahead).map Answer.byte
  | isEndAt ahead => exact (shows.isEndAt ahead).map Answer.flag
  | eatWhile accepts => exact (shows.eatWhile accepts).map fun _ => Answer.done
  | skipUntil wanted => exact (shows.skipUntil wanted).map Answer.found
  | tokenBytes =>
      rw [Operation.onTape, ← shows.tokenBytes_eq]
      exact shows.follows_same _
  | markedBytes =>
      rw [Operation.onTape, ← shows.markedBytes_eq]
      exact shows.follows_same _
  | tokenOffset => exact shows.follows_same _
  | markerOffset => exact shows.follows_same _
  | cursorOffset => exact shows.follows_same _
  | setInitialCapacity size => exact shows.setInitialCapacity size
  | refill need => exact shows.refill_follows flowing need succeeds

theorem stalled_setInitialCapacity (size : Nat) :
    (buffer.setInitialCapacity size).stalled = buffer.stalled := by
  rw [Buffer.setInitialCapacity]
  split <;> rfl

/-- No operation makes up for a refill that has failed. -/
theorem stalled_onBuffer (operation : Operation) (stalled : buffer.stalled = true) :
    (operation.onBuffer buffer).2.stalled = true := by
  cases operation with
  | beginToken | mark | tokenBytes | markedBytes | tokenOffset | markerOffset | cursorOffset =>
      exact stalled
  | advance count => exact lasts_stalled.advance stalled count
  | peek ahead | isEndAt ahead => exact lasts_stalled.reach ahead stalled
  | eatWhile accepts => exact lasts_stalled.eatWhile stalled accepts
  | skipUntil wanted => exact lasts_stalled.skipUntil stalled wanted
  | setInitialCapacity size => exact (stalled_setInitialCapacity size).trans stalled
  | refill need => exact (kept_refill need buffer).stalled.trans stalled

theorem stalled_runAll (operations : List Operation) (stalled : buffer.stalled = true) :
    (Operation.runAll Operation.onBuffer operations buffer).2.stalled = true := by
  induction operations generalizing buffer with
  | nil => exact stalled
  | cons operation operations induction => exact induction (stalled_onBuffer operation stalled)

/-- A sequence of operations none of which fails follows the cursor. -/
theorem Shows.follows_runAll (shows : buffer.Shows contents) (operations : List Operation)
    (succeed :
      (Operation.runAll Operation.onBuffer operations buffer).1.any Answer.isFailed = false)
    (flowing : (Operation.runAll Operation.onBuffer operations buffer).2.stalled = false) :
    Follows contents buffer (Operation.runAll Operation.onBuffer operations buffer)
      (Operation.runAll Operation.onTape operations (buffer.place contents)) := by
  induction operations generalizing buffer with
  | nil => exact shows.follows_same _
  | cons operation operations induction =>
      obtain ⟨succeeds, rest_succeed⟩ := Bool.or_eq_false_iff.mp succeed
      have after_flowing : (operation.onBuffer buffer).2.stalled = false := by
        rw [← Bool.not_eq_true]
        intro stalled
        exact Bool.noConfusion (flowing.symm.trans (stalled_runAll operations stalled))
      have before_flowing : buffer.stalled = false := by
        rw [← Bool.not_eq_true]
        intro stalled
        exact Bool.noConfusion (after_flowing.symm.trans (stalled_onBuffer operation stalled))
      obtain ⟨after_shows, agrees⟩ := shows.follows_operation before_flowing operation succeeds
      obtain ⟨last_shows, last_agrees⟩ := induction after_shows rest_succeed flowing
      refine ⟨last_shows, fun _ => ⟨before_flowing, ?_⟩⟩
      rw [Operation.runAll, (agrees after_flowing).2]
      dsimp only
      rw [(last_agrees flowing).2]
      rfl

/-- A buffer refines a cursor over the whole input. Whatever the source, the capacities and the
operations are, as long as no refill fails, each answer is the cursor's and the offsets are its
own; they keep their order and stay inside the input. -/
theorem run_eq_cursor {contents : Bytes} {source : Source} (size bound : Nat)
    (operations : List Operation) (reads : source.contents = contents)
    (unread : source.position = 0)
    (succeed : (Operation.runAll Operation.onBuffer operations
      (opened source size bound)).1.any Answer.isFailed = false)
    (flowing : (Operation.runAll Operation.onBuffer operations
      (opened source size bound)).2.stalled = false) :
    let result := Operation.runAll Operation.onBuffer operations (opened source size bound)
    let plain := Operation.runAll Operation.onTape operations (Cursor.ofBytes contents)
    result.1 = plain.1 ∧ result.2.place contents = plain.2 ∧ plain.2.token ≤ plain.2.marker ∧
      plain.2.marker ≤ plain.2.offset ∧ plain.2.offset ≤ contents.size := by
  intro result plain
  obtain ⟨shows, agrees⟩ := (shows_opened reads unread size bound).follows_runAll operations
    succeed flowing
  have plain_eq : plain = (result.1, result.2.place contents) := (agrees flowing).2
  rw [plain_eq]
  exact ⟨rfl, rfl, shows.token_le_marker, shows.marker_le_cursor,
    Nat.le_trans shows.cursor_le_dataEnd shows.dataEnd_le_size⟩

/-- Two letters around a zero byte, in a window that has to grow from one byte on. -/
theorem run_eq_cursor_zero_inside :
    let operations : List Operation :=
      [.eatWhile (· != 0), .isEndAt 2, .peek 9, .refill 40, .beginToken, .skipUntil (· == 0x62),
        .tokenBytes, .advance 5, .markedBytes, .cursorOffset]
    (Operation.runAll Operation.onBuffer operations (opened (.ofBytes #[0x61, 0, 0x62]) 1 4096)).1 =
      (Operation.runAll Operation.onTape operations (Cursor.ofBytes #[0x61, 0, 0x62])).1 :=
  (run_eq_cursor 1 4096 _ rfl rfl (by decide +kernel) (by decide +kernel)).1

end Buffer

end WasmText

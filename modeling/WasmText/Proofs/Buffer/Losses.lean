import WasmText.Proofs.Buffer.Layout
import WasmText.Proofs.Source.Place

/-!
# Bytes that are lost

A read that fails loses what was delivered before the refusal: the source has moved past these bytes,
and they are not in the window. Here the losses of a run are counted, refill by refill. Whatever the
source refuses, the data is what has been read of it less the bytes lost, in their order and none of
them twice. So it is right as long as there are no losses; after one, the bytes of the next refill
stand in the wrong place.
-/

namespace WasmText

namespace Buffer

/-! ### Counting the losses -/

/-- The number of bytes that a refill loses: as many as the source moves by while its read fails. -/
def lostByRefill (need : Nat) (buffer : Buffer) : Nat :=
  match buffer.refill need with
  | (.error (.unreadable _), refilled) => refilled.source.position - buffer.source.position
  | _ => 0

/-- The number of bytes that the refills of a look-ahead lose. -/
def lostWithin (ahead : Nat) : Nat → Buffer → Nat
  | 0, _ => 0
  | attempts + 1, buffer =>
    if buffer.Settled ahead then
      0
    else
      buffer.lostByRefill (buffer.cursor + ahead + 1 - buffer.limit) +
        match buffer.refill (buffer.cursor + ahead + 1 - buffer.limit) with
        | (.ok (), refilled) => lostWithin ahead attempts refilled
        | (.error _, _) => 0

/-- The number of bytes that looking ahead loses. -/
def lostByReach (ahead : Nat) (buffer : Buffer) : Nat :=
  lostWithin ahead (buffer.source.remaining + 2) buffer

/-- The number of bytes that are lost while bytes which satisfy a predicate are stepped over, at most
`count` of them. -/
def lostByEating (accepts : UInt8 → Bool) : Nat → Buffer → Nat
  | 0, _ => 0
  | count + 1, buffer =>
    buffer.lostByReach 0 +
      match buffer.isEndAt 0 with
      | (true, _) => 0
      | (false, reached) =>
        if accepts (reached.byteAt reached.cursor) then
          lostByEating accepts count { reached with cursor := reached.cursor + 1 }
        else
          0

end Buffer

namespace Operation

/-- The number of bytes that an operation loses. -/
def lost : Operation → Buffer → Nat
  | advance count, buffer => buffer.lostByEating (fun _ => true) count
  | peek ahead, buffer | isEndAt ahead, buffer => buffer.lostByReach ahead
  | eatWhile accepts, buffer => buffer.lostByEating accepts (buffer.remaining + 1)
  | skipUntil wanted, buffer =>
    buffer.lostByEating (fun byte => !wanted byte) (buffer.remaining + 1) +
      (buffer.eatWhile fun byte => !wanted byte).lostByReach 0
  | refill need, buffer => buffer.lostByRefill need
  | beginToken, _ | mark, _ | tokenBytes, _ | markedBytes, _ | tokenOffset, _ | markerOffset, _
  | cursorOffset, _ | setInitialCapacity _, _ => 0

/-- The number of bytes that a sequence of operations loses. -/
def lostByAll : List Operation → Buffer → Nat
  | [], _ => 0
  | operation :: operations, buffer =>
    operation.lost buffer + lostByAll operations (operation.onBuffer buffer).2

end Operation

namespace Buffer

variable {source : Source} {buffer : Buffer} {lost : Nat}

/-! ### The bytes of the source -/

theorem slice_of_running (running : buffer.ended = false) :
    buffer.slice buffer.base buffer.dataEnd = buffer.window := by
  rw [slice, dataEnd_of_running running, limit, Nat.sub_self, Nat.add_sub_cancel_left,
    Array.extract_size]

theorem slice_extended (running : buffer.ended = false) (source : Source) (bytes : Bytes)
    (ended : Bool) :
    let after := buffer.extended source bytes ended
    after.slice after.base after.dataEnd = buffer.window ++ bytes := by
  intro after
  have last_eq : after.dataEnd - after.base = (buffer.window ++ bytes).size := by
    change (buffer.extended source bytes ended).dataEnd - buffer.base = _
    rw [dataEnd_extended running, dataEnd_of_running running, limit, Array.size_append]
    omega
  rw [slice, last_eq, Nat.sub_self]
  change ((buffer.window ++ bytes) ++ _).extract 0 (buffer.window ++ bytes).size = _
  rw [Array.extract_append_left, Array.extract_size]

/-- How a buffer lies over a source, some of whose bytes have been lost. -/
structure Laid (source : Source) (lost : Nat) (buffer : Buffer) : Prop extends Sound buffer where
  /-- The buffer is over the contents of the source. -/
  contents_eq : buffer.source.contents = source.contents
  /-- No more than the contents have been read. -/
  position_le : buffer.source.position ≤ source.contents.size
  /-- What has been read is the data or has been lost. -/
  position_eq : buffer.source.position = buffer.dataEnd + lost
  /-- The source has ended only when all of it has been read. -/
  position_of_ended : buffer.ended = true → buffer.source.position = source.contents.size
  /-- The data is what has been read from the window's start on, with bytes left out. -/
  data_sublist : (buffer.slice buffer.base buffer.dataEnd).toList.Sublist
    (source.contents.extract buffer.base buffer.source.position).toList
  /-- Nothing is lost of a source that keeps its place. -/
  keeps : source.KeepsPlace → buffer.source.KeepsPlace ∧ lost = 0

theorem laid_opened (unread : source.position = 0) (size bound : Nat) :
    Laid source 0 (opened source size bound) where
  toSound := sound_opened source size bound
  contents_eq := rfl
  position_le := unread.symm ▸ Nat.zero_le _
  position_eq := unread
  position_of_ended := Bool.noConfusion
  data_sublist := List.nil_sublist _
  keeps := fun keeps => ⟨keeps, rfl⟩

namespace Laid

/-- What is read from now on comes behind what has been read. -/
theorem extract_eq (laid : Laid source lost buffer) {last : Nat}
    (forward : buffer.source.position ≤ last) :
    source.contents.extract buffer.base last =
      source.contents.extract buffer.base buffer.source.position ++
        source.contents.extract buffer.source.position last := by
  have position_eq := laid.position_eq
  have base_le := laid.base_le_dataEnd
  rw [Array.extract_append_extract, Nat.min_eq_left (by omega), Nat.max_eq_right forward]

theorem dropped (laid : Laid source lost buffer) (running : buffer.ended = false) {capacity : Nat}
    (enough : buffer.capacity ≤ capacity) : Laid source lost (buffer.dropped capacity) where
  toSound := laid.toSound.dropped running enough
  contents_eq := laid.contents_eq
  position_le := laid.position_le
  position_eq := by
    rw [laid.dataEnd_dropped running]
    exact laid.position_eq
  position_of_ended := fun ended => Bool.noConfusion (running.symm.trans ended)
  data_sublist := by
    have before := laid.data_sublist
    have after_running : (buffer.dropped capacity).ended = false := running
    rw [slice_of_running running] at before
    rw [slice_of_running after_running]
    have position_le := laid.position_le
    have position_eq := laid.position_eq
    have base_le := laid.base_le_dataEnd
    have rest_eq : (source.contents.extract buffer.base buffer.source.position).drop
        (buffer.token - buffer.base) = source.contents.extract
          (buffer.base + (buffer.token - buffer.base)) buffer.source.position := by
      rw [Array.drop, Array.extract_extract, Array.size_extract]
      congr 1
      omega
    have later := before.drop (buffer.token - buffer.base)
    rw [← Array.toList_drop, ← Array.toList_drop, rest_eq] at later
    exact later
  keeps := laid.keeps

/-- Bytes that are delivered come behind the data. -/
theorem extended (laid : Laid source lost buffer) (running : buffer.ended = false) {moved : Source}
    {bytes : Bytes} {ended : Bool} (sound : (buffer.extended moved bytes ended).Sound)
    (same_contents : moved.contents = source.contents)
    (bytes_eq : bytes = source.contents.extract buffer.source.position moved.position)
    (moved_eq : moved.position = buffer.source.position + bytes.size)
    (position_of_ended : ended = true → moved.position = source.contents.size)
    (keeps : source.KeepsPlace → moved.KeepsPlace) :
    Laid source lost (buffer.extended moved bytes ended) := by
  have dataEnd_eq := dataEnd_extended running moved bytes ended
  have position_eq := laid.position_eq
  have position_le := laid.position_le
  have bytes_size := congrArg Array.size bytes_eq
  rw [Array.size_extract] at bytes_size
  exact
    { toSound := sound
      contents_eq := same_contents
      position_le := by
        change moved.position ≤ _
        omega
      position_eq := by
        rw [dataEnd_eq]
        change moved.position = _
        omega
      position_of_ended := position_of_ended
      data_sublist := by
        have before := laid.data_sublist
        rw [slice_of_running running] at before
        rw [slice_extended running]
        change List.Sublist _ (source.contents.extract buffer.base moved.position).toList
        rw [laid.extract_eq (by omega), ← bytes_eq, Array.toList_append, Array.toList_append]
        exact before.append (List.Sublist.refl _)
      keeps := fun place => ⟨keeps place, (laid.keeps place).2⟩ }

/-- A read that fails moves only the source. -/
theorem refused (laid : Laid source lost buffer) (running : buffer.ended = false) {count : Nat}
    {error : SystemError} {moved : Source}
    (refused : buffer.source.read count = (.error error, moved)) :
    Laid source (lost + (moved.position - buffer.source.position))
      { buffer with source := moved } := by
  have same_contents := buffer.source.contents_read count
  have forward := buffer.source.position_le_read count
  have within := laid.position_le
  rw [← laid.contents_eq] at within
  have position_le := Source.position_read_le within count
  rw [refused] at same_contents forward position_le
  have position_eq := laid.position_eq
  exact
    { laid with
      contents_eq := same_contents.trans laid.contents_eq
      position_le := laid.contents_eq ▸ position_le
      position_eq := by
        change moved.position = buffer.dataEnd + _
        dsimp only at forward
        omega
      position_of_ended := fun ended => Bool.noConfusion (running.symm.trans ended)
      data_sublist := by
        refine laid.data_sublist.trans ?_
        change List.Sublist _ (source.contents.extract buffer.base moved.position).toList
        rw [laid.extract_eq forward, Array.toList_append]
        exact List.sublist_append_left _ _
      keeps := by
        intro place
        obtain ⟨still_keeps, nothing_lost⟩ := laid.keeps place
        have moved_keeps := still_keeps.read count
        rw [refused] at moved_keeps
        refine ⟨moved_keeps, ?_⟩
        rw [still_keeps.position_eq refused, nothing_lost, Nat.sub_self] }

/-- A read that succeeds moves the data and the source forward together. -/
theorem delivered (laid : Laid source lost buffer) (running : buffer.ended = false) {bytes : Bytes}
    {moved : Source} {ended : Bool}
    (delivered : buffer.source.read (buffer.capacity - buffer.window.size) = (.ok bytes, moved))
    (ended_iff : ended = true ↔ bytes.size < buffer.capacity - buffer.window.size ∧
      buffer.window.size + bytes.size + paddingSize ≤ buffer.capacity) :
    Laid source lost (buffer.extended moved bytes ended) := by
  have sound := laid.toSound.extended running moved
    (fits_of_delivered laid.window_le_capacity delivered ended_iff)
  have same_contents := buffer.source.contents_read (buffer.capacity - buffer.window.size)
  have still_keeps := fun keeps =>
    (laid.keeps keeps).1.read (buffer.capacity - buffer.window.size)
  have within := laid.position_le
  obtain ⟨bytes_eq, moved_eq⟩ := Source.read_ok delivered
  have bytes_size := congrArg Array.size bytes_eq
  rw [Array.size_extract] at bytes_size
  rw [delivered, laid.contents_eq] at same_contents
  rw [delivered] at still_keeps
  rw [laid.contents_eq] at bytes_eq bytes_size
  refine laid.extended running sound same_contents ?_ moved_eq ?_ still_keeps
  · conv => lhs; rw [bytes_eq]
    apply Array.extract_eq_extract_right.mpr
    omega
  · intro at_end
    have short := (ended_iff.mp at_end).1
    omega

/-- A refill that fails for the source's sake adds to the losses; no other does. -/
theorem refill (laid : Laid source lost buffer) (need : Nat) :
    Laid source (lost + buffer.lostByRefill need) (buffer.refill need).2 := by
  rw [lostByRefill]
  rcases refill_cases need buffer with
    ⟨-, unchanged⟩ | ⟨error, -, error_eq, unchanged⟩ | ⟨capacity, running, -, larger, refill_eq⟩
  · rw [unchanged]
    exact laid
  · rw [unchanged]
    obtain rfl | rfl := error_eq <;> exact laid
  have roomy := laid.dropped running larger
  have roomy_running : (buffer.dropped capacity).ended = false := running
  rw [refill_eq]
  rcases readBehind_eq roomy_running with
    ⟨error, moved, refused, read_eq⟩ | ⟨bytes, moved, ended, delivered, read_eq, ended_iff⟩
  · rw [read_eq]
    exact roomy.refused roomy_running refused
  · rw [read_eq]
    exact roomy.delivered roomy_running delivered ended_iff

theorem reachWithin (laid : Laid source lost buffer) (ahead attempts : Nat) :
    Laid source (lost + lostWithin ahead attempts buffer)
      (Buffer.reachWithin ahead attempts buffer) := by
  induction attempts generalizing lost buffer with
  | zero => exact laid
  | succ attempts induction =>
      rw [lostWithin]
      by_cases settled : buffer.Settled ahead
      · rw [if_pos settled, reachWithin_of_settled settled]
        exact laid
      rw [if_neg settled, reachWithin_succ attempts settled]
      have refilled_laid := laid.refill (buffer.cursor + ahead + 1 - buffer.limit)
      rw [← Nat.add_assoc]
      generalize buffer.lostByRefill (buffer.cursor + ahead + 1 - buffer.limit) = more at *
      generalize buffer.refill (buffer.cursor + ahead + 1 - buffer.limit) = result at *
      obtain ⟨outcome, refilled⟩ := result
      match outcome with
      | .ok () => exact induction refilled_laid
      | .error .exhausted => exact refilled_laid
      | .error .outOfMemory | .error .capacityOverflow | .error (.unreadable _) =>
        exact { refilled_laid with failure_eq := Bool.noConfusion }

theorem reach (laid : Laid source lost buffer) (ahead : Nat) :
    Laid source (lost + buffer.lostByReach ahead) (buffer.reach ahead) :=
  laid.reachWithin ahead _

theorem step (laid : Laid source lost buffer) (inside : buffer.cursor < buffer.dataEnd) :
    Laid source lost { buffer with cursor := buffer.cursor + 1 } :=
  { laid with toSound := abides_sound.step laid.toSound inside }

theorem eatAtMost (laid : Laid source lost buffer) (accepts : UInt8 → Bool) (count : Nat) :
    Laid source (lost + buffer.lostByEating accepts count) (buffer.eatAtMost accepts count) := by
  induction count generalizing lost buffer with
  | zero => exact laid
  | succ count induction =>
      have reached_laid := laid.reach 0
      rw [lostByEating, Buffer.eatAtMost, ← Nat.add_assoc]
      cases tested : buffer.isEndAt 0 with
      | mk at_end reached =>
      obtain ⟨inside, rfl⟩ := Prod.mk.inj tested
      cases at_end with
      | true => exact reached_laid
      | false =>
          dsimp only
          split
          · exact induction (reached_laid.step (Nat.lt_of_not_le (of_decide_eq_false inside)))
          · exact reached_laid

end Laid

/-- An operation adds to the losses what it loses. -/
theorem Laid.onBuffer (laid : Laid source lost buffer) (operation : Operation) :
    Laid source (lost + operation.lost buffer) (operation.onBuffer buffer).2 := by
  cases operation with
  | beginToken => exact { laid with toSound := abides_sound.beginToken laid.toSound }
  | mark => exact { laid with toSound := abides_sound.mark laid.toSound }
  | advance count =>
      change Laid source _ (buffer.advance count)
      rw [advance_eq_eatAtMost]
      exact laid.eatAtMost _ count
  | peek ahead | isEndAt ahead => exact laid.reach ahead
  | eatWhile accepts => exact laid.eatAtMost accepts _
  | skipUntil wanted =>
      have eaten := laid.eatAtMost (fun byte => !wanted byte) (buffer.remaining + 1)
      have reached := eaten.reach 0
      rw [Nat.add_assoc] at reached
      change Laid source _ (buffer.skipUntil wanted).2
      unfold Buffer.skipUntil
      dsimp only
      split
      all_goals
        rename_i after tested
        obtain ⟨-, rfl⟩ := Prod.mk.inj tested
        exact reached
  | tokenBytes | markedBytes | tokenOffset | markerOffset | cursorOffset => exact laid
  | setInitialCapacity size =>
      have sound := abides_sound.setInitialCapacity size laid.toSound
      change Laid source lost (buffer.setInitialCapacity size)
      rw [Buffer.setInitialCapacity] at sound ⊢
      split at sound
      · rename_i unallocated
        rw [if_pos unallocated]
        exact { laid with toSound := sound }
      · rename_i allocated
        rw [if_neg allocated]
        exact laid
  | refill need => exact laid.refill need

/-! ### Buffers that are driven -/

/-- What a buffer over a source comes to by its operations, with the number of bytes that these have
lost. Between them its failure may be taken, and its source be looked up. -/
inductive Driven (source : Source) : Nat → Buffer → Prop
  | opened (size bound : Nat) : Driven source 0 (opened source size bound)
  | operation {lost : Nat} {buffer : Buffer} (operation : Operation)
      (driven : Driven source lost buffer) :
      Driven source (lost + operation.lost buffer) (operation.onBuffer buffer).2
  | takeFailure {lost : Nat} {buffer : Buffer} (driven : Driven source lost buffer) :
      Driven source lost buffer.takeFailure.2
  | lookUp {lost : Nat} {buffer : Buffer} (request : Source.Request)
      (looks : request.looksUp = true) (driven : Driven source lost buffer) :
      Driven source lost { buffer with source := (request.perform buffer.source).2 }

theorem Driven.runAll (driven : Driven source lost buffer) (operations : List Operation) :
    Driven source (lost + Operation.lostByAll operations buffer)
      (Operation.runAll Operation.onBuffer operations buffer).2 := by
  induction operations generalizing lost buffer with
  | nil => exact driven
  | cons operation operations induction =>
      rw [Operation.lostByAll, ← Nat.add_assoc]
      exact induction (driven.operation operation)

/-- Requests made of a file that stays where it is leave the layout alone. -/
theorem outlivesRequests_laid (source : Source) (lost : Nat) (buffer : Buffer) :
    Source.OutlivesRequests fun state => Laid source lost { buffer with source := state } := by
  intro before after same position_eq laid
  exact
    { laid with
      contents_eq := same.contents.trans laid.contents_eq
      position_le := Nat.le_trans (Nat.le_of_eq position_eq) laid.position_le
      position_eq := position_eq.trans laid.position_eq
      position_of_ended := fun ended => position_eq.trans (laid.position_of_ended ended)
      data_sublist := by
        have read := laid.data_sublist
        change List.Sublist _ (source.contents.extract buffer.base after.position).toList
        rw [position_eq]
        exact read
      keeps := fun keeps => ⟨same.keepsPlace (laid.keeps keeps).1, (laid.keeps keeps).2⟩ }

theorem Driven.laid (driven : Driven source lost buffer) (unread : source.position = 0) :
    Laid source lost buffer := by
  induction driven with
  | opened size bound => exact laid_opened unread size bound
  | operation operation _ laid => exact laid.onBuffer operation
  | takeFailure _ laid => exact { laid with failure_eq := fun _ => rfl }
  | @lookUp lost buffer request looks _ laid =>
      exact Source.Request.keeps_perform (outlivesRequests_laid source lost buffer) looks laid

end Buffer

end WasmText

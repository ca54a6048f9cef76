import WasmText.Buffer.Movement
import WasmText.Proofs.Source.Reading

/-!
# The window of a buffer

The window always holds a stretch of the contents from the current token or before it up to what has
been read, and behind that the padding once the source has ended. A refill keeps this, whether it
drops bytes, grows the window or reads; the three offsets, which count from the first byte of the
source, stay as they are.
-/

namespace WasmText

namespace Buffer

/-- The number of zero bytes behind the data of the window. -/
def padding (buffer : Buffer) : Nat :=
  if buffer.ended then paddingSize else 0

/-- The buffer shows the contents through its window. -/
structure Shows (contents : Bytes) (buffer : Buffer) : Prop where
  /-- Nothing of the current token has been dropped. -/
  base_le_token : buffer.base ≤ buffer.token
  /-- The marker is inside the token. -/
  token_le_marker : buffer.token ≤ buffer.marker
  /-- The marker is not ahead of the cursor. -/
  marker_le_cursor : buffer.marker ≤ buffer.cursor
  /-- The cursor is not ahead of what has been read. -/
  cursor_le_dataEnd : buffer.cursor ≤ buffer.dataEnd
  /-- No more than the contents have been read. -/
  dataEnd_le_size : buffer.dataEnd ≤ contents.size
  /-- The window holds what has been read from its base on, and the padding. -/
  window_eq : buffer.window =
    contents.extract buffer.base buffer.dataEnd ++ Array.replicate buffer.padding 0
  /-- The window fits into its capacity. -/
  window_le_capacity : buffer.window.size ≤ buffer.capacity
  /-- The source has ended only when all of it has been read. -/
  dataEnd_of_ended : buffer.ended = true → buffer.dataEnd = contents.size
  /-- The source is over the contents. -/
  contents_eq : buffer.source.contents = contents
  /-- As long as no refill has failed, the source is read as far as the window reaches. -/
  position_eq : buffer.stalled = false → buffer.source.position = buffer.dataEnd
  /-- As long as no refill has failed, there is no failure to be taken. -/
  failure_eq : buffer.stalled = false → buffer.failure = none

namespace Shows

variable {contents : Bytes} {buffer : Buffer}

theorem base_le_dataEnd (shows : buffer.Shows contents) : buffer.base ≤ buffer.dataEnd := by
  obtain ⟨base_le, token_le, marker_le, cursor_le, -⟩ := shows
  omega

theorem window_size (shows : buffer.Shows contents) :
    buffer.window.size = buffer.dataEnd - buffer.base + buffer.padding := by
  have bounded := shows.dataEnd_le_size
  rw [shows.window_eq, Array.size_append, Array.size_extract, Array.size_replicate]
  omega

theorem limit_eq (shows : buffer.Shows contents) :
    buffer.limit = buffer.dataEnd + buffer.padding := by
  have ordered := shows.base_le_dataEnd
  rw [limit, shows.window_size]
  omega

/-- Looking into the window is looking into the contents. -/
theorem byteAt_eq (shows : buffer.Shows contents) {offset : Nat} (inside : buffer.base ≤ offset)
    (before_end : offset < buffer.dataEnd) : buffer.byteAt offset = contents.getOrZero offset := by
  have bounded := shows.dataEnd_le_size
  have in_data : offset - buffer.base < (contents.extract buffer.base buffer.dataEnd).size := by
    rw [Array.size_extract]
    omega
  rw [byteAt, Bytes.getOrZero, Bytes.getOrZero, shows.window_eq, Array.getElem?_append_left in_data,
    Array.getElem?_extract]
  simp only [Nat.add_sub_of_le inside]
  rw [if_pos (by omega)]

/-- Behind the data there is nothing but zeros. -/
theorem byteAt_past (shows : buffer.Shows contents) {offset : Nat}
    (past : buffer.dataEnd ≤ offset) :
    buffer.byteAt offset = 0 := by
  have bounded := shows.dataEnd_le_size
  have ordered := shows.base_le_dataEnd
  have out_of_data : (contents.extract buffer.base buffer.dataEnd).size ≤ offset - buffer.base := by
    rw [Array.size_extract]
    omega
  rw [byteAt, Bytes.getOrZero, shows.window_eq, Array.getElem?_append_right out_of_data,
    Array.getElem?_replicate]
  split <;> rfl

/-- A slice of the window is a slice of the contents. -/
theorem slice_eq (shows : buffer.Shows contents) {first last : Nat} (inside : buffer.base ≤ first)
    (ordered : first ≤ last) (before_end : last ≤ buffer.dataEnd) :
    buffer.slice first last = contents.extract first last := by
  have bounded := shows.dataEnd_le_size
  have in_data :
      last - buffer.base ≤ (contents.extract buffer.base buffer.dataEnd).size := by
    rw [Array.size_extract]
    omega
  rw [slice, shows.window_eq, Array.extract_append, Nat.sub_eq_zero_of_le in_data,
    Array.extract_zero, Array.append_empty, Array.extract_extract, Nat.add_sub_of_le inside]
  congr 1
  omega

end Shows

/-- Two states of a buffer in which the scanner is at the same place. -/
structure SamePlace (before after : Buffer) : Prop where
  /-- The token's start stays. -/
  token : after.token = before.token
  /-- The marker stays. -/
  marker : after.marker = before.marker
  /-- The cursor stays. -/
  cursor : after.cursor = before.cursor

theorem SamePlace.refl (buffer : Buffer) : SamePlace buffer buffer :=
  ⟨rfl, rfl, rfl⟩

theorem SamePlace.trans {first second third : Buffer} (left : SamePlace first second)
    (right : SamePlace second third) : SamePlace first third :=
  ⟨right.token.trans left.token, right.marker.trans left.marker, right.cursor.trans left.cursor⟩

/-- What a refill leaves alone, whatever becomes of it. -/
structure Kept (before after : Buffer) : Prop extends SamePlace before after where
  /-- Whether a refill has failed is for the caller to note. -/
  stalled : after.stalled = before.stalled
  /-- The failure is for the caller to keep. -/
  failure : after.failure = before.failure

theorem Kept.refl (buffer : Buffer) : Kept buffer buffer :=
  ⟨SamePlace.refl buffer, rfl, rfl⟩

theorem Kept.trans {first second third : Buffer} (left : Kept first second)
    (right : Kept second third) : Kept first third :=
  ⟨left.toSamePlace.trans right.toSamePlace, right.stalled.trans left.stalled,
    right.failure.trans left.failure⟩

/-- The window without what lies before the current token, and with another capacity. -/
def dropped (capacity : Nat) (buffer : Buffer) : Buffer :=
  let free := buffer.token - buffer.base
  { buffer with
    window := buffer.window.extract free buffer.window.size
    base := buffer.base + free
    capacity }

theorem shortage_of_doubled {old shortage doublings capacity grown : Nat}
    (doubled_eq : doubled old shortage doublings capacity = some grown) :
    shortage ≤ grown - old := by
  induction doublings generalizing capacity with
  | zero => cases doubled_eq
  | succ doublings induction =>
      rw [doubled] at doubled_eq
      split at doubled_eq
      · split at doubled_eq
        · exact induction doubled_eq
        · cases doubled_eq
      · cases doubled_eq
        omega

/-- A window that grows gains room for the bytes that are needed and the padding, beyond what is
gained by dropping the bytes before the token. -/
theorem room_of_grownCapacity {buffer : Buffer} {need free capacity : Nat}
    (grown : buffer.grownCapacity? need free = some capacity) :
    need + paddingSize - free ≤ capacity - buffer.capacity := by
  unfold grownCapacity? at grown
  split at grown
  · rename_i unallocated
    rw [unallocated]
    exact shortage_of_doubled grown
  · split at grown
    · exact shortage_of_doubled grown
    · cases grown

theorem makeRoom_of_scarce {buffer : Buffer} {need : Nat}
    (scarce : buffer.token - buffer.base < need) :
    buffer.makeRoom need = match buffer.grownCapacity? need (buffer.token - buffer.base) with
      | none => .error .capacityOverflow
      | some capacity =>
        if capacity < buffer.allocationBound then .ok (buffer.dropped capacity)
        else .error .outOfMemory := by
  rw [makeRoom, if_pos scarce]
  rfl

/-- Room is made by dropping what lies before the token. The capacity grows only if that is not
enough, and then it grows far enough. -/
theorem makeRoom_ok {need : Nat} {buffer roomy : Buffer}
    (made : buffer.makeRoom need = .ok roomy) :
    ∃ capacity, roomy = buffer.dropped capacity ∧
      ((need ≤ buffer.token - buffer.base ∧ capacity = buffer.capacity) ∨
        (buffer.token - buffer.base < need ∧
          buffer.capacity + need + paddingSize ≤ capacity + (buffer.token - buffer.base))) := by
  by_cases scarce : buffer.token - buffer.base < need
  · rw [makeRoom_of_scarce scarce] at made
    split at made
    · cases made
    · rename_i capacity grown
      split at made
      · cases made
        refine ⟨capacity, rfl, .inr ⟨scarce, ?_⟩⟩
        have enough := room_of_grownCapacity grown
        simp only [paddingSize] at enough ⊢
        omega
      · cases made
  · rw [makeRoom, if_neg scarce] at made
    cases made
    exact ⟨buffer.capacity, rfl, .inl ⟨Nat.le_of_not_lt scarce, rfl⟩⟩

theorem makeRoom_error {buffer : Buffer} {need : Nat} {error : RefillError}
    (made : buffer.makeRoom need = .error error) :
    error = .outOfMemory ∨ error = .capacityOverflow := by
  by_cases scarce : buffer.token - buffer.base < need
  · rw [makeRoom_of_scarce scarce] at made
    split at made
    · cases made
      exact .inr rfl
    · split at made
      · cases made
      · cases made
        exact .inl rfl
  · rw [makeRoom, if_neg scarce] at made
    cases made

theorem dataEnd_le_limit (buffer : Buffer) : buffer.dataEnd ≤ buffer.limit := by
  rw [dataEnd]
  split
  · exact Nat.sub_le _ _
  · exact Nat.le_refl _

theorem dataEnd_of_running {buffer : Buffer} (running : buffer.ended = false) :
    buffer.dataEnd = buffer.limit := by
  rw [dataEnd, running, if_neg Bool.false_ne_true]

theorem padding_of_running {buffer : Buffer} (running : buffer.ended = false) :
    buffer.padding = 0 := by
  rw [padding, running, if_neg Bool.false_ne_true]

section Dropped

variable (capacity : Nat) (buffer : Buffer)

theorem kept_dropped : Kept buffer (buffer.dropped capacity) :=
  ⟨⟨rfl, rfl, rfl⟩, rfl, rfl⟩

@[simp] theorem dropped_ended : (buffer.dropped capacity).ended = buffer.ended := rfl

@[simp] theorem dropped_source : (buffer.dropped capacity).source = buffer.source := rfl

@[simp] theorem dropped_capacity : (buffer.dropped capacity).capacity = capacity := rfl

variable {buffer}

theorem limit_dropped (inside : buffer.token ≤ buffer.limit) :
    (buffer.dropped capacity).limit = buffer.limit := by
  rw [limit] at inside
  simp only [limit, dropped, Array.size_extract]
  omega

theorem dataEnd_dropped (running : buffer.ended = false) (inside : buffer.token ≤ buffer.limit) :
    (buffer.dropped capacity).dataEnd = buffer.dataEnd := by
  have after_running : (buffer.dropped capacity).ended = false := running
  rw [dataEnd_of_running running, dataEnd_of_running after_running, limit_dropped capacity inside]

/-- Where the window holds the contents, it does so without what lies before the token. -/
theorem window_dropped {contents : Bytes} (running : buffer.ended = false)
    (inside : buffer.token ≤ buffer.limit)
    (window_eq : buffer.window = contents.extract buffer.base buffer.dataEnd ++
      Array.replicate buffer.padding 0) :
    (buffer.dropped capacity).window =
      contents.extract (buffer.dropped capacity).base (buffer.dropped capacity).dataEnd ++
        Array.replicate (buffer.dropped capacity).padding 0 := by
  have after_running : (buffer.dropped capacity).ended = false := running
  have end_eq := dataEnd_of_running running
  rw [limit] at end_eq inside
  rw [padding_of_running running, Array.replicate_zero, Array.append_empty] at window_eq
  rw [dataEnd_dropped capacity running inside, padding_of_running after_running,
    Array.replicate_zero, Array.append_empty]
  calc
    (buffer.dropped capacity).window =
        (contents.extract buffer.base buffer.dataEnd).extract (buffer.token - buffer.base)
          buffer.window.size :=
      congrArg (fun window => window.extract (buffer.token - buffer.base) buffer.window.size)
        window_eq
    _ = contents.extract (buffer.base + (buffer.token - buffer.base)) buffer.dataEnd := by
      rw [Array.extract_extract]
      congr 1
      omega

end Dropped

theorem Shows.dropped {contents : Bytes} {buffer : Buffer} (shows : buffer.Shows contents)
    (running : buffer.ended = false) {capacity : Nat} (enough : buffer.capacity ≤ capacity) :
    (buffer.dropped capacity).Shows contents ∧
      (buffer.dropped capacity).base = buffer.token ∧
        (buffer.dropped capacity).dataEnd = buffer.dataEnd := by
  have window_le := shows.window_le_capacity
  have inside : buffer.token ≤ buffer.limit := by
    have end_le := buffer.dataEnd_le_limit
    obtain ⟨-, token_le, marker_le, cursor_le, -⟩ := shows
    omega
  have base_eq : (buffer.dropped capacity).base = buffer.token := by
    have base_le := shows.base_le_token
    simp only [Buffer.dropped]
    omega
  have dataEnd_eq := dataEnd_dropped capacity running inside
  refine ⟨?_, base_eq, dataEnd_eq⟩
  constructor
  · exact Nat.le_of_eq base_eq
  · exact shows.token_le_marker
  · exact shows.marker_le_cursor
  · rw [dataEnd_eq]
    exact shows.cursor_le_dataEnd
  · rw [dataEnd_eq]
    exact shows.dataEnd_le_size
  · exact window_dropped capacity running inside shows.window_eq
  · simp only [Buffer.dropped, Array.size_extract]
    omega
  · intro ended
    rw [dropped_ended, running] at ended
    cases ended
  · exact shows.contents_eq
  · rw [dataEnd_eq]
    exact shows.position_eq
  · exact shows.failure_eq

/-- The window with more bytes behind its data, and behind these the padding if the source has
ended. -/
def extended (source : Source) (bytes : Bytes) (ended : Bool) (buffer : Buffer) : Buffer :=
  { buffer with
    source
    window := buffer.window ++ bytes ++ Array.replicate (if ended then paddingSize else 0) 0
    ended }

theorem dataEnd_extended {buffer : Buffer} (running : buffer.ended = false) (source : Source)
    (bytes : Bytes) (ended : Bool) :
    (buffer.extended source bytes ended).dataEnd = buffer.dataEnd + bytes.size := by
  rw [dataEnd_of_running running]
  cases ended <;> simp [extended, dataEnd, limit] <;> omega

/-- Where the window holds the contents, it does so with the bytes that come next. -/
theorem window_extended {contents : Bytes} {buffer : Buffer} (running : buffer.ended = false)
    (ordered : buffer.base ≤ buffer.dataEnd)
    (window_eq : buffer.window = contents.extract buffer.base buffer.dataEnd ++
      Array.replicate buffer.padding 0)
    (source : Source) {bytes : Bytes} (ended : Bool)
    (bytes_eq : bytes = contents.extract buffer.dataEnd (buffer.dataEnd + bytes.size)) :
    (buffer.extended source bytes ended).window =
      contents.extract buffer.base (buffer.extended source bytes ended).dataEnd ++
        Array.replicate (buffer.extended source bytes ended).padding 0 := by
  have data_eq : buffer.window ++ bytes =
      contents.extract buffer.base (buffer.dataEnd + bytes.size) := by
    rw [padding_of_running running, Array.replicate_zero, Array.append_empty] at window_eq
    conv => lhs; rw [window_eq, bytes_eq]
    rw [Array.extract_append_extract, Nat.min_eq_left ordered,
      Nat.max_eq_right (Nat.le_add_right _ _)]
  rw [dataEnd_extended running, ← data_eq]
  rfl

theorem Shows.extended {contents : Bytes} {buffer : Buffer} (shows : buffer.Shows contents)
    (running : buffer.ended = false) {source : Source} {bytes : Bytes} (ended : Bool)
    (bytes_eq : bytes = contents.extract buffer.dataEnd (buffer.dataEnd + bytes.size))
    (fits : buffer.window.size + bytes.size + (if ended then paddingSize else 0) ≤ buffer.capacity)
    (complete : ended = true → buffer.dataEnd + bytes.size = contents.size)
    (source_contents : source.contents = contents)
    (source_position : source.position = buffer.dataEnd + bytes.size) :
    (buffer.extended source bytes ended).Shows contents ∧
      (buffer.extended source bytes ended).dataEnd = buffer.dataEnd + bytes.size := by
  have bytes_size := congrArg Array.size bytes_eq
  rw [Array.size_extract] at bytes_size
  have bounded := shows.dataEnd_le_size
  have dataEnd_eq := dataEnd_extended running source bytes ended
  refine ⟨?_, dataEnd_eq⟩
  constructor
  · exact shows.base_le_token
  · exact shows.token_le_marker
  · exact shows.marker_le_cursor
  · rw [dataEnd_eq]
    exact Nat.le_add_right_of_le shows.cursor_le_dataEnd
  · omega
  · exact window_extended running shows.base_le_dataEnd shows.window_eq source ended bytes_eq
  · simp only [Buffer.extended, Array.size_append, Array.size_replicate]
    exact fits
  · intro at_end
    rw [dataEnd_eq]
    exact complete at_end
  · exact source_contents
  · intro _
    rw [dataEnd_eq]
    exact source_position
  · exact shows.failure_eq

/-- A read is refused, or what is delivered stands behind the window. The padding follows it if the
source has ended and there is room. -/
theorem readBehind_eq {buffer : Buffer} (running : buffer.ended = false) :
    (∃ error source, buffer.source.read (buffer.capacity - buffer.window.size) =
        (.error error, source) ∧
      buffer.readBehind = (.error (.unreadable error), { buffer with source })) ∨
      ∃ bytes source ended, buffer.source.read (buffer.capacity - buffer.window.size) =
          (.ok bytes, source) ∧
        buffer.readBehind = (.ok (), buffer.extended source bytes ended) ∧
        (ended = true ↔ bytes.size < buffer.capacity - buffer.window.size ∧
          buffer.window.size + bytes.size + paddingSize ≤ buffer.capacity) := by
  unfold readBehind
  dsimp only
  split
  · rename_i error source refused
    exact .inl ⟨error, source, refused, rfl⟩
  rename_i bytes source delivered
  refine .inr ⟨bytes, source, ?_⟩
  split
  · rename_i short
    simp only [Bool.and_eq_true, decide_eq_true_eq, Array.size_append, paddingSize] at short
    refine ⟨true, delivered, rfl, fun _ => ?_, fun _ => rfl⟩
    rw [paddingSize]
    omega
  · rename_i full
    simp only [Bool.and_eq_true, decide_eq_true_eq, Array.size_append, paddingSize] at full
    refine ⟨false, delivered, ?_, Bool.noConfusion, fun short => ?_⟩
    · simp [extended, running]
    · rw [paddingSize] at short
      omega

/-- What is delivered fits into the capacity, and so does the padding if it follows. -/
theorem fits_of_delivered {buffer : Buffer} {source : Source} {bytes : Bytes} {ended : Bool}
    (window_le : buffer.window.size ≤ buffer.capacity)
    (delivered : buffer.source.read (buffer.capacity - buffer.window.size) = (.ok bytes, source))
    (ended_iff : ended = true ↔ bytes.size < buffer.capacity - buffer.window.size ∧
      buffer.window.size + bytes.size + paddingSize ≤ buffer.capacity) :
    buffer.window.size + bytes.size + (if ended then paddingSize else 0) ≤ buffer.capacity := by
  have bytes_size := congrArg Array.size (Source.read_ok delivered).1
  rw [Array.size_extract] at bytes_size
  split
  · rename_i at_end
    exact (ended_iff.mp at_end).2
  · omega

/-- A read that succeeds extends the window, and fills it but for less than the padding or reaches
the end. -/
theorem exists_extended {buffer after : Buffer} (running : buffer.ended = false)
    (read : buffer.readBehind = (.ok (), after)) :
    ∃ source bytes ended, after = buffer.extended source bytes ended ∧
      buffer.source.read (buffer.capacity - buffer.window.size) = (.ok bytes, source) ∧
      (ended = true → bytes.size < buffer.capacity - buffer.window.size) ∧
      (buffer.window.size ≤ buffer.capacity →
        (buffer.extended source bytes ended).window.size ≤ buffer.capacity) ∧
      (ended = false →
        buffer.capacity < (buffer.extended source bytes ended).window.size + paddingSize) := by
  rcases readBehind_eq running with
    ⟨error, source, -, read_eq⟩ | ⟨bytes, source, ended, delivered, read_eq, ended_iff⟩
  · cases read_eq.symm.trans read
  have size_eq : (buffer.extended source bytes ended).window.size =
      buffer.window.size + bytes.size + if ended then paddingSize else 0 := by
    simp only [extended, Array.size_append, Array.size_replicate]
  refine ⟨source, bytes, ended, (Prod.mk.inj (read.symm.trans read_eq)).2, delivered,
    fun at_end => (ended_iff.mp at_end).1, fun window_le => ?_, fun still => ?_⟩
  · rw [size_eq]
    exact fits_of_delivered window_le delivered ended_iff
  · subst still
    have no_room := mt ended_iff.mpr Bool.false_ne_true
    have bytes_size := congrArg Array.size (Source.read_ok delivered).1
    rw [Array.size_extract] at bytes_size
    rw [size_eq, if_neg Bool.false_ne_true]
    simp only [paddingSize] at no_room ⊢
    omega

/-- A read that succeeds brings the next bytes of the contents into the window. -/
theorem Shows.readBehind {contents : Bytes} {buffer after : Buffer} (shows : buffer.Shows contents)
    (running : buffer.ended = false) (flowing : buffer.stalled = false)
    (read : buffer.readBehind = (.ok (), after)) :
    after.Shows contents ∧ buffer.dataEnd ≤ after.dataEnd := by
  have bounded := shows.dataEnd_le_size
  obtain ⟨source, bytes, ended, rfl, delivered, short, fits, -⟩ := exists_extended running read
  have window_le := fits shows.window_le_capacity
  simp only [Buffer.extended, Array.size_append, Array.size_replicate] at window_le
  obtain ⟨bytes_eq, position_eq⟩ := Source.read_ok delivered
  rw [shows.contents_eq, shows.position_eq flowing] at bytes_eq
  rw [shows.position_eq flowing] at position_eq
  have source_contents : source.contents = contents := by
    have same := buffer.source.contents_read (buffer.capacity - buffer.window.size)
    rw [delivered] at same
    exact same.trans shows.contents_eq
  have bytes_size := congrArg Array.size bytes_eq
  rw [Array.size_extract] at bytes_size
  have next_eq : bytes = contents.extract buffer.dataEnd (buffer.dataEnd + bytes.size) := by
    conv => lhs; rw [bytes_eq]
    apply Array.extract_eq_extract_right.mpr
    omega
  have complete (at_end : ended = true) : buffer.dataEnd + bytes.size = contents.size := by
    have less := short at_end
    omega
  obtain ⟨after_shows, dataEnd_eq⟩ := shows.extended running ended next_eq window_le complete
    source_contents position_eq
  exact ⟨after_shows, by omega⟩

theorem source_readBehind (buffer : Buffer) : buffer.readBehind.2.source =
    (buffer.source.read (buffer.capacity - buffer.window.size)).2 := by
  unfold readBehind
  dsimp only
  split
  · rename_i error source refused
    rw [refused]
  · rename_i bytes source delivered
    rw [delivered]
    split <;> rfl

theorem capacity_readBehind (buffer : Buffer) :
    buffer.readBehind.2.capacity = buffer.capacity ∧
      buffer.readBehind.2.initialCapacity = buffer.initialCapacity := by
  unfold readBehind
  dsimp only
  split
  · exact ⟨rfl, rfl⟩
  · split <;> exact ⟨rfl, rfl⟩

theorem kept_readBehind (buffer : Buffer) : Kept buffer buffer.readBehind.2 := by
  unfold readBehind
  dsimp only
  split
  · exact ⟨⟨rfl, rfl, rfl⟩, rfl, rfl⟩
  · split <;> exact ⟨⟨rfl, rfl, rfl⟩, rfl, rfl⟩

/-- A refill changes nothing, because the source has ended or because there is no room to be had, or
it makes room and reads into it. -/
theorem refill_cases (need : Nat) (buffer : Buffer) :
    (buffer.ended = true ∧ buffer.refill need = (.error .exhausted, buffer)) ∨
      (∃ error, buffer.ended = false ∧ (error = .outOfMemory ∨ error = .capacityOverflow) ∧
        buffer.refill need = (.error error, buffer)) ∨
      ∃ capacity, buffer.ended = false ∧ buffer.makeRoom need = .ok (buffer.dropped capacity) ∧
        buffer.capacity ≤ capacity ∧ buffer.refill need = (buffer.dropped capacity).readBehind := by
  unfold refill
  split
  · rename_i ended
    exact .inl ⟨ended, rfl⟩
  rename_i running
  rw [Bool.not_eq_true] at running
  cases made : buffer.makeRoom need with
  | error error => exact .inr (.inl ⟨error, running, makeRoom_error made, rfl⟩)
  | ok roomy =>
      obtain ⟨capacity, rfl, enough⟩ := makeRoom_ok made
      refine .inr (.inr ⟨capacity, running, rfl, ?_, rfl⟩)
      rcases enough with ⟨-, same⟩ | ⟨scarce, grown⟩ <;> omega

theorem kept_refill (need : Nat) (buffer : Buffer) : Kept buffer (buffer.refill need).2 := by
  rcases refill_cases need buffer with
    ⟨-, unchanged⟩ | ⟨error, -, -, unchanged⟩ | ⟨capacity, -, -, -, refill_eq⟩
  · exact unchanged ▸ Kept.refl buffer
  · exact unchanged ▸ Kept.refl buffer
  · exact refill_eq ▸ (kept_dropped capacity buffer).trans (kept_readBehind _)

/-- Room is made before a refill that succeeds. -/
theorem exists_dropped {buffer after : Buffer} {need : Nat}
    (refilled : buffer.refill need = (.ok (), after)) :
    ∃ capacity, buffer.ended = false ∧ buffer.makeRoom need = .ok (buffer.dropped capacity) ∧
      buffer.capacity ≤ capacity ∧ (buffer.dropped capacity).readBehind = (.ok (), after) := by
  rcases refill_cases need buffer with
    ⟨-, unchanged⟩ | ⟨error, -, -, unchanged⟩ | ⟨capacity, running, made, larger, refill_eq⟩
  · cases unchanged.symm.trans refilled
  · cases unchanged.symm.trans refilled
  · exact ⟨capacity, running, made, larger, refill_eq.symm.trans refilled⟩

/-- The window fits into its capacity, and nothing of the current token has been dropped. -/
structure Fits (buffer : Buffer) : Prop where
  /-- The window fits into its capacity. -/
  window_le_capacity : buffer.window.size ≤ buffer.capacity
  /-- Nothing of the current token has been dropped. -/
  base_le_token : buffer.base ≤ buffer.token

theorem Shows.fits {contents : Bytes} {buffer : Buffer} (shows : buffer.Shows contents) :
    buffer.Fits :=
  ⟨shows.window_le_capacity, shows.base_le_token⟩

/-- A refill that succeeds leaves nothing in front of the token. It brings as many bytes as are
needed or reaches the end of the source, unless it could do with the room that was in front of the
token. -/
theorem Fits.refill {buffer after : Buffer} (fits : buffer.Fits) {need : Nat}
    (refilled : buffer.refill need = (.ok (), after)) :
    after.Fits ∧ after.base = buffer.token ∧
      (after.ended = true ∨ buffer.limit + need ≤ after.limit ∨
        need ≤ buffer.token - buffer.base) := by
  obtain ⟨window_le, base_le⟩ := fits
  obtain ⟨capacity, running, made, -, read⟩ := exists_dropped refilled
  obtain ⟨enlarged, same, enough⟩ := makeRoom_ok made
  obtain rfl : capacity = enlarged := congrArg Buffer.capacity same
  have still_running : (buffer.dropped capacity).ended = false := running
  obtain ⟨source, bytes, ended, rfl, -, -, fits, filled⟩ := exists_extended still_running read
  have kept_le : (buffer.dropped capacity).window.size ≤ capacity := by
    simp only [dropped, Array.size_extract]
    rcases enough with ⟨-, same⟩ | ⟨scarce, grown⟩ <;> omega
  have base_eq :
      ((buffer.dropped capacity).extended source bytes ended).base = buffer.token := by
    simp only [dropped, extended]
    omega
  refine ⟨⟨fits kept_le, Nat.le_of_eq base_eq⟩, base_eq, ?_⟩
  cases ended with
  | true => exact .inl rfl
  | false =>
      refine .inr ?_
      have filled := filled rfl
      rw [dropped_capacity] at filled
      rcases enough with ⟨spare, -⟩ | ⟨scarce, grown⟩
      · exact .inr spare
      · rw [limit, limit, base_eq]
        exact .inl (by omega)

/-- A refill that succeeds keeps the window right. -/
theorem Shows.refill {contents : Bytes} {buffer after : Buffer} (shows : buffer.Shows contents)
    (flowing : buffer.stalled = false) {need : Nat}
    (refilled : buffer.refill need = (.ok (), after)) :
    after.Shows contents ∧ buffer.dataEnd ≤ after.dataEnd := by
  obtain ⟨capacity, running, -, larger, read⟩ := exists_dropped refilled
  obtain ⟨roomy_shows, -, roomy_dataEnd⟩ := shows.dropped running larger
  obtain ⟨after_shows, dataEnd_le⟩ := roomy_shows.readBehind running flowing read
  exact ⟨after_shows, roomy_dataEnd ▸ dataEnd_le⟩

end Buffer

end WasmText

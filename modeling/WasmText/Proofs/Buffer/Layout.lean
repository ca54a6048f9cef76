import WasmText.Proofs.Buffer.Ending
import WasmText.Proofs.Buffer.Failing

/-!
# The layout of a buffer

Whatever a buffer is asked to do, and whatever becomes of its source, the offsets stay in order, the
window fits into its capacity, and the padding stands behind its data once the source has ended.
-/

namespace WasmText

namespace Buffer

variable {source : Source} {buffer : Buffer}

/-- What outlasts every operation on a buffer. -/
structure Abides (Good : Buffer → Prop) : Prop extends Endures Good where
  /-- It outlasts the start of a token. -/
  beginToken : ∀ {buffer}, Good buffer → Good buffer.beginToken
  /-- It outlasts a move of the marker. -/
  mark : ∀ {buffer}, Good buffer → Good buffer.mark
  /-- It outlasts refills, failed ones among them. -/
  refill : ∀ {buffer} need, Good buffer → Good (buffer.refill need).2
  /-- It outlasts the choice of a capacity. -/
  setInitialCapacity : ∀ {buffer} size, Good buffer → Good (buffer.setInitialCapacity size)

theorem Abides.onBuffer {Good : Buffer → Prop} (abides : Abides Good) (good : Good buffer)
    (operation : Operation) : Good (operation.onBuffer buffer).2 := by
  have endures := abides.toEndures
  cases operation with
  | beginToken => exact abides.beginToken good
  | mark => exact abides.mark good
  | advance count => exact endures.advance good count
  | peek ahead | isEndAt ahead => exact endures.reach ahead good
  | eatWhile accepts => exact endures.eatWhile good accepts
  | skipUntil wanted => exact endures.skipUntil good wanted
  | tokenBytes | markedBytes | tokenOffset | markerOffset | cursorOffset => exact good
  | refill need => exact abides.refill need good
  | setInitialCapacity size => exact abides.setInitialCapacity size good

/-! ### The window in its place -/

/-- The window is where the offsets need it, and inside of what has been allocated. -/
structure Sound (buffer : Buffer) : Prop extends Framed buffer where
  /-- The window fits into its capacity. -/
  window_le_capacity : buffer.window.size ≤ buffer.capacity
  /-- There is something to allocate first. -/
  positive : 0 < buffer.initialCapacity
  /-- Once the source has ended, the padding stands behind the data. -/
  padded : ∃ data : Bytes, buffer.window = data ++ Array.replicate buffer.padding 0

theorem sound_opened (source : Source) (size bound : Nat) : (opened source size bound).Sound where
  toFramed := framed_opened source size bound
  window_le_capacity := Nat.le_refl _
  positive := Nat.le_max_right _ _
  padded := ⟨#[], rfl⟩

namespace Sound

theorem fits (sound : buffer.Sound) : buffer.Fits :=
  ⟨sound.window_le_capacity, sound.base_le_token⟩

theorem base_le_cursor (sound : buffer.Sound) : buffer.base ≤ buffer.cursor := by
  obtain ⟨base_le, token_le, marker_le, -⟩ := sound.toFramed
  omega

theorem base_le_dataEnd (sound : buffer.Sound) : buffer.base ≤ buffer.dataEnd :=
  Nat.le_trans sound.base_le_cursor sound.cursor_le_dataEnd

theorem padding_le (sound : buffer.Sound) : buffer.padding ≤ buffer.window.size := by
  obtain ⟨data, window_eq⟩ := sound.padded
  rw [window_eq, Array.size_append, Array.size_replicate]
  exact Nat.le_add_left _ _

theorem limit_eq (sound : buffer.Sound) : buffer.limit = buffer.dataEnd + buffer.padding := by
  have padded := sound.padding_le
  simp only [dataEnd, padding, limit] at padded ⊢
  split at padded
  · rename_i ended
    rw [if_pos ended, if_pos ended]
    omega
  · rename_i running
    rw [if_neg running, if_neg running, Nat.add_zero]

theorem dropped (sound : buffer.Sound) (running : buffer.ended = false) {capacity : Nat}
    (enough : buffer.capacity ≤ capacity) : (buffer.dropped capacity).Sound where
  base_le_token := by
    have base_le := sound.base_le_token
    change buffer.base + (buffer.token - buffer.base) ≤ buffer.token
    omega
  token_le_marker := sound.token_le_marker
  marker_le_cursor := sound.marker_le_cursor
  cursor_le_dataEnd := by
    rw [sound.dataEnd_dropped running]
    exact sound.cursor_le_dataEnd
  failure_eq := sound.failure_eq
  window_le_capacity := by
    have window_le := sound.window_le_capacity
    simp only [Buffer.dropped, Array.size_extract]
    omega
  positive := sound.positive
  padded := ⟨(buffer.dropped capacity).window, by simp [padding, running]⟩

theorem extended (sound : buffer.Sound) (running : buffer.ended = false) (source : Source)
    {bytes : Bytes} {ended : Bool}
    (fits : buffer.window.size + bytes.size + (if ended then paddingSize else 0) ≤
      buffer.capacity) : (buffer.extended source bytes ended).Sound where
  base_le_token := sound.base_le_token
  token_le_marker := sound.token_le_marker
  marker_le_cursor := sound.marker_le_cursor
  cursor_le_dataEnd := by
    rw [dataEnd_extended running]
    exact Nat.le_add_right_of_le sound.cursor_le_dataEnd
  failure_eq := sound.failure_eq
  window_le_capacity := by
    simp only [Buffer.extended, Array.size_append, Array.size_replicate]
    exact fits
  positive := sound.positive
  padded := ⟨buffer.window ++ bytes, rfl⟩

theorem readBehind (sound : buffer.Sound) (running : buffer.ended = false) :
    buffer.readBehind.2.Sound := by
  rcases readBehind_eq running with
    ⟨error, moved, -, read_eq⟩ | ⟨bytes, moved, ended, delivered, read_eq, ended_iff⟩
  · rw [read_eq]
    exact { sound with }
  · rw [read_eq]
    exact sound.extended running moved (fits_of_delivered sound.window_le_capacity delivered ended_iff)

theorem refill (sound : buffer.Sound) (need : Nat) : (buffer.refill need).2.Sound := by
  rcases refill_cases need buffer with
    ⟨-, unchanged⟩ | ⟨_, -, -, unchanged⟩ | ⟨capacity, running, -, larger, refill_eq⟩
  · exact unchanged ▸ sound
  · exact unchanged ▸ sound
  · exact refill_eq ▸ (sound.dropped running larger).readBehind running

end Sound

theorem abides_sound : Abides Sound where
  reach := fun ahead sound =>
    reachWithin_keeps Sound (fun need sound => sound.refill need)
      (fun _ _ _ sound => { sound with failure_eq := Bool.noConfusion }) sound ahead _
  step := fun sound inside => { sound with
    marker_le_cursor := Nat.le_succ_of_le sound.marker_le_cursor
    cursor_le_dataEnd := inside }
  beginToken := fun sound => { sound with toFramed := sound.toFramed.beginToken }
  mark := fun sound => { sound with toFramed := sound.toFramed.mark }
  refill := fun need sound => sound.refill need
  setInitialCapacity := fun {buffer} size sound => by
    rw [Buffer.setInitialCapacity]
    split
    · exact { sound with positive := Nat.le_max_right size 1 }
    · exact sound

theorem Sound.reach (sound : buffer.Sound) (ahead : Nat) : (buffer.reach ahead).Sound :=
  abides_sound.reach ahead sound

theorem Reached.sound (reached : Reached buffer) : buffer.Sound := by
  induction reached with
  | opened source size bound => exact sound_opened source size bound
  | operation operation _ sound => exact abides_sound.onBuffer sound operation
  | takeFailure _ sound => exact { sound with failure_eq := fun _ => rfl }
  | source source _ sound => exact { sound with }

end Buffer

end WasmText

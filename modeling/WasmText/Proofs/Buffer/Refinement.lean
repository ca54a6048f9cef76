import WasmText.Proofs.Buffer.Reach
import WasmText.Proofs.Tape.Cursor

/-!
# A buffer is a cursor

Seen from outside, a buffer is a cursor over the whole of its contents: as long as no refill fails,
every operation answers as it would on that cursor and leaves the buffer at the place where it
would leave the cursor. The window, its capacity and the moments of its refills do not show.
-/

namespace WasmText

namespace Buffer

variable {contents : Bytes} {buffer : Buffer}

/-- To step over bytes is to eat whatever bytes there are. -/
theorem advance_eq_eatAtMost (count : Nat) (buffer : Buffer) :
    buffer.advance count = buffer.eatAtMost (fun _ => true) count := by
  induction count generalizing buffer with
  | zero => rfl
  | succ count induction => simp only [advance, eatAtMost, induction, if_true]

/-! ### What no movement changes -/

/-- A property of buffers that outlasts refills and steps over what has been read. -/
structure Endures (Good : Buffer → Prop) : Prop where
  /-- It outlasts refills. -/
  reach : ∀ {buffer} ahead, Good buffer → Good (buffer.reach ahead)
  /-- It outlasts steps over bytes that have been read. -/
  step : ∀ {buffer}, Good buffer → buffer.cursor < buffer.dataEnd →
    Good { buffer with cursor := buffer.cursor + 1 }

namespace Endures

variable {Good : Buffer → Prop}

/-- The test for the end may refill, and finds out whether a step may be taken. -/
theorem isEndAt (endures : Endures Good) (good : Good buffer) {at_end : Bool} {after : Buffer}
    (tested : buffer.isEndAt 0 = (at_end, after)) :
    Good after ∧ (at_end = false → after.cursor < after.dataEnd) := by
  obtain ⟨rfl, rfl⟩ := Prod.mk.inj tested
  exact ⟨endures.reach 0 good, fun inside => Nat.lt_of_not_le (of_decide_eq_false inside)⟩

theorem eatAtMost (endures : Endures Good) (good : Good buffer) (accepts : UInt8 → Bool)
    (count : Nat) : Good (buffer.eatAtMost accepts count) := by
  induction count generalizing buffer with
  | zero => exact good
  | succ count induction =>
      rw [Buffer.eatAtMost]
      split
      · rename_i after tested
        exact (endures.isEndAt good tested).1
      · rename_i after tested
        obtain ⟨after_good, inside⟩ := endures.isEndAt good tested
        split
        · exact induction (endures.step after_good (inside rfl))
        · exact after_good

theorem advance (endures : Endures Good) (good : Good buffer) (count : Nat) :
    Good (buffer.advance count) := by
  rw [advance_eq_eatAtMost]
  exact endures.eatAtMost good _ count

theorem eatWhile (endures : Endures Good) (good : Good buffer) (accepts : UInt8 → Bool) :
    Good (buffer.eatWhile accepts) :=
  endures.eatAtMost good accepts _

theorem skipUntil (endures : Endures Good) (good : Good buffer) (wanted : UInt8 → Bool) :
    Good (buffer.skipUntil wanted).2 := by
  have eaten_good := endures.eatWhile good fun byte => !wanted byte
  unfold Buffer.skipUntil
  dsimp only
  split
  all_goals
    rename_i after tested
    exact (endures.isEndAt eaten_good tested).1

end Endures

/-- A property of buffers that outlasts refills and steps of the cursor. -/
structure Lasts (Good : Buffer → Prop) : Prop where
  /-- It outlasts refills. -/
  reach : ∀ {buffer} ahead, Good buffer → Good (buffer.reach ahead)
  /-- It outlasts steps. -/
  step : ∀ {buffer}, Good buffer → Good { buffer with cursor := buffer.cursor + 1 }

namespace Lasts

variable {Good : Buffer → Prop}

theorem endures (lasts : Lasts Good) : Endures Good :=
  ⟨lasts.reach, fun good _ => lasts.step good⟩

theorem advance (lasts : Lasts Good) (good : Good buffer) (count : Nat) :
    Good (buffer.advance count) :=
  lasts.endures.advance good count

theorem eatWhile (lasts : Lasts Good) (good : Good buffer) (accepts : UInt8 → Bool) :
    Good (buffer.eatWhile accepts) :=
  lasts.endures.eatWhile good accepts

theorem skipUntil (lasts : Lasts Good) (good : Good buffer) (wanted : UInt8 → Bool) :
    Good (buffer.skipUntil wanted).2 :=
  lasts.endures.skipUntil good wanted

end Lasts

theorem lasts_stalled : Lasts fun buffer => buffer.stalled = true where
  reach := by
    intro buffer ahead stalled
    rw [← Bool.not_eq_false] at stalled ⊢
    exact fun flowing => stalled (stalled_of_reach flowing)
  step := id

theorem lasts_serves : Lasts fun buffer => buffer.source.Serves contents where
  reach := fun ahead serves => serves_reach serves ahead
  step := id

/-! ### Operation by operation -/

/-- The place in the contents at which the scanner is. -/
def place (contents : Bytes) (buffer : Buffer) : Cursor where
  bytes := contents
  token := buffer.token
  marker := buffer.marker
  offset := buffer.cursor

theorem place_eq_of_samePlace {before after : Buffer} (same : SamePlace before after) :
    after.place contents = before.place contents := by
  rw [place, place, same.token, same.marker, same.cursor]

/-- An operation on a buffer gives the result of the same operation on the cursor at its place,
unless a refill has failed. -/
structure Follows {α : Type} (contents : Bytes) (before : Buffer) (result : α × Buffer)
    (plain : α × Cursor) : Prop where
  /-- The window stays right. -/
  shows : result.2.Shows contents
  /-- Without a failure the answers agree and so do the places. -/
  agrees : result.2.stalled = false →
    before.stalled = false ∧ plain = (result.1, result.2.place contents)

theorem Shows.step (shows : buffer.Shows contents) (inside : buffer.cursor < buffer.dataEnd) :
    Shows contents { buffer with cursor := buffer.cursor + 1 } :=
  { shows with
    marker_le_cursor := Nat.le_succ_of_le shows.marker_le_cursor
    cursor_le_dataEnd := inside }

theorem Shows.mark (shows : buffer.Shows contents) : buffer.mark.Shows contents :=
  { shows with
    token_le_marker := Nat.le_trans shows.token_le_marker shows.marker_le_cursor
    marker_le_cursor := Nat.le_refl _ }

theorem Shows.beginToken (shows : buffer.Shows contents) : buffer.beginToken.Shows contents := by
  obtain ⟨base_le, token_le, marker_le, cursor_le, -⟩ := id shows
  exact
    { shows with
      base_le_token := by
        change buffer.base ≤ buffer.cursor
        omega
      token_le_marker := Nat.le_refl _
      marker_le_cursor := Nat.le_refl _ }

theorem Shows.peek (shows : buffer.Shows contents) (ahead : Nat) :
    Follows contents buffer (buffer.peek ahead) (Tape.peek ahead (buffer.place contents)) := by
  have reach_shows := shows.reach ahead
  refine ⟨reach_shows, fun flowing => ⟨stalled_of_reach flowing, ?_⟩⟩
  have past_iff := shows.dataEnd_reach_le_iff ahead flowing
  have cursor_eq := reach_cursor buffer ahead
  have byte_eq :
      (buffer.reach ahead).byteAt (buffer.cursor + ahead) =
        contents.getOrZero (buffer.cursor + ahead) := by
    by_cases past : (buffer.reach ahead).dataEnd ≤ buffer.cursor + ahead
    · rw [reach_shows.byteAt_past past, Bytes.getOrZero,
        Array.getElem?_eq_none (past_iff.mp past)]
      rfl
    · have base_le := reach_shows.base_le_token
      have token_le := reach_shows.token_le_marker
      have marker_le := reach_shows.marker_le_cursor
      exact reach_shows.byteAt_eq (by omega) (by omega)
  simp only [Buffer.peek, cursor_eq, byte_eq, place_eq_of_samePlace (samePlace_reach buffer ahead)]
  rfl

theorem Shows.isEndAt (shows : buffer.Shows contents) (ahead : Nat) :
    Follows contents buffer (buffer.isEndAt ahead)
      (Tape.isEndAt ahead (buffer.place contents)) := by
  refine ⟨shows.reach ahead, fun flowing => ⟨stalled_of_reach flowing, ?_⟩⟩
  have past_iff := shows.dataEnd_reach_le_iff ahead flowing
  simp only [Buffer.isEndAt, reach_cursor, past_iff,
    place_eq_of_samePlace (samePlace_reach buffer ahead)]
  rfl

/-- What the test for the end settles. -/
theorem Shows.isEndAt_zero (shows : buffer.Shows contents) {at_end : Bool} {after : Buffer}
    (tested : buffer.isEndAt 0 = (at_end, after)) :
    after.Shows contents ∧ SamePlace buffer after ∧
      (at_end = false → after.cursor < after.dataEnd) ∧
      (after.stalled = false → buffer.stalled = false ∧
        (at_end = true ↔ contents.size ≤ buffer.cursor)) := by
  obtain ⟨rfl, rfl⟩ := Prod.mk.inj tested
  refine ⟨shows.reach 0, samePlace_reach buffer 0, ?_, ?_⟩
  · intro before_end
    simpa using before_end
  · intro flowing
    refine ⟨stalled_of_reach flowing, ?_⟩
    rw [decide_eq_true_iff, reach_cursor, shows.dataEnd_reach_le_iff 0 flowing, Nat.add_zero]

theorem Shows.advance (shows : buffer.Shows contents) (count : Nat) :
    Follows contents buffer ((), buffer.advance count)
      ((), (buffer.place contents).advance count) := by
  induction count generalizing buffer with
  | zero => exact ⟨shows, fun flowing => ⟨flowing, by rw [Cursor.advance_zero]; rfl⟩⟩
  | succ count induction =>
      rw [Buffer.advance]
      split
      · rename_i after tested
        obtain ⟨after_shows, same, -, agrees⟩ := shows.isEndAt_zero tested
        refine ⟨after_shows, fun flowing => ?_⟩
        obtain ⟨before_flowing, end_iff⟩ := agrees flowing
        refine ⟨before_flowing, ?_⟩
        rw [Cursor.advance_of_end _ (end_iff.mp rfl), place_eq_of_samePlace same]
      · rename_i after tested
        obtain ⟨after_shows, same, inside, agrees⟩ := shows.isEndAt_zero tested
        obtain ⟨last_shows, last_agrees⟩ := induction (after_shows.step (inside rfl))
        refine ⟨last_shows, fun flowing => ?_⟩
        obtain ⟨after_flowing, advanced⟩ := last_agrees flowing
        obtain ⟨before_flowing, end_iff⟩ := agrees after_flowing
        have not_end : buffer.cursor < contents.size := by simpa using end_iff
        refine ⟨before_flowing, ?_⟩
        rw [Cursor.advance_of_lt _ not_end, ← advanced]
        simp only [place, Cursor.moved, same.token, same.marker, same.cursor]

theorem Shows.eatAtMost (shows : buffer.Shows contents) (accepts : UInt8 → Bool) {count : Nat}
    (enough : buffer.stalled = false → contents.size - buffer.cursor < count) :
    Follows contents buffer ((), buffer.eatAtMost accepts count)
      ((), (buffer.place contents).eatWhile accepts) := by
  induction count generalizing buffer with
  | zero => exact ⟨shows, fun flowing => absurd (enough flowing) (Nat.not_lt_zero _)⟩
  | succ count induction =>
      rw [Buffer.eatAtMost]
      split
      · rename_i after tested
        obtain ⟨after_shows, same, -, agrees⟩ := shows.isEndAt_zero tested
        refine ⟨after_shows, fun flowing => ?_⟩
        obtain ⟨before_flowing, end_iff⟩ := agrees flowing
        refine ⟨before_flowing, ?_⟩
        rw [Cursor.eatWhile_of_end _ (end_iff.mp rfl), place_eq_of_samePlace same]
      · rename_i after tested
        obtain ⟨after_shows, same, inside, agrees⟩ := shows.isEndAt_zero tested
        have bounded := after_shows.dataEnd_le_size
        have before_end := inside rfl
        have byte_eq : after.byteAt after.cursor = contents.getOrZero buffer.cursor := by
          have base_le := after_shows.base_le_token
          have token_le := after_shows.token_le_marker
          have marker_le := after_shows.marker_le_cursor
          rw [after_shows.byteAt_eq (by omega) before_end, same.cursor]
        have not_end : buffer.cursor < contents.size := by
          rw [← same.cursor]
          omega
        have plain_eq := (buffer.place contents).eatWhile_of_lt accepts not_end
        change _ = if accepts (contents.getOrZero buffer.cursor) then _ else _ at plain_eq
        rw [byte_eq, plain_eq]
        split
        · have enough_after : after.stalled = false →
              contents.size - { after with cursor := after.cursor + 1 }.cursor < count := by
            intro flowing
            have enough_before := enough (agrees flowing).1
            simp only [same.cursor]
            omega
          obtain ⟨last_shows, last_agrees⟩ :=
            induction (after_shows.step before_end) enough_after
          refine ⟨last_shows, fun flowing => ?_⟩
          obtain ⟨after_flowing, eaten⟩ := last_agrees flowing
          refine ⟨(agrees after_flowing).1, ?_⟩
          rw [← eaten]
          simp only [place, Cursor.moved, same.token, same.marker, same.cursor]
        · exact ⟨after_shows, fun flowing =>
            ⟨(agrees flowing).1, by rw [place_eq_of_samePlace same]⟩⟩

theorem Shows.remaining_eq (shows : buffer.Shows contents) (flowing : buffer.stalled = false) :
    buffer.remaining = contents.size - buffer.cursor := by
  have cursor_le := shows.cursor_le_dataEnd
  have bounded := shows.dataEnd_le_size
  rw [remaining, Source.remaining, shows.contents_eq, shows.position_eq flowing]
  omega

theorem Shows.eatWhile (shows : buffer.Shows contents) (accepts : UInt8 → Bool) :
    Follows contents buffer ((), buffer.eatWhile accepts)
      ((), (buffer.place contents).eatWhile accepts) := by
  have enough : buffer.stalled = false → contents.size - buffer.cursor < buffer.remaining + 1 := by
    intro flowing
    rw [shows.remaining_eq flowing]
    omega
  rw [Buffer.eatWhile]
  exact shows.eatAtMost accepts enough

/-- The byte at the cursor of a buffer that has more of its contents in the window. -/
theorem Shows.byteAt_cursor (shows : buffer.Shows contents)
    (inside : buffer.cursor < buffer.dataEnd) :
    contents[buffer.cursor]? = some (buffer.byteAt buffer.cursor) := by
  have base_le := shows.base_le_token
  have token_le := shows.token_le_marker
  have marker_le := shows.marker_le_cursor
  have bounded := shows.dataEnd_le_size
  have before_end : buffer.cursor < contents.size := by omega
  rw [shows.byteAt_eq (by omega) inside, Bytes.getOrZero, Array.getElem?_eq_getElem before_end]
  rfl

theorem Shows.skipUntil (shows : buffer.Shows contents) (wanted : UInt8 → Bool) :
    Follows contents buffer (buffer.skipUntil wanted)
      ((buffer.place contents).skipUntil wanted) := by
  obtain ⟨eaten_shows, eaten_agrees⟩ := shows.eatWhile fun byte => !wanted byte
  unfold Buffer.skipUntil Cursor.skipUntil
  generalize (buffer.eatWhile fun byte => !wanted byte) = eaten at eaten_shows eaten_agrees ⊢
  generalize ((buffer.place contents).eatWhile fun byte => !wanted byte) = moved at eaten_agrees ⊢
  dsimp only at eaten_shows eaten_agrees ⊢
  split
  · rename_i after tested
    obtain ⟨after_shows, same, -, agrees⟩ := eaten_shows.isEndAt_zero tested
    refine ⟨after_shows, fun flowing => ?_⟩
    obtain ⟨eaten_flowing, end_iff⟩ := agrees flowing
    obtain ⟨before_flowing, eaten_eq⟩ := eaten_agrees eaten_flowing
    obtain ⟨-, rfl⟩ := Prod.mk.inj eaten_eq
    refine ⟨before_flowing, ?_⟩
    have past_end : contents[eaten.cursor]? = none := Array.getElem?_eq_none (end_iff.mp rfl)
    rw [place_eq_of_samePlace same, ← past_end]
    rfl
  · rename_i after tested
    obtain ⟨after_shows, same, inside, agrees⟩ := eaten_shows.isEndAt_zero tested
    refine ⟨after_shows, fun flowing => ?_⟩
    obtain ⟨eaten_flowing, -⟩ := agrees flowing
    obtain ⟨before_flowing, eaten_eq⟩ := eaten_agrees eaten_flowing
    obtain ⟨-, rfl⟩ := Prod.mk.inj eaten_eq
    refine ⟨before_flowing, ?_⟩
    have byte_eq := after_shows.byteAt_cursor (inside rfl)
    rw [place_eq_of_samePlace same, ← byte_eq, same.cursor]
    rfl

theorem Shows.tokenBytes_eq (shows : buffer.Shows contents) :
    buffer.tokenBytes = Tape.tokenBytes (buffer.place contents) :=
  shows.slice_eq shows.base_le_token
    (Nat.le_trans shows.token_le_marker shows.marker_le_cursor) shows.cursor_le_dataEnd

theorem Shows.markedBytes_eq (shows : buffer.Shows contents) :
    buffer.markedBytes = Tape.markedBytes (buffer.place contents) :=
  shows.slice_eq (Nat.le_trans shows.base_le_token shows.token_le_marker)
    shows.marker_le_cursor shows.cursor_le_dataEnd

/-- A buffer over a source, with the capacity that it first allocates and the size from which on
allocations fail. -/
def opened (source : Source) (size bound : Nat) : Buffer :=
  { (ofSource source).setInitialCapacity size with allocationBound := bound }

theorem shows_opened {source : Source} (reads : source.contents = contents)
    (unread : source.position = 0) (size bound : Nat) :
    (opened source size bound).Shows contents where
  base_le_token := Nat.le_refl _
  token_le_marker := Nat.le_refl _
  marker_le_cursor := Nat.le_refl _
  cursor_le_dataEnd := Nat.le_refl _
  dataEnd_le_size := Nat.zero_le _
  window_eq := (Array.extract_zero ..).symm
  window_le_capacity := Nat.le_refl _
  dataEnd_of_ended := Bool.noConfusion
  contents_eq := reads
  position_eq := fun _ => unread
  failure_eq := fun _ => rfl

end Buffer

end WasmText

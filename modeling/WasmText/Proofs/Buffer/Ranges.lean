import WasmText.Proofs.Buffer.Checked
import WasmText.Proofs.Buffer.Losses

/-!
# Indices in range

Eating steps over one byte after the other. A buffer need not look at the end before each of them: it
can take all that has been read as one slice and search it. Both ways come to the same place, and in
the layout that every buffer has, no index is out of its range on the way.
-/

namespace WasmText

namespace Buffer

namespace Checked

/-- Moves to the next byte at which to stop and gives it, or to the end. In each round all that has
been read from the cursor on is searched as one slice. -/
def runTo (stops : UInt8 → Bool) : Nat → Buffer → Option (Option UInt8 × Buffer)
  | 0, _ => none
  | rounds + 1, buffer => do
    let reached ← reach 0 buffer
    if reached.cursor < reached.limit then
      let last ← dataEnd reached
      if reached.cursor < last then
        let ahead ← slice reached.cursor last reached
        match ahead.findIdx? stops with
        | some run => return (some (← ahead[run]?), { reached with cursor := reached.cursor + run })
        | none => runTo stops rounds { reached with cursor := last }
      else
        return (none, reached)
    else
      return (none, reached)

/-- Steps over bytes as long as they satisfy a predicate. -/
def eatWhile (accepts : UInt8 → Bool) (buffer : Buffer) : Option Buffer :=
  (runTo (fun byte => !accepts byte) (buffer.remaining + 1) buffer).map Prod.snd

/-- Moves to the next byte that satisfies a predicate and gives it, or to the end. -/
def skipUntil (wanted : UInt8 → Bool) (buffer : Buffer) : Option (Option UInt8 × Buffer) :=
  runTo wanted (buffer.remaining + 1) buffer

end Checked

variable {source : Source} {buffer : Buffer} {lost : Nat} {accepts stops : UInt8 → Bool}

/-! ### Running over bytes that have been read -/

theorem getElem_slice {first last index : Nat} (inside : buffer.base ≤ first)
    (below : index < (buffer.slice first last).size) :
    (buffer.slice first last)[index] = buffer.byteAt (first + index) := by
  have in_window := below
  simp only [slice, Array.size_extract] at in_window
  have index_eq : first + index - buffer.base = first - buffer.base + index := by omega
  rw [byteAt, Bytes.getOrZero, index_eq, Array.getElem?_eq_getElem (by omega), Option.getD_some]
  exact Array.getElem_extract _

/-- A search of a slice finds the first byte at which to stop, if there is one. -/
theorem search_slice (stops : UInt8 → Bool) {first last : Nat} (inside : buffer.base ≤ first)
    (before_end : last ≤ buffer.limit) :
    (∃ run, (buffer.slice first last).findIdx? stops = some run ∧ first + run < last ∧
      (buffer.slice first last)[run]? = some (buffer.byteAt (first + run)) ∧
      stops (buffer.byteAt (first + run)) = true ∧
      ∀ index < run, stops (buffer.byteAt (first + index)) = false) ∨
    ((buffer.slice first last).findIdx? stops = none ∧
      ∀ index < last - first, stops (buffer.byteAt (first + index)) = false) := by
  have size_eq : (buffer.slice first last).size = last - first := by
    rw [limit] at before_end
    simp only [slice, Array.size_extract]
    omega
  cases search : (buffer.slice first last).findIdx? stops with
  | some run =>
      obtain ⟨below, stopped, passed⟩ := Array.findIdx?_eq_some_iff_getElem.mp search
      rw [getElem_slice inside] at stopped
      refine .inl ⟨run, rfl, by omega, ?_, stopped, fun index before => ?_⟩
      · rw [Array.getElem?_eq_getElem below, getElem_slice inside]
      · have one := passed index before
        rwa [getElem_slice inside, Bool.not_eq_true] at one
  | none =>
      refine .inr ⟨rfl, fun index below => ?_⟩
      have in_slice : index < (buffer.slice first last).size := by omega
      have one := Array.findIdx?_eq_none_iff.mp search _ (Array.getElem_mem in_slice)
      rwa [getElem_slice inside] at one

/-- Bytes that have been read and are accepted are stepped over one by one. -/
theorem ends_of_run {count : Nat} {outcome : Unit × Buffer}
    (inside : buffer.cursor + count ≤ buffer.dataEnd)
    (accepted : ∀ index < count, accepts (buffer.byteAt (buffer.cursor + index)) = true)
    (ends : Loop.Ends (eatOnce accepts) { buffer with cursor := buffer.cursor + count } outcome) :
    Loop.Ends (eatOnce accepts) buffer outcome := by
  induction count generalizing buffer with
  | zero => exact ends
  | succ count induction =>
      have one : eatOnce accepts buffer =
          (none, { buffer with cursor := buffer.cursor + 1 }) := by
        rw [eatOnce, isEndAt_of_inside (by omega)]
        exact if_pos (accepted 0 (Nat.succ_pos count))
      have further (index : Nat) : buffer.cursor + 1 + index = buffer.cursor + (index + 1) := by
        omega
      refine .again one (induction ?_ ?_ ?_)
      · exact Nat.le_trans (Nat.le_of_eq (further count)) inside
      · intro index below
        change accepts (buffer.byteAt (buffer.cursor + 1 + index)) = true
        rw [further]
        exact accepted (index + 1) (Nat.succ_lt_succ below)
      · change Loop.Ends _ { buffer with cursor := buffer.cursor + 1 + count } _
        rw [further]
        exact ends

/-! ### Where a run comes to -/

/-- A run to the next byte at which to stop comes to `last`, and has found that byte or the end. -/
structure RunsTo (stops : UInt8 → Bool) (buffer : Buffer) (found : Option UInt8) (last : Buffer) :
    Prop where
  /-- Stepping over single bytes comes to the same place. -/
  ends : Loop.Ends (eatOnce fun byte => !stops byte) buffer ((), last)
  /-- It is the end unless a byte has been found. -/
  tested : last.isEndAt 0 = (found.isNone, last)
  /-- The byte found is the one at the cursor. -/
  byte_eq : ∀ byte, found = some byte → last.byteAt last.cursor = byte

namespace RunsTo

variable {found : Option UInt8} {last : Buffer}

theorem of_reach (fits : buffer.Fits) (runs : RunsTo stops (buffer.reach 0) found last) :
    RunsTo stops buffer found last := by
  have same : eatOnce (fun byte => !stops byte) buffer =
      eatOnce (fun byte => !stops byte) (buffer.reach 0) := by
    rw [eatOnce, eatOnce, isEndAt, isEndAt, fits.reach_reach]
  exact { runs with ends := runs.ends.of_round_eq same }

theorem of_passed {count : Nat} (inside : buffer.cursor + count ≤ buffer.dataEnd)
    (passed : ∀ index < count, stops (buffer.byteAt (buffer.cursor + index)) = false)
    (runs : RunsTo stops { buffer with cursor := buffer.cursor + count } found last) :
    RunsTo stops buffer found last :=
  { runs with
    ends := ends_of_run inside (fun index below => congrArg not (passed index below)) runs.ends }

end RunsTo

theorem runsTo_stop (inside : buffer.cursor < buffer.dataEnd)
    (stopped : stops (buffer.byteAt buffer.cursor) = true) :
    RunsTo stops buffer (some (buffer.byteAt buffer.cursor)) buffer where
  ends := .done (by
    rw [eatOnce, isEndAt_of_inside inside]
    exact if_neg (Bool.eq_false_iff.mp (congrArg not stopped)))
  tested := isEndAt_of_inside inside
  byte_eq := fun _ same => Option.some.inj same

theorem runsTo_end (again : buffer.reach 0 = buffer) (past : buffer.dataEnd ≤ buffer.cursor) :
    RunsTo stops buffer none buffer := by
  have tested : buffer.isEndAt 0 = (true, buffer) := by
    rw [isEndAt, again]
    simpa using past
  exact ⟨.done (by rw [eatOnce, tested]), tested, fun byte same => by cases same⟩

/-! ### Less and less remains -/

namespace Sound

theorem remaining_readBehind_le (sound : buffer.Sound) (running : buffer.ended = false) :
    buffer.readBehind.2.remaining ≤ buffer.remaining := by
  have same_contents := buffer.source.contents_read (buffer.capacity - buffer.window.size)
  have cursor_le := sound.cursor_le_dataEnd
  rcases readBehind_eq running with
    ⟨error, moved, refused, read_eq⟩ | ⟨bytes, moved, ended, delivered, read_eq, -⟩
  · have forward := buffer.source.position_le_read (buffer.capacity - buffer.window.size)
    rw [refused] at same_contents forward
    dsimp only at same_contents forward
    rw [read_eq]
    change buffer.dataEnd - buffer.cursor + (moved.contents.size - moved.position) ≤
      buffer.dataEnd - buffer.cursor + (buffer.source.contents.size - buffer.source.position)
    rw [same_contents]
    omega
  · obtain ⟨bytes_eq, moved_eq⟩ := Source.read_ok delivered
    have bytes_size := congrArg Array.size bytes_eq
    rw [Array.size_extract] at bytes_size
    rw [delivered] at same_contents
    rw [read_eq, remaining, dataEnd_extended running]
    change buffer.dataEnd + bytes.size - buffer.cursor + (moved.contents.size - moved.position) ≤
      buffer.dataEnd - buffer.cursor + (buffer.source.contents.size - buffer.source.position)
    rw [same_contents]
    omega

theorem remaining_refill_le (sound : buffer.Sound) (need : Nat) :
    (buffer.refill need).2.remaining ≤ buffer.remaining := by
  rcases refill_cases need buffer with
    ⟨-, unchanged⟩ | ⟨_, -, -, unchanged⟩ | ⟨capacity, running, -, larger, refill_eq⟩
  · rw [unchanged]
  · rw [unchanged]
  · have same : (buffer.dropped capacity).remaining = buffer.remaining := by
      rw [remaining, sound.dataEnd_dropped running]
      rfl
    rw [refill_eq, ← same]
    exact (sound.dropped running larger).remaining_readBehind_le running

theorem remaining_reach_le (sound : buffer.Sound) (ahead : Nat) :
    (buffer.reach ahead).remaining ≤ buffer.remaining := by
  have kept := reachWithin_keeps
    (fun state => state.Sound ∧ state.remaining ≤ buffer.remaining)
    (fun need good =>
      ⟨good.1.refill need, Nat.le_trans (good.1.remaining_refill_le need) good.2⟩)
    (fun _ _ _ good => ⟨{ good.1 with failure_eq := Bool.noConfusion }, good.2⟩)
    ⟨sound, Nat.le_refl _⟩ ahead
  exact (kept _).2

/-- Stepping over bytes comes to an end by itself, also where bytes have been lost. -/
theorem ends_eatWhile (sound : buffer.Sound) (accepts : UInt8 → Bool) :
    Loop.Ends (eatOnce accepts) buffer ((), buffer.eatWhile accepts) := by
  -- A step leaves one byte less, and looking ahead before it brings no more than it takes from the
  -- source.
  have shrinks (state next : Buffer) (state_sound : state.Sound)
      (goes_on : eatOnce accepts state = (none, next)) :
      next.Sound ∧ next.remaining < state.remaining := by
    rw [eatOnce] at goes_on
    split at goes_on
    · cases goes_on
    rename_i reached tested
    obtain ⟨reached_sound, inside⟩ := abides_sound.isEndAt state_sound tested
    have less := state_sound.remaining_reach_le 0
    obtain ⟨-, rfl⟩ := Prod.mk.inj tested
    split at goes_on
    · cases goes_on
      have before_end := inside rfl
      refine ⟨abides_sound.step reached_sound before_end, ?_⟩
      rw [remaining] at less ⊢
      change (state.reach 0).dataEnd - ((state.reach 0).cursor + 1) +
        (state.reach 0).source.remaining < state.remaining
      omega
    · cases goes_on
  exact (unfolds_eatAtMost accepts).ends shrinks sound (Nat.lt_succ_self _)

/-! ### No check fails -/

/-- Searching all that has been read as one slice runs to where stepping over single bytes does. -/
theorem runTo_checked (sound : buffer.Sound) (stops : UInt8 → Bool) {rounds : Nat}
    (enough : buffer.remaining < rounds) :
    ∃ found last, Checked.runTo stops rounds buffer = some (found, last) ∧
      RunsTo stops buffer found last := by
  induction rounds generalizing buffer with
  | zero => exact absurd enough (Nat.not_lt_zero _)
  | succ rounds induction =>
      have reached_sound := sound.reach 0
      have again := sound.fits.reach_reach 0
      have less := Nat.lt_of_le_of_lt (sound.remaining_reach_le 0) enough
      -- A round looks ahead first, and so does a step over a byte: both go on from there.
      suffices searched : ∃ found last, Checked.runTo stops (rounds + 1) buffer = some (found, last) ∧
          RunsTo stops (buffer.reach 0) found last by
        obtain ⟨found, last, runs_eq, runs⟩ := searched
        exact ⟨found, last, runs_eq, runs.of_reach sound.fits⟩
      rw [Checked.runTo, sound.reach_checked]
      simp only [Option.bind_eq_bind, Option.bind_some]
      generalize buffer.reach 0 = reached at *
      have before_limit := reached.dataEnd_le_limit
      rw [reached_sound.dataEnd_checked, Option.bind_some]
      by_cases inside : reached.cursor < reached.dataEnd
      · have base_le := reached_sound.base_le_cursor
        rw [if_pos (Nat.lt_of_lt_of_le inside before_limit), if_pos inside,
          slice_checked base_le (Nat.le_of_lt inside) before_limit, Option.bind_some]
        rcases search_slice stops base_le before_limit with
          ⟨run, search, before_end, byte_eq, stopped, passed⟩ | ⟨search, passed⟩
        · rw [search]
          dsimp only
          rw [byte_eq, Option.bind_some]
          exact ⟨_, _, rfl,
            .of_passed (Nat.le_of_lt before_end) passed (runsTo_stop before_end stopped)⟩
        · rw [search]
          have moved_sound : Sound { reached with cursor := reached.dataEnd } :=
            { reached_sound with
              marker_le_cursor := Nat.le_trans reached_sound.marker_le_cursor (Nat.le_of_lt inside)
              cursor_le_dataEnd := Nat.le_refl _ }
          -- There was a byte to pass, so less remains for the next round.
          have moved_less : Buffer.remaining { reached with cursor := reached.dataEnd } < rounds := by
            rw [remaining] at less ⊢
            change reached.dataEnd - reached.dataEnd + reached.source.remaining < rounds
            omega
          obtain ⟨found, last, searched, runs⟩ := induction moved_sound moved_less
          refine ⟨found, last, searched, ?_⟩
          have whole : reached.cursor + (reached.dataEnd - reached.cursor) = reached.dataEnd := by
            omega
          exact .of_passed (Nat.le_of_eq whole) passed (by rwa [whole])
      · refine ⟨none, reached, ?_, runsTo_end again (Nat.le_of_not_lt inside)⟩
        rw [if_neg inside]
        split <;> rfl

theorem eatWhile_checked (sound : buffer.Sound) (accepts : UInt8 → Bool) :
    Checked.eatWhile accepts buffer = some (buffer.eatWhile accepts) := by
  obtain ⟨found, last, searched, runs⟩ :=
    sound.runTo_checked (fun byte => !accepts byte) (Nat.lt_succ_self buffer.remaining)
  have ends := runs.ends
  simp only [Bool.not_not] at ends
  obtain ⟨-, last_eq⟩ := Prod.mk.inj (ends.unique (sound.ends_eatWhile accepts))
  rw [Checked.eatWhile, searched, Option.map_some, last_eq]

theorem skipUntil_checked (sound : buffer.Sound) (wanted : UInt8 → Bool) :
    Checked.skipUntil wanted buffer = some (buffer.skipUntil wanted) := by
  obtain ⟨found, last, searched, runs⟩ :=
    sound.runTo_checked wanted (Nat.lt_succ_self buffer.remaining)
  have same := runs.ends.unique (sound.ends_eatWhile fun byte => !wanted byte)
  rw [Checked.skipUntil, searched]
  unfold Buffer.skipUntil
  generalize (buffer.eatWhile fun byte => !wanted byte) = eaten at same ⊢
  cases same
  dsimp only
  rw [runs.tested]
  cases found with
  | none => rfl
  | some byte => rw [← runs.byte_eq byte rfl]; rfl

end Sound

/-! ### The layout of every buffer -/

/-- The offsets of a buffer are in order, and the padding is in its place. -/
structure InOrder (buffer : Buffer) : Prop where
  /-- The token starts in the window. -/
  base_le_token : buffer.base ≤ buffer.token
  /-- The marker is inside the token. -/
  token_le_marker : buffer.token ≤ buffer.marker
  /-- The marker is not ahead of the cursor. -/
  marker_le_cursor : buffer.marker ≤ buffer.cursor
  /-- The cursor is not ahead of the data. -/
  cursor_le_dataEnd : buffer.cursor ≤ buffer.dataEnd
  /-- The data is in the window. -/
  dataEnd_le_limit : buffer.dataEnd ≤ buffer.limit
  /-- The window is inside of what has been allocated. -/
  limit_le_capacity : buffer.limit ≤ buffer.base + buffer.capacity
  /-- Once the source has ended, the padding is the rest of the window. -/
  padded : buffer.ended = true → buffer.dataEnd + paddingSize = buffer.limit ∧
    buffer.slice buffer.dataEnd buffer.limit = Array.replicate paddingSize 0

/-- The data of a buffer is that of the source. -/
structure Holds (contents : Bytes) (buffer : Buffer) : Prop where
  /-- The window shows the contents where it is. -/
  data_eq : buffer.slice buffer.base buffer.dataEnd = contents.extract buffer.base buffer.dataEnd
  /-- Once the source has ended, the data ends where the contents do. -/
  dataEnd_of_ended : buffer.ended = true → buffer.dataEnd = contents.size

/-- No difference, slice or write that a buffer makes is out of range. -/
structure InRange (buffer : Buffer) : Prop where
  /-- Refilling by any number of bytes. -/
  refill : ∀ need, Checked.refill need buffer = some (buffer.refill need)
  /-- Refilling to reach ahead. -/
  reach : ∀ ahead, Checked.reach ahead buffer = some (buffer.reach ahead)
  /-- Finding the end of the data. -/
  dataEnd : Checked.dataEnd buffer = some buffer.dataEnd
  /-- Eating. -/
  eatWhile : ∀ accepts, Checked.eatWhile accepts buffer = some (buffer.eatWhile accepts)
  /-- Skipping. -/
  skipUntil : ∀ wanted, Checked.skipUntil wanted buffer = some (buffer.skipUntil wanted)
  /-- Taking the bytes of the token. -/
  tokenBytes : Checked.slice buffer.token buffer.cursor buffer = some buffer.tokenBytes
  /-- Taking the bytes from the marker on. -/
  markedBytes : Checked.slice buffer.marker buffer.cursor buffer = some buffer.markedBytes

theorem Sound.inOrder (sound : buffer.Sound) : buffer.InOrder where
  base_le_token := sound.base_le_token
  token_le_marker := sound.token_le_marker
  marker_le_cursor := sound.marker_le_cursor
  cursor_le_dataEnd := sound.cursor_le_dataEnd
  dataEnd_le_limit := buffer.dataEnd_le_limit
  limit_le_capacity := Nat.add_le_add_left sound.window_le_capacity _
  padded := by
    intro ended
    have limit_eq := sound.limit_eq
    have padding_eq : buffer.padding = paddingSize := if_pos ended
    rw [padding_eq] at limit_eq
    refine ⟨limit_eq.symm, ?_⟩
    obtain ⟨data, window_eq⟩ := sound.padded
    have window_size := congrArg Array.size window_eq
    rw [padding_eq, Array.size_append, Array.size_replicate] at window_size
    rw [padding_eq] at window_eq
    have first_eq : buffer.dataEnd - buffer.base = data.size := by
      rw [limit] at limit_eq
      omega
    have last_eq : buffer.limit - buffer.base = data.size + paddingSize := by
      rw [limit, Nat.add_sub_cancel_left, window_size]
    rw [slice, first_eq, last_eq, window_eq, Array.extract_append]
    simp

theorem Sound.inRange (sound : buffer.Sound) : buffer.InRange where
  refill := sound.refill_checked
  reach := sound.reach_checked
  dataEnd := sound.dataEnd_checked
  eatWhile := sound.eatWhile_checked
  skipUntil := sound.skipUntil_checked
  tokenBytes := by
    obtain ⟨base_le, token_le, marker_le, cursor_le, -⟩ := sound.toFramed
    exact slice_checked base_le (Nat.le_trans token_le marker_le)
      (Nat.le_trans cursor_le buffer.dataEnd_le_limit)
  markedBytes := by
    obtain ⟨base_le, token_le, marker_le, cursor_le, -⟩ := sound.toFramed
    exact slice_checked (Nat.le_trans base_le token_le) marker_le
      (Nat.le_trans cursor_le buffer.dataEnd_le_limit)

/-- Nothing can be left out of the data where nothing has been lost. -/
theorem Laid.holds (laid : Laid source 0 buffer) : buffer.Holds source.contents where
  data_eq := by
    have position_eq : buffer.source.position = buffer.dataEnd := laid.position_eq
    have position_le := laid.position_le
    have data_sublist := laid.data_sublist
    have end_le := buffer.dataEnd_le_limit
    rw [position_eq] at position_le data_sublist
    rw [limit] at end_le
    apply Array.toList_inj.mp
    apply data_sublist.eq_of_length
    simp only [slice, Array.length_toList, Array.size_extract]
    omega
  dataEnd_of_ended := fun ended => laid.position_eq.symm.trans (laid.position_of_ended ended)

/-- Whatever is asked of a buffer over a source that nothing has been read from, and whether it
succeeds or fails, the offsets stay in order and nothing that the buffer does is out of range. The
source has been read as far as the data reaches and as many bytes further as have been lost, to the
end of the contents once it has ended. The data is what has been read less these bytes, so that none
comes twice or out of order. As long as no read that failed has moved the source, the data is that of
the source; and this is always so if reads that fail leave the source where it was. -/
theorem layout_of_driven (unread : source.position = 0) (driven : Driven source lost buffer) :
    buffer.InOrder ∧ buffer.InRange ∧ buffer.source.position = buffer.dataEnd + lost ∧
      (buffer.ended = true → buffer.dataEnd + lost = source.contents.size) ∧
      (buffer.slice buffer.base buffer.dataEnd).toList.Sublist
        (source.contents.extract buffer.base buffer.source.position).toList ∧
      (lost = 0 → buffer.Holds source.contents) ∧ (source.KeepsPlace → lost = 0) := by
  have laid := driven.laid unread
  refine ⟨laid.toSound.inOrder, laid.toSound.inRange, laid.position_eq, ?_, laid.data_sublist, ?_,
    ?_⟩
  · exact fun ended => laid.position_eq.symm.trans (laid.position_of_ended ended)
  · rintro rfl
    exact laid.holds
  · exact fun keeps => (laid.keeps keeps).2

/-- A file that can be read once does not keep its place, for a read that asks for more than there is
moves it and is refused then. -/
theorem not_keepsPlace_readableOnce : ¬ readableOnce.KeepsPlace := by
  intro keeps
  have refused : (readableOnce.read 41).1 = .error .isADirectory := by decide +kernel
  have stays := keeps readableOnce (File.Same.refl _) 41 _ _ (Prod.ext refused rfl)
  revert stays
  decide +kernel

/-- Such a file loses nothing where the first read asks for no more than the first request brings,
for then the next read is refused at once. -/
theorem layout_of_driven_readableOnce :
    let buffer := (Operation.runAll Operation.onBuffer
      [.advance 5, .beginToken, .peek 40, .refill 7] (opened (.file readableOnce) 1 4096)).2
    ¬ readableOnce.KeepsPlace ∧ buffer.stalled = true ∧ buffer.InOrder ∧ buffer.InRange ∧
      buffer.source.position = buffer.dataEnd ∧ buffer.Holds readableOnce.contents := by
  intro buffer
  have nothing_lost : Operation.lostByAll [.advance 5, .beginToken, .peek 40, .refill 7]
      (opened (.file readableOnce) 1 4096) = 0 := by decide +kernel
  have driven : Driven (.file readableOnce) _ buffer := (Driven.opened 1 4096).runAll _
  rw [nothing_lost] at driven
  obtain ⟨in_order, in_range, position_eq, -, -, holds, -⟩ := layout_of_driven rfl driven
  exact ⟨not_keepsPlace_readableOnce, by decide +kernel, in_order, in_range, position_eq, holds rfl⟩

/-- The first twenty letters, in a file that delivers five bytes to a request and refuses the second
one. -/
def faltering : File :=
  { File.regular "a.wast" #[0x61, 0x62, 0x63, 0x64, 0x65, 0x66, 0x67, 0x68, 0x69, 0x6A, 0x6B, 0x6C,
      0x6D, 0x6E, 0x6F, 0x70, 0x71, 0x72, 0x73, 0x74] with
    replies := fun request => if request = 1 then .refused .isADirectory else .delivered 5 }

/-- A read that is refused behind five bytes loses them. The next refill brings the bytes after them
in their place, and the buffer ends five bytes short of the contents. -/
theorem bytes_lost_by_failed_read :
    let failed := ((Operation.refill 1).onBuffer (opened (.file faltering) 4 4096)).2
    let refilled := ((Operation.refill 1).onBuffer failed).2
    Driven (.file faltering) 5 failed ∧ failed.source.position = 5 ∧ failed.dataEnd = 0 ∧
      Driven (.file faltering) 5 refilled ∧ refilled.ended = true ∧ refilled.dataEnd = 15 ∧
      refilled.slice 0 5 = #[0x66, 0x67, 0x68, 0x69, 0x6A] ∧
      ¬ refilled.Holds faltering.contents := by
  intro failed refilled
  have first : Driven (.file faltering) 5 failed := by
    have lost_eq : (Operation.refill 1).lost (opened (.file faltering) 4 4096) = 5 := by
      decide +kernel
    have driven : Driven (.file faltering) _ failed := (Driven.opened 4 4096).operation (.refill 1)
    rwa [lost_eq] at driven
  have second : Driven (.file faltering) 5 refilled := by
    have lost_eq : (Operation.refill 1).lost failed = 0 := by decide +kernel
    have driven := first.operation (.refill 1)
    rwa [lost_eq] at driven
  refine ⟨first, by decide +kernel, by decide +kernel, second, by decide +kernel,
    by decide +kernel, by decide +kernel, fun holds => ?_⟩
  have short : refilled.dataEnd ≠ faltering.contents.size := by decide +kernel
  exact short (holds.dataEnd_of_ended (by decide +kernel))

end Buffer

end WasmText

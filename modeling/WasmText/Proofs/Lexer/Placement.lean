import WasmText.Proofs.Diagnostic.Caret
import WasmText.Proofs.Lexer.Lines
import WasmText.Proofs.Lexer.Within

/-!
# Errors above their markers

An error is reported with the line on which its turn begins, at the columns of the bytes that the
turn takes. So below what a terminal shows of the line, the marker stands under these bytes.
-/

namespace WasmText

namespace Bytes

/-- The text of the line that an offset is on, the end of the line excluded. -/
def lineAt (contents : Bytes) (offset : Nat) : List UInt8 :=
  lineOf (contents.toList.drop (Location.lineStartAfter (contents.toList.take offset)))

/-- The number of bytes before an offset on its line. -/
def columnAt (contents : Bytes) (offset : Nat) : Nat :=
  (Location.onLine (contents.toList.take offset)).length

variable {contents : Bytes} {offset : Nat}

theorem mem_of_mem_lineAt {byte : UInt8} (present : byte ∈ contents.lineAt offset) :
    byte ∈ contents := by
  have begins : contents.lineAt offset <+: _ := lineOf_prefix _
  exact Array.mem_toList_iff.mp (List.mem_of_mem_drop (begins.mem present))

/-- From its column on, the line is what the bytes from the offset on begin with. -/
theorem drop_lineAt (inside : offset ≤ contents.size) :
    (contents.lineAt offset).drop (contents.columnAt offset) <+: contents.toList.drop offset := by
  have column_le := Location.length_onLine_le (contents.toList.take offset)
  have rest_eq : (contents.toList.drop (Location.lineStartAfter (contents.toList.take offset))).drop
      (contents.columnAt offset) = contents.toList.drop offset := by
    rw [List.drop_drop, Location.lineStartAfter, columnAt, Nat.sub_add_cancel column_le,
      List.length_take, Array.length_toList, Nat.min_eq_left inside]
  obtain ⟨more, whole⟩ := lineOf_prefix
    (contents.toList.drop (Location.lineStartAfter (contents.toList.take offset)))
  have dropped := congrArg (List.drop (contents.columnAt offset)) whole
  rw [List.drop_append, rest_eq] at dropped
  exact ⟨_, dropped⟩

/-- A span is on the line as far as the line goes. -/
theorem take_lineAt {span : List UInt8} (inside : offset ≤ contents.size)
    (begins : span <+: contents.toList.drop offset) :
    span.take ((contents.lineAt offset).length - contents.columnAt offset) =
      ((contents.lineAt offset).drop (contents.columnAt offset)).take span.length := by
  have line_begins := drop_lineAt inside
  have line_eq := List.prefix_iff_eq_take.mp line_begins
  have span_eq := List.prefix_iff_eq_take.mp begins
  rw [line_eq, List.take_take, ← List.length_drop]
  nth_rewrite 1 [span_eq]
  rw [List.take_take, Nat.min_comm]

/-- A line that goes on past an offset has a byte there. -/
theorem lt_size_of_lt_lineAt (inside : offset ≤ contents.size)
    (on_line : contents.columnAt offset < (contents.lineAt offset).length) :
    offset < contents.size := by
  have shorter := (drop_lineAt inside).length_le
  have size_eq : contents.toList.length = contents.size := Array.length_toList
  rw [List.length_drop, List.length_drop] at shorter
  omega

end Bytes

namespace Lexer

variable {contents : Bytes} {buffered begun : Lexer Buffer} {diagnostic : Diagnostic}
  {span : List UInt8}

/-- The turns of a call in which no refill fails are turns of good lexers, and none fails in them. -/
theorem Skips.turning (skips : Skips buffered begun) (running : begun.finished = false)
    (sound : buffered.Sound contents) (tidy : (buffered.place contents).Tidy) {steps : Nat}
    (enough : (buffered.place contents).tape.ahead.length < steps)
    (flowing : (Scan.lexemeWithin steps buffered).2.tape.stalled = false) :
    begun.Sound contents ∧ (begun.place contents).Tidy ∧
      begun.lineWidth = buffered.lineWidth ∧ (Scan.turn begun).2.tape.stalled = false := by
  induction skips generalizing steps with
  | refl =>
      obtain ⟨steps, rfl⟩ := Nat.exists_eq_succ_of_ne_zero (Nat.ne_zero_of_lt enough)
      exact ⟨sound, tidy, rfl, (Scan.flowing_of_lexemeWithin sound running flowing).1⟩
  | @turn lexer _ turn_running skips _ induction =>
      obtain ⟨steps, rfl⟩ := Nat.exists_eq_succ_of_ne_zero (Nat.ne_zero_of_lt enough)
      obtain ⟨turn_flowing, rest_flowing⟩ :=
        Scan.flowing_of_lexemeWithin sound turn_running flowing
      obtain ⟨lexeme_eq, place_eq⟩ := sound.turn tidy turn_flowing
      have shorter := length_ahead_take_lt (goes_on_of_skips (lexeme_eq.symm.trans skips))
      have width_eq : (Scan.turn lexer).2.lineWidth = lexer.lineWidth :=
        congrArg (fun lexer => lexer.lineWidth) place_eq
      rw [← place_eq] at shorter
      obtain ⟨begun_sound, begun_tidy, same_width, begun_flowing⟩ :=
        induction running (Scan.tracks_turn lexer sound).sound (place_eq ▸ tidy.take) (by omega)
          (rest_flowing skips)
      exact ⟨begun_sound, begun_tidy, same_width.trans width_eq, begun_flowing⟩

/-- A turn gets further unless it begins at the end. -/
theorem Sound.cursor_lt_turn (sound : begun.Sound contents) (tidy : (begun.place contents).Tidy)
    (flowing : (Scan.turn begun).2.tape.stalled = false)
    (before_end : begun.tape.cursor < contents.size) :
    begun.tape.cursor < (Scan.turn begun).2.tape.cursor := by
  obtain ⟨rest, ahead_eq, fits⟩ := (begun.place contents).exists_rest
  have cursor_eq : (Scan.turn begun).2.tape.cursor =
      begun.tape.cursor + (begun.place contents).piece.taken.length :=
    congrArg (fun lexer => lexer.tape.offset) (sound.turn tidy flowing).2
  have ahead_length : (begun.place contents).tape.ahead.length =
      contents.size - begun.tape.cursor := Cursor.length_ahead _
  -- Nothing is taken only where the input ends, and then nothing is left.
  have taken_nonempty : (begun.place contents).piece.taken ≠ [] := by
    intro none_taken
    cases ends : (begun.place contents).piece.ends with
    | false => exact fits.nonempty ends none_taken
    | true =>
        rw [ahead_eq, none_taken, (fits.of_ends ends).2.1, List.append_nil, List.length_nil]
          at ahead_length
        omega
  have taken_positive := List.length_pos_iff.mpr taken_nonempty
  omega

/-- What is reported by a turn is reported with the line on which the turn begins. -/
theorem Sound.sourceLine_eq (sound : begun.Sound contents) (tidy : (begun.place contents).Tidy)
    (flowing : (Scan.turn begun).2.tape.stalled = false) (limited : begun.lineWidth ≠ 0)
    (reports : (Scan.turn begun).2.reported = begun.reported.push diagnostic) :
    diagnostic.sourceLine = some (SourceLine.ofLine (contents.lineAt begun.tape.cursor)
      diagnostic.location.firstColumn diagnostic.location.lastColumn begun.lineWidth) := by
  have reported_eq : (Scan.turn begun).2.reported.toList = _ :=
    (congrArg (fun lexer => lexer.reported.toList) (sound.turn tidy flowing).2).trans
      (reported_take _)
  rw [reports, Array.toList_push] at reported_eq
  have own : [diagnostic] = _ := List.append_cancel_left reported_eq
  cases found : (begun.place contents).piece.error with
  | none =>
      rw [found] at own
      cases own
  | some error =>
      rw [found] at own
      cases own
      have shown : lineShown contents (begun.place contents).anchor begun.lineWidth
          ((begun.place contents).begun.location begun.tape.cursor
            (begun.tape.cursor + (begun.place contents).piece.taken.length)) = _ :=
        lineShown_own begun.lineWidth rfl tidy.anchored
      have lineOffset_eq : (begun.place contents).anchor.offset =
          Location.lineStartAfter (contents.toList.take begun.tape.cursor) := tidy.lineOffset_eq
      rw [if_neg limited, lineOffset_eq] at shown
      exact shown

/-- A turn that gets further takes the byte at which it begins. -/
theorem Blames.head_eq {before : Lexer Buffer}
    (blames : Blames contents before diagnostic begun span)
    (further : begun.tape.cursor < (Scan.turn begun).2.tape.cursor) :
    span.head? = contents[begun.tape.cursor]? := by
  rw [blames.span_eq, List.head?_eq_getElem?, Array.getElem?_toList, Array.getElem?_extract,
    Nat.add_zero]
  split
  · rfl
  · rw [Array.getElem?_eq_none (by omega)]

/-- An error is reported with its line, below which its marker stands in its place. -/
theorem Blames.places {before : Lexer Buffer}
    (blames : Blames contents before diagnostic begun span) (sound : begun.Sound contents)
    (tidy : (begun.place contents).Tidy) (flowing : (Scan.turn begun).2.tape.stalled = false)
    (ascii : ∀ byte ∈ contents, byte < 0x80) (limited : 0 < begun.lineWidth) :
    let line := contents.lineAt begun.tape.cursor
    let column := contents.columnAt begun.tape.cursor
    (column < line.length → span.head? = contents[begun.tape.cursor]?) ∧
      ∃ shown, diagnostic.sourceLine = some shown ∧
        (line.length ≤ begun.lineWidth ∨ span.length + 6 ≤ begun.lineWidth →
          Terminal.Places line column span shown
            (Terminal.markerIndent diagnostic.location shown)
            (Terminal.markerWidth diagnostic.location shown)) := by
  intro line column
  have inside : begun.tape.cursor ≤ contents.size := tidy.offset_le
  have before_end (on_line : column < line.length) : begun.tape.cursor < contents.size :=
    Bytes.lt_size_of_lt_lineAt inside on_line
  have head_eq (on_line : column < line.length) : span.head? = contents[begun.tape.cursor]? :=
    blames.head_eq (sound.cursor_lt_turn tidy flowing (before_end on_line))
  have begins : span <+: contents.toList.drop begun.tape.cursor := by
    rw [blames.span_eq, Array.toList_extract, List.extract_eq_take_drop]
    exact List.take_prefix _ _
  refine ⟨head_eq, _, sound.sourceLine_eq tidy flowing (Nat.ne_of_gt limited) blames.reports,
    fun room => ?_⟩
  refine Terminal.places_marker (fun byte present => ascii byte (Bytes.mem_of_mem_lineAt present))
    limited room (Bytes.take_lineAt inside begins) ?_ ?_ ?_ rfl
  · -- A turn that takes nothing is at the end of the input, and no line goes on there.
    rintro on_line rfl
    exact absurd (head_eq on_line).symm (by simp [before_end on_line])
  · rw [blames.location_eq]
    rfl
  · rw [blames.location_eq]
    rfl

/-- The turns that report the errors of a call in which no refill fails. -/
theorem Sound.blames_next (sound : buffered.Sound contents) (tidy : (buffered.place contents).Tidy)
    (silent : buffered.reported = #[]) (small : contents.size < maximalColumn)
    (flowing : buffered.next.2.tape.stalled = false) :
    ∀ diagnostic ∈ buffered.next.1.diagnostics, ∃ begun span,
      Blames contents buffered diagnostic begun span ∧ begun.Sound contents ∧
        (begun.place contents).Tidy ∧ begun.lineWidth = buffered.lineWidth ∧
        (Scan.turn begun).2.tape.stalled = false := by
  obtain ⟨before_flowing, next_agrees⟩ := sound.next.agrees flowing
  obtain ⟨errors, lexeme, after, finds, next_eq⟩ := exists_finds tidy
  have reading_eq : buffered.next.1 = (handOut lexeme after).1 :=
    (Prod.mk.inj (next_agrees.symm.trans next_eq)).1
  have enough : (buffered.place contents).tape.ahead.length <
      Tape.remaining buffered.tape + 1 := by
    rw [Cursor.length_ahead]
    exact Nat.lt_succ_of_le (Nat.le_of_eq (sound.shows.remaining_eq before_flowing).symm)
  intro diagnostic present
  rw [reading_eq] at present
  rcases finds.blames tidy small sound rfl enough flowing diagnostic
    (Array.mem_toList_iff.mpr present) with earlier | ⟨begun, span, blames⟩
  · rw [silent] at earlier
    cases earlier
  · exact ⟨begun, span, blames,
      blames.skips.turning blames.running sound tidy enough flowing⟩

theorem lineWidth_after_plain (filename : String) (lineWidth : Nat) (contents : Bytes)
    (calls : Nat) : ((plain filename lineWidth contents).after calls).lineWidth = lineWidth := by
  induction calls with
  | zero => rfl
  | succ calls induction =>
      obtain ⟨tidy, -⟩ := after_plain filename lineWidth contents calls
      obtain ⟨errors, lexeme, after, finds, next_eq⟩ := exists_finds tidy
      rw [Lexer.after, next_eq]
      exact finds.lineWidth_eq.trans induction

/-- Markers stand under the errors that they are about. Each error that a lexer reports, none of
whose refills has failed, over ASCII bytes to a terminal without colours has a source line. Below
what is shown of it, unless that is empty, the marker is drawn at the bytes that the turn of the
error takes, if the whole line or these bytes with six others fit into the width: the caret under
the first of them, and no further than they go on the line, or as one caret behind the text if they
are behind the line. -/
theorem markers_in_place {contents : Bytes} {source : Source} (opens : source.Opens contents)
    (ascii : ∀ byte ∈ contents, byte < 0x80) (small : contents.size < maximalColumn)
    {terminal : Terminal} (uncolored : terminal.colored = false)
    (limited : 0 < terminal.style.lineWidth) (filename : String) (size bound calls : Nat)
    (flowing : ((opened filename terminal.style.lineWidth source size bound).after
      (calls + 1)).tape.stalled = false) :
    let lexer := opened filename terminal.style.lineWidth source size bound
    ∀ diagnostic ∈ (lexer.reading calls).diagnostics,
      ∃ begun span shown, Blames contents (lexer.after calls) diagnostic begun span ∧
        diagnostic.sourceLine = some shown ∧
        let line := contents.lineAt begun.tape.cursor
        let column := contents.columnAt begun.tape.cursor
        shown.text ≠ "" →
        line.length ≤ terminal.style.lineWidth ∨ span.length + 6 ≤ terminal.style.lineWidth →
          ∃ indent width, terminal.Draws diagnostic shown indent width ∧
            Terminal.Places line column span shown indent width ∧
            (column < line.length → shown.text.toList[indent]? =
              contents[begun.tape.cursor]?.map fun byte => Char.ofNat byte.toNat) := by
  intro lexer diagnostic present
  obtain ⟨before_sound, before_agrees⟩ := (sound_opened opens filename
    terminal.style.lineWidth size bound).after calls
  obtain ⟨before_flowing, -⟩ := before_sound.next.agrees flowing
  have place_eq : (plain filename terminal.style.lineWidth contents).after calls =
      (lexer.after calls).place contents := (Prod.mk.inj (before_agrees before_flowing).2).2
  obtain ⟨tidy, -, -, silent⟩ := after_plain filename terminal.style.lineWidth contents calls
  have same_width := lineWidth_after_plain filename terminal.style.lineWidth contents calls
  rw [place_eq] at tidy silent same_width
  obtain ⟨begun, span, blames, begun_sound, begun_tidy, width_eq, turn_flowing⟩ :=
    before_sound.blames_next tidy silent small flowing diagnostic present
  rw [← width_eq.trans same_width] at limited ⊢
  obtain ⟨head_eq, shown, found, places⟩ :=
    blames.places begun_sound begun_tidy turn_flowing ascii limited
  refine ⟨begun, span, shown, blames, found, fun nonempty room => ?_⟩
  refine ⟨_, _, Terminal.draws_of_plain uncolored found nonempty, places room, fun on_line => ?_⟩
  rw [(places room).caret on_line, head_eq on_line]

/-- An unknown keyword behind eight bytes of a line of seventeen, of which fourteen are shown. -/
theorem markers_in_place_clipped :
    let contents : Bytes := "  (func i32.addd)".toUTF8.data
    let lexer := opened "a.wast" 14 (.ofBytes contents) 1 4096
    let shown : SourceLine := ⟨"...c i32.addd)", 3⟩
    let diagnostic : Diagnostic :=
      ⟨⟨"a.wast", 1, 9, 17⟩, "unexpected token \"i32.addd\"", some shown⟩
    diagnostic ∈ (lexer.reading 2).diagnostics ∧
      ∃ begun span indent width, Blames contents (lexer.after 2) diagnostic begun span ∧
        (Terminal.ofStyle { lineWidth := 14 } false).Draws diagnostic shown indent width ∧
        Terminal.Places (contents.lineAt begun.tape.cursor) 8 span shown indent width := by
  intro contents lexer shown diagnostic
  have uncolored : (Terminal.ofStyle { lineWidth := 14 } false).colored = false := rfl
  have present : diagnostic ∈ (lexer.reading 2).diagnostics := by decide +kernel
  refine ⟨present, ?_⟩
  obtain ⟨begun, span, _, blames, found, placed⟩ :=
    markers_in_place (Source.opens_ofBytes contents) (by decide +kernel) (by decide +kernel)
      uncolored (by decide) "a.wast" 1 4096 2 (by decide +kernel) diagnostic present
  cases found
  have first_eq : 9 = contents.columnAt begun.tape.cursor + 1 :=
    congrArg Location.firstColumn blames.location_eq
  have last_eq : 17 = contents.columnAt begun.tape.cursor + span.length + 1 :=
    congrArg Location.lastColumn blames.location_eq
  have length_eq : span.length = 8 := by omega
  have column_eq : contents.columnAt begun.tape.cursor = 8 := by omega
  obtain ⟨indent, width, draws, places, -⟩ := placed (by decide) (.inr (by rw [length_eq]; decide))
  exact ⟨begun, span, indent, width, blames, draws, column_eq ▸ places⟩

end Lexer

end WasmText

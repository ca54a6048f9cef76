import WasmText.Diagnostic.Terminal
import WasmText.Proofs.Diagnostic.Clipping

/-!
# Markers below a line

The marker of a location is drawn below what is shown of its line. For an ASCII line it stands under
the bytes of the line that the columns cover: the window leaves room for the dots on both sides of
columns that it is wider than by six. For columns behind the line it is one caret behind the text.
-/

namespace WasmText

/-- A window that the columns and the dots on both sides fit into, or the whole line, cuts nothing
within three bytes of the columns. -/
theorem LineWindow.around_spares {length count width : Nat} (limited : 0 < width)
    (room : length ≤ width ∨ count + 6 ≤ width) (before : Nat) :
    let window := around 0 length (before + 1) (before + count + 1) width
    (0 < window.first → window.first + 3 ≤ before) ∧
      (window.last < length → before + count + 3 ≤ window.last) := by
  have no_width : ¬ width = 0 := Nat.ne_of_gt limited
  by_cases whole : length ≤ width
  · rw [around, if_pos (by simp only [Nat.sub_zero, whole, decide_true, Bool.or_true])]
    exact ⟨fun cut => absurd cut (Nat.lt_irrefl 0), fun cut => absurd cut (Nat.lt_irrefl length)⟩
  · -- The window is centred on the columns, unless the line ends before half of it.
    have narrow := room.resolve_left whole
    have fits : ¬ width < before + count + 1 - (before + 1) := by omega
    rw [around, if_neg (by simp [no_width, whole]), center, if_neg fits]
    dsimp only
    omega

namespace SourceLine

/-- What is shown of an ASCII line through a window. -/
structure Shows (line : List UInt8) (window : LineWindow) (shown : SourceLine) : Prop where
  /-- The window ends on the line. -/
  last_le : window.last ≤ line.length
  /-- What is before it is left out. -/
  columnOffset_eq : shown.columnOffset = window.first
  /-- Every byte is shown as one character. -/
  length_eq : shown.text.length = window.last - window.first
  /-- Away from the dots that character is the byte's. -/
  getElem?_eq : ∀ index, (0 < window.first → 3 ≤ index) →
    (window.last < line.length → window.first + index + 3 < window.last) →
    window.first + index < window.last →
    shown.text.toList[index]? =
      (line.drop window.first)[index]?.map fun byte => Char.ofNat byte.toNat

variable {line : List UInt8} {window : LineWindow} {shown : SourceLine}

/-- A stretch of the line away from the dots is shown as it is. -/
theorem Shows.stretch (shows : shown.Shows line window) {column count : Nat}
    (begins : window.first ≤ column) (ends : column + count ≤ window.last)
    (clear_of_front : 0 < window.first → window.first + 3 ≤ column)
    (clear_of_back : window.last < line.length → column + count + 3 ≤ window.last) :
    (shown.text.toList.drop (column - window.first)).take count =
      ((line.drop column).take count).map fun byte => Char.ofNat byte.toNat := by
  refine List.ext_getElem? fun index => ?_
  rcases Nat.lt_or_ge index count with inside | outside
  · have place_eq : window.first + (column - window.first + index) = column + index := by omega
    rw [List.getElem?_take_of_lt inside, List.getElem?_drop,
      shows.getElem?_eq _ (by omega) (by omega) (by omega), List.getElem?_drop, place_eq,
      List.getElem?_map, List.getElem?_take_of_lt inside, List.getElem?_drop]
  · rw [List.getElem?_take_eq_none outside, List.getElem?_map,
      List.getElem?_take_eq_none outside, Option.map_none]

theorem shows_clip (ascii : ∀ byte ∈ line, byte < 0x80) (last_le : window.last ≤ line.length) :
    Shows line window
      { text := (clip 0 line.length window (line.toArray.extract window.first window.last)).toText
        columnOffset := window.first } := by
  have size_eq : (line.toArray.extract window.first window.last).size =
      window.last - window.first := by
    rw [Array.size_extract, List.size_toArray, Nat.min_eq_left last_le]
  have kept_ascii : ∀ byte ∈ line.toArray.extract window.first window.last, byte < 0x80 :=
    fun byte present => ascii byte (List.mem_toArray.mp (Bytes.mem_of_mem_extract present))
  generalize bytes_eq : line.toArray.extract window.first window.last = bytes
    at size_eq kept_ascii ⊢
  have clip_ascii : ∀ byte ∈ (clip 0 line.length window bytes).toList, byte < 0x80 := by
    intro byte present
    rcases mem_clip (Array.mem_toList_iff.mp present) with rfl | kept
    · decide
    · exact kept_ascii byte kept
  have text_eq := Bytes.toList_toText clip_ascii
  refine ⟨last_le, rfl, ?_, fun index behind before inside => ?_⟩
  · rw [← String.length_toList, text_eq, List.length_map, Array.length_toList, size_clip, size_eq]
  · have clear_of_back (cut : window.last < line.length) : index + 3 < bytes.size := by
      have clear := before cut
      omega
    rw [text_eq, List.getElem?_map, Array.getElem?_toList, getElem?_clip behind clear_of_back,
      ← bytes_eq, Array.getElem?_extract, List.size_toArray, Nat.min_eq_left last_le,
      if_pos (by omega), List.getElem?_toArray, List.getElem?_drop]

theorem shows_ofLine (ascii : ∀ byte ∈ line, byte < 0x80) (firstColumn lastColumn width : Nat) :
    Shows line (LineWindow.around 0 line.length firstColumn lastColumn width)
      (ofLine line firstColumn lastColumn width) :=
  shows_clip ascii
    (LineWindow.around_inside (Nat.zero_le line.length) firstColumn lastColumn width).2

end SourceLine

namespace Terminal

/-- For a diagnostic a terminal writes its message, what is shown of its line, and on the line below
a marker of so many columns behind so many blanks. -/
def Draws (terminal : Terminal) (diagnostic : Diagnostic) (shown : SourceLine)
    (indent width : Nat) : Prop :=
  terminal.text diagnostic = terminal.headerText ++ headline terminal.colored diagnostic ++
    (shown.text ++ "\n" ++ "".pushn ' ' indent ++ marker width ++ "\n")

/-- A marker stands in the right place for a span of bytes that begins at a column of its line, the
columns counted from zero. -/
inductive Places (line : List UInt8) (column : Nat) (span : List UInt8) (shown : SourceLine)
    (indent width : Nat) : Prop
  /-- A span that begins on the line is marked as far as it is on the line, from its first byte
  on, and its bytes stand above the marker. -/
  | below (on_line : column < line.length) (column_eq : shown.columnOffset + indent = column)
      (width_eq : width = (span.take (line.length - column)).length) (drawn : 0 < width)
      (above_eq : (shown.text.toList.drop indent).take width =
        (span.take (line.length - column)).map fun byte => Char.ofNat byte.toNat)
  /-- A span behind the line is marked by a caret behind the text. -/
  | behind (past : line.length ≤ column) (indent_eq : indent = shown.text.length)
      (width_eq : width = 1)

variable {line span : List UInt8} {window : LineWindow} {column width indent : Nat}
  {location : Location} {shown : SourceLine} {terminal : Terminal} {diagnostic : Diagnostic}

/-- The first byte of the span stands above the caret. -/
theorem Places.caret (places : Places line column span shown indent width)
    (on_line : column < line.length) :
    shown.text.toList[indent]? = span.head?.map fun byte => Char.ofNat byte.toNat := by
  cases places with
  | behind past => omega
  | below _ _ width_eq drawn above_eq =>
      have first_eq := congrArg (fun characters : List Char => characters[0]?) above_eq
      simpa only [List.getElem?_take_of_lt drawn, List.getElem?_map, List.head?_eq_getElem?,
        List.getElem?_take_of_lt (Nat.sub_pos_of_lt on_line), List.getElem?_drop,
        Nat.add_zero] using first_eq

theorem draws_of_plain (plain : terminal.colored = false)
    (found : diagnostic.sourceLine = some shown) (nonempty : shown.text ≠ "") :
    terminal.Draws diagnostic shown (markerIndent diagnostic.location shown)
      (markerWidth diagnostic.location shown) := by
  have written : sourceText false diagnostic.location shown = shown.text ++ "\n" ++
      "".pushn ' ' (markerIndent diagnostic.location shown) ++
      marker (markerWidth diagnostic.location shown) ++ "\n" := by
    rw [sourceText, if_neg (by simpa using nonempty)]
    rfl
  rw [Draws, text, found, plain, Option.elim_some, written]

-- The marker moves left by the three bytes that are left out.
example : (ofStyle { lineWidth := 14 } false).text
    ⟨⟨"a.wast", 1, 9, 17⟩, "unexpected token \"i32.addd\"", some ⟨"...c i32.addd)", 3⟩⟩ =
    "a.wast:1:9: error: unexpected token \"i32.addd\"\n...c i32.addd)\n     ^~~~~~~~\n" := by
  decide

/-- The marker stands in its place if nothing is cut near the columns. -/
theorem places_of_shows (shows : shown.Shows line window)
    (clear_of_front : 0 < window.first → window.first + 3 ≤ column)
    (clear_of_back : window.last < line.length → column + span.length + 3 ≤ window.last)
    (along : span.take (line.length - column) = (line.drop column).take span.length)
    (covers : column < line.length → span ≠ []) (first_eq : location.firstColumn = column + 1)
    (width_eq : location.width = span.length) :
    Places line column span shown (markerIndent location shown) (markerWidth location shown) := by
  have last_le := shows.last_le
  unfold markerWidth markerIndent
  rw [first_eq, shows.columnOffset_eq, shows.length_eq, width_eq, Nat.add_sub_cancel]
  rcases Nat.lt_or_ge column line.length with on_line | past
  · have positive := List.length_pos_iff.mpr (covers on_line)
    have before_last : column < window.last := by omega
    have indent_eq : min (column - window.first) (window.last - window.first) =
      column - window.first := by omega
    have marked_length : (span.take (line.length - column)).length =
      min (line.length - column) span.length := List.length_take
    have marked_begins : span.take (line.length - column) <+: line.drop column :=
      along ▸ List.take_prefix _ _
    have marked_eq := List.prefix_iff_eq_take.mp marked_begins
    have width_eq : max (min span.length (window.last - window.first - (column - window.first))) 1 =
        (span.take (line.length - column)).length := by
      omega
    rw [indent_eq, width_eq]
    refine .below on_line ?_ rfl (by omega) ?_
    · rw [shows.columnOffset_eq]
      omega
    · nth_rewrite 2 [marked_eq]
      exact shows.stretch (by omega) (by omega) clear_of_front (by omega)
  · exact .behind past (by rw [shows.length_eq]; omega) (by omega)

/-- The marker below what is shown of a line stands in its place. -/
theorem places_marker (ascii : ∀ byte ∈ line, byte < 0x80) (limited : 0 < width)
    (room : line.length ≤ width ∨ span.length + 6 ≤ width)
    (along : span.take (line.length - column) = (line.drop column).take span.length)
    (covers : column < line.length → span ≠ []) (first_eq : location.firstColumn = column + 1)
    (last_eq : location.lastColumn = column + span.length + 1)
    (shown_eq : shown = SourceLine.ofLine line location.firstColumn location.lastColumn width) :
    Places line column span shown (markerIndent location shown) (markerWidth location shown) := by
  have shows := SourceLine.shows_ofLine ascii location.firstColumn location.lastColumn width
  obtain ⟨front, back⟩ := LineWindow.around_spares limited room column
  rw [← shown_eq, first_eq, last_eq] at shows
  refine places_of_shows shows front back along covers first_eq ?_
  rw [Location.width, first_eq, last_eq]
  omega

end Terminal

end WasmText

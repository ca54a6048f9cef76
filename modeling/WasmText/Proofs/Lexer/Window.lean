import WasmText.Proofs.Diagnostic.Clipping
import WasmText.Proofs.Lexer.Anchor

/-!
# Windows onto long lines

A line that is wider than asked for is seen through a window of just that width. The window lies on
the line, and around the columns of the location if they fit into it; dots take the place of three
bytes at each end at which the line goes on, and leave alone the columns that have six bytes to
spare.
-/

namespace WasmText

namespace LineWindow

/-- A window of some width onto a longer line, for the columns from `first` up to `last`, counted
from zero. -/
structure Frames (length width first last : Nat) (window : LineWindow) : Prop where
  /-- The window is as wide as it may be. -/
  last_eq : window.last = window.first + width
  /-- It ends on the line. -/
  last_le : window.last ≤ length
  /-- Columns that fit are seen as far as they are on the line. -/
  fits : last - first ≤ width → first < min last length →
    window.first ≤ first ∧ min last length ≤ window.last
  /-- Of others the first is seen. -/
  begins : width < last - first → first < length →
    window.first ≤ first ∧ first < window.last
  /-- With six bytes to spare there are three on each side that is cut. -/
  spares : last - first + 6 ≤ width → first < min last length →
    (0 < window.first → window.first + 3 ≤ first) ∧
      (window.last < length → min last length + 3 ≤ window.last)

theorem frames_around {length width first last : Nat} (limited : 0 < width)
    (longer : width < length) (ordered : first ≤ last) :
    Frames length width first last (around 0 length (first + 1) (last + 1) width) := by
  have cut : ¬ (width = 0 || length - 0 ≤ width) = true := by
    simp only [Bool.or_eq_true, decide_eq_true_eq]
    omega
  rw [around, if_neg cut, center]
  -- The window is centred on the columns if they fit, and on the first of them if they do not.
  by_cases wide : width < last + 1 - (first + 1)
  · rw [if_pos wide]
    constructor <;> dsimp only <;> omega
  · rw [if_neg wide]
    constructor <;> dsimp only <;> omega

end LineWindow

namespace SourceLine

variable {bytes : Bytes} {index : Nat}

/-! ### Where dots stand -/

/-- Dots stand at the first three indices of a window at an offset of a line, if the offset is not
the line's start, and at the last three, if the line goes on behind the window. A narrower window
has as many as it has room for. -/
def IsDotted (length width offset index : Nat) : Prop :=
  0 < offset ∧ index < min 3 width ∨ offset + width < length ∧ width - min 3 width ≤ index

instance (length width offset index : Nat) : Decidable (IsDotted length width offset index) :=
  inferInstanceAs (Decidable (_ ∨ _))

theorem getElem?_dotFront_of_lt (inside : index < min 3 bytes.size) :
    (dotFront bytes)[index]? = some Ascii.dot := by
  have in_dots : index < (dots bytes.size).size := by
    rw [dots, Array.size_replicate]
    omega
  rw [dotFront, Array.getElem?_append_left in_dots, dots, Array.getElem?_replicate,
    if_pos (by omega)]

theorem getElem?_dotBack_of_le (behind : bytes.size - min 3 bytes.size ≤ index)
    (inside : index < bytes.size) : (dotBack bytes)[index]? = some Ascii.dot := by
  have kept_size : (bytes.extract 0 (bytes.size - 3)).size = bytes.size - 3 := by
    rw [Array.size_extract]
    omega
  rw [dotBack, Array.getElem?_append_right (by omega), dots, Array.getElem?_replicate,
    if_pos (by omega)]

/-- What is shown at each index of a window. -/
theorem getElem?_clip_eq {length : Nat} {window : LineWindow}
    (size_eq : bytes.size = window.last - window.first) (ordered : window.first ≤ window.last)
    (inside : index < bytes.size) :
    (clip 0 length window bytes)[index]? =
      if IsDotted length bytes.size window.first index then some Ascii.dot else bytes[index]? := by
  have last_eq : window.last = window.first + bytes.size := by omega
  split
  · rename_i dotted
    -- Dots at the back are written last, and only where they are not does the front show.
    by_cases back : window.last < length ∧ bytes.size - min 3 bytes.size ≤ index
    · rw [clip, if_pos back.1]
      split
      · exact getElem?_dotBack_of_le (by rw [size_dotFront]; exact back.2)
          (by rwa [size_dotFront])
      · exact getElem?_dotBack_of_le back.2 inside
    · obtain ⟨cut, in_front⟩ := dotted.resolve_right (last_eq ▸ back)
      rw [clip, if_pos cut]
      split
      · rw [getElem?_dotBack (by rw [size_dotFront]; omega)]
        exact getElem?_dotFront_of_lt in_front
      · exact getElem?_dotFront_of_lt in_front
  · rename_i clear
    rw [IsDotted, not_or, not_and, not_and, ← last_eq] at clear
    exact getElem?_clip (fun cut => by have := clear.1 cut; omega)
      (fun goes_on => by have := clear.2 goes_on; omega)

/-! ### What is shown -/

/-- What is shown of a line that is longer than the width, for the columns from `first` up to
`last`, counted from zero. The text is the one of the raw bytes. -/
structure Windowed (line : List UInt8) (first last width : Nat) (shown : SourceLine)
    (raw : Bytes) : Prop where
  /-- The text comes from the raw bytes. -/
  text_eq : shown.text = raw.toText
  /-- There are as many as the width allows. -/
  size_eq : raw.size = width
  /-- The window lies on the line. -/
  inside : shown.columnOffset + width ≤ line.length
  /-- Each of them is the line's, or a dot. -/
  getElem?_eq : ∀ index < width, raw[index]? =
    if IsDotted line.length width shown.columnOffset index then some Ascii.dot
    else (line.drop shown.columnOffset)[index]?
  /-- Columns that fit into the window are in it, as far as they are on the line. -/
  fits : last - first ≤ width → ∀ column, first ≤ column → column < min last line.length →
    shown.columnOffset ≤ column ∧ column < shown.columnOffset + width
  /-- Of others the first is. -/
  begins : width < last - first → first < line.length →
    shown.columnOffset ≤ first ∧ first < shown.columnOffset + width
  /-- Dots leave columns alone that have six bytes to spare. -/
  spares : last - first + 6 ≤ width → ∀ column, first ≤ column → column < min last line.length →
    ¬ IsDotted line.length width shown.columnOffset (column - shown.columnOffset)

theorem windowed_of_frames {line : List UInt8} {first last width : Nat} {window : LineWindow}
    (frames : window.Frames line.length width first last) :
    Windowed line first last width
      { text := (clip 0 line.length window (line.toArray.extract window.first window.last)).toText
        columnOffset := window.first }
      (clip 0 line.length window (line.toArray.extract window.first window.last)) := by
  have last_eq := frames.last_eq
  have last_le := frames.last_le
  have size_eq : (line.toArray.extract window.first window.last).size = width := by
    rw [Array.size_extract, List.size_toArray]
    omega
  refine ⟨rfl, by rw [size_clip, size_eq], by dsimp only; omega, fun index inside => ?_,
    fun fits column behind before => ?_, fun wide on_line => ?_,
    fun spare column behind before => ?_⟩
  · have byte_eq : (line.toArray.extract window.first window.last)[index]? =
        (line.drop window.first)[index]? := by
      rw [Array.getElem?_extract, List.size_toArray, if_pos (by omega), List.getElem?_toArray,
        List.getElem?_drop]
    rw [getElem?_clip_eq (by omega) (by omega) (by omega), size_eq, byte_eq]
  · have seen := frames.fits fits (by omega)
    dsimp only
    omega
  · have seen := frames.begins wide on_line
    dsimp only
    omega
  · have clear := frames.spares spare (by omega)
    have seen := frames.fits (by omega) (by omega)
    rw [IsDotted]
    dsimp only
    omega

theorem windowed_ofLine {line : List UInt8} {first last width : Nat} (limited : 0 < width)
    (longer : width < line.length) (ordered : first ≤ last) :
    ∃ raw, Windowed line first last width (ofLine line (first + 1) (last + 1) width) raw :=
  ⟨_, windowed_of_frames (LineWindow.frames_around limited longer ordered)⟩

-- Three dots on either side leave one byte of seven.
example : ofLine "0123456789abcdef".toUTF8.data.toList 8 9 7 =
    { text := "...7...", columnOffset := 4 } := by
  decide +kernel

/-- Of a line that is not longer than the width all is shown. -/
theorem ofLine_of_length_le {line : List UInt8} {firstColumn lastColumn width : Nat}
    (short : line.length ≤ width ∨ width = 0) :
    ofLine line firstColumn lastColumn width =
      { text := Bytes.toText line.toArray, columnOffset := 0 } := by
  have whole : (width = 0 || line.length - 0 ≤ width) = true := by
    simp only [Bool.or_eq_true, decide_eq_true_eq]
    omega
  rw [ofLine, LineWindow.around, if_pos whole, clip, if_neg (Nat.lt_irrefl _),
    if_neg (Nat.lt_irrefl _), ← List.size_toArray, Array.extract_size]

/-- A line that has a number is cut down to the width, whichever line the search sets out from. -/
theorem answers_search_of_lineText {contents : Bytes} {anchor : LineAnchor} {line : List UInt8}
    (holds : anchor.Holds contents) {location : Location}
    (found : lineText? contents.toList location.line = some line) (width : Nat) :
    Search.Answers contents (search anchor location width)
      (.ok (ofLine line location.firstColumn location.lastColumn width)) := by
  rcases answers_startOf holds location.line with ⟨start, started, there⟩ | ⟨-, missing⟩
  · obtain rfl := Option.some.inj (there.lineText_eq.symm.trans found)
    exact answers_search_of_startOf width started there.inside
  · cases missing.symm.trans found

end SourceLine

namespace Lexer

variable {contents : Bytes}

/-- A line that is longer than the width is seen through a window that shows what the location is
about, and any other line is shown whole, whatever has been read before. -/
theorem sourceLine_windowed {source : Source} (opens : source.Opens contents) (filename : String)
    (lineWidth size bound calls : Nat) {location : Location} {line : List UInt8}
    (found : lineText? contents.toList location.line = some line)
    (positive : 1 ≤ location.firstColumn) (ordered : location.firstColumn ≤ location.lastColumn)
    (width : Nat) :
    let lexer := (opened filename lineWidth source size bound).after calls
    (0 < width → width < line.length → ∃ shown raw,
        (lexer.sourceLine location width).1 = .ok shown ∧
          SourceLine.Windowed line (location.firstColumn - 1) (location.lastColumn - 1) width
            shown raw) ∧
      (line.length ≤ width ∨ width = 0 →
        (lexer.sourceLine location width).1 =
          .ok { text := Bytes.toText line.toArray, columnOffset := 0 }) := by
  intro lexer
  have sound := ((sound_opened opens filename lineWidth size bound).after calls).sound
  have anchored := (anchored_opened opens filename lineWidth size bound).after calls
  obtain ⟨after, answered, -⟩ :=
    SourceLine.answers_search_of_lineText anchored.holds found width lexer.tape.source sound.serves
  have shown_eq : (lexer.sourceLine location width).1 =
      .ok (SourceLine.ofLine line location.firstColumn location.lastColumn width) :=
    congrArg Prod.fst answered
  rw [shown_eq]
  constructor
  · intro limited longer
    have zero_ordered : location.firstColumn - 1 ≤ location.lastColumn - 1 :=
      Nat.sub_le_sub_right ordered 1
    obtain ⟨raw, windowed⟩ := SourceLine.windowed_ofLine limited longer zero_ordered
    rw [Nat.sub_add_cancel positive, Nat.sub_add_cancel (Nat.le_trans positive ordered)]
      at windowed
    exact ⟨_, raw, rfl, windowed⟩
  · intro short
    rw [SourceLine.ofLine_of_length_le short]

/-- One digit in the middle of a second line of sixteen, seen from behind the last line through
seven bytes. -/
theorem sourceLine_windowed_middle :
    let lexer := (opened "a.wast" 0 (.ofBytes "(a\n0123456789abcdef\n)".toUTF8.data) 1 4096).after 4
    let location : Location := { filename := "a.wast", line := 2, firstColumn := 8, lastColumn := 9 }
    ∃ shown raw, (lexer.sourceLine location 7).1 = .ok shown ∧
      SourceLine.Windowed "0123456789abcdef".toUTF8.data.toList 7 8 7 shown raw :=
  (sourceLine_windowed (Source.opens_ofBytes "(a\n0123456789abcdef\n)".toUTF8.data) "a.wast" 0 1 4096
    4 (by decide) (by decide) (by decide) 7).1 (by decide) (by decide)

end Lexer

end WasmText

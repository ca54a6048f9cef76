import WasmText.Proofs.Bytes.Lossy
import WasmText.Proofs.Source.Line

/-!
# Clipped lines

What is shown of a line has as many bytes as the window it is seen through, no more of them than the
width asked for. They are the bytes of the line, but for dots at the ends at which it goes on.
-/

namespace WasmText

/-- The newline that ends a line is no part of it. -/
theorem newline_not_mem_lineOf (bytes : List UInt8) : Ascii.newline ∉ lineOf bytes := by
  have on_line : Ascii.newline ∉ bytes.takeWhile (· != Ascii.newline) :=
    fun present => absurd (List.all_eq_true.mp List.all_takeWhile _ present) (by decide)
  unfold lineOf
  dsimp only
  split
  · exact fun present => on_line (List.dropLast_subset _ present)
  · exact on_line

/-- A window with a width shows no more bytes than that. -/
theorem LineWindow.around_width {width : Nat} (limited : 0 < width)
    (lineStart lineEnd firstColumn lastColumn : Nat) :
    let window := around lineStart lineEnd firstColumn lastColumn width
    window.last - window.first ≤ width := by
  unfold around
  split
  · rename_i whole
    simp only [Bool.or_eq_true, decide_eq_true_eq] at whole
    dsimp only
    omega
  · dsimp only
    omega

namespace SourceLine

variable {bytes : Bytes} {byte : UInt8} {index lineStart lineEnd : Nat} {window : LineWindow}

/-! ### Dots -/

@[simp] theorem size_dotFront : (dotFront bytes).size = bytes.size := by
  simp only [dotFront, dots, Array.size_append, Array.size_replicate, Array.size_extract]
  omega

@[simp] theorem size_dotBack : (dotBack bytes).size = bytes.size := by
  simp only [dotBack, dots, Array.size_append, Array.size_replicate, Array.size_extract]
  omega

theorem mem_dotFront (present : byte ∈ dotFront bytes) : byte = Ascii.dot ∨ byte ∈ bytes := by
  rcases Array.mem_append.mp present with dot | kept
  · exact .inl (Array.mem_replicate.mp dot).2
  · exact .inr (Bytes.mem_of_mem_extract kept)

theorem mem_dotBack (present : byte ∈ dotBack bytes) : byte = Ascii.dot ∨ byte ∈ bytes := by
  rcases Array.mem_append.mp present with kept | dot
  · exact .inr (Bytes.mem_of_mem_extract kept)
  · exact .inl (Array.mem_replicate.mp dot).2

/-- Behind the dots at the front everything stays. -/
theorem getElem?_dotFront (behind : 3 ≤ index) : (dotFront bytes)[index]? = bytes[index]? := by
  unfold dotFront dots
  rw [Array.getElem?_append_right (by rw [Array.size_replicate]; omega), Array.size_replicate,
    Array.getElem?_extract]
  split
  · congr 1
    omega
  · rw [Array.getElem?_eq_none (by omega)]

/-- Before the dots at the back everything stays. -/
theorem getElem?_dotBack (before : index + 3 < bytes.size) :
    (dotBack bytes)[index]? = bytes[index]? := by
  unfold dotBack
  rw [Array.getElem?_append_left (by rw [Array.size_extract]; omega), Array.getElem?_extract,
    if_pos (by omega), Nat.zero_add]

/-! ### Clipping -/

@[simp] theorem size_clip : (clip lineStart lineEnd window bytes).size = bytes.size := by
  unfold clip
  dsimp only
  split <;> split <;> simp only [size_dotFront, size_dotBack]

theorem mem_clip (present : byte ∈ clip lineStart lineEnd window bytes) :
    byte = Ascii.dot ∨ byte ∈ bytes := by
  unfold clip at present
  dsimp only at present
  split at present
  · rcases mem_dotBack present with dot | kept
    · exact .inl dot
    · split at kept
      · exact mem_dotFront kept
      · exact .inr kept
  · split at present
    · exact mem_dotFront present
    · exact .inr present

/-- What is shown is what the window shows, but for three bytes at an end at which the line goes
on. -/
theorem getElem?_clip (behind : lineStart < window.first → 3 ≤ index)
    (before : window.last < lineEnd → index + 3 < bytes.size) :
    (clip lineStart lineEnd window bytes)[index]? = bytes[index]? := by
  unfold clip
  dsimp only
  split
  · rename_i goes_on
    rw [getElem?_dotBack (by split <;> simpa only [size_dotFront] using before goes_on)]
    split
    · rename_i cut
      exact getElem?_dotFront (behind cut)
    · rfl
  · split
    · rename_i cut
      exact getElem?_dotFront (behind cut)
    · rfl

/-! ### Texts -/

variable {line : List UInt8} {firstColumn lastColumn width : Nat}

/-- A line without a newline is shown as a text without one. -/
theorem oneLine_ofLine (on_line : Ascii.newline ∉ line) :
    OneLine (ofLine line firstColumn lastColumn width).text := by
  refine Bytes.oneLine_toText fun newline => ?_
  rcases mem_clip (Array.mem_toList_iff.mp newline) with dot | kept
  · exact absurd dot (by decide)
  · exact on_line (List.mem_toArray.mp (Bytes.mem_of_mem_extract kept))

/-- No more of a line is shown than was asked for. -/
theorem length_ofLine_le (limited : 0 < width) :
    (ofLine line firstColumn lastColumn width).text.length ≤ width := by
  refine Nat.le_trans (Bytes.length_toText_le _) ?_
  have shown := LineWindow.around_width limited 0 line.length firstColumn lastColumn
  rw [size_clip, Array.size_extract]
  omega

end SourceLine

end WasmText

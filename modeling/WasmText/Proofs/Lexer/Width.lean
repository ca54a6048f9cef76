import WasmText.Proofs.Lexer.Window

/-!
# Widths of shown lines

The width that is asked for bounds the raw bytes that are shown of a line, and with them the
characters of its text. In UTF-8 the text may be wider: a byte that is no character, or a part of one
that the window or the dots have cut off, is shown as U+FFFD, which takes three bytes. Lines of ASCII
keep to the width.
-/

namespace WasmText

/-! ### Texts in UTF-8 -/

theorem utf8Size_ofNat {code : Nat} (ascii : code < 0x80) : (Char.ofNat code).utf8Size = 1 := by
  have valid : code.isValidChar := .inl (by omega)
  rw [Char.utf8Size_eq_one_iff, Char.ofNat, dif_pos valid]
  exact UInt32.le_iff_toNat_le.mpr (Nat.le_of_lt_succ ascii)

theorem LeadByte.utf8Size_whole {byte : UInt8} {character : Char}
    (whole : ofByte byte = .whole character) : character.utf8Size = 1 := by
  unfold ofByte at whole
  split at whole
  · rename_i ascii
    cases whole
    exact utf8Size_ofNat (UInt8.lt_iff_toNat_lt.mp ascii)
  · repeat' split at whole
    all_goals cases whole

namespace LossyDecoder

/-- The size of the text in UTF-8 if the input ends here. -/
def textSize (decoder : LossyDecoder) : Nat :=
  decoder.text.utf8ByteSize + decoder.unfinished.elim 0 fun _ => replacementCharacter.utf8Size

theorem utf8ByteSize_finish (decoder : LossyDecoder) :
    decoder.finish.utf8ByteSize = decoder.textSize := by
  obtain ⟨text, unfinished⟩ := decoder
  cases unfinished with
  | none => rfl
  | some character => exact String.utf8ByteSize_push

theorem textSize_begin_le (text : String) (byte : UInt8) :
    (begin text byte).textSize ≤ text.utf8ByteSize + 3 := by
  unfold begin
  split
  · rename_i character whole
    have size := LeadByte.utf8Size_whole whole
    simp only [textSize, String.utf8ByteSize_push, Option.elim_none]
    omega
  · exact Nat.le_refl _
  · exact Nat.le_of_eq String.utf8ByteSize_push

/-- A byte adds at most what U+FFFD takes. A character of four bytes adds no more, since there were
three on account when its second byte came. -/
theorem textSize_feed_le (decoder : LossyDecoder) (byte : UInt8) :
    (decoder.feed byte).textSize ≤ decoder.textSize + 3 := by
  obtain ⟨text, unfinished⟩ := decoder
  cases unfinished with
  | none => exact textSize_begin_le text byte
  | some character =>
      have replaced : replacementCharacter.utf8Size = 3 := by decide
      simp only [feed, textSize, Option.elim_some, replaced]
      split
      · split
        · have four := Char.utf8Size_le_four
            (Char.ofNat (character.bits * 64 + (byte.toNat - 0x80)))
          simp only [String.utf8ByteSize_push, Option.elim_none]
          omega
        · exact Nat.le_add_right _ _
      · have closed := textSize_begin_le (text.push replacementCharacter) byte
        rw [String.utf8ByteSize_push, replaced] at closed
        exact closed

theorem textSize_foldl_le (bytes : List UInt8) (decoder : LossyDecoder) :
    (bytes.foldl feed decoder).textSize ≤ decoder.textSize + 3 * bytes.length := by
  induction bytes generalizing decoder with
  | nil => exact Nat.le_refl _
  | cons byte bytes induction =>
      have first := textSize_feed_le decoder byte
      have further := induction (decoder.feed byte)
      rw [List.foldl_cons, List.length_cons]
      omega

end LossyDecoder

namespace Bytes

/-- A text takes at most three times as many bytes as it was read from. -/
theorem utf8ByteSize_toText_le (bytes : Bytes) : bytes.toText.utf8ByteSize ≤ 3 * bytes.size := by
  have fed := LossyDecoder.textSize_foldl_le bytes.toList {}
  have empty : LossyDecoder.textSize {} = 0 := by decide
  rw [empty, Nat.zero_add, Array.length_toList] at fed
  rwa [toText, ← Array.foldl_toList, LossyDecoder.utf8ByteSize_finish]

-- Bytes that are no characters take just that much.
example : (toText #[0xff, 0xff]).utf8ByteSize = 6 := by
  decide +kernel

/-- The text of ASCII bytes takes as many. -/
theorem utf8ByteSize_toText_of_ascii {bytes : Bytes} (ascii : ∀ byte ∈ bytes.toList, byte < 0x80) :
    bytes.toText.utf8ByteSize = bytes.size := by
  have characters (bytes : List UInt8) (ascii : ∀ byte ∈ bytes, byte < 0x80) :
      String.utf8Len (bytes.map fun byte => Char.ofNat byte.toNat) = bytes.length := by
    induction bytes with
    | nil => rfl
    | cons byte bytes induction =>
        obtain ⟨first, further⟩ := List.forall_mem_cons.mp ascii
        have one := utf8Size_ofNat (UInt8.lt_iff_toNat_lt.mp first)
        rw [List.map_cons, String.utf8Len_cons, induction further, one, List.length_cons]
  have text_eq := toList_toText ascii
  rw [← String.ofList_toList (s := bytes.toText), text_eq, String.utf8ByteSize_ofList,
    characters bytes.toList ascii, Array.length_toList]

end Bytes

/-! ### Windows -/

/-- A window with a width lies on the line and shows as much of it as the width allows. -/
theorem LineWindow.size_around {width : Nat} (limited : 0 < width)
    (length firstColumn lastColumn : Nat) :
    let window := around 0 length firstColumn lastColumn width
    window.last ≤ length ∧ window.last - window.first = min width length := by
  unfold around
  split
  · rename_i whole
    simp only [Bool.or_eq_true, decide_eq_true_eq] at whole
    dsimp only
    omega
  · rename_i cut
    simp only [Bool.or_eq_true, decide_eq_true_eq] at cut
    dsimp only
    omega

namespace SourceLine

/-- What the width says about a text that is shown of a line. -/
structure Fits (line : List UInt8) (width : Nat) (text : String) : Prop where
  /-- There are no more characters than the width allows. -/
  length_le : text.length ≤ width
  /-- In UTF-8 they take at most three times as many bytes as are shown of the line. -/
  utf8ByteSize_le : text.utf8ByteSize ≤ 3 * min width line.length
  /-- A line of ASCII takes as many bytes as are shown of it. -/
  utf8ByteSize_eq : (∀ byte ∈ line, byte < 0x80) → text.utf8ByteSize = min width line.length

/-- As many bytes are shown as the width allows, or all there are. -/
theorem size_shown {width : Nat} (limited : 0 < width) (line : List UInt8)
    (firstColumn lastColumn : Nat) :
    let window := LineWindow.around 0 line.length firstColumn lastColumn width
    (clip 0 line.length window (line.toArray.extract window.first window.last)).size =
      min width line.length := by
  intro window
  obtain ⟨last_le, size_eq⟩ :=
    LineWindow.size_around limited line.length firstColumn lastColumn
  rw [size_clip, Array.size_extract, List.size_toArray, Nat.min_eq_left last_le, size_eq]

theorem fits_ofLine {width : Nat} (limited : 0 < width) (line : List UInt8)
    (firstColumn lastColumn : Nat) :
    Fits line width (ofLine line firstColumn lastColumn width).text := by
  have shown_size := size_shown limited line firstColumn lastColumn
  refine ⟨length_ofLine_le limited, ?_, fun ascii => ?_⟩ <;> rw [← shown_size]
  · exact Bytes.utf8ByteSize_toText_le _
  · refine Bytes.utf8ByteSize_toText_of_ascii fun byte shown => ?_
    rcases mem_clip (Array.mem_toList_iff.mp shown) with dot | kept
    · rw [dot]
      decide
    · exact ascii byte (List.mem_toArray.mp (Bytes.mem_of_mem_extract kept))

end SourceLine

namespace Lexer

variable {contents : Bytes}

/-- Whatever has been read, what is shown of a line keeps to the width in characters, and in bytes if
the line is one of ASCII. Any other line may take three times as many bytes in UTF-8 as are shown of
it. -/
theorem sourceLine_fits {source : Source} (opens : source.Opens contents) (filename : String)
    (lineWidth size bound calls : Nat) {location : Location} {line : List UInt8}
    (found : lineText? contents.toList location.line = some line) {width : Nat}
    (limited : 0 < width) :
    let lexer := (opened filename lineWidth source size bound).after calls
    ∃ shown, (lexer.sourceLine location width).1 = .ok shown ∧
      SourceLine.Fits line width shown.text := by
  intro lexer
  have sound := ((sound_opened opens filename lineWidth size bound).after calls).sound
  have anchored := (anchored_opened opens filename lineWidth size bound).after calls
  obtain ⟨after, answered, -⟩ :=
    SourceLine.answers_search_of_lineText anchored.holds found width lexer.tape.source sound.serves
  exact ⟨_, congrArg Prod.fst answered, SourceLine.fits_ofLine limited line _ _⟩

/-- A letter that takes two bytes, cut in its middle by the dots. -/
theorem sourceLine_fits_cut :
    let lexer := (opened "a.wast" 0 (.ofBytes "ééééé".toUTF8.data) 1 4096).after 0
    let location : Location := { filename := "a.wast", line := 1, firstColumn := 1, lastColumn := 1 }
    ∃ shown, (lexer.sourceLine location 8).1 = .ok shown ∧
      SourceLine.Fits "ééééé".toUTF8.data.toList 8 shown.text :=
  sourceLine_fits (Source.opens_ofBytes "ééééé".toUTF8.data) "a.wast" 0 1 4096 0 (by decide)
    (by decide)

/-- Ten bytes are shown where eight are asked for. -/
theorem sourceLine_wider_than_asked :
    let lexer := (opened "a.wast" 0 (.ofBytes "ééééé".toUTF8.data) 1 4096).after 0
    let location : Location := { filename := "a.wast", line := 1, firstColumn := 1, lastColumn := 1 }
    ∃ shown, (lexer.sourceLine location 8).1 = .ok shown ∧ shown.text = "éé\uFFFD..." ∧
      shown.text.utf8ByteSize = 10 :=
  ⟨{ text := "éé\uFFFD...", columnOffset := 0 }, by decide +kernel, rfl, by decide +kernel⟩

end Lexer

end WasmText

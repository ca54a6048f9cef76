import WasmText.Bytes.Lossy
import WasmText.Ascii
import WasmText.Proofs.Text.Lines

/-!
# Bytes read as text

Reading bytes as text brings in no newlines: the decoder takes a byte, a newline among them, as a
character of its own below `0x80` only, and what several bytes make up lies above. A text has no
more characters than it has bytes, and one for each byte if all of them are ASCII.
-/

namespace WasmText

theorem eq_of_ofNat_eq_newline {code : Nat} (newline : Char.ofNat code = '\n') : code = 10 := by
  by_cases valid : code.isValidChar
  · rw [Char.ofNat, dif_pos valid] at newline
    exact congrArg (fun character : Char => character.val.toNat) newline
  · rw [Char.ofNat, dif_neg valid] at newline
    cases newline

/-- The next byte takes the code point above the characters of one byte. -/
structure OpenCharacter.Wide (character : OpenCharacter) : Prop where
  /-- The last byte comes behind some bits. -/
  last : character.owed ≤ 1 → 1 ≤ character.bits
  /-- There are bits behind the next byte. -/
  next : 1 ≤ character.bits * 64 + (character.low.toNat - 0x80)

namespace LeadByte

variable {byte : UInt8}

theorem ofByte_whole {character : Char} (whole : ofByte byte = .whole character) :
    character = Char.ofNat byte.toNat := by
  unfold ofByte at whole
  repeat' split at whole
  all_goals cases whole
  rfl

theorem ofByte_opening {character : OpenCharacter} (opening : ofByte byte = .opening character) :
    character.Wide := by
  unfold ofByte at opening
  simp only [UInt8.lt_iff_toNat_lt, ← UInt8.toNat_inj, UInt8.reduceToNat] at opening
  repeat' split at opening
  all_goals cases opening
  all_goals constructor <;> dsimp only [UInt8.reduceToNat] <;> omega

end LeadByte

/-- A decoder that has been fed the bytes. -/
structure LossyDecoder.Fed (bytes : List UInt8) (decoder : LossyDecoder) : Prop where
  /-- A newline in the text was one among the bytes. -/
  oneLine : Ascii.newline ∉ bytes → OneLine decoder.text
  /-- Every character of the text, and the unfinished one, has a byte of its own. -/
  length_le : decoder.text.length + decoder.unfinished.elim 0 (fun _ => 1) ≤ bytes.length
  /-- The unfinished character is none of one byte. -/
  wide : ∀ character ∈ decoder.unfinished, character.Wide

namespace LossyDecoder

variable {bytes : List UInt8} {text : String} {decoder : LossyDecoder} {byte : UInt8}

theorem oneLine_replacement (oneLine : OneLine text) : OneLine (text.push replacementCharacter) :=
  oneLine.push (by decide)

/-- A byte between characters. -/
theorem fed_begin (oneLine : Ascii.newline ∉ bytes → OneLine text)
    (length_le : text.length ≤ bytes.length) : (begin text byte).Fed (bytes ++ [byte]) := by
  have earlier (no_newline : Ascii.newline ∉ bytes ++ [byte]) :
      Ascii.newline ∉ bytes ∧ byte ≠ Ascii.newline := by
    rw [List.mem_append, List.mem_singleton, not_or] at no_newline
    exact ⟨no_newline.1, Ne.symm no_newline.2⟩
  unfold begin
  split
  · rename_i character whole
    refine ⟨fun no_newline => (oneLine (earlier no_newline).1).push fun newline => ?_, ?_, nofun⟩
    · rw [LeadByte.ofByte_whole whole] at newline
      exact (earlier no_newline).2 (UInt8.toNat_inj.mp (eq_of_ofNat_eq_newline newline))
    · rw [String.length_push, List.length_append]
      exact Nat.add_le_add_right length_le 1
  · rename_i character opening
    refine ⟨fun no_newline => oneLine (earlier no_newline).1, ?_, ?_⟩
    · rw [List.length_append]
      exact Nat.add_le_add_right length_le 1
    · rintro _ ⟨⟩
      exact LeadByte.ofByte_opening opening
  · refine ⟨fun no_newline => oneLine_replacement (oneLine (earlier no_newline).1), ?_, nofun⟩
    rw [String.length_push, List.length_append]
    exact Nat.add_le_add_right length_le 1

/-- A byte behind an unfinished character, which it continues or closes. -/
theorem Fed.feed (fed : decoder.Fed bytes) : (decoder.feed byte).Fed (bytes ++ [byte]) := by
  obtain ⟨text, unfinished⟩ := decoder
  obtain ⟨oneLine, length_le, wide⟩ := fed
  cases unfinished with
  | none => exact fed_begin oneLine length_le
  | some character =>
      have earlier (no_newline : Ascii.newline ∉ bytes ++ [byte]) : OneLine text :=
        oneLine fun newline => no_newline (List.mem_append_left _ newline)
      obtain ⟨last, next⟩ := wide character rfl
      dsimp only [Option.elim_some] at oneLine length_le
      unfold LossyDecoder.feed
      dsimp only
      split
      · rename_i continues
        have low_le : character.low.toNat ≤ byte.toNat := by
          simp only [Bool.and_eq_true, decide_eq_true_eq] at continues
          exact UInt8.le_iff_toNat_le.mp continues.1
        split
        · rename_i completes
          have bits := last completes
          refine ⟨fun no_newline => (earlier no_newline).push fun newline => ?_, ?_, nofun⟩
          · have code_eq := eq_of_ofNat_eq_newline newline
            omega
          · rw [String.length_push, List.length_append]
            exact Nat.le_succ_of_le length_le
        · refine ⟨earlier, ?_, ?_⟩
          · rw [List.length_append]
            exact Nat.le_succ_of_le length_le
          · rintro _ ⟨⟩
            constructor <;> dsimp only [UInt8.reduceToNat] <;> omega
      · refine fed_begin (fun no_newline => oneLine_replacement (oneLine no_newline)) ?_
        rw [String.length_push]
        exact length_le

theorem Fed.foldl (fed : decoder.Fed bytes) (further : List UInt8) :
    (further.foldl LossyDecoder.feed decoder).Fed (bytes ++ further) := by
  induction further generalizing bytes decoder with
  | nil => rwa [List.append_nil]
  | cons byte further induction =>
      rw [List.append_cons]
      exact induction fed.feed

theorem fed_foldl (bytes : List UInt8) : (bytes.foldl LossyDecoder.feed {}).Fed bytes :=
  have empty : LossyDecoder.Fed [] {} := ⟨fun _ => nofun, Nat.le_refl _, nofun⟩
  empty.foldl bytes

end LossyDecoder

namespace Bytes

theorem mem_of_mem_extract {bytes : Bytes} {byte : UInt8} {first last : Nat}
    (present : byte ∈ bytes.extract first last) : byte ∈ bytes := by
  obtain ⟨index, inside, rfl⟩ := Array.mem_extract_iff_getElem.mp present
  exact Array.getElem_mem _

/-- The text of bytes without a newline is on one line. -/
theorem oneLine_toText {bytes : Bytes} (no_newline : Ascii.newline ∉ bytes.toList) :
    OneLine bytes.toText := by
  have fed := LossyDecoder.fed_foldl bytes.toList
  rw [toText, ← Array.foldl_toList]
  unfold LossyDecoder.finish
  split
  · exact fed.oneLine no_newline
  · exact LossyDecoder.oneLine_replacement (fed.oneLine no_newline)

/-- A text without a newline among the bytes of its UTF-8 form is on one line. -/
theorem oneLine_of_ofString {text : String}
    (no_newline : Ascii.newline ∉ (ofString text).toList) : OneLine text := by
  have bytes_eq : (ofString text).toList = text.toList.flatMap String.utf8EncodeChar := by
    rw [ofString, String.toUTF8, ← String.utf8Encode_toList, List.utf8Encode,
      List.data_toByteArray, List.toList_toArray]
  intro newline
  rw [bytes_eq, List.mem_flatMap] at no_newline
  exact no_newline ⟨'\n', newline, by decide⟩

/-- A text has no more characters than it has bytes. -/
theorem length_toText_le (bytes : Bytes) : bytes.toText.length ≤ bytes.size := by
  have length_le := (LossyDecoder.fed_foldl bytes.toList).length_le
  rw [toText, ← Array.foldl_toList, ← Array.length_toList]
  unfold LossyDecoder.finish
  split
  · rename_i unfinished_eq
    rwa [unfinished_eq] at length_le
  · rename_i unfinished_eq
    rw [String.length_push]
    rwa [unfinished_eq] at length_le

/-- The text of ASCII bytes has a character for each of them. -/
theorem toList_toText {bytes : Bytes} (ascii : ∀ byte ∈ bytes.toList, byte < 0x80) :
    bytes.toText.toList = bytes.toList.map fun byte => Char.ofNat byte.toNat := by
  have foldl (text : String) (bytes : List UInt8) (ascii : ∀ byte ∈ bytes, byte < 0x80) :
      (bytes.foldl LossyDecoder.feed ⟨text, none⟩).finish.toList =
        text.toList ++ bytes.map fun byte => Char.ofNat byte.toNat := by
    induction bytes generalizing text with
    | nil => exact (List.append_nil _).symm
    | cons byte bytes induction =>
        obtain ⟨first, further⟩ := List.forall_mem_cons.mp ascii
        have fed : LossyDecoder.feed ⟨text, none⟩ byte =
            ⟨text.push (Char.ofNat byte.toNat), none⟩ := by
          unfold LossyDecoder.feed LossyDecoder.begin LeadByte.ofByte
          rw [if_pos first]
        rw [List.foldl_cons, fed, induction _ further, String.toList_push, List.append_assoc]
        rfl
  rw [toText, ← Array.foldl_toList]
  exact foldl "" bytes.toList ascii

end Bytes

end WasmText

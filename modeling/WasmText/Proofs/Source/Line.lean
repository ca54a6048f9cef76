import WasmText.Proofs.Source.Searching

/-!
# What a source line shows

The line that starts at an offset is a part of the bytes from there on, and what is shown of it
depends on nothing but these bytes, the columns and the width. So a source line is the same wherever
its line stands.
-/

namespace WasmText

/-- The line that the bytes begin with. A carriage return before the newline belongs to the end of
the line, and without a newline to the line. -/
def lineOf (bytes : List UInt8) : List UInt8 :=
  let line := bytes.takeWhile (· != Ascii.newline)
  if line.length < bytes.length ∧ line.getLast? = some Ascii.carriageReturn then
    line.dropLast
  else
    line

/-- A line is what the bytes begin with. -/
theorem lineOf_prefix (bytes : List UInt8) : lineOf bytes <+: bytes := by
  have line_prefix := List.takeWhile_prefix (· != Ascii.newline) (l := bytes)
  unfold lineOf
  dsimp only
  split
  · exact (List.dropLast_prefix _).trans line_prefix
  · exact line_prefix

namespace Source

variable {contents : Bytes}

/-- A line ends behind its bytes. -/
theorem answers_lineEnd {start : Nat} (inside : start ≤ contents.size) :
    Search.Answers contents (lineEnd start)
      (.ok (start + (lineOf (contents.toList.drop start)).length)) := by
  have searched : Search.Answers contents (search (lineEndVisitor start) none start) _ :=
    answers_search (lineEnd_follows start) (by simp) inside
  have visited : lineEndBytes.visitAll contents start (start, none) =
      (contents.toList.drop start).foldlM lineEndBytes.visit (start, none) := by
    rw [← ByteVisitor.visitAll_extract]
    unfold ByteVisitor.visitAll
    rw [← Array.foldlM_toList, Array.toList_extract, List.extract_eq_take_drop,
      ← Array.length_toList, List.take_of_length_le (Nat.le_of_eq List.length_drop)]
  rw [foldlM_lineEndBytes] at visited
  unfold lineEnd
  refine searched.bind ?_
  unfold ByteVisitor.verdict lineOf
  rw [visited]
  generalize contents.toList.drop start = bytes
  have line_le := (List.takeWhile_prefix (· != Ascii.newline) (l := bytes)).length_le
  generalize bytes.takeWhile (· != Ascii.newline) = line at line_le ⊢
  dsimp only
  rw [Option.or_none]
  by_cases ended : line.length < bytes.length
  · rw [if_pos ended]
    by_cases returned : line.getLast? = some Ascii.carriageReturn
    · have positive : 0 < line.length := by
        rw [List.length_pos_iff]
        rintro rfl
        cases returned
      rw [if_pos returned, if_pos ⟨ended, returned⟩, List.length_dropLast,
        Nat.add_sub_assoc positive]
      exact Search.answers_pure _
    · rw [if_neg returned, if_neg fun both => returned both.2]
      exact Search.answers_pure _
  · have whole : bytes.length = line.length := by omega
    rw [if_neg ended, if_neg fun both => ended both.1, whole]
    exact Search.answers_pure _

end Source

namespace SourceLine

variable {contents : Bytes}

/-- What is shown of a line of which the bytes are given. -/
def ofLine (line : List UInt8) (firstColumn lastColumn width : Nat) : SourceLine :=
  let window := LineWindow.around 0 line.length firstColumn lastColumn width
  { text := (clip 0 line.length window (line.toArray.extract window.first window.last)).toText
    columnOffset := window.first }

/-- A window moves with its line. -/
theorem around_add (start length firstColumn lastColumn width : Nat) :
    let window := LineWindow.around 0 length firstColumn lastColumn width
    LineWindow.around start (start + length) firstColumn lastColumn width =
      ⟨start + window.first, start + window.last⟩ := by
  unfold LineWindow.around
  rw [Nat.add_sub_cancel_left, Nat.sub_zero]
  by_cases whole : (width = 0 || length ≤ width) = true
  · rw [if_pos whole, if_pos whole]
    rfl
  · rw [if_neg whole, if_neg whole]
    simp only [Bool.or_eq_true, decide_eq_true_eq, not_or] at whole
    dsimp only
    congr 1
    all_goals omega

theorem clip_add (start length : Nat) (window : LineWindow) (bytes : Bytes) :
    clip start (start + length) ⟨start + window.first, start + window.last⟩ bytes =
      clip 0 length window bytes := by
  simp only [clip, Nat.add_lt_add_iff_left, Nat.lt_add_right_iff_pos]

/-- A part of a line is that part of the contents behind the start of the line. -/
theorem extract_of_prefix {line : List UInt8} {start first last : Nat}
    (begins : line <+: contents.toList.drop start) (inside : last ≤ line.length)
    (ordered : first ≤ last) :
    contents.extract (start + first) (start + last) = line.toArray.extract first last := by
  obtain ⟨more, rest_eq⟩ := begins
  have enough : last - first ≤ (line.drop first).length := by
    rw [List.length_drop]
    omega
  apply Array.toList_inj.mp
  rw [Array.toList_extract, Array.toList_extract, List.extract_eq_take_drop,
    List.extract_eq_take_drop, ← List.drop_drop, ← rest_eq,
    List.drop_append_of_le_length (by omega), Nat.add_sub_add_left,
    List.take_append_of_le_length enough]

/-- The source line of a location on a line whose start is found is cut out of that line. -/
theorem answers_search_of_startOf {anchor : LineAnchor} {location : Location} {start : Nat}
    (width : Nat)
    (started : Search.Answers contents (startOf anchor location.line) (.ok start))
    (inside : start ≤ contents.size) :
    Search.Answers contents (search anchor location width)
      (.ok (ofLine (lineOf (contents.toList.drop start)) location.firstColumn
        location.lastColumn width)) := by
  unfold search ofLine
  refine started.bind ((Source.answers_lineEnd inside).bind ?_)
  have line_prefix := lineOf_prefix (contents.toList.drop start)
  generalize lineOf (contents.toList.drop start) = line at line_prefix ⊢
  have moved := around_add start line.length location.firstColumn location.lastColumn width
  obtain ⟨first_le, last_le⟩ := LineWindow.around_inside (Nat.zero_le line.length)
    location.firstColumn location.lastColumn width
  dsimp only at moved ⊢
  rw [moved]
  generalize LineWindow.around 0 line.length location.firstColumn location.lastColumn width =
    window at first_le last_le ⊢
  have length_le : line.length ≤ contents.size - start := by
    have rest_length := line_prefix.length_le
    rw [List.length_drop, Array.length_toList] at rest_length
    exact rest_length
  have count_eq : start + window.last =
      start + window.first + (start + window.last - (start + window.first)) := by
    omega
  dsimp only
  refine (Source.answers_range (by omega)).bind ?_
  rw [← count_eq, extract_of_prefix line_prefix last_le first_le, clip_add,
    Nat.add_sub_cancel_left]
  exact Search.answers_pure _

/-- The source line of a location on the line whose start is known is cut out of that line. -/
theorem answers_search {anchor : LineAnchor} {location : Location} (width : Nat)
    (on_line : location.line = anchor.line) (inside : anchor.offset ≤ contents.size) :
    Search.Answers contents (search anchor location width)
      (.ok (ofLine (lineOf (contents.toList.drop anchor.offset)) location.firstColumn
        location.lastColumn width)) := by
  refine answers_search_of_startOf width ?_ inside
  rw [startOf, if_pos on_line]
  exact Search.answers_pure _

end SourceLine

end WasmText

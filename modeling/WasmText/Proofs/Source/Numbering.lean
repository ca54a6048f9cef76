import WasmText.Proofs.Location
import WasmText.Proofs.Source.Agreement
import WasmText.Proofs.Source.Line

/-!
# Lines by number

The lines of a source are the pieces between its newlines, counted from one. From whichever line a
search sets out whose start is known, it comes to the piece that has the number asked for.
-/

namespace WasmText

/-- The text of a line by its number: a piece between newlines, without a carriage return that is
the last byte before a newline. -/
def lineText? (bytes : List UInt8) (line : Nat) : Option (List UInt8) :=
  let pieces := bytes.splitOn Ascii.newline
  if line = 0 then
    none
  else
    pieces[line - 1]?.map fun piece =>
      if line < pieces.length ∧ piece.getLast? = some Ascii.carriageReturn then piece.dropLast
      else piece

theorem length_splitOn_newline (bytes : List UInt8) :
    (bytes.splitOn Ascii.newline).length = bytes.count Ascii.newline + 1 := by
  induction bytes with
  | nil => rfl
  | cons byte bytes induction =>
      rw [List.splitOn_cons_eq_if_modifyHead, List.count_cons]
      split
      · rw [List.length_cons, induction]
      · rw [List.length_modifyHead, induction, Nat.add_zero]

/-- There are as many lines as newlines, and one more. -/
theorem lineText_eq_none_iff {bytes : List UInt8} {line : Nat} :
    lineText? bytes line = none ↔ line = 0 ∨ bytes.count Ascii.newline + 1 < line := by
  unfold lineText?
  dsimp only
  split
  · rename_i zero
    exact iff_of_true rfl (.inl zero)
  · rename_i positive
    rw [Option.map_eq_none_iff, List.getElem?_eq_none_iff, length_splitOn_newline]
    omega

/-- The first piece goes up to the first newline, and others follow if that is there. -/
theorem splitOn_newline_eq_cons (bytes : List UInt8) :
    ∃ others, bytes.splitOn Ascii.newline = bytes.takeWhile (· != Ascii.newline) :: others ∧
      (0 < others.length ↔
        (bytes.takeWhile (· != Ascii.newline)).length < bytes.length) := by
  have whole := List.takeWhile_append_dropWhile (p := (· != Ascii.newline)) (l := bytes)
  have on_line : Ascii.newline ∉ bytes.takeWhile (· != Ascii.newline) := fun present =>
    absurd (List.all_eq_true.mp List.all_takeWhile _ present) (by decide)
  have rejected := List.head?_dropWhile_not (· != Ascii.newline) bytes
  generalize bytes.takeWhile (· != Ascii.newline) = first at whole on_line ⊢
  cases here : bytes.dropWhile (· != Ascii.newline) with
  | nil =>
      rw [here, List.append_nil] at whole
      subst whole
      exact ⟨[], List.splitOn_eq_singleton on_line, by simp⟩
  | cons byte rest =>
      rw [here] at whole rejected
      obtain rfl : byte = Ascii.newline := by simpa using rejected
      subst whole
      refine ⟨rest.splitOn Ascii.newline,
        List.splitOn_append_cons_self_of_not_mem on_line rest, iff_of_true ?_ (by simp)⟩
      exact List.length_pos_iff.mpr (List.splitOn_ne_nil Ascii.newline rest)

/-- The pieces before the start of a line are as many as the newlines there. -/
theorem exists_splitOn_of_starts {before : List UInt8} (starts : Location.onLine before = [])
    (rest : List UInt8) :
    ∃ pieces, (before ++ rest).splitOn Ascii.newline = pieces ++ rest.splitOn Ascii.newline ∧
      pieces.length = before.count Ascii.newline := by
  rcases (Location.line_cases before).2 with whole | ⟨lines, whole⟩
  · rw [starts] at whole
    subst whole
    exact ⟨[], rfl, rfl⟩
  · rw [starts, List.append_nil] at whole
    subst whole
    refine ⟨lines.splitOn Ascii.newline, ?_, ?_⟩
    · rw [List.append_assoc]
      exact List.splitOn_append_cons_self lines rest
    · rw [length_splitOn_newline, List.count_append]
      rfl

/-- What is on the line that starts behind some bytes is its text. -/
theorem lineText_of_starts {before : List UInt8} (starts : Location.onLine before = [])
    (rest : List UInt8) :
    lineText? (before ++ rest) (Location.lineAfter before) = some (lineOf rest) := by
  obtain ⟨pieces, pieces_eq, length_eq⟩ := exists_splitOn_of_starts starts rest
  obtain ⟨others, rest_eq, others_iff⟩ := splitOn_newline_eq_cons rest
  have followed : Location.lineAfter before < (pieces ++ rest.splitOn Ascii.newline).length ↔
      (rest.takeWhile (· != Ascii.newline)).length < rest.length := by
    rw [← others_iff, rest_eq, List.length_append, List.length_cons, length_eq,
      Location.lineAfter]
    omega
  have piece_eq : (pieces ++ rest.splitOn Ascii.newline)[Location.lineAfter before - 1]? =
      some (rest.takeWhile (· != Ascii.newline)) := by
    rw [Location.lineAfter, Nat.add_sub_cancel, ← length_eq,
      List.getElem?_append_right (Nat.le_refl _), Nat.sub_self, rest_eq]
    rfl
  have positive : Location.lineAfter before ≠ 0 := Nat.succ_ne_zero _
  unfold lineText? lineOf
  rw [pieces_eq]
  dsimp only
  rw [if_neg positive, piece_eq, Option.map_some]
  simp only [followed]

/-- The line that begins at the anchor's offset has the anchor's number. -/
structure LineAnchor.Holds (contents : Bytes) (anchor : LineAnchor) : Prop where
  /-- The line starts inside the contents, or at their end. -/
  inside : anchor.offset ≤ contents.size
  /-- It starts at the front or behind a newline. -/
  starts : Location.onLine (contents.toList.take anchor.offset) = []
  /-- The newlines before it give its number. -/
  line_eq : anchor.line = Location.lineAfter (contents.toList.take anchor.offset)

namespace LineAnchor

variable {contents : Bytes} {anchor : LineAnchor}

theorem holds_first (contents : Bytes) : Holds contents ⟨1, 0⟩ :=
  ⟨Nat.zero_le _, rfl, rfl⟩

/-- The line behind a newline. -/
theorem holds_newline {offset : Nat} (newline : contents[offset]? = some Ascii.newline) :
    Holds contents ⟨Location.lineAfter (contents.toList.take offset) + 1, offset + 1⟩ := by
  obtain ⟨inside, -⟩ := Array.getElem?_eq_some_iff.mp newline
  have newline_there : contents.toList[offset]? = some Ascii.newline := by
    rw [Array.getElem?_toList, newline]
  have split : contents.toList.take (offset + 1) =
      contents.toList.take offset ++ [Ascii.newline] := by
    rw [List.take_add_one, newline_there]
    rfl
  refine ⟨inside, ?_, ?_⟩
  · dsimp only
    rw [split, Location.onLine_newline]
  · dsimp only
    rw [split, Location.lineAfter_newline]

theorem Holds.lineText_eq (holds : anchor.Holds contents) :
    lineText? contents.toList anchor.line =
      some (lineOf (contents.toList.drop anchor.offset)) := by
  have text_eq := lineText_of_starts holds.starts (contents.toList.drop anchor.offset)
  rw [List.take_append_drop, ← holds.line_eq] at text_eq
  exact text_eq

end LineAnchor

namespace Source

variable {contents : Bytes}

theorem length_newlines (contents : Bytes) (start : Nat) :
    (newlines contents start).length = (contents.toList.drop start).count Ascii.newline := by
  by_cases inside : start < contents.size
  · have inside_list : start < contents.toList.length := inside
    have further := length_newlines contents (start + 1)
    rw [newlines_of_lt inside, List.drop_eq_getElem_cons inside_list, List.count_cons, ← further,
      Array.getElem_toList]
    split
    · rename_i newline
      rw [newline, if_pos (beq_self_eq_true _), List.length_cons]
    · rename_i other
      rw [if_neg (by simpa using other)]
      rfl
  · have past : contents.size ≤ start := Nat.not_lt.mp inside
    rw [newlines_of_size_le past, List.drop_of_length_le past]
    rfl
termination_by contents.size - start

/-- The newlines from an offset on are found in order. -/
theorem newlines_getElem? {start index newline : Nat}
    (found : (newlines contents start)[index]? = some newline) :
    contents[newline]? = some Ascii.newline ∧
      Location.lineAfter (contents.toList.take newline) =
        Location.lineAfter (contents.toList.take start) + index := by
  by_cases inside : start < contents.size
  · have split : contents.toList.take (start + 1) =
        contents.toList.take start ++ [contents[start]] := by
      rw [List.take_add_one, Array.getElem?_toList, Array.getElem?_eq_getElem inside]
      rfl
    rw [newlines_of_lt inside] at found
    by_cases here : contents[start] = Ascii.newline
    · rw [if_pos here] at found
      cases index with
      | zero =>
          obtain rfl : start = newline := Option.some.inj found
          exact ⟨by rw [Array.getElem?_eq_getElem inside, here], rfl⟩
      | succ index =>
          have further : (newlines contents (start + 1))[index]? = some newline := found
          obtain ⟨newline_there, line_eq⟩ := newlines_getElem? further
          rw [split, here, Location.lineAfter_newline] at line_eq
          exact ⟨newline_there, by omega⟩
    · rw [if_neg here] at found
      obtain ⟨newline_there, line_eq⟩ := newlines_getElem? found
      rw [split, Location.lineAfter_append (by simpa using Ne.symm here)] at line_eq
      exact ⟨newline_there, line_eq⟩
  · rw [newlines_of_size_le (Nat.not_lt.mp inside)] at found
    cases found
termination_by contents.size - start

/-- A later line is found from the start of a line that is known, if it is there. -/
theorem answers_lineStart {anchor : LineAnchor} (holds : anchor.Holds contents) {line : Nat}
    (later : anchor.line < line) :
    (∃ start, Search.Answers contents (lineStart anchor.line anchor.offset line) (.ok start) ∧
        LineAnchor.Holds contents ⟨line, start⟩) ∨
      Search.Answers contents (lineStart anchor.line anchor.offset line)
          (.error (.lineOutOfRange line)) ∧
        lineText? contents.toList line = none := by
  have searched : Search.Answers contents
      (search (lineStartVisitor line) anchor.line anchor.offset) _ :=
    answers_search (lineStart_follows line) trivial holds.inside
  have accepted : ¬ (line < anchor.line || line == 0) = true := by
    simp only [Bool.or_eq_true, decide_eq_true_eq, beq_iff_eq]
    omega
  rw [verdict_lineStartBytes later] at searched
  unfold lineStart
  rw [if_neg accepted, if_neg (Nat.ne_of_gt later)]
  cases found : (newlines contents anchor.offset)[line - anchor.line - 1]? with
  | some newline =>
      rw [found] at searched
      obtain ⟨newline_there, line_eq⟩ := newlines_getElem? found
      have next := LineAnchor.holds_newline newline_there
      rw [line_eq, ← holds.line_eq,
        show anchor.line + (line - anchor.line - 1) + 1 = line by omega] at next
      exact .inl ⟨newline + 1, searched.bind (Search.answers_pure _), next⟩
  | none =>
      rw [found] at searched
      refine .inr ⟨searched.bind (Search.answers_throw _), lineText_eq_none_iff.mpr (.inr ?_)⟩
      have total : contents.toList.count Ascii.newline =
          (contents.toList.take anchor.offset).count Ascii.newline +
            (newlines contents anchor.offset).length := by
        rw [length_newlines, ← List.count_append, List.take_append_drop]
      have line_eq := holds.line_eq
      rw [Location.lineAfter] at line_eq
      rw [List.getElem?_eq_none_iff] at found
      omega

end Source

namespace SourceLine

variable {contents : Bytes} {anchor : LineAnchor}

/-- The start of a line is found from any line whose start is known, if the line is there. -/
theorem answers_startOf (holds : anchor.Holds contents) (line : Nat) :
    (∃ start, Search.Answers contents (startOf anchor line) (.ok start) ∧
        LineAnchor.Holds contents ⟨line, start⟩) ∨
      Search.Answers contents (startOf anchor line) (.error (.lineOutOfRange line)) ∧
        lineText? contents.toList line = none := by
  have first_holds := LineAnchor.holds_first contents
  unfold startOf
  by_cases on_line : line = anchor.line
  · rw [if_pos on_line]
    exact .inl ⟨anchor.offset, Search.answers_pure _, on_line ▸ holds⟩
  rw [if_neg on_line]
  by_cases first : line = 1
  · rw [if_pos first]
    exact .inl ⟨0, Search.answers_pure _, first ▸ first_holds⟩
  rw [if_neg first]
  by_cases later : anchor.line < line
  · rw [if_pos later]
    exact Source.answers_lineStart holds later
  rw [if_neg later]
  cases line with
  | zero => exact .inr ⟨Search.answers_throw _, rfl⟩
  | succ line => exact Source.answers_lineStart first_holds (by dsimp only; omega)

/-- Without a limit to its width all of a line is shown. -/
theorem ofLine_zero (line : List UInt8) (firstColumn lastColumn : Nat) :
    ofLine line firstColumn lastColumn 0 =
      { text := Bytes.toText line.toArray, columnOffset := 0 } := by
  unfold ofLine LineWindow.around clip
  simp

/-- A line is found by its number, whichever line the search sets out from. -/
theorem answers_search_number (holds : anchor.Holds contents) (location : Location) :
    Search.Answers contents (search anchor location 0)
      (match lineText? contents.toList location.line with
      | some text => .ok { text := Bytes.toText text.toArray, columnOffset := 0 }
      | none => .error (.lineOutOfRange location.line)) := by
  rcases answers_startOf holds location.line with ⟨start, started, found⟩ | ⟨refused, missing⟩
  · rw [found.lineText_eq]
    dsimp only
    rw [← ofLine_zero _ location.firstColumn location.lastColumn]
    exact answers_search_of_startOf 0 started found.inside
  · rw [missing]
    exact refused.bind_error _

end SourceLine

end WasmText

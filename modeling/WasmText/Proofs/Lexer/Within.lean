import WasmText.Proofs.Lexer.Call
import WasmText.Proofs.Lexer.LineBreak
import WasmText.Proofs.Source.Line

/-!
# Lexers with other bytes around their own

A lexer over bytes in the middle of others does what it does over its own bytes alone, as long as
these end with their line or are the last. What it reports stands as many lines further down as
there are lines before.
-/

namespace WasmText

/-- The location so many lines further down. -/
def Location.below (lines : Nat) (location : Location) : Location :=
  { location with line := location.line + lines }

/-- The token so many lines further down. -/
def Token.below (lines : Nat) (token : Token) : Token :=
  { token with location := token.location.below lines }

/-- The diagnostic so many lines further down. -/
def Diagnostic.below (lines : Nat) (diagnostic : Diagnostic) : Diagnostic :=
  { diagnostic with location := diagnostic.location.below lines }

theorem Token.below_zero : Token.below 0 = id :=
  rfl

theorem Diagnostic.below_zero : Diagnostic.below 0 = id :=
  rfl

/-! ### Source lines -/

/-- The line that bytes begin with is the same if others follow on the next line. Only a carriage
return at their end would be taken for a part of the line's end. -/
theorem lineOf_append {bytes tail : List UInt8} (breaks : LineBreak tail)
    (kept : tail = [] ∨ bytes.getLast? ≠ some Ascii.carriageReturn) :
    lineOf (bytes ++ tail) = lineOf bytes := by
  by_cases empty : tail = []
  · rw [empty, List.append_nil]
  have no_return := kept.resolve_left empty
  have positive := List.length_pos_iff.mpr empty
  have line_eq : (bytes ++ tail).takeWhile (· != Ascii.newline) =
      bytes.takeWhile (· != Ascii.newline) := Piece.takeWhile_append_break bytes breaks (by decide)
  have line_prefix := List.takeWhile_prefix (· != Ascii.newline) (l := bytes)
  unfold lineOf
  rw [line_eq, List.length_append]
  generalize bytes.takeWhile (· != Ascii.newline) = line at line_prefix ⊢
  dsimp only
  have line_le := line_prefix.length_le
  by_cases ended : line.length < bytes.length
  · have ended_whole : line.length < bytes.length + tail.length := by omega
    simp only [ended, ended_whole]
  · have whole : line = bytes := line_prefix.eq_of_length (by omega)
    rw [whole, if_neg fun both => no_return both.2, if_neg fun both => no_return both.2]

namespace Cursor

variable {front tail : Bytes} {cursor : Cursor}

/-- The cursor at the same place with other bytes around its own. -/
def within (front tail : Bytes) (cursor : Cursor) : Cursor where
  bytes := front ++ cursor.bytes ++ tail
  token := front.size + cursor.token
  marker := front.size + cursor.marker
  offset := front.size + cursor.offset

theorem drop_within {offset : Nat} (inside : offset ≤ cursor.bytes.size) :
    (cursor.within front tail).bytes.toList.drop (front.size + offset) =
      cursor.bytes.toList.drop offset ++ tail.toList := by
  have inside_list : offset ≤ cursor.bytes.toList.length := by
    rw [Array.length_toList]
    exact inside
  change (front ++ cursor.bytes ++ tail).toList.drop _ = _
  rw [Array.toList_append, Array.toList_append, List.append_assoc, ← Array.length_toList,
    List.drop_length_add_append, List.drop_append_of_le_length inside_list]

theorem ahead_within (inside : cursor.offset ≤ cursor.bytes.size) :
    (cursor.within front tail).ahead = cursor.ahead ++ tail.toList :=
  drop_within inside

theorem pending_within (ordered : cursor.token ≤ cursor.offset)
    (inside : cursor.offset ≤ cursor.bytes.size) :
    (cursor.within front tail).pending = cursor.pending := by
  have pending_eq (cursor : Cursor) : cursor.pending =
      (cursor.bytes.toList.drop cursor.token).take (cursor.offset - cursor.token) := by
    change (cursor.bytes.extract cursor.token cursor.offset).toList = _
    rw [Array.toList_extract, List.extract_eq_take_drop]
  have enough : cursor.offset - cursor.token ≤ (cursor.bytes.toList.drop cursor.token).length := by
    rw [List.length_drop, Array.length_toList]
    omega
  rw [pending_eq, pending_eq]
  change ((cursor.within front tail).bytes.toList.drop (front.size + cursor.token)).take
    (front.size + cursor.offset - (front.size + cursor.token)) = _
  rw [drop_within (Nat.le_trans ordered inside), Nat.add_sub_add_left,
    List.take_append_of_le_length enough]

end Cursor

namespace Lexer

variable {front tail : Bytes} {earlier : Array Diagnostic} {lexer after : Lexer Cursor}
  {lexeme : Lexeme} {errors : List LexError}

/-- The number of lines that bytes end. -/
def linesOf (bytes : Bytes) : Nat :=
  bytes.toList.count Ascii.newline

/-- The lexer at the same place with other bytes around its own, and with errors reported before its
own. -/
def within (front tail : Bytes) (earlier : Array Diagnostic) (lexer : Lexer Cursor) :
    Lexer Cursor :=
  { lexer with
    tape := lexer.tape.within front tail
    line := lexer.line + linesOf front
    lineOffset := front.size + lexer.lineOffset
    reported := earlier ++ lexer.reported.map (Diagnostic.below (linesOf front)) }

/-- Source lines of a lexer's bytes are shown the same with the tail behind them. -/
structure Shields (tail : Bytes) (lexer : Lexer Cursor) : Prop where
  /-- The tail begins on the next line. -/
  breaks : LineBreak tail.toList
  /-- A carriage return at the end of the bytes is not taken for a part of the line's end. -/
  kept : lexer.lineWidth = 0 ∨ tail.toList = [] ∨
    lexer.tape.bytes.toList.getLast? ≠ some Ascii.carriageReturn

theorem shields_empty (lexer : Lexer Cursor) : lexer.Shields #[] where
  breaks := nofun
  kept := .inr (.inl rfl)

theorem location_within (first last : Nat) :
    (lexer.within front tail earlier).location (front.size + first) (front.size + last) =
      (lexer.location first last).below (linesOf front) := by
  have column_within (offset : Nat) :
      (lexer.within front tail earlier).column (front.size + offset) = lexer.column offset := by
    change min (front.size + offset - (front.size + lexer.lineOffset) + 1) maximalColumn = _
    rw [Nat.add_sub_add_left]
    rfl
  rw [location, column_within, column_within]
  rfl

theorem lineShown_own {bytes : Bytes} {anchor : LineAnchor} {location : Location} (width : Nat)
    (on_line : location.line = anchor.line) (inside : anchor.offset ≤ bytes.size) :
    lineShown bytes anchor width location =
      if width = 0 then none
      else some (SourceLine.ofLine (lineOf (bytes.toList.drop anchor.offset)) location.firstColumn
        location.lastColumn width) := by
  obtain ⟨source, searched, -⟩ := SourceLine.answers_search width on_line inside
    (.ofBytes bytes) (Source.opens_ofBytes bytes).serves
  rw [lineShown, searched]
  rfl

theorem lineShown_within (shields : lexer.Shields tail)
    (anchored : lexer.lineOffset ≤ lexer.tape.bytes.size) {location : Location}
    (on_line : location.line = lexer.line) :
    lineShown (lexer.tape.within front tail).bytes (lexer.within front tail earlier).anchor
        lexer.lineWidth (location.below (linesOf front)) =
      lineShown lexer.tape.bytes lexer.anchor lexer.lineWidth location := by
  have anchored_within :
      front.size + lexer.lineOffset ≤ (lexer.tape.within front tail).bytes.size := by
    change _ ≤ (front ++ lexer.tape.bytes ++ tail).size
    rw [Array.size_append, Array.size_append]
    omega
  have on_line_within : (location.below (linesOf front)).line = lexer.line + linesOf front :=
    congrArg (· + linesOf front) on_line
  rw [lineShown_own _ on_line_within anchored_within, lineShown_own _ on_line anchored]
  split
  · rfl
  · rename_i shown
    have line_eq : lineOf ((lexer.tape.within front tail).bytes.toList.drop
        (lexer.within front tail earlier).anchor.offset) =
        lineOf (lexer.tape.bytes.toList.drop lexer.lineOffset) := by
      refine (congrArg lineOf (Cursor.drop_within anchored)).trans ?_
      refine lineOf_append shields.breaks ((shields.kept.resolve_left shown).imp_right ?_)
      intro no_return
      rw [List.getLast?_drop]
      split
      · exact nofun
      · exact no_return
    rw [line_eq]
    rfl

/-- An error is reported with the same source line, further down. -/
theorem diagnostic_within (shields : lexer.Shields tail)
    (anchored : lexer.lineOffset ≤ lexer.tape.bytes.size) (error : LexError) (first last : Nat) :
    (lexer.within front tail earlier).diagnostic error (front.size + first) (front.size + last) =
      (lexer.diagnostic error first last).below (linesOf front) := by
  unfold diagnostic
  rw [location_within]
  exact congrArg (Diagnostic.mk _ _) (lineShown_within shields anchored rfl)

theorem begun_within :
    (lexer.within front tail earlier).begun = lexer.begun.within front tail earlier := by
  unfold begun within Cursor.within
  dsimp only
  split
  · rfl
  · rfl

theorem reported_behind_within (shields : lexer.Shields tail)
    (anchored : lexer.lineOffset ≤ lexer.tape.bytes.size) (piece : Piece) :
    ((lexer.within front tail earlier).behind piece).reported =
      earlier ++ (lexer.behind piece).reported.map (Diagnostic.below (linesOf front)) := by
  unfold behind
  dsimp only
  cases piece.error with
  | none => rfl
  | some error =>
      have diagnostic_eq : (lexer.within front tail earlier).diagnostic error
          (front.size + lexer.tape.marker)
          (front.size + lexer.tape.offset + piece.taken.length) =
          (lexer.diagnostic error lexer.tape.marker
            (lexer.tape.offset + piece.taken.length)).below (linesOf front) := by
        rw [Nat.add_assoc]
        exact diagnostic_within shields anchored error _ _
      dsimp only [Option.elim_some]
      rw [Array.map_push, Array.append_push, ← diagnostic_eq]
      rfl

/-- The same piece has the same effect. -/
theorem behind_within (shields : lexer.Shields tail)
    (anchored : lexer.lineOffset ≤ lexer.tape.bytes.size) (piece : Piece) :
    (lexer.within front tail earlier).behind piece =
      (lexer.behind piece).within front tail earlier := by
  have moved : front.size + lexer.tape.offset + piece.taken.length =
      front.size + (lexer.tape.offset + piece.taken.length) :=
    Nat.add_assoc _ _ _
  have tape_eq : ((lexer.within front tail earlier).behind piece).tape =
      ((lexer.behind piece).within front tail earlier).tape := by
    unfold behind within Cursor.within
    dsimp only
    rw [moved]
    split
    · rfl
    · rfl
  have line_eq : ((lexer.within front tail earlier).behind piece).line =
      ((lexer.behind piece).within front tail earlier).line := by
    change (if piece.breaksLine then lexer.line + linesOf front + 1 else _) =
      (if piece.breaksLine then lexer.line + 1 else _) + linesOf front
    split
    · exact Nat.add_right_comm _ _ _
    · rfl
  have lineOffset_eq : ((lexer.within front tail earlier).behind piece).lineOffset =
      ((lexer.behind piece).within front tail earlier).lineOffset := by
    change (if piece.breaksLine then front.size + lexer.tape.offset + _ else _) =
      front.size + if piece.breaksLine then _ else _
    rw [moved]
    split
    · rfl
    · rfl
  exact (Lexer.mk.injEq ..).mpr ⟨tape_eq, rfl, line_eq, lineOffset_eq, rfl, rfl, rfl, rfl,
    reported_behind_within shields anchored piece⟩

/-- A turn that takes the same piece has the same effect. -/
theorem take_within (shields : lexer.Shields tail)
    (anchored : lexer.lineOffset ≤ lexer.tape.bytes.size) (piece : Piece) :
    (lexer.within front tail earlier).take piece =
      (lexer.take piece).within front tail earlier := by
  have begun_shields : lexer.begun.Shields tail := ⟨shields.breaks, shields.kept⟩
  unfold take
  rw [begun_within, behind_within begun_shields anchored]
  rfl

theorem Tidy.ahead_within (tidy : lexer.Tidy) :
    (lexer.within front tail earlier).tape.ahead = lexer.tape.ahead ++ tail.toList :=
  Cursor.ahead_within tidy.offset_le

theorem Tidy.pending_within (tidy : lexer.Tidy) :
    (lexer.within front tail earlier).pending = lexer.pending := by
  change (if lexer.mode = .badText then (lexer.tape.within front tail).pending else []) = _
  rw [Cursor.pending_within tidy.token_le tidy.offset_le]
  rfl

/-- The next piece is the same, unless the end of the input comes and other bytes are there. -/
theorem piece_within (tidy : lexer.Tidy) (breaks : LineBreak tail.toList)
    (goes_on : lexer.piece.ends = false ∨ tail = #[]) :
    (lexer.within front tail earlier).piece = lexer.piece := by
  change Piece.next lexer.mode lexer.nesting _ _ = _
  rw [tidy.pending_within, tidy.ahead_within]
  rcases goes_on with goes_on | rfl
  · exact Piece.next_append_break breaks goes_on
  · rw [List.append_nil]
    rfl

/-- A turn is the same, unless the end of the input comes and other bytes are there. -/
theorem turn_within (front : Bytes) (earlier : Array Diagnostic) (tidy : lexer.Tidy)
    (shields : lexer.Shields tail) (goes_on : lexer.piece.ends = false ∨ tail = #[]) :
    (lexer.within front tail earlier).piece = lexer.piece ∧
      (lexer.within front tail earlier).take lexer.piece =
        (lexer.take lexer.piece).within front tail earlier :=
  ⟨piece_within tidy shields.breaks goes_on, take_within shields tidy.anchored _⟩

theorem goesOn_within (tidy : lexer.Tidy) (shields : lexer.Shields tail)
    (running : lexer.finished = false) (skips : lexer.piece.lexeme = none)
    (further : Finds ((lexer.take lexer.piece).within front tail earlier) errors lexeme after) :
    Finds (lexer.within front tail earlier) (lexer.piece.error.toList ++ errors) lexeme after := by
  obtain ⟨piece_eq, take_eq⟩ := turn_within front earlier tidy shields
    (.inl (goes_on_of_skips skips))
  rw [← take_eq, ← piece_eq] at further
  rw [← piece_eq] at skips ⊢
  exact .goesOn running skips further

/-- A call comes to the same lexeme, unless that is the end of the input and other bytes are
there. -/
theorem Finds.within (finds : Finds lexer errors lexeme after) (front : Bytes)
    (earlier : Array Diagnostic) (tidy : lexer.Tidy) (shields : lexer.Shields tail)
    (inside : lexeme ≠ .eof ∨ tail = #[]) :
    Finds (lexer.within front tail earlier) errors lexeme (after.within front tail earlier) := by
  induction finds with
  | finished finished => exact .finished finished
  | @completes lexer lexeme running completes =>
      obtain ⟨piece_eq, take_eq⟩ := turn_within front earlier tidy shields
        (inside.imp_left (goes_on_of_token completes))
      rw [← take_eq, ← piece_eq]
      rw [← piece_eq] at completes
      exact .completes running completes
  | goesOn running skips _ induction =>
      apply goesOn_within tidy shields running skips
      exact induction tidy.take ⟨shields.breaks, shields.kept⟩ inside

/-- What a call gives stands further down, behind the errors reported before. -/
theorem reading_within :
    (handOut lexeme (after.within front tail earlier)).1 =
      ⟨(handOut lexeme after).1.token.below (linesOf front), earlier ++
        (handOut lexeme after).1.diagnostics.map (Diagnostic.below (linesOf front))⟩ := by
  have location_eq : (after.within front tail earlier).location
      (after.within front tail earlier).tape.token
      (after.within front tail earlier).tape.offset =
      (after.location after.tape.token after.tape.offset).below (linesOf front) :=
    location_within _ _
  rw [handOut, location_eq]
  rfl

/-- What a call leaves goes on among the same bytes. -/
theorem handOut_within :
    (handOut lexeme (after.within front tail earlier)).2 =
      (handOut lexeme after).2.within front tail #[] := by
  unfold handOut within
  rw [Array.map_empty]
  rfl

end Lexer

end WasmText

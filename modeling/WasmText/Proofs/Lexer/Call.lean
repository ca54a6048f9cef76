import WasmText.Proofs.Location
import WasmText.Proofs.Lexer.Fit
import WasmText.Proofs.Lexer.Turn

/-!
# Calls

A call takes turns until one completes a lexeme. Between any two turns the lexer is tidy: its line
is the one that the bytes passed lead to, and the string that it may be in the middle of is on it.
-/

namespace WasmText

namespace Cursor

/-- The bytes before the cursor. -/
def passed (cursor : Cursor) : List UInt8 :=
  cursor.bytes.toList.take cursor.offset

theorem length_passed {cursor : Cursor} (inside : cursor.offset ≤ cursor.bytes.size) :
    cursor.passed.length = cursor.offset := by
  rw [passed, List.length_take, Array.length_toList, Nat.min_eq_left inside]

theorem passed_append_ahead (cursor : Cursor) :
    cursor.passed ++ cursor.ahead = cursor.bytes.toList :=
  List.take_append_drop _ _

theorem length_passed_add_ahead (cursor : Cursor) :
    cursor.passed.length + cursor.ahead.length = cursor.bytes.size := by
  rw [← List.length_append, passed_append_ahead]
  exact Array.length_toList

end Cursor

namespace Lexer

variable {lexer after : Lexer Cursor} {lexeme : Lexeme} {errors : List LexError}
  {rest : List UInt8}

/-- The lexer with the end of its input as its token. -/
def closed (lexer : Lexer Cursor) : Lexer Cursor :=
  { lexer with tape := Tape.beginToken lexer.tape }

/-- A call comes to a lexeme, and reports errors on the way. -/
inductive Finds : Lexer Cursor → List LexError → Lexeme → Lexer Cursor → Prop
  /-- After a fatal error the input is over. -/
  | finished {lexer : Lexer Cursor} (finished : lexer.finished = true) :
      Finds lexer [] .eof lexer.closed
  | completes {lexer : Lexer Cursor} {lexeme : Lexeme} (running : lexer.finished = false)
      (completes : lexer.piece.lexeme = some lexeme) :
      Finds lexer lexer.piece.error.toList lexeme (lexer.take lexer.piece)
  | goesOn {lexer after : Lexer Cursor} {errors : List LexError} {lexeme : Lexeme}
      (running : lexer.finished = false) (skips : lexer.piece.lexeme = none)
      (further : Finds (lexer.take lexer.piece) errors lexeme after) :
      Finds lexer (lexer.piece.error.toList ++ errors) lexeme after

theorem exists_rest (lexer : Lexer Cursor) :
    ∃ rest, lexer.tape.ahead = lexer.piece.taken ++ rest ∧
      Piece.Fits lexer.nesting lexer.pending lexer.mode lexer.piece rest :=
  Piece.exists_fits _ _ _ _

/-! ### One turn -/

theorem ahead_take (ahead_eq : lexer.tape.ahead = lexer.piece.taken ++ rest) :
    (lexer.take lexer.piece).tape.ahead = rest := by
  change (lexer.tape.moved lexer.piece.taken.length).ahead = rest
  rw [Cursor.ahead_moved, ahead_eq, List.drop_left]

theorem passed_take (ahead_eq : lexer.tape.ahead = lexer.piece.taken ++ rest) :
    (lexer.take lexer.piece).tape.passed = lexer.tape.passed ++ lexer.piece.taken := by
  change lexer.tape.bytes.toList.take (lexer.tape.offset + lexer.piece.taken.length) = _
  rw [List.take_add]
  change _ ++ lexer.tape.ahead.take _ = _
  rw [ahead_eq, List.take_left]
  rfl

theorem pending_of_ne (no_text : lexer.mode ≠ .badText) : lexer.pending = [] :=
  if_neg no_text

theorem begun_token_le (token_le : lexer.tape.token ≤ lexer.tape.offset) :
    lexer.begun.tape.token ≤ lexer.tape.offset := by
  change (if lexer.mode = .badText then lexer.tape.token else lexer.tape.offset) ≤ _
  split
  · exact token_le
  · exact Nat.le_refl _

theorem begun_pending : lexer.begun.tape.pending = lexer.pending := by
  change (lexer.tape.bytes.extract (if lexer.mode = .badText then lexer.tape.token else _)
    lexer.tape.offset).toList = if lexer.mode = .badText then _ else _
  split
  · rfl
  · rw [Array.extract_eq_empty_of_le (Nat.min_le_left _ _)]

theorem piece_begun (lexer : Lexer Cursor) : lexer.begun.piece = lexer.piece := by
  have pending_eq : lexer.begun.pending = lexer.pending := by
    change (if lexer.mode = .badText then lexer.begun.tape.pending else []) = _
    rw [begun_pending]
    by_cases text : lexer.mode = .badText
    · rw [if_pos text]
    · rw [if_neg text, pending_of_ne text]
  change Piece.next lexer.mode lexer.nesting lexer.begun.pending lexer.tape.ahead = _
  rw [pending_eq]
  rfl

theorem take_begun (piece : Piece) (lexer : Lexer Cursor) :
    lexer.begun.take piece = lexer.take piece := by
  have begun_eq : lexer.begun.begun = lexer.begun := by
    unfold begun
    dsimp only
    split
    · rfl
    · rfl
  rw [take, begun_eq]
  rfl

/-- The token after a turn that does not end the input. -/
theorem pending_take (token_le : lexer.tape.token ≤ lexer.tape.offset)
    (ahead_eq : lexer.tape.ahead = lexer.piece.taken ++ rest)
    (goes_on : lexer.piece.ends = false) :
    (lexer.take lexer.piece).tape.pending = lexer.pending ++ lexer.piece.taken := by
  have tape_eq : (lexer.take lexer.piece).tape =
      lexer.begun.tape.moved lexer.piece.taken.length := by
    unfold take behind
    rw [goes_on]
    rfl
  rw [tape_eq, Cursor.pending, Cursor.tokenBytes_moved (begun_token_le token_le), begun_pending]
  change lexer.pending ++ lexer.tape.ahead.take _ = _
  rw [ahead_eq, List.take_left]

/-- The token after a turn that ends the input. -/
theorem pending_take_of_ends (ends : lexer.piece.ends = true) :
    (lexer.take lexer.piece).tape.pending = [] := by
  refine Scan.pending_eq_nil ?_
  unfold take behind
  rw [ends]
  rfl

/-- The bookkeeping of a lexer between two turns. -/
structure Tidy (lexer : Lexer Cursor) : Prop where
  /-- The token starts no further than the cursor. -/
  token_le : lexer.tape.token ≤ lexer.tape.offset
  /-- The cursor is inside the bytes. -/
  offset_le : lexer.tape.offset ≤ lexer.tape.bytes.size
  /-- The line is the one that the cursor is on. -/
  line_eq : lexer.line = Location.lineAfter lexer.tape.passed
  /-- The line's start is known. -/
  lineOffset_eq : lexer.lineOffset = Location.lineStartAfter lexer.tape.passed
  /-- A string in the middle of which the lexer is started on the line. -/
  on_line : Ascii.newline ∉ lexer.pending

theorem Tidy.anchored (tidy : lexer.Tidy) : lexer.lineOffset ≤ lexer.tape.bytes.size := by
  have passed_length := Cursor.length_passed tidy.offset_le
  have offset_le := tidy.offset_le
  rw [tidy.lineOffset_eq, Location.lineStartAfter]
  omega

theorem tidy_ofTape (filename : String) (lineWidth : Nat) (contents : Bytes) :
    (ofTape filename lineWidth (Cursor.ofBytes contents)).Tidy where
  token_le := Nat.le_refl _
  offset_le := Nat.zero_le _
  line_eq := rfl
  lineOffset_eq := rfl
  on_line := List.not_mem_nil

/-- A turn keeps a lexer tidy. -/
theorem Tidy.take (tidy : lexer.Tidy) : (lexer.take lexer.piece).Tidy := by
  obtain ⟨rest, ahead_eq, fits⟩ := lexer.exists_rest
  have passed_eq := passed_take ahead_eq
  have token_le := begun_token_le tidy.token_le
  have taken_le : lexer.tape.offset + lexer.piece.taken.length ≤ lexer.tape.bytes.size := by
    have length_eq := congrArg List.length ahead_eq
    have offset_le := tidy.offset_le
    rw [Cursor.length_ahead, List.length_append] at length_eq
    omega
  refine ⟨?_, taken_le, ?_, ?_, ?_⟩
  · change (if lexer.piece.ends then _ else lexer.begun.tape.token) ≤
      lexer.tape.offset + lexer.piece.taken.length
    split
    · exact Nat.le_refl _
    · exact Nat.le_add_right_of_le token_le
  · change (if lexer.piece.breaksLine then lexer.line + 1 else lexer.line) = _
    rw [passed_eq, tidy.line_eq]
    split
    · rename_i breaks
      obtain ⟨-, -, -, run, taken_eq, on_line⟩ := fits.of_breaksLine breaks
      rw [taken_eq, ← List.append_assoc, Location.lineAfter_newline,
        Location.lineAfter_append on_line]
    · rename_i stays
      rw [Location.lineAfter_append (fits.on_line (by simpa using stays))]
  · change (if lexer.piece.breaksLine then lexer.tape.offset + lexer.piece.taken.length
      else lexer.lineOffset) = _
    rw [passed_eq, tidy.lineOffset_eq]
    split
    · rename_i breaks
      obtain ⟨-, -, -, run, taken_eq, -⟩ := fits.of_breaksLine breaks
      rw [taken_eq, ← List.append_assoc, Location.lineStartAfter_newline, List.length_append,
        List.length_append, Cursor.length_passed tidy.offset_le]
      rfl
    · rename_i stays
      rw [Location.lineStartAfter_append (fits.on_line (by simpa using stays))]
  · change Ascii.newline ∉ (if lexer.piece.mode = .badText then _ else _)
    split
    · rename_i text
      obtain ⟨goes_on, stays⟩ := fits.of_badText text
      rw [pending_take tidy.token_le ahead_eq goes_on, List.mem_append, not_or]
      exact ⟨tidy.on_line, fits.on_line stays⟩
    · exact List.not_mem_nil

/-- A turn that completes a lexeme leaves its bytes as the token. -/
theorem Tidy.token_take (tidy : lexer.Tidy) (completes : lexer.piece.lexeme = some lexeme) :
    Ascii.newline ∉ (lexer.take lexer.piece).tape.pending ∧
      lexeme.Says (lexer.take lexer.piece).tape.pending := by
  obtain ⟨rest, ahead_eq, fits⟩ := lexer.exists_rest
  cases ends : lexer.piece.ends with
  | true =>
      have eof_eq := completes.symm.trans (fits.of_ends ends).1
      cases eof_eq
      rw [pending_take_of_ends ends]
      exact ⟨List.not_mem_nil, rfl, rfl⟩
  | false =>
      have stays : lexer.piece.breaksLine = false := by
        rw [← Bool.not_eq_true]
        intro breaks
        cases completes.symm.trans (fits.of_breaksLine breaks).1
      rw [pending_take tidy.token_le ahead_eq ends, List.mem_append, not_or]
      exact ⟨⟨tidy.on_line, fits.on_line stays⟩, fits.meaning completes ends pending_of_ne⟩

/-! ### Whole calls -/

theorem pending_closed (lexer : Lexer Cursor) : lexer.closed.tape.pending = [] :=
  Scan.pending_eq_nil rfl

theorem Tidy.closed (tidy : lexer.Tidy) : lexer.closed.Tidy where
  token_le := Nat.le_refl _
  offset_le := tidy.offset_le
  line_eq := tidy.line_eq
  lineOffset_eq := tidy.lineOffset_eq
  on_line := by
    change Ascii.newline ∉ (if lexer.mode = .badText then lexer.closed.tape.pending else [])
    rw [pending_closed, ite_self]
    exact List.not_mem_nil

/-- What a call finds does not depend on where the token and the marker were before. -/
theorem Finds.of_begun (finds : Finds lexer.begun errors lexeme after)
    (running : lexer.finished = false) : Finds lexer errors lexeme after := by
  have piece_eq := lexer.piece_begun
  generalize begun_eq : lexer.begun = begun at finds piece_eq
  cases finds with
  | finished finished =>
      subst begun_eq
      cases running.symm.trans finished
  | completes _ completes =>
      subst begun_eq
      rw [piece_eq] at completes ⊢
      rw [take_begun]
      exact .completes running completes
  | goesOn _ skips further =>
      subst begun_eq
      rw [piece_eq] at skips further ⊢
      rw [take_begun] at further
      exact .goesOn running skips further

theorem Finds.tidy (finds : Finds lexer errors lexeme after) (tidy : lexer.Tidy) : after.Tidy := by
  induction finds with
  | finished => exact tidy.closed
  | completes => exact tidy.take
  | goesOn _ _ _ induction => exact induction tidy.take

/-- The token of a call is on one line and its lexeme says what it is. -/
theorem Finds.token (finds : Finds lexer errors lexeme after) (tidy : lexer.Tidy) :
    Ascii.newline ∉ after.tape.pending ∧ lexeme.Says after.tape.pending := by
  induction finds with
  | finished =>
      rw [pending_closed]
      exact ⟨List.not_mem_nil, rfl, rfl⟩
  | completes _ completes => exact tidy.token_take completes
  | goesOn _ _ _ induction => exact induction tidy.take

/-- The input stays the same. -/
theorem Finds.bytes_eq (finds : Finds lexer errors lexeme after) :
    after.tape.bytes = lexer.tape.bytes ∧ after.filename = lexer.filename := by
  induction finds with
  | finished | completes => exact ⟨rfl, rfl⟩
  | goesOn _ _ _ induction => exact induction

theorem Finds.lineWidth_eq (finds : Finds lexer errors lexeme after) :
    after.lineWidth = lexer.lineWidth := by
  induction finds with
  | finished | completes => rfl
  | goesOn _ _ _ induction => exact induction

/-- A turn reports at most one error, at the bytes that it takes. -/
theorem reported_take (lexer : Lexer Cursor) :
    (lexer.take lexer.piece).reported.toList =
      lexer.reported.toList ++ lexer.piece.error.toList.map fun error =>
        lexer.begun.diagnostic error lexer.tape.offset
          (lexer.tape.offset + lexer.piece.taken.length) := by
  change (lexer.piece.error.elim lexer.reported _).toList = _
  cases lexer.piece.error with
  | none => exact (List.append_nil _).symm
  | some error => exact Array.toList_push

/-- A call adds its errors to those that are there. -/
theorem Finds.reported (finds : Finds lexer errors lexeme after) :
    ∃ further, after.reported.toList = lexer.reported.toList ++ further ∧
      further.map Diagnostic.message = errors.map LexError.message := by
  have turn_reports (lexer : Lexer Cursor) :
      ∃ further, (lexer.take lexer.piece).reported.toList = lexer.reported.toList ++ further ∧
        further.map Diagnostic.message = lexer.piece.error.toList.map LexError.message := by
    refine ⟨_, reported_take lexer, ?_⟩
    rw [List.map_map]
    rfl
  induction finds with
  | finished => exact ⟨[], (List.append_nil _).symm, rfl⟩
  | completes => exact turn_reports _
  | @goesOn lexer _ _ _ _ _ _ induction =>
      obtain ⟨further, reported_eq, messages⟩ := turn_reports lexer
      obtain ⟨others, others_eq, other_messages⟩ := induction
      refine ⟨further ++ others, ?_, ?_⟩
      · rw [others_eq, reported_eq, List.append_assoc]
      · rw [List.map_append, List.map_append, messages, other_messages]

theorem Finds.messages (finds : Finds lexer errors lexeme after) :
    after.reported.toList.map Diagnostic.message =
      lexer.reported.toList.map Diagnostic.message ++ errors.map LexError.message := by
  obtain ⟨further, reported_eq, messages⟩ := finds.reported
  rw [reported_eq, List.map_append, messages]

theorem goes_on_of_skips (skips : lexer.piece.lexeme = none) : lexer.piece.ends = false := by
  obtain ⟨rest, -, fits⟩ := lexer.exists_rest
  exact fits.goes_on_of_skips skips

theorem goes_on_of_token (completes : lexer.piece.lexeme = some lexeme) (token : lexeme ≠ .eof) :
    lexer.piece.ends = false := by
  obtain ⟨rest, -, fits⟩ := lexer.exists_rest
  rw [← Bool.not_eq_true]
  intro ends
  exact token (Option.some.inj (completes.symm.trans (fits.of_ends ends).1))

/-- Where the input ends without a fatal error, any lexeme might have come or a line comment have
gone on. -/
theorem mode_of_take (ends : lexer.piece.ends = true)
    (going : (lexer.take lexer.piece).finished = false) :
    lexer.piece.mode = lexer.mode ∧
      (lexer.mode = .normal ∧ lexer.piece.taken = [] ∨ lexer.mode = .lineComment) := by
  obtain ⟨rest, -, fits⟩ := lexer.exists_rest
  rcases fits.cases_of_ends ends with ⟨error, reported, unclosed⟩ | ⟨-, cases⟩
  · change (lexer.piece.error.elim lexer.finished fun error => lexer.finished || error.isFatal) =
      false at going
    rw [reported, Option.elim_some, unclosed.isFatal, Bool.or_true] at going
    cases going
  · exact cases

/-- Only the end of the input is completed without a byte. -/
theorem kind_ne_eof (completes : lexer.piece.lexeme = some lexeme)
    (goes_on : lexer.piece.ends = false) : lexeme.kind ≠ .eof := by
  intro kind_eq
  obtain ⟨rest, -, fits⟩ := lexer.exists_rest
  have meaning := fits.meaning completes goes_on pending_of_ne
  rw [Lexeme.Says, kind_eq] at meaning
  exact fits.nonempty goes_on (List.append_eq_nil_iff.mp meaning.2).2

/-- A turn that does not end the input brings the end closer. -/
theorem length_ahead_take_lt (goes_on : lexer.piece.ends = false) :
    (lexer.take lexer.piece).tape.ahead.length < lexer.tape.ahead.length := by
  obtain ⟨rest, ahead_eq, fits⟩ := lexer.exists_rest
  have positive := List.length_pos_iff.mpr (fits.nonempty goes_on)
  rw [ahead_take ahead_eq, ahead_eq, List.length_append]
  omega

theorem run_lexemeWithin {steps : Nat} (tidy : lexer.Tidy) (running : lexer.finished = false) :
    Scan.lexemeWithin (steps + 1) lexer =
      lexer.piece.lexeme.elim (Scan.lexemeWithin steps) pure (lexer.take lexer.piece) := by
  rw [Scan.lexemeWithin_succ running, Scan.run_turn tidy.token_le]
  rfl

/-- There are always turns enough. -/
theorem finds_lexemeWithin {steps : Nat} (tidy : lexer.Tidy)
    (enough : lexer.tape.ahead.length < steps) :
    ∃ errors, Finds lexer errors (Scan.lexemeWithin steps lexer).1
      (Scan.lexemeWithin steps lexer).2 := by
  induction steps generalizing lexer with
  | zero => exact absurd enough (Nat.not_lt_zero _)
  | succ steps induction =>
      cases running : lexer.finished with
      | true =>
          have at_end : Scan.lexemeWithin (steps + 1) lexer = (.eof, lexer.closed) := by
            unfold Scan.lexemeWithin
            change (if lexer.finished = true then _ else _ : Scan Cursor Lexeme) lexer = _
            rw [if_pos running]
            rfl
          rw [at_end]
          exact ⟨[], .finished running⟩
      | false =>
          rw [run_lexemeWithin tidy running]
          cases completes : lexer.piece.lexeme with
          | some lexeme => exact ⟨_, .completes running completes⟩
          | none =>
              have shorter := length_ahead_take_lt (goes_on_of_skips completes)
              obtain ⟨errors, finds⟩ := induction tidy.take (by omega)
              exact ⟨_, .goesOn running completes finds⟩

/-- What a call gives for the lexeme that it has come to. -/
def handOut (lexeme : Lexeme) (after : Lexer Cursor) : Reading × Lexer Cursor :=
  ({ token := {
      kind := lexeme.kind
      payload := lexeme.payload
      location := after.location after.tape.token after.tape.offset }
     diagnostics := after.reported },
    { after with reported := #[] })

theorem exists_finds (tidy : lexer.Tidy) :
    ∃ errors lexeme after, Finds lexer errors lexeme after ∧ lexer.next = handOut lexeme after := by
  have enough : lexer.tape.ahead.length < Tape.remaining lexer.tape + 1 := by
    rw [Cursor.length_ahead]
    exact Nat.lt_succ_self _
  obtain ⟨errors, finds⟩ := finds_lexemeWithin tidy enough
  exact ⟨errors, _, _, finds, rfl⟩

theorem Tidy.handOut (tidy : after.Tidy) : (handOut lexeme after).2.Tidy :=
  ⟨tidy.token_le, tidy.offset_le, tidy.line_eq, tidy.lineOffset_eq, tidy.on_line⟩

/-- A lexer stays tidy from call to call. -/
theorem Tidy.next (tidy : lexer.Tidy) : lexer.next.2.Tidy := by
  obtain ⟨errors, lexeme, after, finds, next_eq⟩ := exists_finds tidy
  rw [next_eq]
  exact (finds.tidy tidy).handOut

end Lexer

end WasmText

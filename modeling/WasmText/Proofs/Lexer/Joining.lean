import WasmText.Proofs.Lexer.Bare
import WasmText.Proofs.Lexer.Reads
import WasmText.Proofs.Lexer.Stretch
import WasmText.Proofs.Lexer.Within

/-!
# Joining inputs at a line break

Two inputs with a newline between them are read as the one and then as the other. At the newline a
lexer is where it is at the start of an input, unless the first input ends inside of a string or a
block comment.
-/

namespace WasmText

/-- What is read is the tokens of one input without the end and then those of another, so many lines
further down, and the errors of the one and then of the other likewise. -/
structure Joined (lines : Nat) (above below whole : List Reading) : Prop where
  /-- The tokens. -/
  tokens_eq : tokensOf whole = (tokensOf above).filter (fun token => !token.isEof) ++
    (tokensOf below).map (Token.below lines)
  /-- The errors. -/
  errors_eq : errorsOf whole = errorsOf above ++ (errorsOf below).map (Diagnostic.below lines)

/-- No error says that the input ended inside of a string or a block comment. -/
def Calm (readings : List Reading) : Prop :=
  ∀ diagnostic ∈ errorsOf readings,
    diagnostic.message ≠ LexError.unexpectedEofInString.message ∧
      diagnostic.message ≠ LexError.unterminatedBlockComment.message

instance (readings : List Reading) : Decidable (Calm readings) :=
  inferInstanceAs (Decidable (∀ diagnostic ∈ errorsOf readings, _ ∧ _))

namespace Lexer

variable {lexer after last : Lexer Cursor} {lexeme : Lexeme} {errors others : List LexError}
  {readings further : List Reading} {front back tail : Bytes} {earlier : Array Diagnostic}

/-! ### The end of the first input -/

/-- The lexer with a newline and further bytes behind its own. -/
def extended (back : Bytes) (lexer : Lexer Cursor) : Lexer Cursor :=
  lexer.within #[] (#[Ascii.newline] ++ back) #[]

/-- The lexer behind its bytes and a newline, with the same errors reported. -/
def resumed (back : Bytes) (lexer : Lexer Cursor) : Lexer Cursor :=
  (plain lexer.filename lexer.lineWidth back).within (lexer.tape.bytes ++ #[Ascii.newline]) #[]
    lexer.reported

/-- A lexer the bytes of which may be followed by others. -/
structure Extendable (tail : Bytes) (lexer : Lexer Cursor) : Prop
    extends Tidy lexer, Shields tail lexer where
  /-- No fatal error has been reported. -/
  running : lexer.finished = false
  /-- Outside of block comments none is counted. -/
  unnested : lexer.mode ≠ .blockComment → lexer.nesting = 0

theorem Extendable.take (extendable : lexer.Extendable tail)
    (goes_on : lexer.piece.ends = false) : (lexer.take lexer.piece).Extendable tail := by
  obtain ⟨rest, -, fits⟩ := lexer.exists_rest
  exact
    { extendable.toTidy.take with
      breaks := extendable.breaks
      kept := extendable.kept
      running := running_take extendable.running goes_on
      unnested := fits.nesting_eq extendable.unnested }

theorem piece_extended (tidy : lexer.Tidy) (ends : lexer.piece.ends = true)
    (silent : lexer.piece.error = none) (back : Bytes) :
    (lexer.extended back).piece =
      { taken := lexer.tape.ahead ++ [Ascii.newline], mode := .normal, nesting := lexer.nesting
        breaksLine := true } := by
  change Piece.next lexer.mode lexer.nesting (lexer.extended back).pending
    (lexer.extended back).tape.ahead = _
  rw [extended, tidy.pending_within, tidy.ahead_within, Array.toList_append]
  exact Piece.next_append_newline ends silent

/-- Where the first input ends in silence, no line and no block comment goes on. -/
theorem Extendable.at_end (extendable : lexer.Extendable tail) (ends : lexer.piece.ends = true)
    (silent : lexer.piece.error = none) :
    Ascii.newline ∉ lexer.tape.ahead ∧ lexer.nesting = 0 := by
  obtain ⟨rest, ahead_eq, fits⟩ := lexer.exists_rest
  obtain ⟨-, rfl, -, stays⟩ := fits.of_ends ends
  constructor
  · rw [ahead_eq, List.append_nil]
    exact fits.on_line stays
  · apply extendable.unnested
    rcases fits.cases_of_ends ends with ⟨error, reported, -⟩ | ⟨-, -, ⟨normal, -⟩ | comment⟩
    · cases silent.symm.trans reported
    · simp [normal]
    · simp [comment]

theorem Tidy.lines_ahead (tidy : lexer.Tidy) (on_line : Ascii.newline ∉ lexer.tape.ahead) :
    lexer.line + 1 = 1 + linesOf (lexer.tape.bytes ++ #[Ascii.newline]) := by
  have ahead_lines : lexer.tape.ahead.count Ascii.newline = 0 :=
    List.count_eq_zero_of_not_mem on_line
  have newline_lines : (#[Ascii.newline] : Bytes).toList.count Ascii.newline = 1 := rfl
  rw [tidy.line_eq, Location.lineAfter, linesOf, Array.toList_append, List.count_append,
    ← lexer.tape.passed_append_ahead, List.count_append, ahead_lines, newline_lines]
  omega

/-- Where the first input ends in silence, a turn takes the newline, and behind it the second input
begins. -/
theorem Extendable.turn_newline (extendable : lexer.Extendable tail)
    (ends : lexer.piece.ends = true) (silent : lexer.piece.error = none) (back : Bytes) :
    ((lexer.extended back).take (lexer.extended back).piece).begun =
        (lexer.take lexer.piece).resumed back := by
  obtain ⟨on_line, unnested⟩ := extendable.at_end ends silent
  have bytes_eq : #[] ++ lexer.tape.bytes ++ (#[Ascii.newline] ++ back) =
      lexer.tape.bytes ++ #[Ascii.newline] ++ back ++ #[] := by
    simp
  have offset_eq : (#[] : Bytes).size + lexer.tape.offset +
      (lexer.tape.ahead ++ [Ascii.newline]).length =
      (lexer.tape.bytes ++ #[Ascii.newline]).size := by
    have ahead_length := lexer.tape.length_ahead
    have offset_le := extendable.offset_le
    simp only [Array.size_append, List.length_append, List.length_singleton, List.size_toArray,
      List.length_nil]
    omega
  have reported_eq : #[] ++ lexer.reported.map (Diagnostic.below 0) =
      (lexer.take lexer.piece).reported ++ #[].map (Diagnostic.below
        (linesOf (lexer.tape.bytes ++ #[Ascii.newline]))) := by
    have no_more : (lexer.take lexer.piece).reported = lexer.reported := by
      rw [← Array.toList_inj, reported_take, silent]
      exact List.append_nil _
    simp [no_more, Diagnostic.below_zero]
  have tape_eq : ((lexer.extended back).take (lexer.extended back).piece).begun.tape =
      ((lexer.take lexer.piece).resumed back).tape := by
    rw [piece_extended extendable.toTidy ends silent]
    exact (Cursor.mk.injEq ..).mpr ⟨bytes_eq, offset_eq, offset_eq, offset_eq⟩
  rw [piece_extended extendable.toTidy ends silent] at tape_eq ⊢
  exact (Lexer.mk.injEq ..).mpr ⟨tape_eq, rfl, extendable.lines_ahead on_line, offset_eq, unnested,
    rfl, extendable.running, rfl, reported_eq⟩

/-- The call that would come to the end of the first input finds what the first call over the second
input finds. -/
theorem Finds.joined (finds : Finds lexer errors .eof after)
    (extendable : lexer.Extendable (#[Ascii.newline] ++ back))
    (calm : ∀ error ∈ errors, ¬ error.IsUnclosed)
    (further : Finds (after.resumed back) others lexeme last) :
    Finds (lexer.extended back) (errors ++ others) lexeme last := by
  generalize eof : Lexeme.eof = found at finds
  induction finds with
  | finished finished => cases extendable.running.symm.trans finished
  | @completes lexer found running completes =>
      subst eof
      obtain ⟨rest, -, fits⟩ := lexer.exists_rest
      have ends := fits.ends_of_eof pending_of_ne completes
      have silent : lexer.piece.error = none := by
        rcases fits.cases_of_ends ends with ⟨error, reported, unclosed⟩ | ⟨silent, -⟩
        · exact absurd unclosed (calm error (Option.mem_toList.mpr reported))
        · exact silent
      rw [← extendable.turn_newline ends silent] at further
      have piece_eq := piece_extended extendable.toTidy ends silent back
      have still_running :
          ((lexer.extended back).take (lexer.extended back).piece).finished = false := by
        rw [piece_eq]
        exact extendable.running
      have found : Finds (lexer.extended back)
          ((lexer.extended back).piece.error.toList ++ others) lexeme last :=
        .goesOn extendable.running (by rw [piece_eq]) (further.of_begun still_running)
      rw [piece_eq] at found
      rw [silent]
      exact found
  | @goesOn lexer after errors found _ skips _ induction =>
      rw [List.append_assoc]
      apply goesOn_within extendable.toTidy extendable.toShields extendable.running skips
      refine induction (extendable.take (goes_on_of_skips skips)) ?_ further eof
      exact fun error present => calm error (List.mem_append_right _ present)

/-! ### Readings -/

/-- Bytes that are the last are read as they are without the bytes before, further down. -/
theorem Reads.within (reads : Reads lexer readings) (front : Bytes) (earlier : Array Diagnostic)
    (tidy : lexer.Tidy) :
    ∃ whole, Reads (lexer.within front #[] earlier) whole ∧
      tokensOf whole = (tokensOf readings).map (Token.below (linesOf front)) ∧
      errorsOf whole =
        earlier.toList ++ (errorsOf readings).map (Diagnostic.below (linesOf front)) := by
  induction reads generalizing earlier with
  | last finds =>
      have found := finds.within front earlier tidy (shields_empty _) (.inr rfl)
      refine ⟨_, .last found, ?_⟩
      rw [reading_within]
      constructor
      · rfl
      · simp [errorsOf]
  | more finds token _ induction =>
      obtain ⟨whole, whole_reads, tokens_eq, errors_eq⟩ :=
        induction #[] (finds.tidy tidy).handOut
      have found := finds.within front earlier tidy (shields_empty _) (.inr rfl)
      rw [← handOut_within] at whole_reads
      refine ⟨_, .more found token whole_reads, ?_⟩
      rw [reading_within]
      constructor
      · simp [tokens_eq]
      · simp [errors_eq]

theorem Finds.extendable (finds : Finds lexer errors lexeme after) (token : lexeme ≠ .eof)
    (extendable : lexer.Extendable tail) : after.Extendable tail := by
  induction finds with
  | finished => exact absurd rfl token
  | completes _ completes => exact extendable.take (goes_on_of_token completes token)
  | goesOn _ skips _ induction =>
      exact induction token (extendable.take (goes_on_of_skips skips))

theorem Extendable.handOut (extendable : after.Extendable tail) :
    (handOut lexeme after).2.Extendable tail :=
  { extendable.toTidy.handOut with
    breaks := extendable.breaks
    kept := extendable.kept
    running := extendable.running
    unnested := extendable.unnested }

theorem Finds.calm (finds : Finds lexer errors lexeme after)
    (calm : Calm ((handOut lexeme after).1 :: readings)) :
    ∀ error ∈ errors, ¬ error.IsUnclosed := by
  intro error present unclosed
  have message_mem : error.message ∈ after.reported.toList.map Diagnostic.message := by
    rw [finds.messages]
    exact List.mem_append_right _ (List.mem_map_of_mem present)
  obtain ⟨diagnostic, reported, same⟩ := List.mem_map.mp message_mem
  obtain ⟨no_string, no_comment⟩ := calm diagnostic (List.mem_append_left _ reported)
  rcases unclosed with rfl | rfl
  · exact no_string same
  · exact no_comment same

/-- A lexer with further bytes behind the next newline reads on there. -/
theorem Reads.joined (reads : Reads lexer readings)
    (extendable : lexer.Extendable (#[Ascii.newline] ++ back)) (calm : Calm readings)
    (below : Reads (plain lexer.filename lexer.lineWidth back) further) :
    ∃ whole, Reads (lexer.extended back) whole ∧
      Joined (linesOf (lexer.tape.bytes ++ #[Ascii.newline])) readings further whole := by
  induction reads with
  | @last lexer after errors finds =>
      obtain ⟨whole, whole_reads, tokens_eq, errors_eq⟩ :=
        below.within (lexer.tape.bytes ++ #[Ascii.newline]) after.reported (tidy_ofTape _ _ _)
      have resumed_eq : after.resumed back = (plain lexer.filename lexer.lineWidth back).within
          (lexer.tape.bytes ++ #[Ascii.newline]) #[] after.reported := by
        rw [resumed, finds.bytes_eq.1, finds.bytes_eq.2, finds.lineWidth_eq]
      rw [← resumed_eq] at whole_reads
      refine ⟨whole, whole_reads.of_finds fun found =>
        ⟨_, finds.joined extendable (finds.calm calm) found⟩, ?_, ?_⟩
      · rw [tokens_eq]
        rfl
      · rw [errors_eq, errorsOf_cons]
        exact congrArg (· ++ _) (List.append_nil _).symm
  | @more lexer after errors lexeme readings finds token _ induction =>
      have found := finds.within #[] #[] extendable.toTidy extendable.toShields (.inl token)
      have next_below : Reads (plain after.filename after.lineWidth back) further := by
        rw [finds.bytes_eq.2, finds.lineWidth_eq]
        exact below
      obtain ⟨whole, whole_reads, joined⟩ :=
        induction (finds.extendable token extendable).handOut
          (fun diagnostic present => calm diagnostic (List.mem_append_right _ present)) next_below
      have lines_eq : linesOf ((handOut lexeme after).2.tape.bytes ++ #[Ascii.newline]) =
          linesOf (lexer.tape.bytes ++ #[Ascii.newline]) :=
        congrArg (fun bytes : Bytes => linesOf (bytes ++ #[Ascii.newline])) finds.bytes_eq.1
      have no_eof : (handOut lexeme after).1.token.isEof = false :=
        Bool.eq_false_iff.mpr (mt (finds.isEof_iff extendable.toTidy).mp token)
      have no_lines : linesOf #[] = 0 := rfl
      rw [extended, ← handOut_within] at whole_reads
      rw [lines_eq] at joined
      refine ⟨_, .more found token whole_reads, ?_⟩
      rw [reading_within, no_lines, Token.below_zero, Diagnostic.below_zero]
      constructor
      · simp [joined.tokens_eq, no_eof]
      · simp [joined.errors_eq]

theorem extendable_plain (filename : String) {lineWidth : Nat} (back : Bytes)
    (kept : lineWidth = 0 ∨ front.toList.getLast? ≠ some Ascii.carriageReturn) :
    (plain filename lineWidth front).Extendable (#[Ascii.newline] ++ back) :=
  { tidy_ofTape filename lineWidth front with
    breaks := by
      rw [Array.toList_append]
      exact Piece.lineBreak_cons _
    kept := kept.imp_right .inr
    running := rfl
    unnested := fun _ => rfl }

theorem extended_plain (filename : String) (lineWidth : Nat) (front back : Bytes) :
    (plain filename lineWidth front).extended back =
      plain filename lineWidth (front ++ #[Ascii.newline] ++ back) := by
  have bytes_eq : #[] ++ front ++ (#[Ascii.newline] ++ back) =
      front ++ #[Ascii.newline] ++ back := by
    simp
  have tape_eq : (Cursor.ofBytes front).within #[] (#[Ascii.newline] ++ back) =
      Cursor.ofBytes (front ++ #[Ascii.newline] ++ back) :=
    (Cursor.mk.injEq ..).mpr ⟨bytes_eq, rfl, rfl, rfl⟩
  have reported_eq : (#[] : Array Diagnostic) ++ #[].map (Diagnostic.below 0) = #[] := by
    simp
  exact (Lexer.mk.injEq ..).mpr ⟨tape_eq, rfl, rfl, rfl, rfl, rfl, rfl, rfl, reported_eq⟩

/-- Over cursors two inputs with a newline between them are read one after the other. -/
theorem joined_plain (filename : String) {lineWidth : Nat} (front back : Bytes)
    (kept : lineWidth = 0 ∨ front.toList.getLast? ≠ some Ascii.carriageReturn)
    (calm : Calm (plain filename lineWidth front).readings.1.toList) :
    Joined (front.toList.count Ascii.newline + 1)
      (plain filename lineWidth front).readings.1.toList
      (plain filename lineWidth back).readings.1.toList
      (plain filename lineWidth (front ++ #[Ascii.newline] ++ back)).readings.1.toList := by
  have reads (contents : Bytes) : Reads (plain filename lineWidth contents)
      (plain filename lineWidth contents).readings.1.toList :=
    reads_readings (tidy_ofTape filename lineWidth contents)
  have lines_eq : linesOf (front ++ #[Ascii.newline]) = front.toList.count Ascii.newline + 1 := by
    simp [linesOf]
  obtain ⟨whole, whole_reads, joined⟩ :=
    (reads front).joined (extendable_plain filename back kept) calm (reads back)
  rw [extended_plain] at whole_reads
  rw [← lines_eq, (reads (front ++ #[Ascii.newline] ++ back)).unique whole_reads]
  exact joined

/-! ### Over sources -/

theorem errorsOf_bare (readings : List Reading) :
    errorsOf (readings.map Reading.bare) = (errorsOf readings).map Diagnostic.bare := by
  simp [errorsOf, List.flatMap_map, List.map_flatMap, Reading.bare]

theorem calm_bare (calm : Calm readings) : Calm (readings.map Reading.bare) := by
  intro diagnostic present
  rw [errorsOf_bare] at present
  obtain ⟨full, reported, rfl⟩ := List.mem_map.mp present
  exact calm full reported

/-- Lexing is compositional at line breaks. Two inputs with a newline between them are read one
after the other, the second as many lines further down as the first one has, if the first does not
end inside of a string or a block comment and no refill fails. The source lines of the errors are
the same too, unless a carriage return before the newline is taken for a part of the line's end. -/
theorem readings_joined {first second joined : Source} {front back : Bytes}
    (first_opens : first.Opens front) (second_opens : second.Opens back)
    (joined_opens : joined.Opens (front ++ #[Ascii.newline] ++ back)) (filename : String)
    (lineWidth first_size first_bound second_size second_bound joined_size joined_bound : Nat)
    (calm : Calm (opened filename lineWidth first first_size first_bound).readings.1.toList)
    (first_flowing :
      (opened filename lineWidth first first_size first_bound).readings.2.tape.stalled = false)
    (second_flowing :
      (opened filename lineWidth second second_size second_bound).readings.2.tape.stalled = false)
    (joined_flowing :
      (opened filename lineWidth joined joined_size joined_bound).readings.2.tape.stalled =
        false) :
    let lines := front.toList.count Ascii.newline + 1
    let above := (opened filename lineWidth first first_size first_bound).readings.1.toList
    let below := (opened filename lineWidth second second_size second_bound).readings.1.toList
    let whole := (opened filename lineWidth joined joined_size joined_bound).readings.1.toList
    Joined lines (above.map Reading.bare) (below.map Reading.bare) (whole.map Reading.bare) ∧
      (front.toList.getLast? ≠ some Ascii.carriageReturn → Joined lines above below whole) := by
  intro lines above below whole
  constructor
  · have calm_above := calm_bare calm
    rw [← readings_eq_bare first_opens filename lineWidth first_size first_bound first_flowing]
      at calm_above
    have joined_bare := joined_plain filename front back (.inl rfl) calm_above
    rw [readings_eq_bare first_opens filename lineWidth first_size first_bound first_flowing,
      readings_eq_bare second_opens filename lineWidth second_size second_bound second_flowing,
      readings_eq_bare joined_opens filename lineWidth joined_size joined_bound joined_flowing]
      at joined_bare
    exact joined_bare
  · intro no_return
    rw [← readings_eq_plain first_opens filename lineWidth first_size first_bound first_flowing]
      at calm
    have joined_exactly := joined_plain filename front back (.inr no_return) calm
    rw [readings_eq_plain first_opens filename lineWidth first_size first_bound first_flowing,
      readings_eq_plain second_opens filename lineWidth second_size second_bound second_flowing,
      readings_eq_plain joined_opens filename lineWidth joined_size joined_bound joined_flowing]
      at joined_exactly
    exact joined_exactly

/-- A stray semicolon and a line comment before the newline, a comma and a name after it, from
windows of one byte, of two and of three. -/
theorem readings_joined_lineComment :
    Joined 1
      (opened "a.wast" 80 (.ofBytes "; ;;".toUTF8.data) 1 4096).readings.1.toList
      (opened "a.wast" 80 (.ofBytes ", $a".toUTF8.data) 2 4096).readings.1.toList
      (opened "a.wast" 80 (.ofBytes "; ;;\n, $a".toUTF8.data) 3 4096).readings.1.toList :=
  have opens : (Source.ofBytes "; ;;\n, $a".toUTF8.data).Opens
      ("; ;;".toUTF8.data ++ #[Ascii.newline] ++ ", $a".toUTF8.data) :=
    Source.opens_ofBytes _
  (readings_joined (Source.opens_ofBytes "; ;;".toUTF8.data)
    (Source.opens_ofBytes ", $a".toUTF8.data) opens "a.wast" 80 1 4096 2 4096 3 4096
    (by decide +kernel) (by decide +kernel) (by decide +kernel) (by decide +kernel)).2
    (by decide +kernel)

end Lexer

end WasmText

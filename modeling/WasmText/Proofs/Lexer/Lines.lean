import WasmText.Proofs.Lexer.Call
import WasmText.Proofs.Lexer.Refinement

/-!
# Lines and columns

The line of a lexer counts the newlines that it has passed, and columns count from the last of them.
So a token is found again at its location, and so are the bytes that an error is about.
-/

namespace WasmText

/-! ### Turns over a buffer -/

namespace Scan

variable {contents : Bytes} {lexer : Lexer Buffer}

theorem tracks_turn : Tracks contents turn turn :=
  simulation_tracks.turn

theorem tracks_goOn (steps : Nat) (completed : Option Lexeme) :
    Tracks contents (goOn steps completed) (goOn steps completed) :=
  simulation_tracks.goOn tracks_takeFailure steps completed

/-- Without a failure a call goes on after a turn that completes nothing. -/
theorem run_goOn (sound : lexer.Sound contents) (flowing : lexer.tape.stalled = false)
    (steps : Nat) : goOn steps none lexer = lexemeWithin steps lexer := by
  rw [goOn, run_bind, stopOnFailure_of_flowing sound.shows flowing]
  rfl

/-- A call in which no refill fails begins with a turn in which none fails. -/
theorem flowing_of_lexemeWithin {steps : Nat} (sound : lexer.Sound contents)
    (running : lexer.finished = false)
    (flowing : (lexemeWithin (steps + 1) lexer).2.tape.stalled = false) :
    (turn lexer).2.tape.stalled = false ∧
      ((turn lexer).1 = none → (lexemeWithin steps (turn lexer).2).2.tape.stalled = false) := by
  have turned := tracks_turn lexer sound
  rw [lexemeWithin_succ running] at flowing
  have turn_flowing := ((tracks_goOn steps _ _ turned.sound).agrees flowing).1
  refine ⟨turn_flowing, fun skips => ?_⟩
  rw [skips, run_goOn turned.sound turn_flowing] at flowing
  exact flowing

end Scan

namespace Lexer

variable {lexer after : Lexer Cursor} {lexeme : Lexeme} {errors : List LexError}

/-- A lexer takes turns that complete nothing. -/
inductive Skips : Lexer Buffer → Lexer Buffer → Prop
  | refl (lexer : Lexer Buffer) : Skips lexer lexer
  | turn {lexer last : Lexer Buffer} (running : lexer.finished = false)
      (skips : (Scan.turn lexer).1 = none) (further : Skips (Scan.turn lexer).2 last) :
      Skips lexer last

/-- An error of a call stands at the bytes from where a turn of it began to where the turn got. -/
structure Blames (contents : Bytes) (before : Lexer Buffer) (diagnostic : Diagnostic)
    (begun : Lexer Buffer) (span : List UInt8) : Prop where
  /-- The turn is one of the call. -/
  skips : Skips before begun
  /-- The turn is taken. -/
  running : begun.finished = false
  /-- It reports the error. -/
  reports : (Scan.turn begun).2.reported = begun.reported.push diagnostic
  /-- It covers the bytes up to the cursor. -/
  span_eq : span =
    (contents.extract begun.tape.cursor (Scan.turn begun).2.tape.cursor).toList
  /-- That is where the error is. -/
  location_eq : diagnostic.location =
    Location.ofSpan before.filename (contents.toList.take begun.tape.cursor) span
  /-- A newline is covered only where it is the error. -/
  on_line : Ascii.newline ∈ span →
    diagnostic.message = LexError.newlineInString.message ∧ span = [Ascii.newline]

theorem column_eq {passed : List UInt8} {distance : Nat}
    (lineOffset_eq : lexer.lineOffset = Location.lineStartAfter passed)
    (small : passed.length + distance < maximalColumn) :
    lexer.column (passed.length + distance) = (Location.onLine passed).length + distance + 1 := by
  have line_le := Location.length_onLine_le passed
  rw [column, lineOffset_eq, Location.lineStartAfter]
  omega

/-- The location that a lexer gives to a stretch of bytes on its line. -/
theorem location_eq_ofSpan {passed span : List UInt8}
    (line_eq : lexer.line = Location.lineAfter passed)
    (lineOffset_eq : lexer.lineOffset = Location.lineStartAfter passed)
    (small : passed.length + span.length < maximalColumn) :
    lexer.location passed.length (passed.length + span.length) =
      Location.ofSpan lexer.filename passed span := by
  have first_eq : lexer.column (passed.length + 0) = (Location.onLine passed).length + 0 + 1 :=
    column_eq lineOffset_eq (by omega)
  rw [location, Location.ofSpan, line_eq, column_eq lineOffset_eq small]
  exact congrArg (Location.mk _ _ · _) first_eq

variable {contents : Bytes} {buffered : Lexer Buffer}

/-- A turn over a buffer does what the turn over the cursor at its place does. -/
theorem Sound.turn (sound : buffered.Sound contents) (tidy : (buffered.place contents).Tidy)
    (flowing : (Scan.turn buffered).2.tape.stalled = false) :
    (Scan.turn buffered).1 = (buffered.place contents).piece.lexeme ∧
      (Scan.turn buffered).2.place contents =
        (buffered.place contents).take (buffered.place contents).piece := by
  have agrees := ((Scan.tracks_turn buffered sound).agrees flowing).2
  rw [Scan.run_turn tidy.token_le] at agrees
  exact ⟨(Prod.mk.inj agrees).1.symm, (Prod.mk.inj agrees).2.symm⟩

/-- What a turn reports stands at the bytes that it takes. -/
theorem Sound.blames (sound : buffered.Sound contents) (tidy : (buffered.place contents).Tidy)
    (small : contents.size < maximalColumn) (running : buffered.finished = false)
    (flowing : (Scan.turn buffered).2.tape.stalled = false) :
    ∀ diagnostic ∈ (Scan.turn buffered).2.reported.toList,
      diagnostic ∈ buffered.reported.toList ∨
        ∃ span, Blames contents buffered diagnostic buffered span := by
  obtain ⟨rest, ahead_eq, fits⟩ := (buffered.place contents).exists_rest
  have place_eq := (sound.turn tidy flowing).2
  have reported_eq : (Scan.turn buffered).2.reported.toList = _ :=
    (congrArg (fun lexer => lexer.reported.toList) place_eq).trans (reported_take _)
  intro diagnostic present
  rw [reported_eq, List.mem_append, List.mem_map] at present
  rcases present with earlier | ⟨error, reported, rfl⟩
  · exact .inl earlier
  have reported := Option.mem_toList.mp reported
  have cursor_eq : (Scan.turn buffered).2.tape.cursor =
      buffered.tape.cursor + (buffered.place contents).piece.taken.length :=
    congrArg (fun lexer => lexer.tape.offset) place_eq
  refine .inr ⟨(buffered.place contents).piece.taken, .refl buffered, running, ?_, ?_, ?_, ?_⟩
  · apply Array.toList_inj.mp
    rw [reported_eq, reported, Array.toList_push]
    rfl
  · rw [cursor_eq]
    change _ = ((buffered.place contents).tape.bytes.extract (buffered.place contents).tape.offset
      ((buffered.place contents).tape.offset + _)).toList
    rw [Cursor.extract_ahead, ahead_eq, List.take_left]
  · have enough : (buffered.place contents).tape.passed.length +
        (buffered.place contents).piece.taken.length < maximalColumn := by
      have length_eq : _ = contents.size :=
        (buffered.place contents).tape.length_passed_add_ahead
      rw [ahead_eq, List.length_append] at length_eq
      omega
    have located := location_eq_ofSpan tidy.line_eq tidy.lineOffset_eq enough
    rw [Cursor.length_passed tidy.offset_le] at located
    exact located
  · intro covered
    rcases fits.error_on_line reported with on_line | ⟨rfl, taken_eq⟩
    · exact absurd covered on_line
    · exact ⟨rfl, taken_eq⟩

/-- Every error of a call is reported by one of its turns. -/
theorem Finds.blames (finds : Finds lexer errors lexeme after) (tidy : lexer.Tidy)
    (small : contents.size < maximalColumn) {steps : Nat} (sound : buffered.Sound contents)
    (place_eq : lexer = buffered.place contents) (enough : lexer.tape.ahead.length < steps)
    (flowing : (Scan.lexemeWithin steps buffered).2.tape.stalled = false) :
    ∀ diagnostic ∈ after.reported.toList, diagnostic ∈ buffered.reported.toList ∨
      ∃ begun span, Blames contents buffered diagnostic begun span := by
  induction finds generalizing buffered steps with
  | finished =>
      subst place_eq
      exact fun _ => .inl
  | completes running =>
      subst place_eq
      obtain ⟨steps, rfl⟩ := Nat.exists_eq_succ_of_ne_zero (Nat.ne_zero_of_lt enough)
      have turn_flowing := (Scan.flowing_of_lexemeWithin sound running flowing).1
      intro diagnostic present
      rw [← (sound.turn tidy turn_flowing).2] at present
      rcases sound.blames tidy small running turn_flowing diagnostic present with
        earlier | ⟨span, blames⟩
      · exact .inl earlier
      · exact .inr ⟨buffered, span, blames⟩
  | goesOn running skips _ induction =>
      subst place_eq
      obtain ⟨steps, rfl⟩ := Nat.exists_eq_succ_of_ne_zero (Nat.ne_zero_of_lt enough)
      obtain ⟨turn_flowing, rest_flowing⟩ :=
        Scan.flowing_of_lexemeWithin sound running flowing
      obtain ⟨lexeme_eq, place_eq⟩ := sound.turn tidy turn_flowing
      have buffered_skips := lexeme_eq.trans skips
      have shorter := length_ahead_take_lt (goes_on_of_skips skips)
      intro diagnostic present
      rcases induction tidy.take (Scan.tracks_turn buffered sound).sound place_eq.symm (by omega)
        (rest_flowing buffered_skips) diagnostic present with earlier | ⟨begun, span, blames⟩
      · rcases sound.blames tidy small running turn_flowing diagnostic earlier with
          earlier | ⟨span, blames⟩
        · exact .inl earlier
        · exact .inr ⟨buffered, span, blames⟩
      · have filename_eq : (Scan.turn buffered).2.filename = buffered.filename :=
          congrArg (fun lexer => lexer.filename) place_eq
        refine .inr ⟨begun, span, { blames with
          skips := .turn running buffered_skips blames.skips
          location_eq := ?_ }⟩
        rw [← filename_eq]
        exact blames.location_eq

/-- The bytes before the cursor are those before the token and those of the token. -/
theorem Tidy.passed_eq (tidy : lexer.Tidy) :
    lexer.tape.passed = lexer.tape.bytes.toList.take lexer.tape.token ++ lexer.tape.pending := by
  change _ = _ ++ (lexer.tape.bytes.extract lexer.tape.token lexer.tape.offset).toList
  rw [Array.toList_extract, List.extract_eq_take_drop, ← List.take_add,
    Nat.add_sub_of_le tidy.token_le]
  rfl

/-- The bytes before the token lead to the same line as those before the cursor. -/
theorem Tidy.token_line (tidy : lexer.Tidy) (on_line : Ascii.newline ∉ lexer.tape.pending) :
    lexer.line = Location.lineAfter (lexer.tape.bytes.toList.take lexer.tape.token) ∧
      lexer.lineOffset =
        Location.lineStartAfter (lexer.tape.bytes.toList.take lexer.tape.token) := by
  rw [tidy.line_eq, tidy.lineOffset_eq, tidy.passed_eq]
  exact ⟨Location.lineAfter_append on_line, Location.lineStartAfter_append on_line⟩

theorem Tidy.token_lengths (tidy : lexer.Tidy) :
    (lexer.tape.bytes.toList.take lexer.tape.token).length = lexer.tape.token ∧
      lexer.tape.pending.length = lexer.tape.offset - lexer.tape.token := by
  have token_le := tidy.token_le
  have offset_le := tidy.offset_le
  constructor
  · rw [List.length_take, Array.length_toList]
    omega
  · change (lexer.tape.bytes.extract lexer.tape.token lexer.tape.offset).toList.length = _
    rw [Array.length_toList, Array.size_extract]
    omega

/-- The token between two calls is where the bytes before it lead to. -/
theorem Tidy.token_location (tidy : lexer.Tidy) (on_line : Ascii.newline ∉ lexer.tape.pending)
    (small : lexer.tape.bytes.size < maximalColumn) :
    lexer.location lexer.tape.token lexer.tape.offset =
      Location.ofSpan lexer.filename (lexer.tape.bytes.toList.take lexer.tape.token)
        lexer.tape.pending := by
  obtain ⟨line_eq, lineOffset_eq⟩ := tidy.token_line on_line
  have token_le := tidy.token_le
  have offset_le := tidy.offset_le
  obtain ⟨passed_length, pending_length⟩ := tidy.token_lengths
  have enough : (lexer.tape.bytes.toList.take lexer.tape.token).length +
      lexer.tape.pending.length < maximalColumn := by
    omega
  have located := location_eq_ofSpan line_eq lineOffset_eq enough
  rw [passed_length, pending_length, Nat.add_sub_of_le token_le] at located
  exact located

/-- The bytes of a token are found at its location, and it says what they are. -/
structure Points (contents : Bytes) (lexer : Lexer Buffer) (token : Token) : Prop where
  /-- The token is on the lexer's line. -/
  line_eq : token.location.line = lexer.line
  /-- The first column leads to the token's start. -/
  first_eq : lexer.lineOffset + token.location.firstColumn - 1 = lexer.tape.token
  /-- The last column leads to the cursor. -/
  last_eq : lexer.lineOffset + token.location.lastColumn - 1 = lexer.tape.cursor
  /-- The bytes between them are the token's. -/
  bytes_eq : contents.extract (lexer.lineOffset + token.location.firstColumn - 1)
    (lexer.lineOffset + token.location.lastColumn - 1) = lexer.tape.tokenBytes
  /-- There is no newline among them. -/
  on_line : Ascii.newline ∉ lexer.tape.tokenBytes
  /-- The token says what they are. -/
  meaning : Lexeme.Says lexer.tape.tokenBytes.toList ⟨token.kind, token.payload⟩

theorem after_plain (filename : String) (lineWidth : Nat) (contents : Bytes) (calls : Nat) :
    ((plain filename lineWidth contents).after calls).Tidy ∧
      ((plain filename lineWidth contents).after calls).tape.bytes = contents ∧
      ((plain filename lineWidth contents).after calls).filename = filename ∧
      ((plain filename lineWidth contents).after calls).reported = #[] := by
  induction calls with
  | zero => exact ⟨tidy_ofTape filename lineWidth contents, rfl, rfl, rfl⟩
  | succ calls induction =>
      obtain ⟨tidy, bytes_eq, filename_eq, -⟩ := induction
      obtain ⟨errors, lexeme, after, finds, next_eq⟩ := exists_finds tidy
      obtain ⟨same_bytes, same_filename⟩ := finds.bytes_eq
      refine ⟨tidy.next, ?_⟩
      rw [Lexer.after, next_eq]
      exact ⟨same_bytes.trans bytes_eq, same_filename.trans filename_eq, rfl⟩

/-- The token of a call over a buffer, which is at the place of the call over the cursor. -/
theorem Finds.points (finds : Finds lexer errors lexeme after) (tidy : lexer.Tidy)
    {contents : Bytes} {buffered : Lexer Buffer} (small : contents.size < maximalColumn)
    (bytes_eq : lexer.tape.bytes = contents) (sound : buffered.Sound contents)
    (place_eq : buffered.place contents = (handOut lexeme after).2) :
    Points contents buffered (handOut lexeme after).1.token := by
  have after_tidy := finds.tidy tidy
  obtain ⟨on_line, meaning⟩ := finds.token tidy
  have after_bytes := finds.bytes_eq.1.trans bytes_eq
  have located := after_tidy.token_location on_line (after_bytes ▸ small)
  obtain ⟨-, lineOffset_eq⟩ := after_tidy.token_line on_line
  obtain ⟨passed_length, pending_length⟩ := after_tidy.token_lengths
  have line_le := Location.length_onLine_le (after.tape.bytes.toList.take after.tape.token)
  have token_le := after_tidy.token_le
  have line_same : buffered.line = after.line := congrArg Lexer.line place_eq
  have lineOffset_same : buffered.lineOffset = after.lineOffset :=
    congrArg Lexer.lineOffset place_eq
  have token_same : buffered.tape.token = after.tape.token :=
    congrArg (fun lexer => lexer.tape.token) place_eq
  have cursor_same : buffered.tape.cursor = after.tape.offset :=
    congrArg (fun lexer => lexer.tape.offset) place_eq
  have tokenBytes_eq : buffered.tape.tokenBytes.toList = after.tape.pending := by
    rw [sound.shows.tokenBytes_eq]
    exact congrArg (fun lexer => lexer.tape.pending) place_eq
  have first_eq : buffered.lineOffset + (handOut lexeme after).1.token.location.firstColumn - 1 =
      buffered.tape.token := by
    change _ + (after.location after.tape.token after.tape.offset).firstColumn - 1 = _
    rw [located, lineOffset_same, lineOffset_eq, token_same]
    change Location.lineStartAfter _ + (_ + 1) - 1 = _
    rw [Location.lineStartAfter]
    omega
  have last_eq : buffered.lineOffset + (handOut lexeme after).1.token.location.lastColumn - 1 =
      buffered.tape.cursor := by
    change _ + (after.location after.tape.token after.tape.offset).lastColumn - 1 = _
    rw [located, lineOffset_same, lineOffset_eq, cursor_same]
    change Location.lineStartAfter _ + (_ + _ + 1) - 1 = _
    rw [Location.lineStartAfter]
    omega
  refine ⟨line_same.symm, first_eq, last_eq, ?_, ?_, ?_⟩
  · rw [first_eq, last_eq, sound.shows.tokenBytes_eq]
    rfl
  · rw [← Array.mem_toList_iff, tokenBytes_eq]
    exact on_line
  · rw [tokenBytes_eq]
    exact meaning

/-- Lines and columns are kept right. After any number of calls of a lexer no refill of which has
failed, its line counts the newlines before the cursor and starts after the last of them. The token
just returned is found at its location, on that line, and so are the bytes of each error reported
on the way to it: those from where the turn that reports it began to where the cursor was. -/
theorem lines_and_columns {contents : Bytes} {source : Source} (opens : source.Opens contents)
    (filename : String) (lineWidth size bound calls : Nat) (small : contents.size < maximalColumn)
    (flowing : ((opened filename lineWidth source size bound).after calls).tape.stalled = false) :
    let lexer := (opened filename lineWidth source size bound).after calls
    let passed := contents.toList.take lexer.tape.cursor
    lexer.line = Location.lineAfter passed ∧
      lexer.lineOffset = Location.lineStartAfter passed ∧
      ∀ last, calls = last + 1 →
        let before := (opened filename lineWidth source size bound).after last
        let reading := (opened filename lineWidth source size bound).reading last
        Points contents lexer reading.token ∧
          ∀ diagnostic ∈ reading.diagnostics,
            ∃ begun span, Blames contents before diagnostic begun span := by
  intro lexer passed
  have sound := sound_opened opens filename lineWidth size bound
  have place_eq : (plain filename lineWidth contents).after calls = lexer.place contents :=
    (Prod.mk.inj ((sound.after calls).agrees flowing).2).2
  obtain ⟨tidy, bytes_eq, -⟩ := after_plain filename lineWidth contents calls
  rw [place_eq] at tidy bytes_eq
  refine ⟨tidy.line_eq, tidy.lineOffset_eq, ?_⟩
  rintro last rfl before reading
  obtain ⟨before_sound, before_agrees⟩ := sound.after last
  obtain ⟨before_flowing, next_agrees⟩ := before_sound.next.agrees flowing
  have before_eq : (plain filename lineWidth contents).after last = before.place contents :=
    (Prod.mk.inj (before_agrees before_flowing).2).2
  obtain ⟨before_tidy, before_bytes, -, before_reported⟩ :=
    after_plain filename lineWidth contents last
  rw [before_eq] at before_tidy before_bytes before_reported
  obtain ⟨errors, lexeme, after, finds, next_eq⟩ := exists_finds before_tidy
  obtain ⟨reading_eq, after_eq⟩ := Prod.mk.inj (next_agrees.symm.trans next_eq)
  have reading_same : reading = (handOut lexeme after).1 := reading_eq
  rw [reading_same]
  have after_sound : lexer.Sound contents := (sound.after (last + 1)).sound
  refine ⟨finds.points before_tidy small before_bytes after_sound after_eq, ?_⟩
  have enough : (before.place contents).tape.ahead.length < Tape.remaining before.tape + 1 := by
    rw [Cursor.length_ahead]
    exact Nat.lt_succ_of_le (Nat.le_of_eq (before_sound.shows.remaining_eq before_flowing).symm)
  intro diagnostic present
  rcases finds.blames before_tidy small before_sound rfl enough flowing diagnostic
    (Array.mem_toList_iff.mpr present) with earlier | blamed
  · have silent : before.reported = #[] := before_reported
    rw [silent] at earlier
    cases earlier
  · exact blamed

/-- A parenthesis, a line comment and a name on the third line, from a window of one byte. -/
theorem lines_and_columns_third_line :
    ((opened "a.wast" 0 (.ofBytes "(\n;;\n $a".toUTF8.data) 1 4096).after 2).line = 3 :=
  (lines_and_columns (Source.opens_ofBytes "(\n;;\n $a".toUTF8.data) "a.wast" 0 1 4096 2
    (by decide +kernel) (by decide +kernel)).1.trans (by decide +kernel)

end Lexer

end WasmText

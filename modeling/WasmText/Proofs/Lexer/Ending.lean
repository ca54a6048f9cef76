import WasmText.Proofs.Lexer.Rounds
import WasmText.Proofs.Lexer.Lines

/-!
# The end of the input

The end of the input is reached and stays. It comes after a fatal error, which a lexer remembers, or
where nothing is left to read and none of it is missing, which the next call finds out again.
-/

namespace WasmText

namespace Lexer

variable {contents : Bytes} {lexer : Lexer Buffer} {lexeme : Lexeme}

/-- A lexer after the end of its input. -/
structure Over (contents : Bytes) (lexer : Lexer Buffer) : Prop extends Ready contents lexer where
  /-- The token is empty. -/
  begun : lexer.tape.token = lexer.tape.cursor
  /-- Without a fatal error all has been read, -/
  ended : lexer.finished = false → lexer.tape.ended = true
  /-- nothing is left, -/
  past : lexer.finished = false → (lexer.bare contents).tape.ahead = []
  /-- and a call finds nothing wrong with that. -/
  mode : lexer.finished = false → lexer.mode = .normal ∨ lexer.mode = .lineComment

/-- The lexer at the beginning of a step outside of strings. -/
def opening (lexer : Lexer Buffer) : Lexer Buffer :=
  { lexer with tape := lexer.tape.beginToken.mark }

/-- A turn outside of strings is a step behind the opening of a token. -/
theorem turn_of_step {taken : Scan Buffer Step} (no_text : lexer.mode ≠ .badText)
    (step_eq : Scan.step lexer.opening = taken lexer.opening) :
    (Scan.turn lexer).1 = (taken lexer.opening).1.lexeme ∧
      (Scan.turn lexer).2.tape = (taken lexer.opening).2.tape := by
  have begun : Scan.beginStep lexer = ((), lexer.opening) := by
    change (if lexer.mode ≠ .badText then do
        Scan.move Tape.beginToken
        Scan.move Tape.mark
      else Scan.move Tape.mark : Scan Buffer Unit) lexer = _
    rw [if_pos no_text]
    rfl
  unfold Scan.turn
  rw [Scan.run_bind, begun, Scan.run_bind, step_eq]
  exact ⟨rfl, rfl⟩

/-- A step is the one of its mode. -/
theorem run_step (lexer : Lexer Buffer) :
    Scan.step lexer = (match lexer.mode with
      | .normal => Scan.normal
      | .badText => Scan.badText
      | .lineComment => Scan.lineComment
      | .blockComment => Scan.blockComment : Scan Buffer Step) lexer :=
  rfl

/-- Where nothing is left, a step in normal mode finds that out. -/
theorem tape_normal (lexer : Lexer Buffer) (shows : lexer.tape.Shows contents)
    (past : contents.size ≤ lexer.tape.cursor) :
    (lexer.tape.reach 0).isEndAt 0 = (true, (Scan.normal lexer).2.tape) := by
  have no_data {buffer : Buffer} (shows : buffer.Shows contents)
      (same : buffer.cursor = lexer.tape.cursor) : buffer.dataEnd ≤ buffer.cursor := by
    have bounded := shows.dataEnd_le_size
    omega
  have reached_shows := shows.reach 0
  have reached_same := Buffer.reach_cursor lexer.tape 0
  have tested : (lexer.tape.reach 0).isEndAt 0 = (true, (lexer.tape.reach 0).reach 0) := by
    rw [Buffer.isEndAt, decide_eq_true]
    exact no_data (reached_shows.reach 0) ((Buffer.reach_cursor _ 0).trans reached_same)
  have peeked : Scan.peek 0 lexer = (0, { lexer with tape := lexer.tape.reach 0 }) := by
    have byte_eq := reached_shows.byteAt_past (no_data reached_shows reached_same)
    change ((lexer.tape.reach 0).byteAt (lexer.tape.reach 0).cursor, _) = _
    rw [byte_eq]
  have asked : Scan.isEndAt 0 { lexer with tape := lexer.tape.reach 0 } =
      (true, { lexer with tape := (lexer.tape.reach 0).reach 0 }) := by
    change (((lexer.tape.reach 0).isEndAt 0).1,
      { lexer with tape := ((lexer.tape.reach 0).isEndAt 0).2 }) = _
    rw [tested]
  rw [tested]
  unfold Scan.normal
  rw [Scan.run_bind, peeked, if_pos rfl, Scan.run_bind, asked]
  rfl

/-- The input ends in a line comment only where no newline is found. -/
theorem ended_of_lineComment (lexer : Lexer Buffer) (shows : lexer.tape.Shows contents)
    (completes : (Scan.lineComment lexer).1.lexeme ≠ none)
    (flowing : (Scan.lineComment lexer).2.tape.stalled = false) :
    (Scan.lineComment lexer).2.tape.ended = true := by
  have ended_of_none (after : Buffer)
      (not_found : lexer.tape.skipUntil (· == Ascii.newline) = (none, after)) :
      after.stalled = false → after.ended = true :=
    shows.ended_of_skipUntil not_found
  unfold Scan.lineComment at completes flowing ⊢
  rw [Scan.run_bind] at completes flowing ⊢
  have skipped : Scan.skipUntil (· == Ascii.newline) lexer =
      ((lexer.tape.skipUntil (· == Ascii.newline)).1,
        { lexer with tape := (lexer.tape.skipUntil (· == Ascii.newline)).2 }) := rfl
  rw [skipped] at completes flowing ⊢
  generalize lexer.tape.skipUntil (· == Ascii.newline) = result at ended_of_none completes flowing ⊢
  obtain ⟨found, after⟩ := result
  cases found with
  | none => exact ended_of_none after rfl flowing
  | some byte => exact absurd rfl completes

/-- A turn that ends the input without a fatal error has read all of it. -/
theorem Ready.ended_turn (ready : lexer.Ready contents)
    (flowing : (Scan.turn lexer).2.tape.stalled = false)
    (completes : (Scan.turn lexer).1 ≠ none)
    (mode : lexer.mode = .normal ∧ contents.size ≤ lexer.tape.cursor ∨
      lexer.mode = .lineComment) : (Scan.turn lexer).2.tape.ended = true := by
  have opening_shows : lexer.opening.tape.Shows contents := ready.shows.beginToken.mark
  rcases mode with ⟨normal, past⟩ | comment
  · have no_text : lexer.mode ≠ .badText := by
      rw [normal]
      exact nofun
    have step_eq : Scan.step lexer.opening = Scan.normal lexer.opening := by
      rw [run_step, show lexer.opening.mode = .normal from normal]
    obtain ⟨-, tape_eq⟩ := turn_of_step no_text step_eq
    have tested := tape_normal lexer.opening opening_shows past
    rw [tape_eq] at flowing ⊢
    exact (opening_shows.reach 0).ended_of_isEndAt tested flowing
  · have no_text : lexer.mode ≠ .badText := by
      rw [comment]
      exact nofun
    have step_eq : Scan.step lexer.opening = Scan.lineComment lexer.opening := by
      rw [run_step, show lexer.opening.mode = .lineComment from comment]
    obtain ⟨completed_eq, tape_eq⟩ := turn_of_step no_text step_eq
    rw [completed_eq] at completes
    rw [tape_eq] at flowing ⊢
    exact ended_of_lineComment lexer.opening opening_shows completes flowing

/-- A turn that completes the end of the input comes to it. -/
theorem Ready.over_turn (ready : lexer.Ready contents) (running : lexer.finished = false)
    (flowing : (Scan.turn lexer).2.tape.stalled = false)
    (completes : (Scan.turn lexer).1 = some .eof) : (Scan.turn lexer).2.Over contents := by
  obtain ⟨rest, ahead_eq, fits⟩ := (lexer.bare contents).exists_rest
  obtain ⟨completed_eq, bare_eq⟩ := ready.turn running flowing
  have ends := fits.ends_of_eof pending_of_ne (completed_eq.symm.trans completes)
  have rest_eq := (fits.of_ends ends).2.1
  have at_end (going : (Scan.turn lexer).2.finished = false) :=
    mode_of_take ends ((congrArg Lexer.finished bare_eq).symm.trans going)
  constructor
  · have shows := (Scan.simulation_tracksBare.turn lexer ready.shows).shows
    refine ⟨shows, fun _ => flowing, fun _ => ?_⟩
    rw [bare_eq]
    exact (ready.tidy running).take
  · have token_eq : (Scan.turn lexer).2.tape.token =
        if (lexer.bare contents).piece.ends then
          lexer.tape.cursor + (lexer.bare contents).piece.taken.length
        else (lexer.bare contents).begun.tape.token :=
      congrArg (fun lexer => lexer.tape.token) bare_eq
    rw [token_eq, if_pos ends]
    exact (congrArg (fun lexer => lexer.tape.offset) bare_eq).symm
  · intro going
    have not_none : (Scan.turn lexer).1 ≠ none := by
      rw [completes]
      exact nofun
    obtain ⟨-, ⟨normal, taken_eq⟩ | comment⟩ := at_end going
    · refine ready.ended_turn flowing not_none (.inl ⟨normal, ?_⟩)
      rw [taken_eq, rest_eq] at ahead_eq
      have length_eq := congrArg List.length ahead_eq
      rw [Cursor.length_ahead] at length_eq
      exact Nat.sub_eq_zero_iff_le.mp length_eq
    · exact ready.ended_turn flowing not_none (.inr comment)
  · intro _
    rw [bare_eq, ahead_take ahead_eq, rest_eq]
  · intro going
    obtain ⟨mode_eq, cases⟩ := at_end going
    have same_mode : (Scan.turn lexer).2.mode = lexer.mode :=
      (congrArg Lexer.mode bare_eq).trans mode_eq
    rw [same_mode]
    exact cases.imp And.left id

/-- A turn that completes another lexeme takes a byte. -/
theorem Ready.lt_turn (ready : lexer.Ready contents) (running : lexer.finished = false)
    (flowing : (Scan.turn lexer).2.tape.stalled = false)
    (goes_on : (lexer.bare contents).piece.ends = false) :
    lexer.tape.cursor < (Scan.turn lexer).2.tape.cursor := by
  obtain ⟨rest, -, fits⟩ := (lexer.bare contents).exists_rest
  have moved : (Scan.turn lexer).2.tape.cursor =
      lexer.tape.cursor + (lexer.bare contents).piece.taken.length :=
    congrArg (fun lexer => lexer.tape.offset) (ready.turn running flowing).2
  have positive := List.length_pos_iff.mpr (fits.nonempty goes_on)
  omega

/-- A call comes to the end of the input, or to another lexeme further on. -/
theorem Ready.call (ready : lexer.Ready contents) {outcome : Lexeme × Lexer Buffer}
    (ends : Loop.Ends Scan.round lexer outcome) :
    outcome.1 = .eof ∧ outcome.2.Over contents ∨
      outcome.1.kind ≠ .eof ∧ lexer.tape.cursor < outcome.2.tape.cursor := by
  induction ends with
  | @done lexer after lexeme gives =>
      have round_ready := ready.round_ready
      have round_ends := ready.round.2
      rw [gives] at round_ready round_ends
      generalize outcome_eq : (some lexeme, after) = outcome at round_ends
      cases round_ends with
      | stopped finished begun =>
          cases outcome_eq
          have impossible {going : Prop} (running : after.finished = false) : going :=
            Bool.noConfusion (finished.symm.trans running)
          exact .inl ⟨rfl, round_ready, begun, impossible, impossible, impossible⟩
      | turned running flowing =>
          have completes : (Scan.turn lexer).1 = some lexeme :=
            (congrArg Prod.fst outcome_eq).symm
          have after_eq : after = (Scan.turn lexer).2 := congrArg Prod.snd outcome_eq
          by_cases eof : lexeme = .eof
          · subst eof
            rw [after_eq]
            exact .inl ⟨rfl, ready.over_turn running flowing completes⟩
          · have lexeme_eq := (ready.turn running flowing).1.symm.trans completes
            have goes_on := goes_on_of_token lexeme_eq eof
            rw [after_eq]
            exact .inr ⟨kind_ne_eof lexeme_eq goes_on, ready.lt_turn running flowing goes_on⟩
  | @again lexer next outcome goes_on _ induction =>
      have next_ready := ready.round_ready
      have round_ends := ready.round.2
      rw [goes_on] at next_ready round_ends
      generalize outcome_eq : (none, next) = between at round_ends
      cases round_ends with
      | stopped => cases outcome_eq
      | turned running flowing =>
          have next_eq : next = (Scan.turn lexer).2 := congrArg Prod.snd outcome_eq
          have skips : (Scan.turn lexer).1 = none := (congrArg Prod.fst outcome_eq).symm
          have moved := ready.lt_turn running flowing
            (goes_on_of_skips ((ready.turn running flowing).1.symm.trans skips))
          rw [← next_eq] at moved
          exact (induction next_ready).imp_right fun token =>
            ⟨token.1, Nat.lt_trans moved token.2⟩

/-! ### After the end -/

/-- The end of the input as it is read where the lexer is. -/
def endReading (lexer : Lexer Buffer) : Reading where
  token :=
    { kind := .eof
      payload := .none
      location := lexer.location lexer.tape.cursor lexer.tape.cursor }
  diagnostics := #[]

theorem Ready.next (ready : lexer.Ready contents) : lexer.next.2.Ready contents := by
  have last := ready.ends_lexeme.keeps (fun _ state => state.round_ready) ready
  refine ⟨last.shows, last.flowing, fun running => ?_⟩
  have tidy := last.tidy running
  change (({ (Scan.lexeme lexer).2 with reported := #[] } : Lexer Buffer).bare contents).Tidy
  rw [bare_silent]
  exact ⟨tidy.token_le, tidy.offset_le, tidy.line_eq, tidy.lineOffset_eq, tidy.on_line⟩

/-- What a lexer goes on doing when its input is over: it stays where it is, and has nothing to
report. -/
structure Stays (before after : Lexer Buffer) : Prop where
  /-- The name of the source stays. -/
  filename : after.filename = before.filename
  /-- The line stays. -/
  line : after.line = before.line
  /-- So does its start. -/
  lineOffset : after.lineOffset = before.lineOffset
  /-- The cursor stays. -/
  cursor : after.tape.cursor = before.tape.cursor
  /-- No error is left to be handed out. -/
  silent : after.reported = #[]

theorem Stays.trans {first second third : Lexer Buffer} (left : Stays first second)
    (right : Stays second third) : Stays first third :=
  ⟨right.filename.trans left.filename, right.line.trans left.line,
    right.lineOffset.trans left.lineOffset, right.cursor.trans left.cursor, right.silent⟩

theorem Stays.endReading_eq {before after : Lexer Buffer} (stays : Stays before after) :
    after.endReading = before.endReading := by
  rw [endReading, endReading, location, location, column, column, stays.filename, stays.line,
    stays.lineOffset, stays.cursor]

/-- A call of a lexer over a cursor where nothing is left. -/
theorem next_of_past {plain : Lexer Cursor} (tidy : plain.Tidy) (running : plain.finished = false)
    (past : plain.tape.ahead = []) (mode : plain.mode = .normal ∨ plain.mode = .lineComment) :
    plain.next = handOut .eof plain.closed := by
  have piece_eq : plain.piece =
      { taken := [], mode := plain.mode, nesting := plain.nesting, lexeme := some .eof
        ends := true } := by
    rw [piece, past]
    rcases mode with normal | comment
    · rw [normal]
      rfl
    · rw [comment]
      rfl
  have scanned : Scan.lexeme plain = (.eof, plain.closed) := by
    have run_eq : Scan.lexeme plain = _ := run_lexemeWithin tidy running
    rw [piece_eq] at run_eq
    exact run_eq
  have next_eq : plain.next = handOut (Scan.lexeme plain).1 (Scan.lexeme plain).2 := rfl
  rw [next_eq, scanned]

/-- A buffer that has read everything reads no more. -/
theorem outlasts_ended :
    Buffer.Outlasts fun buffer => buffer.ended = true ∧ buffer.stalled = false := by
  refine Buffer.Lasts.outlasts ⟨fun {buffer} ahead complete => ?_, id⟩ id id id
  rw [Buffer.reach, Buffer.reachWithin_of_settled (.inr (.inl complete.1))]
  exact complete

/-- After a fatal error a call does nothing but hand out what has been reported. -/
theorem next_of_finished (finished : lexer.finished = true) :
    lexer.next = ({ lexer.endReading with diagnostics := lexer.reported },
      { lexer with tape := lexer.tape.beginToken, reported := #[] }) := by
  have scanned : Scan.lexeme lexer = (.eof, { lexer with tape := lexer.tape.beginToken }) := by
    have run_eq := Scan.unfolds_lexemeWithin (Tape.remaining lexer.tape) lexer
    rw [Scan.round_of_finished finished] at run_eq
    exact run_eq
  have run_eq : Scan.lexeme.run lexer = Scan.lexeme lexer := rfl
  unfold Lexer.next
  rw [run_eq, scanned]
  rfl

/-- Without errors there are no source lines to leave out. -/
theorem eq_of_bare {reading : Reading} {token : Token}
    (bare_eq : reading.bare = { token, diagnostics := #[] }) :
    reading = { token, diagnostics := #[] } := by
  obtain ⟨own, diagnostics⟩ := reading
  have token_eq : own = token := congrArg Reading.token bare_eq
  have none_reported : diagnostics.map Diagnostic.bare = #[] :=
    congrArg Reading.diagnostics bare_eq
  rw [token_eq, Array.map_eq_empty_iff.mp none_reported]

/-- After the end of the input a call finds it again. -/
theorem Over.next (is_over : lexer.Over contents) (silent : lexer.reported = #[]) :
    lexer.next.1 = lexer.endReading ∧ lexer.next.2.Over contents ∧ Stays lexer lexer.next.2 := by
  have next_ready := is_over.toReady.next
  cases finished : lexer.finished with
  | true =>
      rw [next_of_finished finished, silent] at next_ready ⊢
      have impossible {going : Prop} (running : lexer.finished = false) : going :=
        Bool.noConfusion (finished.symm.trans running)
      exact ⟨rfl, ⟨next_ready, rfl, impossible, impossible, impossible⟩, rfl, rfl, rfl, rfl, rfl⟩
  | false =>
      have past := is_over.past finished
      have mode := is_over.mode finished
      have plain_eq := next_of_past (is_over.tidy finished) finished past mode
      have complete := (Scan.simulation_keeps outlasts_ended).lexeme (fun _ => id) lexer
        ⟨is_over.ended finished, is_over.flowing finished⟩
      have next_eq := ((followsBare_next is_over.shows).agrees complete.2).2
      rw [plain_eq] at next_eq
      have reading_eq : (handOut .eof (lexer.bare contents).closed).1 = lexer.next.1.bare :=
        congrArg Prod.fst next_eq
      have after_eq := congrArg Prod.snd next_eq
      have stays : Stays lexer lexer.next.2 :=
        ⟨(congrArg Lexer.filename after_eq).symm, (congrArg Lexer.line after_eq).symm,
          (congrArg Lexer.lineOffset after_eq).symm,
          (congrArg (fun lexer => lexer.tape.offset) after_eq).symm, rfl⟩
      refine ⟨?_, ⟨next_ready, ?_, fun _ => complete.1, fun _ => ?_, fun _ => ?_⟩, stays⟩
      · have silent_end : (handOut .eof (lexer.bare contents).closed).1 = lexer.endReading := by
          change (⟨_, lexer.reported.map Diagnostic.bare⟩ : Reading) = _
          rw [silent, Array.map_empty]
          rfl
        exact eq_of_bare (reading_eq.symm.trans silent_end)
      · exact (congrArg (fun lexer => lexer.tape.token) after_eq).symm.trans
          (congrArg (fun lexer => lexer.tape.offset) after_eq)
      · exact (congrArg (fun lexer => lexer.tape.ahead) after_eq).symm.trans past
      · have mode_eq : lexer.next.2.mode = lexer.mode := (congrArg Lexer.mode after_eq).symm
        rw [mode_eq]
        exact mode

/-- From the end of the input on, every call finds it again. -/
theorem Over.reading (is_over : lexer.Over contents) (silent : lexer.reported = #[]) (calls : Nat) :
    lexer.reading calls = lexer.endReading ∧ Stays lexer (lexer.after (calls + 1)) := by
  have after_over : (lexer.after calls).Over contents ∧ Stays lexer (lexer.after calls) := by
    induction calls with
    | zero => exact ⟨is_over, rfl, rfl, rfl, rfl, silent⟩
    | succ calls induction =>
        obtain ⟨middle_over, middle_stays⟩ := induction
        obtain ⟨-, next_over, next_stays⟩ := middle_over.next middle_stays.silent
        exact ⟨next_over, middle_stays.trans next_stays⟩
  obtain ⟨middle_over, middle_stays⟩ := after_over
  obtain ⟨reading_eq, -, next_stays⟩ := middle_over.next middle_stays.silent
  exact ⟨reading_eq.trans middle_stays.endReading_eq, middle_stays.trans next_stays⟩

theorem after_add {τ : Type} [Tape τ] (first further : Nat) (lexer : Lexer τ) :
    lexer.after (first + further) = (lexer.after first).after further := by
  induction further with
  | zero => rfl
  | succ further induction => rw [after, ← induction]; rfl

theorem Ready.after (ready : lexer.Ready contents) (calls : Nat) :
    (lexer.after calls).Ready contents := by
  induction calls with
  | zero => exact ready
  | succ calls induction => exact induction.next

/-- A call that finds the end of the input has come to it. -/
theorem Ready.over_of_eof (ready : lexer.Ready contents)
    (eof : lexer.next.1.token.isEof = true) :
    lexer.next.2.Over contents ∧ lexer.next.1.token = lexer.next.2.endReading.token := by
  rcases ready.call ready.ends_lexeme with ⟨lexeme_eq, is_over⟩ | ⟨token, -⟩
  · refine ⟨⟨ready.next, is_over.begun, is_over.ended, is_over.past, is_over.mode⟩, ?_⟩
    have token_eq : lexer.next.1.token =
        ⟨(Scan.lexeme lexer).1.kind, (Scan.lexeme lexer).1.payload,
          (Scan.lexeme lexer).2.location (Scan.lexeme lexer).2.tape.token
            (Scan.lexeme lexer).2.tape.cursor⟩ := rfl
    rw [token_eq, lexeme_eq, is_over.begun]
    rfl
  · exact absurd (of_decide_eq_true eof) token

/-- A call that finds a token takes a byte. -/
theorem Ready.lt_next (ready : lexer.Ready contents) (token : lexer.next.1.token.isEof = false) :
    lexer.tape.cursor < lexer.next.2.tape.cursor := by
  rcases ready.call ready.ends_lexeme with ⟨lexeme_eq, -⟩ | ⟨-, moved⟩
  · have eof : lexer.next.1.token.kind = .eof := congrArg Lexeme.kind lexeme_eq
    exact absurd eof (of_decide_eq_false token)
  · exact moved

theorem Ready.le_cursor (ready : lexer.Ready contents) {calls : Nat}
    (tokens : ∀ call < calls, (lexer.reading call).token.isEof = false) :
    calls ≤ (lexer.after calls).tape.cursor := by
  induction calls with
  | zero => exact Nat.zero_le _
  | succ calls induction =>
      have earlier := induction fun call before => tokens call (Nat.lt_succ_of_lt before)
      have moved := (ready.after calls).lt_next (tokens calls (Nat.lt_succ_self calls))
      exact Nat.lt_of_le_of_lt earlier moved

/-- There are no more tokens than bytes. -/
theorem Ready.exists_eof (ready : lexer.Ready contents) :
    ∃ calls ≤ contents.size, (lexer.reading calls).token.isEof = true := by
  by_contra none_found
  have tokens (call : Nat) (before : call < contents.size + 1) :
      (lexer.reading call).token.isEof = false := by
    rw [← Bool.not_eq_true]
    exact fun eof => none_found ⟨call, Nat.le_of_lt_succ before, eof⟩
  have beyond := ready.le_cursor tokens
  have last_shows := (ready.after (contents.size + 1)).shows
  have cursor_le := last_shows.cursor_le_dataEnd
  have dataEnd_le := last_shows.dataEnd_le_size
  omega

/-- What follows the first end of the input. -/
theorem Ready.stays (ready : lexer.Ready contents) {first later : Nat} (before : first < later)
    (eof : (lexer.reading first).token.isEof = true) :
    lexer.reading later = (lexer.after (first + 1)).endReading ∧
      (lexer.reading first).token = (lexer.after (first + 1)).endReading.token ∧
      (lexer.after (later + 1)).line = (lexer.after (first + 1)).line := by
  obtain ⟨is_over, token_eq⟩ := (ready.after first).over_of_eof eof
  obtain ⟨further, rfl⟩ := Nat.exists_eq_add_of_lt before
  obtain ⟨reading_eq, stays⟩ := Over.reading is_over rfl further
  have same (calls : Nat) : lexer.after (first + 1 + calls) =
      (lexer.after first).next.2.after calls := after_add (first + 1) calls lexer
  refine ⟨?_, token_eq, ?_⟩
  · rw [Lexer.reading, Nat.add_right_comm, same]
    exact reading_eq
  · rw [Nat.add_right_comm first, Nat.add_assoc (first + 1), same]
    exact stays.line

theorem ready_opened {source : Source} (reads : source.contents = contents)
    (unread : source.position = 0) (filename : String) (lineWidth size bound : Nat) :
    (opened filename lineWidth source size bound).Ready contents where
  shows := Buffer.shows_opened reads unread size bound
  flowing := fun _ => rfl
  tidy := fun _ => by
    rw [bare_opened]
    exact tidy_ofTape filename 0 contents

/-- The capacity to allocate first is never zero. -/
theorem positive_after {source : Source} (filename : String) (lineWidth size bound calls : Nat) :
    0 < ((opened filename lineWidth source size bound).after calls).tape.initialCapacity := by
  have outlasts : Buffer.Outlasts fun buffer => 0 < buffer.initialCapacity :=
    Buffer.lasts_positive.outlasts id id id
  induction calls with
  | zero => exact Nat.lt_of_lt_of_le Nat.zero_lt_one (Nat.le_max_right size 1)
  | succ calls induction =>
      exact (Scan.simulation_keeps outlasts).lexeme (fun _ => id) _ induction

/-- Lexers come to an end. Whatever the source is and whether it can be read or not, no loop of a
call runs out of its fuel; a call that finds a token takes a byte, so that the end of the input is
found before there are more calls than bytes; and from then on every call finds it again, at the
same empty location, on the same line and without further errors. -/
theorem calls_end {source : Source} (reads : source.contents = contents)
    (unread : source.position = 0) (filename : String) (lineWidth size bound : Nat) :
    let lexer := opened filename lineWidth source size bound
    (∀ calls, (lexer.after calls).tape.Shows contents ∧
      0 < (lexer.after calls).tape.initialCapacity ∧
      Loop.Ends Scan.round (lexer.after calls) (Scan.lexeme (lexer.after calls))) ∧
    (∀ scanner : Lexer Buffer, scanner.tape.Shows contents → 0 < scanner.tape.initialCapacity →
      scanner.tape.LoopsEnd ∧ Loop.Ends Scan.textOnce scanner
        (Scan.textWithin (Tape.remaining scanner.tape + 1) scanner)) ∧
    (∀ calls, (lexer.reading calls).token.isEof = false →
      (lexer.after calls).tape.cursor < (lexer.after (calls + 1)).tape.cursor) ∧
    (∃ calls ≤ contents.size, (lexer.reading calls).token.isEof = true) ∧
    ∀ first later, first < later → (lexer.reading first).token.isEof = true →
      (lexer.reading later).token = (lexer.reading first).token ∧
      (lexer.reading first).token.location.firstColumn =
        (lexer.reading first).token.location.lastColumn ∧
      (lexer.reading later).diagnostics = #[] ∧
      (lexer.after (later + 1)).line = (lexer.after (first + 1)).line := by
  intro lexer
  have ready := ready_opened reads unread filename lineWidth size bound
  refine ⟨fun calls => ⟨(ready.after calls).shows,
      positive_after filename lineWidth size bound calls, (ready.after calls).ends_lexeme⟩,
    fun scanner shows positive => ⟨shows.loopsEnd positive, Scan.ends_textWithin shows⟩,
    fun calls token => (ready.after calls).lt_next token, ready.exists_eof,
    fun first later before eof => ?_⟩
  obtain ⟨reading_eq, token_eq, line_eq⟩ := ready.stays before eof
  rw [reading_eq, token_eq]
  exact ⟨rfl, rfl, rfl, line_eq⟩

/-- A directory, which is opened and then refuses to be read. -/
theorem calls_end_directory :
    let lexer := opened "a.wast" 80 (.file (.directory "a.wast")) 1 4096
    (lexer.reading 3).token = (lexer.reading 0).token ∧ (lexer.reading 3).diagnostics = #[] := by
  have unread : (Source.file (.directory "a.wast")).position = 0 := rfl
  have ends := (calls_end rfl unread "a.wast" 80 1 4096).2.2.2.2
  have stays := ends 0 3 (by decide) (by decide +kernel)
  exact ⟨stays.1, stays.2.2.1⟩

end Lexer

end WasmText

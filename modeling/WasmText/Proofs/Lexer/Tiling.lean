import WasmText.Proofs.Lexer.Lines
import WasmText.Proofs.Lexer.Reads
import WasmText.Proofs.Lexer.Stretch

/-!
# Nothing is lost

The tokens up to the end of the input and the gaps between them make up the whole input. Every gap
is white space, comments and bytes in error, and the errors of the gaps and tokens are the ones
reported.
-/

namespace WasmText

/-- Readings make up the bytes ahead of those before: gaps and tokens in turn, up to the end. Each
reading has the token that the bytes spell, where they are, and the errors of those bytes and of the
gap before them. A gap without errors is white space and comments. -/
inductive Tiled (filename : String) : List UInt8 → List UInt8 → List Reading → Prop
  | ended {before gap errors reading} (fills : Gap before gap errors [])
      (quiet : errors = [] → Quiet gap [])
      (token_eq : reading.token = (⟨.eof, .none, .ofSpan filename (before ++ gap) []⟩ : Token))
      (reports : reading.diagnostics.toList.map Diagnostic.message =
        errors.map LexError.message) :
      Tiled filename before gap [reading]
  | token {before gap bytes ahead errors more lexeme reading readings}
      (fills : Gap before gap errors (bytes ++ ahead))
      (quiet : errors = [] → Quiet gap (bytes ++ ahead)) (nonempty : bytes ≠ [])
      (spells : Spelling (before ++ gap) bytes lexeme more ahead)
      (token_eq : reading.token =
        (⟨lexeme.kind, lexeme.payload, .ofSpan filename (before ++ gap) bytes⟩ : Token))
      (reports : reading.diagnostics.toList.map Diagnostic.message =
        (errors ++ more).map LexError.message)
      (further : Tiled filename (before ++ gap ++ bytes) ahead readings) :
      Tiled filename before (gap ++ (bytes ++ ahead)) (reading :: readings)

variable {before ahead bytes gap rest : List UInt8} {errors more : List LexError} {lexeme : Lexeme}

/-- Only white space and comments have no errors. -/
theorem Filler.trivia_of_nil {filler : List UInt8} (fills : Filler before filler errors rest)
    (silent : errors = []) : Trivia filler rest := by
  cases fills with
  | trivia trivia => exact trivia
  | stray | unknownAtom | unclosedComment => cases silent
  | brokenString | lastString => exact absurd silent (List.append_ne_nil_of_right_ne_nil _ nofun)

theorem Gap.quiet (fills : Gap before gap errors rest) (silent : errors = []) :
    Quiet gap rest := by
  induction fills with
  | nil => exact .nil
  | cons first _ induction =>
      obtain ⟨first_silent, others_silent⟩ := List.append_eq_nil_iff.mp silent
      exact .cons (first.trivia_of_nil first_silent) (induction others_silent)

namespace Spelling

theorem nonempty (spells : Spelling before bytes lexeme errors rest) : bytes ≠ [] := by
  cases spells with
  | atom atom => exact atom.nonempty
  | leftParen | rightParen | string => exact List.cons_ne_nil _ _

/-- A lexeme says what its bytes are. -/
theorem meaning (spells : Spelling before bytes lexeme errors rest) : lexeme.Says bytes := by
  cases spells with
  | leftParen | rightParen => exact fun _ _ => ⟨nofun, nofun⟩
  | atom _ known => exact Atom.says_atomLexeme known
  | string => exact rfl

/-- No bytes spell the end of the input. -/
theorem kind_ne_eof (spells : Spelling before bytes lexeme errors rest) : lexeme.kind ≠ .eof := by
  intro eof
  have meaning := spells.meaning
  rw [Lexeme.Says, eof] at meaning
  exact spells.nonempty meaning.2

/-- No run of atom bytes goes on behind a token. -/
theorem parted (spells : Spelling before bytes lexeme errors rest) :
    Parted (before ++ bytes) rest := by
  cases spells with
  | leftParen | rightParen => exact parted_of_last rfl (by decide)
  | atom atom => exact parted_of_not_heads atom.to_end
  | @string content =>
      have last_eq : (Ascii.quote :: content ++ [Ascii.quote]).getLast? = some Ascii.quote :=
        List.getLast?_concat
      exact parted_of_last last_eq (by decide)

end Spelling

theorem Stretch.cases (stretch : Stretch before ahead errors lexeme bytes rest) :
    (lexeme = .eof ∧ bytes = [] ∧ rest = [] ∧ Gap before ahead errors []) ∨
      ∃ gap gap_errors own_errors, ahead = gap ++ (bytes ++ rest) ∧
        errors = gap_errors ++ own_errors ∧ Gap before gap gap_errors (bytes ++ rest) ∧
        Spelling (before ++ gap) bytes lexeme own_errors rest := by
  cases stretch with
  | ended fills => exact .inl ⟨rfl, rfl, rfl, fills⟩
  | token fills spells => exact .inr ⟨_, _, _, rfl, rfl, fills, spells⟩

namespace Lexer

variable {lexer after : Lexer Cursor} {readings : List Reading} {contents : Bytes}

/-- A lexer between two tokens. -/
structure Between (lexer : Lexer Cursor) : Prop where
  /-- The bookkeeping is right. -/
  tidy : lexer.Tidy
  /-- Any lexeme may come. -/
  normal : lexer.mode = .normal
  /-- No fatal error has been reported. -/
  running : lexer.finished = false
  /-- All errors have been handed out. -/
  silent : lexer.reported = #[]
  /-- No run of atom bytes is cut in two. -/
  parted : Parted lexer.tape.passed lexer.tape.ahead

theorem between_plain (filename : String) (lineWidth : Nat) (contents : Bytes) :
    (plain filename lineWidth contents).Between where
  tidy := tidy_ofTape filename lineWidth contents
  normal := rfl
  running := rfl
  silent := rfl
  parted := by
    rintro ⟨⟨last, last_eq, -⟩, -⟩
    cases last_eq

/-- The bytes before the token of a call, the token and the bytes left are those from before the
call. -/
theorem Finds.bytes_split (finds : Finds lexer errors lexeme after) (tidy : lexer.Tidy) :
    after.tape.bytes.toList.take after.tape.token ++ (after.tape.pending ++ after.tape.ahead) =
      lexer.tape.passed ++ lexer.tape.ahead := by
  rw [← List.append_assoc, ← (finds.tidy tidy).passed_eq, Cursor.passed_append_ahead,
    Cursor.passed_append_ahead, finds.bytes_eq.1]

/-- The token of a call, the bytes before which are given. -/
theorem Finds.token_eq (finds : Finds lexer errors lexeme after) (tidy : lexer.Tidy)
    (small : lexer.tape.bytes.size < maximalColumn)
    (split : lexer.tape.passed ++ lexer.tape.ahead =
      before ++ (after.tape.pending ++ after.tape.ahead)) :
    (handOut lexeme after).1.token =
      ⟨lexeme.kind, lexeme.payload, .ofSpan lexer.filename before after.tape.pending⟩ := by
  obtain ⟨same_bytes, same_filename⟩ := finds.bytes_eq
  have located := (finds.tidy tidy).token_location (finds.token tidy).1 (same_bytes ▸ small)
  have before_eq := List.append_cancel_right ((finds.bytes_split tidy).trans split)
  rw [handOut, located, before_eq, same_filename]

/-- The errors of a call are the ones that it hands out. -/
theorem Finds.reports (finds : Finds lexer errors lexeme after) (silent : lexer.reported = #[]) :
    (handOut lexeme after).1.diagnostics.toList.map Diagnostic.message =
      errors.map LexError.message := by
  have messages := finds.messages
  rw [silent] at messages
  exact messages

/-- After a token the lexer is between two tokens again. -/
theorem Between.next (between : lexer.Between) (finds : Finds lexer errors lexeme after)
    (spells : Spelling before after.tape.pending lexeme more after.tape.ahead)
    (split : lexer.tape.passed ++ lexer.tape.ahead =
      before ++ (after.tape.pending ++ after.tape.ahead)) :
    (handOut lexeme after).2.Between ∧ after.tape.passed = before ++ after.tape.pending := by
  have after_tidy := finds.tidy between.tidy
  have no_eof : lexeme ≠ .eof := fun eof => spells.kind_ne_eof (congrArg Lexeme.kind eof)
  obtain ⟨normal, running⟩ := finds.fresh between.running no_eof
  have before_eq := List.append_cancel_right ((finds.bytes_split between.tidy).trans split)
  have passed_eq : after.tape.passed = before ++ after.tape.pending := by
    rw [after_tidy.passed_eq, before_eq]
  refine ⟨⟨after_tidy.handOut, normal, running, rfl, ?_⟩, passed_eq⟩
  change Parted after.tape.passed after.tape.ahead
  rw [passed_eq]
  exact spells.parted

/-- From between two tokens on, a call comes to the end of the input or to a token. -/
theorem Between.stretch (between : lexer.Between) (finds : Finds lexer errors lexeme after) :
    Stretch lexer.tape.passed lexer.tape.ahead errors lexeme after.tape.pending
      after.tape.ahead := by
  have stretch := finds.stretch between.tidy between.running
  rw [between.normal] at stretch
  exact stretch between.parted

/-- What a lexer reads from between two tokens on makes up the bytes ahead of it. -/
theorem Between.tiled (between : lexer.Between) (small : lexer.tape.bytes.size < maximalColumn)
    (reads : Reads lexer readings) :
    Tiled lexer.filename lexer.tape.passed lexer.tape.ahead readings := by
  induction reads with
  | @last lexer after errors finds =>
      rcases (between.stretch finds).cases with
        ⟨-, pending_eq, rest_eq, fills⟩ | ⟨gap, gap_errors, own_errors, -, -, -, spells⟩
      · have split : lexer.tape.passed ++ lexer.tape.ahead =
            lexer.tape.passed ++ lexer.tape.ahead ++ (after.tape.pending ++ after.tape.ahead) := by
          rw [pending_eq, rest_eq, List.append_nil, List.append_nil]
        have token_eq := finds.token_eq between.tidy small split
        rw [pending_eq] at token_eq
        exact .ended fills fills.quiet token_eq (finds.reports between.silent)
      · exact absurd rfl spells.kind_ne_eof
  | @more lexer after errors lexeme readings finds token _ induction =>
      rcases (between.stretch finds).cases with
        ⟨eof, -⟩ | ⟨gap, gap_errors, own_errors, ahead_eq, rfl, fills, spells⟩
      · exact absurd eof token
      · have split : lexer.tape.passed ++ lexer.tape.ahead =
            lexer.tape.passed ++ gap ++ (after.tape.pending ++ after.tape.ahead) := by
          rw [ahead_eq, List.append_assoc]
        obtain ⟨next_between, passed_eq⟩ := between.next finds spells split
        obtain ⟨bytes_eq, filename_eq⟩ := finds.bytes_eq
        have further := induction next_between (bytes_eq ▸ small)
        have token_eq := finds.token_eq between.tidy small split
        rw [ahead_eq]
        refine .token fills fills.quiet spells.nonempty spells token_eq
          (finds.reports between.silent) ?_
        rw [← passed_eq, ← filename_eq]
        exact further

theorem tiled_plain (filename : String) (lineWidth : Nat) (contents : Bytes)
    (small : contents.size < maximalColumn) :
    Tiled filename [] contents.toList (plain filename lineWidth contents).readings.1.toList :=
  (between_plain filename lineWidth contents).tiled small
    (reads_readings (tidy_ofTape filename lineWidth contents))

/-- No byte is lost, told twice or moved. Unless a refill fails, the tokens up to the end of the
input, with gaps between them, make up the input; every gap consists of white space, comments and
the bytes that the errors reported are about. -/
theorem readings_tiled {source : Source} (opens : source.Opens contents) (filename : String)
    (lineWidth size bound : Nat) (small : contents.size < maximalColumn)
    (flowing : (opened filename lineWidth source size bound).readings.2.tape.stalled = false) :
    Tiled filename [] contents.toList
      (opened filename lineWidth source size bound).readings.1.toList := by
  have sound := sound_opened opens filename lineWidth size bound
  have place_eq : (opened filename lineWidth source size bound).place contents =
      plain filename lineWidth contents := rfl
  have agrees := (sound.readings.agrees flowing).2
  have tiled := tiled_plain filename lineWidth contents small
  rw [place_eq] at agrees
  rw [agrees] at tiled
  dsimp only at tiled
  exact tiled

/-- A parenthesis, a line comment, a byte in error and a name, from a window of one byte. -/
theorem readings_tiled_recovering :
    Tiled "a.wast" [] "(\n;;\n, $a".toUTF8.data.toList
      (opened "a.wast" 0 (.ofBytes "(\n;;\n, $a".toUTF8.data) 1 4096).readings.1.toList :=
  readings_tiled (Source.opens_ofBytes "(\n;;\n, $a".toUTF8.data) "a.wast" 0 1 4096
    (by decide +kernel) (by decide +kernel)

end Lexer

end WasmText

import WasmText.Proofs.Buffer.Taking
import WasmText.Proofs.Diagnostic.Clipping
import WasmText.Proofs.Lexer.Ending
import WasmText.Proofs.Token

/-!
# Legible reports

The message and the source line of a report have no newlines inside, whatever bytes they quote and
even when a refill has failed: an atom is quoted as far as it has been eaten, a bad escape with the
byte behind its backslash, which is on the same line, and a line without the newline that ends it.
-/

namespace WasmText

/-- A diagnostic about a source each part of which stays on its line, with no more of the source line
than the width. -/
structure Diagnostic.Legible (filename : String) (width : Nat) (diagnostic : Diagnostic) :
    Prop where
  /-- It is about the source. -/
  filename_eq : diagnostic.location.filename = filename
  /-- Its message is on one line. -/
  message : OneLine diagnostic.message
  /-- Its source line is one line, or the part of it that is asked for. -/
  sourceLine : ∀ shown ∈ diagnostic.sourceLine, OneLine shown.text ∧ shown.text.length ≤ width

/-- A reading that is written on lines of their own. -/
structure Reading.Legible (filename : String) (width : Nat) (reading : Reading) : Prop where
  /-- The token is displayed on one line. -/
  token : OneLine reading.token.display
  /-- Each error is legible. -/
  diagnostics : ∀ diagnostic ∈ reading.diagnostics, diagnostic.Legible filename width

/-- The messages that quote nothing are on one line. -/
theorem LexError.oneLine_message {error : LexError} (plain : error.quotes = false) :
    OneLine error.message := by
  cases error <;> first | decide | cases plain

namespace Lexer

/-- A lexer over a buffer all reports of which are legible. -/
structure Legible (contents : Bytes) (filename : String) (width : Nat) (lexer : Lexer Buffer) :
    Prop extends Sound contents lexer where
  /-- No failure is one to read the source. -/
  willing : lexer.tape.Willing contents
  /-- The name of the source stays the same. -/
  filename_eq : lexer.filename = filename
  /-- The width of source lines stays the same. -/
  lineWidth_eq : lexer.lineWidth = width
  /-- The reports are legible. -/
  reported : ∀ diagnostic ∈ lexer.reported, diagnostic.Legible filename width

variable {contents : Bytes} {filename : String} {width : Nat} {lexer : Lexer Buffer}

/-- A lexer that reports nothing stays legible. -/
theorem Legible.kept (legible : lexer.Legible contents filename width) {after : Lexer Buffer}
    (sound : after.Sound contents) (willing : after.tape.Willing contents)
    (filename_eq : after.filename = lexer.filename)
    (lineWidth_eq : after.lineWidth = lexer.lineWidth)
    (reported_eq : after.reported = lexer.reported) : after.Legible contents filename width where
  toSound := sound
  willing := willing
  filename_eq := filename_eq.trans legible.filename_eq
  lineWidth_eq := lineWidth_eq.trans legible.lineWidth_eq
  reported := reported_eq ▸ legible.reported

end Lexer

namespace Scan

variable {α β : Type} {contents : Bytes} {filename : String} {width : Nat} {lexer : Lexer Buffer}

/-- A scan makes legible reports. -/
def Reports (contents : Bytes) (filename : String) (width : Nat) (scan : Scan Buffer α) : Prop :=
  ∀ lexer : Lexer Buffer, lexer.Legible contents filename width →
    (scan lexer).2.Legible contents filename width

theorem Reports.bind {scan : Scan Buffer α} {next : α → Scan Buffer β}
    (first : Reports contents filename width scan)
    (second : ∀ answer, Reports contents filename width (next answer)) :
    Reports contents filename width (scan >>= next) :=
  fun lexer legible => second _ _ (first lexer legible)

theorem Reports.ite {condition : Prop} [Decidable condition] {yes no : Scan Buffer α}
    (if_yes : Reports contents filename width yes) (if_no : Reports contents filename width no) :
    Reports contents filename width (if condition then yes else no) := by
  split
  · exact if_yes
  · exact if_no

/-- An operation of the tape reports nothing. -/
theorem reports_ask {operation : Buffer → α × Buffer} {plain : Scan Cursor α}
    (tracks : Tracks contents (ask operation) plain)
    (willing : ∀ buffer : Buffer, buffer.Willing contents →
      (operation buffer).2.Willing contents) :
    Reports contents filename width (ask operation) :=
  fun lexer legible => legible.kept (tracks lexer legible.toSound).sound
    (willing lexer.tape legible.willing) rfl rfl rfl

theorem reports_move {operation : Buffer → Buffer} {plain : Scan Cursor Unit}
    (tracks : Tracks contents (move operation) plain)
    (willing : ∀ buffer : Buffer, buffer.Willing contents → (operation buffer).Willing contents) :
    Reports contents filename width (move operation) :=
  fun lexer legible => legible.kept (tracks lexer legible.toSound).sound
    (willing lexer.tape legible.willing) rfl rfl rfl

/-! ### Source lines -/

/-- What is shown of the line that the lexer is on. -/
theorem lineFor_eq (sound : lexer.Sound contents) (location : Location)
    (on_line : location.line = lexer.line) :
    ∃ source, lineFor location lexer =
      (if lexer.lineWidth = 0 then none else
        some (SourceLine.ofLine (lineOf (contents.toList.drop lexer.lineOffset))
          location.firstColumn location.lastColumn lexer.lineWidth),
        { lexer with tape := { lexer.tape with source } }) := by
  have answers : Search.Answers contents
      (SourceLine.search lexer.anchor location lexer.lineWidth) _ :=
    SourceLine.answers_search lexer.lineWidth on_line sound.anchored
  obtain ⟨source, searched, -⟩ := answers lexer.tape.source sound.serves
  have looked_up : lexer.sourceLine location lexer.lineWidth =
      (.ok (SourceLine.ofLine (lineOf (contents.toList.drop lexer.lineOffset))
        location.firstColumn location.lastColumn lexer.lineWidth),
        { lexer with tape := { lexer.tape with source } }) := by
    change (((SourceLine.search lexer.anchor location lexer.lineWidth).run lexer.tape.source).1,
      { lexer with tape := { lexer.tape with
        source := ((SourceLine.search lexer.anchor location lexer.lineWidth).run
          lexer.tape.source).2 } }) = _
    rw [searched]
    rfl
  change ∃ source, (if lexer.lineWidth = 0 then pure none else do
    let outcome ← fun lexer' => lexer'.sourceLine location lexer.lineWidth
    pure outcome.toOption : Scan Buffer (Option SourceLine)) lexer = _
  split
  · exact ⟨lexer.tape.source, rfl⟩
  · refine ⟨source, ?_⟩
    rw [run_bind, looked_up]
    rfl

theorem reports_report (error : LexError) (line : OneLine error.message) :
    Reports contents filename width (report error) := by
  intro lexer legible
  have sound := (tracks_report error lexer legible.toSound).sound
  obtain ⟨source, looked_up⟩ := lineFor_eq legible.toSound
    (lexer.location lexer.tape.marker lexer.tape.cursor) rfl
  have reported := report_eq error lexer
  simp only [looked_up] at reported
  rw [reported] at sound ⊢
  refine ⟨sound, ⟨sound.serves, legible.willing.readable⟩, legible.filename_eq,
    legible.lineWidth_eq, fun diagnostic present => ?_⟩
  rcases Array.mem_push.mp present with earlier | rfl
  · exact legible.reported diagnostic earlier
  · refine ⟨legible.filename_eq, line, fun shown same => ?_⟩
    dsimp only at same
    split at same
    · cases same
    · rename_i limited
      cases same
      rw [← legible.lineWidth_eq]
      exact ⟨SourceLine.oneLine_ofLine (newline_not_mem_lineOf _),
        SourceLine.length_ofLine_le (Nat.pos_of_ne_zero limited)⟩

/-! ### Steps -/

theorem traversal_reports :
    Traversal (σ := Buffer) (τ := Buffer) fun _ scan _ => Reports contents filename width scan where
  pure := fun _ _ => id
  bind := Reports.bind
  get := fun next lexer legible => next lexer lexer ⟨rfl, rfl, rfl⟩ lexer legible
  beginToken := reports_move tracks_beginToken fun _ willing => ⟨willing.serves, willing.readable⟩
  mark := reports_move tracks_mark fun _ willing => ⟨willing.serves, willing.readable⟩
  peek := fun ahead => reports_ask (tracks_peek ahead) fun _ => Buffer.lasts_willing.reach ahead
  isEndAt := fun ahead =>
    reports_ask (tracks_isEndAt ahead) fun _ => Buffer.lasts_willing.reach ahead
  advance := fun count => reports_move (tracks_advance count) fun _ willing =>
    Buffer.lasts_willing.advance willing count
  eatWhile := fun accepts => reports_move (tracks_eatWhile accepts) fun _ willing =>
    Buffer.lasts_willing.eatWhile willing accepts
  skipUntil := fun wanted => reports_ask (tracks_skipUntil wanted) fun _ willing =>
    Buffer.lasts_willing.skipUntil willing wanted
  tokenBytes := fun _ => id
  markedBytes := fun _ => id
  remaining := fun _ => id
  startLine := fun lexer legible =>
    legible.kept (tracks_startLine lexer legible.toSound).sound legible.willing rfl rfl rfl
  nest := fun change lexer legible =>
    legible.kept (tracks_nest change lexer legible.toSound).sound legible.willing rfl rfl rfl
  enter := fun mode lexer legible =>
    legible.kept (simulation_tracks.enter mode lexer legible.toSound).sound legible.willing
      rfl rfl rfl
  reportPlain := fun error plain => reports_report error (LexError.oneLine_message plain)

/-- An unknown atom is quoted as far as it has been eaten. -/
theorem legible_atom (legible : lexer.Legible contents filename width)
    (started : lexer.tape.token = lexer.tape.cursor) :
    (atom lexer).2.Legible contents filename width := by
  have eaten_legible := traversal_reports.eatWhile Atom.isAtomByte lexer legible
  have accepted := legible.shows.accepted_tokenBytes Atom.isAtomByte started
  have viewed : view Tape.tokenBytes (eatWhile Atom.isAtomByte lexer).2 =
      ((lexer.tape.eatWhile Atom.isAtomByte).tokenBytes, (eatWhile Atom.isAtomByte lexer).2) := rfl
  unfold atom
  rw [run_bind, run_bind, viewed]
  generalize (lexer.tape.eatWhile Atom.isAtomByte).tokenBytes = bytes at accepted ⊢
  generalize (eatWhile Atom.isAtomByte lexer).2 = eaten at eaten_legible ⊢
  have on_line : OneLine bytes.toText :=
    Bytes.oneLine_toText fun newline => absurd (accepted _ newline) (by decide)
  dsimp only
  cases atomLexeme? bytes with
  | some lexeme => exact eaten_legible
  | none =>
      refine reports_report _ ?_ eaten eaten_legible
      exact OneLine.append_iff.mpr ⟨OneLine.append_iff.mpr ⟨by decide, on_line⟩, by decide⟩

/-- Only peeking measures an escape. -/
theorem samePlace_escapeLength (lexer : Lexer Buffer) :
    Buffer.SamePlace lexer.tape (escapeLength lexer).2.tape := by
  have first_same : Buffer.SamePlace lexer.tape (peek 1 lexer).2.tape :=
    Buffer.samePlace_reach lexer.tape 1
  unfold escapeLength
  rw [run_bind]
  generalize peek 1 lexer = first at first_same ⊢
  rw [run_ite]
  split
  · exact first_same
  · rw [run_ite]
    split
    · rw [run_bind]
      exact first_same.trans (Buffer.samePlace_reach first.2.tape 2)
    · exact first_same

/-- A bad escape is quoted with the byte behind its backslash, unless that is none or a newline. -/
theorem legible_badTextEscape (legible : lexer.Legible contents filename width)
    (marked : lexer.tape.marker = lexer.tape.cursor)
    (here : contents[lexer.tape.cursor]? = some Ascii.backslash) :
    (badTextEscape lexer).2.Legible contents filename width := by
  have measured_legible := traversal_reports.escapeLength lexer legible
  have same := samePlace_escapeLength lexer
  unfold badTextEscape
  rw [run_bind]
  generalize escapeLength lexer = measured at measured_legible same ⊢
  obtain ⟨length, measured⟩ := measured
  dsimp only at measured_legible same ⊢
  rw [← same.cursor] at here
  have measured_marked : measured.tape.marker = measured.tape.cursor :=
    same.marker.trans (marked.trans same.cursor.symm)
  rw [run_ite]
  split
  · rw [run_bind, run_ite]
    have seen_legible := traversal_reports.peek 1 measured measured_legible
    split
    · exact traversal_reports.lone _ seen_legible
    · rename_i on_line
      have tested : isEndAt 1 (peek 1 measured).2 =
          (decide ((measured.tape.reach 1).dataEnd ≤ measured.tape.cursor + 1),
            (peek 1 measured).2) := by
        change (((measured.tape.reach 1).isEndAt 1).1,
          { measured with tape := ((measured.tape.reach 1).isEndAt 1).2 }) = _
        rw [measured_legible.shows.isEndAt_reach 1]
        rfl
      rw [run_bind, tested, run_ite]
      split
      · exact traversal_reports.lone _ seen_legible
      · rename_i before_end
        have second := measured_legible.shows.getElem?_of_peek
          (Nat.lt_of_not_le fun past => before_end (decide_eq_true past))
        have seen_same := Buffer.samePlace_reach measured.tape 1
        rw [← seen_same.cursor] at here second
        have quoted := Bytes.oneLine_toText (seen_legible.shows.newline_not_mem_markedBytes
          (seen_same.marker.trans (measured_marked.trans seen_same.cursor.symm)) here (by decide)
          second on_line)
        refine reports_report (.badEscape _) ?_ _
          (traversal_reports.advance 2 _ seen_legible)
        exact OneLine.append_iff.mpr ⟨OneLine.append_iff.mpr ⟨by decide, quoted⟩, by decide⟩
  · exact traversal_reports.advance length _ measured_legible

/-- A step in normal mode is at the beginning of a token. -/
theorem legible_normal (legible : lexer.Legible contents filename width)
    (started : lexer.tape.token = lexer.tape.cursor) :
    (normal lexer).2.Legible contents filename width := by
  have scans := @traversal_reports contents filename width
  have seen_legible := scans.peek 0 lexer legible
  have same := Buffer.samePlace_reach lexer.tape 0
  have seen_started : (peek 0 lexer).2.tape.token = (peek 0 lexer).2.tape.cursor :=
    same.token.trans (started.trans same.cursor.symm)
  unfold normal
  rw [run_bind]
  generalize peek 0 lexer = peeked at seen_legible seen_started ⊢
  obtain ⟨byte, seen⟩ := peeked
  dsimp only at seen_legible seen_started ⊢
  rw [run_ite]; split
  · exact (Reports.bind (scans.isEndAt 0) fun _ => .ite (scans.pure _) scans.unexpectedChar) seen
      seen_legible
  rw [run_ite]; split
  · refine (Reports.bind (scans.peek 1) fun _ => .ite ?_ (scans.single _)) seen seen_legible
    exact Reports.bind (scans.advance 2) fun _ => Reports.bind (scans.nest _) fun _ => scans.pure _
  rw [run_ite]; split
  · exact scans.single _ seen seen_legible
  rw [run_ite]; split
  · refine (Reports.bind (scans.peek 1) fun _ => .ite ?_ scans.unexpectedChar) seen seen_legible
    exact Reports.bind (scans.advance 2) fun _ => scans.pure _
  rw [run_ite]; split
  · exact scans.text seen seen_legible
  rw [run_ite]; split
  · exact (Reports.bind (scans.eatWhile _) fun _ => scans.pure _) seen seen_legible
  rw [run_ite]; split
  · exact (Reports.bind (scans.advance 1) fun _ => Reports.bind scans.startLine fun _ =>
      scans.pure _) seen seen_legible
  rw [run_ite]; split
  · exact legible_atom seen_legible seen_started
  · exact scans.unexpectedChar seen seen_legible

/-- A step in a bad text is at its marker. -/
theorem legible_badText (legible : lexer.Legible contents filename width)
    (marked : lexer.tape.marker = lexer.tape.cursor) :
    (badText lexer).2.Legible contents filename width := by
  have scans := @traversal_reports contents filename width
  have seen_legible := scans.peek 0 lexer legible
  have same := Buffer.samePlace_reach lexer.tape 0
  have seen_marked : (peek 0 lexer).2.tape.marker = (peek 0 lexer).2.tape.cursor :=
    same.marker.trans (marked.trans same.cursor.symm)
  have here : (peek 0 lexer).1 ≠ 0 →
      contents[(peek 0 lexer).2.tape.cursor]? = some (peek 0 lexer).1 := by
    intro visible
    have inside := (inside_of_peek 0 legible.shows visible).2
    change (lexer.tape.reach 0).cursor < (lexer.tape.reach 0).dataEnd at inside
    rw [same.cursor, ← Nat.add_zero lexer.tape.cursor] at inside
    change contents[(lexer.tape.reach 0).cursor]? = _
    rw [Buffer.reach_cursor]
    exact legible.shows.getElem?_of_peek inside
  unfold badText
  rw [run_bind]
  generalize peek 0 lexer = peeked at seen_legible seen_marked here ⊢
  obtain ⟨byte, seen⟩ := peeked
  dsimp only at seen_legible seen_marked here ⊢
  rw [run_ite]; split
  · refine (Reports.bind (scans.isEndAt 0) fun _ => .ite ?_ scans.illegalChar) seen seen_legible
    exact Reports.bind (scans.reportPlain _ rfl) fun _ => .bind scans.eof fun _ => scans.pure _
  rw [run_ite]; split
  · exact scans.closeText seen seen_legible
  rw [run_ite]; split
  · exact (Reports.bind (scans.advance 1) fun _ => .bind (scans.reportPlain _ rfl) fun _ =>
      .bind scans.startLine fun _ => scans.pure _) seen seen_legible
  rw [run_ite]; split
  · rename_i visible _ _ backslash
    exact legible_badTextEscape seen_legible seen_marked (backslash ▸ here visible)
  rw [run_ite]; split
  · exact (Reports.bind (scans.eatWhile _) fun _ => scans.pure _) seen seen_legible
  · exact scans.illegalChar seen seen_legible

/-! ### Rounds -/

/-- A step begins at its marker and, outside of strings, at a token. -/
theorem begun_beginStep (lexer : Lexer Buffer) :
    (beginStep lexer).2.tape.marker = (beginStep lexer).2.tape.cursor ∧
      ((beginStep lexer).2.mode ≠ .badText →
        (beginStep lexer).2.tape.token = (beginStep lexer).2.tape.cursor) := by
  have begun_eq : beginStep lexer = (if lexer.mode ≠ .badText then do
      move Tape.beginToken
      move Tape.mark
    else move Tape.mark : Scan Buffer Unit) lexer := rfl
  rw [begun_eq, run_ite]
  split
  · exact ⟨rfl, fun _ => rfl⟩
  · rename_i text
    exact ⟨rfl, fun no_text => absurd no_text text⟩

theorem legible_turn (legible : lexer.Legible contents filename width) :
    (turn lexer).2.Legible contents filename width := by
  have scans := @traversal_reports contents filename width
  have begun_legible := scans.beginStep lexer legible
  obtain ⟨marked, started⟩ := begun_beginStep lexer
  unfold turn
  rw [run_bind, run_bind]
  refine scans.enter _ _ ?_
  generalize (beginStep lexer).2 = begun at begun_legible marked started ⊢
  rw [Lexer.run_step]
  cases mode : begun.mode with
  | normal => exact legible_normal begun_legible (started (mode ▸ nofun))
  | badText => exact legible_badText begun_legible marked
  | lineComment => exact scans.lineComment begun begun_legible
  | blockComment => exact scans.blockComment begun begun_legible

/-- The one failure that there can be is told in fixed words. -/
theorem legible_stopOnFailure (legible : lexer.Legible contents filename width) :
    (stopOnFailure lexer).2.Legible contents filename width := by
  have reports : Reports contents filename width (ask Tape.takeFailure) :=
    reports_ask tracks_takeFailure fun _ willing => ⟨willing.serves, nofun⟩
  have taken_legible := reports lexer legible
  have taken : ask Tape.takeFailure lexer = (lexer.tape.failure, (ask Tape.takeFailure lexer).2) :=
    rfl
  have readable := legible.willing.readable
  unfold stopOnFailure
  rw [run_bind, taken]
  generalize (ask Tape.takeFailure lexer).2 = after at taken_legible ⊢
  generalize lexer.tape.failure = failure at readable ⊢
  dsimp only
  match failure with
  | none | some .exhausted => exact taken_legible
  | some .outOfMemory | some .capacityOverflow =>
      exact reports_report .bufferAllocation (by decide) after taken_legible
  | some (.unreadable error) => exact absurd rfl (readable error)

theorem legible_round (legible : lexer.Legible contents filename width) :
    (round lexer).2.Legible contents filename width := by
  have scans := @traversal_reports contents filename width
  cases finished : lexer.finished with
  | true =>
      rw [round_of_finished finished]
      exact scans.beginToken lexer legible
  | false =>
      have stopped_legible := legible_stopOnFailure (legible_turn legible)
      rw [round_of_running finished]
      split
      · exact scans.beginToken _ stopped_legible
      · exact stopped_legible

end Scan

namespace Piece

/-- A lexeme says nothing that takes more than a line. -/
theorem Fits.oneLine_payload {nesting : Nat} {token rest : List UInt8} {mode : Mode}
    {piece : Piece} (fits : Fits nesting token mode piece rest)
    (on_line : Ascii.newline ∉ token) {lexeme : Lexeme} (completes : piece.lexeme = some lexeme) :
    OneLine lexeme.payload.display := by
  cases fits with
  | atEnd | textAtEnd | lineAtEnd | blockAtEnd | leftParen | rightParen =>
      cases completes
      exact nofun
  | atom _ atom_bytes =>
      rw [ofAtom_lexeme] at completes
      exact Atom.oneLine_payload completes (not_mem_of_all atom_bytes (by decide))
  | text clean =>
      cases completes
      refine Bytes.oneLine_toText ?_
      have no_quote : Ascii.newline ≠ Ascii.quote := by decide
      simpa [no_quote] using newline_not_mem_clean clean
  | textClosing =>
      cases completes
      refine Bytes.oneLine_toText ?_
      have no_quote : Ascii.newline ≠ Ascii.quote := by decide
      simpa [no_quote] using on_line
  | blockOpening | lineOpening | blanks | newline | textOpening | stray | textAtNewline | unit |
      plains | lineAtNewline | blockAtNewline | nestedOpening | blockClosing | undelimiting =>
      cases completes

end Piece

namespace Lexer

variable {contents : Bytes} {filename : String} {width : Nat} {lexer : Lexer Buffer}

/-- What a call comes to is said on one line. -/
theorem Ready.oneLine_lexeme (ready : lexer.Ready contents) {outcome : Lexeme × Lexer Buffer}
    (ends : Loop.Ends Scan.round lexer outcome) : OneLine outcome.1.payload.display := by
  induction ends with
  | @done lexer after lexeme gives =>
      have round_ends := ready.round.2
      rw [gives] at round_ends
      generalize outcome_eq : (some lexeme, after) = outcome at round_ends
      cases round_ends with
      | stopped =>
          cases outcome_eq
          exact nofun
      | turned running flowing =>
          obtain ⟨rest, -, fits⟩ := (lexer.bare contents).exists_rest
          have completes : (Scan.turn lexer).1 = some lexeme :=
            (congrArg Prod.fst outcome_eq).symm
          exact fits.oneLine_payload (ready.tidy running).on_line
            ((ready.turn running flowing).1.symm.trans completes)
  | @again lexer next outcome goes_on _ induction =>
      have next_ready := ready.round_ready
      rw [goes_on] at next_ready
      exact induction next_ready

/-- What a call hands out is legible. -/
theorem Legible.next (legible : lexer.Legible contents filename width)
    (ready : lexer.Ready contents) :
    lexer.next.2.Legible contents filename width ∧ lexer.next.1.Legible filename width := by
  have last := ready.ends_lexeme.keeps (fun _ => Scan.legible_round) legible
  refine ⟨⟨⟨last.shows, last.serves, last.anchored⟩, last.willing, last.filename_eq,
    last.lineWidth_eq, fun diagnostic present => absurd present (Array.not_mem_empty _)⟩, ?_,
    last.reported⟩
  exact Token.oneLine_display (ready.oneLine_lexeme ready.ends_lexeme)

theorem Legible.readingsWithin (legible : lexer.Legible contents filename width)
    (ready : lexer.Ready contents) {tokens : Nat}
    (enough : contents.size - lexer.tape.cursor < tokens) (earlier : Array Reading) :
    ∃ readings last, (lexer.readingsWithin tokens earlier).1.toList =
        earlier.toList ++ (readings ++ [last]) ∧
      last.token.isEof = true ∧ (∀ reading ∈ readings, reading.token.isEof = false) ∧
      ∀ reading ∈ readings ++ [last], reading.Legible filename width := by
  induction tokens generalizing lexer earlier with
  | zero => exact absurd enough (Nat.not_lt_zero _)
  | succ tokens induction =>
      obtain ⟨next_legible, reading_legible⟩ := legible.next ready
      rw [Lexer.readingsWithin]
      dsimp only
      cases eof : lexer.next.1.token.isEof with
      | true =>
          rw [if_pos rfl]
          refine ⟨[], lexer.next.1, Array.toList_push, eof,
            fun _ absent => absurd absent List.not_mem_nil, ?_⟩
          exact List.forall_mem_singleton.mpr reading_legible
      | false =>
          have moved := ready.lt_next eof
          have cursor_le := ready.next.shows.cursor_le_dataEnd
          have dataEnd_le := ready.next.shows.dataEnd_le_size
          obtain ⟨readings, last, readings_eq, last_eof, before_end, all_legible⟩ :=
            induction next_legible ready.next (by omega) (earlier.push lexer.next.1)
          rw [if_neg Bool.false_ne_true]
          refine ⟨lexer.next.1 :: readings, last, ?_, last_eof,
            List.forall_mem_cons.mpr ⟨eof, before_end⟩,
            List.forall_mem_cons.mpr ⟨reading_legible, all_legible⟩⟩
          rw [readings_eq, Array.toList_push, List.append_assoc]
          rfl

theorem legible_opened {source : Source} (opens : source.Opens contents) (filename : String)
    (width size bound : Nat) :
    (opened filename width source size bound).Legible contents filename width where
  toSound := sound_opened opens filename width size bound
  willing := ⟨opens.serves, nofun⟩
  filename_eq := rfl
  lineWidth_eq := rfl
  reported := fun _ present => absurd present (Array.not_mem_empty _)

/-- All that is read is legible, and the end of the input is read once and last. -/
theorem legible_readings {source : Source} (opens : source.Opens contents) (filename : String)
    (width size bound : Nat) :
    ∃ readings last, (opened filename width source size bound).readings.1.toList =
        readings ++ [last] ∧
      last.token.isEof = true ∧ (∀ reading ∈ readings, reading.token.isEof = false) ∧
      ∀ reading ∈ readings ++ [last], reading.Legible filename width := by
  have ready := ready_opened opens.serves.contents_eq opens.unread filename width size bound
  have legible := legible_opened opens filename width size bound
  have flowing : (opened filename width source size bound).tape.stalled = false := rfl
  generalize opened filename width source size bound = lexer at ready legible flowing ⊢
  have enough : contents.size - lexer.tape.cursor < Tape.remaining lexer.tape + 1 :=
    Nat.lt_succ_of_le (Nat.le_of_eq (ready.shows.remaining_eq flowing).symm)
  exact legible.readingsWithin ready enough #[]

end Lexer

end WasmText

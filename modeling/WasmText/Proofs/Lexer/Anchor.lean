import WasmText.Proofs.Lexer.Ending
import WasmText.Proofs.Buffer.Taking
import WasmText.Proofs.Source.Numbering

/-!
# The line that is known

A lexer always knows where the line begins that it takes for the current one, even after a refill
has failed: a turn begins a line only at a newline that it sees, and nothing is read ahead of that.
So whatever a lexer has read, it finds every line of its source by its number.
-/

namespace WasmText

namespace Scan

variable {α β : Type} {contents : Bytes} {lexer : Lexer Buffer}

/-! ### Scans on a line -/

/-- A scan that begins no line. -/
def StaysOnLine (scan : Scan Buffer α) : Prop :=
  ∀ lexer : Lexer Buffer, (scan lexer).2.anchor = lexer.anchor

namespace StaysOnLine

theorem pure (answer : α) : StaysOnLine (pure answer) :=
  fun _ => rfl

theorem bind {scan : Scan Buffer α} {next : α → Scan Buffer β} (first : StaysOnLine scan)
    (second : ∀ answer, StaysOnLine (next answer)) : StaysOnLine (scan >>= next) :=
  fun lexer => (second _ _).trans (first lexer)

theorem ite {condition : Prop} [Decidable condition] {yes no : Scan Buffer α}
    (if_yes : condition → StaysOnLine yes) (if_no : ¬ condition → StaysOnLine no) :
    StaysOnLine (if condition then yes else no) := by
  split
  · rename_i holds
    exact if_yes holds
  · rename_i fails
    exact if_no fails

theorem ask (operation : Buffer → α × Buffer) : StaysOnLine (ask operation) :=
  fun _ => rfl

theorem move (operation : Buffer → Buffer) : StaysOnLine (move operation) :=
  fun _ => rfl

theorem view (operation : Buffer → α) : StaysOnLine (view operation) :=
  fun _ => rfl

theorem nest (change : Nat → Nat) : StaysOnLine (nest change) :=
  fun _ => rfl

theorem get {next : Lexer Buffer → Scan Buffer α} (each : ∀ lexer, StaysOnLine (next lexer)) :
    StaysOnLine (get >>= next) :=
  fun lexer => each lexer lexer

end StaysOnLine

/-- A report changes neither the line nor what is known of the input. -/
theorem report_undisturbed (error : LexError) (lexer : Lexer Buffer) :
    (report error lexer).2.anchor = lexer.anchor ∧
      (report error lexer).2.tape.stalled = lexer.tape.stalled := by
  obtain ⟨shown, source, -, looked_up⟩ :=
    lineFor_undisturbed (lexer.location lexer.tape.marker lexer.tape.cursor) lexer
  have reported := report_eq error lexer
  simp only [looked_up] at reported
  rw [reported]
  exact ⟨rfl, rfl⟩

namespace StaysOnLine

theorem report (error : LexError) : StaysOnLine (report error) :=
  fun lexer => (report_undisturbed error lexer).1

theorem eof : StaysOnLine eof :=
  .bind (.move _) fun _ => .pure _

theorem single (kind : TokenKind) : StaysOnLine (single kind) :=
  .bind (.move _) fun _ => .pure _

theorem unexpectedChar : StaysOnLine unexpectedChar :=
  .bind (.move _) fun _ => .bind (.report _) fun _ => .pure _

theorem atom : StaysOnLine atom := by
  refine .bind (.move _) fun _ => .bind (.view _) fun bytes => ?_
  split
  · exact .pure _
  · exact .bind (.report _) fun _ => .pure _

theorem escapeLength : StaysOnLine escapeLength := by
  refine .bind (.ask _) fun _ => .ite (fun _ => .pure _) fun _ => .ite (fun _ => ?_) fun _ => .pure _
  exact .bind (.ask _) fun _ => .pure _

theorem closeText : StaysOnLine closeText :=
  .bind (.move _) fun _ => .bind (.view _) fun _ => .pure _

theorem textWithin (escapes : Nat) : StaysOnLine (textWithin escapes) := by
  induction escapes with
  | zero => exact .pure _
  | succ escapes induction =>
      refine .bind (.move _) fun _ => .bind (.ask _) fun _ => .ite (fun _ => closeText) fun _ => ?_
      refine .ite (fun _ => .bind escapeLength fun length => ?_) fun _ => .pure _
      exact .ite (fun _ => .pure _) fun _ => .bind (.move _) fun _ => induction

theorem text : StaysOnLine text :=
  .bind (.move _) fun _ => .bind (.view _) fun _ => textWithin _

theorem lone : StaysOnLine badTextEscape.lone :=
  .bind (.move _) fun _ => .bind (.report _) fun _ => .pure _

theorem badTextEscape : StaysOnLine badTextEscape := by
  refine .bind escapeLength fun length => .ite (fun _ => ?_) fun _ => ?_
  · refine .bind (.ask _) fun _ => .ite (fun _ => lone) fun _ => ?_
    refine .bind (.ask _) fun _ => .ite (fun _ => lone) fun _ => ?_
    refine .bind (.move _) fun _ => .bind (.view _) fun _ => ?_
    exact .bind (.report _) fun _ => .pure _
  · exact .bind (.move _) fun _ => .pure _

theorem illegalChar : StaysOnLine badText.illegalChar :=
  .bind (.move _) fun _ => .bind (.report _) fun _ => .pure _

theorem stopOnFailure : StaysOnLine stopOnFailure := by
  refine .bind (.ask _) fun failure => ?_
  split
  · exact .pure _
  · exact .bind (.report _) fun _ => .pure _

end StaysOnLine

/-! ### Steps -/

/-- A scan during which a refill fails begins no line. -/
def Settles (contents : Bytes) (scan : Scan Buffer α) : Prop :=
  ∀ lexer : Lexer Buffer, lexer.tape.Shows contents → lexer.tape.stalled = false →
    (scan lexer).2.tape.stalled = true → (scan lexer).2.anchor = lexer.anchor

/-- A look at the input settles a scan if what follows stays on the line or needs no refill. -/
theorem Settles.of_look {look : Scan Buffer α} {next : α → Scan Buffer β}
    (stays : StaysOnLine look)
    (either : ∀ lexer : Lexer Buffer, lexer.tape.Shows contents → lexer.tape.stalled = false →
      StaysOnLine (next (look lexer).1) ∨
        (next (look lexer).1 (look lexer).2).2.tape.stalled = false) :
    Settles contents (look >>= next) := by
  intro lexer shows flowing stalled
  rw [run_bind] at stalled ⊢
  rcases either lexer shows flowing with on_line | flows
  · exact (on_line _).trans (stays lexer)
  · exact Bool.noConfusion (stalled.symm.trans flows)

/-- No refill has failed where a newline is seen, and none is needed to step over it. -/
theorem flowing_of_newline (shows : lexer.tape.Shows contents)
    (flowing : lexer.tape.stalled = false) (newline : (peek 0 lexer).1 = Ascii.newline) :
    ((advance 1) (peek 0 lexer).2).2.tape.stalled = false := by
  have visible : (peek 0 lexer).1 ≠ 0 := by
    rw [newline]
    decide
  obtain ⟨seen_shows, inside⟩ := inside_of_peek 0 shows visible
  have within : lexer.tape.cursor + 0 < (lexer.tape.reach 0).dataEnd := by
    change (lexer.tape.reach 0).cursor < (lexer.tape.reach 0).dataEnd at inside
    rwa [Buffer.reach_cursor] at inside
  exact (seen_shows.stalled_advance_one inside).trans (shows.flowing_of_reach flowing within)

theorem settles_normal : Settles contents normal := by
  refine .of_look (.ask _) fun lexer shows flowing => ?_
  by_cases newline : (peek 0 lexer).1 = Ascii.newline
  · right
    have flows := flowing_of_newline shows flowing newline
    rw [newline]
    exact flows
  · left
    refine .ite (fun _ => ?_) fun _ => .ite (fun _ => ?_) fun _ => .ite (fun _ => .single _)
      fun _ => .ite (fun _ => ?_) fun _ => .ite (fun _ => .text) fun _ => .ite (fun _ => ?_)
      fun _ => .ite (fun same => absurd same newline) fun _ => .ite (fun _ => .atom)
      fun _ => .unexpectedChar
    · exact .bind (.ask _) fun _ => .ite (fun _ => .pure _) fun _ => .unexpectedChar
    · refine .bind (.ask _) fun _ => .ite (fun _ => ?_) fun _ => .single _
      exact .bind (.move _) fun _ => .bind (.nest _) fun _ => .pure _
    · refine .bind (.ask _) fun _ => .ite (fun _ => ?_) fun _ => .unexpectedChar
      exact .bind (.move _) fun _ => .pure _
    · exact .bind (.move _) fun _ => .pure _

theorem settles_badText : Settles contents badText := by
  refine .of_look (.ask _) fun lexer shows flowing => ?_
  by_cases newline : (peek 0 lexer).1 = Ascii.newline
  · right
    have flows := flowing_of_newline shows flowing newline
    rw [newline]
    exact (report_undisturbed .newlineInString _).2.trans flows
  · left
    refine .ite (fun _ => ?_) fun _ => .ite (fun _ => .closeText) fun _ =>
      .ite (fun same => absurd same newline) fun _ => .ite (fun _ => .badTextEscape) fun _ =>
      .ite (fun _ => ?_) fun _ => .illegalChar
    · refine .bind (.ask _) fun _ => .ite (fun _ => ?_) fun _ => .illegalChar
      exact .bind (.report _) fun _ => .bind .eof fun _ => .pure _
    · exact .bind (.move _) fun _ => .pure _

/-- No refill has failed where a byte is found, and none is needed to step over it. -/
theorem flowing_of_found {wanted : UInt8 → Bool} (shows : lexer.tape.Shows contents)
    (flowing : lexer.tape.stalled = false) {byte : UInt8}
    (found : (skipUntil wanted lexer).1 = some byte) :
    ((advance 1) (skipUntil wanted lexer).2).2.tape.stalled = false := by
  have found_eq : lexer.tape.skipUntil wanted =
      (some byte, (lexer.tape.skipUntil wanted).2) := Prod.ext found rfl
  obtain ⟨after_flowing, inside⟩ := shows.flowing_of_skipUntil flowing found_eq
  exact ((shows.skipUntil wanted).shows.stalled_advance_one inside).trans after_flowing

theorem settles_lineComment : Settles contents lineComment := by
  refine .of_look (.ask _) fun lexer shows flowing => ?_
  cases found : (skipUntil (· == Ascii.newline) lexer).1 with
  | none => exact .inl (.bind .eof fun _ => .pure _)
  | some byte => exact .inr (flowing_of_found shows flowing found)

theorem settles_blockComment : Settles contents blockComment := by
  refine .of_look (.ask _) fun lexer shows flowing => ?_
  cases found : (skipUntil stopsBlockComment lexer).1 with
  | none => exact .inl (.bind (.report _) fun _ => .bind .eof fun _ => .pure _)
  | some byte =>
      by_cases newline : byte = Ascii.newline
      · subst newline
        exact .inr (flowing_of_found shows flowing found)
      · left
        refine .ite (fun same => absurd same newline) fun _ => .ite (fun _ => ?_) fun _ => ?_
        · refine .bind (.ask _) fun _ => .ite (fun _ => ?_) fun _ => ?_
          · exact .bind (.move _) fun _ => .bind (.nest _) fun _ => .pure _
          · exact .bind (.move _) fun _ => .pure _
        · refine .bind (.ask _) fun _ => .ite (fun _ => ?_) fun _ => ?_
          · exact .bind (.move _) fun _ => .bind (.nest _) fun _ => .get fun _ => .pure _
          · exact .bind (.move _) fun _ => .pure _

theorem settles_step : Settles contents step := by
  intro lexer
  rw [Lexer.run_step]
  cases lexer.mode with
  | normal => exact settles_normal lexer
  | badText => exact settles_badText lexer
  | lineComment => exact settles_lineComment lexer
  | blockComment => exact settles_blockComment lexer

/-- Where a turn begins, the offsets of the buffer may move. -/
theorem settles_turn : Settles contents turn := by
  intro lexer shows flowing
  have begun_eq : beginStep lexer = (if lexer.mode ≠ .badText then do
      move Tape.beginToken
      move Tape.mark
    else move Tape.mark : Scan Buffer Unit) lexer := rfl
  have begun_kept : (beginStep lexer).2.tape.Shows contents ∧
      (beginStep lexer).2.tape.stalled = false ∧
        (beginStep lexer).2.anchor = lexer.anchor := by
    rw [begun_eq, run_ite]
    split
    · exact ⟨shows.beginToken.mark, flowing, rfl⟩
    · exact ⟨shows.mark, flowing, rfl⟩
  obtain ⟨begun_shows, begun_flowing, begun_anchor⟩ := begun_kept
  rw [← begun_anchor]
  exact settles_step (beginStep lexer).2 begun_shows begun_flowing

end Scan

namespace Lexer

variable {contents : Bytes} {lexer : Lexer Buffer}

/-! ### Runs -/

/-- The line that a tidy lexer is on begins where the lexer says. -/
theorem Tidy.anchor_holds {plain : Lexer Cursor} (tidy : plain.Tidy) :
    plain.anchor.Holds plain.tape.bytes := by
  obtain ⟨before, whole, starts, line_eq, start_eq⟩ :=
    Location.exists_before_line plain.tape.passed
  have take_eq : plain.tape.bytes.toList.take plain.lineOffset = before := by
    have split : plain.tape.bytes.toList = plain.tape.passed ++ plain.tape.ahead :=
      (List.take_append_drop plain.tape.offset plain.tape.bytes.toList).symm
    rw [split, whole, tidy.lineOffset_eq, start_eq, List.append_assoc, List.take_left]
  refine ⟨tidy.anchored, ?_, ?_⟩
  · change Location.onLine (plain.tape.bytes.toList.take plain.lineOffset) = []
    rw [take_eq, starts]
  · change plain.line = Location.lineAfter (plain.tape.bytes.toList.take plain.lineOffset)
    rw [take_eq, tidy.line_eq, line_eq]

/-- A turn leads to a lexer that knows where its line begins, whether or not a refill fails. -/
theorem Ready.anchor_turn (ready : lexer.Ready contents) (running : lexer.finished = false) :
    (Scan.turn lexer).2.anchor.Holds contents := by
  cases stalled : (Scan.turn lexer).2.tape.stalled with
  | true =>
      rw [Scan.settles_turn lexer ready.shows (ready.flowing running) stalled]
      exact (ready.tidy running).anchor_holds
  | false =>
      have tidy := (ready.tidy running).take
      rw [← (ready.turn running stalled).2] at tidy
      exact tidy.anchor_holds

/-- A lexer between two rounds that knows where its line begins, even when the input is over. -/
structure Anchored (contents : Bytes) (lexer : Lexer Buffer) : Prop extends
    Ready contents lexer where
  /-- The line begins where the lexer says. -/
  holds : lexer.anchor.Holds contents

theorem Anchored.round (anchored : lexer.Anchored contents) :
    (Scan.round lexer).2.Anchored contents := by
  refine ⟨anchored.round_ready, ?_⟩
  cases finished : lexer.finished with
  | true =>
      rw [Scan.round_of_finished finished]
      exact anchored.holds
  | false =>
      have turned := anchored.anchor_turn finished
      rw [← Scan.StaysOnLine.stopOnFailure (Scan.turn lexer).2] at turned
      rw [Scan.round_of_running finished]
      split
      · exact turned
      · exact turned

theorem Anchored.after (anchored : lexer.Anchored contents) (calls : Nat) :
    (lexer.after calls).Anchored contents := by
  induction calls with
  | zero => exact anchored
  | succ calls induction =>
      have last := induction.ends_lexeme.keeps (fun _ state => state.round) induction
      exact ⟨induction.next, last.holds⟩

theorem anchored_opened {source : Source} (opens : source.Opens contents) (filename : String)
    (lineWidth size bound : Nat) :
    (opened filename lineWidth source size bound).Anchored contents :=
  ⟨ready_opened opens.serves.contents_eq opens.unread filename lineWidth size bound,
    LineAnchor.holds_first contents⟩

/-- Whatever has been read, a line is found by its number, if it is there. -/
theorem sourceLine_by_number {source : Source} (opens : source.Opens contents)
    (filename : String) (lineWidth size bound calls : Nat) (location : Location) :
    let lexer := (opened filename lineWidth source size bound).after calls
    (lexer.sourceLine location 0).1 =
        (match lineText? contents.toList location.line with
        | some text => .ok { text := Bytes.toText text.toArray, columnOffset := 0 }
        | none => .error (.lineOutOfRange location.line)) ∧
      (lineText? contents.toList location.line = none ↔
        location.line = 0 ∨ contents.toList.count Ascii.newline + 1 < location.line) := by
  intro lexer
  have sound := ((sound_opened opens filename lineWidth size bound).after calls).sound
  have anchored := (anchored_opened opens filename lineWidth size bound).after calls
  obtain ⟨after, found, -⟩ :=
    SourceLine.answers_search_number anchored.holds location lexer.tape.source sound.serves
  exact ⟨congrArg Prod.fst found, lineText_eq_none_iff⟩

/-- The first line, looked up from the third one. -/
theorem sourceLine_by_number_first :
    let lexer := (opened "a.wast" 0 (.ofBytes "(a\r\n(b\n".toUTF8.data) 1 4096).after 5
    let location : Location := { filename := "a.wast", line := 1, firstColumn := 1, lastColumn := 2 }
    (lexer.sourceLine location 0).1 = .ok { text := "(a", columnOffset := 0 } := by
  intro lexer location
  have text_eq : lineText? "(a\r\n(b\n".toUTF8.data.toList 1 = some [0x28, 0x61] := by decide
  have found := (sourceLine_by_number (Source.opens_ofBytes "(a\r\n(b\n".toUTF8.data) "a.wast" 0 1
    4096 5 location).1
  rw [text_eq] at found
  exact found

end Lexer

end WasmText

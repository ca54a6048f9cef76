import WasmText.Proofs.CommandLine.Lines
import WasmText.Proofs.Lexer.Window

/-!
# Widths on the command line

A width of zero is no limit to a line that is printed: all of it is, as with any width that the
longest line of the file keeps to. To a token dump it is the wish for no source lines. The tokens and
the exit code do not depend on the width, and the errors are written with the same messages, but
without the lines that they are on.
-/

namespace WasmText

namespace SourceLine

variable {contents : Bytes} {anchor : LineAnchor}

/-- A line that the width has room for is found by its number and shown whole. -/
theorem answers_search_whole (holds : anchor.Holds contents) {location : Location} {width : Nat}
    (wide : ∀ line, lineText? contents.toList location.line = some line →
      line.length ≤ width ∨ width = 0) :
    Search.Answers contents (search anchor location width)
      (match lineText? contents.toList location.line with
      | some line => .ok { text := Bytes.toText line.toArray, columnOffset := 0 }
      | none => .error (.lineOutOfRange location.line)) := by
  rcases answers_startOf holds location.line with ⟨start, started, there⟩ | ⟨refused, missing⟩
  · rw [there.lineText_eq]
    dsimp only
    rw [← ofLine_of_length_le (wide _ there.lineText_eq)]
    exact answers_search_of_startOf width started there.inside
  · rw [missing]
    exact refused.bind_error _

/-- No line is longer than the file. -/
theorem length_lineText_le {number : Nat} {line : List UInt8}
    (found : lineText? contents.toList number = some line) : line.length ≤ contents.size := by
  rcases answers_startOf (LineAnchor.holds_first contents) number with
    ⟨start, -, there⟩ | ⟨-, missing⟩
  · obtain rfl := Option.some.inj (there.lineText_eq.symm.trans found)
    have front := lineOf_prefix (contents.toList.drop start)
    have length_le := front.length_le
    rw [List.length_drop, Array.length_toList] at length_le
    exact Nat.le_trans length_le (Nat.sub_le _ _)
  · cases missing.symm.trans found

end SourceLine

namespace Terminal

variable {terminal : Terminal} {diagnostic : Diagnostic} {diagnostics : List Diagnostic}

/-! ### Diagnostics without source lines -/

/-- What is written of the source below the message. -/
def excerpt (colored : Bool) (diagnostic : Diagnostic) : String :=
  diagnostic.sourceLine.elim "" (sourceText colored diagnostic.location)

/-- Nothing is written of the source if there is no text to be shown. -/
theorem excerpt_eq_empty_iff (colored : Bool) (diagnostic : Diagnostic) :
    excerpt colored diagnostic = "" ↔ ∀ shown ∈ diagnostic.sourceLine, shown.text = "" := by
  unfold excerpt
  cases diagnostic.sourceLine with
  | none => exact iff_of_true rfl fun _ absent => absurd absent (Option.not_mem_none _)
  | some shown =>
      simp only [Option.elim_some, Option.mem_some_iff, forall_eq', sourceText]
      split
      · rename_i empty
        exact iff_of_true rfl (String.isEmpty_iff.mp empty)
      · rename_i visible
        refine iff_of_false (fun nothing => ?_) (mt String.isEmpty_iff.mpr visible)
        have length_eq := congrArg String.length nothing
        have newline_length : "\n".length = 1 := rfl
        rw [String.length_append, newline_length] at length_eq
        exact absurd length_eq (Nat.succ_ne_zero _)

/-- The source is written behind all else. -/
theorem text_eq_bare (terminal : Terminal) (diagnostic : Diagnostic) :
    terminal.text diagnostic =
      terminal.text diagnostic.bare ++ excerpt terminal.colored diagnostic := by
  have bare_eq : terminal.text diagnostic.bare =
      terminal.headerText ++ headline terminal.colored diagnostic := String.append_empty
  rw [bare_eq]
  rfl

/-- What is written for diagnostics one after the other, and the terminal after them. -/
def written (terminal : Terminal) : List Diagnostic → String × Terminal
  | [] => ("", terminal)
  | diagnostic :: diagnostics =>
    ((terminal.text diagnostic) ++ ((terminal.write diagnostic).2.written diagnostics).1,
      ((terminal.write diagnostic).2.written diagnostics).2)

theorem writeAll_eq_written (terminal : Terminal) (diagnostics : Array Diagnostic) :
    terminal.writeAll diagnostics = terminal.written diagnostics.toList := by
  suffices foldl_eq : ∀ (diagnostics : List Diagnostic) (terminal : Terminal) (text : String),
      diagnostics.foldl (fun (state : String × Terminal) diagnostic =>
        (state.1 ++ (state.2.write diagnostic).1, (state.2.write diagnostic).2)) (text, terminal) =
        (text ++ (terminal.written diagnostics).1, (terminal.written diagnostics).2) by
    rw [writeAll, ← Array.foldl_toList]
    exact (foldl_eq _ terminal "").trans (congrArg (·, _) String.empty_append)
  intro diagnostics
  induction diagnostics with
  | nil => exact fun terminal text => congrArg (·, terminal) String.append_empty.symm
  | cons diagnostic diagnostics induction =>
      intro terminal text
      rw [List.foldl_cons, induction, String.append_assoc]
      rfl

/-- What is written differs from what would be without source lines by these. -/
theorem length_written (terminal : Terminal) (diagnostics : List Diagnostic) :
    (terminal.written diagnostics).1.length =
      (terminal.written (diagnostics.map Diagnostic.bare)).1.length +
        (diagnostics.map fun diagnostic => (excerpt terminal.colored diagnostic).length).sum := by
  induction diagnostics generalizing terminal with
  | nil => rfl
  | cons diagnostic diagnostics induction =>
      have further := induction (terminal.write diagnostic).2
      have same : (terminal.write diagnostic.bare).2 = (terminal.write diagnostic).2 := rfl
      have colored_eq : (terminal.write diagnostic).2.colored = terminal.colored := rfl
      rw [colored_eq] at further
      simp only [List.map_cons, List.sum_cons, written, same, String.length_append, further]
      rw [text_eq_bare terminal diagnostic, String.length_append]
      omega

/-- Source lines make no difference if and only if none of them has a text. -/
theorem written_bare_iff (terminal : Terminal) (diagnostics : List Diagnostic) :
    (terminal.written (diagnostics.map Diagnostic.bare)).1 = (terminal.written diagnostics).1 ↔
      ∀ diagnostic ∈ diagnostics, ∀ shown ∈ diagnostic.sourceLine, shown.text = "" := by
  constructor
  · intro same diagnostic among
    have length_eq := terminal.length_written diagnostics
    rw [same, Nat.left_eq_add, List.sum_eq_zero_iff] at length_eq
    have none := length_eq _ (List.mem_map_of_mem among)
    exact (excerpt_eq_empty_iff terminal.colored diagnostic).mp (String.length_eq_zero_iff.mp none)
  · intro textless
    induction diagnostics generalizing terminal with
    | nil => rfl
    | cons diagnostic diagnostics induction =>
        obtain ⟨first, further⟩ := List.forall_mem_cons.mp textless
        rw [List.map_cons, written, written, text_eq_bare terminal diagnostic,
          (excerpt_eq_empty_iff terminal.colored diagnostic).mpr first, String.append_empty]
        exact congrArg (terminal.text diagnostic.bare ++ ·)
          (induction (terminal.write diagnostic).2 further)

/-- The number of diagnostics is counted whatever is written of them. -/
theorem errorCount_written (terminal : Terminal) (diagnostics : List Diagnostic) :
    (terminal.written diagnostics).2.errorCount = terminal.errorCount + diagnostics.length := by
  induction diagnostics generalizing terminal with
  | nil => rfl
  | cons diagnostic diagnostics induction =>
      rw [List.length_cons, Nat.add_comm diagnostics.length, ← Nat.add_assoc]
      exact induction (terminal.write diagnostic).2

/-- The width of source lines is not for the terminal to apply. -/
theorem written_of_lineWidth (terminal : Terminal) (lineWidth : Nat)
    (diagnostics : List Diagnostic) :
    (Terminal.written { terminal with style := { terminal.style with lineWidth } } diagnostics).1 =
      (terminal.written diagnostics).1 := by
  induction diagnostics generalizing terminal with
  | nil => rfl
  | cons diagnostic diagnostics induction =>
      exact congrArg (terminal.text diagnostic ++ ·) (induction (terminal.write diagnostic).2)

end Terminal

namespace Lexer

variable {contents : Bytes} {source : Source}

/-- The width of source lines changes nothing but these, as long as no refill fails. -/
theorem readings_bare_eq (opens : source.Opens contents) (filename : String)
    {lineWidth otherWidth size bound : Nat}
    (flowing : (opened filename lineWidth source size bound).readings.2.tape.stalled = false)
    (other_flowing :
      (opened filename otherWidth source size bound).readings.2.tape.stalled = false) :
    (opened filename lineWidth source size bound).readings.1.map Reading.bare =
      (opened filename otherWidth source size bound).readings.1.map Reading.bare := by
  have plain_eq := readings_eq_bare opens filename lineWidth size bound flowing
  have other_eq := readings_eq_bare opens filename otherWidth size bound other_flowing
  apply Array.toList_inj.mp
  rw [Array.toList_map, Array.toList_map]
  exact plain_eq.symm.trans other_eq

/-- With a width of zero no source line has a text. -/
theorem text_of_lineWidth_zero (opens : source.Opens contents) (filename : String)
    (size bound : Nat) :
    ∀ error ∈ errorsOf (opened filename 0 source size bound).readings.1.toList,
      ∀ shown ∈ error.sourceLine, shown.text = "" := by
  obtain ⟨tokens, last, readings_eq, -, -, legible⟩ := legible_readings opens filename 0 size bound
  rw [← readings_eq] at legible
  intro error present shown among
  obtain ⟨reading, read, reported⟩ := List.mem_flatMap.mp present
  have narrow := ((legible reading read).diagnostics error
    (Array.mem_toList_iff.mp reported)).sourceLine shown among
  exact String.length_eq_zero_iff.mp (Nat.eq_zero_of_le_zero narrow.2)

end Lexer

namespace Command

variable {contents : Bytes} {path : String} {style : TerminalStyle} {file : File}
  {openFile : String → Except SystemError File}

/-! ### Lines -/

/-- A line that the width has room for is printed whole. -/
theorem runLine_eq {source : Source} (opens : source.Opens contents) (path : String)
    {number : Nat} (wide : ∀ text, lineText? contents.toList number = some text →
      text.length ≤ style.lineWidth ∨ style.lineWidth = 0) :
    runLine path number style source =
      match lineText? contents.toList number with
      | some text => .success (Bytes.toText text.toArray ++ "\n")
      | none => .failure ("error: " ++ (SourceError.lineOutOfRange number).message) := by
  have anchored := Lexer.anchored_opened opens path style.lineWidth defaultCapacity
    defaultAllocationBound
  let location : Location := ⟨path, number, 1, 1⟩
  have wide_here : ∀ text, lineText? contents.toList location.line = some text →
      text.length ≤ style.lineWidth ∨ style.lineWidth = 0 := wide
  obtain ⟨after, answered, -⟩ :=
    SourceLine.answers_search_whole anchored.holds wide_here source opens.serves
  have shown_eq : ((Lexer.ofSource path style.lineWidth source).sourceLine location
      style.lineWidth).1 =
      match lineText? contents.toList number with
      | some text => .ok { text := Bytes.toText text.toArray, columnOffset := 0 }
      | none => .error (.lineOutOfRange number) := congrArg Prod.fst answered
  unfold runLine
  dsimp only
  rw [shown_eq]
  cases lineText? contents.toList number <;> rfl

/-! ### Token dumps -/

theorem tokenLines_bare (path : String) (readings : Array Reading) :
    tokenLines path (readings.map Reading.bare) = tokenLines path readings := by
  unfold tokenLines
  rw [Array.foldl_map, Array.size_map]
  rfl

theorem diagnostics_bare (readings : Array Reading) :
    (readings.map Reading.bare).flatMap Reading.diagnostics =
      (readings.flatMap Reading.diagnostics).map Diagnostic.bare := by
  rw [Array.flatMap_map, Array.map_flatMap]
  rfl

/-- Dumping the tokens of a file that can be opened reports what is read of it. -/
theorem run_lex (opened : openFile path = .ok file) (style : TerminalStyle) (isTerminal : Bool) :
    (lex path).run openFile style isTerminal = report path style isTerminal
      (Lexer.ofSource path style.lineWidth (.file file)).readings.1 := by
  change withSource path openFile (runLex path style isTerminal) = _
  rw [withSource, opened]
  change runLex path style isTerminal (.file file) = _
  unfold runLex report
  generalize (Lexer.ofSource path style.lineWidth (.file file)).readings = read
  rfl

/-- A report that needs no source lines, and one of the same tokens and messages that may have
them. -/
theorem report_of_bare {readings textless : Array Reading}
    (bare_eq : textless.map Reading.bare = readings.map Reading.bare)
    (no_text : ∀ error ∈ errorsOf textless.toList, ∀ shown ∈ error.sourceLine, shown.text = "")
    (path : String) (style : TerminalStyle) (isTerminal : Bool) (lineWidth : Nat) :
    let shown := report path style isTerminal readings
    let plain := report path { style with lineWidth } isTerminal textless
    plain.output = shown.output ∧ plain.exitCode = shown.exitCode ∧
      (plain.errors = shown.errors ↔
        ∀ error ∈ errorsOf readings.toList, ∀ shown ∈ error.sourceLine, shown.text = "") := by
  intro shown plain
  have errors_eq (readings : Array Reading) :
      (readings.flatMap Reading.diagnostics).toList = errorsOf readings.toList :=
    Array.toList_flatMap
  have bare_errors : (errorsOf textless.toList).map Diagnostic.bare =
      (errorsOf readings.toList).map Diagnostic.bare := by
    rw [← errors_eq, ← errors_eq, ← Array.toList_map, ← Array.toList_map, ← diagnostics_bare,
      ← diagnostics_bare, bare_eq]
  have written_eq (style : TerminalStyle) (readings : Array Reading) :
      (Terminal.ofStyle style isTerminal).writeAll (readings.flatMap Reading.diagnostics) =
        (Terminal.ofStyle style isTerminal).written (errorsOf readings.toList) := by
    rw [Terminal.writeAll_eq_written, errors_eq]
  refine ⟨?_, ?_, ?_⟩
  · change tokenLines path textless = tokenLines path readings
    rw [← tokenLines_bare, bare_eq, tokenLines_bare]
  · have count_eq := congrArg List.length bare_errors
    rw [List.length_map, List.length_map] at count_eq
    change (if ((Terminal.ofStyle _ isTerminal).writeAll _).2.errorCount = 0 then 0 else 1) =
      if ((Terminal.ofStyle style isTerminal).writeAll _).2.errorCount = 0 then 0 else 1
    rw [written_eq, written_eq, Terminal.errorCount_written, Terminal.errorCount_written, count_eq]
    rfl
  · change ((Terminal.ofStyle _ isTerminal).writeAll _).1 =
      ((Terminal.ofStyle style isTerminal).writeAll _).1 ↔ _
    rw [written_eq, written_eq, ← Terminal.written_bare_iff (Terminal.ofStyle style isTerminal),
      ← bare_errors, (Terminal.written_bare_iff _ _).mpr no_text]
    exact Eq.congr_left (Terminal.written_of_lineWidth (.ofStyle style isTerminal) lineWidth _)

/-! ### A width of zero -/

/-- With a width of zero a line is printed as with any width that the file's lines keep to, and a
token dump has the same tokens and the same exit code. Its errors are the same if and only if none
of them has a source line with a text: with a width of zero no text is shown. -/
theorem run_of_lineWidth_zero (opened : openFile path = .ok file)
    (opens : (Source.file file).Opens contents)
    (wide : ∀ number text, lineText? contents.toList number = some text →
      text.length ≤ style.lineWidth)
    (flowing : (Lexer.ofSource path style.lineWidth (.file file)).readings.2.tape.stalled = false)
    (plain_flowing : (Lexer.ofSource path 0 (.file file)).readings.2.tape.stalled = false)
    (isTerminal : Bool) :
    let unlimited := { style with lineWidth := 0 }
    (∀ number, (line path number).run openFile unlimited isTerminal =
        (line path number).run openFile style isTerminal) ∧
      let shown := (lex path).run openFile style isTerminal
      let plain := (lex path).run openFile unlimited isTerminal
      plain.output = shown.output ∧ plain.exitCode = shown.exitCode ∧
        (plain.errors = shown.errors ↔
          ∀ error ∈ errorsOf (Lexer.ofSource path style.lineWidth (.file file)).readings.1.toList,
            ∀ shown ∈ error.sourceLine, shown.text = "") := by
  intro unlimited
  constructor
  · intro number
    change withSource path openFile (runLine path number unlimited) =
      withSource path openFile (runLine path number style)
    rw [withSource, withSource, opened]
    change runLine path number unlimited (.file file) = runLine path number style (.file file)
    rw [runLine_eq opens path fun text found => .inl (wide number text found),
      runLine_eq opens path fun _ _ => .inr rfl]
  · have lexer_eq (lineWidth : Nat) : Lexer.ofSource path lineWidth (.file file) =
        Lexer.opened path lineWidth (.file file) defaultCapacity defaultAllocationBound := rfl
    rw [lexer_eq] at flowing plain_flowing
    have plain_run := run_lex opened { style with lineWidth := 0 } isTerminal
    have bare_eq := Lexer.readings_bare_eq opens path plain_flowing flowing
    have no_text := Lexer.text_of_lineWidth_zero opens path defaultCapacity defaultAllocationBound
    dsimp only at plain_run
    rw [plain_run, run_lex opened, lexer_eq, lexer_eq]
    exact report_of_bare bare_eq no_text path style isTerminal 0

/-- A file that is one comma, which is no character of the language. -/
theorem run_of_lineWidth_zero_comma :
    let file : File := .regular "a.wast" ",".toUTF8.data
    let run (lineWidth : Nat) := (lex "a.wast").run (fun _ => .ok file) { lineWidth } false
    (run 0).output = (run 1).output ∧ (run 0).exitCode = (run 1).exitCode := by
  intro file run
  have opens : (Source.file file).Opens _ := Source.opens_regular "a.wast" (by decide +kernel)
  have runs := (@run_of_lineWidth_zero _ "a.wast" { lineWidth := 1 } file (fun _ => .ok file) rfl
    opens (fun _ _ found => SourceLine.length_lineText_le found) (by decide +kernel)
    (by decide +kernel) false).2
  exact ⟨runs.1, runs.2.1⟩

/-- A width of zero hides the comma that a width of one shows. -/
theorem lex_lineWidth_zero_ne :
    let run (arguments : List String) :=
      runArguments arguments (fun _ => .ok (.regular "a.wast" ",".toUTF8.data)) false
    (run ["lex", "a.wast", "--max-line=0"]).errors = "a.wast:1:1: error: unexpected char\n" ∧
      (run ["lex", "a.wast", "--max-line=1"]).errors =
        "a.wast:1:1: error: unexpected char\n,\n^\n" := by
  intro run
  have zero : ofArguments ["lex", "a.wast", "--max-line=0"] =
      .ok (.lex "a.wast", { lineWidth := 0 }) := by
    cbv
  have one : ofArguments ["lex", "a.wast", "--max-line=1"] =
      .ok (.lex "a.wast", { lineWidth := 1 }) := by
    cbv
  have run_zero := @runArguments_lex _ _ _ (fun _ => .ok (.regular "a.wast" ",".toUTF8.data)) _
    zero rfl false
  have run_one := @runArguments_lex _ _ _ (fun _ => .ok (.regular "a.wast" ",".toUTF8.data)) _
    one rfl false
  dsimp only [run]
  rw [run_zero, run_one]
  constructor <;> decide +kernel

end Command

end WasmText

import WasmText.Proofs.Diagnostic.Terminal

/-!
# The lines of a token dump

Dumping the tokens of a file writes lines: one for each token, behind one that counts them, and for
each error one or three. No byte of the file, whatever it is, brings a line in or takes one apart.
-/

namespace WasmText

namespace Options

/-- The header that the arguments choose: the last one that is given. -/
def header? (arguments : List String) : Option String :=
  (arguments.filterMap (value? "--header=")).getLast?

theorem isPrefix_of_value? {name argument value : String}
    (given : value? name argument = some value) : name.toList <+: argument.toList := by
  unfold value? at given
  split at given
  · rename_i begins
    exact String.startsWith_string_iff.mp begins
  · cases given

/-- An argument has one name only. -/
theorem value?_eq_none {name other argument value : String}
    (given : value? other argument = some value) (unlike : ¬ name.toList <+: other.toList)
    (apart : ¬ other.toList <+: name.toList) : value? name argument = none := by
  cases again : value? name argument with
  | none => rfl
  | some _ =>
      rcases List.prefix_or_prefix_of_prefix (isPrefix_of_value? again)
        (isPrefix_of_value? given) with shorter | longer
      · exact absurd shorter unlike
      · exact absurd longer apart

/-- An argument that chooses a header has it written once. No other touches the header. -/
theorem style_add {options next : Options} {argument : String}
    (added : options.add argument = .ok next) :
    (next.style.headerMode, next.style.header) =
      (value? "--header=" argument).elim (options.style.headerMode, options.style.header)
        (HeaderMode.once, ·) := by
  unfold add at added
  split at added
  · rename_i mode given
    rw [value?_eq_none given (by decide) (by decide)]
    split at added <;> cases added
    rfl
  split at added
  · rename_i lineWidth given
    rw [value?_eq_none given (by decide) (by decide)]
    split at added <;> cases added
    rfl
  split at added
  · rename_i header given
    cases added
    rw [given]
    rfl
  · rename_i absent
    have no_header : value? "--header=" argument = none := by
      cases given : value? "--header=" argument with
      | none => rfl
      | some header => exact absurd given (absent header)
    rw [no_header]
    split at added <;> cases added
    rfl

/-- The last header that is given is the one that is written. -/
theorem style_foldlM {arguments : List String} {options last : Options}
    (read : arguments.foldlM add options = .ok last) :
    (last.style.headerMode, last.style.header) =
      (header? arguments).elim (options.style.headerMode, options.style.header)
        (HeaderMode.once, ·) := by
  induction arguments generalizing options with
  | nil =>
      cases read
      rfl
  | cons argument arguments induction =>
      rw [List.foldlM_cons] at read
      cases added : options.add argument with
      | error => rw [added] at read; cases read
      | ok next =>
          rw [added] at read
          rw [induction read, style_add added, header?, header?, List.filterMap_cons]
          cases value? "--header=" argument with
          | none => rfl
          | some header =>
              rw [List.getLast?_cons]
              cases (arguments.filterMap (value? "--header=")).getLast? <;> rfl

end Options

namespace Command

variable {arguments : List String} {path : String} {style : TerminalStyle} {readings : Array Reading}

theorem style_ofArguments {command : Command}
    (named : ofArguments arguments = .ok (command, style)) :
    (style.headerMode, style.header) =
      (Options.header? arguments.tail).elim (.never, "") (HeaderMode.once, ·) := by
  unfold ofArguments at named
  split at named
  · cases named
    rfl
  · rename_i name arguments
    split at named
    · cases named
    · rename_i options read
      cases found : ofName name options.positional with
      | error => rw [found] at named; cases named
      | ok command =>
          rw [found] at named
          cases named
          exact Options.style_foldlM read

/-- The lines of a token dump. -/
def dumpLines (path : String) (readings : List Reading) : List String :=
  s!"Tokens for '{path}' ({readings.length} tokens):" ::
    readings.map fun reading => "  " ++ reading.token.display

theorem lined_tokenLines (path_line : OneLine path)
    (displayed : ∀ reading ∈ readings.toList, OneLine reading.token.display) :
    Lined (tokenLines path readings) (dumpLines path readings.toList) := by
  have line : OneLine s!"Tokens for '{path}' ({readings.size} tokens):" := by
    simp only [OneLine.append_iff]
    exact ⟨⟨⟨⟨by decide, path_line⟩, by decide⟩, .ofNat _⟩, by decide⟩
  have head := Lined.singleton line
  rw [String.append_assoc] at head
  rw [tokenLines, dumpLines, ← Array.foldl_toList, Array.length_toList, ← List.singleton_append]
  generalize readings.toList = readings at displayed ⊢
  suffices written : ∀ text earlier, Lined text earlier →
      Lined (readings.foldl (fun written reading => written ++ "  " ++ reading.token.display ++ "\n")
        text) (earlier ++ readings.map fun reading => "  " ++ reading.token.display) from
    written _ _ head
  induction readings with
  | nil =>
      intro text earlier lined
      rwa [List.map_nil, List.append_nil]
  | cons reading readings induction =>
      intro text earlier lined
      obtain ⟨first, further⟩ := List.forall_mem_cons.mp displayed
      have line : OneLine ("  " ++ reading.token.display) :=
        OneLine.append_iff.mpr ⟨by decide, first⟩
      have next := lined.append (Lined.singleton line)
      rw [← String.append_assoc, ← String.append_assoc] at next
      rw [List.foldl_cons, List.map_cons, List.append_cons]
      exact induction further _ _ next

/-- The lines about errors: the header if there are any, and the lines of each of them. -/
def errorLines (colored : Bool) (header : Option String) (errors : List Diagnostic) :
    List String :=
  (if errors = [] then [] else header.toList.map (· ++ ":")) ++
    errors.flatMap (Terminal.lines colored)

/-- No argument has the header written more than once. -/
theorem sparing_ofArguments {command : Command}
    (named : ofArguments arguments = .ok (command, style)) : style.headerMode ≠ .always := by
  have style_eq := style_ofArguments named
  intro always
  rw [always] at style_eq
  cases given : Options.header? arguments.tail with
  | none => rw [given] at style_eq; cases style_eq
  | some header => rw [given] at style_eq; cases style_eq

theorem allLines_ofStyle (named : ofArguments arguments = .ok (.lex path, style))
    (isTerminal : Bool) (errors : List Diagnostic) :
    (Terminal.ofStyle style isTerminal).allLines errors =
      errorLines (style.color.isColored isTerminal) (Options.header? arguments.tail) errors := by
  have header_eq : (Terminal.ofStyle style isTerminal).headerLines =
      (Options.header? arguments.tail).toList.map (· ++ ":") := by
    have style_eq := style_ofArguments named
    unfold Terminal.headerLines
    change (if style.headerMode = .once ∧ decide (style.headerMode = .once) = true then _ else _) = _
    cases given : Options.header? arguments.tail with
    | none =>
        rw [given] at style_eq
        rw [(Prod.mk.inj style_eq).1]
        rfl
    | some header =>
        rw [given] at style_eq
        obtain ⟨mode_eq, header_eq⟩ := Prod.mk.inj style_eq
        rw [mode_eq]
        exact congrArg (fun header => [header ++ ":"]) header_eq
  rw [Terminal.allLines, header_eq]
  rfl

/-- What is written about readings, and the exit code for them. -/
def report (path : String) (style : TerminalStyle) (isTerminal : Bool)
    (readings : Array Reading) : Outcome :=
  let (errors, terminal) :=
    (Terminal.ofStyle style isTerminal).writeAll (readings.flatMap Reading.diagnostics)
  { exitCode := if terminal.errorCount = 0 then 0 else 1
    output := tokenLines path readings
    errors }

/-- Dumping the tokens of a file reports what is read of it. -/
theorem runArguments_lex {openFile : String → Except SystemError File} {file : File}
    (named : ofArguments arguments = .ok (.lex path, style)) (opened : openFile path = .ok file)
    (isTerminal : Bool) :
    runArguments arguments openFile isTerminal = report path style isTerminal
      (Lexer.ofSource path style.lineWidth (.file file)).readings.1 := by
  rw [runArguments, named]
  change withSource path openFile (runLex path style isTerminal) = _
  rw [withSource, opened]
  change runLex path style isTerminal (.file file) = _
  unfold runLex report
  generalize (Lexer.ofSource path style.lineWidth (.file file)).readings = read
  rfl

/-- Legible readings are reported in lines. -/
theorem lined_report (named : ofArguments arguments = .ok (.lex path, style))
    (path_line : OneLine path) (header_line : OneLine style.header) (isTerminal : Bool)
    (legible : ∀ reading ∈ readings.toList, reading.Legible path style.lineWidth) :
    let outcome := report path style isTerminal readings
    let errors := errorsOf readings.toList
    Lined outcome.output (dumpLines path readings.toList) ∧
      outcome.output.toList.count '\n' = readings.toList.length + 1 ∧
      Lined outcome.errors (errorLines (style.color.isColored isTerminal)
        (Options.header? arguments.tail) errors) ∧
      (outcome.exitCode = 0 ↔ errors = []) ∧
      ∀ error ∈ errors, ∀ shown ∈ error.sourceLine,
        Terminal.markerIndent error.location shown ≤ style.lineWidth := by
  intro outcome errors
  have errors_eq : (readings.flatMap Reading.diagnostics).toList = errors := Array.toList_flatMap
  have errors_legible : ∀ error ∈ errors, error.Legible path style.lineWidth := by
    intro error present
    obtain ⟨reading, among, reported⟩ := List.mem_flatMap.mp present
    exact (legible reading among).diagnostics error (Array.mem_toList_iff.mp reported)
  obtain ⟨errors_lined, errorCount_eq⟩ :=
    @Terminal.lined_writeAll path style.lineWidth (Terminal.ofStyle style isTerminal)
      (sparing_ofArguments named) header_line path_line _ (errors_eq ▸ errors_legible)
  rw [errors_eq, allLines_ofStyle named] at errors_lined
  rw [← Array.length_toList, errors_eq] at errorCount_eq
  have output_lined : Lined outcome.output (dumpLines path readings.toList) :=
    lined_tokenLines path_line fun reading among => (legible reading among).token
  refine ⟨output_lined, ?_, errors_lined, ?_, fun error present shown among => ?_⟩
  · rw [output_lined.count_newline, dumpLines, List.length_cons, List.length_map]
  · change (if ((Terminal.ofStyle style isTerminal).writeAll _).2.errorCount = 0 then 0 else 1) = 0 ↔ _
    rw [errorCount_eq]
    change (if 0 + errors.length = 0 then 0 else 1) = 0 ↔ _
    rw [Nat.zero_add, ← List.length_eq_zero_iff]
    split
    · rename_i none
      exact ⟨fun _ => none, fun _ => rfl⟩
    · rename_i some
      exact ⟨nofun, fun none => absurd none some⟩
  · have indent_le : Terminal.markerIndent error.location shown ≤ shown.text.length :=
      Nat.min_le_right _ _
    exact Nat.le_trans indent_le ((errors_legible error present).sourceLine shown among).2

/-- A token dump is made of lines. For every file that opens and reads, every path and header on
one line and every width of source lines below `2 ^ 16`, the output is a line that counts the
tokens, the end of the input last and once among them, and a line for each; the errors are a line
each, or three with a source line that is not empty, behind the header if one is given and there
are any; and the exit code is zero if and only if there are none. No marker is indented by `2 ^ 16`
columns or more. -/
theorem lex_lines {arguments : List String} {path : String} {style : TerminalStyle}
    {openFile : String → Except SystemError File} {file : File} {contents : Bytes}
    (named : ofArguments arguments = .ok (.lex path, style)) (opened : openFile path = .ok file)
    (opens : (Source.file file).Opens contents) (path_line : OneLine path)
    (header_line : OneLine style.header) (narrow : style.lineWidth < 0x1_0000)
    (isTerminal : Bool) :
    let readings := (Lexer.ofSource path style.lineWidth (.file file)).readings.1.toList
    let errors := errorsOf readings
    let outcome := runArguments arguments openFile isTerminal
    (∃ tokens last, readings = tokens ++ [last] ∧ last.token.isEof = true ∧
      ∀ reading ∈ tokens, reading.token.isEof = false) ∧
    Lined outcome.output (dumpLines path readings) ∧
    outcome.output.toList.count '\n' = readings.length + 1 ∧
    Lined outcome.errors (errorLines (style.color.isColored isTerminal)
      (Options.header? arguments.tail) errors) ∧
    (outcome.exitCode = 0 ↔ errors = []) ∧
    ∀ error ∈ errors, ∀ shown ∈ error.sourceLine,
      Terminal.markerIndent error.location shown < 0x1_0000 := by
  obtain ⟨tokens, last, readings_eq, last_eof, before_end, legible⟩ :=
    Lexer.legible_readings opens path style.lineWidth defaultCapacity defaultAllocationBound
  have lexer_eq : Lexer.opened path style.lineWidth (.file file) defaultCapacity
      defaultAllocationBound = Lexer.ofSource path style.lineWidth (.file file) := rfl
  rw [runArguments_lex named opened isTerminal]
  rw [lexer_eq] at readings_eq
  rw [← readings_eq] at legible
  obtain ⟨output_lined, output_count, errors_lined, exitCode_iff, marked⟩ :=
    lined_report named path_line header_line isTerminal legible
  exact ⟨⟨tokens, last, readings_eq, last_eof, before_end⟩, output_lined, output_count,
    errors_lined, exitCode_iff, fun error present shown among =>
      Nat.lt_of_le_of_lt (marked error present shown among) narrow⟩

/-- A string with a bad escape that its line ends, and a comment that goes on to the end of the
file, which is an empty line. -/
theorem lex_lines_header :
    let file : File := .regular "a.wast" "\"\\q\n(;\n".toUTF8.data
    let outcome := runArguments ["lex", "a.wast", "--header=h", "--max-line=20"]
      (fun _ => .ok file) false
    Lined outcome.output ["Tokens for 'a.wast' (1 tokens):", "  EOF @ 3:1-1"] ∧
      Lined outcome.errors
        ["h:",
          "a.wast:1:2: error: bad escape \"\\q\"",
          "\"\\q",
          " ^~",
          "a.wast:1:4: error: newline in string",
          "\"\\q",
          "   ^",
          "a.wast:3:1: error: unterminated block comment"] := by
  intro file outcome
  have named : ofArguments ["lex", "a.wast", "--header=h", "--max-line=20"] =
      .ok (.lex "a.wast", { lineWidth := 20, headerMode := .once, header := "h" }) := by
    cbv
  have opens : (Source.file file).Opens _ := Source.opens_regular "a.wast" (by decide +kernel)
  obtain ⟨-, output_lined, -, errors_lined, -⟩ :=
    @lex_lines _ _ _ (fun _ => .ok file) file _ named rfl opens (by decide) (by decide) (by decide)
      false
  exact ⟨Eq.subst (motive := Lined outcome.output) (by decide +kernel) output_lined,
    Eq.subst (motive := Lined outcome.errors) (by decide +kernel) errors_lined⟩

end Command

end WasmText

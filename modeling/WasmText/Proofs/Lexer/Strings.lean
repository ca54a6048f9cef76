import WasmText.Proofs.Lexer.Course
import WasmText.Proofs.Lexer.Unambiguous

/-!
# Strings

The content of a string is cut into units from the left, and each unit says by itself whether it is
in error. The valid content that a string's first turn takes and the pieces that the turns of a bad
text take are runs of the same units, so that a string is closed, given up or cut off where its
units end, and its errors are those of the units.
-/

namespace WasmText

/-- The first unit of a string's content: an escape, a backslash at the end of its line, a backslash
with the byte after it, or a byte. -/
def firstUnit : List UInt8 → List UInt8
  | first :: second :: rest =>
    if first ≠ Ascii.backslash then [first]
    else if isEscaped second then [first, second]
    else if Ascii.isHexDigit second && rest.head?.any Ascii.isHexDigit then
      first :: second :: rest.take 1
    else if second = Ascii.newline then [first]
    else [first, second]
  | bytes => bytes

theorem length_firstUnit_pos (byte : UInt8) (rest : List UInt8) :
    0 < (firstUnit (byte :: rest)).length := by
  cases rest with
  | nil => exact Nat.one_pos
  | cons second rest =>
      dsimp only [firstUnit]
      split_ifs
      all_goals exact Nat.succ_pos _

/-- The units of a string's content, up to a quote, a newline or the end. -/
def stringUnits : List UInt8 → List (List UInt8)
  | [] => []
  | byte :: rest =>
    if byte = Ascii.quote ∨ byte = Ascii.newline then
      []
    else
      firstUnit (byte :: rest) ::
        stringUnits ((byte :: rest).drop (firstUnit (byte :: rest)).length)
termination_by bytes => bytes.length
decreasing_by
  have positive := length_firstUnit_pos byte rest
  rw [List.length_drop, List.length_cons]
  omega

/-- The error that a unit is. -/
def unitError? : List UInt8 → Option LexError
  | [byte] =>
    if byte = Ascii.backslash ∨ byte < 0x20 ∨ byte = Ascii.delete then
      some .illegalCharInString
    else
      none
  | [first, second] =>
    if isEscaped second then none else some (.badEscape (Bytes.toText #[first, second]))
  | _ => none

variable {unit rest : List UInt8} {error : Option LexError}

/-- What the grammar takes for a unit is the first one. -/
theorem StringUnit.firstUnit_eq (reads : StringUnit unit error rest) :
    firstUnit (unit ++ rest) = unit := by
  cases reads with
  | @plain byte _ plain =>
      have other : byte ≠ Ascii.backslash := by
        rintro rfl
        exact absurd plain (by decide)
      cases rest with
      | nil => rfl
      | cons second rest => exact if_pos other
  | escape valid =>
      cases valid with
      | letter escaped => simp [firstUnit, escaped]
      | @hexadecimal first second first_digit second_digit =>
          have no_letter : isEscaped first = false := by
            rw [← Bool.not_eq_true]
            intro escaped
            exact Bool.noConfusion (first_digit.symm.trans (no_digit_of_isEscaped escaped))
          simp [firstUnit, no_letter, first_digit, second_digit]
  | @badEscape byte _ no_newline no_letter no_digits =>
      have no_second : Ascii.isHexDigit byte = true →
          rest.head?.any Ascii.isHexDigit = false := by
        intro is_digit
        rw [← Bool.not_eq_true, Option.any_eq_true]
        exact no_digits is_digit
      have no_hexadecimal : (Ascii.isHexDigit byte && rest.head?.any Ascii.isHexDigit) = false := by
        rw [← Bool.not_eq_true, Bool.and_eq_true]
        exact fun both => Bool.noConfusion (both.2.symm.trans (no_second both.1))
      simp [firstUnit, no_letter, no_hexadecimal, no_newline]
  | lone alone =>
      cases rest with
      | nil => rfl
      | cons byte rest =>
          obtain rfl := alone byte rfl
          rfl
  | @illegal byte _ illegal =>
      cases rest with
      | nil => rfl
      | cons second rest => exact if_pos illegal.no_backslash

theorem StringUnit.unitError_eq (reads : StringUnit unit error rest) : unitError? unit = error := by
  cases reads with
  | @plain byte _ plain =>
      simp only [isPlainStringByte, Bool.and_eq_true, decide_eq_true_eq, bne_iff_ne] at plain
      obtain ⟨⟨⟨printable, no_delete⟩, -⟩, no_backslash⟩ := plain
      exact if_neg (by simp [no_backslash, no_delete, printable])
  | escape valid =>
      cases valid with
      | letter escaped => exact if_pos escaped
      | hexadecimal => rfl
  | badEscape _ no_letter => simp [unitError?, no_letter]
  | lone => rfl
  | @illegal byte _ illegal =>
      have no_plain := illegal.no_plain
      simp only [isPlainStringByte, Bool.and_eq_false_iff, decide_eq_false_iff_not, UInt8.not_le,
        bne_eq_false_iff_eq, illegal.no_quote, illegal.no_backslash, or_false] at no_plain
      exact if_pos (.inr no_plain)

theorem stringUnits_of_closes {bytes : List UInt8} (closes : ClosesContent bytes) :
    stringUnits bytes = [] := by
  cases bytes with
  | nil => rw [stringUnits]
  | cons byte rest => rw [stringUnits, if_pos (closes byte rfl)]

theorem StringUnit.stringUnits_eq (reads : StringUnit unit error rest) :
    stringUnits (unit ++ rest) = unit :: stringUnits rest := by
  have first_eq := reads.firstUnit_eq
  have goes_on := reads.not_closes
  obtain ⟨byte, more, rfl⟩ := List.exists_cons_of_ne_nil (Piece.unit_ne_nil reads)
  have content : ¬ (byte = Ascii.quote ∨ byte = Ascii.newline) := by
    intro closes
    refine goes_on fun other same => ?_
    cases same
    exact closes
  rw [List.cons_append] at first_eq ⊢
  rw [stringUnits, if_neg content, first_eq, ← List.cons_append, List.drop_left]

/-- Content without errors is made of units without errors. -/
theorem StringContent.exists_units {content : List UInt8} (reads : StringContent content [] rest) :
    ∃ units, units.flatten = content ∧ stringUnits (content ++ rest) = units ++ stringUnits rest ∧
      ∀ unit ∈ units, unitError? unit = none := by
  generalize errors_eq : ([] : List LexError) = errors at reads
  induction reads with
  | nil => exact ⟨[], rfl, rfl, nofun⟩
  | @cons unit content error errors rest first _ induction =>
      obtain ⟨no_error, no_errors⟩ := List.append_eq_nil_iff.mp errors_eq.symm
      obtain ⟨units, flatten_eq, units_eq, valid⟩ := induction no_errors.symm
      refine ⟨unit :: units, by rw [List.flatten_cons, flatten_eq], ?_, ?_⟩
      · rw [List.append_assoc, first.stringUnits_eq, units_eq]
        rfl
      · refine List.forall_mem_cons.mpr ⟨?_, valid⟩
        rw [first.unitError_eq]
        exact Option.toList_eq_nil_iff.mp no_error

theorem Piece.clean_of_plain {run : List UInt8}
    (plain : ∀ byte ∈ run, isPlainStringByte byte = true) : Piece.Clean run := by
  induction run with
  | nil => exact .nil
  | cons byte run induction =>
      obtain ⟨first_plain, others_plain⟩ := List.forall_mem_cons.mp plain
      exact .plain first_plain (induction others_plain)

namespace Lexer

variable {τ : Type}

/-- The diagnostic for an error between two offsets of the line, without its source line. -/
def notice (error : LexError) (first last : Nat) (lexer : Lexer τ) : Diagnostic where
  location := lexer.location first last
  message := error.message
  sourceLine := none

/-- The diagnostics for the units that begin at an offset of the line, each at its unit. -/
def unitReports (lexer : Lexer τ) (offset : Nat) : List (List UInt8) → List Diagnostic
  | [] => []
  | unit :: units =>
    ((unitError? unit).toList.map fun error =>
      lexer.notice error offset (offset + unit.length)) ++
      lexer.unitReports (offset + unit.length) units

theorem unitReports_append (lexer : Lexer τ) (offset : Nat) (units others : List (List UInt8)) :
    lexer.unitReports offset (units ++ others) =
      lexer.unitReports offset units ++
        lexer.unitReports (offset + units.flatten.length) others := by
  induction units generalizing offset with
  | nil => rfl
  | cons unit units induction =>
      rw [List.cons_append, unitReports, unitReports, induction, List.append_assoc,
        List.flatten_cons, List.length_append, Nat.add_assoc]

theorem unitReports_of_valid (lexer : Lexer τ) (offset : Nat) {units : List (List UInt8)}
    (valid : ∀ unit ∈ units, unitError? unit = none) : lexer.unitReports offset units = [] := by
  induction units generalizing offset with
  | nil => rfl
  | cons unit units induction =>
      obtain ⟨first_valid, others_valid⟩ := List.forall_mem_cons.mp valid
      rw [unitReports, first_valid, induction _ others_valid]
      rfl

/-- Two lexers that locate what is on their line alike. -/
structure SameLine (first second : Lexer Cursor) : Prop where
  /-- They read the same bytes -/
  bytes : second.tape.bytes = first.tape.bytes
  /-- of the same source. -/
  filename : second.filename = first.filename
  /-- They are on the same line. -/
  line : second.line = first.line
  /-- It begins at the same offset. -/
  lineOffset : second.lineOffset = first.lineOffset
  /-- They show source lines of the same width. -/
  lineWidth : second.lineWidth = first.lineWidth

theorem SameLine.location_eq {first second : Lexer Cursor} (same : SameLine first second)
    (begins ends : Nat) : second.location begins ends = first.location begins ends := by
  rw [location, location, column, column, column, column, same.filename, same.line,
    same.lineOffset]

theorem SameLine.notice_eq {first second : Lexer Cursor} (same : SameLine first second)
    (error : LexError) (begins ends : Nat) :
    second.notice error begins ends = first.notice error begins ends := by
  rw [notice, notice, same.location_eq]

/-- A turn that breaks no line. -/
theorem sameLine_take {lexer : Lexer Cursor} (stays : lexer.piece.breaksLine = false) :
    SameLine lexer (lexer.take lexer.piece) := by
  refine ⟨rfl, rfl, ?_, ?_, rfl⟩
  · exact if_neg (by rw [stays]; exact Bool.false_ne_true)
  · exact if_neg (by rw [stays]; exact Bool.false_ne_true)

theorem SameLine.trans {first second third : Lexer Cursor} (left : SameLine first second)
    (right : SameLine second third) : SameLine first third :=
  ⟨right.bytes.trans left.bytes, right.filename.trans left.filename, right.line.trans left.line,
    right.lineOffset.trans left.lineOffset, right.lineWidth.trans left.lineWidth⟩

/-- A turn of a lexer that shows no source lines reports its error at the bytes that it takes. -/
theorem reported_take_silent {lexer : Lexer Cursor} (silent : lexer.lineWidth = 0) :
    (lexer.take lexer.piece).reported.toList =
      lexer.reported.toList ++ lexer.piece.error.toList.map fun error =>
        lexer.notice error lexer.tape.offset
          (lexer.tape.offset + lexer.piece.taken.length) := by
  have no_line (location : Location) :
      lineShown lexer.begun.tape.bytes lexer.begun.anchor lexer.begun.lineWidth location = none :=
    if_pos silent
  rw [reported_take]
  refine congrArg (_ ++ List.map · _) (funext fun error => ?_)
  rw [diagnostic, no_line]
  rfl

end Lexer

/-! ### Pieces of strings -/

namespace Piece

variable {nesting : Nat} {token : List UInt8} {piece : Piece}

/-- A piece of a bad text that does not end it is made of units. -/
theorem Fits.exists_units (fits : Fits nesting token .badText piece rest)
    (goes_on : ¬ ClosesContent (piece.taken ++ rest)) :
    ∃ units, units.flatten = piece.taken ∧
      stringUnits (piece.taken ++ rest) = units ++ stringUnits rest ∧ piece.mode = .badText ∧
      ∀ (lexer : Lexer Cursor) (offset : Nat), lexer.unitReports offset units =
        piece.error.toList.map fun error =>
          lexer.notice error offset (offset + piece.taken.length) := by
  cases fits with
  | textAtEnd => exact absurd nofun goes_on
  | textClosing => exact absurd (fun byte same => .inl (Option.some.inj same).symm) goes_on
  | textAtNewline => exact absurd (fun byte same => .inr (Option.some.inj same).symm) goes_on
  | @unit unit _ _ reads =>
      refine ⟨[unit], List.flatten_singleton, reads.stringUnits_eq, rfl, fun lexer offset => ?_⟩
      rw [Lexer.unitReports, reads.unitError_eq, Lexer.unitReports, List.append_nil]
  | plains _ plain =>
      have reads : StringContent _ [] rest := .clean (clean_of_plain plain)
      obtain ⟨units, flatten_eq, units_eq, valid⟩ := reads.exists_units
      exact ⟨units, flatten_eq, units_eq, rfl, fun lexer offset =>
        lexer.unitReports_of_valid offset valid⟩

/-- The first piece of a string is its valid units, with the closing quote if that follows. -/
theorem ofText_cases (nesting : Nat) (ahead : List UInt8) :
    ∃ units tail, ahead = units.flatten ++ tail ∧ stringUnits ahead = units ++ stringUnits tail ∧
      (∀ unit ∈ units, unitError? unit = none) ∧
      ((∃ further, tail = Ascii.quote :: further ∧ ofText nesting ahead =
        { taken := Ascii.quote :: (units.flatten ++ [Ascii.quote]), mode := .normal, nesting
          lexeme := some (.string (Ascii.quote :: (units.flatten ++ [Ascii.quote]))) }) ∨
      ofText nesting ahead =
        { taken := Ascii.quote :: units.flatten, mode := .badText, nesting }) := by
  obtain ⟨tail, tail_eq⟩ := validContent_prefix ahead
  have clean := clean_validContent ahead
  unfold ofText ofContent
  generalize validContent ahead = content at tail_eq clean ⊢
  subst tail_eq
  have reads : StringContent content [] tail := .clean clean
  obtain ⟨units, rfl, units_eq, valid⟩ := reads.exists_units
  refine ⟨units, tail, rfl, units_eq, valid, ?_⟩
  dsimp only
  rw [List.drop_left]
  split
  · rename_i closed
    obtain ⟨further, rfl⟩ := List.head?_eq_some_iff.mp closed
    exact .inl ⟨further, rfl, rfl⟩
  · exact .inr rfl

end Piece

/-! ### Turns of strings -/

namespace Lexer

variable {opening lexer : Lexer Cursor} {units : List (List UInt8)}

/-- A lexer in the middle of a string, behind its opening quote and some of its units. -/
structure InString (opening : Lexer Cursor) (units : List (List UInt8)) (lexer : Lexer Cursor) :
    Prop where
  /-- The string stays on its line. -/
  sameLine : SameLine opening lexer
  /-- The bookkeeping is right. -/
  tidy : lexer.Tidy
  /-- The string is to be completed. -/
  mode : lexer.mode = .badText
  /-- The input goes on. -/
  running : lexer.finished = false
  /-- The token starts at the opening quote. -/
  token_eq : lexer.tape.token = opening.tape.offset
  /-- The units stand between the opening quote and the cursor. -/
  pending_eq : lexer.tape.pending = Ascii.quote :: units.flatten
  /-- The bytes after the opening quote are those of the units and those ahead. -/
  ahead_eq : opening.tape.ahead = Ascii.quote :: (units.flatten ++ lexer.tape.ahead)
  /-- So are the units. -/
  units_eq : stringUnits (units.flatten ++ lexer.tape.ahead) =
    units ++ stringUnits lexer.tape.ahead
  /-- The units in error are reported. -/
  reported_eq : lexer.reported.toList =
    opening.reported.toList ++ opening.unitReports (opening.tape.offset + 1) units

theorem InString.offset_eq (inside : InString opening units lexer) :
    lexer.tape.offset = opening.tape.offset + 1 + units.flatten.length := by
  have tidy := inside.tidy.token_lengths
  have token_le := inside.tidy.token_le
  have token_eq := inside.token_eq
  have length_eq := congrArg List.length inside.pending_eq
  rw [List.length_cons] at length_eq
  omega

/-- Where a string goes on, a turn takes further units. -/
theorem InString.turn (inside : InString opening units lexer) (silent : opening.lineWidth = 0)
    (goes_on : ¬ ClosesContent lexer.tape.ahead) :
    lexer.piece.lexeme = none ∧
      ∃ more, InString opening (units ++ more) (lexer.take lexer.piece) := by
  obtain ⟨rest, ahead_eq, fits⟩ := lexer.exists_rest
  rw [inside.mode] at fits
  rw [ahead_eq] at goes_on
  obtain ⟨more, flatten_eq, more_eq, mode, reports⟩ := fits.exists_units goes_on
  obtain ⟨not_ends, stays⟩ := fits.of_badText mode
  have skips : lexer.piece.lexeme = none := by
    rw [← Option.not_isSome_iff_eq_none]
    intro completes
    cases mode.symm.trans ((fits.of_goesOn not_ends).2 completes)
  have taken_ahead := ahead_take ahead_eq
  have pending : lexer.pending = Ascii.quote :: units.flatten :=
    (if_pos inside.mode).trans inside.pending_eq
  refine ⟨skips, more, ?_⟩
  constructor
  · exact inside.sameLine.trans (sameLine_take stays)
  · exact inside.tidy.take
  · exact mode
  · exact running_take inside.running not_ends
  · change (if lexer.piece.ends then _ else if lexer.mode = .badText then _ else _) = _
    rw [not_ends, if_neg Bool.false_ne_true, if_pos inside.mode]
    exact inside.token_eq
  · rw [pending_take inside.tidy.token_le ahead_eq not_ends, pending, List.flatten_append,
      flatten_eq, List.cons_append]
  · rw [taken_ahead, List.flatten_append, flatten_eq, List.append_assoc, ← ahead_eq]
    exact inside.ahead_eq
  · rw [taken_ahead, List.flatten_append, flatten_eq, List.append_assoc, ← ahead_eq,
      inside.units_eq, ahead_eq, more_eq, List.append_assoc]
  · rw [reported_take_silent (inside.sameLine.lineWidth.trans silent), inside.reported_eq,
      unitReports_append, reports, inside.offset_eq, List.append_assoc]
    simp only [inside.sameLine.notice_eq]

/-- The units of a string are taken one after another up to where they end. -/
theorem InString.run (inside : InString opening units lexer) (silent : opening.lineWidth = 0) :
    ∃ all last, Passes lexer last ∧ InString opening all last ∧
      ClosesContent last.tape.ahead := by
  generalize length_eq : lexer.tape.ahead.length = length
  induction length using Nat.strong_induction_on generalizing units lexer with
  | _ length induction =>
      by_cases closes : ClosesContent lexer.tape.ahead
      · exact ⟨units, lexer, .refl lexer, inside, closes⟩
      · obtain ⟨skips, more, further⟩ := inside.turn silent closes
        have shorter := length_ahead_take_lt (goes_on_of_skips skips)
        obtain ⟨all, last, passes, last_inside, last_closes⟩ :=
          induction _ (length_eq ▸ shorter) further rfl
        exact ⟨all, last, .turn inside.running skips passes, last_inside, last_closes⟩

/-- A string is closed behind its units. -/
structure Closes (opening : Lexer Cursor) (units : List (List UInt8)) (last : Lexer Cursor) :
    Prop where
  /-- A quote follows the units. -/
  quote : ∃ further,
    opening.tape.ahead = Ascii.quote :: (units.flatten ++ Ascii.quote :: further)
  /-- The turn completes the string. -/
  completes : last.piece.lexeme =
    some (.string (Ascii.quote :: (units.flatten ++ [Ascii.quote])))
  /-- The string stays on its line. -/
  sameLine : SameLine opening (last.take last.piece)
  /-- The token starts at the opening quote. -/
  token_eq : (last.take last.piece).tape.token = opening.tape.offset
  /-- The cursor is behind the closing one. -/
  offset_eq : (last.take last.piece).tape.offset =
    opening.tape.offset + 1 + units.flatten.length + 1
  /-- The units in error are reported. -/
  reported_eq : (last.take last.piece).reported.toList =
    opening.reported.toList ++ opening.unitReports (opening.tape.offset + 1) units

/-- The first turn of a string takes all of it or leads into the middle of it. -/
theorem turn_quote (tidy : opening.Tidy) (running : opening.finished = false)
    (silent : opening.lineWidth = 0) (normal : opening.mode = .normal) {ahead : List UInt8}
    (quote : opening.tape.ahead = Ascii.quote :: ahead) :
    Closes opening (stringUnits ahead) opening ∨
      opening.piece.lexeme = none ∧
        ∃ units, InString opening units (opening.take opening.piece) := by
  have started : opening.begun.tape.token = opening.tape.offset := by
    change (if opening.mode = .badText then _ else _) = _
    rw [normal, if_neg nofun]
  have piece_eq : opening.piece = Piece.ofText opening.nesting ahead := by
    rw [piece, normal, quote]
    rfl
  have token_eq (goes_on : opening.piece.ends = false) :
      (opening.take opening.piece).tape.token = opening.tape.offset := by
    change (if opening.piece.ends then _ else opening.begun.tape.token) = _
    rw [goes_on, if_neg Bool.false_ne_true, started]
  have reported_eq (no_error : opening.piece.error = none) :
      (opening.take opening.piece).reported.toList = opening.reported.toList := by
    rw [reported_take_silent silent, no_error]
    exact List.append_nil _
  obtain ⟨units, tail, rfl, units_eq, valid, ⟨further, rfl, text_eq⟩ | text_eq⟩ :=
    Piece.ofText_cases opening.nesting ahead
  · have ends : stringUnits (Ascii.quote :: further) = [] :=
      stringUnits_of_closes fun byte same => .inl (Option.some.inj same).symm
    rw [ends, List.append_nil] at units_eq
    rw [text_eq] at piece_eq
    rw [units_eq]
    refine .inl ⟨?_, ?_, ?_, ?_, ?_, ?_⟩
    · exact ⟨further, quote⟩
    · rw [piece_eq]
    · exact sameLine_take (by rw [piece_eq])
    · exact token_eq (by rw [piece_eq])
    · change opening.tape.offset + opening.piece.taken.length = _
      rw [piece_eq, List.length_cons, List.length_append]
      simp only [List.length_cons, List.length_nil]
      omega
    · rw [reported_eq (by rw [piece_eq]), unitReports_of_valid opening _ valid, List.append_nil]
  · rw [text_eq] at piece_eq
    have goes_on : opening.piece.ends = false := by rw [piece_eq]
    have ahead_eq : opening.tape.ahead = opening.piece.taken ++ tail := by rw [quote, piece_eq]; rfl
    have taken_ahead := ahead_take ahead_eq
    refine .inr ⟨by rw [piece_eq], units, ?_⟩
    constructor
    · exact sameLine_take (by rw [piece_eq])
    · exact tidy.take
    · change opening.piece.mode = _
      rw [piece_eq]
    · exact running_take running goes_on
    · exact token_eq goes_on
    · have fresh : opening.pending = [] := pending_of_ne (by rw [normal]; exact nofun)
      rw [pending_take tidy.token_le ahead_eq goes_on, fresh, piece_eq]
      rfl
    · rw [taken_ahead]
      exact quote
    · rw [taken_ahead, units_eq]
    · rw [reported_eq (by rw [piece_eq]), unitReports_of_valid opening _ valid, List.append_nil]

/-- A string is given up behind its units, at the end of its line. -/
structure GivesUp (opening : Lexer Cursor) (units : List (List UInt8)) (last : Lexer Cursor) :
    Prop where
  /-- A newline follows the units. -/
  newline : ∃ further,
    opening.tape.ahead = Ascii.quote :: (units.flatten ++ Ascii.newline :: further)
  /-- The turn completes nothing. -/
  skips : last.piece.lexeme = none
  /-- Anything may follow. -/
  mode : (last.take last.piece).mode = .normal
  /-- The input goes on -/
  running : (last.take last.piece).finished = false
  /-- behind the newline, -/
  offset_eq : (last.take last.piece).tape.offset =
    opening.tape.offset + 1 + units.flatten.length + 1
  /-- on the next line, -/
  line_eq : (last.take last.piece).line = opening.line + 1
  /-- which begins there. -/
  lineOffset_eq : (last.take last.piece).lineOffset =
    opening.tape.offset + 1 + units.flatten.length + 1
  /-- The units in error are reported, and the newline. -/
  reported_eq : (last.take last.piece).reported.toList =
    opening.reported.toList ++ opening.unitReports (opening.tape.offset + 1) units ++
      [opening.notice .newlineInString (opening.tape.offset + 1 + units.flatten.length)
        (opening.tape.offset + 1 + units.flatten.length + 1)]

/-- A string is cut off behind its units, at the end of the input. -/
structure CutsOff (opening : Lexer Cursor) (units : List (List UInt8)) (last : Lexer Cursor) :
    Prop where
  /-- Nothing follows the units. -/
  past : opening.tape.ahead = Ascii.quote :: units.flatten
  /-- The turn completes the end of the input. -/
  completes : last.piece.lexeme = some .eof
  /-- The units in error are reported, and the end. -/
  reported_eq : (last.take last.piece).reported.toList =
    opening.reported.toList ++ opening.unitReports (opening.tape.offset + 1) units ++
      [opening.notice .unexpectedEofInString (opening.tape.offset + 1 + units.flatten.length)
        (opening.tape.offset + 1 + units.flatten.length)]

/-- The last turn of a string, where its units end. -/
theorem InString.last (inside : InString opening units lexer) (silent : opening.lineWidth = 0)
    (closes : ClosesContent lexer.tape.ahead) :
    Closes opening units lexer ∨ GivesUp opening units lexer ∨ CutsOff opening units lexer := by
  have ahead_eq := inside.ahead_eq
  have reported := reported_take_silent (inside.sameLine.lineWidth.trans silent)
  rw [inside.reported_eq, inside.offset_eq] at reported
  simp only [inside.sameLine.notice_eq] at reported
  have offset_eq : (lexer.take lexer.piece).tape.offset =
      opening.tape.offset + 1 + units.flatten.length + lexer.piece.taken.length := by
    rw [← inside.offset_eq]
    rfl
  have piece_eq : lexer.piece =
      Piece.badText lexer.nesting (Ascii.quote :: units.flatten) lexer.tape.ahead := by
    rw [piece, pending, if_pos inside.mode, inside.pending_eq, inside.mode]
    rfl
  cases here : lexer.tape.ahead with
  | nil =>
      rw [here] at piece_eq ahead_eq
      have shape : lexer.piece =
          { taken := [], mode := .normal, nesting := lexer.nesting
            error := some .unexpectedEofInString, lexeme := some .eof, ends := true } := piece_eq
      rw [List.append_nil] at ahead_eq
      refine .inr (.inr ⟨ahead_eq, by rw [shape], ?_⟩)
      rw [reported, shape]
      rfl
  | cons byte further =>
      rw [here] at piece_eq ahead_eq
      rcases closes byte (by rw [here]; rfl) with rfl | rfl
      · have shape : lexer.piece =
            { taken := [Ascii.quote], mode := .normal, nesting := lexer.nesting
              lexeme := some (.string (Ascii.quote :: units.flatten ++ [Ascii.quote])) } := piece_eq
        refine .inl ⟨⟨further, ahead_eq⟩, by rw [shape]; rfl, ?_, ?_, ?_, ?_⟩
        · exact inside.sameLine.trans (sameLine_take (by rw [shape]))
        · change (if lexer.piece.ends then _ else if lexer.mode = .badText then _ else _) = _
          rw [shape, if_neg Bool.false_ne_true, if_pos inside.mode]
          exact inside.token_eq
        · rw [offset_eq, shape]
          rfl
        · rw [reported, shape]
          exact List.append_nil _
      · have shape : lexer.piece =
            { taken := [Ascii.newline], mode := .normal, nesting := lexer.nesting
              error := some .newlineInString, breaksLine := true } := piece_eq
        refine .inr (.inl ⟨⟨further, ahead_eq⟩, by rw [shape], ?_, ?_, ?_, ?_, ?_, ?_⟩)
        · change lexer.piece.mode = _
          rw [shape]
        · exact running_take inside.running (by rw [shape])
        · rw [offset_eq, shape]
          rfl
        · change (if lexer.piece.breaksLine then lexer.line + 1 else _) = _
          rw [shape, if_pos rfl, inside.sameLine.line]
        · change (if lexer.piece.breaksLine then (lexer.take lexer.piece).tape.offset else _) = _
          rw [offset_eq, shape, if_pos rfl]
          rfl
        · rw [reported, shape]
          rfl

/-- A string that begins at a quote is closed, given up or cut off where its units end. -/
theorem exists_last (tidy : opening.Tidy) (running : opening.finished = false)
    (silent : opening.lineWidth = 0) (normal : opening.mode = .normal) {ahead : List UInt8}
    (quote : opening.tape.ahead = Ascii.quote :: ahead) :
    ∃ last, Passes opening last ∧ last.finished = false ∧
      (Closes opening (stringUnits ahead) last ∨ GivesUp opening (stringUnits ahead) last ∨
        CutsOff opening (stringUnits ahead) last) := by
  rcases turn_quote tidy running silent normal quote with closes | ⟨skips, units, inside⟩
  · exact ⟨opening, .refl opening, running, .inl closes⟩
  · obtain ⟨all, last, passes, last_inside, ends⟩ := inside.run silent
    have all_eq : stringUnits ahead = all := by
      have bytes_eq := (List.cons.inj (quote.symm.trans last_inside.ahead_eq)).2
      rw [bytes_eq, last_inside.units_eq, stringUnits_of_closes ends, List.append_nil]
    rw [all_eq]
    exact ⟨last, .turn running skips passes, last_inside.running, last_inside.last silent ends⟩

/-! ### Strings of a source -/

variable {contents : Bytes} {begun : Lexer Buffer}

/-- A call returns the string that begins where one of its turns does. The string's content is that
of the units, which end at an offset. -/
structure ReadsText (contents : Bytes) (begun : Lexer Buffer) (units : List (List UInt8))
    (last : Nat) (reading : Reading) (after : Lexer Buffer) : Prop where
  /-- A quote follows the units. -/
  quote : contents[last]? = some Ascii.quote
  /-- The token covers the string with its quotes. -/
  token : reading.token =
    { kind := .text
      payload := .text (contents.extract begun.tape.cursor (last + 1))
      location := begun.location begun.tape.cursor (last + 1) }
  /-- The errors are those from before and those of the units. -/
  diagnostics : reading.bare.diagnostics.toList =
    begun.reported.toList.map Diagnostic.bare ++ begun.unitReports (begun.tape.cursor + 1) units
  /-- The next call goes on behind the closing quote. -/
  cursor : after.tape.cursor = last + 1

/-- A call goes on without the string. -/
structure LeavesText (contents : Bytes) (begun : Lexer Buffer) (units : List (List UInt8))
    (last : Nat) (after : Lexer Buffer) : Prop where
  /-- A newline follows the units. -/
  newline : contents[last]? = some Ascii.newline
  /-- The call completes nothing on the way to -/
  skips : Skips begun after
  /-- where anything may follow, -/
  mode : after.mode = .normal
  /-- the input going on, -/
  running : after.finished = false
  /-- behind the newline, -/
  cursor : after.tape.cursor = last + 1
  /-- on the next line, -/
  line : after.line = begun.line + 1
  /-- which begins there. -/
  lineOffset : after.lineOffset = last + 1
  /-- The errors are those from before, those of the units and that of the newline. -/
  reported : after.reported.toList.map Diagnostic.bare =
    begun.reported.toList.map Diagnostic.bare ++
      begun.unitReports (begun.tape.cursor + 1) units ++
        [begun.notice .newlineInString last (last + 1)]

/-- The input ends in the middle of a string, and so does what a lexer reads. -/
structure LosesText (contents : Bytes) (begun : Lexer Buffer) (units : List (List UInt8))
    (last : Nat) (reading : Nat → Reading) : Prop where
  /-- Nothing follows the units. -/
  past : last = contents.size
  /-- The call returns the end of the input. -/
  token : (reading 0).token.isEof = true
  /-- The errors are those from before, those of the units and that of the end. -/
  diagnostics : (reading 0).bare.diagnostics.toList =
    begun.reported.toList.map Diagnostic.bare ++
      begun.unitReports (begun.tape.cursor + 1) units ++
        [begun.notice .unexpectedEofInString last last]
  /-- So does every later call, without any errors. -/
  stays : ∀ later, 0 < later →
    (reading later).token.isEof = true ∧ (reading later).diagnostics = #[]

theorem unitReports_bare (lexer : Lexer Buffer) (offset : Nat) (units : List (List UInt8)) :
    (lexer.bare contents).unitReports offset units = lexer.unitReports offset units := by
  induction units generalizing offset with
  | nil => rfl
  | cons unit units induction => exact congrArg _ (induction _)

/-- The content of a string and the byte behind it. -/
theorem getElem?_behind {units : List (List UInt8)} {byte : UInt8} {further : List UInt8}
    (ahead_eq : (begun.bare contents).tape.ahead =
      Ascii.quote :: (units.flatten ++ byte :: further)) :
    contents[begun.tape.cursor + 1 + units.flatten.length]? = some byte := by
  rw [Nat.add_assoc, getElem?_ahead_bare, ahead_eq, Nat.add_comm, List.getElem?_cons_succ,
    List.getElem?_append_right (Nat.le_refl _), Nat.sub_self]
  rfl

/-- A string with its quotes. -/
theorem extract_string {units : List (List UInt8)} {further : List UInt8}
    (ahead_eq : (begun.bare contents).tape.ahead =
      Ascii.quote :: (units.flatten ++ Ascii.quote :: further)) :
    contents.extract begun.tape.cursor (begun.tape.cursor + 1 + units.flatten.length + 1) =
      (Ascii.quote :: (units.flatten ++ [Ascii.quote])).toArray := by
  have extract_eq := (begun.bare contents).tape.extract_ahead (units.flatten.length + 2)
  have front : (begun.bare contents).tape.ahead.take (units.flatten.length + 2) =
      Ascii.quote :: (units.flatten ++ [Ascii.quote]) := by
    rw [ahead_eq, List.take_succ_cons, List.take_append, Nat.add_sub_cancel_left,
      List.take_of_length_le (Nat.le_succ _)]
    rfl
  have last_eq : begun.tape.cursor + 1 + units.flatten.length + 1 =
      begun.tape.cursor + (units.flatten.length + 2) := by
    omega
  rw [last_eq, ← front]
  exact extract_eq

/-- Strings are read unit by unit, by a lexer that knows which line they are on. -/
theorem strings_by_units {source : Source} (reads : source.contents = contents)
    (unread : source.position = 0) (filename : String) (lineWidth size bound calls : Nat)
    (flowing : ((opened filename lineWidth source size bound).after (calls + 1)).tape.stalled =
      false)
    (skips : Skips ((opened filename lineWidth source size bound).after calls) begun)
    (running : begun.finished = false) (normal : begun.mode = .normal)
    (quote : contents[begun.tape.cursor]? = some Ascii.quote) :
    let lexer := opened filename lineWidth source size bound
    let units := stringUnits (contents.toList.drop (begun.tape.cursor + 1))
    let last := begun.tape.cursor + 1 + units.flatten.length
    let before := contents.toList.take begun.tape.cursor
    (begun.line = Location.lineAfter before ∧ begun.lineOffset = Location.lineStartAfter before) ∧
      (ReadsText contents begun units last (lexer.reading calls) (lexer.after (calls + 1)) ∨
        (∃ after, LeavesText contents begun units last after) ∨
          LosesText contents begun units last fun later => lexer.reading (calls + later)) := by
  intro lexer units last before
  have underway := underway_opened reads unread flowing skips
  have ahead_eq := ahead_bare quote
  obtain ⟨plain, passes, last_running, ends⟩ :=
    exists_last (underway.tidy running) running rfl normal ahead_eq
  obtain ⟨near, near_skips, rfl⟩ := underway.passes passes
  have near_underway := underway.skips near_skips
  have reports_eq := @unitReports_bare contents begun
  refine ⟨⟨(underway.tidy running).line_eq, (underway.tidy running).lineOffset_eq⟩, ?_⟩
  rcases ends with closes | gives_up | cut_off
  · have reading_eq := near_underway.reading_eq last_running closes.completes
    have last_eq := (near_underway.outcome_eq last_running closes.completes).2
    obtain ⟨further, whole⟩ := closes.quote
    refine .inl ⟨getElem?_behind whole, ?_, ?_, ?_⟩
    · have token_eq : (lexer.reading calls).bare.token = _ := congrArg Reading.token reading_eq
      change (lexer.reading calls).bare.token = _
      rw [token_eq, handOut, Lexeme.string, extract_string whole, closes.token_eq,
        closes.offset_eq, closes.sameLine.location_eq]
      rfl
    · rw [reading_eq, ← reports_eq]
      exact closes.reported_eq.trans (congrArg (· ++ _) Array.toList_map)
    · exact (congrArg (fun lexer => lexer.tape.offset) last_eq).trans closes.offset_eq
  · obtain ⟨further, whole⟩ := gives_up.newline
    obtain ⟨lexeme_eq, next_eq⟩ := near_underway.turn_eq last_running
    have skips_last : Skips near (Scan.turn near).2 :=
      .turn last_running (lexeme_eq.trans gives_up.skips) (.refl _)
    refine .inr (.inl ⟨(Scan.turn near).2, getElem?_behind whole, near_skips.trans skips_last,
      (congrArg Lexer.mode next_eq).trans gives_up.mode,
      (congrArg Lexer.finished next_eq).trans gives_up.running,
      (congrArg (fun lexer => lexer.tape.offset) next_eq).trans gives_up.offset_eq,
      (congrArg Lexer.line next_eq).trans gives_up.line_eq,
      (congrArg Lexer.lineOffset next_eq).trans gives_up.lineOffset_eq, ?_⟩)
    have reported_eq := congrArg (fun lexer => lexer.reported.toList) next_eq
    rw [← Array.toList_map, ← Array.toList_map, ← reports_eq]
    exact reported_eq.trans gives_up.reported_eq
  · have reading_eq := near_underway.reading_eq last_running cut_off.completes
    have eof : (lexer.reading calls).token.isEof = true :=
      congrArg (fun reading => reading.token.isEof) reading_eq
    have ready := ready_opened reads unread filename lineWidth size bound
    refine .inr (.inr ⟨?_, eof, ?_, fun later positive => ?_⟩)
    · have length_eq := congrArg List.length cut_off.past
      obtain ⟨inside, -⟩ := Array.getElem?_eq_some_iff.mp quote
      rw [Cursor.length_ahead, List.length_cons] at length_eq
      change contents.size - begun.tape.cursor = units.flatten.length + 1 at length_eq
      omega
    · rw [Nat.add_zero, reading_eq, ← reports_eq, ← Array.toList_map]
      exact cut_off.reported_eq
    · exact ready.reads_eof (Nat.lt_add_of_pos_right positive) eof

/-- A bad escape in a string, from a window of one byte. -/
theorem strings_by_units_badEscape :
    let contents := "\"a\\q\"".toUTF8.data
    let lexer := opened "a.wast" 0 (.ofBytes contents) 1 4096
    ReadsText contents lexer [[0x61], [0x5c, 0x71]] 4 (lexer.reading 0) (lexer.after 1) := by
  intro contents lexer
  have content_eq : contents.toList.drop (lexer.tape.cursor + 1) =
      [0x61, 0x5c, 0x71, Ascii.quote] := by decide
  have plain : StringUnit [0x61] none ([0x5c, 0x71] ++ [Ascii.quote]) := .plain (by decide)
  have bad : StringUnit [0x5c, 0x71] _ [Ascii.quote] :=
    .badEscape (by decide) (by decide) fun digit => absurd digit (by decide)
  have ends : stringUnits [Ascii.quote] = [] :=
    stringUnits_of_closes fun byte same => .inl (Option.some.inj same).symm
  have units_eq : stringUnits [0x61, 0x5c, 0x71, Ascii.quote] = [[0x61], [0x5c, 0x71]] := by
    have first_eq := plain.stringUnits_eq
    rw [bad.stringUnits_eq, ends] at first_eq
    exact first_eq
  have reads : (Source.ofBytes contents).contents = contents := rfl
  have placed := strings_by_units reads rfl "a.wast" 0 1 4096 0 (by decide +kernel) (.refl lexer)
    rfl rfl (by decide)
  dsimp only at placed
  rw [content_eq, units_eq] at placed
  rcases placed.2 with reads | ⟨after, leaves⟩ | loses
  · exact reads
  · exact absurd leaves.newline (by decide)
  · exact absurd loses.past (by decide)

end Lexer

end WasmText

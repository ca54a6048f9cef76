import WasmText.Proofs.Lexer.Call

/-!
# What a call makes of the bytes ahead

From between two tokens a call passes a gap and comes to a token or to the end. From the middle of
a string or comment it first passes the rest of that. Each piece that a turn takes is the front of
such a stretch, so that the pieces of a call make up a whole one.
-/

namespace WasmText

/-- No run of atom bytes goes on from the bytes before to those ahead. -/
def Parted (before ahead : List UInt8) : Prop :=
  ¬ (Tails Atom.isAtomByte before ∧ Heads Atom.isAtomByte ahead)

/-- What a call makes of the bytes ahead of it: the errors that it reports, its lexeme, the bytes of
that and the bytes left. -/
inductive Stretch :
    List UInt8 → List UInt8 → List LexError → Lexeme → List UInt8 → List UInt8 → Prop
  | ended {before gap errors} (fills : Gap before gap errors []) :
      Stretch before gap errors .eof [] []
  | token {before gap bytes errors more lexeme rest} (fills : Gap before gap errors (bytes ++ rest))
      (spells : Spelling (before ++ gap) bytes lexeme more rest) :
      Stretch before (gap ++ (bytes ++ rest)) (errors ++ more) lexeme bytes rest

/-- What a call makes of the rest of a line comment. -/
inductive LineRest :
    List UInt8 → List UInt8 → List LexError → Lexeme → List UInt8 → List UInt8 → Prop
  | ended {before body} (on_line : Ascii.newline ∉ body) : LineRest before body [] .eof [] []
  | line {before body further errors lexeme bytes rest} (on_line : Ascii.newline ∉ body)
      (stretch : Stretch (before ++ (body ++ [Ascii.newline])) further errors lexeme bytes rest) :
      LineRest before (body ++ Ascii.newline :: further) errors lexeme bytes rest

/-- What a call makes of the rest of so many block comments. -/
inductive BlockRest : Nat →
    List UInt8 → List UInt8 → List LexError → Lexeme → List UInt8 → List UInt8 → Prop
  | unclosed {depth before body last} (unclosed : Nesting depth body (last + 1)) :
      BlockRest depth before body [.unterminatedBlockComment] .eof [] []
  | closed {depth before body further errors lexeme bytes rest} (closed : Nesting depth body 0)
      (stretch : Stretch (before ++ body) further errors lexeme bytes rest) :
      BlockRest depth before (body ++ further) errors lexeme bytes rest

/-- What a call makes of the rest of a string, after the given bytes of it. -/
inductive TextRest : List UInt8 →
    List UInt8 → List UInt8 → List LexError → Lexeme → List UInt8 → List UInt8 → Prop
  | last {token before content errors} (reads : StringContent content errors []) :
      TextRest token before content (errors ++ [.unexpectedEofInString]) .eof [] []
  | broken {token before content further errors more lexeme bytes rest}
      (reads : StringContent content errors (Ascii.newline :: further))
      (stretch : Stretch (before ++ (content ++ [Ascii.newline])) further more lexeme bytes rest) :
      TextRest token before (content ++ Ascii.newline :: further)
        (errors ++ .newlineInString :: more) lexeme bytes rest
  | closed {token before content errors rest}
      (reads : StringContent content errors (Ascii.quote :: rest)) :
      TextRest token before (content ++ Ascii.quote :: rest) errors
        (.string (token ++ (content ++ [Ascii.quote]))) (token ++ (content ++ [Ascii.quote])) rest

/-- What a call that begins in some mode makes of the bytes ahead. -/
def Rest (mode : Mode) (nesting : Nat) (token before ahead : List UInt8) (errors : List LexError)
    (lexeme : Lexeme) (bytes rest : List UInt8) : Prop :=
  match mode with
  | .normal => Parted before ahead → Stretch before ahead errors lexeme bytes rest
  | .badText => TextRest token before ahead errors lexeme bytes rest
  | .lineComment => LineRest before ahead errors lexeme bytes rest
  | .blockComment => nesting ≠ 0 → BlockRest nesting before ahead errors lexeme bytes rest

/-! ### Gaps grow at the front -/

variable {before ahead bytes gap rest : List UInt8} {errors more : List LexError} {lexeme : Lexeme}

theorem Stretch.filler {filler : List UInt8} (first : Filler before filler errors ahead)
    (stretch : Stretch (before ++ filler) ahead more lexeme bytes rest) :
    Stretch before (filler ++ ahead) (errors ++ more) lexeme bytes rest := by
  cases stretch with
  | ended fills =>
      have first_fits : Filler before filler errors (ahead ++ []) := by
        rw [List.append_nil]
        exact first
      exact .ended (.cons first_fits fills)
  | token fills spells =>
      rw [List.append_assoc before] at spells
      have whole := Stretch.token (.cons first fills) spells
      rw [List.append_assoc filler, List.append_assoc errors] at whole
      exact whole

/-- A last filler reaches to the end of the input. -/
theorem Stretch.last (last : Filler before ahead errors []) :
    Stretch before ahead errors .eof [] [] := by
  have fills : Gap before (ahead ++ []) (errors ++ []) [] := .cons last .nil
  rw [List.append_nil, List.append_nil] at fills
  exact .ended fills

/-- A token may come first. -/
theorem Stretch.here (spells : Spelling before bytes lexeme errors rest) :
    Stretch before (bytes ++ rest) errors lexeme bytes rest := by
  rw [← List.append_nil before] at spells
  exact .token .nil spells

/-! ### Runs of atom bytes -/

theorem tails_append_of_ne_nil {accepts : UInt8 → Bool} {run : List UInt8} (nonempty : run ≠ []) :
    Tails accepts (before ++ run) ↔ Tails accepts run := by
  rw [Tails, Tails, List.getLast?_append_of_ne_nil before nonempty]

/-- Nothing joins bytes that end with one that is in no atom. -/
theorem parted_of_last {run : List UInt8} {byte : UInt8} (last_eq : run.getLast? = some byte)
    (rejected : Atom.isAtomByte byte = false) : Parted (before ++ run) ahead := by
  have nonempty : run ≠ [] := List.getLast?_isSome.mp (Option.isSome_of_eq_some last_eq)
  rintro ⟨tails, -⟩
  obtain ⟨last, same, accepted⟩ := (tails_append_of_ne_nil nonempty).mp tails
  rw [last_eq] at same
  cases same
  exact Bool.noConfusion (accepted.symm.trans rejected)

theorem parted_of_not_heads (rejected : ¬ Heads Atom.isAtomByte ahead) : Parted before ahead :=
  fun joined => rejected joined.2

theorem atomRun_of_parted {run : List UInt8} (parted : Parted before (run ++ rest))
    (nonempty : run ≠ []) (atom_bytes : ∀ byte ∈ run, Atom.isAtomByte byte = true)
    (to_end : ¬ Heads Atom.isAtomByte rest) : AtomRun before run rest := by
  refine ⟨nonempty, atom_bytes, fun joined => parted ⟨joined, ?_⟩, to_end⟩
  obtain ⟨first, tail, rfl⟩ := List.exists_cons_of_ne_nil nonempty
  exact ⟨first, rfl, atom_bytes first List.mem_cons_self⟩

/-! ### Fillers -/

theorem no_atom_of_isBlank {byte : UInt8} (blank : isBlank byte = true) :
    Atom.isAtomByte byte = false := by
  unfold isBlank at blank
  simp only [Bool.or_eq_true, beq_iff_eq] at blank
  rcases blank with (rfl | rfl) | rfl
  all_goals decide

theorem Stretch.blanks {run : List UInt8} (blank : ∀ byte ∈ run, isBlank byte = true)
    (stretch : Stretch (before ++ run) ahead errors lexeme bytes rest) :
    Stretch before (run ++ ahead) errors lexeme bytes rest := by
  induction run generalizing before with
  | nil =>
      rw [List.append_nil] at stretch
      exact stretch
  | cons byte run induction =>
      obtain ⟨first_blank, others_blank⟩ := List.forall_mem_cons.mp blank
      rw [List.append_cons] at stretch
      exact .filler (.trivia (.blank first_blank)) (induction others_blank stretch)

/-- A line comment goes on behind its opening. -/
theorem LineRest.stretch
    (further : LineRest (before ++ [Ascii.semicolon, Ascii.semicolon]) ahead errors lexeme bytes
      rest) :
    Stretch before (Ascii.semicolon :: Ascii.semicolon :: ahead) errors lexeme bytes rest := by
  cases further with
  | ended on_line => exact .last (.trivia (.lastComment on_line))
  | line on_line stretch =>
      rw [List.append_assoc] at stretch
      have whole := Stretch.filler (.trivia (.lineComment on_line)) stretch
      simpa using whole

/-- A block comment goes on behind its opening. -/
theorem BlockRest.stretch
    (further : BlockRest 1 (before ++ [Ascii.leftParen, Ascii.semicolon]) ahead errors lexeme bytes
      rest) :
    Stretch before (Ascii.leftParen :: Ascii.semicolon :: ahead) errors lexeme bytes rest := by
  cases further with
  | unclosed unclosed => exact .last (.unclosedComment unclosed)
  | closed closed stretch =>
      rw [List.append_assoc] at stretch
      exact Stretch.filler (.trivia (.blockComment (.intro closed))) stretch

/-! ### Strings -/

theorem StringContent.append_clean {content further : List UInt8} (clean : Piece.Clean content)
    (reads : StringContent further errors rest) :
    StringContent (content ++ further) errors rest := by
  induction clean with
  | nil => exact reads
  | plain plain _ induction => exact .cons (.plain plain) induction
  | @escape escape content valid _ induction =>
      rw [List.append_assoc]
      exact .cons (.escape valid) induction

theorem StringContent.clean {content : List UInt8} (clean : Piece.Clean content) :
    StringContent content [] rest := by
  rw [← List.append_nil content]
  exact .append_clean clean .nil

/-- A string goes on behind its opening and valid content. -/
theorem TextRest.stretch {content : List UInt8} (clean : Piece.Clean content)
    (further : TextRest (Ascii.quote :: content) (before ++ Ascii.quote :: content) ahead errors
      lexeme bytes rest) :
    Stretch before (Ascii.quote :: content ++ ahead) errors lexeme bytes rest := by
  cases further with
  | last reads => exact .last (.lastString (reads.append_clean clean))
  | broken reads stretch =>
      have broken : Filler before _ _ _ := .brokenString (reads.append_clean clean)
      have whole := Stretch.filler broken (by simpa using stretch)
      simpa using whole
  | closed reads =>
      have spells : Spelling before _ _ _ _ := .string (reads.append_clean clean)
      simpa [Lexeme.string] using Stretch.here spells

/-- A unit in front of a string's rest. -/
theorem TextRest.unit {token unit : List UInt8} {error : Option LexError}
    (reads : StringUnit unit error ahead)
    (further : TextRest (token ++ unit) (before ++ unit) ahead errors lexeme bytes rest) :
    TextRest token before (unit ++ ahead) (error.toList ++ errors) lexeme bytes rest := by
  cases further with
  | last content_reads =>
      rw [← List.append_assoc]
      refine .last (.cons ?_ content_reads)
      rw [List.append_nil]
      exact reads
  | broken content_reads stretch =>
      rw [← List.append_assoc, ← List.append_assoc]
      refine .broken (.cons reads content_reads) ?_
      simpa using stretch
  | closed content_reads =>
      have whole : TextRest token before _ _ _ _ _ := .closed (.cons reads content_reads)
      simpa using whole

theorem TextRest.plains {token run : List UInt8}
    (plain : ∀ byte ∈ run, isPlainStringByte byte = true)
    (further : TextRest (token ++ run) (before ++ run) ahead errors lexeme bytes rest) :
    TextRest token before (run ++ ahead) errors lexeme bytes rest := by
  induction run generalizing token before with
  | nil =>
      rw [List.append_nil, List.append_nil] at further
      exact further
  | cons byte run induction =>
      obtain ⟨first_plain, others_plain⟩ := List.forall_mem_cons.mp plain
      rw [List.append_cons, List.append_cons before] at further
      exact .unit (.plain first_plain) (induction others_plain further)

/-! ### Block comments -/

/-- Bytes at which a step does not stop are skipped. -/
theorem Nesting.skips {depth last : Nat} {run body : List UInt8}
    (inside : ∀ byte ∈ run, stopsBlockComment byte = false)
    (further : Nesting (depth + 1) body last) : Nesting (depth + 1) (run ++ body) last := by
  induction run with
  | nil => exact further
  | cons byte run induction =>
      obtain ⟨first_inside, others_inside⟩ := List.forall_mem_cons.mp inside
      refine .skip ?_ (induction others_inside)
      rintro second - (⟨rfl, -⟩ | ⟨rfl, -⟩)
      all_goals exact absurd first_inside (by decide)

/-- Bytes in front of a comment's rest, which lead into it from some depth. -/
theorem BlockRest.front {depth middle : Nat} {front : List UInt8}
    (leads : ∀ body last, body <+: ahead → Nesting middle body last →
      Nesting depth (front ++ body) last)
    (further : BlockRest middle (before ++ front) ahead errors lexeme bytes rest) :
    BlockRest depth before (front ++ ahead) errors lexeme bytes rest := by
  cases further with
  | unclosed unclosed => exact .unclosed (leads _ _ (List.prefix_refl _) unclosed)
  | closed closed stretch =>
      rw [List.append_assoc] at stretch
      rw [← List.append_assoc]
      exact .closed (leads _ _ (List.prefix_append _ _) closed) stretch

/-- The byte after a part is that after the whole. -/
theorem mem_head?_mono {part whole : List UInt8} {byte : UInt8} (begins : part <+: whole)
    (head_eq : byte ∈ part.head?) : byte ∈ whole.head? := by
  obtain ⟨tail, rfl⟩ := begins
  obtain ⟨others, rfl⟩ := List.head?_eq_some_iff.mp head_eq
  exact rfl

theorem BlockRest.skip {depth : Nat} {run : List UInt8} {byte : UInt8}
    (inside : ∀ byte ∈ run, stopsBlockComment byte = false)
    (no_delimiter : ∀ second ∈ ahead.head?, ¬ IsDelimiter byte second)
    (further : BlockRest (depth + 1) (before ++ (run ++ [byte])) ahead errors lexeme bytes rest) :
    BlockRest (depth + 1) before (run ++ [byte] ++ ahead) errors lexeme bytes rest := by
  refine .front (fun body last begins nested => ?_) further
  rw [List.append_assoc]
  refine .skips inside (.skip (fun second head_eq => ?_) nested)
  exact no_delimiter second (mem_head?_mono begins head_eq)

theorem BlockRest.opening {depth : Nat} {run : List UInt8}
    (inside : ∀ byte ∈ run, stopsBlockComment byte = false)
    (further : BlockRest (depth + 2) (before ++ (run ++ [Ascii.leftParen, Ascii.semicolon])) ahead
      errors lexeme bytes rest) :
    BlockRest (depth + 1) before (run ++ [Ascii.leftParen, Ascii.semicolon] ++ ahead) errors lexeme
      bytes rest := by
  refine .front (fun body last _ nested => ?_) further
  rw [List.append_assoc]
  exact .skips inside (.opens nested)

theorem BlockRest.closing {depth : Nat} {run : List UInt8}
    (inside : ∀ byte ∈ run, stopsBlockComment byte = false)
    (further : BlockRest depth (before ++ (run ++ [Ascii.semicolon, Ascii.rightParen])) ahead
      errors lexeme bytes rest) :
    BlockRest (depth + 1) before (run ++ [Ascii.semicolon, Ascii.rightParen] ++ ahead) errors lexeme
      bytes rest := by
  refine .front (fun body last _ nested => ?_) further
  rw [List.append_assoc]
  exact .skips inside (.closes nested)

/-! ### One turn -/

namespace Piece

variable {nesting : Nat} {token : List UInt8} {mode : Mode} {piece : Piece}

/-- Where any lexeme may come behind a piece, no run of atom bytes is cut in two. -/
theorem Fits.parted (fits : Fits nesting token mode piece ahead) (goes_on : piece.ends = false)
    (normal : piece.mode = .normal) : Parted (before ++ piece.taken) ahead := by
  cases fits with
  | atEnd | textAtEnd | lineAtEnd | blockAtEnd => cases goes_on
  | blockOpening | lineOpening | textOpening | unit | plains | blockAtNewline | nestedOpening |
      undelimiting => cases normal
  | leftParen | rightParen | newline | textClosing | textAtNewline =>
      exact parted_of_last rfl (by decide)
  | @blanks run _ nonempty blank =>
      obtain ⟨last, last_eq⟩ := Option.isSome_iff_exists.mp (List.getLast?_isSome.mpr nonempty)
      exact parted_of_last last_eq (no_atom_of_isBlank (blank last (List.mem_of_getLast? last_eq)))
  | atom _ _ to_end => exact parted_of_not_heads to_end
  | @text content =>
      have last_eq : (Ascii.quote :: content ++ [Ascii.quote]).getLast? = some Ascii.quote :=
        List.getLast?_concat
      exact parted_of_last last_eq (by decide)
  | stray stray => exact parted_of_last rfl stray.no_atom
  | lineAtNewline => exact parted_of_last List.getLast?_concat (by decide)
  | @blockClosing run =>
      have last_eq : (run ++ [Ascii.semicolon, Ascii.rightParen]).getLast? =
          some Ascii.rightParen := List.getLast?_append.trans rfl
      exact parted_of_last last_eq (by decide)

/-- A piece that completes nothing is the front of what the call makes of the bytes. -/
theorem Fits.rest_goesOn (fits : Fits nesting token mode piece ahead) (skips : piece.lexeme = none)
    (fresh : mode ≠ .badText → token = [])
    (further : Rest piece.mode piece.nesting
      (if piece.mode = .badText then token ++ piece.taken else []) (before ++ piece.taken) ahead
      errors lexeme bytes rest) :
    Rest mode nesting token before (piece.taken ++ ahead) (piece.error.toList ++ errors) lexeme
      bytes rest := by
  have apart : piece.mode = .normal → Parted (before ++ piece.taken) ahead :=
    fits.parted (fits.goes_on_of_skips skips)
  cases fits with
  | atEnd | leftParen | rightParen | text | textAtEnd | textClosing | lineAtEnd | blockAtEnd =>
      cases skips
  | blockOpening => exact fun _ => (further Nat.one_ne_zero).stretch
  | lineOpening => exact fun _ => further.stretch
  | blanks _ blank => exact fun _ => .blanks blank (further (apart rfl))
  | newline => exact fun _ => .filler (.trivia .newline) (further (apart rfl))
  | @atom run _ nonempty atom_bytes to_end =>
      intro parted
      rw [ofAtom_lexeme] at skips
      have unknown : ofAtom nesting run = {
          taken := run, mode := .normal, nesting
          error := some (.unexpectedToken (Bytes.toText run.toArray)) } := by
        rw [ofAtom, skips]
      rw [unknown] at parted further apart ⊢
      have alone := atomRun_of_parted parted nonempty atom_bytes to_end
      exact .filler (.unknownAtom alone skips) (further (apart rfl))
  | textOpening clean =>
      intro _
      rw [fresh nofun] at further
      exact further.stretch clean
  | stray stray => exact fun _ => .filler (.stray stray) (further (apart rfl))
  | textAtNewline => exact .broken .nil (further (apart rfl))
  | unit reads => exact .unit reads further
  | plains _ plain => exact .plains plain further
  | lineAtNewline on_line =>
      have whole := LineRest.line on_line (further (apart rfl))
      rw [List.append_cons] at whole
      exact whole
  | blockAtNewline inside =>
      intro positive
      obtain ⟨depth, rfl⟩ := Nat.exists_eq_succ_of_ne_zero positive
      refine .skip inside ?_ (further positive)
      rintro second - (⟨same, -⟩ | ⟨same, -⟩)
      all_goals exact absurd same (by decide)
  | nestedOpening inside =>
      intro positive
      obtain ⟨depth, rfl⟩ := Nat.exists_eq_succ_of_ne_zero positive
      exact .opening inside (further (Nat.succ_ne_zero _))
  | blockClosing inside =>
      intro positive
      obtain ⟨depth, rfl⟩ := Nat.exists_eq_succ_of_ne_zero positive
      refine .closing inside ?_
      cases depth with
      | zero =>
          have stretch := further (apart rfl)
          rw [← List.append_nil (before ++ _)] at stretch
          exact .closed .nil stretch
      | succ depth => exact further (Nat.succ_ne_zero _)
  | undelimiting inside _ no_delimiter =>
      intro positive
      obtain ⟨depth, rfl⟩ := Nat.exists_eq_succ_of_ne_zero positive
      exact .skip inside no_delimiter (further positive)

/-- What a piece that completes a lexeme makes of the bytes. -/
theorem Fits.rest_completes (fits : Fits nesting token mode piece ahead)
    (completes : piece.lexeme = some lexeme) (fresh : mode ≠ .badText → token = []) :
    Rest mode nesting token before (piece.taken ++ ahead) piece.error.toList lexeme
      (if piece.ends then [] else token ++ piece.taken) ahead := by
  cases fits with
  | blockOpening | lineOpening | blanks | newline | textOpening | stray | textAtNewline | unit |
      plains | lineAtNewline | blockAtNewline | nestedOpening | blockClosing | undelimiting =>
      cases completes
  | atEnd =>
      cases completes
      exact fun _ => .ended .nil
  | leftParen no_comment =>
      cases completes
      intro _
      rw [fresh nofun]
      exact .here (.leftParen no_comment)
  | rightParen =>
      cases completes
      intro _
      rw [fresh nofun]
      exact .here .rightParen
  | @atom run _ nonempty atom_bytes to_end =>
      intro parted
      rw [ofAtom_lexeme] at completes
      have known : ofAtom nesting run =
          { taken := run, mode := .normal, nesting, lexeme := some lexeme } := by
        rw [ofAtom, completes]
      rw [known] at parted ⊢
      rw [fresh nofun]
      have alone := atomRun_of_parted parted nonempty atom_bytes to_end
      exact .here (.atom alone completes)
  | text clean =>
      cases completes
      intro _
      rw [fresh nofun]
      exact .here (.string (.clean clean))
  | textAtEnd =>
      cases completes
      exact .last .nil
  | textClosing =>
      cases completes
      exact .closed .nil
  | lineAtEnd on_line =>
      cases completes
      rw [List.append_nil]
      exact .ended on_line
  | blockAtEnd inside =>
      cases completes
      intro positive
      obtain ⟨depth, rfl⟩ := Nat.exists_eq_succ_of_ne_zero positive
      exact .unclosed (.skips inside .nil)

end Piece

/-! ### Whole calls -/

namespace Lexer

variable {lexer after : Lexer Cursor}

/-- A turn that completes nothing leaves the lexer running. -/
theorem running_take (running : lexer.finished = false) (goes_on : lexer.piece.ends = false) :
    (lexer.take lexer.piece).finished = false := by
  obtain ⟨rest, -, fits⟩ := lexer.exists_rest
  have harmless := (fits.of_goesOn goes_on).1
  change (lexer.piece.error.elim lexer.finished fun error => lexer.finished || error.isFatal) = _
  cases reported : lexer.piece.error with
  | none => exact running
  | some error =>
      rw [reported] at harmless
      change (lexer.finished || error.isFatal) = false
      rw [running, harmless error rfl]
      rfl

/-- A call makes a whole of the pieces that its turns take. -/
theorem Finds.stretch (finds : Finds lexer errors lexeme after) (tidy : lexer.Tidy)
    (running : lexer.finished = false) :
    Rest lexer.mode lexer.nesting lexer.pending lexer.tape.passed lexer.tape.ahead errors lexeme
      after.tape.pending after.tape.ahead := by
  induction finds with
  | finished finished => exact Bool.noConfusion (finished.symm.trans running)
  | @completes lexer lexeme _ completes =>
      obtain ⟨rest, ahead_eq, fits⟩ := lexer.exists_rest
      have token_eq : (lexer.take lexer.piece).tape.pending =
          if lexer.piece.ends then [] else lexer.pending ++ lexer.piece.taken := by
        split
        · rename_i ends
          exact pending_take_of_ends ends
        · rename_i goes_on
          exact pending_take tidy.token_le ahead_eq (by simpa using goes_on)
      rw [token_eq, ahead_take ahead_eq, ahead_eq]
      exact fits.rest_completes completes pending_of_ne
  | @goesOn lexer after errors lexeme _ skips _ induction =>
      obtain ⟨rest, ahead_eq, fits⟩ := lexer.exists_rest
      have goes_on := goes_on_of_skips skips
      have further := induction tidy.take (running_take running goes_on)
      rw [ahead_take ahead_eq, passed_take ahead_eq] at further
      rw [ahead_eq]
      refine fits.rest_goesOn skips pending_of_ne ?_
      rw [← pending_take tidy.token_le ahead_eq goes_on]
      exact further

/-- After a token the lexer is between two tokens. -/
theorem Finds.fresh (finds : Finds lexer errors lexeme after) (running : lexer.finished = false)
    (token : lexeme ≠ .eof) : after.mode = .normal ∧ after.finished = false := by
  induction finds with
  | finished => exact absurd rfl token
  | @completes lexer lexeme _ completes =>
      obtain ⟨rest, ahead_eq, fits⟩ := lexer.exists_rest
      have goes_on := goes_on_of_token completes token
      exact ⟨(fits.of_goesOn goes_on).2 (Option.isSome_of_eq_some completes),
        running_take running goes_on⟩
  | goesOn _ skips _ induction =>
      exact induction (running_take running (goes_on_of_skips skips)) token

end Lexer

end WasmText

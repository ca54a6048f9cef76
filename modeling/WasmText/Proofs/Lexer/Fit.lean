import WasmText.Proofs.Atom
import WasmText.Proofs.Lexer.Grammar
import WasmText.Proofs.Lexer.Piece

/-!
# What pieces look like

Every piece that a step takes has one of a fixed number of shapes. They are listed here with the
bytes that follow them, and what holds of all pieces is proved shape by shape.
-/

namespace WasmText

/-- The input ended inside of a string or a block comment. -/
def LexError.IsUnclosed (error : LexError) : Prop :=
  error = .unexpectedEofInString ∨ error = .unterminatedBlockComment

theorem LexError.IsUnclosed.isFatal {error : LexError} (unclosed : error.IsUnclosed) :
    error.isFatal = true := by
  rcases unclosed with rfl | rfl
  · rfl
  · rfl

namespace Piece

/-- Valid content of a string: bytes that stand for themselves and valid escapes. -/
inductive Clean : List UInt8 → Prop
  | nil : Clean []
  | plain {byte content} (plain : isPlainStringByte byte = true) (further : Clean content) :
      Clean (byte :: content)
  | escape {bytes content} (valid : Escape bytes) (further : Clean content) :
      Clean (bytes ++ content)

/-- The shapes of pieces in each mode, before the bytes that follow. -/
inductive Fits (nesting : Nat) (token : List UInt8) : Mode → Piece → List UInt8 → Prop
  | atEnd :
      Fits nesting token .normal
        { taken := [], mode := .normal, nesting, lexeme := some .eof, ends := true } []
  | leftParen {rest} (no_comment : rest.head? ≠ some Ascii.semicolon) :
      Fits nesting token .normal (single nesting Ascii.leftParen .lpar) rest
  | rightParen {rest} :
      Fits nesting token .normal (single nesting Ascii.rightParen .rpar) rest
  | blockOpening {rest} :
      Fits nesting token .normal
        { taken := [Ascii.leftParen, Ascii.semicolon], mode := .blockComment, nesting := 1 } rest
  | lineOpening {rest} :
      Fits nesting token .normal
        { taken := [Ascii.semicolon, Ascii.semicolon], mode := .lineComment, nesting } rest
  | blanks {run rest} (nonempty : run ≠ []) (blank : ∀ byte ∈ run, isBlank byte = true) :
      Fits nesting token .normal { taken := run, mode := .normal, nesting } rest
  | newline {rest} :
      Fits nesting token .normal
        { taken := [Ascii.newline], mode := .normal, nesting, breaksLine := true } rest
  | atom {run rest} (nonempty : run ≠ [])
      (atom_bytes : ∀ byte ∈ run, Atom.isAtomByte byte = true)
      (to_end : ¬ Heads Atom.isAtomByte rest) :
      Fits nesting token .normal (ofAtom nesting run) rest
  | text {content rest} (clean : Clean content) :
      Fits nesting token .normal
        { taken := Ascii.quote :: (content ++ [Ascii.quote]), mode := .normal, nesting
          lexeme := some (.string (Ascii.quote :: (content ++ [Ascii.quote]))) } rest
  /-- A string up to its first error. -/
  | textOpening {content rest} (clean : Clean content) :
      Fits nesting token .normal
        { taken := Ascii.quote :: content, mode := .badText, nesting } rest
  | stray {byte rest} (stray : Stray byte rest) :
      Fits nesting token .normal (unexpectedChar nesting byte) rest
  | textAtEnd :
      Fits nesting token .badText
        { taken := [], mode := .normal, nesting, error := some .unexpectedEofInString
          lexeme := some .eof, ends := true } []
  | textClosing {rest} :
      Fits nesting token .badText
        { taken := [Ascii.quote], mode := .normal, nesting
          lexeme := some (.string (token ++ [Ascii.quote])) } rest
  | textAtNewline {rest} :
      Fits nesting token .badText
        { taken := [Ascii.newline], mode := .normal, nesting, error := some .newlineInString
          breaksLine := true } rest
  | unit {unit error rest} (reads : StringUnit unit error rest) :
      Fits nesting token .badText { taken := unit, mode := .badText, nesting, error } rest
  | plains {run rest} (nonempty : run ≠ [])
      (plain : ∀ byte ∈ run, isPlainStringByte byte = true) :
      Fits nesting token .badText { taken := run, mode := .badText, nesting } rest
  | lineAtEnd {run} (on_line : Ascii.newline ∉ run) :
      Fits nesting token .lineComment
        { taken := run, mode := .lineComment, nesting, lexeme := some .eof, ends := true } []
  | lineAtNewline {run rest} (on_line : Ascii.newline ∉ run) :
      Fits nesting token .lineComment
        { taken := run ++ [Ascii.newline], mode := .normal, nesting, breaksLine := true } rest
  | blockAtEnd {run} (inside : ∀ byte ∈ run, stopsBlockComment byte = false) :
      Fits nesting token .blockComment
        { taken := run, mode := .blockComment, nesting, error := some .unterminatedBlockComment
          lexeme := some .eof, ends := true } []
  | blockAtNewline {run rest} (inside : ∀ byte ∈ run, stopsBlockComment byte = false) :
      Fits nesting token .blockComment
        { taken := run ++ [Ascii.newline], mode := .blockComment, nesting, breaksLine := true }
        rest
  | nestedOpening {run rest} (inside : ∀ byte ∈ run, stopsBlockComment byte = false) :
      Fits nesting token .blockComment
        { taken := run ++ [Ascii.leftParen, Ascii.semicolon], mode := .blockComment
          nesting := nesting + 1 } rest
  | blockClosing {run rest} (inside : ∀ byte ∈ run, stopsBlockComment byte = false) :
      Fits nesting token .blockComment
        { taken := run ++ [Ascii.semicolon, Ascii.rightParen]
          mode := if nesting - 1 = 0 then .normal else .blockComment, nesting := nesting - 1 } rest
  /-- The first byte of a delimiter without the second. -/
  | undelimiting {run byte rest} (inside : ∀ byte ∈ run, stopsBlockComment byte = false)
      (on_line : byte ≠ Ascii.newline)
      (no_delimiter : ∀ second ∈ rest.head?, ¬ IsDelimiter byte second) :
      Fits nesting token .blockComment
        { taken := run ++ [byte], mode := .blockComment, nesting } rest

variable {nesting : Nat} {token ahead rest : List UInt8} {byte : UInt8}

@[simp] theorem ofAtom_taken (run : List UInt8) : (ofAtom nesting run).taken = run := by
  unfold ofAtom
  split <;> rfl

@[simp] theorem ofAtom_mode (run : List UInt8) : (ofAtom nesting run).mode = .normal := by
  unfold ofAtom
  split <;> rfl

@[simp] theorem ofAtom_nesting (run : List UInt8) : (ofAtom nesting run).nesting = nesting := by
  unfold ofAtom
  split <;> rfl

@[simp] theorem ofAtom_breaksLine (run : List UInt8) :
    (ofAtom nesting run).breaksLine = false := by
  unfold ofAtom
  split <;> rfl

@[simp] theorem ofAtom_ends (run : List UInt8) : (ofAtom nesting run).ends = false := by
  unfold ofAtom
  split <;> rfl

@[simp] theorem ofAtom_lexeme (run : List UInt8) :
    (ofAtom nesting run).lexeme = Scan.atomLexeme? run.toArray := by
  unfold ofAtom
  split
  · rename_i known
    exact known.symm
  · rename_i unknown
    exact unknown.symm

/-! ### Finding the shape -/

/-- The longest run of bytes that satisfy a predicate ends where one does not. -/
theorem not_heads_dropWhile (accepts : UInt8 → Bool) (bytes : List UInt8) :
    ¬ Heads accepts (bytes.dropWhile accepts) := by
  rintro ⟨byte, head_eq, accepted⟩
  have rejected := List.head?_dropWhile_not accepts bytes
  rw [head_eq] at rejected
  exact Bool.noConfusion (accepted.symm.trans rejected)

theorem of_mem_takeWhile {accepts : UInt8 → Bool} {bytes : List UInt8} :
    ∀ byte ∈ bytes.takeWhile accepts, accepts byte = true :=
  List.all_eq_true.mp List.all_takeWhile

theorem takeWhile_ne_nil {accepts : UInt8 → Bool} (accepted : accepts byte = true) :
    (byte :: rest).takeWhile accepts ≠ [] := by
  rw [List.takeWhile_cons_of_pos accepted]
  exact List.cons_ne_nil _ _

/-- A backslash and the bytes after it make an escape as long as it is said to be. -/
theorem escape_of_length (valid : escapeLength rest ≠ 0) :
    Escape (Ascii.backslash :: rest.take (escapeLength rest - 1)) := by
  unfold escapeLength at valid ⊢
  cases rest with
  | nil => exact absurd rfl valid
  | cons first rest =>
      dsimp only at valid ⊢
      split
      · rename_i escaped
        exact .letter escaped
      · rename_i unescaped
        rw [if_neg unescaped] at valid
        split
        · rename_i first_digit
          rw [if_pos first_digit] at valid
          split
          · rename_i second_digit
            obtain ⟨second, head_eq, is_digit⟩ := (Option.any_eq_true _ _).mp second_digit
            obtain ⟨tail, rfl⟩ := List.head?_eq_some_iff.mp head_eq
            exact .hexadecimal first_digit is_digit
          · rename_i no_digit
            rw [if_neg no_digit] at valid
            exact absurd rfl valid
        · rename_i no_digit
          rw [if_neg no_digit] at valid
          exact absurd rfl valid

theorem clean_validContent (ahead : List UInt8) : Clean (validContent ahead) := by
  fun_induction validContent ahead with
  | case1 => exact .nil
  | case2 byte rest plain induction => exact .plain plain induction
  | case3 byte rest special escape induction =>
      obtain ⟨backslash, valid⟩ := (Bool.and_eq_true _ _).mp escape
      rw [of_decide_eq_true backslash]
      exact .escape (escape_of_length (by simpa using valid)) induction
  | case4 => exact .nil

theorem validContent_prefix (ahead : List UInt8) : validContent ahead <+: ahead := by
  fun_induction validContent ahead with
  | case1 => exact List.nil_prefix
  | case2 byte rest plain induction => exact List.cons_prefix_cons.mpr ⟨rfl, induction⟩
  | case3 byte rest special escape induction =>
      rw [List.cons_append, List.cons_prefix_cons]
      refine ⟨rfl, ?_⟩
      obtain ⟨last, last_eq⟩ := induction
      exact ⟨last, by rw [List.append_assoc, last_eq, List.take_append_drop]⟩
  | case4 => exact List.nil_prefix

theorem fits_ofText :
    ∃ rest, Ascii.quote :: ahead = (ofText nesting ahead).taken ++ rest ∧
      Fits nesting token .normal (ofText nesting ahead) rest := by
  obtain ⟨last, last_eq⟩ := validContent_prefix ahead
  have clean := clean_validContent ahead
  unfold ofText ofContent
  generalize validContent ahead = content at last_eq clean ⊢
  subst last_eq
  dsimp only
  rw [List.drop_left]
  split
  · rename_i closed
    obtain ⟨rest, rfl⟩ := List.head?_eq_some_iff.mp closed
    refine ⟨rest, ?_, .text clean⟩
    simp only [after, List.cons_append, List.nil_append, List.append_assoc]
  · exact ⟨last, rfl, .textOpening clean⟩

theorem fits_normal :
    ∃ rest, ahead = (normal nesting ahead).taken ++ rest ∧
      Fits nesting token .normal (normal nesting ahead) rest := by
  cases ahead with
  | nil => exact ⟨[], rfl, .atEnd⟩
  | cons byte rest =>
      unfold normal
      dsimp only
      split
      · rename_i left_paren
        subst left_paren
        split
        · rename_i opens
          obtain ⟨tail, rfl⟩ := List.head?_eq_some_iff.mp opens
          exact ⟨tail, rfl, .blockOpening⟩
        · rename_i no_comment
          exact ⟨rest, rfl, .leftParen no_comment⟩
      rename_i no_left_paren
      split
      · rename_i right_paren
        subst right_paren
        exact ⟨rest, rfl, .rightParen⟩
      rename_i no_right_paren
      split
      · rename_i semicolon
        subst semicolon
        split
        · rename_i opens
          obtain ⟨tail, rfl⟩ := List.head?_eq_some_iff.mp opens
          exact ⟨tail, rfl, .lineOpening⟩
        · rename_i no_comment
          refine ⟨rest, rfl, .stray ?_⟩
          exact ⟨by decide, by decide, by decide, by decide, by decide, by decide,
            fun _ => no_comment⟩
      rename_i no_semicolon
      split
      · rename_i quote
        subst quote
        exact fits_ofText
      rename_i no_quote
      split
      · rename_i blank
        exact ⟨(byte :: rest).dropWhile isBlank, List.takeWhile_append_dropWhile.symm,
          .blanks (takeWhile_ne_nil blank) of_mem_takeWhile⟩
      rename_i no_blank
      split
      · rename_i newline
        subst newline
        exact ⟨rest, rfl, .newline⟩
      rename_i no_newline
      split
      · rename_i atom_byte
        refine ⟨(byte :: rest).dropWhile Atom.isAtomByte, ?_,
          .atom (takeWhile_ne_nil atom_byte) of_mem_takeWhile (not_heads_dropWhile _ _)⟩
        rw [ofAtom_taken, List.takeWhile_append_dropWhile]
      rename_i no_atom
      refine ⟨rest, rfl, .stray ?_⟩
      exact ⟨no_left_paren, no_right_paren, no_quote, no_newline, by simpa using no_blank,
        by simpa using no_atom, fun semicolon => absurd semicolon no_semicolon⟩

/-- A backslash that begins no escape, with the byte after it. -/
theorem badEscape_of_length (invalid : escapeLength (byte :: rest) = 0)
    (no_newline : byte ≠ Ascii.newline) :
    StringUnit [Ascii.backslash, byte]
      (some (.badEscape (Bytes.toText #[Ascii.backslash, byte]))) rest := by
  unfold escapeLength at invalid
  dsimp only at invalid
  split at invalid
  · cases invalid
  rename_i no_letter
  refine .badEscape no_newline (by simpa using no_letter) ?_
  rintro is_digit ⟨second, head_eq, second_digit⟩
  rw [if_pos is_digit, if_pos ((Option.any_eq_true _ _).mpr ⟨second, head_eq, second_digit⟩)]
    at invalid
  cases invalid

theorem fits_ofBackslash :
    ∃ rest, Ascii.backslash :: ahead = (ofBackslash nesting ahead).taken ++ rest ∧
      Fits nesting token .badText (ofBackslash nesting ahead) rest := by
  unfold ofBackslash
  split
  · rename_i invalid
    cases ahead with
    | nil => exact ⟨[], rfl, .unit (.lone nofun)⟩
    | cons byte rest =>
        dsimp only
        split
        · rename_i newline
          exact ⟨byte :: rest, rfl, .unit (.lone fun _ same => by cases same; exact newline)⟩
        · rename_i no_newline
          exact ⟨rest, rfl, .unit (badEscape_of_length invalid no_newline)⟩
  · rename_i valid
    refine ⟨ahead.drop (escapeLength ahead - 1), ?_, .unit (.escape (escape_of_length valid))⟩
    rw [List.cons_append, List.take_append_drop]

theorem fits_badText :
    ∃ rest, ahead = (badText nesting token ahead).taken ++ rest ∧
      Fits nesting token .badText (badText nesting token ahead) rest := by
  cases ahead with
  | nil => exact ⟨[], rfl, .textAtEnd⟩
  | cons byte rest =>
      unfold badText
      dsimp only
      split
      · rename_i quote
        subst quote
        exact ⟨rest, rfl, .textClosing⟩
      rename_i no_quote
      split
      · rename_i newline
        subst newline
        exact ⟨rest, rfl, .textAtNewline⟩
      rename_i no_newline
      split
      · rename_i backslash
        subst backslash
        exact fits_ofBackslash
      rename_i no_backslash
      split
      · rename_i plain
        exact ⟨(byte :: rest).dropWhile isPlainStringByte, List.takeWhile_append_dropWhile.symm,
          .plains (takeWhile_ne_nil plain) of_mem_takeWhile⟩
      · rename_i no_plain
        refine ⟨rest, rfl, .unit (.illegal ⟨by simpa using no_plain, no_quote, no_newline,
          no_backslash⟩)⟩

/-- The bytes up to the first that is wanted are not wanted, and that one is. -/
theorem split_before (wanted : UInt8 → Bool) (ahead : List UInt8) :
    (∀ byte ∈ before wanted ahead, wanted byte = false) ∧
      ∀ byte ∈ (fromOn wanted ahead).head?, wanted byte = true := by
  constructor
  · intro byte present
    simpa using of_mem_takeWhile byte present
  · intro byte head_eq
    have stops := List.head?_dropWhile_not (fun byte => !wanted byte) ahead
    rw [show ahead.dropWhile (fun byte => !wanted byte) = fromOn wanted ahead from rfl,
      head_eq] at stops
    simpa using stops

theorem fits_lineComment :
    ∃ rest, ahead = (lineComment nesting ahead).taken ++ rest ∧
      Fits nesting token .lineComment (lineComment nesting ahead) rest := by
  obtain ⟨before_newline, at_newline⟩ := split_before (· == Ascii.newline) ahead
  have on_line : Ascii.newline ∉ before (· == Ascii.newline) ahead := by
    intro present
    exact absurd (before_newline _ present) (by decide)
  have whole := before_append_fromOn (· == Ascii.newline) ahead
  unfold lineComment
  cases here : fromOn (· == Ascii.newline) ahead with
  | nil =>
      rw [before_of_fromOn here] at on_line
      exact ⟨[], (List.append_nil _).symm, .lineAtEnd on_line⟩
  | cons byte rest =>
      rw [here] at at_newline whole
      have newline : byte = Ascii.newline := by simpa using at_newline byte rfl
      subst newline
      exact ⟨rest, by rw [List.append_assoc]; exact whole.symm, .lineAtNewline on_line⟩

theorem fits_blockComment :
    ∃ rest, ahead = (blockComment nesting ahead).taken ++ rest ∧
      Fits nesting token .blockComment (blockComment nesting ahead) rest := by
  obtain ⟨inside, at_stop⟩ := split_before stopsBlockComment ahead
  have whole := before_append_fromOn stopsBlockComment ahead
  unfold blockComment
  cases here : fromOn stopsBlockComment ahead with
  | nil =>
      rw [before_of_fromOn here] at inside
      exact ⟨[], (List.append_nil _).symm, .blockAtEnd inside⟩
  | cons byte rest =>
      rw [here] at at_stop whole
      have stops := at_stop byte rfl
      generalize before stopsBlockComment ahead = run at inside whole ⊢
      subst whole
      dsimp only
      unfold ofStop
      split
      · rename_i newline
        subst newline
        exact ⟨rest, by simp [after], .blockAtNewline inside⟩
      rename_i no_newline
      split
      · rename_i left_paren
        subst left_paren
        split
        · rename_i opens
          obtain ⟨tail, rfl⟩ := List.head?_eq_some_iff.mp opens
          exact ⟨tail, by simp [after], .nestedOpening inside⟩
        · rename_i no_comment
          refine ⟨rest, by simp [after], .undelimiting inside no_newline ?_⟩
          rintro second head_eq (⟨-, rfl⟩ | ⟨same, -⟩)
          · exact no_comment head_eq
          · exact absurd same (by decide)
      rename_i no_left_paren
      have semicolon : byte = Ascii.semicolon := by
        unfold stopsBlockComment at stops
        simpa [no_left_paren, no_newline] using stops
      subst semicolon
      split
      · rename_i closes
        obtain ⟨tail, rfl⟩ := List.head?_eq_some_iff.mp closes
        exact ⟨tail, by simp [after], .blockClosing inside⟩
      · rename_i no_closing
        refine ⟨rest, by simp [after], .undelimiting inside no_newline ?_⟩
        rintro second head_eq (⟨same, -⟩ | ⟨-, rfl⟩)
        · exact absurd same (by decide)
        · exact no_closing head_eq

/-- Every piece has one of the shapes of its mode. -/
theorem exists_fits (mode : Mode) (nesting : Nat) (token ahead : List UInt8) :
    ∃ rest, ahead = (next mode nesting token ahead).taken ++ rest ∧
      Fits nesting token mode (next mode nesting token ahead) rest := by
  cases mode with
  | normal => exact fits_normal
  | badText => exact fits_badText
  | lineComment => exact fits_lineComment
  | blockComment => exact fits_blockComment

/-! ### What holds of all shapes -/

variable {mode : Mode} {piece : Piece}

theorem not_mem_of_all {accepts : UInt8 → Bool} {run : List UInt8}
    (all : ∀ byte ∈ run, accepts byte = true) (rejected : accepts byte = false) : byte ∉ run :=
  fun present => Bool.noConfusion ((all byte present).symm.trans rejected)

theorem newline_not_mem_escape {bytes : List UInt8} (valid : Escape bytes) :
    Ascii.newline ∉ bytes := by
  have no_letter : isEscaped Ascii.newline = false := by decide
  have no_digit : Ascii.isHexDigit Ascii.newline = false := by decide
  have no_backslash : Ascii.newline ≠ Ascii.backslash := by decide
  intro present
  cases valid with
  | letter escaped =>
      simp only [List.mem_cons, List.not_mem_nil, or_false, no_backslash, false_or] at present
      exact Bool.noConfusion ((present ▸ escaped).symm.trans no_letter)
  | hexadecimal first_digit second_digit =>
      simp only [List.mem_cons, List.not_mem_nil, or_false, no_backslash, false_or] at present
      rcases present with same | same
      · exact Bool.noConfusion ((same ▸ first_digit).symm.trans no_digit)
      · exact Bool.noConfusion ((same ▸ second_digit).symm.trans no_digit)

theorem newline_not_mem_clean {content : List UInt8} (clean : Clean content) :
    Ascii.newline ∉ content := by
  induction clean with
  | nil => exact List.not_mem_nil
  | plain plain _ induction =>
      intro present
      rcases List.mem_cons.mp present with same | later
      · exact absurd (same ▸ plain) (by decide)
      · exact induction later
  | escape valid _ induction =>
      intro present
      rcases List.mem_append.mp present with first | later
      · exact newline_not_mem_escape valid first
      · exact induction later

theorem newline_not_mem_unit {unit : List UInt8} {error : Option LexError}
    (reads : StringUnit unit error rest) : Ascii.newline ∉ unit := by
  cases reads with
  | plain plain =>
      intro present
      exact absurd ((List.mem_singleton.mp present) ▸ plain) (by decide)
  | escape valid => exact newline_not_mem_escape valid
  | badEscape no_newline =>
      intro present
      rcases List.mem_cons.mp present with same | same
      · exact absurd same (by decide)
      · exact no_newline (List.mem_singleton.mp same).symm
  | lone => decide
  | illegal illegal => simpa using illegal.no_newline.symm

theorem unit_ne_nil {unit : List UInt8} {error : Option LexError}
    (reads : StringUnit unit error rest) : unit ≠ [] := by
  cases reads with
  | escape valid => cases valid <;> exact List.cons_ne_nil _ _
  | plain | badEscape | lone | illegal => exact List.cons_ne_nil _ _

/-- A step takes something unless the input ends. -/
theorem Fits.nonempty (fits : Fits nesting token mode piece rest) (goes_on : piece.ends = false) :
    piece.taken ≠ [] := by
  cases fits with
  | atEnd | textAtEnd | lineAtEnd | blockAtEnd => cases goes_on
  | blanks nonempty | plains nonempty => exact nonempty
  | atom nonempty =>
      rw [ofAtom_taken]
      exact nonempty
  | unit reads => exact unit_ne_nil reads
  | lineAtNewline | blockAtNewline | nestedOpening | blockClosing | undelimiting =>
      exact List.append_ne_nil_of_right_ne_nil _ (List.cons_ne_nil _ _)
  | leftParen | rightParen | blockOpening | lineOpening | newline | text | textOpening | stray |
      textClosing | textAtNewline => exact List.cons_ne_nil _ _

/-- The end of the input is taken where nothing is left behind it. -/
theorem Fits.of_ends (fits : Fits nesting token mode piece rest) (ends : piece.ends = true) :
    piece.lexeme = some .eof ∧ rest = [] ∧ piece.mode ≠ .badText ∧ piece.breaksLine = false := by
  cases fits with
  | atEnd | textAtEnd | lineAtEnd | blockAtEnd => exact ⟨rfl, rfl, nofun, rfl⟩
  | atom =>
      rw [ofAtom_ends] at ends
      cases ends
  | leftParen | rightParen | blockOpening | lineOpening | blanks | newline | text | textOpening |
      stray | textClosing | textAtNewline | unit | plains | lineAtNewline | blockAtNewline |
      nestedOpening | blockClosing | undelimiting => cases ends

/-- The input ends inside of a string or a block comment, or where any lexeme may come or a line
comment goes on. -/
theorem Fits.cases_of_ends (fits : Fits nesting token mode piece rest)
    (ends : piece.ends = true) :
    (∃ error, piece.error = some error ∧ error.IsUnclosed) ∨
      piece.error = none ∧ piece.mode = mode ∧
        (mode = .normal ∧ piece.taken = [] ∨ mode = .lineComment) := by
  cases fits with
  | atEnd => exact .inr ⟨rfl, rfl, .inl ⟨rfl, rfl⟩⟩
  | textAtEnd => exact .inl ⟨_, rfl, .inl rfl⟩
  | lineAtEnd => exact .inr ⟨rfl, rfl, .inr rfl⟩
  | blockAtEnd => exact .inl ⟨_, rfl, .inr rfl⟩
  | atom =>
      rw [ofAtom_ends] at ends
      cases ends
  | leftParen | rightParen | blockOpening | lineOpening | blanks | newline | text | textOpening |
      stray | textClosing | textAtNewline | unit | plains | lineAtNewline | blockAtNewline |
      nestedOpening | blockClosing | undelimiting => cases ends

theorem Fits.goes_on_of_skips (fits : Fits nesting token mode piece rest)
    (skips : piece.lexeme = none) : piece.ends = false := by
  rw [← Bool.not_eq_true]
  intro ends
  cases skips.symm.trans (fits.of_ends ends).1

/-- A step that ends a line takes the newline last and completes nothing. -/
theorem Fits.of_breaksLine (fits : Fits nesting token mode piece rest)
    (breaks : piece.breaksLine = true) :
    piece.lexeme = none ∧ piece.mode ≠ .badText ∧ piece.ends = false ∧
      ∃ run, piece.taken = run ++ [Ascii.newline] ∧ Ascii.newline ∉ run := by
  cases fits with
  | newline | textAtNewline => exact ⟨rfl, nofun, rfl, [], rfl, List.not_mem_nil⟩
  | lineAtNewline on_line => exact ⟨rfl, nofun, rfl, _, rfl, on_line⟩
  | blockAtNewline inside =>
      refine ⟨rfl, nofun, rfl, _, rfl, fun present => ?_⟩
      exact absurd (inside _ present) (by decide)
  | atom =>
      rw [ofAtom_breaksLine] at breaks
      cases breaks
  | atEnd | leftParen | rightParen | blockOpening | lineOpening | blanks | text | textOpening |
      stray | textAtEnd | textClosing | unit | plains | lineAtEnd | blockAtEnd | nestedOpening |
      blockClosing | undelimiting => cases breaks

/-- Every other step stays on its line. -/
theorem Fits.on_line (fits : Fits nesting token mode piece rest)
    (stays : piece.breaksLine = false) : Ascii.newline ∉ piece.taken := by
  have inside_on_line {run : List UInt8} (inside : ∀ byte ∈ run, stopsBlockComment byte = false) :
      Ascii.newline ∉ run :=
    fun present => absurd (inside _ present) (by decide)
  cases fits with
  | newline | textAtNewline | lineAtNewline | blockAtNewline => cases stays
  | atEnd | textAtEnd => exact List.not_mem_nil
  | leftParen | rightParen | textClosing =>
      exact fun present => absurd (List.mem_singleton.mp present) (by decide)
  | blockOpening | lineOpening =>
      dsimp only
      decide
  | blanks _ blank => exact not_mem_of_all blank (by decide)
  | atom _ atom_bytes =>
      rw [ofAtom_taken]
      exact not_mem_of_all atom_bytes (by decide)
  | text clean =>
      have no_quote : Ascii.newline ≠ Ascii.quote := by decide
      simpa [no_quote] using newline_not_mem_clean clean
  | textOpening clean =>
      have no_quote : Ascii.newline ≠ Ascii.quote := by decide
      simpa [no_quote] using newline_not_mem_clean clean
  | stray stray => exact fun present => stray.no_newline (List.mem_singleton.mp present).symm
  | unit reads => exact newline_not_mem_unit reads
  | plains _ plain => exact not_mem_of_all plain (by decide)
  | lineAtEnd on_line => exact on_line
  | blockAtEnd inside => exact inside_on_line inside
  | nestedOpening inside | blockClosing inside =>
      intro present
      rcases List.mem_append.mp present with earlier | delimiter
      · exact inside_on_line inside earlier
      · exact absurd delimiter (by decide)
  | undelimiting inside on_line => simpa using ⟨inside_on_line inside, on_line.symm⟩

/-- A string that is not yet over goes on on its line. -/
theorem Fits.of_badText (fits : Fits nesting token mode piece rest)
    (text : piece.mode = .badText) : piece.ends = false ∧ piece.breaksLine = false := by
  constructor
  · rw [← Bool.not_eq_true]
    exact fun ends => (fits.of_ends ends).2.2.1 text
  · rw [← Bool.not_eq_true]
    exact fun breaks => (fits.of_breaksLine breaks).2.1 text

/-- Outside of block comments none is counted. -/
theorem Fits.nesting_eq (fits : Fits nesting token mode piece rest)
    (outside : mode ≠ .blockComment → nesting = 0) (left : piece.mode ≠ .blockComment) :
    piece.nesting = 0 := by
  cases fits with
  | atom =>
      rw [ofAtom_nesting]
      exact outside nofun
  | blockOpening | blockAtEnd | blockAtNewline | nestedOpening | undelimiting =>
      exact absurd rfl left
  | blockClosing =>
      by_contra inside
      exact left (if_neg inside)
  | atEnd | leftParen | rightParen | lineOpening | blanks | newline | text | textOpening | stray |
      textAtEnd | textClosing | textAtNewline | unit | plains | lineAtEnd | lineAtNewline =>
      exact outside nofun

/-- Of errors, only that of a line that ends in a string covers a newline, and only that. -/
theorem Fits.error_on_line (fits : Fits nesting token mode piece rest) {error : LexError}
    (reported : piece.error = some error) :
    Ascii.newline ∉ piece.taken ∨
      error = .newlineInString ∧ piece.taken = [Ascii.newline] := by
  cases breaks : piece.breaksLine with
  | false => exact .inl (fits.on_line breaks)
  | true =>
      cases fits with
      | textAtNewline =>
          cases reported
          exact .inr ⟨rfl, rfl⟩
      | newline | lineAtNewline | blockAtNewline => cases reported
      | atom =>
          rw [ofAtom_breaksLine] at breaks
          cases breaks
      | atEnd | leftParen | rightParen | blockOpening | lineOpening | blanks | text |
          textOpening | stray | textAtEnd | textClosing | unit | plains | lineAtEnd | blockAtEnd |
          nestedOpening | blockClosing | undelimiting => cases breaks

/-- Before the end of the input no error is fatal, and a lexeme leads back to normal mode. -/
theorem Fits.of_goesOn (fits : Fits nesting token mode piece rest)
    (goes_on : piece.ends = false) :
    (∀ error ∈ piece.error, error.isFatal = false) ∧
      (piece.lexeme.isSome = true → piece.mode = .normal) := by
  cases fits with
  | atEnd | textAtEnd | lineAtEnd | blockAtEnd => cases goes_on
  | atom =>
      refine ⟨?_, fun _ => ofAtom_mode _⟩
      unfold ofAtom
      split
      · exact nofun
      · rintro error ⟨⟩
        rfl
  | unit reads =>
      refine ⟨?_, nofun⟩
      cases reads with
      | plain | escape => exact nofun
      | badEscape | lone | illegal =>
          rintro error ⟨⟩
          rfl
  | stray | textAtNewline =>
      refine ⟨?_, nofun⟩
      rintro error ⟨⟩
      rfl
  | leftParen | rightParen | text | textClosing => exact ⟨nofun, fun _ => rfl⟩
  | blockOpening | lineOpening | blanks | newline | textOpening | plains | lineAtNewline |
      blockAtNewline | nestedOpening | blockClosing | undelimiting => exact ⟨nofun, nofun⟩

/-- A completed lexeme says what its bytes are. Only in a string do they begin before the step. -/
theorem Fits.meaning (fits : Fits nesting token mode piece rest) {lexeme : Lexeme}
    (completes : piece.lexeme = some lexeme) (goes_on : piece.ends = false)
    (fresh : mode ≠ .badText → token = []) : lexeme.Says (token ++ piece.taken) := by
  cases fits with
  | atEnd | textAtEnd | lineAtEnd | blockAtEnd => cases goes_on
  | leftParen | rightParen =>
      cases completes
      exact fun _ _ => ⟨nofun, nofun⟩
  | atom =>
      rw [ofAtom_lexeme] at completes
      rw [ofAtom_taken, fresh nofun, List.nil_append]
      exact Atom.says_atomLexeme completes
  | text =>
      cases completes
      rw [fresh nofun, List.nil_append]
      exact rfl
  | textClosing =>
      cases completes
      exact rfl
  | blockOpening | lineOpening | blanks | newline | textOpening | stray | textAtNewline | unit |
      plains | lineAtNewline | blockAtNewline | nestedOpening | blockClosing | undelimiting =>
      cases completes

/-- Only a step that ends the input completes its end. -/
theorem Fits.ends_of_eof (fits : Fits nesting token mode piece rest)
    (fresh : mode ≠ .badText → token = []) (completes : piece.lexeme = some .eof) :
    piece.ends = true := by
  rw [← Bool.not_eq_false]
  intro goes_on
  have meaning := fits.meaning completes goes_on fresh
  have empty : token ++ piece.taken = [] := meaning.2
  exact fits.nonempty goes_on (List.append_eq_nil_iff.mp empty).2

end Piece

end WasmText

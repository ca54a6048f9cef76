import WasmText.Proofs.Lexer.Tiling

/-!
# The grammar is unambiguous

Behind white space the bytes ahead spell at most one token, and nothing that may stand between
tokens begins where one is spelled. What a token's bytes spell does not depend on the bytes around
them, as long as white space parts them from these.
-/

namespace WasmText

/-- White space between lexemes. -/
def isWhite (byte : UInt8) : Bool :=
  isBlank byte || byte == Ascii.newline

variable {before bytes rest : List UInt8} {errors : List LexError} {lexeme : Lexeme}

theorem no_atom_of_isWhite {byte : UInt8} (white : isWhite byte = true) :
    Atom.isAtomByte byte = false := by
  rw [isWhite, Bool.or_eq_true, beq_iff_eq] at white
  rcases white with blank | rfl
  · exact no_atom_of_isBlank blank
  · decide

/-! ### Strings -/

/-- No byte is the letter of an escape and a digit. -/
theorem no_digit_of_isEscaped {byte : UInt8} (escaped : isEscaped byte = true) :
    Ascii.isHexDigit byte = false := by
  unfold isEscaped at escaped
  simp only [Bool.or_eq_true, beq_iff_eq] at escaped
  rcases escaped with (((rfl | rfl) | rfl) | rfl) | rfl
  all_goals decide

theorem Escape.length_eq {more : List UInt8} (valid : Escape (Ascii.backslash :: more)) :
    Piece.escapeLength (more ++ rest) = more.length + 1 := by
  cases valid with
  | letter escaped => simp [Piece.escapeLength, escaped]
  | @hexadecimal first second first_digit second_digit =>
      have no_letter : isEscaped first = false := by
        rw [← Bool.not_eq_true]
        intro escaped
        exact Bool.noConfusion (first_digit.symm.trans (no_digit_of_isEscaped escaped))
      simp [Piece.escapeLength, no_letter, first_digit, second_digit]

/-- A unit that begins with a backslash is what a step takes of the bytes. -/
theorem StringUnit.ofBackslash_eq {more : List UInt8} {error : Option LexError}
    (reads : StringUnit (Ascii.backslash :: more) error rest) :
    Piece.ofBackslash 0 (more ++ rest) =
      { taken := Ascii.backslash :: more, mode := .badText, nesting := 0, error } := by
  cases reads with
  | plain plain => exact absurd plain (by decide)
  | escape valid =>
      have length_eq : Piece.escapeLength (more ++ rest) = more.length + 1 := valid.length_eq
      unfold Piece.ofBackslash
      rw [if_neg (by omega), length_eq, Nat.add_sub_cancel, List.take_left]
  | @badEscape byte _ no_newline no_letter no_digits =>
      have invalid : Piece.escapeLength ([byte] ++ rest) = 0 := by
        have no_second : Ascii.isHexDigit byte = true →
            rest.head?.any Ascii.isHexDigit = false := by
          intro is_digit
          rw [← Bool.not_eq_true, Option.any_eq_true]
          exact no_digits is_digit
        simpa [Piece.escapeLength, no_letter] using no_second
      unfold Piece.ofBackslash
      rw [if_pos invalid]
      exact if_neg no_newline
  | lone alone =>
      cases rest with
      | nil => rfl
      | cons byte rest =>
          obtain rfl := alone byte rfl
          rfl
  | illegal illegal => exact absurd rfl illegal.no_backslash

/-- Any other unit is one byte. -/
theorem StringUnit.of_other {byte : UInt8} {more : List UInt8} {error : Option LexError}
    (reads : StringUnit (byte :: more) error rest) (other : byte ≠ Ascii.backslash) :
    more = [] ∧ error = if isPlainStringByte byte then none else some .illegalCharInString := by
  cases reads with
  | plain plain => exact ⟨rfl, (if_pos plain).symm⟩
  | escape valid =>
      cases valid
      all_goals exact absurd rfl other
  | badEscape | lone => exact absurd rfl other
  | illegal illegal =>
      refine ⟨rfl, (if_neg ?_).symm⟩
      rw [illegal.no_plain]
      exact Bool.false_ne_true

theorem StringUnit.unique {first second first_rest second_rest : List UInt8}
    {first_error second_error : Option LexError} (left : StringUnit first first_error first_rest)
    (right : StringUnit second second_error second_rest)
    (same : first ++ first_rest = second ++ second_rest) :
    first = second ∧ first_error = second_error := by
  obtain ⟨byte, first_more, rfl⟩ := List.exists_cons_of_ne_nil (Piece.unit_ne_nil left)
  obtain ⟨other, second_more, rfl⟩ := List.exists_cons_of_ne_nil (Piece.unit_ne_nil right)
  obtain ⟨rfl, more_same⟩ := List.cons.inj same
  by_cases backslash : byte = Ascii.backslash
  · subst backslash
    have piece_eq := left.ofBackslash_eq.symm.trans
      ((congrArg (Piece.ofBackslash 0) more_same).trans right.ofBackslash_eq)
    exact ⟨congrArg Piece.taken piece_eq, congrArg Piece.error piece_eq⟩
  · obtain ⟨rfl, rfl⟩ := left.of_other backslash
    obtain ⟨rfl, rfl⟩ := right.of_other backslash
    exact ⟨rfl, rfl⟩

/-- The bytes behind a string's content close it, give it up or are none. -/
def ClosesContent (rest : List UInt8) : Prop :=
  ∀ byte ∈ rest.head?, byte = Ascii.quote ∨ byte = Ascii.newline

/-- No unit begins where content is over. -/
theorem StringUnit.not_closes {unit : List UInt8} {error : Option LexError}
    (reads : StringUnit unit error rest) : ¬ ClosesContent (unit ++ rest) := by
  intro closes
  cases reads with
  | @plain byte _ plain =>
      rcases closes byte rfl with rfl | rfl
      all_goals exact absurd plain (by decide)
  | escape valid =>
      cases valid
      all_goals exact absurd (closes Ascii.backslash rfl) (by decide)
  | badEscape | lone => exact absurd (closes Ascii.backslash rfl) (by decide)
  | @illegal byte _ illegal =>
      rcases closes byte rfl with quote | newline
      · exact illegal.no_quote quote
      · exact illegal.no_newline newline

theorem StringContent.unique {first second first_rest second_rest : List UInt8}
    {first_errors second_errors : List LexError}
    (left : StringContent first first_errors first_rest)
    (right : StringContent second second_errors second_rest)
    (left_closes : ClosesContent first_rest) (right_closes : ClosesContent second_rest)
    (same : first ++ first_rest = second ++ second_rest) :
    first = second ∧ first_errors = second_errors := by
  induction left generalizing second second_errors with
  | nil =>
      cases right with
      | nil => exact ⟨rfl, rfl⟩
      | cons unit =>
          rw [List.nil_append, List.append_assoc] at same
          exact absurd (same ▸ left_closes) unit.not_closes
  | @cons unit content _ _ _ left_unit _ induction =>
      cases right with
      | nil =>
          rw [List.nil_append, List.append_assoc] at same
          exact absurd (same ▸ right_closes) left_unit.not_closes
      | cons right_unit further =>
          rw [List.append_assoc, List.append_assoc] at same
          obtain ⟨rfl, rfl⟩ := left_unit.unique right_unit same
          obtain ⟨rfl, rfl⟩ := induction further left_closes (List.append_cancel_left same)
          exact ⟨rfl, rfl⟩

/-- What a unit is depends on no more than the first of the bytes that follow it. -/
theorem StringUnit.of_head {unit other : List UInt8} {error : Option LexError}
    (reads : StringUnit unit error rest) (same : rest.head? = other.head?) :
    StringUnit unit error other := by
  cases reads with
  | plain plain => exact .plain plain
  | escape valid => exact .escape valid
  | badEscape no_newline no_letter no_digits =>
      refine .badEscape no_newline no_letter fun is_digit => ?_
      rw [Heads, ← same]
      exact no_digits is_digit
  | lone alone => exact .lone (same ▸ alone)
  | illegal illegal => exact .illegal illegal

/-- The content of a string does not depend on what follows the quote that closes it. -/
theorem StringContent.of_quote {content other : List UInt8}
    (reads : StringContent content errors (Ascii.quote :: rest)) :
    StringContent content errors (Ascii.quote :: other) := by
  generalize closed_eq : Ascii.quote :: rest = closed at reads
  induction reads with
  | nil => exact .nil
  | @cons unit content _ _ _ first _ induction =>
      refine .cons (first.of_head ?_) (induction closed_eq)
      rw [← closed_eq, List.head?_append, List.head?_append]
      rfl

/-! ### Atoms -/

/-- A run of atom bytes begins with one. -/
theorem AtomRun.exists_cons {run : List UInt8} (atom : AtomRun before run rest) :
    ∃ byte more, run = byte :: more ∧ Atom.isAtomByte byte = true := by
  obtain ⟨byte, more, rfl⟩ := List.exists_cons_of_ne_nil atom.nonempty
  exact ⟨byte, more, rfl, atom.atom_bytes byte List.mem_cons_self⟩

/-- A run of atom bytes is the longest that the bytes begin with. -/
theorem AtomRun.takeWhile_eq {run : List UInt8} (atom : AtomRun before run rest) :
    (run ++ rest).takeWhile Atom.isAtomByte = run := by
  have stops : rest.takeWhile Atom.isAtomByte = [] := by
    cases rest with
    | nil => rfl
    | cons byte rest =>
        rw [List.takeWhile_cons_of_neg]
        exact fun accepted => atom.to_end ⟨byte, rfl, accepted⟩
  rw [List.takeWhile_append_of_pos atom.atom_bytes, stops, List.append_nil]

theorem AtomRun.unique {first second first_rest second_rest : List UInt8}
    (left : AtomRun before first first_rest) (right : AtomRun before second second_rest)
    (same : first ++ first_rest = second ++ second_rest) : first = second := by
  rw [← left.takeWhile_eq, same, right.takeWhile_eq]

/-! ### Tokens -/

/-- A token may begin with the byte, with the other behind it. -/
inductive Begins : UInt8 → Option UInt8 → Prop
  | leftParen {second} (no_comment : second ≠ some Ascii.semicolon) :
      Begins Ascii.leftParen second
  | rightParen {second} : Begins Ascii.rightParen second
  | quote {second} : Begins Ascii.quote second
  | atom {byte second} (atom_byte : Atom.isAtomByte byte = true) : Begins byte second

theorem Begins.not_white {byte : UInt8} {second : Option UInt8} (begins : Begins byte second) :
    isWhite byte = false := by
  cases begins with
  | leftParen | rightParen | quote => decide
  | atom atom_byte =>
      rw [← Bool.not_eq_true]
      exact fun white => Bool.noConfusion (atom_byte.symm.trans (no_atom_of_isWhite white))

theorem Spelling.begins (spells : Spelling before bytes lexeme errors rest) :
    ∃ byte more, bytes ++ rest = byte :: more ∧ Begins byte more.head? := by
  cases spells with
  | leftParen no_comment => exact ⟨_, _, rfl, .leftParen no_comment⟩
  | rightParen => exact ⟨_, _, rfl, .rightParen⟩
  | atom atom =>
      obtain ⟨byte, more, rfl, atom_byte⟩ := atom.exists_cons
      exact ⟨byte, _, rfl, .atom atom_byte⟩
  | string => exact ⟨_, _, rfl, .quote⟩

/-- A run of atom bytes is spelled as a whole. -/
theorem Spelling.of_atomRun {run other : List UInt8}
    (spells : Spelling before bytes lexeme errors rest) (atom : AtomRun before run other)
    (same : run ++ other = bytes ++ rest) :
    run = bytes ∧ errors = [] ∧ Scan.atomLexeme? bytes.toArray = some lexeme := by
  obtain ⟨byte, more, run_eq, atom_byte⟩ := atom.exists_cons
  have first_eq {first : UInt8} {tail : List UInt8} (whole : first :: tail = bytes ++ rest) :
      Atom.isAtomByte first = true := by
    rw [← same, run_eq, List.cons_append] at whole
    rw [(List.cons.inj whole).1]
    exact atom_byte
  cases spells with
  | leftParen | rightParen | string => exact absurd (first_eq rfl) (by decide)
  | atom spelled known => exact ⟨atom.unique spelled same, rfl, known⟩

/-- A quote is spelled up to the one that closes it. -/
theorem Spelling.of_quote {more : List UInt8} (spells : Spelling before bytes lexeme errors rest)
    (same : bytes ++ rest = Ascii.quote :: more) :
    ∃ content, bytes = Ascii.quote :: (content ++ [Ascii.quote]) ∧
      lexeme = .string bytes ∧ StringContent content errors (Ascii.quote :: rest) := by
  cases spells with
  | leftParen | rightParen => exact absurd (List.cons.inj same).1 (by decide)
  | atom atom =>
      obtain ⟨byte, _, rfl, atom_byte⟩ := atom.exists_cons
      rw [(List.cons.inj same).1] at atom_byte
      exact absurd atom_byte (by decide)
  | @string content _ _ reads => exact ⟨content, rfl, rfl, reads⟩

/-- The bytes ahead spell at most one token. -/
theorem Spelling.unique {first second first_rest second_rest : List UInt8}
    {first_lexeme second_lexeme : Lexeme} {first_errors second_errors : List LexError}
    (left : Spelling before first first_lexeme first_errors first_rest)
    (right : Spelling before second second_lexeme second_errors second_rest)
    (same : first ++ first_rest = second ++ second_rest) :
    first = second ∧ first_lexeme = second_lexeme ∧ first_errors = second_errors := by
  cases left with
  | leftParen =>
      cases right with
      | leftParen => exact ⟨rfl, rfl, rfl⟩
      | rightParen | string => exact absurd (List.cons.inj same).1 (by decide)
      | atom atom =>
          obtain ⟨byte, _, rfl, atom_byte⟩ := atom.exists_cons
          rw [← (List.cons.inj same).1] at atom_byte
          exact absurd atom_byte (by decide)
  | rightParen =>
      cases right with
      | rightParen => exact ⟨rfl, rfl, rfl⟩
      | leftParen | string => exact absurd (List.cons.inj same).1 (by decide)
      | atom atom =>
          obtain ⟨byte, _, rfl, atom_byte⟩ := atom.exists_cons
          rw [← (List.cons.inj same).1] at atom_byte
          exact absurd atom_byte (by decide)
  | atom atom known =>
      obtain ⟨rfl, rfl, also_known⟩ := right.of_atomRun atom same
      exact ⟨rfl, Option.some.inj (known.symm.trans also_known), rfl⟩
  | string reads =>
      obtain ⟨content, rfl, rfl, also_reads⟩ := right.of_quote same.symm
      have content_same := (List.cons.inj same).2
      simp only [List.append_eq, List.append_assoc] at content_same
      have closes {rest : List UInt8} : ClosesContent (Ascii.quote :: rest) :=
        fun _ head_eq => .inl (Option.some.inj head_eq).symm
      obtain ⟨rfl, rfl⟩ := reads.unique also_reads closes closes content_same
      exact ⟨rfl, rfl, rfl⟩

/-! ### Gaps -/

/-- White space stands alone between tokens. -/
theorem Filler.of_white {filler ahead : List UInt8} {byte : UInt8}
    (fills : Filler before filler errors rest) (same : filler ++ rest = byte :: ahead)
    (white : isWhite byte = true) : filler = [byte] ∧ errors = [] := by
  have first_white {first : UInt8} {tail : List UInt8} (whole : first :: tail = byte :: ahead) :
      isWhite first = true := by
    rw [(List.cons.inj whole).1]
    exact white
  cases fills with
  | trivia trivia =>
      cases trivia with
      | blank | newline => exact ⟨by rw [(List.cons.inj same).1], rfl⟩
      | lineComment | lastComment => exact absurd (first_white same) (by decide)
      | blockComment comment =>
          cases comment
          exact absurd (first_white same) (by decide)
  | stray stray =>
      have white := first_white same
      rw [isWhite, stray.no_blank, Bool.false_or, beq_iff_eq] at white
      exact absurd white stray.no_newline
  | unknownAtom atom =>
      obtain ⟨first, _, rfl, atom_byte⟩ := atom.exists_cons
      exact Bool.noConfusion (atom_byte.symm.trans (no_atom_of_isWhite (first_white same)))
  | brokenString | lastString | unclosedComment => exact absurd (first_white same) (by decide)

/-- A byte that begins a token begins no comment, and it is not a stray one. -/
theorem Begins.no_comment {byte : UInt8} {second : Option UInt8} (begins : Begins byte second) :
    byte ≠ Ascii.semicolon ∧ (byte = Ascii.leftParen → second ≠ some Ascii.semicolon) := by
  cases begins with
  | leftParen no_comment => exact ⟨by decide, fun _ => no_comment⟩
  | rightParen | quote => exact ⟨by decide, fun same => absurd same (by decide)⟩
  | atom atom_byte =>
      constructor
      · rintro rfl
        exact absurd atom_byte (by decide)
      · rintro rfl
        exact absurd atom_byte (by decide)

theorem Begins.no_stray {byte : UInt8} {second : Option UInt8} (begins : Begins byte second) :
    ¬ Stray byte rest := by
  intro stray
  cases begins with
  | leftParen => exact stray.no_left_paren rfl
  | rightParen => exact stray.no_right_paren rfl
  | quote => exact stray.no_quote rfl
  | atom atom_byte => exact Bool.noConfusion (atom_byte.symm.trans stray.no_atom)

/-- What stands between tokens and yet begins like one is an atom without a meaning or a string that
is not closed. -/
theorem Filler.of_begins {filler more : List UInt8} {byte : UInt8}
    (fills : Filler before filler errors rest) (same : filler ++ rest = byte :: more)
    (begins : Begins byte more.head?) :
    (AtomRun before filler rest ∧ Scan.atomLexeme? filler.toArray = none) ∨
      byte = Ascii.quote ∧ ∃ content errors further, more = content ++ further ∧
        StringContent content errors further ∧ ∀ byte ∈ further.head?, byte = Ascii.newline := by
  have first_white {first : UInt8} (white : isWhite first = true) (head_eq : first = byte) :
      False := by
    subst head_eq
    exact Bool.noConfusion (white.symm.trans begins.not_white)
  obtain ⟨no_line_comment, no_block_comment⟩ := begins.no_comment
  cases fills with
  | trivia trivia =>
      cases trivia with
      | blank blank =>
          exact absurd (List.cons.inj same).1 (first_white (by rw [isWhite, blank, Bool.true_or]))
      | newline => exact absurd (List.cons.inj same).1 (first_white (by decide))
      | lineComment | lastComment => exact absurd (List.cons.inj same).1.symm no_line_comment
      | blockComment comment =>
          cases comment
          obtain ⟨rfl, rfl⟩ := List.cons.inj same
          exact absurd rfl (no_block_comment rfl)
  | stray stray =>
      obtain ⟨rfl, rfl⟩ := List.cons.inj same
      exact absurd stray begins.no_stray
  | unknownAtom atom unknown => exact .inl ⟨atom, unknown⟩
  | @brokenString content errors _ reads =>
      obtain ⟨rfl, rfl⟩ := List.cons.inj same
      refine .inr ⟨rfl, content, errors, _, ?_, reads, ?_⟩
      · exact (List.append_assoc content [Ascii.newline] rest)
      · exact fun _ head_eq => (Option.some.inj head_eq).symm
  | @lastString content errors reads =>
      obtain ⟨rfl, rfl⟩ := List.cons.inj same
      exact .inr ⟨rfl, content, errors, [], rfl, reads, nofun⟩
  | unclosedComment =>
      obtain ⟨rfl, rfl⟩ := List.cons.inj same
      exact absurd rfl (no_block_comment rfl)

/-- Nothing that stands between tokens begins where a token is spelled. -/
theorem Spelling.not_filler {filler ahead : List UInt8} {more : List LexError}
    (spells : Spelling before bytes lexeme errors rest) (fills : Filler before filler more ahead)
    (same : filler ++ ahead = bytes ++ rest) : False := by
  obtain ⟨byte, further, whole, begins⟩ := spells.begins
  rcases fills.of_begins (same.trans whole) begins with
    ⟨atom, unknown⟩ | ⟨rfl, content, _, after, further_eq, reads, at_newline⟩
  · obtain ⟨rfl, -, known⟩ := spells.of_atomRun atom same
    cases unknown.symm.trans known
  · obtain ⟨closed, rfl, -, closed_reads⟩ := spells.of_quote whole
    have content_same := (List.cons.inj whole).2
    simp only [List.append_eq, List.append_assoc] at content_same
    have closes : ClosesContent (Ascii.quote :: rest) :=
      fun _ head_eq => .inl (Option.some.inj head_eq).symm
    have gives_up : ClosesContent after := fun byte head_eq => .inr (at_newline byte head_eq)
    have same := content_same.trans further_eq
    obtain ⟨rfl, -⟩ := closed_reads.unique reads closes gives_up same
    rw [← List.append_cancel_left same] at at_newline
    exact absurd (at_newline Ascii.quote rfl) (by decide)

/-! ### Whole stretches -/

/-- A gap that begins with white space goes on behind it. -/
theorem Gap.of_white {gap ahead : List UInt8} {byte : UInt8} (fills : Gap before gap errors rest)
    (same : gap ++ rest = byte :: ahead) (white : isWhite byte = true) :
    gap = [] ∨ ∃ more, gap = byte :: more ∧ Gap (before ++ [byte]) more errors rest := by
  cases fills with
  | nil => exact .inl rfl
  | cons first further =>
      rw [List.append_assoc] at same
      obtain ⟨rfl, rfl⟩ := first.of_white same white
      exact .inr ⟨_, rfl, further⟩

/-- Between a token and what stands before it there is nothing. -/
theorem Gap.of_spelling {gap ahead : List UInt8} {more : List LexError}
    (fills : Gap before gap more ahead) (spells : Spelling before bytes lexeme errors rest)
    (same : gap ++ ahead = bytes ++ rest) : gap = [] ∧ more = [] := by
  cases fills with
  | nil => exact ⟨rfl, rfl⟩
  | cons first =>
      rw [List.append_assoc] at same
      exact (spells.not_filler first same).elim

variable {pending left : List UInt8} {found : Lexeme} {more : List LexError}

/-- A call passes white space. -/
theorem Stretch.of_white {ahead : List UInt8} {byte : UInt8} (white : isWhite byte = true)
    (stretch : Stretch before (byte :: ahead) errors lexeme bytes rest) :
    Stretch (before ++ [byte]) ahead errors lexeme bytes rest := by
  rcases stretch.cases with
    ⟨rfl, rfl, rfl, fills⟩ | ⟨gap, gap_errors, own_errors, ahead_eq, rfl, fills, spells⟩
  · rcases fills.of_white (List.append_nil _) white with empty | ⟨tail, same, further⟩
    · cases empty
    · cases same
      exact .ended further
  · rcases fills.of_white ahead_eq.symm white with rfl | ⟨tail, rfl, further⟩
    · obtain ⟨first, tail, whole, begins⟩ := spells.begins
      obtain ⟨rfl, -⟩ := List.cons.inj (ahead_eq.trans whole)
      exact Bool.noConfusion (white.symm.trans begins.not_white)
    · obtain ⟨-, rfl⟩ := List.cons.inj ahead_eq
      rw [List.append_cons] at spells
      exact .token further spells

theorem Stretch.of_space {space ahead : List UInt8} (white : ∀ byte ∈ space, isWhite byte = true)
    (stretch : Stretch before (space ++ ahead) errors lexeme bytes rest) :
    Stretch (before ++ space) ahead errors lexeme bytes rest := by
  induction space generalizing before with
  | nil =>
      rw [List.append_nil]
      exact stretch
  | cons byte space induction =>
      obtain ⟨first_white, others_white⟩ := List.forall_mem_cons.mp white
      rw [List.append_cons]
      exact induction others_white (stretch.of_white first_white)

/-- Where a token is spelled a call comes to it, and finds no other errors than those of it. -/
theorem Stretch.of_spelling (spells : Spelling before bytes lexeme errors rest)
    (stretch : Stretch before (bytes ++ rest) more found pending left) :
    more = errors ∧ found = lexeme ∧ pending = bytes ∧ left = rest := by
  rcases stretch.cases with
    ⟨rfl, rfl, rfl, fills⟩ | ⟨gap, gap_errors, own_errors, ahead_eq, rfl, fills, also_spells⟩
  · obtain ⟨empty, -⟩ := fills.of_spelling spells (List.append_nil _)
    exact absurd (List.append_eq_nil_iff.mp empty).1 spells.nonempty
  · obtain ⟨rfl, rfl⟩ := fills.of_spelling spells ahead_eq.symm
    rw [List.append_nil] at also_spells
    obtain ⟨rfl, rfl, rfl⟩ := also_spells.unique spells ahead_eq.symm
    exact ⟨rfl, rfl, rfl, (List.append_cancel_left ahead_eq).symm⟩

theorem Filler.ne_nil {filler : List UInt8} (fills : Filler before filler errors rest) :
    filler ≠ [] := by
  cases fills with
  | trivia trivia =>
      cases trivia with
      | blockComment comment =>
          cases comment
          exact List.cons_ne_nil _ _
      | blank | newline | lineComment | lastComment => exact List.cons_ne_nil _ _
  | unknownAtom atom => exact atom.nonempty
  | stray | brokenString | lastString | unclosedComment => exact List.cons_ne_nil _ _

theorem Gap.silent_of_nil {gap : List UInt8} (fills : Gap before gap errors rest)
    (empty : gap = []) : errors = [] := by
  cases fills with
  | nil => rfl
  | cons first => exact absurd (List.append_eq_nil_iff.mp empty).1 first.ne_nil

/-- Where nothing is left a call finds the end of the input and no errors. -/
theorem Stretch.of_nil (stretch : Stretch before [] errors lexeme bytes rest) :
    errors = [] ∧ lexeme = .eof := by
  rcases stretch.cases with ⟨rfl, -, -, fills⟩ | ⟨gap, _, _, ahead_eq, -, -, spells⟩
  · exact ⟨fills.silent_of_nil rfl, rfl⟩
  · have empty := (List.append_eq_nil_iff.mp ahead_eq.symm).2
    exact absurd (List.append_eq_nil_iff.mp empty).1 spells.nonempty

/-! ### Other surroundings -/

/-- What a token's bytes spell is the same between any bytes that are parted from them by white
space. -/
theorem Spelling.between {first last : List UInt8}
    (spells : Spelling before bytes lexeme errors rest)
    (parted_before : ¬ Tails Atom.isAtomByte first)
    (parted_behind : ∀ byte ∈ last.head?, isWhite byte = true) :
    Spelling first bytes lexeme errors last := by
  cases spells with
  | leftParen =>
      refine .leftParen fun semicolon => ?_
      exact absurd (parted_behind _ semicolon) (by decide)
  | rightParen => exact .rightParen
  | atom atom known =>
      refine .atom ⟨atom.nonempty, atom.atom_bytes, parted_before, ?_⟩ known
      rintro ⟨byte, head_eq, atom_byte⟩
      have no_atom := no_atom_of_isWhite (parted_behind byte head_eq)
      exact Bool.noConfusion (atom_byte.symm.trans no_atom)
  | string reads => exact .string reads.of_quote

end WasmText

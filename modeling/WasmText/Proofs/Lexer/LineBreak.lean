import WasmText.Proofs.Lexer.Fit

/-!
# Pieces before a line break

No step looks beyond the end of a line, since a newline ends every run of bytes that a step takes
and completes no delimiter or escape. So a piece is the same whether its line is the last or not,
and a step that comes to the end of the input takes the newline instead if there is one.
-/

namespace WasmText

/-- The bytes begin with a newline, if there are any. -/
def LineBreak (bytes : List UInt8) : Prop :=
  ∀ byte ∈ bytes.head?, byte = Ascii.newline

namespace Piece

variable {bytes tail rest ahead : List UInt8} {accepts : UInt8 → Bool}

theorem lineBreak_cons (tail : List UInt8) : LineBreak (Ascii.newline :: tail) :=
  fun _ head_eq => (Option.some.inj head_eq).symm

/-- A run of bytes among which there is no newline ends with its line. -/
theorem takeWhile_append_break (bytes : List UInt8) (breaks : LineBreak tail)
    (rejected : accepts Ascii.newline = false) :
    (bytes ++ tail).takeWhile accepts = bytes.takeWhile accepts := by
  have none_taken : tail.takeWhile accepts = [] := by
    cases tail with
    | nil => rfl
    | cons byte tail =>
        rw [breaks byte rfl, List.takeWhile_cons_of_neg]
        rw [rejected]
        exact Bool.false_ne_true
  rw [List.takeWhile_append, none_taken, List.append_nil]
  split
  · rename_i all_taken
    exact ((List.takeWhile_prefix accepts).eq_of_length all_taken).symm
  · rfl

theorem head?_append_break (breaks : LineBreak tail) {byte : UInt8}
    (other : byte ≠ Ascii.newline) :
    (bytes ++ tail).head? = some byte ↔ bytes.head? = some byte := by
  cases bytes with
  | cons => exact Iff.rfl
  | nil => exact ⟨fun head_eq => absurd (breaks byte head_eq) other, nofun⟩

theorem any_head?_append_break (breaks : LineBreak tail)
    (rejected : accepts Ascii.newline = false) :
    (bytes ++ tail).head?.any accepts = bytes.head?.any accepts := by
  cases bytes with
  | cons => rfl
  | nil =>
      cases tail with
      | nil => rfl
      | cons byte tail =>
          rw [breaks byte rfl]
          exact rejected

/-! ### Strings -/

theorem escapeLength_append_break (breaks : LineBreak tail) :
    escapeLength (rest ++ tail) = escapeLength rest := by
  cases rest with
  | nil =>
      cases tail with
      | nil => rfl
      | cons byte tail =>
          rw [breaks byte rfl]
          rfl
  | cons first rest =>
      have no_digit : Ascii.isHexDigit Ascii.newline = false := by decide
      simp only [List.cons_append, escapeLength, any_head?_append_break breaks no_digit]

theorem validContent_append_break (breaks : LineBreak tail) :
    validContent (ahead ++ tail) = validContent ahead := by
  fun_induction validContent ahead with
  | case1 =>
      cases tail with
      | nil => rw [List.nil_append, validContent]
      | cons byte tail =>
          rw [breaks byte rfl]
          exact validContent_stop (by decide) fun same => absurd same (by decide)
  | case2 byte rest plain induction =>
      rw [List.cons_append, validContent, if_pos plain, induction]
  | case3 byte rest special escape induction =>
      have bounds := escapeLength_cases rest
      have inside : escapeLength rest - 1 ≤ rest.length := by omega
      rw [List.cons_append, validContent, if_neg special, escapeLength_append_break breaks,
        if_pos escape, List.take_append_of_le_length inside, List.drop_append_of_le_length inside,
        induction]
  | case4 byte rest special no_escape =>
      rw [List.cons_append, validContent, if_neg special, escapeLength_append_break breaks,
        if_neg no_escape]

theorem ofText_append_break (nesting : Nat) (breaks : LineBreak tail) :
    ofText nesting (rest ++ tail) = ofText nesting rest := by
  have no_quote : Ascii.quote ≠ Ascii.newline := by decide
  have begins := validContent_prefix rest
  have inside : (validContent rest).length ≤ rest.length := begins.length_le
  simp only [ofText, ofContent, validContent_append_break breaks,
    List.drop_append_of_le_length inside, head?_append_break breaks no_quote]

theorem ofBackslash_append_break (nesting : Nat) (breaks : LineBreak tail) :
    ofBackslash nesting (rest ++ tail) = ofBackslash nesting rest := by
  unfold ofBackslash
  rw [escapeLength_append_break breaks]
  by_cases invalid : escapeLength rest = 0
  · rw [if_pos invalid, if_pos invalid]
    cases rest with
    | cons => rfl
    | nil =>
        cases tail with
        | nil => rfl
        | cons byte tail =>
            rw [breaks byte rfl]
            rfl
  · have bounds := escapeLength_cases rest
    have inside : escapeLength rest - 1 ≤ rest.length := by omega
    rw [if_neg invalid, if_neg invalid, List.take_append_of_le_length inside]

/-! ### Steps -/

/-- What a step in normal mode takes is on the line, or is its end. -/
theorem normal_append_break (nesting : Nat) (breaks : LineBreak tail) (nonempty : ahead ≠ []) :
    normal nesting (ahead ++ tail) = normal nesting ahead := by
  obtain ⟨byte, rest, rfl⟩ := List.exists_cons_of_ne_nil nonempty
  have no_blank : isBlank Ascii.newline = false := by decide
  have no_atom : Atom.isAtomByte Ascii.newline = false := by decide
  have no_semicolon : Ascii.semicolon ≠ Ascii.newline := by decide
  have blanks_eq := takeWhile_append_break (byte :: rest) breaks no_blank
  have atoms_eq := takeWhile_append_break (byte :: rest) breaks no_atom
  rw [List.cons_append] at blanks_eq atoms_eq
  simp only [List.cons_append, normal, head?_append_break breaks no_semicolon,
    ofText_append_break nesting breaks, blanks_eq, atoms_eq]

theorem badText_append_break (nesting : Nat) (token : List UInt8) (breaks : LineBreak tail)
    (nonempty : ahead ≠ []) :
    badText nesting token (ahead ++ tail) = badText nesting token ahead := by
  obtain ⟨byte, rest, rfl⟩ := List.exists_cons_of_ne_nil nonempty
  have no_plain : isPlainStringByte Ascii.newline = false := by decide
  have plains_eq := takeWhile_append_break (byte :: rest) breaks no_plain
  rw [List.cons_append] at plains_eq
  simp only [List.cons_append, badText, ofBackslash_append_break nesting breaks, plains_eq]

theorem fromOn_append {wanted : UInt8 → Bool} (found : fromOn wanted ahead ≠ [])
    (tail : List UInt8) :
    fromOn wanted (ahead ++ tail) = fromOn wanted ahead ++ tail ∧
      before wanted (ahead ++ tail) = before wanted ahead := by
  have shorter : (ahead.takeWhile fun byte => !wanted byte).length ≠ ahead.length := by
    intro same
    have before_length : (before wanted ahead).length = ahead.length := same
    have whole : (before wanted ahead).length + (fromOn wanted ahead).length = ahead.length := by
      rw [← List.length_append, before_append_fromOn]
    exact found (List.length_eq_zero_iff.mp (by omega))
  constructor
  · rw [fromOn, List.dropWhile_append, if_neg (by simpa [fromOn] using found)]
    rfl
  · rw [before, List.takeWhile_append, if_neg shorter]
    rfl

theorem lineComment_append (nesting : Nat) (found : fromOn (· == Ascii.newline) ahead ≠ []) :
    lineComment nesting (ahead ++ tail) = lineComment nesting ahead := by
  obtain ⟨from_eq, before_eq⟩ := fromOn_append found tail
  obtain ⟨byte, rest, found_eq⟩ := List.exists_cons_of_ne_nil found
  rw [lineComment, lineComment, from_eq, before_eq, found_eq]
  rfl

theorem blockComment_append_break (nesting : Nat) (breaks : LineBreak tail)
    (found : fromOn stopsBlockComment ahead ≠ []) :
    blockComment nesting (ahead ++ tail) = blockComment nesting ahead := by
  have no_semicolon : Ascii.semicolon ≠ Ascii.newline := by decide
  have no_right_paren : Ascii.rightParen ≠ Ascii.newline := by decide
  obtain ⟨from_eq, before_eq⟩ := fromOn_append found tail
  obtain ⟨byte, rest, found_eq⟩ := List.exists_cons_of_ne_nil found
  rw [blockComment, blockComment, from_eq, before_eq, found_eq]
  simp only [List.cons_append, ofStop, head?_append_break breaks no_semicolon,
    head?_append_break breaks no_right_paren]

/-- A step that does not come to the end of the input does not look beyond the end of a line. -/
theorem next_append_break {mode : Mode} {nesting : Nat} {token : List UInt8}
    (breaks : LineBreak tail) (goes_on : (next mode nesting token ahead).ends = false) :
    next mode nesting token (ahead ++ tail) = next mode nesting token ahead := by
  cases mode with
  | normal =>
      refine normal_append_break nesting breaks ?_
      rintro rfl
      cases goes_on
  | badText =>
      refine badText_append_break nesting token breaks ?_
      rintro rfl
      cases goes_on
  | lineComment =>
      refine lineComment_append nesting fun none_found => ?_
      change (lineComment nesting ahead).ends = false at goes_on
      rw [lineComment, none_found] at goes_on
      cases goes_on
  | blockComment =>
      refine blockComment_append_break nesting breaks fun none_found => ?_
      change (blockComment nesting ahead).ends = false at goes_on
      rw [blockComment, none_found] at goes_on
      cases goes_on

/-- A step that comes to the end of the input without an error goes on to the next line instead, if
there is one. -/
theorem next_append_newline {mode : Mode} {nesting : Nat} {token : List UInt8}
    (ends : (next mode nesting token ahead).ends = true)
    (silent : (next mode nesting token ahead).error = none) :
    next mode nesting token (ahead ++ Ascii.newline :: tail) =
      { taken := ahead ++ [Ascii.newline], mode := .normal, nesting, breaksLine := true } := by
  obtain ⟨rest, ahead_eq, fits⟩ := exists_fits mode nesting token ahead
  obtain ⟨-, rest_eq, -⟩ := fits.of_ends ends
  rw [rest_eq, List.append_nil] at ahead_eq
  rcases fits.cases_of_ends ends with
    ⟨error, reported, -⟩ | ⟨-, -, ⟨rfl, taken_eq⟩ | rfl⟩
  · cases silent.symm.trans reported
  · rw [taken_eq] at ahead_eq
    subst ahead_eq
    rfl
  · have on_line : fromOn (· == Ascii.newline) ahead = [] := by
      by_contra found
      obtain ⟨byte, further, found_eq⟩ := List.exists_cons_of_ne_nil found
      change (lineComment nesting ahead).ends = true at ends
      rw [lineComment, found_eq] at ends
      cases ends
    have none_wanted : ∀ byte ∈ ahead, (!(byte == Ascii.newline)) = true := by
      intro byte present
      rw [← before_of_fromOn on_line] at present
      rw [(split_before (· == Ascii.newline) ahead).1 byte present]
      rfl
    change lineComment nesting (ahead ++ Ascii.newline :: tail) = _
    rw [lineComment, fromOn, before, List.dropWhile_append_of_pos none_wanted,
      List.takeWhile_append_of_pos none_wanted]
    simp

end Piece

end WasmText

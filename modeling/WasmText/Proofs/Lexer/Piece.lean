import WasmText.Lexer.Lexeme
import WasmText.Proofs.Tape.Cursor

/-!
# Pieces

What a step of the scanner takes depends on nothing but the mode, the bytes ahead and, for the text
of a string, the bytes of the token before them. A `Piece` says what is taken and what comes of it,
for each mode as a function of a list of bytes.
-/

namespace WasmText

/-- What a step takes, and what comes of it. -/
structure Piece where
  /-- The bytes taken. -/
  taken : List UInt8
  /-- The mode to go on in. -/
  mode : Mode
  /-- The number of block comments around what follows. -/
  nesting : Nat
  /-- The error reported. -/
  error : Option LexError := none
  /-- Whether a line begins behind the bytes taken. -/
  breaksLine : Bool := false
  /-- The lexeme completed. -/
  lexeme : Option Lexeme := none
  /-- Whether that is the end of the input. -/
  ends : Bool := false

/-- The end of the input. -/
def Lexeme.eof : Lexeme :=
  ⟨.eof, .none⟩

/-- A string with its quotes. -/
def Lexeme.string (bytes : List UInt8) : Lexeme :=
  ⟨.text, .text bytes.toArray⟩

namespace Piece

/-- The length of the valid escape that a backslash makes with the bytes after it, or zero. -/
def escapeLength : List UInt8 → Nat
  | [] => 0
  | first :: rest =>
    if isEscaped first then
      2
    else if Ascii.isHexDigit first then
      if rest.head?.any Ascii.isHexDigit then 3 else 0
    else
      0

/-- The valid content of a string up to its closing quote or the first invalid byte. -/
def validContent : List UInt8 → List UInt8
  | [] => []
  | byte :: rest =>
    if isPlainStringByte byte then
      byte :: validContent rest
    else if byte = Ascii.backslash && escapeLength rest != 0 then
      byte :: rest.take (escapeLength rest - 1) ++ validContent (rest.drop (escapeLength rest - 1))
    else
      []
termination_by bytes => bytes.length
decreasing_by
  · exact Nat.lt_succ_self _
  · rw [List.length_drop, List.length_cons]
    omega

/-- The bytes up to the first that satisfies a predicate. -/
def before (wanted : UInt8 → Bool) (ahead : List UInt8) : List UInt8 :=
  ahead.takeWhile fun byte => !wanted byte

/-- The first byte that satisfies a predicate and the bytes after it. -/
def fromOn (wanted : UInt8 → Bool) (ahead : List UInt8) : List UInt8 :=
  ahead.dropWhile fun byte => !wanted byte

theorem before_append_fromOn (wanted : UInt8 → Bool) (ahead : List UInt8) :
    before wanted ahead ++ fromOn wanted ahead = ahead :=
  List.takeWhile_append_dropWhile

theorem before_of_fromOn {wanted : UInt8 → Bool} {ahead : List UInt8}
    (none_wanted : fromOn wanted ahead = []) : before wanted ahead = ahead := by
  rw [← List.append_nil (before wanted ahead), ← none_wanted, before_append_fromOn]

/-- A run of atom bytes. -/
def ofAtom (nesting : Nat) (bytes : List UInt8) : Piece :=
  match Scan.atomLexeme? bytes.toArray with
  | some lexeme => { taken := bytes, mode := .normal, nesting, lexeme := some lexeme }
  | none =>
    { taken := bytes, mode := .normal, nesting
      error := some (.unexpectedToken (Bytes.toText bytes.toArray)) }

/-- A string from behind the given bytes of it on, as far as it is valid. -/
def ofContent (nesting : Nat) (token ahead : List UInt8) : Piece :=
  let content := validContent ahead
  if (ahead.drop content.length).head? = some Ascii.quote then
    { taken := content ++ [Ascii.quote], mode := .normal, nesting
      lexeme := some (.string (token ++ content ++ [Ascii.quote])) }
  else
    { taken := content, mode := .badText, nesting }

/-- A piece with further bytes in front of it. -/
def after (run : List UInt8) (piece : Piece) : Piece :=
  { piece with taken := run ++ piece.taken }

/-- A string from its opening quote on. -/
def ofText (nesting : Nat) (rest : List UInt8) : Piece :=
  (ofContent nesting [Ascii.quote] rest).after [Ascii.quote]

/-- A byte that no lexeme begins with. -/
def unexpectedChar (nesting : Nat) (byte : UInt8) : Piece :=
  { taken := [byte], mode := .normal, nesting, error := some .unexpectedChar }

/-- A lexeme of one byte. -/
def single (nesting : Nat) (byte : UInt8) (kind : TokenKind) : Piece :=
  { taken := [byte], mode := .normal, nesting, lexeme := some ⟨kind, .none⟩ }

/-- The piece of a step in normal mode. -/
def normal (nesting : Nat) : List UInt8 → Piece
  | [] => { taken := [], mode := .normal, nesting, lexeme := some .eof, ends := true }
  | byte :: rest =>
    if byte = Ascii.leftParen then
      if rest.head? = some Ascii.semicolon then
        { taken := [byte, Ascii.semicolon], mode := .blockComment, nesting := 1 }
      else
        single nesting byte .lpar
    else if byte = Ascii.rightParen then
      single nesting byte .rpar
    else if byte = Ascii.semicolon then
      if rest.head? = some Ascii.semicolon then
        { taken := [byte, Ascii.semicolon], mode := .lineComment, nesting }
      else
        unexpectedChar nesting byte
    else if byte = Ascii.quote then
      ofText nesting rest
    else if isBlank byte then
      { taken := (byte :: rest).takeWhile isBlank, mode := .normal, nesting }
    else if byte = Ascii.newline then
      { taken := [byte], mode := .normal, nesting, breaksLine := true }
    else if Atom.isAtomByte byte then
      ofAtom nesting ((byte :: rest).takeWhile Atom.isAtomByte)
    else
      unexpectedChar nesting byte

/-- A backslash in a bad text. -/
def ofBackslash (nesting : Nat) (rest : List UInt8) : Piece :=
  if escapeLength rest = 0 then
    match rest with
    | [] => lone
    | byte :: _ =>
      if byte = Ascii.newline then
        lone
      else
        let bytes := [Ascii.backslash, byte]
        { taken := bytes, mode := .badText, nesting
          error := some (.badEscape (Bytes.toText bytes.toArray)) }
  else
    { taken := Ascii.backslash :: rest.take (escapeLength rest - 1), mode := .badText, nesting }
where
  /-- A backslash that has nothing after it on its line. -/
  lone : Piece :=
    { taken := [Ascii.backslash], mode := .badText, nesting, error := some .illegalCharInString }

/-- The piece of a step in a bad text, after the given bytes of it. -/
def badText (nesting : Nat) (token : List UInt8) : List UInt8 → Piece
  | [] =>
    { taken := [], mode := .normal, nesting, error := some .unexpectedEofInString
      lexeme := some .eof, ends := true }
  | byte :: rest =>
    if byte = Ascii.quote then
      { taken := [byte], mode := .normal, nesting, lexeme := some (.string (token ++ [byte])) }
    else if byte = Ascii.newline then
      { taken := [byte], mode := .normal, nesting, error := some .newlineInString
        breaksLine := true }
    else if byte = Ascii.backslash then
      ofBackslash nesting rest
    else if isPlainStringByte byte then
      { taken := (byte :: rest).takeWhile isPlainStringByte, mode := .badText, nesting }
    else
      { taken := [byte], mode := .badText, nesting, error := some .illegalCharInString }

/-- The piece of a step in a line comment. -/
def lineComment (nesting : Nat) (ahead : List UInt8) : Piece :=
  match fromOn (· == Ascii.newline) ahead with
  | [] => { taken := ahead, mode := .lineComment, nesting, lexeme := some .eof, ends := true }
  | byte :: _ =>
    { taken := before (· == Ascii.newline) ahead ++ [byte], mode := .normal, nesting
      breaksLine := true }

/-- What is taken in a block comment from a byte on at which a step stops. -/
def ofStop (nesting : Nat) (byte : UInt8) (rest : List UInt8) : Piece :=
  if byte = Ascii.newline then
    { taken := [byte], mode := .blockComment, nesting, breaksLine := true }
  else if byte = Ascii.leftParen then
    if rest.head? = some Ascii.semicolon then
      { taken := [byte, Ascii.semicolon], mode := .blockComment, nesting := nesting + 1 }
    else
      { taken := [byte], mode := .blockComment, nesting }
  else if rest.head? = some Ascii.rightParen then
    { taken := [byte, Ascii.rightParen], mode := if nesting - 1 = 0 then .normal else .blockComment
      nesting := nesting - 1 }
  else
    { taken := [byte], mode := .blockComment, nesting }

/-- The piece of a step in a block comment. -/
def blockComment (nesting : Nat) (ahead : List UInt8) : Piece :=
  match fromOn stopsBlockComment ahead with
  | [] =>
    { taken := ahead, mode := .blockComment, nesting, error := some .unterminatedBlockComment
      lexeme := some .eof, ends := true }
  | byte :: rest => (ofStop nesting byte rest).after (before stopsBlockComment ahead)

/-- The piece of a step, after the given bytes of the token. -/
def next (mode : Mode) (nesting : Nat) (token ahead : List UInt8) : Piece :=
  match mode with
  | .normal => normal nesting ahead
  | .badText => badText nesting token ahead
  | .lineComment => lineComment nesting ahead
  | .blockComment => blockComment nesting ahead

/-! ### Strings -/

theorem escapeLength_cases (rest : List UInt8) :
    escapeLength rest = 0 ∨ 2 ≤ escapeLength rest ∧ escapeLength rest ≤ rest.length + 1 := by
  unfold escapeLength
  split
  · exact .inl rfl
  · rename_i first rest
    rw [List.length_cons]
    split
    · exact .inr (by omega)
    split
    · split
      · rename_i second
        obtain ⟨byte, head_eq, -⟩ := (Option.any_eq_true _ _).mp second
        obtain ⟨tail, rfl⟩ := List.head?_eq_some_iff.mp head_eq
        rw [List.length_cons]
        exact .inr (by omega)
      · exact .inl rfl
    · exact .inl rfl

theorem length_escape {rest : List UInt8} (valid : escapeLength rest ≠ 0) :
    (Ascii.backslash :: rest.take (escapeLength rest - 1)).length = escapeLength rest := by
  have bounds := escapeLength_cases rest
  rw [List.length_cons, List.length_take]
  omega

theorem validContent_run (ahead : List UInt8) :
    validContent ahead = ahead.takeWhile isPlainStringByte ++
      validContent (ahead.dropWhile isPlainStringByte) := by
  induction ahead with
  | nil => rw [List.takeWhile_nil, List.dropWhile_nil, List.nil_append]
  | cons byte rest induction =>
      rw [List.takeWhile_cons, List.dropWhile_cons]
      split
      · rename_i plain
        rw [validContent, if_pos plain, induction]
        rfl
      · rfl

theorem validContent_escape {rest : List UInt8} (valid : escapeLength rest ≠ 0) :
    validContent (Ascii.backslash :: rest) = Ascii.backslash :: rest.take (escapeLength rest - 1) ++
      validContent (rest.drop (escapeLength rest - 1)) := by
  rw [validContent, if_neg (by decide), if_pos (by simpa using valid)]

theorem validContent_stop {byte : UInt8} {rest : List UInt8}
    (special : isPlainStringByte byte = false)
    (no_escape : byte = Ascii.backslash → escapeLength rest = 0) :
    validContent (byte :: rest) = [] := by
  rw [validContent, if_neg (by simp [special]), if_neg (by simpa using no_escape)]

/-- Content may be taken part by part. -/
theorem ofContent_append {ahead run : List UInt8} (nesting : Nat) (token : List UInt8)
    (content : validContent ahead = run ++ validContent (ahead.drop run.length)) :
    ofContent nesting token ahead =
      (ofContent nesting (token ++ run) (ahead.drop run.length)).after run := by
  unfold ofContent
  dsimp only
  rw [content, List.length_append, List.drop_drop]
  split
  · simp only [after, List.append_assoc]
  · rfl

theorem ofContent_quote (nesting : Nat) (token rest : List UInt8) :
    ofContent nesting token (Ascii.quote :: rest) =
      { taken := [Ascii.quote], mode := .normal, nesting
        lexeme := some (.string (token ++ [Ascii.quote])) } := by
  have no_content : validContent (Ascii.quote :: rest) = [] :=
    validContent_stop (by decide) fun same => absurd same (by decide)
  simp only [ofContent, no_content, List.length_nil, List.drop_zero, List.head?_cons, if_pos,
    List.nil_append, List.append_nil]

theorem ofContent_stop {ahead : List UInt8} (nesting : Nat) (token : List UInt8)
    (no_content : validContent ahead = []) (no_quote : ahead.head? ≠ some Ascii.quote) :
    ofContent nesting token ahead = { taken := [], mode := .badText, nesting } := by
  simp only [ofContent, no_content, List.length_nil, List.drop_zero, if_neg no_quote]

end Piece

end WasmText

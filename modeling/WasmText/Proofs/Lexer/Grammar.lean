import WasmText.Lexer.Lexeme

/-!
# The lexical grammar

What a scanner may make of a stretch of bytes between those before it and those after it: tokens,
and between them white space, comments and bytes in error. The grammar says which errors belong to
a stretch, and nothing about steps, modes or nesting.
-/

namespace WasmText

/-- The bytes begin with one that satisfies a predicate. -/
def Heads (accepts : UInt8 → Bool) (bytes : List UInt8) : Prop :=
  ∃ byte ∈ bytes.head?, accepts byte = true

/-- The bytes end with one that satisfies a predicate. -/
def Tails (accepts : UInt8 → Bool) (bytes : List UInt8) : Prop :=
  ∃ byte ∈ bytes.getLast?, accepts byte = true

/-! ### Strings -/

/-- A backslash and what it makes one character of. -/
inductive Escape : List UInt8 → Prop
  | letter {byte} (escaped : isEscaped byte = true) : Escape [Ascii.backslash, byte]
  | hexadecimal {first second} (first_digit : Ascii.isHexDigit first = true)
      (second_digit : Ascii.isHexDigit second = true) : Escape [Ascii.backslash, first, second]

/-- A byte that may not stand in a string. -/
structure Illegal (byte : UInt8) : Prop where
  /-- It does not stand for itself. -/
  no_plain : isPlainStringByte byte = false
  /-- It closes no string. -/
  no_quote : byte ≠ Ascii.quote
  /-- It ends no line. -/
  no_newline : byte ≠ Ascii.newline
  /-- It begins no escape. -/
  no_backslash : byte ≠ Ascii.backslash

/-- A unit of a string's content before the bytes that follow, with the error that it is. -/
inductive StringUnit : List UInt8 → Option LexError → List UInt8 → Prop
  | plain {byte rest} (plain : isPlainStringByte byte = true) : StringUnit [byte] none rest
  | escape {bytes rest} (valid : Escape bytes) : StringUnit bytes none rest
  /-- A backslash that makes no escape with what follows it on its line. -/
  | badEscape {byte rest} (no_newline : byte ≠ Ascii.newline) (no_letter : isEscaped byte = false)
      (no_digits : Ascii.isHexDigit byte = true → ¬ Heads Ascii.isHexDigit rest) :
      StringUnit [Ascii.backslash, byte]
        (some (.badEscape (Bytes.toText #[Ascii.backslash, byte]))) rest
  /-- A backslash with nothing after it on its line. -/
  | lone {rest} (alone : ∀ byte ∈ rest.head?, byte = Ascii.newline) :
      StringUnit [Ascii.backslash] (some .illegalCharInString) rest
  /-- A byte that may not stand in a string. -/
  | illegal {byte rest} (illegal : Illegal byte) :
      StringUnit [byte] (some .illegalCharInString) rest

/-- The content of a string before the bytes that follow, with its errors in order. -/
inductive StringContent : List UInt8 → List LexError → List UInt8 → Prop
  | nil {rest} : StringContent [] [] rest
  | cons {unit content error errors rest} (first : StringUnit unit error (content ++ rest))
      (further : StringContent content errors rest) :
      StringContent (unit ++ content) (error.toList ++ errors) rest

/-! ### Comments -/

/-- The bytes that delimit block comments. -/
def IsDelimiter (first second : UInt8) : Prop :=
  first = Ascii.leftParen ∧ second = Ascii.semicolon ∨
    first = Ascii.semicolon ∧ second = Ascii.rightParen

/-- Reading the bytes inside so many block comments leads inside so many others. No more is read
once the last of them is closed. -/
inductive Nesting : Nat → List UInt8 → Nat → Prop
  | nil {depth} : Nesting depth [] depth
  | opens {depth rest last} (further : Nesting (depth + 2) rest last) :
      Nesting (depth + 1) (Ascii.leftParen :: Ascii.semicolon :: rest) last
  | closes {depth rest last} (further : Nesting depth rest last) :
      Nesting (depth + 1) (Ascii.semicolon :: Ascii.rightParen :: rest) last
  /-- A byte that begins no delimiter is skipped. -/
  | skip {depth byte rest last} (no_delimiter : ∀ second ∈ rest.head?, ¬ IsDelimiter byte second)
      (further : Nesting (depth + 1) rest last) : Nesting (depth + 1) (byte :: rest) last

/-- A block comment, in which others may be nested. -/
inductive BlockComment : List UInt8 → Prop
  | intro {body} (closed : Nesting 1 body 0) :
      BlockComment (Ascii.leftParen :: Ascii.semicolon :: body)

/-- White space and comments before the bytes that follow. -/
inductive Trivia : List UInt8 → List UInt8 → Prop
  | blank {byte rest} (blank : isBlank byte = true) : Trivia [byte] rest
  | newline {rest} : Trivia [Ascii.newline] rest
  | lineComment {body rest} (on_line : Ascii.newline ∉ body) :
      Trivia (Ascii.semicolon :: Ascii.semicolon :: (body ++ [Ascii.newline])) rest
  | lastComment {body} (on_line : Ascii.newline ∉ body) :
      Trivia (Ascii.semicolon :: Ascii.semicolon :: body) []
  | blockComment {bytes rest} (comment : BlockComment bytes) : Trivia bytes rest

/-! ### Gaps -/

/-- A byte that begins nothing before the bytes that follow. -/
structure Stray (byte : UInt8) (rest : List UInt8) : Prop where
  /-- It is no opening parenthesis. -/
  no_left_paren : byte ≠ Ascii.leftParen
  /-- It is no closing parenthesis. -/
  no_right_paren : byte ≠ Ascii.rightParen
  /-- It opens no string. -/
  no_quote : byte ≠ Ascii.quote
  /-- It ends no line. -/
  no_newline : byte ≠ Ascii.newline
  /-- It is no white space. -/
  no_blank : isBlank byte = false
  /-- It stands in no atom. -/
  no_atom : Atom.isAtomByte byte = false
  /-- It opens no comment. -/
  no_comment : byte = Ascii.semicolon → rest.head? ≠ some Ascii.semicolon

/-- A run of atom bytes that is as long as it can be between the bytes around it. -/
structure AtomRun (before run rest : List UInt8) : Prop where
  /-- There is at least one byte. -/
  nonempty : run ≠ []
  /-- They are atom bytes. -/
  atom_bytes : ∀ byte ∈ run, Atom.isAtomByte byte = true
  /-- None stands right before them. -/
  from_start : ¬ Tails Atom.isAtomByte before
  /-- None stands right after them. -/
  to_end : ¬ Heads Atom.isAtomByte rest

/-- What stands between tokens, and the errors that belong to it. -/
inductive Filler : List UInt8 → List UInt8 → List LexError → List UInt8 → Prop
  | trivia {before bytes rest} (trivia : Trivia bytes rest) : Filler before bytes [] rest
  /-- A byte that begins nothing. -/
  | stray {before byte rest} (stray : Stray byte rest) :
      Filler before [byte] [.unexpectedChar] rest
  /-- An atom without a meaning. -/
  | unknownAtom {before run rest} (atom : AtomRun before run rest)
      (unknown : Scan.atomLexeme? run.toArray = none) :
      Filler before run [.unexpectedToken (Bytes.toText run.toArray)] rest
  /-- A string that its line gives up. -/
  | brokenString {before content errors rest}
      (reads : StringContent content errors (Ascii.newline :: rest)) :
      Filler before (Ascii.quote :: (content ++ [Ascii.newline])) (errors ++ [.newlineInString])
        rest
  /-- A string that the input cuts off. -/
  | lastString {before content errors} (reads : StringContent content errors []) :
      Filler before (Ascii.quote :: content) (errors ++ [.unexpectedEofInString]) []
  /-- A comment that the input cuts off. -/
  | unclosedComment {before body depth} (unclosed : Nesting 1 body (depth + 1)) :
      Filler before (Ascii.leftParen :: Ascii.semicolon :: body) [.unterminatedBlockComment] []

/-- The bytes between two tokens, and the errors that belong to them. -/
inductive Gap : List UInt8 → List UInt8 → List LexError → List UInt8 → Prop
  | nil {before rest} : Gap before [] [] rest
  | cons {before filler gap errors more rest} (first : Filler before filler errors (gap ++ rest))
      (further : Gap (before ++ filler) gap more rest) :
      Gap before (filler ++ gap) (errors ++ more) rest

/-- White space and comments only. -/
inductive Quiet : List UInt8 → List UInt8 → Prop
  | nil {rest} : Quiet [] rest
  | cons {bytes gap rest} (first : Trivia bytes (gap ++ rest)) (further : Quiet gap rest) :
      Quiet (bytes ++ gap) rest

/-! ### Tokens -/

/-- The bytes of a lexeme, and the errors that belong to it. -/
inductive Spelling : List UInt8 → List UInt8 → Lexeme → List LexError → List UInt8 → Prop
  | leftParen {before rest} (no_comment : rest.head? ≠ some Ascii.semicolon) :
      Spelling before [Ascii.leftParen] ⟨.lpar, .none⟩ [] rest
  | rightParen {before rest} : Spelling before [Ascii.rightParen] ⟨.rpar, .none⟩ [] rest
  | atom {before run lexeme rest} (atom : AtomRun before run rest)
      (known : Scan.atomLexeme? run.toArray = some lexeme) : Spelling before run lexeme [] rest
  | string {before content errors rest}
      (reads : StringContent content errors (Ascii.quote :: rest)) :
      Spelling before (Ascii.quote :: (content ++ [Ascii.quote]))
        ⟨.text, .text (Ascii.quote :: (content ++ [Ascii.quote])).toArray⟩ errors rest

end WasmText

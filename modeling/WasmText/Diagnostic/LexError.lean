/-!
# Lexical errors

What can be wrong with the input at a place. Most errors are skipped over; after a fatal one there
are no more tokens.
-/

namespace WasmText

/-- A lexical error. -/
inductive LexError where
  /-- A byte that no lexeme begins with. -/
  | unexpectedChar
  /-- A run of atom bytes that is neither a keyword, a name nor a number. -/
  | unexpectedToken (text : String)
  /-- A line that ends inside a string. The string is given up. -/
  | newlineInString
  /-- A backslash in a string that begins no escape, with the byte after it. -/
  | badEscape (text : String)
  /-- A control character in a string, or a backslash with nothing after it on its line. -/
  | illegalCharInString
  /-- The input ended inside a string. -/
  | unexpectedEofInString
  /-- The input ended inside a block comment. -/
  | unterminatedBlockComment
  /-- The buffer could not grow. -/
  | bufferAllocation
  /-- The source refused to be read. -/
  | sourceRead (reason : String)
  deriving DecidableEq, Repr

namespace LexError

/-- Whether there are no more tokens after the error. -/
def isFatal : LexError → Bool
  | unexpectedEofInString | unterminatedBlockComment | bufferAllocation | sourceRead _ => true
  | unexpectedChar | unexpectedToken _ | newlineInString | badEscape _ | illegalCharInString =>
    false

/-- The error in words. -/
def message : LexError → String
  | unexpectedChar => "unexpected char"
  | unexpectedToken text => "unexpected token \"" ++ text ++ "\""
  | newlineInString => "newline in string"
  | badEscape text => "bad escape \"" ++ text ++ "\""
  | illegalCharInString => "illegal character in string"
  | unexpectedEofInString => "unexpected EOF"
  | unterminatedBlockComment => "unterminated block comment"
  | bufferAllocation => "unable to reallocate lexer buffer"
  | sourceRead reason => s!"unable to read source: {reason}"

end LexError

end WasmText

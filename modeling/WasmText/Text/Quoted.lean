import WasmText.Text.Hexadecimal

/-!
# Quoted texts

A text between double quotes in which the quote, the backslash and every ASCII control character
are written as escapes, for dumps that must stay on one line.
-/

namespace WasmText

/-- The escaped form of one character. -/
def quotedCharacter (character : Char) : String :=
  if character = '"' then "\\\""
  else if character = '\\' then "\\\\"
  else if character = '\n' then "\\n"
  else if character = '\r' then "\\r"
  else if character = '\t' then "\\t"
  else if character.toNat = 0 then "\\0"
  else if character.toNat < 0x20 || character.toNat = 0x7f then
    "\\u\x7b" ++ hexadecimal character.toNat ++ "\x7d"
  else
    character.toString

/-- A text between quotes, with its special characters escaped. -/
def quotedText (text : String) : String :=
  text.foldl (fun written character => written ++ quotedCharacter character) "\"" ++ "\""

end WasmText

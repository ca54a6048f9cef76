import WasmText.Ascii
import WasmText.Bytes
import WasmText.Opcode.Table
import WasmText.Token.Kind

/-!
# Keywords

The words that the text format gives a meaning: reserved words, value types and the mnemonics of
the opcode table. No word stands in two of the lists, so a word has at most one meaning.
-/

namespace WasmText

/-- The meaning of a word. -/
inductive Keyword where
  /-- A token that the kind says all about. -/
  | plain (kind : TokenKind)
  /-- A value type, or a scalar constant of a type. -/
  | typed (kind : TokenKind) (type : ValueType)
  /-- An instruction. -/
  | instruction (kind : TokenKind) (opcode : Opcode)
  deriving DecidableEq, Repr

namespace Keyword

/-- The words of modules and scripts. -/
def reservedWords : List (String × TokenKind) :=
  [("anyfunc", .anyfunc), ("mut", .mutable), ("then", .thenBranch), ("call_import",
    .callImport), ("type", .type), ("func", .func), ("param", .param), ("result", .result),
    ("local", .localDecl), ("global", .globalDecl), ("module", .moduleDecl), ("table",
    .table), ("memory", .memory), ("start", .start), ("elem", .elem), ("data", .data),
    ("offset", .offset), ("import", .importDecl), ("export", .exportDecl), ("register",
    .register), ("invoke", .invoke), ("get", .get), ("assert_malformed", .assertMalformed),
    ("assert_invalid", .assertInvalid), ("assert_unlinkable", .assertUnlinkable),
    ("assert_return", .assertReturn), ("assert_return_nan", .assertReturnNan),
    ("assert_trap", .assertTrap), ("input", .input), ("output", .output)]

/-- The value types. Vectors of numbers have a word for each shape and one type. -/
def valueTypeWords : List (String × ValueType) :=
  [("i32", .i32), ("i64", .i64), ("f32", .f32), ("f64", .f64), ("f32x4", .m128), ("i32x4", .m128),
    ("i16x8", .m128), ("i8x16", .m128), ("i64x2", .m128), ("f64x2", .m128), ("b64x2", .b2),
    ("b32x4", .b4), ("b16x8", .b8), ("b8x16", .b16)]

/-- The instructions that have a kind of their own. -/
def soleInstructions : List (String × TokenKind) :=
  [("unreachable", .unreachable), ("nop", .nop), ("block", .block), ("loop", .loop), ("if",
    .ifBlock), ("else", .elseBranch), ("end", .blockEnd), ("br", .br), ("br_if", .brIf),
    ("br_table", .brTable), ("return", .ret), ("call", .call), ("call_indirect",
    .callIndirect), ("drop", .drop), ("get_local", .getLocal), ("set_local", .setLocal),
    ("tee_local", .teeLocal), ("get_global", .getGlobal), ("set_global", .setGlobal),
    ("current_memory", .currentMemory), ("grow_memory", .growMemory)]

/-- The meaning of an instruction's mnemonic. -/
def ofOpcode? (opcode : Opcode) : Option Keyword :=
  match opcode.family with
  | .reserved => none
  | .control | .memory =>
    (soleInstructions.lookup opcode.mnemonic).map (.instruction · opcode)
  | .load => some (.instruction .load opcode)
  | .store => some (.instruction .store opcode)
  | .const => some (.typed .const opcode.result)
  | .unary => some (.instruction .unary opcode)
  | .binary => some (.instruction .binary opcode)
  | .compare => some (.instruction .compare opcode)
  | .convert => some (.instruction .convert opcode)
  | .select => some (.instruction .select opcode)
  | .vectorConst => some (.instruction .simdConst opcode)
  | .vectorBuild => some (.instruction .simdBuild opcode)
  | .vectorSwizzle => some (.instruction .simdSwizzle opcode)
  | .vectorReplace => some (.instruction .simdReplace opcode)

/-- A second word for the conditional instruction. -/
def aliasWords : List (String × Keyword) :=
  ((Opcode.ofMnemonic? "if").map fun opcode => ("if_else", .instruction .ifBlock opcode)).toList

/-- The mnemonics of the opcode table. -/
def mnemonicWords : List (String × Keyword) :=
  Opcode.all.filterMap fun opcode => (ofOpcode? opcode).map (opcode.mnemonic, ·)

/-- Every word with its meaning. -/
def words : List (String × Keyword) :=
  reservedWords.map (fun (word, kind) => (word, .plain kind)) ++ aliasWords ++
    valueTypeWords.map (fun (word, type) => (word, .typed .valueType type)) ++ mnemonicWords

/-- The bytes of every word with its meaning. -/
def table : List (Bytes × Keyword) :=
  words.map fun (word, keyword) => (Bytes.ofString word, keyword)

/-- Whether bytes begin with a small letter, as every word does. -/
def maySpell (bytes : Bytes) : Bool :=
  Ascii.isSmallLetter (bytes.getOrZero 0)

/-- The meaning of the word that the bytes spell. -/
def ofBytes? (bytes : Bytes) : Option Keyword :=
  if maySpell bytes then table.lookup bytes else none

end Keyword

end WasmText

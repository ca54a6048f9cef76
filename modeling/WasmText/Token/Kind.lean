/-!
# Token kinds

Reserved words and control instructions each have a kind of their own. The other instructions share
a kind with those that the grammar treats alike.
-/

namespace WasmText

/-- The kind of a token. -/
inductive TokenKind where
  /-- The end of the input. -/
  | eof
  /-- A left parenthesis. -/
  | lpar
  /-- A right parenthesis. -/
  | rpar
  /-- An unsigned integer. -/
  | nat
  /-- A signed integer. -/
  | int
  /-- A float of any form. -/
  | float
  /-- A string, its quotes included. -/
  | text
  /-- A name that begins with a dollar sign. -/
  | var
  /-- A value type. -/
  | valueType
  /-- An offset and its number. -/
  | offsetEqNat
  /-- An alignment and its number. -/
  | alignEqNat
  /-- The word `anyfunc`. -/
  | anyfunc
  /-- The word `mut`. -/
  | mutable
  /-- The word `then`. -/
  | thenBranch
  /-- The word `call_import`. -/
  | callImport
  /-- The word `type`. -/
  | type
  /-- The word `func`. -/
  | func
  /-- The word `param`. -/
  | param
  /-- The word `result`. -/
  | result
  /-- The word `local`. -/
  | localDecl
  /-- The word `global`. -/
  | globalDecl
  /-- The word `module`. -/
  | moduleDecl
  /-- The word `table`. -/
  | table
  /-- The word `memory`. -/
  | memory
  /-- The word `start`. -/
  | start
  /-- The word `elem`. -/
  | elem
  /-- The word `data`. -/
  | data
  /-- The word `offset`. -/
  | offset
  /-- The word `import`. -/
  | importDecl
  /-- The word `export`. -/
  | exportDecl
  /-- The word `register`. -/
  | register
  /-- The word `invoke`. -/
  | invoke
  /-- The word `get`. -/
  | get
  /-- The word `assert_malformed`. -/
  | assertMalformed
  /-- The word `assert_invalid`. -/
  | assertInvalid
  /-- The word `assert_unlinkable`. -/
  | assertUnlinkable
  /-- The word `assert_return`. -/
  | assertReturn
  /-- The word `assert_return_nan`. -/
  | assertReturnNan
  /-- The word `assert_trap`. -/
  | assertTrap
  /-- The word `input`. -/
  | input
  /-- The word `output`. -/
  | output
  /-- The instruction `unreachable`. -/
  | unreachable
  /-- The instruction `nop`. -/
  | nop
  /-- The instruction `block`. -/
  | block
  /-- The instruction `loop`. -/
  | loop
  /-- The instruction `if`. -/
  | ifBlock
  /-- The instruction `else`. -/
  | elseBranch
  /-- The instruction `end`. -/
  | blockEnd
  /-- The instruction `br`. -/
  | br
  /-- The instruction `br_if`. -/
  | brIf
  /-- The instruction `br_table`. -/
  | brTable
  /-- The instruction `return`. -/
  | ret
  /-- The instruction `call`. -/
  | call
  /-- The instruction `call_indirect`. -/
  | callIndirect
  /-- The instruction `drop`. -/
  | drop
  /-- The instruction `get_local`. -/
  | getLocal
  /-- The instruction `set_local`. -/
  | setLocal
  /-- The instruction `tee_local`. -/
  | teeLocal
  /-- The instruction `get_global`. -/
  | getGlobal
  /-- The instruction `set_global`. -/
  | setGlobal
  /-- The instruction `current_memory`. -/
  | currentMemory
  /-- The instruction `grow_memory`. -/
  | growMemory
  /-- A load. -/
  | load
  /-- A store. -/
  | store
  /-- A scalar constant. -/
  | const
  /-- An instruction of one operand. -/
  | unary
  /-- An instruction of two operands. -/
  | binary
  /-- A comparison. -/
  | compare
  /-- A conversion. -/
  | convert
  /-- A selection. -/
  | select
  /-- A vector constant. -/
  | simdConst
  /-- A vector built from lanes. -/
  | simdBuild
  /-- A swizzle or shuffle. -/
  | simdSwizzle
  /-- A replacement of a lane. -/
  | simdReplace
  deriving DecidableEq, Repr

namespace TokenKind

/-- The name of a kind in dumps. -/
def name : TokenKind → String
  | eof => "EOF"
  | lpar => "LPAR"
  | rpar => "RPAR"
  | nat => "NAT"
  | int => "INT"
  | float => "FLOAT"
  | text => "TEXT"
  | var => "VAR"
  | valueType => "VALUE_TYPE"
  | offsetEqNat => "OFFSET_EQ_NAT"
  | alignEqNat => "ALIGN_EQ_NAT"
  | anyfunc => "ANYFUNC"
  | mutable => "MUT"
  | thenBranch => "THEN"
  | callImport => "CALL_IMPORT"
  | type => "TYPE"
  | func => "FUNC"
  | param => "PARAM"
  | result => "RESULT"
  | localDecl => "LOCAL"
  | globalDecl => "GLOBAL"
  | moduleDecl => "MODULE"
  | table => "TABLE"
  | memory => "MEMORY"
  | start => "START"
  | elem => "ELEM"
  | data => "DATA"
  | offset => "OFFSET"
  | importDecl => "IMPORT"
  | exportDecl => "EXPORT"
  | register => "REGISTER"
  | invoke => "INVOKE"
  | get => "GET"
  | assertMalformed => "ASSERT_MALFORMED"
  | assertInvalid => "ASSERT_INVALID"
  | assertUnlinkable => "ASSERT_UNLINKABLE"
  | assertReturn => "ASSERT_RETURN"
  | assertReturnNan => "ASSERT_RETURN_NAN"
  | assertTrap => "ASSERT_TRAP"
  | input => "INPUT"
  | output => "OUTPUT"
  | unreachable => "UNREACHABLE"
  | nop => "NOP"
  | block => "BLOCK"
  | loop => "LOOP"
  | ifBlock => "IF"
  | elseBranch => "ELSE"
  | blockEnd => "END"
  | br => "BR"
  | brIf => "BR_IF"
  | brTable => "BR_TABLE"
  | ret => "RETURN"
  | call => "CALL"
  | callIndirect => "CALL_INDIRECT"
  | drop => "DROP"
  | getLocal => "GET_LOCAL"
  | setLocal => "SET_LOCAL"
  | teeLocal => "TEE_LOCAL"
  | getGlobal => "GET_GLOBAL"
  | setGlobal => "SET_GLOBAL"
  | currentMemory => "CURRENT_MEMORY"
  | growMemory => "GROW_MEMORY"
  | load => "LOAD"
  | store => "STORE"
  | const => "CONST"
  | unary => "UNARY"
  | binary => "BINARY"
  | compare => "COMPARE"
  | convert => "CONVERT"
  | select => "SELECT"
  | simdConst => "SIMD_CONST"
  | simdBuild => "SIMD_BUILD"
  | simdSwizzle => "SIMD_SWIZZLE"
  | simdReplace => "SIMD_REPLACE"

end TokenKind

end WasmText

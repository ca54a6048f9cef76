import WasmText.ValueType

/-!
# Opcodes

An opcode is one instruction's row of the opcode table: its code, which is fixed by the binary
format, its mnemonic in the text format, and what the later stages need to know of its operands.
-/

namespace WasmText

/-- The shape of an instruction, as the text grammar sees it. -/
inductive OpcodeClass where
  /-- A code that no instruction has. -/
  | reserved
  /-- Structured control, calls, locals and globals. -/
  | control
  /-- The size of memory and its growth. -/
  | memory
  /-- Loads. -/
  | load
  /-- Stores. -/
  | store
  /-- Scalar constants. -/
  | const
  /-- One operand. -/
  | unary
  /-- Two operands. -/
  | binary
  /-- Comparisons. -/
  | compare
  /-- Conversions, reinterpretations and tests for zero. -/
  | convert
  /-- Scalar and vector selection. -/
  | select
  /-- Vector constants. -/
  | vectorConst
  /-- Vectors built from lanes. -/
  | vectorBuild
  /-- Vector swizzles and shuffles. -/
  | vectorSwizzle
  /-- Replacement of a vector lane. -/
  | vectorReplace
  deriving DecidableEq, Repr

namespace OpcodeClass

/-- Every class, the reserved one first. -/
def all : List OpcodeClass :=
  [reserved, control, memory, load, store, const, unary, binary, compare, convert, select,
    vectorConst, vectorBuild, vectorSwizzle, vectorReplace]

/-- The name of a class in dumps. -/
def name : OpcodeClass → String
  | reserved => "reserved"
  | control => "control"
  | memory => "memory"
  | load => "load"
  | store => "store"
  | const => "const"
  | unary => "unary"
  | binary => "binary"
  | compare => "compare"
  | convert => "convert"
  | select => "select"
  | vectorConst => "vector-const"
  | vectorBuild => "vector-build"
  | vectorSwizzle => "vector-swizzle"
  | vectorReplace => "vector-replace"

end OpcodeClass

/-- An instruction of the opcode table. -/
structure Opcode where
  /-- The code in the binary format. -/
  code : Nat
  /-- The name in the text format. -/
  mnemonic : String
  /-- The shape of the instruction. -/
  family : OpcodeClass
  /-- The type of the result. -/
  result : ValueType
  /-- The type of the first operand. -/
  firstOperand : ValueType
  /-- The type of the second operand. -/
  secondOperand : ValueType
  /-- The bytes of memory accessed, zero for an instruction that leaves memory alone. -/
  memorySize : Nat
  /-- The number of lanes, zero for a scalar instruction. -/
  lanes : Nat
  deriving DecidableEq, Repr

namespace Opcode

/-- The number of codes, reserved ones included. -/
def codeCount : Nat := 760

/-- The first code above the scalar band. -/
def firstVectorCode : Nat := 256

/-- The first code of the second vector band. -/
def secondVectorCode : Nat := 512

/-- The first code of the band set aside for hosts. -/
def firstHostCode : Nat := 720

/-- The byte that introduces an opcode of the first vector band in the binary format. -/
def vectorPrefixByte : Nat := 6

/-- The byte that introduces an opcode of the second vector band in the binary format. -/
def secondVectorPrefixByte : Nat := 7

/-- Whether the code lies above the scalar band. -/
def isExtended (opcode : Opcode) : Bool :=
  firstVectorCode ≤ opcode.code

/-- Whether the instruction reads or writes memory. -/
def accessesMemory (opcode : Opcode) : Bool :=
  opcode.memorySize != 0

/-! ### Alignment -/

/-- The alignment that stands for the natural one of whichever instruction it is given to, the
greatest word of 32 bits. -/
def naturalAlignment : Nat := 0xffff_ffff

/-- Whether an alignment is the natural one, written out or not. -/
def isNaturallyAligned (opcode : Opcode) (alignment : Nat) : Bool :=
  alignment == naturalAlignment || alignment == opcode.memorySize

/-- The alignment in bytes: the instruction's memory size if the natural one is meant. -/
def effectiveAlignment (opcode : Opcode) (alignment : Nat) : Nat :=
  if alignment = naturalAlignment then opcode.memorySize else alignment

end Opcode

end WasmText

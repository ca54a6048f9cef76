import WasmText.Opcode.Lanes
import WasmText.Opcode.Scalar
import WasmText.Opcode.Vector
import WasmText.Text.Hexadecimal

/-!
# The opcode table

Every instruction, and the ways to find one: by its code, or as the constant of a type.
-/

namespace WasmText.Opcode

/-- Every instruction, in ascending order of codes. -/
def all : List Opcode :=
  controlInstructions ++ scalarMemoryInstructions ++ scalarConstants ++ scalarComparisons ++
    scalarArithmetic ++ vectorConstants ++ booleanVectorInstructions ++ byteVectorInstructions ++
    shortVectorInstructions ++ wordVectorInstructions ++ longVectorInstructions ++
    floatVectorInstructions ++ doubleVectorInstructions ++ doubleVectorRemainder ++
    laneInstructions

/-- The instruction that has a code. -/
def ofCode? (code : Nat) : Option Opcode :=
  all.find? fun opcode => opcode.code == code

/-- The class of a code, reserved where no instruction has it. -/
def classOfCode (code : Nat) : OpcodeClass :=
  ((ofCode? code).map family).getD .reserved

/-- The instruction that has a mnemonic. -/
def ofMnemonic? (mnemonic : String) : Option Opcode :=
  all.find? fun opcode => opcode.mnemonic == mnemonic

/-- The scalar constant of a type. -/
def scalarConst? (type : ValueType) : Option Opcode :=
  all.find? fun opcode => opcode.family = .const ∧ opcode.result = type

/-- The vector constant of a type. Constants of the shapeless 128-bit type are written as four
floats; each boolean vector type has one shape. -/
def vectorConst? (type : ValueType) : Option Opcode :=
  all.find? fun opcode =>
    opcode.family = .vectorConst ∧ opcode.result = type ∧
      (type = .m128 → opcode.firstOperand = .f32)

/-- The fields of an instruction on one line, its code first, as the table is dumped. -/
def display (opcode : Opcode) : String :=
  let digits := hexadecimal opcode.code
  let padding := "".pushn '0' (3 - digits.length)
  s!"0x{padding}{digits} {opcode.mnemonic} {opcode.family.name} {opcode.result.name} " ++
    s!"{opcode.firstOperand.name} {opcode.secondOperand.name} {opcode.memorySize} {opcode.lanes}"

end WasmText.Opcode

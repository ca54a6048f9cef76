/-!
# Value types

The types of values, with their signed codes in the binary format and their names in dumps.
-/

namespace WasmText

/-- A value type. -/
inductive ValueType where
  /-- 32-bit integers. -/
  | i32
  /-- 64-bit integers. -/
  | i64
  /-- 32-bit floats. -/
  | f32
  /-- 64-bit floats. -/
  | f64
  /-- 128-bit vectors of any lane shape. -/
  | m128
  /-- Vectors of two booleans. -/
  | b2
  /-- Vectors of four booleans. -/
  | b4
  /-- Vectors of eight booleans. -/
  | b8
  /-- Vectors of sixteen booleans. -/
  | b16
  /-- References to functions of any signature. -/
  | anyfunc
  /-- Function signatures. -/
  | func
  /-- No value. -/
  | void
  /-- An unknown type, which only inference uses. -/
  | any
  deriving DecidableEq, Repr

namespace ValueType

/-- Every value type, in the order of the binary format's table. -/
def all : List ValueType :=
  [i32, i64, f32, f64, m128, b2, b4, b8, b16, anyfunc, func, void, any]

/-- The signed code that stands for a type in the binary format. -/
def code : ValueType → Int
  | i32 => -0x01
  | i64 => -0x02
  | f32 => -0x03
  | f64 => -0x04
  | m128 => -0x05
  | b2 => -0x06
  | b4 => -0x07
  | b8 => -0x08
  | b16 => -0x09
  | anyfunc => -0x10
  | func => -0x20
  | void => -0x40
  | any => 0

/-- The type that a code stands for. -/
def ofCode? (code : Int) : Option ValueType :=
  all.find? fun type => type.code == code

/-- The name of a type in messages and dumps. -/
def name : ValueType → String
  | i32 => "i32"
  | i64 => "i64"
  | f32 => "f32"
  | f64 => "f64"
  | m128 => "m128"
  | b2 => "b2"
  | b4 => "b4"
  | b8 => "b8"
  | b16 => "b16"
  | anyfunc => "anyfunc"
  | func => "func"
  | void => "void"
  | any => "any"

/-- The vector types, boolean vectors included. -/
def isVector : ValueType → Bool
  | m128 | b2 | b4 | b8 | b16 => true
  | _ => false

/-- Reading a code back gives the type that was written. -/
theorem ofCode?_code (type : ValueType) : ofCode? type.code = some type := by
  cases type <;> rfl

end ValueType

end WasmText
